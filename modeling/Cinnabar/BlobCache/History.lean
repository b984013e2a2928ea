import Cinnabar.BlobCache.Session

/-! # What the history says of the lanes -/

namespace Cinnabar.BlobCache

open Std BlobCacheResolver Function List

variable {platform : Platform} {r s t : BlobCacheResolver} {sequence : ℕ}

section Lanes

def BlobCacheResolver.Holds (r : BlobCacheResolver) (sequence : ℕ) : Prop :=
  (∃ transaction, r.pending[sequence]? = some transaction) ∨
    (∃ item, r.ready[sequence]? = some item) ∨ ∃ item, r.immediateReady[sequence]? = some item

lemma BlobCacheResolver.Cached.holds {columns : List ColumnKey} (h : r.Cached sequence columns) :
    r.Holds sequence :=
  h.imp (fun ⟨transaction,hsome,_⟩=>⟨transaction,hsome⟩) fun ⟨item,hsome,_⟩=>Or.inl ⟨item,hsome⟩

/-- Work leaves the lanes or is rebuilt in place. -/
structure Descends (platform : Platform) (r t : BlobCacheResolver) : Prop where
  next : t.nextReadySequence=r.nextReadySequence
  pending : ∀ {sequence : ℕ} {transaction : PendingTransaction},
    t.pending[sequence]? = some transaction → ∃ earlier : PendingTransaction,
      r.pending[sequence]? = some earlier ∧ transaction.packet=earlier.packet ∧ transaction.columns=earlier.columns
  ready : ∀ {sequence : ℕ} {item : ReadyItem}, t.ready[sequence]? = some item →
    r.ready[sequence]? = some item ∨ ∃ transaction : PendingTransaction,
      r.pending[sequence]? = some transaction ∧ item.columns=transaction.columns ∧
        Rebuilt platform transaction.packet item.value
  immediate : ∀ {sequence : ℕ} {item : ReadyItem}, t.immediateReady[sequence]? = some item →
    r.immediateReady[sequence]? = some item

lemma Evolves.descends {handed : List ChunkResyncEvent} (h : Evolves platform handed r t) :
    Descends platform r t := ⟨h.next,h.pending,h.ready,h.immediate⟩

lemma Left.descends {popped : Popped} (h : Left r popped t) : Descends platform r t where
  next := h.next
  pending hsome := ⟨_,h.pending ▸ hsome,rfl,rfl⟩
  ready hsome := Or.inl ((h.ready _ _).1 hsome).1
  immediate hsome := ((h.immediate _ _).1 hsome).1

namespace Descends

lemma cached (h : Descends platform r t) {columns : List ColumnKey}
    (ht : t.Cached sequence columns) : r.Cached sequence columns := by
  rcases ht with ⟨transaction,hsome,rfl⟩ | ⟨item,hsome,rfl⟩
  · obtain ⟨earlier,hearlier,-,hcolumns⟩ := h.pending hsome
    exact Or.inl ⟨earlier,hearlier,hcolumns.symm⟩
  · rcases h.ready hsome with hready | ⟨transaction,hpending,hcolumns,-⟩
    · exact Or.inr ⟨item,hready,rfl⟩
    · exact Or.inl ⟨transaction,hpending,hcolumns.symm⟩

lemma holds (h : Descends platform r t) (ht : t.Holds sequence) : r.Holds sequence := by
  rcases ht with ⟨transaction,hsome⟩ | ⟨item,hsome⟩ | ⟨item,hsome⟩
  · exact (h.cached (Or.inl ⟨transaction,hsome,rfl⟩)).holds
  · exact (h.cached (Or.inr ⟨item,hsome,rfl⟩)).holds
  · exact Or.inr (Or.inr ⟨item,h.immediate hsome⟩)

end Descends

structure Enlarges (offered : Option PendingPacket) (r t : BlobCacheResolver) : Prop where
  next : t.nextReadySequence=r.nextReadySequence+1
  pending : ∀ {sequence : ℕ} {transaction : PendingTransaction}, t.pending[sequence]? = some transaction →
    (sequence=r.nextReadySequence ∧ offered=some transaction.packet) ∨ r.pending[sequence]? = some transaction
  ready : t.ready=r.ready
  immediate : ∀ {sequence : ℕ} {item : ReadyItem}, t.immediateReady[sequence]? = some item →
    sequence=r.nextReadySequence ∨ r.immediateReady[sequence]? = some item

lemma Admitted.enlarges {transaction : PendingTransaction} {indexed : List ℕ}
    (h : Admitted r transaction indexed t) : Enlarges (some transaction.packet) r t where
  next := h.next
  pending hsome := (h.lookup hsome).imp (fun ⟨heq,hsame⟩=>⟨heq,by rw [hsame]⟩) id
  ready := h.ready
  immediate hsome := Or.inr (h.immediate ▸ hsome)

lemma Entered.enlarges {columns : List ColumnKey} {offered : Option PendingPacket}
    (h : Entered r columns t) : Enlarges offered r t where
  next := h.next
  pending hsome := Or.inr (h.pending ▸ hsome)
  ready := h.ready
  immediate {sequence item} hsome := by
    obtain ⟨newest,-,-,hinsert⟩ := h.immediate
    rw [hinsert,lookup_insert] at hsome
    split at hsome
    · rename_i heq
      exact Or.inl heq.symm
    · exact Or.inr hsome

end Lanes

/-- An ordinary item waited in its lane, when the emission was popped, for earlier cached work
that shares a column with it and none with the emission. -/
def Emission.HeldBack (emission : Emission) (sequence : ℕ) (item : ReadyItem) : Prop :=
  emission.before.immediateReady[sequence]? = some item ∧
    ∃ earlier others, earlier < sequence ∧ emission.before.Cached earlier others ∧
      shareColumn others item.columns=true ∧
      ¬shareColumn others emission.columns=true

/-- The history of the lanes. -/
structure Chronicle (platform : Platform) (clock : ℕ) (born : ℕ → ℕ)
    (origin : ℕ → Option PendingPacket) (emitted : List Emission) (r : BlobCacheResolver) :
    Prop where
  bounded : ∀ {sequence : ℕ}, r.Holds sequence → sequence < r.nextReadySequence
  below : ∀ {sequence : ℕ}, sequence < r.nextReadySequence → born sequence < clock
  increasing : ∀ {a b : ℕ}, a<b → b < r.nextReadySequence → born a<born b
  pendingOrigin : ∀ {sequence : ℕ} {transaction : PendingTransaction},
    r.pending[sequence]? = some transaction → origin sequence=some transaction.packet
  readyOrigin : ∀ {sequence : ℕ} {item : ReadyItem}, r.ready[sequence]? = some item →
    ∃ packet, origin sequence=some packet ∧ Rebuilt platform packet item.value
  spentBelow : ∀ {emission : Emission}, emission ∈ emitted → emission.birth < clock
  spent : ∀ {emission : Emission}, emission ∈ emitted → ∀ {sequence : ℕ}, r.Holds sequence →
    born sequence≠emission.birth
  later : ∀ {emission : Emission}, emission ∈ emitted → ∀ {sequence : ℕ}
    {columns : List ColumnKey}, r.Cached sequence columns →
    shareColumn emission.columns columns=true →
    emission.birth<born sequence
  laterOrdinary : ∀ {emission : Emission}, emission ∈ emitted → ∀ {sequence : ℕ}
    {item : ReadyItem}, r.immediateReady[sequence]? = some item →
    shareColumn emission.columns item.columns=true →
    emission.birth<born sequence ∨ emission.HeldBack sequence item

namespace Chronicle

variable {clock clock' : ℕ} {born : ℕ → ℕ} {origin : ℕ → Option PendingPacket}
  {emitted : List Emission}

section

variable (h : Chronicle platform clock born origin emitted r)
include h

lemma descends (ht : Descends platform r t) (hclock : clock ≤ clock') :
    Chronicle platform clock' born origin emitted t where
  bounded hholds := by
    rw [ht.next]
    exact h.bounded (ht.holds hholds)
  below hlt := Nat.lt_of_lt_of_le (h.below (ht.next ▸ hlt)) hclock
  increasing hlt hnext := h.increasing hlt (ht.next ▸ hnext)
  pendingOrigin hsome := by
    obtain ⟨earlier,hearlier,hpacket,-⟩ := ht.pending hsome
    rw [hpacket]
    exact h.pendingOrigin hearlier
  readyOrigin hsome := by
    rcases ht.ready hsome with hready | ⟨transaction,hpending,-,hrebuilt⟩
    · exact h.readyOrigin hready
    · exact ⟨transaction.packet,h.pendingOrigin hpending,hrebuilt⟩
  spentBelow hmem := Nat.lt_of_lt_of_le (h.spentBelow hmem) hclock
  spent hmem _ hholds := h.spent hmem (ht.holds hholds)
  later hmem _ _ hcached hshare := h.later hmem (ht.cached hcached) hshare
  laterOrdinary hmem _ _ hsome hshare := h.laterOrdinary hmem (ht.immediate hsome) hshare

lemma cleared (hclock : clock ≤ clock') : Chronicle platform clock' born origin emitted .reset where
  bounded hholds := by
    rcases hholds with ⟨found,hsome⟩ | ⟨found,hsome⟩ | ⟨found,hsome⟩
    all_goals
      cases hsome
  below hlt := absurd hlt (Nat.not_lt_zero _)
  increasing _ hlt := absurd hlt (Nat.not_lt_zero _)
  pendingOrigin {sequence transaction} hsome := by
    cases hsome
  readyOrigin {sequence item} hsome := by
    cases hsome
  spentBelow hmem := Nat.lt_of_lt_of_le (h.spentBelow hmem) hclock
  spent {emission} _ sequence hholds := by
    rcases hholds with ⟨found,hsome⟩ | ⟨found,hsome⟩ | ⟨found,hsome⟩
    all_goals
      cases hsome
  later {emission} _ sequence columns hcached _ := by
    rcases hcached with ⟨found,hsome,-⟩ | ⟨found,hsome,-⟩
    all_goals
      cases hsome
  laterOrdinary {emission} _ sequence item hsome _ := by
    cases hsome

/-- New work is born last. -/
lemma enlarged {offered : Option PendingPacket} (ht : Enlarges offered r t) :
    Chronicle platform (clock+1) (update born r.nextReadySequence clock)
      (update origin r.nextReadySequence offered) emitted t := by
  have hne : ∀ {sequence : ℕ}, r.Holds sequence → sequence≠r.nextReadySequence :=
    fun hholds=>Nat.ne_of_lt (h.bounded hholds)
  have hself : update born r.nextReadySequence clock r.nextReadySequence=clock := update_self _ _ _
  have hborn : ∀ {sequence : ℕ}, sequence≠r.nextReadySequence →
      update born r.nextReadySequence clock sequence=born sequence :=
    fun hne=>update_of_ne hne _ _
  have hholds : ∀ {sequence : ℕ}, t.Holds sequence → sequence=r.nextReadySequence ∨ r.Holds sequence := by
    rintro sequence (⟨transaction,hsome⟩ | ⟨item,hsome⟩ | ⟨item,hsome⟩)
    · exact (ht.pending hsome).imp And.left fun h=>Or.inl ⟨transaction,h⟩
    · exact Or.inr (Or.inr (Or.inl ⟨item,ht.ready ▸ hsome⟩))
    · exact (ht.immediate hsome).imp id fun h=>Or.inr (Or.inr ⟨item,h⟩)
  have hcached : ∀ {sequence : ℕ} {columns : List ColumnKey}, t.Cached sequence columns →
      sequence=r.nextReadySequence ∨ r.Cached sequence columns := by
    rintro sequence columns (⟨transaction,hsome,rfl⟩ | ⟨item,hsome,rfl⟩)
    · exact (ht.pending hsome).imp And.left fun h=>Or.inl ⟨transaction,h,rfl⟩
    · exact Or.inr (Or.inr ⟨item,ht.ready ▸ hsome,rfl⟩)
  exact {
    bounded := fun hmem=>by
      rw [ht.next]
      rcases hholds hmem with rfl | hmem
      · exact Nat.lt_succ_self _
      · exact Nat.lt_succ_of_lt (h.bounded hmem)
    below := fun {sequence} hlt=>by
      rw [ht.next] at hlt
      rcases Nat.lt_succ_iff_lt_or_eq.1 hlt with hlt | rfl
      · rw [hborn (Nat.ne_of_lt hlt)]
        exact Nat.lt_succ_of_lt (h.below hlt)
      · rw [hself]
        exact Nat.lt_succ_self _
    increasing := fun {a b} hlt hnext=>by
      rw [ht.next] at hnext
      rcases Nat.lt_succ_iff_lt_or_eq.1 hnext with hnext | rfl
      · rw [hborn (Nat.ne_of_lt hnext),hborn (Nat.ne_of_lt (Nat.lt_trans hlt hnext))]
        exact h.increasing hlt hnext
      · rw [hself,hborn (Nat.ne_of_lt hlt)]
        exact h.below hlt
    pendingOrigin := fun {sequence transaction} hsome=>by
      rcases ht.pending hsome with ⟨rfl,hoffered⟩ | hsome
      · rw [update_self]
        exact hoffered
      · rw [update_of_ne (hne (Or.inl ⟨transaction,hsome⟩))]
        exact h.pendingOrigin hsome
    readyOrigin := fun {sequence item} hsome=>by
      rw [ht.ready] at hsome
      rw [update_of_ne (hne (Or.inr (Or.inl ⟨item,hsome⟩)))]
      exact h.readyOrigin hsome
    spentBelow := fun hmem=>Nat.lt_succ_of_lt (h.spentBelow hmem)
    spent := fun {emission} hmem {sequence} hheld=>by
      rcases hholds hheld with rfl | hheld
      · rw [hself]
        exact (Nat.ne_of_lt (h.spentBelow hmem)).symm
      · rw [hborn (hne hheld)]
        exact h.spent hmem hheld
    later := fun {emission} hmem {sequence columns} hheld hshare=>by
      rcases hcached hheld with rfl | hheld
      · rw [hself]
        exact h.spentBelow hmem
      · rw [hborn (hne hheld.holds)]
        exact h.later hmem hheld hshare
    laterOrdinary := fun {emission} hmem {sequence item} hsome hshare=>by
      rcases ht.immediate hsome with rfl | hsome
      · rw [hself]
        exact Or.inl (h.spentBelow hmem)
      · rw [hborn (hne (Or.inr (Or.inr ⟨item,hsome⟩)))]
        exact h.laterOrdinary hmem hsome hshare }

end

end Chronicle

section Emitting

def Emission.Precedes (first second : Emission) : Prop :=
  shareColumn first.columns second.columns=true → first.birth < second.birth ∨ ∃ sequence item,
      second.popped = .immediate sequence item ∧ first.HeldBack sequence item

variable {world : World} {clock : ℕ} {born : ℕ → ℕ} {origin : ℕ → Option PendingPacket}
  {emitted : List Emission} {popped : Popped} {left : BlobCacheResolver} {value : BlobCacheReady}

lemma BlobCacheResolver.Lane.holds (h : r.Lane popped) : r.Holds popped.sequence := by
  cases popped with
  | cached sequence item => exact Or.inr (Or.inl ⟨item,h⟩)
  | immediate sequence item => exact Or.inr (Or.inr ⟨item,h⟩)

lemma Consistent.sequence_of_lane (h : Consistent platform [] [] world)
    (hlane : world.resolver.Lane popped) : popped.item.sequence=popped.sequence := by
  cases popped with
  | cached sequence item => exact (h.readyBelow hlane).1
  | immediate sequence item => exact (h.immediateBelow hlane).1

lemma Left.gone (hleft : Left world.resolver popped left)
    (h : Consistent platform [] [] world) (hlane : world.resolver.Lane popped) :
    ¬left.Holds popped.sequence := by
  cases popped with
  | cached sequence item =>
    obtain ⟨-,-,hnone⟩ := h.readyBelow hlane
    change ¬left.Holds sequence
    rintro (⟨transaction,hsome⟩ | ⟨found,hsome⟩ | ⟨found,hsome⟩)
    · rw [hleft.pending,hnone] at hsome
      cases hsome
    · obtain ⟨hsome,hne⟩ := (hleft.ready _ _).1 hsome
      rw [hlane] at hsome
      cases hsome
      exact hne rfl
    · have hready := (h.immediateBelow ((hleft.immediate _ _).1 hsome).1).2.2.2
      rw [hlane] at hready
      cases hready
  | immediate sequence item =>
    obtain ⟨-,-,hnone,hready⟩ := h.immediateBelow hlane
    change ¬left.Holds sequence
    rintro (⟨transaction,hsome⟩ | ⟨found,hsome⟩ | ⟨found,hsome⟩)
    · rw [hleft.pending,hnone] at hsome
      cases hsome
    · rw [((hleft.ready _ _).1 hsome).1] at hready
      cases hready
    · obtain ⟨hsome,hne⟩ := (hleft.immediate _ _).1 hsome
      rw [hlane] at hsome
      cases hsome
      exact hne rfl

/-- The emission a pop adds to the history. -/
def emission (popped : Popped) (born : ℕ → ℕ) (origin : ℕ → Option PendingPacket)
    (before : BlobCacheResolver) (value : BlobCacheReady) : Emission :=
  ⟨popped,born popped.sequence,origin popped.sequence,before,value⟩

lemma Chronicle.emits (h : Chronicle platform clock born origin emitted world.resolver)
    (hworld : Consistent platform [] [] world) (hnext : world.resolver.nextReady=some popped)
    (hleft : Left world.resolver popped left) :
    Chronicle platform clock born origin
      (emitted ++ [emission popped born origin world.resolver value]) left := by
  obtain ⟨hlane,hfree,hleast⟩ := nextReady_spec hnext
  have hsequence := hworld.sequence_of_lane hlane
  rw [hsequence,sequenceIsUnblocked_iff] at hfree
  have hdescends : Descends platform world.resolver left := hleft.descends
  have hgone := hleft.gone hworld hlane
  have hrest := h.descends hdescends (Nat.le_refl clock)
  have hbelow := h.bounded hlane.holds
  have horder : ∀ {sequence : ℕ}, popped.sequence < sequence → left.Holds sequence →
      born popped.sequence<born sequence := fun hlt hholds =>
    h.increasing hlt (h.bounded (hdescends.holds hholds))
  exact { hrest with
    spentBelow := fun {found} hmem=>by
      rcases mem_append.1 hmem with hmem | hmem
      · exact hrest.spentBelow hmem
      · rw [mem_singleton.1 hmem]
        exact h.below hbelow
    spent := fun {found} hmem {sequence} hholds=>by
      rcases mem_append.1 hmem with hmem | hmem
      · exact hrest.spent hmem hholds
      · rw [mem_singleton.1 hmem]
        have hlt := h.bounded (hdescends.holds hholds)
        rcases Nat.lt_trichotomy sequence popped.sequence with hless | rfl | hgreater
        · exact Nat.ne_of_lt (h.increasing hless hbelow)
        · exact absurd hholds hgone
        · exact (Nat.ne_of_lt (h.increasing hgreater hlt)).symm
    later := fun {found} hmem {sequence columns} hcached hshare=>by
      rcases mem_append.1 hmem with hmem | hmem
      · exact hrest.later hmem hcached hshare
      · rw [mem_singleton.1 hmem] at hshare ⊢
        rw [shareColumn_comm] at hshare
        have hle := hfree sequence columns (hdescends.cached hcached) hshare
        refine horder (Nat.lt_of_le_of_ne hle ?_) hcached.holds
        rintro rfl
        exact hgone hcached.holds
    laterOrdinary := fun {found} hmem {sequence item} hsome hshare=>by
      rcases mem_append.1 hmem with hmem | hmem
      · exact hrest.laterOrdinary hmem hsome hshare
      · rw [mem_singleton.1 hmem] at hshare ⊢
        have hholds : left.Holds sequence := Or.inr (Or.inr ⟨item,hsome⟩)
        have hbefore := hdescends.immediate hsome
        rcases Nat.lt_trichotomy sequence popped.sequence with hless | rfl | hgreater
        · -- An earlier item that was not taken is blocked, by work the popped one is free of.
          have hblocked : ¬world.resolver.sequenceIsUnblocked item.sequence item.columns=true :=
            fun hitem=>Nat.not_le.2 hless (hleast sequence item hbefore hitem)
          rw [(hworld.immediateBelow hbefore).1,sequenceIsUnblocked_iff] at hblocked
          simp only [not_forall,Nat.not_le,exists_prop] at hblocked
          obtain ⟨earlier,others,hcached,hothers,hlt⟩ := hblocked
          refine Or.inr ⟨hbefore,earlier,others,hlt,hcached,hothers,fun hconflict=>?_⟩
          exact Nat.not_le.2 (Nat.lt_trans hlt hless) (hfree earlier others hcached hconflict)
        · exact absurd hholds hgone
        · exact Or.inl (horder hgreater hholds) }

lemma Chronicle.precedes (h : Chronicle platform clock born origin emitted world.resolver)
    (hlane : world.resolver.Lane popped) {found : Emission} (hmem : found ∈ emitted) :
    found.Precedes (emission popped born origin world.resolver value) := by
  intro hshare
  cases popped with
  | cached sequence item => exact Or.inl (h.later hmem (Or.inr ⟨item,hlane,rfl⟩) hshare)
  | immediate sequence item =>
    exact (h.laterOrdinary hmem hlane hshare).imp id fun hheld=>⟨sequence,item,rfl,hheld⟩

end Emitting

end Cinnabar.BlobCache
