import Cinnabar.Ingest.Popping

/-! # Admission lanes -/

namespace Cinnabar.Ingest

open Finset

variable {S V O : Type}

/-- What the committer counts. -/
inductive Lane where
  | unfinished
  | light
  | heavy
  | deferred
  | ingress
  | ingressLight
deriving DecidableEq

def Lane.holds : Lane → Held → Bool
  | .unfinished, _ => true
  | .light, held => held = .light
  | .heavy, held => held = .heavy
  | .deferred, held => held = .deferred
  | .ingress, .ingress _ => true
  | .ingress, _ => false
  | .ingressLight, held => held = .ingress true

variable (lane : Lane)

def Lane.weigh (entry : Option (Entry S V O)) : ℕ :=
  (entry.any fun entry=>lane.holds entry.held).toNat

def Lane.recount (entries : Finmap fun _ : ℕ=>Entry S V O) : ℕ :=
  (entries.keys.filter fun n=>(entries.lookup n).any fun entry=>lane.holds entry.held).card

lemma Lane.recount_erase (entries : Finmap fun _ : ℕ=>Entry S V O) (n : ℕ) :
    lane.recount entries=lane.recount (entries.erase n) + lane.weigh (entries.lookup n) := by
  have herase : ((entries.erase n).keys.filter fun m =>
      ((entries.erase n).lookup m).any fun entry=>lane.holds entry.held) =
      (entries.keys.filter fun m=>(entries.lookup m).any fun entry=>lane.holds entry.held).erase
        n := by
    ext m
    by_cases hm : m=n
    · simp [hm]
    · simp [hm,Finmap.lookup_erase_ne hm]
  unfold recount weigh
  rw [herase]
  by_cases hheld : ((entries.lookup n).any fun entry=>lane.holds entry.held) = true
  · have hmem : n ∈ entries.keys.filter fun m =>
        (entries.lookup m).any fun entry=>lane.holds entry.held := by
      refine mem_filter.2 ⟨?_,hheld⟩
      obtain ⟨entry,hentry,-⟩ := (Option.any_eq_true _ _).1 hheld
      exact Finmap.mem_keys.2 (Finmap.mem_of_lookup_eq_some hentry)
    have hpos := card_pos.2 ⟨n,hmem⟩
    rw [hheld,card_erase_of_mem hmem,Bool.toNat_true]
    omega
  · have hmem : n ∉ entries.keys.filter fun m =>
        (entries.lookup m).any fun entry=>lane.holds entry.held :=
      fun hmem=>hheld (mem_filter.1 hmem).2
    rw [Bool.eq_false_iff.2 hheld,erase_eq_of_notMem hmem]
    rfl

variable {entries entries' : Finmap fun _ : ℕ=>Entry S V O}

lemma Lane.recount_rewrite {n : ℕ} {new : Option (Entry S V O)}
    (h : ∀ m, entries'.lookup m = if m=n then new else entries.lookup m) :
    lane.recount entries'+lane.weigh (entries.lookup n) =
      lane.recount entries+lane.weigh new := by
  have hsame : entries'.erase n=entries.erase n := by
    refine Finmap.ext_lookup fun m=>?_
    by_cases hm : m=n
    · rw [hm,Finmap.lookup_erase,Finmap.lookup_erase]
    · rw [Finmap.lookup_erase_ne hm,Finmap.lookup_erase_ne hm,h,if_neg hm]
  have hnew : entries'.lookup n=new := by rw [h,if_pos rfl]
  rw [lane.recount_erase entries' n,lane.recount_erase entries n,hsame,hnew]
  omega

lemma Lane.recount_le (h : ∀ m, entries'.lookup m=none ∨ entries'.lookup m=entries.lookup m) :
    lane.recount entries'≤lane.recount entries := by
  refine card_le_card fun m hm=>?_
  obtain ⟨hmem,hheld⟩ := mem_filter.1 hm
  have hsame : entries'.lookup m=entries.lookup m := by
    refine (h m).resolve_left fun hnone=>?_
    rw [hnone] at hheld
    cases hheld
  rw [Finmap.mem_keys,← Finmap.lookup_isSome,hsame] at hmem
  rw [hsame] at hheld
  exact mem_filter.2 ⟨Finmap.mem_keys.2 (Finmap.lookup_isSome.1 hmem),hheld⟩

namespace OrderedCommitState

variable {s s' : OrderedCommitState S V O} {n : ℕ}

lemma releaseHeld_fields (held : Held) :
    (s.releaseHeld held).entries=s.entries ∧ (s.releaseHeld held).finished=s.finished ∧
      (s.releaseHeld held).frontier=s.frontier ∧ (s.releaseHeld held).applying=s.applying ∧
      (s.releaseHeld held).pendingSubChunks=s.pendingSubChunks ∧
      (s.releaseHeld held).blockingBlockUpdates=s.blockingBlockUpdates ∧
      (s.releaseHeld held).blockUpdateRangeEnd=s.blockUpdateRangeEnd := by
  cases held <;> exact ⟨rfl,rfl,rfl,rfl,rfl,rfl,rfl⟩

lemma lookup_release (n m : ℕ) : (s.release n).entries.lookup m = if m=n then none else s.entries.lookup m := by
  unfold release
  cases hn : s.entries.lookup n with
  | none =>
    split_ifs with hm
    · rw [hm,hn]
    · rfl
  | some entry =>
    rw [(releaseHeld_fields entry.held).1]
    split_ifs with hm
    · rw [hm,Finmap.lookup_erase]
    · rw [Finmap.lookup_erase_ne hm]

lemma release_fields (n : ℕ) : (s.release n).finished=s.finished ∧ (s.release n).frontier=s.frontier ∧
      (s.release n).applying=s.applying ∧
      (s.release n).pendingSubChunks=s.pendingSubChunks ∧
      (s.release n).blockingBlockUpdates=s.blockingBlockUpdates ∧
      (s.release n).blockUpdateRangeEnd=s.blockUpdateRangeEnd := by
  unfold release
  cases s.entries.lookup n with
  | none => exact ⟨rfl,rfl,rfl,rfl,rfl,rfl⟩
  | some entry => exact (releaseHeld_fields entry.held).2

def counter (s : OrderedCommitState S V O) : Lane → ℕ
  | .unfinished => s.unfinished
  | .light => s.light
  | .heavy => s.heavy
  | .deferred => s.deferred
  | .ingress => s.ingress
  | .ingressLight => s.ingressLight

def Counted (s : OrderedCommitState S V O) : Prop :=
  ∀ lane : Lane, s.counter lane=lane.recount s.entries

section

variable (h : s.Counted)
include h

lemma Counted.weigh_le (lane : Lane) (n : ℕ) : lane.weigh (s.entries.lookup n) ≤ s.counter lane := by
  rw [h lane,lane.recount_erase s.entries n]
  exact Nat.le_add_left _ _

lemma Counted.rewrite (new : Option (Entry S V O))
    (hentries : ∀ m, s'.entries.lookup m = if m=n then new else s.entries.lookup m)
    (hcounter : ∀ lane : Lane, s'.counter lane+lane.weigh (s.entries.lookup n) =
      s.counter lane+lane.weigh new) : s'.Counted := by
  intro lane
  have hrecount := lane.recount_rewrite hentries
  have hstep := hcounter lane
  have hold := h lane
  omega

/-- What changes no holding changes no count. -/
lemma Counted.congr (hcounter : ∀ lane, s'.counter lane=s.counter lane)
    (hheld : ∀ m, (s'.entries.lookup m).map Entry.held = (s.entries.lookup m).map Entry.held) :
    s'.Counted := by
  intro lane
  have hany : ∀ m, ((s'.entries.lookup m).any fun entry=>lane.holds entry.held) =
      (s.entries.lookup m).any fun entry=>lane.holds entry.held := by
    intro m
    have hm := congrArg (Option.any lane.holds) (hheld m)
    rw [Option.any_map,Option.any_map] at hm
    exact hm
  rw [hcounter,h]
  unfold Lane.recount
  congr 1
  ext m
  rw [mem_filter,mem_filter,hany,Finmap.mem_keys,Finmap.mem_keys, ← Finmap.lookup_isSome,← Finmap.lookup_isSome]
  have hsome := congrArg Option.isSome (hheld m)
  rw [Option.isSome_map,Option.isSome_map] at hsome
  rw [hsome]

lemma Counted.release (n : ℕ) : (s.release n).Counted := by
  unfold OrderedCommitState.release
  cases hlook : s.entries.lookup n with
  | none => exact h
  | some entry =>
    have hle : ∀ lane : Lane, lane.weigh (some entry) ≤ s.counter lane := fun lane =>
      hlook ▸ h.weigh_le lane n
    refine h.rewrite (n := n) none (fun m=>?_) fun lane=>?_
    · rw [(releaseHeld_fields entry.held).1]
      split_ifs with hm
      · rw [hm,Finmap.lookup_erase]
      · exact Finmap.lookup_erase_ne hm
    · have hlane := hle lane
      rw [hlook]
      obtain ⟨footprint,held,slot⟩ := entry
      cases held with
      | ingress lightReserved =>
        cases lane <;> cases lightReserved <;> simp [Lane.weigh,Lane.holds,counter,releaseHeld] at hlane ⊢ <;> omega
      | light =>
        cases lane <;> simp [Lane.weigh,Lane.holds,counter,releaseHeld] at hlane ⊢ <;> omega
      | heavy =>
        cases lane <;> simp [Lane.weigh,Lane.holds,counter,releaseHeld] at hlane ⊢ <;> omega
      | deferred =>
        cases lane <;> simp [Lane.weigh,Lane.holds,counter,releaseHeld] at hlane ⊢ <;> omega

lemma Counted.releases (sequences : List ℕ) : (sequences.foldl OrderedCommitState.release s).Counted := by
  induction sequences generalizing s with
  | nil => exact h
  | cons n rest ih => exact ih (h.release n)

lemma Counted.releaseRange (start last : ℕ) : (s.releaseRange start last).Counted := by
  have hall := h.releases (List.range' start (last+1-start))
  unfold OrderedCommitState.releaseRange
  dsimp only
  split_ifs
  · exact hall
  · exact hall.congr (fun lane=>by cases lane <;> rfl) fun _=>rfl
  · exact hall.congr (fun lane=>by cases lane <;> rfl) fun _=>rfl

end

end OrderedCommitState

end Cinnabar.Ingest

/-! # Conflicts between two events

A summary of earlier events blocks a later one exactly where one of them does.
-/

namespace Cinnabar.Ingest

def Footprint.conflicts (couplePosition : Bool) (earlier later : Footprint) : Bool :=
  (({} : EarlierEvents).add earlier couplePosition).blocks later couplePosition

namespace EarlierEvents

variable {s : EarlierEvents} {couple : Bool} {f g : Footprint}

/-- Nothing was folded in where nothing is noted. -/
def Plain (s : EarlierEvents) : Prop := s.any=false → s = {}

lemma plain_empty : Plain {} := fun _=>rfl

lemma plain_add : (s.add f couple).Plain := fun h=>nomatch h

lemma blocks_empty : ({} : EarlierEvents).blocks g couple=false := rfl

lemma blocks_add (h : s.Plain) : (s.add f couple).blocks g couple = (s.blocks g couple || f.conflicts couple g) := by
  cases hany : s.any with
  | false =>
    rw [h hany,blocks_empty,Bool.false_or]
    rfl
  | true =>
    unfold Footprint.conflicts blocks add
    simp only [hany,Bool.not_true,Bool.false_eq_true,if_false,Finset.union_inter_distrib_right,
      Finset.union_nonempty,Finset.empty_union,Bool.false_or,Bool.decide_or]
    grind

lemma blocks_of_barrier (h : s.isBarrier=true) (hany : s.any=true) : s.blocks g couple=true := by
  unfold blocks
  rw [hany,show s.barrier=true from h]
  simp

end EarlierEvents

lemma Footprint.conflicts_of_barrier {couple : Bool} {f g : Footprint} (h : f.barrier=true) :
    f.conflicts couple g=true :=
  EarlierEvents.blocks_of_barrier (by unfold EarlierEvents.isBarrier EarlierEvents.add; simp [h]) rfl

namespace OrderedCommitState

variable {S V O : Type} {s : OrderedCommitState S V O} {couple : Bool} {n : ℕ}
  {entry : Entry S V O} {earlier : EarlierEvents} {P Q : ℕ → Prop}

/-- The summary is of the entries that meet a condition. -/
structure Sums (s : OrderedCommitState S V O) (couple : Bool) (earlier : EarlierEvents)
    (P : ℕ → Prop) : Prop where
  plain : earlier.Plain
  blocks : ∀ later, earlier.blocks later couple=true ↔ ∃ m other, P m ∧
    s.entries.lookup m=some other ∧ other.footprint.conflicts couple later=true
  barrier : earlier.isBarrier=true ↔ ∃ m other, P m ∧ s.entries.lookup m=some other ∧ other.footprint.barrier=true

lemma sums_empty (h : ∀ m, (s.entries.lookup m).isSome → ¬P m) : s.Sums couple {} P where
  plain := EarlierEvents.plain_empty
  blocks := fun later=>by
    refine iff_of_false (by simp [EarlierEvents.blocks_empty]) ?_
    rintro ⟨m,other,hm,hlook,-⟩
    exact h m (Option.isSome_of_eq_some hlook) hm
  barrier := by
    refine iff_of_false (fun hno=>nomatch hno) ?_
    rintro ⟨m,other,hm,hlook,-⟩
    exact h m (Option.isSome_of_eq_some hlook) hm

lemma Sums.congr (h : s.Sums couple earlier P)
    (hsame : ∀ m, (s.entries.lookup m).isSome → (P m ↔ Q m)) : s.Sums couple earlier Q := by
  have hiff : ∀ {m other}, s.entries.lookup m=some other → (P m ↔ Q m) := fun hlook =>
    hsame _ (Option.isSome_of_eq_some hlook)
  refine ⟨h.plain,fun later=>(h.blocks later).trans ?_,h.barrier.trans ?_⟩
  · exact exists₂_congr fun m other=>⟨fun ⟨hm,hlook,hc⟩=>⟨(hiff hlook).1 hm,hlook,hc⟩,
      fun ⟨hm,hlook,hc⟩=>⟨(hiff hlook).2 hm,hlook,hc⟩⟩
  · exact exists₂_congr fun m other=>⟨fun ⟨hm,hlook,hc⟩=>⟨(hiff hlook).1 hm,hlook,hc⟩,
      fun ⟨hm,hlook,hc⟩=>⟨(hiff hlook).2 hm,hlook,hc⟩⟩

lemma Sums.add (h : s.Sums couple earlier P) (hlook : s.entries.lookup n=some entry) :
    s.Sums couple (earlier.add entry.footprint couple) fun m=>P m ∨ m=n where
  plain := EarlierEvents.plain_add
  blocks := fun later=>by
    rw [EarlierEvents.blocks_add h.plain,Bool.or_eq_true,h.blocks]
    constructor
    · rintro (⟨m,other,hm,hother,hc⟩ | hc)
      · exact ⟨m,other,.inl hm,hother,hc⟩
      · exact ⟨n,entry,.inr rfl,hlook,hc⟩
    · rintro ⟨m,other,hm | rfl,hother,hc⟩
      · exact .inl ⟨m,other,hm,hother,hc⟩
      · rw [hlook] at hother
        cases hother
        exact .inr hc
  barrier := by
    change (earlier.barrier || entry.footprint.barrier) = true ↔ _
    rw [Bool.or_eq_true]
    constructor
    · rintro (hb | hb)
      · obtain ⟨m,other,hm,hother,hc⟩ := h.barrier.1 hb
        exact ⟨m,other,.inl hm,hother,hc⟩
      · exact ⟨n,entry,.inr rfl,hlook,hb⟩
    · rintro ⟨m,other,hm | rfl,hother,hc⟩
      · exact .inl (h.barrier.2 ⟨m,other,hm,hother,hc⟩)
      · rw [hlook] at hother
        cases hother
        exact .inr hc

end OrderedCommitState

end Cinnabar.Ingest
