import Cinnabar.BlobCache.Blocking

/-! # Draining the ordinary lane -/

namespace Cinnabar.BlobCache

open Std List

variable {platform : Platform} {world t : World} {r s : BlobCacheResolver} {sequence : ℕ}
  {columns : List ColumnKey} {item : ReadyItem}

section Waiting

def BlobCacheResolver.Clear (r : BlobCacheResolver) : Prop :=
  ∀ sequence transaction, r.pending[sequence]? = some transaction → ¬Holds r.HeldUp sequence transaction.columns

lemma BlobCacheResolver.HeldUp.lane (h : r.HeldUp sequence columns) : ∃ item, item.columns=columns ∧
      (r.ready[sequence]? = some item ∨ r.immediateReady[sequence]? = some item) := by
  cases h with
  | @ordinary _ item hmem =>
    exact ⟨item,rfl,.inr (TreeMap.mem_toList_iff_getElem?_eq_some.1 hmem)⟩
  | @cached _ _ item _ hmem =>
    exact ⟨item,rfl,.inl (TreeMap.mem_toList_iff_getElem?_eq_some.1 hmem)⟩

lemma BlobCacheResolver.Clear.shrink (h : r.Clear) (hpending : s.pending=r.pending)
    (hready : ∀ entry ∈ s.ready.toList, entry ∈ r.ready.toList)
    (himmediate : ∀ entry ∈ s.immediateReady.toList, entry ∈ r.immediateReady.toList) :
    s.Clear := by
  rintro sequence transaction hsome ⟨later,others,hheld,hlt,hshare⟩
  exact h sequence transaction (hpending ▸ hsome) ⟨later,others,hheld.mono himmediate hready,hlt,hshare⟩

lemma BlobCacheResolver.Clear.earlier (hclear : r.Clear) (hheld : r.HeldUp sequence columns)
    (hblocked : r.sequenceIsUnblocked sequence columns≠true) :
    ∃ earlier others, earlier < sequence ∧ r.HeldUp earlier others := by
  rw [Ne,sequenceIsUnblocked_iff] at hblocked
  push Not at hblocked
  obtain ⟨earlier,others,hcached,hshare,hlt⟩ := hblocked
  rcases hcached with ⟨transaction,hsome,rfl⟩ | ⟨item,hsome,rfl⟩
  · exact absurd ⟨sequence,columns,hheld,hlt,hshare⟩ (hclear earlier transaction hsome)
  · exact ⟨earlier,item.columns,hlt, .cached (TreeMap.mem_toList_iff_getElem?_eq_some.2 hsome) hheld hlt hshare⟩

lemma firstUnblocked_isSome {lane : TreeMap ℕ ReadyItem} (hsome : lane[sequence]? = some item)
    (hkey : item.sequence=sequence)
    (hfree : r.sequenceIsUnblocked sequence item.columns=true) :
    ∃ found, r.firstUnblocked lane=some found ∧ found.1 ≤ sequence := by
  rw [← hkey] at hfree
  cases hfound : r.firstUnblocked lane with
  | none => exact absurd hfree (firstUnblocked_eq_none hfound hsome)
  | some found =>
    exact ⟨found,rfl,(firstUnblocked_least hfound).2.2 sequence item hsome hfree⟩

lemma nextReady_le (hlane : r.ready[sequence]? = some item ∨
      r.immediateReady[sequence]? = some item) (hkey : item.sequence=sequence)
    (hfree : r.sequenceIsUnblocked sequence item.columns=true) :
    ∃ popped, r.nextReady=some popped ∧ popped.sequence ≤ sequence := by
  unfold BlobCacheResolver.nextReady
  rcases hlane with hsome | hsome
  · obtain ⟨found,hfound,hle⟩ := firstUnblocked_isSome hsome hkey hfree
    rw [hfound]
    cases r.firstUnblocked r.immediateReady with
    | none => exact ⟨_,rfl,hle⟩
    | some other =>
      dsimp only
      split
      · exact ⟨_,rfl,hle⟩
      · exact ⟨_,rfl,(Nat.le_of_not_le ‹_›).trans hle⟩
  · obtain ⟨found,hfound,hle⟩ := firstUnblocked_isSome hsome hkey hfree
    rw [hfound]
    cases r.firstUnblocked r.ready with
    | none => exact ⟨_,rfl,hle⟩
    | some other =>
      dsimp only
      split
      · exact ⟨_,rfl,‹_≤_›.trans hle⟩
      · exact ⟨_,rfl,hle⟩

lemma BlobCacheResolver.Clear.next (hclear : r.Clear) (hfiled : r.Filed) (hheld : r.HeldUp sequence columns) :
    ∃ popped, r.nextReady=some popped ∧ popped.sequence ≤ sequence := by
  induction sequence using Nat.strong_induction_on generalizing columns with
  | _ sequence ih =>
    by_cases hfree : r.sequenceIsUnblocked sequence columns=true
    · obtain ⟨item,rfl,hlane⟩ := hheld.lane
      refine nextReady_le hlane ?_ hfree
      exact hlane.elim (fun h=>hfiled.ready (sequence,item) (TreeMap.mem_toList_iff_getElem?_eq_some.2 h))
        fun h=>hfiled.immediate (sequence,item) (TreeMap.mem_toList_iff_getElem?_eq_some.2 h)
    · obtain ⟨earlier,others,hlt,hearlier⟩ := hclear.earlier hheld hfree
      obtain ⟨popped,hnext,hle⟩ := ih earlier hlt hearlier
      exact ⟨popped,hnext,hle.trans (Nat.le_of_lt hlt)⟩

/-- The retained events, in their lane's order. -/
def BlobCacheResolver.ordinary (r : BlobCacheResolver) : List BlobCacheReady :=
  r.immediateReady.toList.map fun entry=>entry.2.value.intoPublic

lemma BlobCacheResolver.Clear.popped (hclear : r.Clear) (hfiled : r.Filed)
    (hnext : r.nextReady=some (.immediate sequence item)) :
    r.immediateReady.toList = (sequence,item) :: (r.immediateReady.erase sequence).toList := by
  have hlane : r.immediateReady[sequence]? = some item := (nextReady_spec hnext).1
  have hleast : ∀ entry ∈ (r.immediateReady.erase sequence).toList, sequence<entry.1 := by
    rintro ⟨other,found⟩ hmem
    rw [TreeMap.mem_toList_iff_getElem?_eq_some,lookup_erase] at hmem
    split at hmem
    · cases hmem
    · rename_i hne
      have hheld : r.HeldUp other found.columns := .ordinary (TreeMap.mem_toList_iff_getElem?_eq_some.2 hmem)
      obtain ⟨popped,hpopped,hle⟩ := hclear.next hfiled hheld
      rw [hnext] at hpopped
      cases hpopped
      exact Nat.lt_of_le_of_ne hle hne
  have hsorted : ∀ lane : TreeMap ℕ ReadyItem, lane.toList.Pairwise fun entry other=>entry.1<other.1 := fun lane =>
    (TreeMap.ordered_keys_toList (t := lane)).imp Nat.compare_eq_lt.1
  exact (toList_perm_erase hlane).eq_of_pairwise (fun _ _ _ _ hlt hgt=>absurd hgt (Nat.lt_asymm hlt)) (hsorted _)
    (pairwise_cons.2 ⟨hleast,hsorted _⟩)

end Waiting

section Bytes

lemma foldlM_checkedAdd_le {items : List (ℕ × ReadyItem)} {total less more : ℕ}
    (h : items.foldlM (fun total item=>checkedAddUsize total item.2.accountedBytes) more =
      some total) (hle : less ≤ more) :
    ∃ total', items.foldlM (fun total item=>checkedAddUsize total item.2.accountedBytes) less =
      some total' := by
  induction items generalizing less more with
  | nil => exact ⟨less,rfl⟩
  | cons first rest ih =>
    rw [foldlM_cons] at h ⊢
    unfold checkedAddUsize at h ⊢
    split at h
    · rw [if_pos (by omega)]
      exact ih h (Nat.add_le_add_right hle _)
    · cases h

lemma retainedOrdinaryBytes_tail {entry : ℕ × ReadyItem}
    (hlane : r.immediateReady.toList=entry::s.immediateReady.toList)
    (hfits : r.retainedOrdinaryBytes platform≠none) :
    s.retainedOrdinaryBytes platform≠none := by
  have hsize : r.immediateReady.size=s.immediateReady.size+1 := by
    rw [← TreeMap.length_toList,hlane,length_cons,TreeMap.length_toList]
  obtain ⟨bytes,hbytes⟩ := Option.ne_none_iff_exists'.1 hfits
  unfold BlobCacheResolver.retainedOrdinaryBytes checkedMulUsize at hbytes ⊢
  rw [hsize,hlane] at hbytes
  split at hbytes
  · rename_i hmul
    have hle : s.immediateReady.size*platform.immediateReadyBytes≤usizeMax :=
      (Nat.mul_le_mul_right _ (Nat.le_succ _)).trans hmul
    rw [if_pos hle]
    simp only [Option.bind_eq_bind,Option.bind_some,foldlM_cons] at hbytes ⊢
    unfold checkedAddUsize at hbytes
    split at hbytes
    · obtain ⟨total,htotal⟩ := foldlM_checkedAdd_le hbytes
        ((Nat.mul_le_mul_right platform.immediateReadyBytes (Nat.le_succ _)).trans (Nat.le_add_right _ _))
      exact fun hnone=>by cases htotal.symm.trans hnone
    · cases hbytes
  · cases hbytes

end Bytes

section Draining

/-- A container size reported later overruns what the accounts can count. -/
def World.Overruns (world : World) : Prop :=
  ∃ bytes ∈ world.containers, usizeMax<bytes+world.resolver.pendingAccountedBytes+world.resolver.readyAccountedBytes

/-- What popping needs to empty the ordinary lane. -/
structure Drainable (platform : Platform) (r : BlobCacheResolver) : Prop where
  filed : r.Filed
  clear : r.Clear
  counts : r.pendingAccountedBytes+r.readyAccountedBytes≤usizeMax
  ordinary : r.retainedOrdinaryBytes platform≠none

lemma BlobCacheResolver.Filed.shrink (h : r.Filed) (hready : ∀ entry ∈ s.ready.toList, entry ∈ r.ready.toList)
    (himmediate : ∀ entry ∈ s.immediateReady.toList, entry ∈ r.immediateReady.toList) : s.Filed :=
  ⟨fun entry hmem=>h.ready entry (hready entry hmem), fun entry hmem=>h.immediate entry (himmediate entry hmem)⟩

lemma SameWork.retainedOrdinaryBytes (h : SameWork r s) :
    s.retainedOrdinaryBytes platform=r.retainedOrdinaryBytes platform := by
  unfold BlobCacheResolver.retainedOrdinaryBytes
  rw [h.immediate]

lemma Drainable.same (h : Drainable platform r) (hsame : SameWork r s) : Drainable platform s where
  filed := h.filed.shrink (fun _ hmem=>hsame.ready ▸ hmem) fun _ hmem=>hsame.immediate ▸ hmem
  clear := h.clear.shrink hsame.pending (fun _ hmem=>hsame.ready ▸ hmem) fun _ hmem=>hsame.immediate ▸ hmem
  counts := by
    rw [hsame.pendingBytes,hsame.readyBytes]
    exact h.counts
  ordinary := by
    rw [hsame.retainedOrdinaryBytes]
    exact h.ordinary

lemma meets_addCounted {a b : ℕ} {Q : ℕ → World → Prop} {E : Fault → World → Prop}
    (hfits : a+b≤usizeMax → Q (a+b) world) (hover : usizeMax<a+b →
      E (.error .byteCountOverflow) world) : Meets (addCounted a b) world Q E := by
  unfold addCounted checkedAddUsize
  split
  · rename_i sum hsum
    split at hsum
    · cases hsum
      exact .pure (hfits ‹_›)
    · cases hsum
  · rename_i hnone
    split at hnone
    · cases hnone
    · exact .throw (hover (Nat.lt_of_not_le ‹_›))

/-- Refreshing keeps the work, and fails only where a count does not fit. -/
lemma refreshPendingAccounting_spec : Meets (refreshPendingAccounting platform) world
      (fun _ t=>SameWork world.resolver t.resolver ∧ t.containers=world.containers.tail ∧
        world.resolver.pendingAccountedBytes+world.resolver.readyAccountedBytes≤usizeMax ∧
        world.resolver.retainedOrdinaryBytes platform≠none)
      fun _ _=>world.resolver.retainedOrdinaryBytes platform=none ∨
        usizeMax<world.containers.headD 0+world.resolver.pendingAccountedBytes +
          world.resolver.readyAccountedBytes := by
  have hdrop : SameWork world.resolver world.resolver.dropEmptyPending := by
    unfold BlobCacheResolver.dropEmptyPending
    split <;> exact ⟨rfl,rfl,rfl,rfl,rfl,rfl,rfl,rfl⟩
  refine .bind (.modified ?_)
  generalize world.resolver.dropEmptyPending=dropped at hdrop
  refine .bind (.bind (.bind (.get (.bind (.set (.pure ?_))))))
  refine .bind (.bind (.get (.pure (.bind (meets_addCounted (fun hfits=>?_) fun hlt=>.inr ?_)))))
  · refine meets_addCounted (fun hfits=>?_) fun hlt=>.inr ?_
    · refine .bind (.modified (.bind (.bind (.get (.pure ?_)))))
      have hsame : SameWork world.resolver { dropped with
          pendingBytes := world.containers.headD 0+dropped.pendingAccountedBytes +
            dropped.readyAccountedBytes } :=
        ⟨hdrop.pending,hdrop.index,hdrop.ready,hdrop.immediate,hdrop.queue,
          hdrop.pendingBytes,hdrop.readyBytes,hdrop.slots⟩
      split
      · rename_i hnone
        exact .throw (.inl (hsame.retainedOrdinaryBytes.symm.trans hnone))
      · rename_i bytes hsome
        refine .modified ⟨⟨hsame.pending,hsame.index,hsame.ready,hsame.immediate,hsame.queue,
          hsame.pendingBytes,hsame.readyBytes,hsame.slots⟩,rfl,?_,fun hnone=>?_⟩
        · rw [← hdrop.pendingBytes,← hdrop.readyBytes]
          dsimp only at hfits
          omega
        · cases (hsame.retainedOrdinaryBytes.symm.trans hsome).symm.trans hnone
    · rw [← hdrop.pendingBytes,← hdrop.readyBytes]
      exact hlt
  · rw [← hdrop.pendingBytes]
    exact Nat.lt_of_lt_of_le hlt (Nat.le_add_right _ _)

lemma meets_refreshAfterPop {Q : PUnit → World → Prop} {E : World → Prop}
    (h : Meets (refreshPendingAccounting platform) world Q fun _=>E) :
    Meets (refreshAfterPop platform) world Q fun fault t=>fault = .accountingExpect ∧ E t := by
  unfold Meets refreshAfterPop
  unfold Meets at h
  cases hrun : refreshPendingAccounting platform world with
  | ok value t =>
    rw [hrun] at h
    exact h
  | error fault t =>
    rw [hrun] at h
    exact ⟨rfl,h⟩

lemma Drainable.overruns (h : Drainable platform world.resolver)
    (hover : usizeMax<world.containers.headD 0+world.resolver.pendingAccountedBytes +
      world.resolver.readyAccountedBytes) : world.Overruns := by
  have hcounts := h.counts
  unfold World.Overruns
  cases hcontainers : world.containers with
  | nil =>
    rw [hcontainers,headD_nil] at hover
    omega
  | cons bytes rest =>
    rw [hcontainers] at hover
    exact ⟨bytes,.head _,hover⟩

/-- What leaves a lane or the queue. -/
structure Sheds (platform : Platform) (r s : BlobCacheResolver) : Prop where
  pending : s.pending=r.pending
  ready : ∀ entry ∈ s.ready.toList, entry ∈ r.ready.toList
  immediate : ∀ entry ∈ s.immediateReady.toList, entry ∈ r.immediateReady.toList
  pendingBytes : s.pendingAccountedBytes=r.pendingAccountedBytes
  readyBytes : s.readyAccountedBytes ≤ r.readyAccountedBytes
  fits : r.retainedOrdinaryBytes platform≠none → s.retainedOrdinaryBytes platform≠none

lemma Drainable.sheds (h : Drainable platform r) (hsheds : Sheds platform r s) : Drainable platform s where
  filed := h.filed.shrink hsheds.ready hsheds.immediate
  clear := h.clear.shrink hsheds.pending hsheds.ready hsheds.immediate
  counts := by
    rw [hsheds.pendingBytes]
    exact (Nat.add_le_add_left hsheds.readyBytes _).trans h.counts
  ordinary := hsheds.fits h.ordinary

structure Shed (platform : Platform) (world : World) (s : BlobCacheResolver) (t : World) :
    Prop where
  drainable : Drainable platform t.resolver
  same : SameWork s t.resolver
  overruns : t.Overruns → world.Overruns

lemma shed_spec {α : Type} {change : BlobCacheResolver → BlobCacheResolver} {value : α}
    (h : Drainable platform world.resolver)
    (hsheds : Sheds platform world.resolver (change world.resolver)) :
    Meets (do
        modifyResolver change
        refreshAfterPop platform
        pure value) world
      (fun ready t=>ready=value ∧ Shed platform world (change world.resolver) t)
      fun fault _=>fault = .accountingExpect ∧ world.Overruns := by
  have hless : ∀ {t : World}, (∀ bytes ∈ t.containers, bytes ∈ world.containers) →
      t.resolver.pendingAccountedBytes=world.resolver.pendingAccountedBytes →
      t.resolver.readyAccountedBytes≤world.resolver.readyAccountedBytes →
      t.Overruns → world.Overruns := by
    rintro t hcontainers hpending hready ⟨bytes,hmem,hlt⟩
    refine ⟨bytes,hcontainers bytes hmem,hlt.trans_le ?_⟩
    rw [hpending]
    exact Nat.add_le_add_left hready _
  refine .bind (.modified (.bind ?_))
  set w : World := { world with resolver := change world.resolver } with hw
  have hdrainable : Drainable platform w.resolver := h.sheds hsheds
  refine meets_refreshAfterPop (E := fun _=>world.Overruns)
    (refreshPendingAccounting_spec.mono (fun _ t ⟨hsame,hcontainers,_⟩=>.pure ?_) fun _ _ hfault=>?_)
  · refine ⟨rfl,hdrainable.same hsame,hsame,hless (fun bytes hmem=>?_) (hsame.pendingBytes.trans hsheds.pendingBytes)
      (hsame.readyBytes.trans_le hsheds.readyBytes)⟩
    rw [hcontainers] at hmem
    exact mem_of_mem_tail hmem
  · exact hless (t := w) (fun _=>id) hsheds.pendingBytes hsheds.readyBytes
      (hdrainable.overruns (hfault.resolve_left hdrainable.ordinary))

/-- Items and requests still to pop. -/
def BlobCacheResolver.retained (r : BlobCacheResolver) : ℕ :=
  r.recoveryReady.size+r.ready.size+r.immediateReady.size

/-- One pop: nothing is left to emit, or one item less is retained and the ordinary lane keeps
its order. -/
def Drains (world : World) (ready : Option BlobCacheReady) (t : World) : Prop :=
  match ready with
  | none => world.resolver.ordinary = []
  | some value => t.resolver.retained<world.resolver.retained ∧
      (t.resolver.ordinary=world.resolver.ordinary ∨ world.resolver.ordinary=value::t.resolver.ordinary)

lemma SameWork.retained (h : SameWork r s) : s.retained=r.retained := by
  unfold BlobCacheResolver.retained
  rw [h.queue,h.ready,h.immediate]

lemma SameWork.ordinary (h : SameWork r s) : s.ordinary=r.ordinary := by
  unfold BlobCacheResolver.ordinary
  rw [h.immediate]

lemma size_erase_lt {α β : Type} [Ord α] [TransOrd α] {map : TreeMap α β} {key : α} {value : β}
    (h : map[key]? = some value) : (map.erase key).size < map.size := by
  have hmem : map.contains key=true := by
    rw [TreeMap.contains_eq_isSome_getElem?,h]
    rfl
  have hpos : map.size≠0 := by
    intro hzero
    have hempty : map.isEmpty=true := by rw [TreeMap.isEmpty_eq_size_eq_zero,hzero]; rfl
    rw [TreeMap.isEmpty_eq_false_of_contains hmem] at hempty
    cases hempty
  rw [TreeMap.size_erase,if_pos hmem]
  omega

lemma mem_toList_erase {lane : TreeMap ℕ ReadyItem} {entry : ℕ × ReadyItem}
    (h : entry ∈ (lane.erase sequence).toList) : entry ∈ lane.toList := by
  rw [TreeMap.mem_toList_iff_getElem?_eq_some,lookup_erase] at h
  split at h
  · cases h
  · exact TreeMap.mem_toList_iff_getElem?_eq_some.2 h

lemma popReady_drains (h : Drainable platform world.resolver) : Meets (popReady platform) world
      (fun ready t=>Drainable platform t.resolver ∧ (t.Overruns → world.Overruns) ∧ Drains world ready t)
      fun fault _=>fault = .accountingExpect ∧ world.Overruns := by
  refine .bind (.bind (.bind (.bind (.get (.pure ?_)))))
  cases hhead : world.resolver.recoveryReady.toList.head? with
  | some entry =>
    obtain ⟨key,recovery⟩ := entry
    have hlookup : world.resolver.recoveryReady[key]? = some recovery :=
      TreeMap.mem_toList_iff_getElem?_eq_some.1 (List.mem_of_mem_head? hhead)
    refine (shed_spec h ⟨rfl,fun _=>id,fun _=>id,rfl,Nat.le_refl _,id⟩).mono ?_ fun _ _=>id
    rintro _ t ⟨rfl,hshed⟩
    refine .pure (.pure ⟨hshed.drainable,hshed.overruns,?_,.inl hshed.same.ordinary⟩)
    have hlt := size_erase_lt hlookup
    rw [hshed.same.retained]
    unfold BlobCacheResolver.retained
    dsimp only
    omega
  | none =>
    refine .pure (.bind (.bind (.get (.pure ?_))))
    cases hnext : world.resolver.nextReady with
    | none =>
      refine .pure (.pure ⟨h,id,?_⟩)
      refine map_eq_nil_iff.2 (eq_nil_iff_forall_not_mem.2 fun entry hmem=>?_)
      obtain ⟨popped,hpopped,-⟩ := h.clear.next h.filed (.ordinary hmem)
      rw [hnext] at hpopped
      cases hpopped
    | some popped =>
      cases popped with
      | cached sequence item =>
        have hlane : world.resolver.ready[sequence]? = some item := (nextReady_spec hnext).1
        refine (shed_spec h ⟨rfl,fun _=>mem_toList_erase,fun _=>id,rfl,Nat.sub_le _ _, id⟩).mono ?_ fun _ _=>id
        rintro _ t ⟨rfl,hshed⟩
        refine .pure ⟨hshed.drainable,hshed.overruns,?_,.inl hshed.same.ordinary⟩
        have hlt := size_erase_lt hlane
        rw [hshed.same.retained]
        unfold BlobCacheResolver.retained
        dsimp only
        omega
      | immediate sequence item =>
        have hlane : world.resolver.immediateReady[sequence]? = some item := (nextReady_spec hnext).1
        have hfirst := h.clear.popped h.filed hnext
        refine (shed_spec h ⟨rfl,fun _=>id,fun _=>mem_toList_erase,rfl,Nat.le_refl _,
          retainedOrdinaryBytes_tail hfirst⟩).mono ?_ fun _ _=>id
        rintro _ t ⟨rfl,hshed⟩
        refine .pure ⟨hshed.drainable,hshed.overruns,?_,.inr ?_⟩
        · have hlt := size_erase_lt hlane
          rw [hshed.same.retained]
          unfold BlobCacheResolver.retained
          dsimp only
          omega
        · rw [hshed.same.ordinary]
          unfold BlobCacheResolver.ordinary
          rw [hfirst]
          rfl

/-- Pops until nothing is left, within the turns given. -/
def popAll (platform : Platform) : ℕ → ResolverM (Option (List BlobCacheReady))
  | 0 => pure none
  | turns+1 => do
    let ready ← popReady platform
    match ready with
    | none => pure (some [])
    | some value => do
      let rest ← popAll platform turns
      pure (rest.map (value :: ·))

/-- Popping ends, and hands out the whole ordinary lane in order. -/
lemma popAll_drains {turns : ℕ} (h : Drainable platform world.resolver) (hturns : world.resolver.retained<turns) :
    Meets (popAll platform turns) world
      (fun popped _=>∃ items, popped=some items ∧ world.resolver.ordinary.Sublist items)
      fun fault _=>fault = .accountingExpect ∧ world.Overruns := by
  induction turns generalizing world with
  | zero => exact absurd hturns (Nat.not_lt_zero _)
  | succ turns ih =>
    refine .bind ((popReady_drains h).mono (fun ready t ⟨hdrainable,hover,hdrains⟩=>?_) fun _ _=>id)
    cases ready with
    | none =>
      refine .pure ⟨[],rfl,?_⟩
      rw [show world.resolver.ordinary = [] from hdrains]
    | some value =>
      obtain ⟨hlt,hordinary⟩ := hdrains
      refine .bind ((ih hdrainable (by omega)).mono (fun rest u ⟨items,hrest,hsub⟩=>.pure ?_)
        fun _ _ hfault=>⟨hfault.1,hover hfault.2⟩)
      subst hrest
      refine ⟨value::items,rfl,?_⟩
      rcases hordinary with heq | heq
      · exact heq ▸ hsub.cons value
      · rw [heq]
        exact hsub.cons_cons value

end Draining

end Cinnabar.BlobCache
