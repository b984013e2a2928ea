import Cinnabar.Library.IndexedHeap

/-! # The order of an indexed heap

Every operation keeps parents ahead of their children, so the root leads all
entries.  A sift starts from a heap that is in order around one place.
-/

namespace Cinnabar.IndexedHeap

open Std Function

universe u v

variable {α : Type u} {K : Type v} {key : α → K} [Ord α] {q q' : IndexedHeap key} {i j k index : ℕ}

/-- Every parent leads its children. -/
def Ordered (q : IndexedHeap key) : Prop := ∀ i, 0 < i → q.leads ((i-1)/2) i=true

/-- Every parent leads its children where neither is at `index`, and the parent of `index` leads
its children. -/
structure Around (q : IndexedHeap key) (index : ℕ) : Prop where
  apart : ∀ i, 0 < i → i≠index → (i-1)/2≠index → q.leads ((i-1)/2) i=true
  across : ∀ i, 0 < i → (i-1)/2=index → 0 < index → q.leads ((index-1)/2) i=true

lemma leads_iff : q.leads i j=true ↔ ∀ {a b}, q.heap[i]? = some a → q.heap[j]? = some b → (compare a b).isGE=true := by
  unfold leads
  cases hi : q.heap[i]? with
  | none => exact iff_of_true (by cases q.heap[j]? <;> rfl) fun h=>by cases h
  | some a =>
    cases hj : q.heap[j]? with
    | none => exact iff_of_true rfl fun _ h=>by cases h
    | some b => exact ⟨fun h _ _ ha hb=>by cases ha; cases hb; exact h,fun h=>h rfl rfl⟩

lemma exceeds_iff : q.exceeds i j=true ↔ ∃ a b, q.heap[i]? = some a ∧ q.heap[j]? = some b ∧ compare a b = .gt := by
  unfold exceeds
  cases hi : q.heap[i]? with
  | none => exact iff_of_false (by cases q.heap[j]? <;> exact Bool.false_ne_true) fun ⟨_,_,h,_⟩=>by cases h
  | some a =>
    cases hj : q.heap[j]? with
    | none => exact iff_of_false Bool.false_ne_true fun ⟨_,_,_,h,_⟩=>by cases h
    | some b =>
      refine Ordering.isGT_iff_eq_gt.trans ⟨fun h=>⟨a,b,rfl,rfl,h⟩,?_⟩
      rintro ⟨_,_,ha,hb,h⟩
      cases ha
      cases hb
      exact h

lemma leads_of_none (h : q.heap[j]? = none) : q.leads i j=true :=
  leads_iff.2 fun _ hb=>by rw [h] at hb; cases hb

lemma leads_congr {i' j' : ℕ} (hi : q'.heap[i]? = q.heap[i']?) (hj : q'.heap[j]? = q.heap[j']?) :
    q'.leads i j=q.leads i' j' := by
  rw [leads,hi,hj,leads]

lemma leads_of_exceeds (h : q.exceeds i j=true) : q.leads i j=true := by
  obtain ⟨a,b,ha,hb,hgt⟩ := exceeds_iff.1 h
  refine leads_iff.2 fun ha' hb'=>?_
  rw [ha] at ha'
  rw [hb] at hb'
  cases ha'
  cases hb'
  rw [hgt]
  rfl

variable [TransOrd α]

lemma leads_trans (hj : j<q.heap.length) (hij : q.leads i j=true) (hjk : q.leads j k=true) : q.leads i k=true := by
  have hget := List.getElem?_eq_getElem hj
  exact leads_iff.2 fun ha hc=>TransCmp.isGE_trans (leads_iff.1 hij ha hget) (leads_iff.1 hjk hget hc)

lemma leads_of_not_exceeds (h : q.exceeds i j=false) : q.leads j i=true := by
  refine leads_iff.2 fun {b a} hb ha=>?_
  rw [show compare b a = (compare a b).swap from OrientedCmp.eq_swap,Ordering.isGE_swap,Ordering.isLE_iff_ne_gt]
  exact fun hgt=>Bool.eq_false_iff.1 h (exceeds_iff.2 ⟨a,b,ha,hb,hgt⟩)

lemma leads_total (h : q.leads i j=false) : q.leads j i=true := by
  cases hback : q.exceeds j i with
  | true => exact leads_of_exceeds hback
  | false => rw [leads_of_not_exceeds hback] at h; cases h

variable [DecidableEq K]

omit [Ord α] [TransOrd α] in
lemma getElem?_exchange (hi : i<q.heap.length) (hj : j<q.heap.length) :
    (q.exchange i j).heap[k]? = q.heap[Equiv.swap i j k]? := by
  unfold exchange
  rw [dif_pos ⟨hi,hj⟩]
  dsimp only
  rw [List.getElem?_set,List.getElem?_set,List.length_set]
  by_cases hkj : j=k
  · subst hkj
    rw [if_pos rfl,if_pos hj,Equiv.swap_apply_right,List.getElem?_eq_getElem hi]
  · rw [if_neg hkj]
    by_cases hki : i=k
    · subst hki
      rw [if_pos rfl,if_pos hi,Equiv.swap_apply_left,List.getElem?_eq_getElem hj]
    · rw [if_neg hki,Equiv.swap_apply_of_ne_of_ne (Ne.symm hki) (Ne.symm hkj)]

omit [TransOrd α] in
lemma leads_exchange (hi : i<q.heap.length) (hj : j<q.heap.length) {a b : ℕ} :
    (q.exchange i j).leads a b=q.leads (Equiv.swap i j a) (Equiv.swap i j b) :=
  leads_congr (getElem?_exchange hi hj) (getElem?_exchange hi hj)

lemma siftUp_ordered (h : q.Around index) (hchildren : ∀ i, 0 < i → (i-1)/2=index → q.leads index i=true)
    (hlt : index<q.heap.length) : (q.siftUp index).Ordered := by
  induction q, index using siftUp.induct with
  | case1 q =>
    rw [siftUp,if_pos rfl]
    intro i hi
    by_cases hparent : (i-1)/2=0
    · rw [hparent]
      exact hchildren i hi hparent
    · exact h.apart i hi hi.ne' hparent
  | case2 q index hzero hlead =>
    rw [siftUp,if_neg hzero,if_pos hlead]
    intro i hi
    by_cases hself : i=index
    · rw [hself]
      exact hlead
    · by_cases hparent : (i-1)/2=index
      · rw [hparent]
        exact hchildren i hi hparent
      · exact h.apart i hi hself hparent
  | case3 q index hzero hlead ih =>
    rw [siftUp,if_neg hzero,if_neg hlead]
    have hpos := Nat.pos_of_ne_zero hzero
    have hparent : (index-1)/2<q.heap.length := by omega
    have hraised := leads_total (Bool.eq_false_iff.2 hlead)
    have hswap {a b : ℕ} := leads_exchange hlt hparent (a := a) (b := b)
    -- What the old parent leads, the raised entry leads too.
    have hbelow : ∀ i, 0 < i → (i-1)/2 = (index-1)/2 → i≠index → q.leads ((index-1)/2) i=true := by
      intro i hi heq hne
      rw [← heq]
      exact h.apart i hi hne (by omega)
    refine ih ⟨fun i hi hne hne'=>?_,fun i hi heq hpos'=>?_⟩ (fun i hi heq=>?_) (by
      rw [length_exchange]; exact hparent)
    all_goals rw [hswap]
    · by_cases hup : (i-1)/2=index
      · rw [hup,Equiv.swap_apply_left,Equiv.swap_apply_of_ne_of_ne (by omega) hne]
        exact h.across i hi hup hpos
      · rw [Equiv.swap_apply_of_ne_of_ne hup hne']
        by_cases hself : i=index
        · exact absurd (hself ▸ rfl) hne'
        · rw [Equiv.swap_apply_of_ne_of_ne hself hne]
          exact h.apart i hi hself hup
    · rw [Equiv.swap_apply_of_ne_of_ne (by omega) (by omega)]
      have hgrand := h.apart ((index-1)/2) hpos' (by omega) (by omega)
      by_cases hself : i=index
      · rw [hself,Equiv.swap_apply_left]
        exact hgrand
      · rw [Equiv.swap_apply_of_ne_of_ne hself (by omega)]
        exact leads_trans hparent hgrand (hbelow i hi heq hself)
    · rw [Equiv.swap_apply_right]
      by_cases hself : i=index
      · rw [hself,Equiv.swap_apply_left]
        exact hraised
      · rw [Equiv.swap_apply_of_ne_of_ne hself (by omega)]
        exact leads_trans hparent hraised (hbelow i hi heq hself)

omit [DecidableEq K] in
/-- The larger child is a child, and leads both. -/
lemma leads_largerChild (hlt : index*2+1<q.heap.length) :
    q.largerChild index<q.heap.length ∧ (q.largerChild index-1)/2=index ∧
      ∀ i, 0 < i → (i-1)/2=index → q.leads (q.largerChild index) i=true := by
  have hrefl (i : ℕ) : q.leads i i=true := by
    cases h : q.leads i i with
    | true => rfl
    | false => exact h.symm.trans (leads_total h)
  unfold largerChild
  split_ifs with hright
  · refine ⟨hright.1,by omega,fun i hi heq=>?_⟩
    obtain rfl | rfl : i=index*2+1 ∨ i=index*2+2 := by omega
    · exact leads_of_exceeds hright.2
    · exact hrefl _
  · refine ⟨hlt,by omega,fun i hi heq=>?_⟩
    obtain rfl | rfl : i=index*2+1 ∨ i=index*2+2 := by omega
    · exact hrefl _
    · rcases Nat.lt_or_ge (index*2+2) q.heap.length with hlen | hlen
      · exact leads_of_not_exceeds (Bool.eq_false_iff.2 fun htrue=>hright ⟨hlen,htrue⟩)
      · exact leads_of_none (List.getElem?_eq_none hlen)

lemma siftDown_ordered (h : q.Around index)
    (hparent : 0 < index → q.leads ((index-1)/2) index=true) : (q.siftDown index).Ordered := by
  induction q, index using siftDown.induct with
  | case1 q index hleaf =>
    rw [siftDown,if_pos hleaf]
    intro i hi
    by_cases hself : i=index
    · subst hself
      exact hparent hi
    · by_cases hup : (i-1)/2=index
      · exact leads_of_none (List.getElem?_eq_none (by omega))
      · exact h.apart i hi hself hup
  | case2 q index hleaf hlead =>
    rw [siftDown,if_neg hleaf,if_pos hlead]
    obtain ⟨hlt,-,hchildren⟩ := leads_largerChild (Nat.lt_of_not_le hleaf)
    intro i hi
    by_cases hself : i=index
    · subst hself
      exact hparent hi
    · by_cases hup : (i-1)/2=index
      · rw [hup]
        exact leads_trans hlt hlead (hchildren i hi hup)
      · exact h.apart i hi hself hup
  | case3 q index hleaf hlead ih =>
    rw [siftDown,if_neg hleaf,if_neg hlead]
    obtain ⟨hlt,hchild,hchildren⟩ := leads_largerChild (Nat.lt_of_not_le hleaf)
    have hbelow := q.lt_largerChild index
    have hraised := leads_total (Bool.eq_false_iff.2 hlead)
    have hswap {a b : ℕ} := leads_exchange (a := a) (b := b) (by omega : index<q.heap.length) hlt
    generalize q.largerChild index=child at *
    refine ih ⟨fun i hi hne hne'=>?_,fun i hi heq hpos=>?_⟩ fun hpos=>?_
    all_goals rw [hswap]
    · by_cases hself : i=index
      · subst hself
        rw [Equiv.swap_apply_left,Equiv.swap_apply_of_ne_of_ne (by omega) (by omega)]
        exact h.across child (by omega) hchild hi
      · rw [Equiv.swap_apply_of_ne_of_ne hself hne]
        by_cases hup : (i-1)/2=index
        · rw [hup,Equiv.swap_apply_left]
          exact hchildren i hi hup
        · rw [Equiv.swap_apply_of_ne_of_ne hup hne']
          exact h.apart i hi hself hup
    · rw [hchild,Equiv.swap_apply_left,Equiv.swap_apply_of_ne_of_ne (by omega) (by omega)]
      rw [← heq]
      exact h.apart i hi (by omega) (by omega)
    · rw [hchild,Equiv.swap_apply_left,Equiv.swap_apply_right]
      exact hraised

/-- Repairing puts a heap in order that is in order around the place. -/
lemma repair_ordered (h : q.Around index) (hlt : index<q.heap.length) : (q.repair index).Ordered := by
  unfold repair
  split_ifs with hup
  · refine siftUp_ordered h (fun i hi heq=>?_) hlt
    refine leads_trans (by omega) (leads_of_exceeds hup.2) ?_
    exact h.across i hi heq (Nat.pos_of_ne_zero hup.1)
  · refine siftDown_ordered h fun hpos=>?_
    exact leads_of_not_exceeds (Bool.eq_false_iff.2 fun htrue=>hup ⟨hpos.ne',htrue⟩)

omit [DecidableEq K] in
/-- The entry at one place of an ordered heap may change. -/
lemma Ordered.around (h : q.Ordered) (hindex : index<q.heap.length)
    (hsame : ∀ i, i≠index → q'.heap[i]? = q.heap[i]? ∨ q'.heap[i]? = none) : q'.Around index := by
  have hkeep {i j : ℕ} (hi : i≠index) (hj : j≠index) (hlead : q.leads i j=true) : q'.leads i j=true := by
    refine leads_iff.2 fun {a b} ha hb=>?_
    rcases hsame i hi with heq | hnone
    · rcases hsame j hj with heq' | hnone'
      · exact leads_iff.1 hlead (heq ▸ ha) (heq' ▸ hb)
      · rw [hnone'] at hb; cases hb
    · rw [hnone] at ha; cases ha
  refine ⟨fun i hi hne hne'=>hkeep hne' hne (h i hi),fun i hi heq hpos=>?_⟩
  refine hkeep (by omega) (by omega) (leads_trans hindex (h index hpos) ?_)
  exact heq ▸ h i hi

omit [DecidableEq K] [TransOrd α] in
/-- A heap in order around a place past its end is in order. -/
lemma Around.ordered (h : q.Around index) (hle : q.heap.length ≤ index) : q.Ordered := by
  intro i hi
  rcases Nat.lt_or_ge i q.heap.length with hlt | hge
  · exact h.apart i hi (by omega) (by omega)
  · exact leads_of_none (List.getElem?_eq_none hge)

lemma put_ordered (h : q.Ordered) (a : α) : (q.put a).Ordered := by
  unfold put
  split
  next i hpos =>
    obtain ⟨b,hb,-⟩ := (q.indexed (key a) i).1 hpos
    have hi := (List.getElem?_eq_some_iff.1 hb).1
    refine repair_ordered (h.around hi fun k hk=>.inl ?_) (by rwa [List.length_set])
    exact List.getElem?_set_ne (Ne.symm hk)
  next hpos =>
    refine siftUp_ordered ⟨fun i hi hne hne'=>?_,fun i hi heq _=>?_⟩ (fun i hi heq=>?_) (by simp)
    · rcases Nat.lt_or_ge i q.heap.length with hlt | hge
      · rw [leads_congr (List.getElem?_append_left (by omega)) (List.getElem?_append_left hlt)]
        exact h i hi
      · exact leads_of_none (List.getElem?_eq_none (by simp; omega))
    all_goals exact leads_of_none (List.getElem?_eq_none (by simp; omega))

lemma remove_ordered {a : α} {k : K} (h : q.Ordered) (hremove : q.remove k=some (a,q')) :
    q'.Ordered := by
  unfold remove at hremove
  split at hremove
  next => cases hremove
  next i hpos =>
    split at hremove
    next c last hc hl =>
      have hi := (List.getElem?_eq_some_iff.1 hc).1
      have hcut (k : ℕ) (hk : k≠i) : (swapRemove q.heap i last)[k]? = q.heap[k]? ∨
          (swapRemove q.heap i last)[k]? = none := by
        rw [swapRemove,List.getElem?_dropLast]
        split_ifs
        · exact .inl (List.getElem?_set_ne (Ne.symm hk))
        · exact .inr rfl
      cases hremove
      split_ifs with hlt
      · exact repair_ordered (h.around hi hcut) hlt
      · exact (h.around hi hcut).ordered (Nat.le_of_not_lt hlt)
    next => cases hremove

lemma pop_ordered {a : α} (h : q.Ordered) (hpop : q.pop=some (a,q')) : q'.Ordered := by
  obtain ⟨b,-,hremove⟩ := Option.bind_eq_some_iff.1 hpop
  exact remove_ordered h hremove

omit [DecidableEq K] in
/-- The root of an ordered heap leads every entry. -/
lemma Ordered.peek_leads (h : q.Ordered) {a b : α} (hpeek : q.peek=some a) (hb : b ∈ q) : (compare a b).isGE=true := by
  have hroot : ∀ i, i<q.heap.length → q.leads 0 i=true := by
    intro i
    induction i using Nat.strong_induction_on with
    | _ i ih =>
      intro hi
      rcases Nat.eq_zero_or_pos i with rfl | hpos
      · cases hself : q.leads 0 0 with
        | true => rfl
        | false => exact hself.symm.trans (leads_total hself)
      · exact leads_trans (by omega) (ih _ (by omega) (by omega)) (h i hpos)
  obtain ⟨i,hi⟩ := List.mem_iff_getElem?.1 hb
  refine leads_iff.1 (hroot i (List.getElem?_eq_some_iff.1 hi).1) ?_ hi
  rwa [← List.head?_eq_getElem?]

omit [Ord α] [TransOrd α] [DecidableEq K] in
lemma get_eq_some {a : α} {k : K} : q.get k=some a ↔ a ∈ q ∧ key a=k := by
  refine Option.bind_eq_some_iff.trans ⟨?_,?_⟩
  · rintro ⟨i,hpos,ha⟩
    obtain ⟨b,hb,hk⟩ := (q.indexed k i).1 hpos
    rw [ha] at hb
    cases hb
    exact ⟨List.mem_of_getElem? ha,hk⟩
  · rintro ⟨ha,hk⟩
    obtain ⟨i,hi⟩ := List.mem_iff_getElem?.1 ha
    exact ⟨i,(q.indexed k i).2 ⟨a,hi,hk⟩,hi⟩

omit [Ord α] [TransOrd α] [DecidableEq K] in
lemma get_eq_none {k : K} : q.get k=none ↔ ∀ a ∈ q, key a≠k := by
  refine Option.eq_none_iff_forall_ne_some.trans (forall_congr' fun a=>?_)
  rw [Ne,get_eq_some,not_and]

omit [TransOrd α] in
lemma get_put (a : α) : (q.put a).get=update q.get (key a) (some a) := by
  ext k b
  rw [get_eq_some,mem_put,update_apply]
  split_ifs with h
  · subst h
    grind
  · rw [get_eq_some]
    grind

omit [Ord α] [TransOrd α] in
/-- What is left of a heap when the entry of `k` is out. -/
lemma get_without {k : K} (h : ∀ a, a ∈ q' ↔ a ∈ q ∧ key a≠k) : q'.get=update q.get k none := by
  ext k' b
  rw [get_eq_some,h,update_apply]
  split_ifs with heq
  · grind
  · rw [get_eq_some]
    grind

omit [TransOrd α] in
lemma remove_fst (k : K) : (q.remove k).map Prod.fst=q.get k := by
  cases h : q.remove k with
  | none => exact (get_eq_none.2 (remove_eq_none.1 h)).symm
  | some next =>
    obtain ⟨ha,hk,-⟩ := remove_spec h
    exact (get_eq_some.2 ⟨ha,hk⟩).symm

/-- Pops up to `count` entries. -/
def popAll (q : IndexedHeap key) : ℕ → List α
  | 0 => []
  | count+1 => q.pop.elim [] fun popped=>popped.1::popAll popped.2 count

/-- Popped one after another, entries come out once each and never after one they lead. -/
lemma popAll_spec {q : IndexedHeap key} {count : ℕ} (h : q.Ordered) (hlen : q.length=count) :
    (q.popAll count).Pairwise (fun a b=>(compare a b).isGE=true ∧ a≠b) ∧ ∀ a, a ∈ q.popAll count ↔ a ∈ q := by
  induction count generalizing q with
  | zero =>
    refine ⟨.nil,fun a=>iff_of_false List.not_mem_nil fun hmem=>?_⟩
    rw [mem_def,List.length_eq_zero_iff.1 hlen] at hmem
    cases hmem
  | succ count ih =>
    rw [popAll]
    cases hpop : q.pop with
    | none =>
      have hempty := isEmpty_iff_length.1 (isEmpty_iff.2 (pop_eq_none.1 hpop))
      omega
    | some popped =>
      obtain ⟨first,rest⟩ := popped
      obtain ⟨hpeek,hrest,hlength⟩ := pop_spec hpop
      obtain ⟨hpairs,hmem⟩ := ih (pop_ordered h hpop) (by omega)
      refine ⟨List.pairwise_cons.2 ⟨fun a ha=>?_,hpairs⟩,fun a=>?_⟩
      · obtain ⟨hin,hkey⟩ := (hrest a).1 ((hmem a).1 ha)
        exact ⟨h.peek_leads hpeek hin,fun heq=>hkey (heq ▸ rfl)⟩
      · refine List.mem_cons.trans ((or_congr_right ((hmem a).trans (hrest a))).trans ⟨?_,fun hin=>?_⟩)
        · rintro (rfl | hin)
          · exact mem_of_peek hpeek
          · exact hin.1
        · by_cases heq : key a=key first
          · exact .inl (mem_unique hin (mem_of_peek hpeek) heq)
          · exact .inr ⟨hin,heq⟩

end Cinnabar.IndexedHeap
