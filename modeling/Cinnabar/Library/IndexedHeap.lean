import Mathlib

/-! # A binary max-heap with one removable entry per key -/

namespace Cinnabar

open List Function

universe u v

variable {α : Type u} {K : Type v}

/-- `positions` names, for each key, the one place of the list that holds it. -/
def Indexes (key : α → K) (heap : List α) (positions : K → Option ℕ) : Prop :=
  ∀ k i, positions k=some i ↔ ∃ a, heap[i]? = some a ∧ key a=k

structure IndexedHeap (key : α → K) where
  heap : List α
  positions : K → Option ℕ
  indexed : Indexes key heap positions

namespace IndexedHeap

variable {key : α → K}

instance : Membership α (IndexedHeap key) := ⟨fun q a=>a ∈ q.heap⟩

variable {heap : List α} {positions : K → Option ℕ} {q : IndexedHeap key} {a : α}

lemma mem_def : a ∈ q ↔ a ∈ q.heap := Iff.rfl

def empty : IndexedHeap key where
  heap := []
  positions := fun _=>none
  indexed := fun k i=>by simp

def length (q : IndexedHeap key) : ℕ := q.heap.length

def isEmpty (q : IndexedHeap key) : Bool := q.heap.isEmpty

/-- The entry at the root. -/
def peek (q : IndexedHeap key) : Option α := q.heap.head?

def get (q : IndexedHeap key) (k : K) : Option α := (q.positions k).bind fun i=>q.heap[i]?

@[simp] lemma not_mem_empty (a : α) : a ∉ (empty : IndexedHeap key) := by simp [mem_def,empty]

lemma isEmpty_iff : q.isEmpty=true ↔ ∀ a, a ∉ q := by
  simp [isEmpty,mem_def,eq_nil_iff_forall_not_mem]

lemma isEmpty_iff_length : q.isEmpty=true ↔ q.length=0 := by
  simp [isEmpty,length]

lemma mem_of_peek (h : q.peek=some a) : a ∈ q :=
  List.mem_of_mem_head? h

lemma place_unique (h : Indexes key heap positions)
    {i j : ℕ} {a b : α} (ha : heap[i]? = some a) (hb : heap[j]? = some b) (hk : key a=key b) :
    i=j := by
  have hi := (h (key a) i).2 ⟨a,ha,rfl⟩
  have hj := (h (key a) j).2 ⟨b,hb,hk.symm⟩
  rw [hi] at hj
  exact Option.some.inj hj

lemma mem_unique {a b : α} (ha : a ∈ q) (hb : b ∈ q) (hk : key a=key b) : a=b := by
  obtain ⟨i,hi⟩ := List.mem_iff_getElem?.1 ha
  obtain ⟨j,hj⟩ := List.mem_iff_getElem?.1 hb
  have hij := place_unique q.indexed hi hj hk
  subst hij
  rw [hi] at hj
  exact Option.some.inj hj

variable {k : K}

lemma positions_eq_none : q.positions k=none ↔ ∀ a ∈ q, key a≠k := by
  rw [Option.eq_none_iff_forall_ne_some]
  constructor
  · intro h a ha hk
    obtain ⟨i,hi⟩ := List.mem_iff_getElem?.1 ha
    exact h i ((q.indexed k i).2 ⟨a,hi,hk⟩)
  · intro h i hi
    obtain ⟨a,ha,hk⟩ := (q.indexed k i).1 hi
    exact h a (List.mem_of_getElem? ha) hk

variable [DecidableEq K]

/-- Exchanges two entries and keeps their key indexes synchronized. -/
lemma indexes_swap (h : Indexes key heap positions)
    {i j : ℕ} {a b : α} (hi : heap[i]? = some a) (hj : heap[j]? = some b) :
    Indexes key ((heap.set i b).set j a)
      (update (update positions (key b) (some i)) (key a) (some j)) := by
  have hil : i<heap.length := (List.getElem?_eq_some_iff.1 hi).1
  have hjl : j<heap.length := (List.getElem?_eq_some_iff.1 hj).1
  intro k n
  simp only [update_apply,List.getElem?_set,length_set]
  by_cases hka : k=key a
  · subst hka
    simp only [if_true,Option.some.injEq]
    constructor
    · rintro rfl
      exact ⟨a,by simp [hjl],rfl⟩
    · rintro ⟨c,hc,hk⟩
      by_contra hne
      split_ifs at hc with hin
      · cases hc
        exact hne (by rw [← hin]; exact (place_unique h hi hj hk.symm).symm)
      · exact hin (place_unique h hi hc hk.symm)
  · simp only [hka,if_false]
    by_cases hkb : k=key b
    · subst hkb
      simp only [if_true,Option.some.injEq]
      have hij : j≠i := by
        rintro rfl
        rw [hi] at hj
        cases hj
        exact hka rfl
      constructor
      · rintro rfl
        exact ⟨b,by simp [hij,hil],rfl⟩
      · rintro ⟨c,hc,hk⟩
        by_contra hne
        split_ifs at hc with hjn
        · cases hc
          exact hka hk.symm
        · exact hjn (place_unique h hj hc hk.symm)
    · simp only [hkb,if_false]
      rw [h k n]
      constructor
      · rintro ⟨c,hc,hk⟩
        have hnj : j≠n := by
          rintro rfl
          rw [hj] at hc
          cases hc
          exact hkb hk.symm
        have hni : i≠n := by
          rintro rfl
          rw [hi] at hc
          cases hc
          exact hka hk.symm
        exact ⟨c,by simp [hnj,hni,hc],hk⟩
      · rintro ⟨c,hc,hk⟩
        split_ifs at hc
        · cases hc
          exact absurd hk.symm hka
        · cases hc
          exact absurd hk.symm hkb
        · exact ⟨c,hc,hk⟩

omit [DecidableEq K] in
variable {i : ℕ}

lemma indexes_set (h : Indexes key heap positions) {a b : α} (hi : heap[i]? = some a) (hk : key b=key a) :
    Indexes key (heap.set i b) positions := by
  have hil : i<heap.length := (List.getElem?_eq_some_iff.1 hi).1
  intro k n
  rw [h k n]
  simp only [List.getElem?_set]
  constructor
  · rintro ⟨c,hc,hck⟩
    by_cases hin : i=n
    · subst hin
      rw [hi] at hc
      cases hc
      exact ⟨b,by simp [hil],hk.trans hck⟩
    · exact ⟨c,by simp [hin,hc],hck⟩
  · rintro ⟨c,hc,hck⟩
    split_ifs at hc with hin
    · cases hc
      subst hin
      exact ⟨a,hi,hk.symm.trans hck⟩
    · exact ⟨c,hc,hck⟩

/-- A new key goes to the end. -/
lemma indexes_append (h : Indexes key heap positions) (hk : positions (key a) = none) :
    Indexes key (heap ++ [a]) (update positions (key a) (some heap.length)) := by
  intro k n
  simp only [update_apply,List.getElem?_append]
  by_cases hka : k=key a
  · subst hka
    simp only [if_true,Option.some.injEq]
    constructor
    · rintro rfl
      exact ⟨a,by simp,rfl⟩
    · rintro ⟨c,hc,hck⟩
      by_contra hne
      split_ifs at hc with hn
      · have := (h (key a) n).2 ⟨c,hc,hck⟩
        rw [hk] at this
        cases this
      · rw [List.getElem?_eq_none (by simp; omega)] at hc
        cases hc
  · simp only [hka,if_false]
    rw [h k n]
    constructor
    · rintro ⟨c,hc,hck⟩
      have hn : n<heap.length := (List.getElem?_eq_some_iff.1 hc).1
      exact ⟨c,by rw [if_pos hn,hc],hck⟩
    · rintro ⟨c,hc,hck⟩
      split_ifs at hc with hn
      · exact ⟨c,hc,hck⟩
      · have hcs := List.mem_of_getElem? hc
        rw [mem_singleton] at hcs
        subst hcs
        exact absurd hck.symm hka

def swapRemove (heap : List α) (i : ℕ) (last : α) : List α := (heap.set i last).dropLast

lemma indexes_swapRemove (h : Indexes key heap positions) {a last : α} (hi : heap[i]? = some a)
    (hlast : heap[heap.length-1]? = some last) :
    Indexes key (swapRemove heap i last)
      (update (update positions (key last) (some i)) (key a) none) := by
  have hil : i<heap.length := (List.getElem?_eq_some_iff.1 hi).1
  intro k n
  simp only [update_apply,swapRemove,List.getElem?_dropLast,List.getElem?_set, length_set]
  by_cases hka : k=key a
  · subst hka
    simp only [if_true,reduceCtorEq,false_iff,not_exists,not_and]
    intro c hc hck
    split_ifs at hc with hn hin
    · cases hc
      have := place_unique h hi hlast hck.symm
      omega
    · exact hin (place_unique h hi hc hck.symm)
  · simp only [hka,if_false]
    have hne : i≠heap.length-1 ∨ k≠key last := by
      by_contra hcon
      push Not at hcon
      rw [← hcon.1,hi] at hlast
      cases hlast
      exact hka hcon.2
    by_cases hkl : k=key last
    · subst hkl
      have hil' : i<heap.length-1 := by
        rcases hne with hne | hne
        · omega
        · exact absurd rfl hne
      simp only [if_true,Option.some.injEq]
      constructor
      · rintro rfl
        exact ⟨last,by simp [hil',hil],rfl⟩
      · rintro ⟨c,hc,hck⟩
        by_contra hin
        split_ifs at hc with hn
        have := place_unique h hlast hc hck.symm
        omega
    · simp only [hkl,if_false]
      rw [h k n]
      constructor
      · rintro ⟨c,hc,hck⟩
        have hn : n<heap.length := (List.getElem?_eq_some_iff.1 hc).1
        have hnl : n≠heap.length-1 := by
          rintro rfl
          rw [hlast] at hc
          cases hc
          exact hkl hck.symm
        have hni : i≠n := by
          rintro rfl
          rw [hi] at hc
          cases hc
          exact hka hck.symm
        refine ⟨c,?_,hck⟩
        rw [if_pos (by omega),if_neg hni]
        exact hc
      · rintro ⟨c,hc,hck⟩
        split_ifs at hc
        · cases hc
          exact absurd hck.symm hkl
        · exact ⟨c,hc,hck⟩

def exchange (q : IndexedHeap key) (i j : ℕ) : IndexedHeap key :=
  if h : i<q.heap.length ∧ j<q.heap.length then
    { heap := (q.heap.set i q.heap[j]).set j q.heap[i]
      positions := update (update q.positions (key q.heap[j]) (some i)) (key q.heap[i]) (some j)
      indexed := indexes_swap q.indexed (List.getElem?_eq_getElem h.1) (List.getElem?_eq_getElem h.2) }
  else q

lemma exchange_perm (q : IndexedHeap key) (i j : ℕ) : (q.exchange i j).heap.Perm q.heap := by
  unfold exchange
  split_ifs with h
  · exact set_set_perm h.1 h.2
  · exact List.Perm.refl _

lemma length_exchange (q : IndexedHeap key) (i j : ℕ) : (q.exchange i j).heap.length=q.heap.length :=
  (q.exchange_perm i j).length_eq

variable [Ord α]

/-- `heap[i] >= heap[j]` -/
def leads (q : IndexedHeap key) (i j : ℕ) : Bool :=
  match q.heap[i]?, q.heap[j]? with
  | some a, some b => (compare a b).isGE
  | _, _ => true

/-- `heap[i] > heap[j]` -/
def exceeds (q : IndexedHeap key) (i j : ℕ) : Bool :=
  match q.heap[i]?, q.heap[j]? with
  | some a, some b => (compare a b).isGT
  | _, _ => false

/-- Moves a raised entry toward the root until its parent leads it. -/
def siftUp (q : IndexedHeap key) (index : ℕ) : IndexedHeap key :=
  if index=0 then q
  else if q.leads ((index-1) / 2) index then q
  else (q.exchange index ((index-1) / 2)).siftUp ((index-1) / 2)
termination_by index

/-- The child a lowered entry is compared with. -/
def largerChild (q : IndexedHeap key) (index : ℕ) : ℕ :=
  if index*2+2<q.heap.length ∧ q.exceeds (index*2+2) (index*2+1) then index*2+2
  else index*2+1

omit [DecidableEq K] in
lemma lt_largerChild (q : IndexedHeap key) (index : ℕ) : index<q.largerChild index := by
  unfold largerChild
  split_ifs <;> omega

/-- Moves a lowered entry toward the leaves until it leads both children. -/
def siftDown (q : IndexedHeap key) (index : ℕ) : IndexedHeap key :=
  if q.heap.length ≤ index*2+1 then q
  else if q.leads index (q.largerChild index) then q
  else (q.exchange index (q.largerChild index)).siftDown (q.largerChild index)
termination_by q.heap.length-index
decreasing_by
  have := q.lt_largerChild index
  rw [length_exchange]
  omega

/-- Repairs the only place whose entry may have changed. -/
def repair (q : IndexedHeap key) (index : ℕ) : IndexedHeap key :=
  if index≠0 ∧ q.exceeds index ((index-1) / 2) then q.siftUp index else q.siftDown index

lemma siftUp_perm (q : IndexedHeap key) (index : ℕ) : (q.siftUp index).heap.Perm q.heap := by
  induction q, index using siftUp.induct with
  | case1 q => rw [siftUp,if_pos rfl]
  | case2 q index h₀ hlead => rw [siftUp,if_neg h₀,if_pos hlead]
  | case3 q index h₀ hlead ih =>
    rw [siftUp,if_neg h₀,if_neg hlead]
    exact ih.trans (q.exchange_perm _ _)

lemma siftDown_perm (q : IndexedHeap key) (index : ℕ) : (q.siftDown index).heap.Perm q.heap := by
  induction q, index using siftDown.induct with
  | case1 q index hleaf => rw [siftDown,if_pos hleaf]
  | case2 q index hleaf hlead => rw [siftDown,if_neg hleaf,if_pos hlead]
  | case3 q index hleaf hlead ih =>
    rw [siftDown,if_neg hleaf,if_neg hlead]
    exact ih.trans (q.exchange_perm _ _)

lemma repair_perm (q : IndexedHeap key) (index : ℕ) : (q.repair index).heap.Perm q.heap := by
  unfold repair
  split_ifs
  · exact q.siftUp_perm index
  · exact q.siftDown_perm index

/-- Places an entry, in the place of the one of its key where there is one. -/
def put (q : IndexedHeap key) (a : α) : IndexedHeap key :=
  match h : q.positions (key a) with
  | some i =>
    repair
      { heap := q.heap.set i a
        positions := q.positions
        indexed := by
          obtain ⟨b,hb,hk⟩ := (q.indexed (key a) i).1 h
          exact indexes_set q.indexed hb hk.symm } i
  | none =>
    siftUp
      { heap := q.heap ++ [a]
        positions := update q.positions (key a) (some q.heap.length)
        indexed := indexes_append q.indexed h } q.heap.length

/-- Takes the entry of a key out; the last entry fills its place. -/
def remove (q : IndexedHeap key) (k : K) : Option (α × IndexedHeap key) :=
  match q.positions k with
  | none => none
  | some i =>
    match hi : q.heap[i]?, hl : q.heap[q.heap.length-1]? with
    | some a, some last =>
      let cut : IndexedHeap key :=
        { heap := swapRemove q.heap i last
          positions := update (update q.positions (key last) (some i)) (key a) none
          indexed := indexes_swapRemove q.indexed hi hl }
      some (a,if i < cut.heap.length then cut.repair i else cut)
    | _, _ => none

/-- Takes the root out. -/
def pop (q : IndexedHeap key) : Option (α × IndexedHeap key) :=
  q.heap.head?.bind fun a=>q.remove (key a)

def erase (q : IndexedHeap key) (k : K) : IndexedHeap key :=
  (q.remove k).elim q Prod.snd

omit [DecidableEq K] [Ord α] in
lemma mem_set {heap : List α} {positions : K → Option ℕ} (h : Indexes key heap positions) {a b x : α} (hi : heap[i]? = some b) :
    x ∈ heap.set i a ↔ x=a ∨ x ∈ heap ∧ key x≠key b := by
  have hil : i<heap.length := (List.getElem?_eq_some_iff.1 hi).1
  constructor
  · intro hx
    obtain ⟨n,hn⟩ := List.mem_iff_getElem?.1 hx
    rw [List.getElem?_set] at hn
    split_ifs at hn with hin
    · cases hn
      exact .inl rfl
    · refine .inr ⟨List.mem_of_getElem? hn,fun hk=>?_⟩
      exact hin (place_unique h hi hn hk.symm)
  · rintro (rfl | ⟨hx,hk⟩)
    · exact List.mem_set hil x
    · obtain ⟨n,hn⟩ := List.mem_iff_getElem?.1 hx
      refine List.mem_iff_getElem?.2 ⟨n,?_⟩
      rw [List.getElem?_set,if_neg]
      · exact hn
      · rintro rfl
        rw [hi] at hn
        cases hn
        exact hk rfl

omit [DecidableEq K] [Ord α] in
lemma mem_swapRemove (h : Indexes key heap positions) {a last x : α} (hi : heap[i]? = some a)
    (hlast : heap[heap.length-1]? = some last) :
    x ∈ swapRemove heap i last ↔ x ∈ heap ∧ key x≠key a := by
  have hil : i<heap.length := (List.getElem?_eq_some_iff.1 hi).1
  rw [swapRemove,List.mem_iff_getElem?]
  simp only [List.getElem?_dropLast,List.getElem?_set,length_set]
  constructor
  · rintro ⟨n,hn⟩
    split_ifs at hn with hnl hin
    · cases hn
      refine ⟨List.mem_of_getElem? hlast,fun hk=>?_⟩
      have := place_unique h hlast hi hk
      omega
    · refine ⟨List.mem_of_getElem? hn,fun hk=>?_⟩
      exact hin (place_unique h hi hn hk.symm)
  · rintro ⟨hx,hk⟩
    obtain ⟨n,hn⟩ := List.mem_iff_getElem?.1 hx
    have hnl : n<heap.length := (List.getElem?_eq_some_iff.1 hn).1
    have hin : i≠n := by
      rintro rfl
      rw [hi] at hn
      cases hn
      exact hk rfl
    by_cases hend : n=heap.length-1
    · subst hend
      rw [hlast] at hn
      cases hn
      exact ⟨i,by rw [if_pos (by omega),if_pos rfl,if_pos hil]⟩
    · exact ⟨n,by rw [if_pos (by omega),if_neg hin,hn]⟩

@[simp] lemma mem_put {a x : α} : x ∈ q.put a ↔ x=a ∨ x ∈ q ∧ key x≠key a := by
  unfold put
  split
  next i h =>
    obtain ⟨b,hb,hk⟩ := (q.indexed (key a) i).1 h
    rw [mem_def,(repair_perm _ i).mem_iff,mem_set q.indexed hb,hk,mem_def]
  next h =>
    rw [mem_def,(siftUp_perm _ _).mem_iff,mem_append,mem_singleton,or_comm,mem_def]
    have hfree := positions_eq_none.1 h
    constructor
    · rintro (rfl | hx)
      · exact .inl rfl
      · exact .inr ⟨hx,hfree x hx⟩
    · rintro (rfl | ⟨hx,-⟩)
      · exact .inl rfl
      · exact .inr hx

lemma length_put_le (q : IndexedHeap key) (a : α) : (q.put a).length≤q.length+1 := by
  unfold put length
  split
  next i h =>
    rw [(repair_perm _ i).length_eq]
    simp
  next h =>
    rw [(siftUp_perm _ _).length_eq]
    simp

lemma remove_eq_none : q.remove k=none ↔ ∀ a ∈ q, key a≠k := by
  rw [← positions_eq_none,remove]
  split
  next h => simp [h]
  next i h =>
    obtain ⟨a,ha,hk⟩ := (q.indexed k i).1 h
    have hil : i<q.heap.length := (List.getElem?_eq_some_iff.1 ha).1
    split
    · simp [h]
    next hnone =>
      have hl : q.heap[q.heap.length-1]? = some q.heap[q.heap.length-1] := List.getElem?_eq_getElem (by omega)
      exact absurd hl (hnone a _ ha)

lemma remove_spec {q q' : IndexedHeap key} (h : q.remove k=some (a,q')) :
    a ∈ q ∧ key a=k ∧ (∀ x, x ∈ q' ↔ x ∈ q ∧ key x≠k) ∧ q'.length+1=q.length := by
  unfold remove at h
  split at h
  next => cases h
  next i hpos =>
    obtain ⟨b,hb,hk⟩ := (q.indexed k i).1 hpos
    split at h
    next c last hc hl =>
      rw [hb] at hc
      cases hc
      cases h
      have hil : i<q.heap.length := (List.getElem?_eq_some_iff.1 hb).1
      refine ⟨List.mem_of_getElem? hb,hk,fun x=>?_,?_⟩
      · rw [← hk]
        split_ifs
        · rw [mem_def,(repair_perm _ i).mem_iff]
          exact mem_swapRemove q.indexed hb hl
        · exact mem_swapRemove q.indexed hb hl
      · unfold length
        split_ifs
        · rw [(repair_perm _ i).length_eq]
          simp only [swapRemove,length_dropLast,length_set]
          omega
        · simp only [swapRemove,length_dropLast,length_set]
          omega
    next => cases h

@[simp] lemma mem_erase {x : α} : x ∈ q.erase k ↔ x ∈ q ∧ key x≠k := by
  unfold erase
  cases h : q.remove k with
  | none =>
    have hfree := remove_eq_none.1 h
    exact ⟨fun hx=>⟨hx,hfree x hx⟩,fun hx=>hx.1⟩
  | some next => exact (remove_spec h).2.2.1 x

lemma pop_eq_none : q.pop=none ↔ ∀ a, a ∉ q := by
  unfold pop
  cases h : q.heap.head? with
  | none =>
    rw [List.head?_eq_none_iff] at h
    simp [mem_def,h]
  | some a =>
    have ha : a ∈ q := mem_of_peek h
    have hne : q.remove (key a) ≠ none := fun hr=>remove_eq_none.1 hr a ha rfl
    exact ⟨fun hr=>absurd hr hne,fun hq=>absurd ha (hq a)⟩

lemma pop_spec {q q' : IndexedHeap key} (h : q.pop=some (a,q')) :
    q.peek=some a ∧ (∀ x, x ∈ q' ↔ x ∈ q ∧ key x≠key a) ∧ q'.length+1=q.length := by
  obtain ⟨b,hb,hr⟩ := Option.bind_eq_some_iff.1 h
  obtain ⟨ha,hk,hmem,hlen⟩ := remove_spec hr
  have hab : b=a := mem_unique (mem_of_peek hb) ha hk.symm
  subst hab
  exact ⟨hb,hmem,hlen⟩

lemma mem_of_pop {q q' : IndexedHeap key} (h : q.pop=some (a,q')) : a ∈ q :=
  mem_of_peek (pop_spec h).1

end IndexedHeap

end Cinnabar
