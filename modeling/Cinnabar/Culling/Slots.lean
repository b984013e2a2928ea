import Cinnabar.Culling.Grid

/-! # What the grid's slots hold, and how journal entries change it -/

namespace Cinnabar.Culling

structure Slots where
  index : SectionKey → ℕ
  cells : ℕ → Option Cell
  overflow : Overflow

namespace Slots

def setCell (s : Slots) (index : ℕ) (cell : Option Cell) : Slots :=
  { s with cells := Function.update s.cells index cell }

def eraseOverflow (s : Slots) (key : SectionKey) : Slots :=
  { s with overflow := s.overflow.erase key }

def insertOverflow (s : Slots) (key : SectionKey) (value : FaceConnectivity) : Slots :=
  { s with overflow := s.overflow.insert key value }

def InCell (s : Slots) (key : SectionKey) : Prop :=
  ∃ value, s.cells (s.index key) = some ⟨key,value⟩

def get (s : Slots) (key : SectionKey) : Option FaceConnectivity :=
  match s.cells (s.index key) with
  | none => s.overflow.lookup key
  | some cell => if cell.key=key then some cell.value else s.overflow.lookup key

variable {key : SectionKey}

lemma get_none {s : Slots} (h : s.cells (s.index key) = none) : s.get key=s.overflow.lookup key := by
  unfold get
  rw [h]

lemma get_some {s : Slots} {cell : Cell} (h : s.cells (s.index key) = some cell) :
    s.get key = if cell.key=key then some cell.value else s.overflow.lookup key := by
  unfold get
  rw [h]

structure Ok (s : Slots) : Prop where
  home : ∀ {index cell}, s.cells index=some cell → s.index cell.key=index
  apart : ∀ {key}, s.InCell key → s.overflow.lookup key=none

variable {s s' : Slots} {value : FaceConnectivity}

lemma get_of_inCell (h : s.cells (s.index key) = some ⟨key,value⟩) : s.get key=some value := by
  simp [get,h]

lemma get_of_not_inCell (h : ¬s.InCell key) : s.get key=s.overflow.lookup key := by
  unfold get
  cases hcell : s.cells (s.index key) with
  | none => rfl
  | some cell =>
    dsimp only
    rw [if_neg]
    rintro rfl
    exact h ⟨cell.value,hcell⟩

lemma Ok.get_of_overflow (hs : s.Ok) (h : s.overflow.lookup key=some value) : s.get key=some value := by
  rw [get_of_not_inCell,h]
  intro hcell
  rw [hs.apart hcell] at h
  cases h

def put (s : Slots) (key : SectionKey) (value : FaceConnectivity) : Slots :=
  if (s.overflow.lookup key).isSome then s.insertOverflow key value
  else match s.cells (s.index key) with
    | none => s.setCell (s.index key) (some ⟨key,value⟩)
    | some cell =>
      if cell.key=key then s.setCell (s.index key) (some ⟨key,value⟩)
      else s.insertOverflow key value

lemma put_none {s : Slots} (value : FaceConnectivity) (h : s.cells (s.index key) = none) : s.put key value =
      if (s.overflow.lookup key).isSome then s.insertOverflow key value
      else s.setCell (s.index key) (some ⟨key,value⟩) := by
  unfold put
  rw [h]

lemma put_some {s : Slots} (value : FaceConnectivity) {cell : Cell}
    (h : s.cells (s.index key) = some cell) : s.put key value =
      if (s.overflow.lookup key).isSome then s.insertOverflow key value
      else if cell.key=key then s.setCell (s.index key) (some ⟨key,value⟩)
      else s.insertOverflow key value := by
  unfold put
  rw [h]

section

variable (hs : s.Ok)
include hs

variable {key : SectionKey}

lemma Ok.setCell_self (value : FaceConnectivity) (hover : s.overflow.lookup key=none)
    (hcell : ∀ cell, s.cells (s.index key) = some cell → cell.key=key) :
    (s.setCell (s.index key) (some ⟨key,value⟩)).Ok ∧ ∀ other, (s.setCell (s.index key) (some ⟨key,value⟩)).get other =
        if other=key then some value else s.get other := by
  have hcells : ∀ i, (s.setCell (s.index key) (some ⟨key,value⟩)).cells i =
      if i=s.index key then some ⟨key,value⟩ else s.cells i := fun i=>by
    simp [setCell,Function.update_apply]
  refine ⟨⟨?_,?_⟩,?_⟩
  · intro index cell h
    rw [hcells] at h
    split_ifs at h with hi
    · cases h
      exact hi.symm
    · exact hs.home h
  · rintro other ⟨v,h⟩
    rw [hcells] at h
    split_ifs at h with hi
    · cases h
      exact hover
    · exact hs.apart ⟨v,h⟩
  · intro other
    unfold get
    rw [hcells]
    change (match if s.index other=s.index key then some ⟨key,value⟩
      else s.cells (s.index other) with
      | none => s.overflow.lookup other
      | some cell => if cell.key=other then some cell.value else s.overflow.lookup other) = _
    by_cases hk : other=key
    · subst hk
      simp
    · rw [if_neg hk]
      by_cases hi : s.index other=s.index key
      · rw [if_pos hi]
        simp only [Ne.symm hk,if_false]
        cases hold : s.cells (s.index other) with
        | none => rfl
        | some cell =>
          rw [hi] at hold
          dsimp only
          rw [hcell cell hold,if_neg (Ne.symm hk)]
      · rw [if_neg hi]

lemma Ok.insertOverflow_self (value : FaceConnectivity) (hcell : ¬s.InCell key) :
    (s.insertOverflow key value).Ok ∧ ∀ other, (s.insertOverflow key value).get other =
        if other=key then some value else s.get other := by
  refine ⟨⟨hs.home,?_⟩,?_⟩
  · rintro other hin
    change (s.overflow.insert key value).lookup other=none
    have hne : other≠key := by
      rintro rfl
      exact hcell hin
    rw [Finmap.lookup_insert_of_ne _ hne]
    exact hs.apart hin
  · intro other
    by_cases hk : other=key
    · subst hk
      rw [if_pos rfl,get_of_not_inCell (s := s.insertOverflow other value) hcell]
      exact Finmap.lookup_insert s.overflow
    · rw [if_neg hk]
      unfold get
      change (match s.cells (s.index other) with
        | none => (s.overflow.insert key value).lookup other
        | some cell =>
          if cell.key=other then some cell.value
          else (s.overflow.insert key value).lookup other) = _
      rw [Finmap.lookup_insert_of_ne _ hk]

lemma not_inCell_of_overflow (h : (s.overflow.lookup key).isSome) : ¬s.InCell key := by
  intro hin
  rw [hs.apart hin] at h
  cases h

lemma Ok.put (key : SectionKey) (value : FaceConnectivity) : (s.put key value).Ok ∧
      ∀ other, (s.put key value).get other = if other=key then some value else s.get other := by
  unfold Slots.put
  split_ifs with hover
  · exact hs.insertOverflow_self value (not_inCell_of_overflow hs hover)
  · rw [Bool.not_eq_true,Option.isSome_eq_false_iff,Option.isNone_iff_eq_none] at hover
    cases hcell : s.cells (s.index key) with
    | none =>
      refine hs.setCell_self value hover fun cell h=>?_
      rw [hcell] at h
      cases h
    | some cell =>
      dsimp only
      split_ifs with hk
      · refine hs.setCell_self value hover fun cell' h=>?_
        rw [hcell] at h
        cases h
        exact hk
      · refine hs.insertOverflow_self value ?_
        rintro ⟨v,h⟩
        rw [hcell] at h
        cases h
        exact hk rfl

lemma Ok.removeCell (h : s.InCell key) : (s.setCell (s.index key) none).Ok ∧
      ∀ other, (s.setCell (s.index key) none).get other =
        if other=key then none else s.get other := by
  obtain ⟨value,hcell⟩ := h
  have hcells : ∀ i, (s.setCell (s.index key) none).cells i = if i=s.index key then none else s.cells i := fun i=>by
    simp [setCell,Function.update_apply]
  refine ⟨⟨?_,?_⟩,?_⟩
  · intro index cell h
    rw [hcells] at h
    split_ifs at h
    exact hs.home h
  · rintro other ⟨v,h⟩
    rw [hcells] at h
    split_ifs at h
    exact hs.apart ⟨v,h⟩
  · intro other
    unfold get
    rw [hcells]
    change (match if s.index other=s.index key then none else s.cells (s.index other) with
      | none => s.overflow.lookup other
      | some cell => if cell.key=other then some cell.value else s.overflow.lookup other) = _
    by_cases hk : other=key
    · subst hk
      simp [hs.apart ⟨value,hcell⟩]
    · rw [if_neg hk]
      by_cases hi : s.index other=s.index key
      · rw [if_pos hi,hi,hcell]
        simp [Ne.symm hk]
      · rw [if_neg hi]

lemma Ok.removeOverflow (h : (s.overflow.lookup key).isSome) : (s.eraseOverflow key).Ok ∧
      ∀ other, (s.eraseOverflow key).get other = if other=key then none else s.get other := by
  have hout := not_inCell_of_overflow hs h
  have hlook : ∀ other, other≠key → (s.overflow.erase key).lookup other=s.overflow.lookup other :=
    fun other hk=>Finmap.lookup_erase_ne hk
  refine ⟨⟨hs.home,?_⟩,?_⟩
  · intro other hin
    change (s.overflow.erase key).lookup other=none
    rw [hlook]
    · exact hs.apart hin
    · rintro rfl
      exact hout hin
  · intro other
    by_cases hk : other=key
    · subst hk
      rw [if_pos rfl,get_of_not_inCell (s := s.eraseOverflow other) hout]
      exact Finmap.lookup_erase other s.overflow
    · rw [if_neg hk]
      unfold get
      change (match s.cells (s.index other) with
        | none => (s.overflow.erase key).lookup other
        | some cell =>
          if cell.key=other then some cell.value else (s.overflow.erase key).lookup other) = _
      rw [hlook other hk]

lemma Ok.promote {value : FaceConnectivity}
    (hover : s.overflow.lookup key=some value) (hcell : s.cells (s.index key) = none) :
    ((s.eraseOverflow key).setCell (s.index key) (some ⟨key,value⟩)).Ok ∧
      ∀ other, ((s.eraseOverflow key).setCell (s.index key) (some ⟨key,value⟩)).get other =
        s.get other := by
  obtain ⟨hok,hget⟩ := @Ok.removeOverflow s hs key (by rw [hover]; rfl)
  have hgone : (s.eraseOverflow key).overflow.lookup key=none := Finmap.lookup_erase key s.overflow
  obtain ⟨hok',hget'⟩ := hok.setCell_self value hgone (by
    intro cell h
    change s.cells (s.index key) = some cell at h
    rw [hcell] at h
    cases h)
  refine ⟨hok',fun other=>?_⟩
  rw [show (s.eraseOverflow key).index key=s.index key from rfl] at hget'
  rw [hget',hget]
  by_cases hk : other=key
  · subst hk
    simp [hs.get_of_overflow hover]
  · simp [hk]

end

end Slots

/-- What one journal entry says happened to the slots. -/
inductive Change : GraphChange → Slots → Slots → Prop where
  | joined {s : Slots} {key : SectionKey} (value : FaceConnectivity) : s.get key=none →
      Change (.opened key) s (s.put key value)
  | gained {s : Slots} {key : SectionKey} {old : FaceConnectivity} (value : FaceConnectivity) :
      s.get key=some old → old.connected ⊆ value.connected →
      Change (.opened key) s (s.put key value)
  | narrowed {s : Slots} {key : SectionKey} {old : FaceConnectivity} (value : FaceConnectivity) :
      s.get key=some old → value.connected ⊆ old.connected →
      Change .narrowed s (s.put key value)
  | removedCell {s : Slots} {key : SectionKey} : s.InCell key →
      Change (.removed key (some (s.index key))) s (s.setCell (s.index key) none)
  | removedOverflow {s : Slots} {key : SectionKey} : (s.overflow.lookup key).isSome →
      Change (.removed key none) s (s.eraseOverflow key)
  | promoted {s : Slots} {key : SectionKey} {value : FaceConnectivity} :
      s.overflow.lookup key=some value → s.cells (s.index key) = none →
      Change (.promoted key (s.index key)) s ((s.eraseOverflow key).setCell (s.index key) (some ⟨key,value⟩))

/-- A list of entries, oldest first. -/
inductive Replays : List GraphChange → Slots → Slots → Prop where
  | nil (s : Slots) : Replays [] s s
  | cons {change : GraphChange} {changes : List GraphChange} {s s' s'' : Slots} :
      Change change s s' → Replays changes s' s'' → Replays (change::changes) s s''

lemma Replays.append {changes changes' : List GraphChange} {s s' s'' : Slots}
    (h : Replays changes s s') (h' : Replays changes' s' s'') :
    Replays (changes++changes') s s'' := by
  induction h with
  | nil => exact h'
  | cons hc _ ih => exact .cons hc (ih h')

variable {change : GraphChange}

lemma Replays.single {s s' : Slots} (h : Change change s s') : Replays [change] s s' := .cons h (.nil s')

lemma Change.ok {s s' : Slots} (h : Change change s s') (hs : s.Ok) : s'.Ok ∧ s'.index=s.index := by
  have hput : ∀ key value, (s.put key value).index=s.index := by
    intro key value
    unfold Slots.put
    split_ifs
    · rfl
    · split
      · rfl
      · split_ifs <;> rfl
  cases h with
  | joined value _ => exact ⟨(hs.put _ value).1,hput _ value⟩
  | gained value _ _ => exact ⟨(hs.put _ value).1,hput _ value⟩
  | narrowed value _ _ => exact ⟨(hs.put _ value).1,hput _ value⟩
  | removedCell hin => exact ⟨(hs.removeCell hin).1,rfl⟩
  | removedOverflow hover => exact ⟨(hs.removeOverflow hover).1,rfl⟩
  | promoted hover hcell => exact ⟨(hs.promote hover hcell).1,rfl⟩

lemma Replays.ok {changes : List GraphChange} {s s' : Slots} (h : Replays changes s s')
    (hs : s.Ok) : s'.Ok ∧ s'.index=s.index := by
  induction h with
  | nil => exact ⟨hs,rfl⟩
  | cons hc _ ih =>
    obtain ⟨hok,hindex⟩ := hc.ok hs
    obtain ⟨hok',hindex'⟩ := ih hok
    exact ⟨hok',hindex'.trans hindex⟩

end Cinnabar.Culling
