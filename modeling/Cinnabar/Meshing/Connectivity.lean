import Cinnabar.Culling.Face

/-! # Cave connectivity -/

namespace Cinnabar.Culling.FaceConnectivity

protected def all : FaceConnectivity := ⟨Finset.univ⟩

protected def none : FaceConnectivity := ⟨∅⟩

variable (value : FaceConnectivity)

def isConnected (entry exit : Face) : Bool :=
  (entry,exit) ∈ value.connected

def connectTouchedFaces (touched : Finset Face) : FaceConnectivity :=
  ⟨value.connected ∪ touched ×ˢ touched⟩

end Cinnabar.Culling.FaceConnectivity

namespace Cinnabar.Meshing

open Culling (Face FaceConnectivity)
open List

/-- A voxel's coordinates within its section. -/
abbrev Voxel := ℕ × ℕ × ℕ

def side : ℕ := 16

def voxelCount : ℕ := side*side*side

variable (v : Voxel)

def linearFromCoordinate : ℕ := v.1 <<< 8 ||| v.2.2 <<< 4 ||| v.2.1

def coordinateFromLinear (linear : ℕ) : Voxel :=
  (linear >>> 8,linear &&& 0x0f,(linear >>> 4) &&& 0x0f)

def touchedFaces : Finset Face :=
  (if v.1=0 then {.negativeX} else ∅) ∪ (if v.1=side-1 then {.positiveX} else ∅) ∪
    (if v.2.1=0 then {.negativeY} else ∅) ∪ (if v.2.1=side-1 then {.positiveY} else ∅) ∪
    (if v.2.2=0 then {.negativeZ} else ∅) ∪ (if v.2.2=side-1 then {.positiveZ} else ∅)

def adjacentCoordinates : List (Option Voxel) :=
  [if 0<v.1 then some (v.1-1,v.2.1,v.2.2) else none, if v.1+1 < side then some (v.1+1,v.2.1,v.2.2) else none,
    if 0<v.2.1 then some (v.1,v.2.1-1,v.2.2) else none,
    if v.2.1+1 < side then some (v.1,v.2.1+1,v.2.2) else none,
    if 0<v.2.2 then some (v.1,v.2.1,v.2.2-1) else none,
    if v.2.2+1 < side then some (v.1,v.2.1,v.2.2+1) else none]

/-- Pushes the open neighbours not visited yet; `none` is the stack's bound exceeded. -/
def pushNeighbours (isOpen : Voxel → Bool) :
    List Voxel → Finset ℕ → List ℕ → Option (Finset ℕ × List ℕ)
  | [], visited, stack => some (visited,stack)
  | neighbour::rest, visited, stack =>
    if linearFromCoordinate neighbour ∈ visited ∨ isOpen neighbour=false then
      pushNeighbours isOpen rest visited stack
    else if stack.length<voxelCount then
      pushNeighbours isOpen rest (insert (linearFromCoordinate neighbour) visited)
        (linearFromCoordinate neighbour::stack)
    else none

/-- `while len != 0`: the voxels visited and the faces touched; the walk stops once all six are. -/
def walk (isOpen : Voxel → Bool) :
    ℕ → Finset ℕ → List ℕ → Finset Face → Option (Finset ℕ × Finset Face)
  | _, visited, [], touched => some (visited,touched)
  | 0, _, _::_, _ => none
  | fuel+1, visited, linear::stack, touched =>
    let touched := touched ∪ touchedFaces (coordinateFromLinear linear)
    if touched=Finset.univ then some (visited,touched)
    else
      (pushNeighbours isOpen ((adjacentCoordinates (coordinateFromLinear linear)).filterMap id)
        visited stack).bind fun pushed=>walk isOpen fuel pushed.1 pushed.2 touched

/-- The walk from each seed in turn. -/
def connectFrom (isOpen : Voxel → Bool) :
    List ℕ → Finset ℕ → FaceConnectivity → Option FaceConnectivity
  | [], _, connectivity => some connectivity
  | seed::rest, visited, connectivity =>
    if seed ∈ visited ∨ isOpen (coordinateFromLinear seed) = false then
      connectFrom isOpen rest visited connectivity
    else
      (walk isOpen voxelCount (insert seed visited) [seed] ∅).bind fun out =>
        if out.2=Finset.univ then some .all
        else connectFrom isOpen rest out.1 (connectivity.connectTouchedFaces out.2)

def connectivityThrough (isOpen : Voxel → Bool) : Option FaceConnectivity :=
  connectFrom isOpen (List.range voxelCount) ∅ .none

def Voxel.Inside : Prop := v.1 < side ∧ v.2.1 < side ∧ v.2.2 < side

/-- Two voxels of the section with a face in common. -/
def Voxel.SixAdjacent (v w : Voxel) : Prop := some w ∈ adjacentCoordinates v

lemma linearFromCoordinate_eq {v : Voxel} (h : v.Inside) : linearFromCoordinate v=v.1*256+v.2.2*16+v.2.1 := by
  obtain ⟨x,y,z⟩ := v
  obtain ⟨hx,hy,hz⟩ := h
  unfold side at hx hy hz
  unfold linearFromCoordinate
  dsimp only
  have hxz : x <<< 8 ||| z <<< 4 = (x*16+z) <<< 4 := by
    rw [show x <<< 8 = (x <<< 4) <<< 4 by rw [← Nat.shiftLeft_add],← Nat.shiftLeft_or_distrib,
      ← Nat.shiftLeft_add_eq_or_of_lt (by omega : z<2^4),Nat.shiftLeft_eq x]
  rw [hxz,← Nat.shiftLeft_add_eq_or_of_lt (by omega : y<2^4),Nat.shiftLeft_eq]
  omega

lemma coordinateFromLinear_eq (linear : ℕ) : coordinateFromLinear linear = (linear/256,linear % 16,linear/16 % 16) := by
  unfold coordinateFromLinear
  have hmask : ∀ n, n &&& 0x0f=n % 16 := fun n=>Nat.and_two_pow_sub_one_eq_mod n 4
  rw [hmask,hmask,Nat.shiftRight_eq_div_pow,Nat.shiftRight_eq_div_pow]

lemma coordinate_linear {v : Voxel} (h : v.Inside) : coordinateFromLinear (linearFromCoordinate v) = v := by
  rw [linearFromCoordinate_eq h,coordinateFromLinear_eq]
  obtain ⟨x,y,z⟩ := v
  obtain ⟨hx,hy,hz⟩ := h
  unfold side at hx hy hz
  dsimp only at hx hy hz ⊢
  refine Prod.ext ?_ (Prod.ext ?_ ?_) <;> dsimp only <;> omega

lemma inside_coordinate {linear : ℕ} (h : linear<voxelCount) : (coordinateFromLinear linear).Inside := by
  rw [coordinateFromLinear_eq]
  unfold voxelCount side at h
  refine ⟨?_,?_,?_⟩ <;> unfold side <;> dsimp only <;> omega

lemma linear_coordinate {linear : ℕ} (h : linear<voxelCount) :
    linearFromCoordinate (coordinateFromLinear linear) = linear := by
  rw [linearFromCoordinate_eq (inside_coordinate h),coordinateFromLinear_eq]
  dsimp only
  omega

lemma linear_lt {v : Voxel} (h : v.Inside) : linearFromCoordinate v<voxelCount := by
  rw [linearFromCoordinate_eq h]
  obtain ⟨hx,hy,hz⟩ := h
  unfold side at hx hy hz
  unfold voxelCount side
  omega

lemma sixAdjacent_iff {v w : Voxel} (hv : v.Inside) : v.SixAdjacent w ↔ w.Inside ∧
    ((v.1=w.1+1 ∨ w.1=v.1+1) ∧ v.2.1=w.2.1 ∧ v.2.2=w.2.2 ∨ (v.2.1=w.2.1+1 ∨ w.2.1=v.2.1+1) ∧ v.1=w.1 ∧ v.2.2=w.2.2 ∨
      (v.2.2=w.2.2+1 ∨ w.2.2=v.2.2+1) ∧ v.1=w.1 ∧ v.2.1=w.2.1) := by
  obtain ⟨x',y',z'⟩ := w
  unfold Voxel.SixAdjacent Voxel.Inside adjacentCoordinates side at *
  simp only [mem_cons,not_mem_nil,or_false,Option.some_eq_ite_none_right, Option.some.injEq,Prod.mk.injEq] at *
  constructor
  · rintro (h | h | h | h | h | h)
    · exact ⟨by omega,.inl (by omega)⟩
    · exact ⟨by omega,.inl (by omega)⟩
    · exact ⟨by omega,.inr (.inl (by omega))⟩
    · exact ⟨by omega,.inr (.inl (by omega))⟩
    · exact ⟨by omega,.inr (.inr (by omega))⟩
    · exact ⟨by omega,.inr (.inr (by omega))⟩
  · rintro ⟨hw,⟨h | h,heq⟩ | ⟨h | h,heq⟩ | ⟨h | h,heq⟩⟩
    · exact .inl (by omega)
    · exact .inr (.inl (by omega))
    · exact .inr (.inr (.inl (by omega)))
    · exact .inr (.inr (.inr (.inl (by omega))))
    · exact .inr (.inr (.inr (.inr (.inl (by omega)))))
    · exact .inr (.inr (.inr (.inr (.inr (by omega)))))

lemma Voxel.SixAdjacent.inside {v w : Voxel} (h : v.SixAdjacent w) (hv : v.Inside) : w.Inside :=
  ((sixAdjacent_iff hv).1 h).1

lemma Voxel.SixAdjacent.symm {v w : Voxel} (h : v.SixAdjacent w) (hv : v.Inside) :
    w.SixAdjacent v := by
  have hw := h.inside hv
  rw [sixAdjacent_iff hv] at h
  rw [sixAdjacent_iff hw]
  refine ⟨hv,?_⟩
  omega

section Walk

variable {isOpen : Voxel → Bool} {old visited : Finset ℕ} {stack : List ℕ} {touched : Finset Face}
  {seed linear : ℕ}

def OpenStep (isOpen : Voxel → Bool) (v w : Voxel) : Prop := v.SixAdjacent w ∧ isOpen w=true

def Joins (isOpen : Voxel → Bool) (v w : Voxel) : Prop :=
  v.Inside ∧ isOpen v=true ∧ Relation.ReflTransGen (OpenStep isOpen) v w

lemma Joins.target {v w : Voxel} (h : Joins isOpen v w) : w.Inside ∧ isOpen w=true := by
  obtain ⟨hv,hopen,hpath⟩ := h
  induction hpath with
  | refl => exact ⟨hv,hopen⟩
  | tail _ hstep ih => exact ⟨hstep.1.inside ih.1,hstep.2⟩

lemma Joins.tail {v w u : Voxel} (h : Joins isOpen v w) (hstep : OpenStep isOpen w u) :
    Joins isOpen v u := ⟨h.1,h.2.1,h.2.2.tail hstep⟩

lemma Joins.symm {v w : Voxel} (h : Joins isOpen v w) : Joins isOpen w v := by
  obtain ⟨hv,hopen,hpath⟩ := h
  induction hpath with
  | refl => exact ⟨hv,hopen,.refl⟩
  | @tail u w hpath hstep ih =>
    have hu := Joins.target ⟨hv,hopen,hpath⟩
    refine ⟨hstep.1.inside hu.1,hstep.2,.head ⟨hstep.1.symm hu.1,hu.2⟩ ih.2.2⟩

lemma Joins.trans {v w u : Voxel} (h : Joins isOpen v w) (h' : Joins isOpen w u) :
    Joins isOpen v u := ⟨h.1,h.2.1,h.2.2.trans h'.2.2⟩

structure Exploring (isOpen : Voxel → Bool) (old : Finset ℕ) (seed : ℕ) (visited : Finset ℕ)
    (stack : List ℕ) (touched : Finset Face) : Prop where
  old_le : old ⊆ visited
  lt : ∀ l ∈ visited, l<voxelCount
  joined : ∀ l ∈ visited, l ∉ old → Joins isOpen (coordinateFromLinear seed) (coordinateFromLinear l)
  stack_mem : ∀ l ∈ stack, l ∈ visited ∧ l ∉ old
  nodup : stack.Nodup
  touched_by : ∀ face ∈ touched, ∃ l ∈ visited, l ∉ old ∧ face ∈ touchedFaces (coordinateFromLinear l)

structure Walking (isOpen : Voxel → Bool) (old : Finset ℕ) (seed : ℕ) (visited : Finset ℕ)
    (stack : List ℕ) (touched : Finset Face) : Prop
    extends Exploring isOpen old seed visited stack touched where
  left : ∀ l ∈ visited, l ∉ old → l ∈ stack ∨
    (∀ w, OpenStep isOpen (coordinateFromLinear l) w → linearFromCoordinate w ∈ visited) ∧
      touchedFaces (coordinateFromLinear l) ⊆ touched

structure Pushing (isOpen : Voxel → Bool) (old : Finset ℕ) (seed linear : ℕ) (done : List Voxel)
    (visited : Finset ℕ) (stack : List ℕ) (touched : Finset Face) : Prop
    extends Exploring isOpen old seed visited stack touched where
  left : ∀ l ∈ visited, l ∉ old → l≠linear → l ∈ stack ∨
    (∀ w, OpenStep isOpen (coordinateFromLinear l) w → linearFromCoordinate w ∈ visited) ∧
      touchedFaces (coordinateFromLinear l) ⊆ touched
  here : linear ∈ visited ∧ linear ∉ old ∧ touchedFaces (coordinateFromLinear linear) ⊆ touched
  pushed : ∀ w ∈ done, isOpen w=true → linearFromCoordinate w ∈ visited

lemma Walking.pop (h : Walking isOpen old seed visited (linear::stack) touched) :
    Pushing isOpen old seed linear [] visited stack (touched ∪ touchedFaces (coordinateFromLinear linear)) where
  __ := h
  stack_mem := fun l hl=>h.stack_mem l (.tail _ hl)
  nodup := (nodup_cons.1 h.nodup).2
  touched_by := fun face hface=>by
    rcases Finset.mem_union.1 hface with hold | hnew
    · exact h.touched_by face hold
    · obtain ⟨hvisited,hold⟩ := h.stack_mem linear (.head _)
      exact ⟨linear,hvisited,hold,hnew⟩
  left := fun l hl hold hne=>by
    rcases h.left l hl hold with hstack | ⟨hclosed,hfaces⟩
    · exact .inl ((mem_cons.1 hstack).resolve_left hne)
    · exact .inr ⟨hclosed,hfaces.trans Finset.subset_union_left⟩
  here := by
    obtain ⟨hvisited,hold⟩ := h.stack_mem linear (.head _)
    exact ⟨hvisited,hold,Finset.subset_union_right⟩
  pushed := fun w hw=>absurd hw not_mem_nil

lemma stack_lt (hlt : ∀ l ∈ visited, l<voxelCount) (hmem : ∀ l ∈ stack, l ∈ visited)
    (hnodup : stack.Nodup) (hlinear : linear<voxelCount) (hnew : linear ∉ visited) :
    stack.length<voxelCount ∧ visited.card<voxelCount := by
  have hsub : insert linear visited ⊆ Finset.range voxelCount := by
    intro l hl
    rcases Finset.mem_insert.1 hl with rfl | hl
    · exact Finset.mem_range.2 hlinear
    · exact Finset.mem_range.2 (hlt l hl)
  have hcard := Finset.card_le_card hsub
  rw [Finset.card_insert_of_notMem hnew,Finset.card_range] at hcard
  have hstack : stack.toFinset ⊆ visited := fun l hl=>hmem l (mem_toFinset.1 hl)
  have hlength := Finset.card_le_card hstack
  rw [toFinset_card_of_nodup hnodup] at hlength
  omega

lemma pushNeighbours_subset {todo : List Voxel} {visited' : Finset ℕ} {stack' : List ℕ}
    (h : pushNeighbours isOpen todo visited stack=some (visited',stack')) :
    visited ⊆ visited' := by
  induction todo generalizing visited stack with
  | nil =>
    cases h
    exact Finset.Subset.refl _
  | cons w rest ih =>
    unfold pushNeighbours at h
    split_ifs at h
    · exact ih h
    · exact (Finset.subset_insert _ _).trans (ih h)

lemma pushNeighbours_spec {done todo : List Voxel} (h : Pushing isOpen old seed linear done visited stack touched)
    (htodo : ∀ w ∈ todo, (coordinateFromLinear linear).SixAdjacent w) :
    ∃ visited' stack', pushNeighbours isOpen todo visited stack=some (visited',stack') ∧
      Pushing isOpen old seed linear (done++todo) visited' stack' touched ∧
      visited'.card+stack.length=visited.card+stack'.length ∧
      visited'.card≤voxelCount := by
  induction todo generalizing done visited stack with
  | nil =>
    refine ⟨visited,stack,rfl,by rwa [append_nil],rfl,?_⟩
    have hsub : visited ⊆ Finset.range voxelCount := fun l hl=>Finset.mem_range.2 (h.lt l hl)
    have hcard := Finset.card_le_card hsub
    rwa [Finset.card_range] at hcard
  | cons w rest ih =>
    have hadjacent := htodo w (.head _)
    have hrest : ∀ u ∈ rest, (coordinateFromLinear linear).SixAdjacent u := fun u hu =>
      htodo u (.tail _ hu)
    have hjoined := h.joined linear h.here.1 h.here.2.1
    have hinside := hadjacent.inside hjoined.target.1
    rw [append_cons]
    unfold pushNeighbours
    by_cases hskip : linearFromCoordinate w ∈ visited ∨ isOpen w=false
    · rw [if_pos hskip]
      refine ih { h with pushed := fun u hu hopen=>?_ } hrest
      rcases mem_append.1 hu with hdone | hlast
      · exact h.pushed u hdone hopen
      · rw [mem_singleton] at hlast
        subst hlast
        exact hskip.resolve_right (by rw [hopen]; decide)
    · rw [if_neg hskip]
      rw [not_or,Bool.not_eq_false] at hskip
      obtain ⟨hnew,hopen⟩ := hskip
      obtain ⟨hroom,-⟩ := stack_lt h.lt (fun l hl=>(h.stack_mem l hl).1) h.nodup (linear_lt hinside) hnew
      rw [if_pos hroom]
      have hback := coordinate_linear hinside
      have hnext : Pushing isOpen old seed linear (done ++ [w])
          (insert (linearFromCoordinate w) visited) (linearFromCoordinate w::stack) touched :=
        { old_le := h.old_le.trans (Finset.subset_insert _ _)
          lt := fun l hl=>by
            rcases Finset.mem_insert.1 hl with rfl | hl
            · exact linear_lt hinside
            · exact h.lt l hl
          joined := fun l hl hold=>by
            rcases Finset.mem_insert.1 hl with rfl | hl
            · rw [hback]
              exact hjoined.tail ⟨hadjacent,hopen⟩
            · exact h.joined l hl hold
          stack_mem := fun l hl=>by
            rcases mem_cons.1 hl with rfl | hl
            · exact ⟨Finset.mem_insert_self _ _,fun hold=>hnew (h.old_le hold)⟩
            · exact ⟨Finset.mem_insert_of_mem (h.stack_mem l hl).1,(h.stack_mem l hl).2⟩
          nodup := nodup_cons.2 ⟨fun hmem=>hnew (h.stack_mem _ hmem).1,h.nodup⟩
          touched_by := fun face hface=>by
            obtain ⟨l,hl,hold,hmem⟩ := h.touched_by face hface
            exact ⟨l,Finset.mem_insert_of_mem hl,hold,hmem⟩
          left := fun l hl hold hne=>by
            rcases Finset.mem_insert.1 hl with rfl | hl
            · exact .inl (.head _)
            · rcases h.left l hl hold hne with hstack | ⟨hclosed,hfaces⟩
              · exact .inl (.tail _ hstack)
              · exact .inr ⟨fun u hu=>Finset.mem_insert_of_mem (hclosed u hu),hfaces⟩
          here := ⟨Finset.mem_insert_of_mem h.here.1,h.here.2⟩
          pushed := fun u hu hopen'=>by
            rcases mem_append.1 hu with hdone | hlast
            · exact Finset.mem_insert_of_mem (h.pushed u hdone hopen')
            · rw [mem_singleton] at hlast
              subst hlast
              exact Finset.mem_insert_self _ _ }
      obtain ⟨visited',stack',hrun,hpushing,hcount,hle⟩ := ih hnext hrest
      refine ⟨visited',stack',hrun,hpushing,?_,hle⟩
      rw [Finset.card_insert_of_notMem hnew,length_cons] at hcount
      omega

lemma Pushing.walking {done : List Voxel} (h : Pushing isOpen old seed linear done visited stack touched)
    (hdone : ∀ w, (coordinateFromLinear linear).SixAdjacent w → w ∈ done) :
    Walking isOpen old seed visited stack touched where
  toExploring := h.toExploring
  left := fun l hl hold=>by
    by_cases hne : l=linear
    · subst hne
      exact .inr ⟨fun w hw=>h.pushed w (hdone w hw.1) hw.2,h.here.2.2⟩
    · exact h.left l hl hold hne

lemma walk_spec (fuel : ℕ) (h : Walking isOpen old seed visited stack touched)
    (hfuel : voxelCount+stack.length≤fuel+visited.card) (hle : visited.card≤voxelCount) :
    ∃ visited' touched', walk isOpen fuel visited stack touched=some (visited',touched') ∧
      (∀ face ∈ touched', ∃ v, Joins isOpen (coordinateFromLinear seed) v ∧ face ∈ touchedFaces v) ∧
      (touched'≠Finset.univ → Walking isOpen old seed visited' [] touched' ∧
        visited ⊆ visited') := by
  have hfaces : ∀ {visited stack touched}, Walking isOpen old seed visited stack touched →
      ∀ face ∈ touched, ∃ v, Joins isOpen (coordinateFromLinear seed) v ∧
        face ∈ touchedFaces v := by
    intro visited stack touched h face hface
    obtain ⟨l,hl,hold,hmem⟩ := h.touched_by face hface
    exact ⟨_,h.joined l hl hold,hmem⟩
  induction fuel generalizing visited stack touched with
  | zero =>
    have hempty : stack = [] := length_eq_zero_iff.1 (by omega)
    subst hempty
    exact ⟨visited,touched,rfl,hfaces h,fun _=>⟨h,Finset.Subset.refl _⟩⟩
  | succ fuel ih =>
    cases stack with
    | nil => exact ⟨visited,touched,rfl,hfaces h,fun _=>⟨h,Finset.Subset.refl _⟩⟩
    | cons linear stack =>
      unfold walk
      have hpop := h.pop
      by_cases hall : touched ∪ touchedFaces (coordinateFromLinear linear) = Finset.univ
      · rw [if_pos hall]
        refine ⟨_,_,rfl,fun face hface=>?_,fun hne=>absurd hall hne⟩
        obtain ⟨l,hl,hold,hmem⟩ := hpop.touched_by face hface
        exact ⟨_,h.joined l hl hold,hmem⟩
      · rw [if_neg hall]
        have hmem : ∀ w, w ∈ (adjacentCoordinates (coordinateFromLinear linear)).filterMap id ↔
            (coordinateFromLinear linear).SixAdjacent w := by
          intro w
          rw [mem_filterMap]
          constructor
          · rintro ⟨a,ha,rfl⟩
            exact ha
          · exact fun hw=>⟨some w,hw,rfl⟩
        obtain ⟨visited',stack',hpushed,hpushing,hcount,hle'⟩ := pushNeighbours_spec hpop fun w hw=>(hmem w).1 hw
        rw [hpushed,Option.bind_some]
        have hwalking := hpushing.walking fun w hw=>(hmem w).2 hw
        obtain ⟨visited'',touched'',hrun,hby,hrest⟩ := ih hwalking (by rw [length_cons] at hfuel; omega) hle'
        refine ⟨visited'',touched'',hrun,hby,fun hne=>?_⟩
        obtain ⟨hend,hsub⟩ := hrest hne
        refine ⟨hend,fun l hl=>?_⟩
        by_cases hold : l ∈ old
        · exact hend.old_le hold
        · exact hsub (pushNeighbours_subset hpushed hl)

lemma Walking.component (h : Walking isOpen old seed visited [] touched) (hseed : seed ∈ visited)
    (hnew : seed ∉ old) (hlt : seed<voxelCount)
    (hclosed : ∀ l ∈ old, ∀ w, OpenStep isOpen (coordinateFromLinear l) w →
      linearFromCoordinate w ∈ old) {v : Voxel} (hv : Joins isOpen (coordinateFromLinear seed) v) :
    linearFromCoordinate v ∈ visited ∧ linearFromCoordinate v ∉ old ∧ touchedFaces v ⊆ touched := by
  have hmem : linearFromCoordinate v ∈ visited ∧ linearFromCoordinate v ∉ old := by
    obtain ⟨hinside,hopen,hpath⟩ := hv
    induction hpath with
    | refl =>
      rw [linear_coordinate hlt]
      exact ⟨hseed,hnew⟩
    | @tail u w hpath hstep ih =>
      have hu := Joins.target ⟨hinside,hopen,hpath⟩
      have hw := hstep.1.inside hu.1
      obtain ⟨hvisited,hold⟩ := ih
      have hleft := (h.left _ hvisited hold).resolve_left not_mem_nil
      rw [coordinate_linear hu.1] at hleft
      refine ⟨hleft.1 w hstep,fun hin=>hold ?_⟩
      refine hclosed _ hin u ?_
      rw [coordinate_linear hw]
      exact ⟨hstep.1.symm hu.1,hu.2⟩
  have hleft := (h.left _ hmem.1 hmem.2).resolve_left not_mem_nil
  rw [coordinate_linear hv.target.1] at hleft
  exact ⟨hmem.1,hmem.2,hleft.2⟩

end Walk

section Section

variable {isOpen : Voxel → Bool} {visited : Finset ℕ} {connectivity : FaceConnectivity}
  {entry exit : Face}

def JoinedFrom (isOpen : Voxel → Bool) (among : Voxel → Prop) (entry exit : Face) : Prop :=
  ∃ v w, among v ∧ Joins isOpen v w ∧ entry ∈ touchedFaces v ∧ exit ∈ touchedFaces w

def JoinsFaces (isOpen : Voxel → Bool) (entry exit : Face) : Prop :=
  ∃ v w, Joins isOpen v w ∧ entry ∈ touchedFaces v ∧ exit ∈ touchedFaces w

structure Connecting (isOpen : Voxel → Bool) (visited : Finset ℕ)
    (connectivity : FaceConnectivity) : Prop where
  lt : ∀ l ∈ visited, l<voxelCount
  closed : ∀ l ∈ visited, ∀ w, OpenStep isOpen (coordinateFromLinear l) w → linearFromCoordinate w ∈ visited
  connected : ∀ entry exit, (entry,exit) ∈ connectivity.connected ↔
    JoinedFrom isOpen (fun v=>linearFromCoordinate v ∈ visited) entry exit

lemma connectFrom_spec {seeds : List ℕ} (h : Connecting isOpen visited connectivity)
    (hseeds : ∀ l ∈ seeds, l<voxelCount)
    (hall : ∀ l<voxelCount, isOpen (coordinateFromLinear l) = true → l ∈ visited ∨ l ∈ seeds) :
    ∃ result, connectFrom isOpen seeds visited connectivity=some result ∧ ∀ entry exit,
      (entry,exit) ∈ result.connected ↔ JoinsFaces isOpen entry exit := by
  induction seeds generalizing visited connectivity with
  | nil =>
    refine ⟨connectivity,rfl,fun entry exit=>(h.connected entry exit).trans ?_⟩
    constructor
    · rintro ⟨v,w,-,hjoins,hentry,hexit⟩
      exact ⟨v,w,hjoins,hentry,hexit⟩
    · rintro ⟨v,w,hjoins,hentry,hexit⟩
      refine ⟨v,w,?_,hjoins,hentry,hexit⟩
      have hopen : isOpen (coordinateFromLinear (linearFromCoordinate v)) = true := by
        rw [coordinate_linear hjoins.1]
        exact hjoins.2.1
      exact (hall _ (linear_lt hjoins.1) hopen).resolve_right not_mem_nil
  | cons seed rest ih =>
    have hrest : ∀ l ∈ rest, l<voxelCount := fun l hl=>hseeds l (.tail _ hl)
    have hseed : seed<voxelCount := hseeds seed (.head _)
    unfold connectFrom
    by_cases hskip : seed ∈ visited ∨ isOpen (coordinateFromLinear seed) = false
    · rw [if_pos hskip]
      refine ih h hrest fun l hl hopen=>?_
      rcases hall l hl hopen with hvisited | hmem
      · exact .inl hvisited
      · rcases mem_cons.1 hmem with rfl | hmem
        · exact .inl (hskip.resolve_right (by rw [hopen]; decide))
        · exact .inr hmem
    · rw [if_neg hskip]
      rw [not_or,Bool.not_eq_false] at hskip
      obtain ⟨hnew,hopen⟩ := hskip
      have hself : Joins isOpen (coordinateFromLinear seed) (coordinateFromLinear seed) :=
        ⟨inside_coordinate hseed,hopen,.refl⟩
      have hwalking : Walking isOpen visited seed (insert seed visited) [seed] ∅ :=
        { old_le := Finset.subset_insert _ _
          lt := fun l hl=>by
            rcases Finset.mem_insert.1 hl with rfl | hl
            · exact hseed
            · exact h.lt l hl
          joined := fun l hl hold=>by
            rcases Finset.mem_insert.1 hl with rfl | hl
            · exact hself
            · exact absurd hl hold
          stack_mem := fun l hl=>by
            rw [mem_singleton] at hl
            subst hl
            exact ⟨Finset.mem_insert_self _ _,hnew⟩
          nodup := nodup_singleton _
          touched_by := fun face hface=>absurd hface (Finset.notMem_empty _)
          left := fun l hl hold=>by
            rcases Finset.mem_insert.1 hl with rfl | hl
            · exact .inl (mem_singleton_self _)
            · exact absurd hl hold }
      have hnone : ∀ l ∈ ([] : List ℕ), l ∈ visited := fun l hl=>absurd hl not_mem_nil
      obtain ⟨-,hcard⟩ := stack_lt h.lt hnone nodup_nil hseed hnew
      have hinsert := Finset.card_insert_of_notMem hnew
      obtain ⟨visited',touched,hrun,hby,hend⟩ := walk_spec voxelCount hwalking
        (by rw [hinsert,length_singleton]; omega) (by rw [hinsert]; omega)
      rw [hrun,Option.bind_some]
      by_cases huniv : touched=Finset.univ
      · rw [if_pos huniv]
        refine ⟨.all,rfl,fun entry exit=>iff_of_true (Finset.mem_univ _) ?_⟩
        obtain ⟨v,hv,hentry⟩ := hby entry (huniv ▸ Finset.mem_univ _)
        obtain ⟨w,hw,hexit⟩ := hby exit (huniv ▸ Finset.mem_univ _)
        exact ⟨v,w,hv.symm.trans hw,hentry,hexit⟩
      · rw [if_neg huniv]
        obtain ⟨hwalked,hsub⟩ := hend huniv
        have hin : seed ∈ visited' := hsub (Finset.mem_insert_self _ _)
        have hcomponent := fun {v}=>hwalked.component (v := v) hin hnew hseed h.closed
        have hnext : Connecting isOpen visited' (connectivity.connectTouchedFaces touched) := by
          refine ⟨hwalked.lt,fun l hl w hw=>?_,fun entry exit=>?_⟩
          · by_cases hold : l ∈ visited
            · exact hwalked.old_le (h.closed l hold w hw)
            · exact ((hwalked.left l hl hold).resolve_left not_mem_nil).1 w hw
          · change (entry,exit) ∈ connectivity.connected ∪ touched ×ˢ touched ↔ _
            rw [Finset.mem_union,h.connected,Finset.mem_product]
            constructor
            · rintro (⟨v,w,hv,hjoins,hentry,hexit⟩ | ⟨hentry,hexit⟩)
              · exact ⟨v,w,hwalked.old_le hv,hjoins,hentry,hexit⟩
              · obtain ⟨v,hv,hentry⟩ := hby entry hentry
                obtain ⟨w,hw,hexit⟩ := hby exit hexit
                exact ⟨v,w,(hcomponent hv).1,hv.symm.trans hw,hentry,hexit⟩
            · rintro ⟨v,w,hv,hjoins,hentry,hexit⟩
              by_cases hold : linearFromCoordinate v ∈ visited
              · exact .inl ⟨v,w,hold,hjoins,hentry,hexit⟩
              · have hseedv := hwalked.joined _ hv hold
                rw [coordinate_linear hjoins.1] at hseedv
                exact .inr ⟨(hcomponent hseedv).2.2 hentry, (hcomponent (hseedv.trans hjoins)).2.2 hexit⟩
        refine ih hnext hrest fun l hl hopen=>?_
        rcases hall l hl hopen with hvisited | hmem
        · exact .inl (hwalked.old_le hvisited)
        · rcases mem_cons.1 hmem with rfl | hmem
          · exact .inl hin
          · exact .inr hmem

/-- Two faces are connected exactly when a path of open voxels joins them; the stack never
outgrows the section. -/
lemma connectivityThrough_spec (isOpen : Voxel → Bool) :
    ∃ result, connectivityThrough isOpen=some result ∧ ∀ entry exit,
      (entry,exit) ∈ result.connected ↔ JoinsFaces isOpen entry exit := by
  refine connectFrom_spec ⟨fun l hl=>absurd hl (Finset.notMem_empty _),
    fun l hl=>absurd hl (Finset.notMem_empty _),fun entry exit=>?_⟩
    (fun l hl=>mem_range.1 hl) fun l hl _=>.inr (mem_range.2 hl)
  refine iff_of_false (Finset.notMem_empty _) ?_
  rintro ⟨v,w,hv,-⟩
  exact absurd hv (Finset.notMem_empty _)

lemma joins_first (hopen : ∀ v : Voxel, v.Inside → isOpen v=true) (n : ℕ) {v : Voxel}
    (hv : v.Inside) (hn : v.1+v.2.1+v.2.2=n) : Joins isOpen v (0,0,0) := by
  induction n generalizing v with
  | zero =>
    obtain ⟨x,y,z⟩ := v
    dsimp only at hn
    obtain ⟨rfl,rfl,rfl⟩ : x=0 ∧ y=0 ∧ z=0 := by omega
    exact ⟨hv,hopen _ hv,.refl⟩
  | succ n ih =>
    obtain ⟨w,hadjacent,hw⟩ : ∃ w : Voxel, v.SixAdjacent w ∧ w.1+w.2.1+w.2.2=n := by
      obtain ⟨x,y,z⟩ := v
      have hinside := hv
      obtain ⟨hx,hy,hz⟩ := hinside
      dsimp only at hn hx hy hz
      by_cases hx0 : 0<x
      · refine ⟨(x-1,y,z),(sixAdjacent_iff hv).2 ⟨⟨?_,hy,hz⟩, .inl ⟨.inl ?_,rfl,rfl⟩⟩,?_⟩ <;> dsimp only <;> omega
      · by_cases hy0 : 0<y
        · refine ⟨(x,y-1,z),(sixAdjacent_iff hv).2 ⟨⟨hx,?_,hz⟩,
            .inr (.inl ⟨.inl ?_,rfl,rfl⟩)⟩,?_⟩ <;> dsimp only <;> omega
        · refine ⟨(x,y,z-1),(sixAdjacent_iff hv).2 ⟨⟨hx,hy,?_⟩,
            .inr (.inr ⟨.inl ?_,rfl,rfl⟩)⟩,?_⟩ <;> dsimp only <;> omega
    have hinside := hadjacent.inside hv
    exact ⟨hv,hopen v hv,.head ⟨hadjacent,hopen w hinside⟩ (ih hinside hw).2.2⟩

lemma exists_touching (face : Face) : ∃ v : Voxel, v.Inside ∧ face ∈ touchedFaces v := by
  cases face with
  | negativeX | negativeY | negativeZ =>
    exact ⟨(0,0,0),⟨by decide,by decide,by decide⟩,by decide⟩
  | positiveX | positiveY | positiveZ =>
    exact ⟨(15,15,15),⟨by decide,by decide,by decide⟩,by decide⟩

lemma joinsFaces_of_open (hopen : ∀ v : Voxel, v.Inside → isOpen v=true) (entry exit : Face) :
    JoinsFaces isOpen entry exit := by
  obtain ⟨v,hv,hentry⟩ := exists_touching entry
  obtain ⟨w,hw,hexit⟩ := exists_touching exit
  exact ⟨v,w,(joins_first hopen _ hv rfl).trans (joins_first hopen _ hw rfl).symm,hentry,hexit⟩

lemma not_joinsFaces_of_closed (hclosed : ∀ v : Voxel, v.Inside → isOpen v=false)
    (entry exit : Face) : ¬ JoinsFaces isOpen entry exit := by
  rintro ⟨v,w,⟨hv,hopen,-⟩,-⟩
  rw [hclosed v hv] at hopen
  cases hopen

variable {isOpen' : Voxel → Bool}

/-- A path only asks about the section's voxels. -/
lemma Joins.congr (heq : ∀ v : Voxel, v.Inside → isOpen v=isOpen' v)
    {v w : Voxel} (h : Joins isOpen v w) : Joins isOpen' v w := by
  obtain ⟨hv,hopen,hpath⟩ := h
  induction hpath with
  | refl => exact ⟨hv,heq v hv ▸ hopen,.refl⟩
  | @tail u w hpath hstep ih =>
    have hu := Joins.target ⟨hv,hopen,hpath⟩
    exact ih.tail ⟨hstep.1,heq w (hstep.1.inside hu.1) ▸ hstep.2⟩

lemma joinsFaces_congr (heq : ∀ v : Voxel, v.Inside → isOpen v=isOpen' v) :
    JoinsFaces isOpen entry exit ↔ JoinsFaces isOpen' entry exit := by
  constructor
  · rintro ⟨v,w,hjoins,htouched⟩
    exact ⟨v,w,hjoins.congr heq,htouched⟩
  · rintro ⟨v,w,hjoins,htouched⟩
    exact ⟨v,w,hjoins.congr fun u hu=>(heq u hu).symm,htouched⟩

end Section

end Cinnabar.Meshing
