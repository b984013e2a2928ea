import Cinnabar.Keys
import Cinnabar.Library.Closure

/-! # Faces, connectivity and what a camera reaches -/

namespace Cinnabar.Culling

/-- Axis-aligned face identifiers. -/
inductive Face where
  | negativeX | positiveX | negativeY | positiveY | negativeZ | positiveZ
deriving DecidableEq

namespace Face

/-- `Face::ALL` -/
def all : List Face := [negativeX,positiveX,negativeY,positiveY,negativeZ,positiveZ]

lemma mem_all (face : Face) : face ∈ all := by
  cases face <;> decide

instance : Fintype Face := ⟨all.toFinset,fun face=>List.mem_toFinset.2 (mem_all face)⟩

def opposite : Face → Face
  | negativeX => positiveX
  | positiveX => negativeX
  | negativeY => positiveY
  | positiveY => negativeY
  | negativeZ => positiveZ
  | positiveZ => negativeZ

@[simp] lemma opposite_opposite (face : Face) : face.opposite.opposite=face := by
  cases face <;> rfl

end Face

/-- A sub-chunk key with `i32` coordinates. -/
abbrev SectionKey := { key : SubChunkKey // key.Representable }

def stepped (key : SubChunkKey) : Face → SubChunkKey
  | .negativeX => { key with x := key.x-1 }
  | .positiveX => { key with x := key.x+1 }
  | .negativeY => { key with y := key.y-1 }
  | .positiveY => { key with y := key.y+1 }
  | .negativeZ => { key with z := key.z-1 }
  | .positiveZ => { key with z := key.z+1 }

/-- Steps to a face neighbour without overflowing world coordinates. -/
def adjacent (key : SectionKey) (face : Face) : Option SectionKey :=
  if h : (stepped key.1 face).Representable then some ⟨stepped key.1 face,h⟩ else none

lemma stepped_opposite (key : SubChunkKey) (face : Face) : stepped (stepped key face) face.opposite=key := by
  cases face <;> simp [stepped,Face.opposite]

lemma adjacent_eq_some {key next : SectionKey} {face : Face} :
    adjacent key face=some next ↔ next.1=stepped key.1 face := by
  unfold adjacent
  split_ifs with h
  · rw [Option.some.injEq,eq_comm,Subtype.ext_iff]
  · constructor
    · exact fun h=>nomatch h
    · intro hnext
      rw [← hnext] at h
      exact absurd next.2 h

/-- Stepping back. -/
lemma adjacent_comm {key next : SectionKey} {face : Face} (h : adjacent key face=some next) :
    adjacent next face.opposite=some key := by
  rw [adjacent_eq_some] at h ⊢
  rw [h,stepped_opposite]

/-- The 6x6 matrix of which faces a sub-chunk's air joins. -/
structure FaceConnectivity where
  connected : Finset (Face × Face)
deriving DecidableEq

namespace FaceConnectivity

/-- The faces the air entering through `entry` leaves by: the matrix row. -/
def row (value : FaceConnectivity) (entry : Face) : Finset Face :=
  Finset.univ.filter fun exit=>(entry,exit) ∈ value.connected

/-- The faces a sub-chunk's own air touches: the matrix diagonal. -/
def touchedFaces (value : FaceConnectivity) : Finset Face :=
  Finset.univ.filter fun face=>(face,face) ∈ value.connected

variable {value : FaceConnectivity}

@[simp] lemma mem_row {entry exit : Face} : exit ∈ value.row entry ↔ (entry,exit) ∈ value.connected := by simp [row]

@[simp] lemma mem_touchedFaces {face : Face} :
    face ∈ value.touchedFaces ↔ (face,face) ∈ value.connected := by simp [touchedFaces]

end FaceConnectivity

/-- Whether an exit of `key` leads away from, or level with, `camera`. -/
def outward (key camera : SubChunkKey) : Face → Bool
  | .negativeX => key.x ≤ camera.x
  | .positiveX => key.x≥camera.x
  | .negativeY => key.y ≤ camera.y
  | .positiveY => key.y≥camera.y
  | .negativeZ => key.z ≤ camera.z
  | .positiveZ => key.z≥camera.z

/-- Exits of the node at `key` that lead away from, or level with, the `camera` node on every
axis. -/
def outwardExits (key camera : SubChunkKey) : Finset Face :=
  Finset.univ.filter fun face=>outward key camera face

/-- The exits a rule lets the traversal leave a node through. -/
def ruleExits (outwardOnly : Bool) (camera key : SectionKey) : Finset Face :=
  if outwardOnly then outwardExits key.1 camera.1 else Finset.univ

abbrev Graph := SectionKey → Option FaceConnectivity

/-- What a traversal finds out: that a node is reached, and that it may be left by an exit. -/
inductive Fact where
  | reached (key : SectionKey)
  | exit (key : SectionKey) (face : Face)

inductive Seed (graph : Graph) (camera : SectionKey) : Fact → Prop where
  | reached {value : FaceConnectivity} : graph camera=some value → Seed graph camera (.reached camera)
  | exit {value : FaceConnectivity} {face : Face} : graph camera=some value →
      face ∈ value.touchedFaces → Seed graph camera (.exit camera face)

/-- Leaving a node enters its neighbour by the opposite face. -/
inductive Step (graph : Graph) (allowed : SectionKey → Finset Face) : Fact → Fact → Prop where
  | reached {key next : SectionKey} {face : Face} {value : FaceConnectivity} :
      adjacent key face=some next → graph next=some value →
      Step graph allowed (.exit key face) (.reached next)
  | exit {key next : SectionKey} {face leave : Face} {value : FaceConnectivity} :
      adjacent key face=some next → graph next=some value →
      leave ∈ value.row face.opposite → leave ∈ allowed next →
      Step graph allowed (.exit key face) (.exit next leave)

def Reaches (graph : Graph) (allowed : SectionKey → Finset Face) (camera : SectionKey) :
    Fact → Prop :=
  Closure (Seed graph camera) (Step graph allowed)

def Graph.Le (graph graph' : Graph) : Prop :=
  ∀ key value, graph key=some value → ∃ value', graph' key=some value' ∧ value.connected ⊆ value'.connected

variable {allowed : SectionKey → Finset Face}

lemma Reaches.mono {graph graph' : Graph} (h : graph.Le graph') {camera : SectionKey} {fact : Fact}
    (hr : Reaches graph allowed camera fact) : Reaches graph' allowed camera fact := by
  refine Closure.mono ?_ ?_ hr
  · rintro _ (hg | ⟨hg,hf⟩)
    · obtain ⟨value',hg',-⟩ := h _ _ hg
      exact .reached hg'
    · obtain ⟨value',hg',hsub⟩ := h _ _ hg
      rw [FaceConnectivity.mem_touchedFaces] at hf
      exact .exit hg' (FaceConnectivity.mem_touchedFaces.2 (hsub hf))
  · rintro _ _ (⟨hadj,hg⟩ | ⟨hadj,hg,hrow,hallow⟩)
    · obtain ⟨value',hg',-⟩ := h _ _ hg
      exact .reached hadj hg'
    · obtain ⟨value',hg',hsub⟩ := h _ _ hg
      rw [FaceConnectivity.mem_row] at hrow
      exact .exit hadj hg' (FaceConnectivity.mem_row.2 (hsub hrow)) hallow

lemma Reaches.mem_graph {graph : Graph} {camera key : SectionKey} (h : Reaches graph allowed camera (.reached key)) :
    ∃ value, graph key=some value := by
  obtain ⟨s,hs,hsx⟩ := h
  rcases Relation.ReflTransGen.cases_tail hsx with heq | ⟨_,-,hstep⟩
  · subst heq
    cases hs with
    | reached hg => exact ⟨_,hg⟩
  · cases hstep with
    | reached _ hg => exact ⟨_,hg⟩

/-- Nothing is reached unless the camera's node is loaded. -/
lemma Reaches.camera {graph : Graph} {camera : SectionKey}
    {fact : Fact} (h : Reaches graph allowed camera fact) : ∃ value, graph camera=some value := by
  obtain ⟨s,hs,-⟩ := h
  cases hs with
  | reached hg => exact ⟨_,hg⟩
  | exit hg _ => exact ⟨_,hg⟩

/-- What a rule shows: the nodes reached, with one loaded neighbour shell around them unless the
traversal only goes outward; everything when the camera's node is not loaded. -/
def Shown (graph : Graph) (outwardOnly : Bool) (camera key : SectionKey) : Prop :=
  (graph key).isSome ∧ ((graph camera=none) ∨ Reaches graph (ruleExits outwardOnly camera) camera (.reached key) ∨
      (outwardOnly=false ∧ ∃ node face, adjacent node face=some key ∧
        Reaches graph (ruleExits outwardOnly camera) camera (.reached node)))

end Cinnabar.Culling
