import Cinnabar.Culling.Scratch
import Cinnabar.Culling.GridEdits

/-! # The traversal's node numbers -/

namespace Cinnabar.Culling

open Function (update update_apply update_eq_self update_of_ne update_self)
open Option

namespace ConnectivityGrid

variable {grid : ConnectivityGrid}

def SlotSays (grid : ConnectivityGrid) (key : SectionKey) : Slot → Prop
  | .cell index value => index=grid.index key ∧ grid.cells index=some ⟨key,value⟩
  | .overflow value => ¬grid.slots.InCell key ∧ grid.overflow.lookup key=some value
  | .missing => ¬grid.slots.InCell key ∧ grid.overflow.lookup key=none

lemma Sound.slotSays (h : grid.Sound) (key : SectionKey) : grid.SlotSays key (grid.slot key) := by
  unfold slot
  cases halloc : grid.allocated with
  | false =>
    obtain ⟨hcells,hover⟩ := h.fresh halloc
    refine ⟨?_,by rw [hover]; rfl⟩
    rintro ⟨value,hvalue⟩
    change grid.cells _=_ at hvalue
    rw [hcells] at hvalue
    cases hvalue
  | true =>
    rw [if_neg (by decide)]
    cases hcell : grid.cells (grid.index key) with
    | none =>
      have hout : ¬grid.slots.InCell key := by
        rintro ⟨value,hvalue⟩
        change grid.cells (grid.index key) = _ at hvalue
        rw [hcell] at hvalue
        cases hvalue
      refine ⟨hout,?_⟩
      by_contra hsome
      have hcrowded := h.crowded key (isSome_iff_ne_none.2 hsome)
      rw [hcell] at hcrowded
      cases hcrowded
    | some cell =>
      dsimp only
      split_ifs with hk
      · refine ⟨rfl,?_⟩
        rw [hcell,← hk]
      · have hout : ¬grid.slots.InCell key := by
          rintro ⟨value,hvalue⟩
          change grid.cells (grid.index key) = _ at hvalue
          rw [hcell] at hvalue
          cases hvalue
          exact hk rfl
        cases hover : grid.overflow.lookup key with
        | none => exact ⟨hout,hover⟩
        | some value => exact ⟨hout,hover⟩

end ConnectivityGrid

namespace Slots

open Classical in
noncomputable def idOf (slots : Slots) (s : CaveVisibilityScratch) (key : SectionKey) : Option ℕ :=
  if slots.InCell key then some (slots.index key) else s.overflowIds key

noncomputable def stateOf (slots : Slots) (cells : ℕ) (s : CaveVisibilityScratch) (key : SectionKey) : NodeState :=
  (slots.idOf s key).bind (s.stateAt cells)

lemma idOf_inCell {slots : Slots} {s : CaveVisibilityScratch} {key : SectionKey}
    (h : slots.InCell key) : slots.idOf s key=some (slots.index key) := if_pos h

lemma idOf_not_inCell {slots : Slots} {s : CaveVisibilityScratch} {key : SectionKey}
    (h : ¬slots.InCell key) : slots.idOf s key=s.overflowIds key := if_neg h

end Slots

structure Numbered (cells : ℕ) (slots : Slots) (s : CaveVisibilityScratch) : Prop where
  ok : slots.Ok
  bound : ∀ {index cell}, slots.cells index=some cell → index < cells
  len : s.visitedLen=cells
  /-- Whichever key next takes an empty cell starts unreached. -/
  empty : ∀ {index}, slots.cells index=none → s.visited index=none
  /-- A full rebuild clears only touched cells. -/
  touched : ∀ {index}, s.visited index≠none → index ∈ s.touched
  ids : ∀ {key id}, s.overflowIds key=some id → (slots.overflow.lookup key).isSome ∧
      ∃ j value, id=cells+j ∧ s.overflowNodes[j]? = some (key,value)
  live : ∀ {j}, s.overflowVisited j≠none → ∃ key, s.overflowIds key=some (cells+j)

/-- The fields a traversal never writes. -/
structure Keeps (s s' : CaveVisibilityScratch) : Prop where
  camera : s'.camera=s.camera
  checkpoint : s'.checkpoint=s.checkpoint
  cameraPresent : s'.cameraPresent=s.cameraPresent
  outwardOnly : s'.outwardOnly=s.outwardOnly
  builtOutwardOnly : s'.builtOutwardOnly=s.builtOutwardOnly
  supersetUpdates : s'.supersetUpdates=s.supersetUpdates

lemma Keeps.refl (s : CaveVisibilityScratch) : Keeps s s := ⟨rfl,rfl,rfl,rfl,rfl,rfl⟩

lemma Keeps.trans {s s' s'' : CaveVisibilityScratch} (h : Keeps s s') (h' : Keeps s' s'') :
    Keeps s s'' :=
  ⟨h'.camera.trans h.camera,h'.checkpoint.trans h.checkpoint,
    h'.cameraPresent.trans h.cameraPresent,h'.outwardOnly.trans h.outwardOnly,
    h'.builtOutwardOnly.trans h.builtOutwardOnly,h'.supersetUpdates.trans h.supersetUpdates⟩

lemma Keeps.allowedExits {s s' : CaveVisibilityScratch} (h : Keeps s s') : s'.allowedExits=s.allowedExits := by
  unfold CaveVisibilityScratch.allowedExits
  rw [h.camera,h.builtOutwardOnly]

namespace Numbered

variable {cells : ℕ} {slots : Slots} {s : CaveVisibilityScratch}

section

variable (h : Numbered cells slots s)
include h

variable {key : SectionKey}

lemma idOf_none (hkey : slots.get key=none) : slots.idOf s key=none := by
  have hout : ¬slots.InCell key := by
    rintro ⟨value,hvalue⟩
    rw [Slots.get_of_inCell hvalue] at hkey
    cases hkey
  rw [Slots.idOf_not_inCell hout]
  rw [Slots.get_of_not_inCell hout] at hkey
  by_contra hsome
  obtain ⟨id,hid⟩ := ne_none_iff_exists'.1 hsome
  have hover := (h.ids hid).1
  rw [hkey] at hover
  cases hover

lemma stateOf_none (hkey : slots.get key=none) : slots.stateOf cells s key=none := by
  rw [Slots.stateOf,h.idOf_none hkey]
  rfl

lemma idOf_cases {node : ℕ} (hid : slots.idOf s key=some node) :
    (node < cells ∧ ∃ value, slots.cells node=some ⟨key,value⟩) ∨
      (∃ j value, node=cells+j ∧ s.overflowNodes[j]? = some (key,value) ∧
        s.overflowIds key=some node) := by
  by_cases hin : slots.InCell key
  · rw [Slots.idOf_inCell hin] at hid
    cases hid
    obtain ⟨value,hvalue⟩ := hin
    exact .inl ⟨h.bound hvalue,value,hvalue⟩
  · rw [Slots.idOf_not_inCell hin] at hid
    obtain ⟨-,j,value,hj,hnode⟩ := h.ids hid
    exact .inr ⟨j,value,hj,hnode,hid⟩

/-- No two keys share a number. -/
lemma idOf_inj {key other : SectionKey} {node : ℕ}
    (hkey : slots.idOf s key=some node) (hother : slots.idOf s other=some node) :
    key=other := by
  rcases h.idOf_cases hkey with ⟨hlt,v,hv⟩ | ⟨j,v,hj,hv,-⟩
  · rcases h.idOf_cases hother with ⟨-,v',hv'⟩ | ⟨j',v',hj',-,-⟩
    · rw [hv] at hv'
      cases hv'
      rfl
    · omega
  · rcases h.idOf_cases hother with ⟨hlt,-,-⟩ | ⟨j',v',hj',hv',-⟩
    · omega
    · have heq : j'=j := by omega
      subst heq
      rw [hv] at hv'
      cases hv'
      rfl

end

lemma describe_of_idOf {grid : ConnectivityGrid}
    (h : Numbered grid.cellCount grid.slots s) {key : SectionKey} {node : ℕ}
    (hid : grid.slots.idOf s key=some node) : (s.describe grid node).1=key := by
  unfold CaveVisibilityScratch.describe
  rcases h.idOf_cases hid with ⟨hlt,v,hv⟩ | ⟨j,v,rfl,hv,-⟩
  · rw [if_pos hlt]
    change grid.cells node=_ at hv
    rw [hv]
    rfl
  · rw [if_neg (by omega),Nat.add_sub_cancel_left,List.getD_eq_getElem?_getD,hv]
    rfl

end Numbered

lemma reachedState_eq {grid : ConnectivityGrid} (hgrid : grid.Sound) {s : CaveVisibilityScratch}
    (h : Numbered grid.cellCount grid.slots s) (key : SectionKey) :
    reachedState key grid s=grid.slots.stateOf grid.cellCount s key := by
  have hspec := hgrid.slotSays key
  unfold reachedState Slots.stateOf
  cases hslot : grid.slot key with
  | cell index value =>
    rw [hslot] at hspec
    obtain ⟨rfl,hcell⟩ := hspec
    rw [Slots.idOf_inCell ⟨value,hcell⟩]
    have hlt : grid.index key<grid.cellCount := h.bound hcell
    change _=s.stateAt grid.cellCount (grid.index key)
    rw [CaveVisibilityScratch.stateAt,if_pos hlt]
  | overflow value =>
    rw [hslot] at hspec
    rw [Slots.idOf_not_inCell hspec.1]
    cases hid : s.overflowIds key with
    | none => rfl
    | some id =>
      obtain ⟨-,j,v,rfl,-⟩ := h.ids hid
      change _=s.stateAt grid.cellCount (grid.cellCount+j)
      rw [CaveVisibilityScratch.stateAt,if_neg (by omega)]
      rfl
  | missing =>
    rw [hslot] at hspec
    have hget : grid.slots.get key=none := by
      rw [Slots.get_of_not_inCell hspec.1]
      exact hspec.2
    rw [h.idOf_none hget]
    rfl

namespace CaveVisibilityScratch

variable {cells node : ℕ} {s : CaveVisibilityScratch} (state : NodeState)

lemma stateAt_setState (other : ℕ) : (s.setState cells node state).stateAt cells other =
      if other=node then state else s.stateAt cells other := by
  unfold setState stateAt
  by_cases hnode : node < cells
  · rw [if_pos hnode]
    by_cases hother : other < cells
    · rw [if_pos hother,if_pos hother]
      exact update_apply _ _ _ _
    · rw [if_neg hother,if_neg hother,if_neg (by omega)]
  · rw [if_neg hnode]
    by_cases hother : other < cells
    · rw [if_pos hother,if_pos hother,if_neg (by omega)]
    · rw [if_neg hother,if_neg hother]
      change update _ _ _ _=_
      rw [update_apply]
      by_cases heq : other=node
      · rw [if_pos heq,if_pos (by rw [heq])]
      · rw [if_neg heq,if_neg (by omega)]

lemma setState_keeps : Keeps s (s.setState cells node state) := by
  unfold setState
  split_ifs <;> exact ⟨rfl,rfl,rfl,rfl,rfl,rfl⟩

lemma setState_overflow : (s.setState cells node state).overflowIds=s.overflowIds ∧
      (s.setState cells node state).overflowNodes=s.overflowNodes ∧
      (s.setState cells node state).visitedLen=s.visitedLen ∧
      (s.setState cells node state).addedVisible=s.addedVisible := by
  unfold setState
  split_ifs <;> exact ⟨rfl,rfl,rfl,rfl⟩

end CaveVisibilityScratch

/-- What `reach` does, key by key. -/
structure ReachSays (cells : ℕ) (slots : Slots) (s : CaveVisibilityScratch) (key : SectionKey)
    (node : ℕ) (exits : Finset Face) (s' : CaveVisibilityScratch) : Prop where
  numbered : Numbered cells slots s'
  keeps : Keeps s s'
  addedVisible : s'.addedVisible=s.addedVisible
  idOf : slots.idOf s'=slots.idOf s
  stateOf : ∀ other, slots.stateOf cells s' other = if other=key then some ((slots.stateOf cells s key).getD ∅ ∪ exits)
    else slots.stateOf cells s other
  stack : s'.stack = if (exits \ (slots.stateOf cells s key).getD ∅).Nonempty then
    (node,exits \ (slots.stateOf cells s key).getD ∅) :: s.stack else s.stack
  touched : s'.touched = if (slots.stateOf cells s key).isNone then s.touched ++ [node] else s.touched

variable {key : SectionKey}

lemma Numbered.reach {cells : ℕ} {slots : Slots} {s : CaveVisibilityScratch}
    (h : Numbered cells slots s) {node : ℕ} (exits : Finset Face)
    (hid : slots.idOf s key=some node) :
    ReachSays cells slots s key node exits (s.reach cells node exits) := by
  have hstate : slots.stateOf cells s key=s.stateAt cells node := by
    rw [Slots.stateOf,hid]
    rfl
  obtain ⟨hids,hnodes,hlen,hadded⟩ := @CaveVisibilityScratch.setState_overflow cells node s
    (some ((s.stateAt cells node).getD ∅ ∪ exits \ (s.stateAt cells node).getD ∅))
  have hunion : (s.stateAt cells node).getD ∅ ∪ exits \ (s.stateAt cells node).getD ∅ =
      (s.stateAt cells node).getD ∅ ∪ exits := Finset.union_sdiff_self_eq_union
  have hkeeps := @CaveVisibilityScratch.setState_keeps cells node s
    (some ((s.stateAt cells node).getD ∅ ∪ exits \ (s.stateAt cells node).getD ∅))
  have hidOf : slots.idOf (s.reach cells node exits) = slots.idOf s := by
    unfold Slots.idOf
    rw [show (s.reach cells node exits).overflowIds=s.overflowIds from hids]
  have hat : ∀ other, (s.reach cells node exits).stateAt cells other =
      if other=node then some ((s.stateAt cells node).getD ∅ ∪ exits)
      else s.stateAt cells other := by
    intro other
    rw [← hunion]
    exact CaveVisibilityScratch.stateAt_setState _ other
  have hvisited : (s.reach cells node exits).visited = if node < cells then
      update s.visited node (some ((s.stateAt cells node).getD ∅ ∪ exits))
      else s.visited := by
    unfold CaveVisibilityScratch.reach CaveVisibilityScratch.setState
    dsimp only
    rw [hunion]
    split_ifs <;> rfl
  have hoverflow : (s.reach cells node exits).overflowVisited = if node < cells then
      s.overflowVisited else update s.overflowVisited (node-cells)
        (some ((s.stateAt cells node).getD ∅ ∪ exits)) := by
    unfold CaveVisibilityScratch.reach CaveVisibilityScratch.setState
    dsimp only
    rw [hunion]
    split_ifs <;> rfl
  have htouched : (s.reach cells node exits).touched =
      if (s.stateAt cells node).isNone then s.touched ++ [node] else s.touched := rfl
  have hwhere := h.idOf_cases hid
  refine ⟨⟨h.ok,h.bound,hlen.trans h.len,?_,?_,?_,?_⟩,
    ⟨hkeeps.camera,hkeeps.checkpoint,hkeeps.cameraPresent,hkeeps.outwardOnly,
      hkeeps.builtOutwardOnly,hkeeps.supersetUpdates⟩,hadded,hidOf,?_,?_,?_⟩
  · intro index hcell
    rw [hvisited]
    split_ifs with hlt
    · rw [update_of_ne,h.empty hcell]
      rintro rfl
      rcases hwhere with ⟨-,v,hv⟩ | ⟨j,v,hj,-⟩
      · rw [hcell] at hv
        cases hv
      · omega
    · exact h.empty hcell
  · intro index hindex
    have hold : s.visited index≠none → index ∈ (s.reach cells node exits).touched := by
      intro hne
      rw [htouched]
      split_ifs
      · exact List.mem_append_left _ (h.touched hne)
      · exact h.touched hne
    rw [hvisited] at hindex
    split_ifs at hindex with hlt
    · by_cases heq : index=node
      · subst heq
        cases hnone : s.stateAt cells index with
        | none =>
          rw [htouched,hnone]
          exact List.mem_append_right _ (.head _)
        | some st =>
          refine hold ?_
          rw [CaveVisibilityScratch.stateAt,if_pos hlt] at hnone
          rw [hnone]
          exact some_ne_none st
      · rw [update_of_ne heq] at hindex
        exact hold hindex
    · exact hold hindex
  · intro other id hother
    rw [show (s.reach cells node exits).overflowNodes=s.overflowNodes from hnodes]
    rw [show (s.reach cells node exits).overflowIds=s.overflowIds from hids] at hother
    exact h.ids hother
  · intro j hj
    rw [show (s.reach cells node exits).overflowIds=s.overflowIds from hids]
    rw [hoverflow] at hj
    split_ifs at hj with hlt
    · exact h.live hj
    · by_cases heq : j=node-cells
      · rcases hwhere with ⟨hlt',-⟩ | ⟨j',v,hj',-,hover⟩
        · exact absurd hlt' hlt
        · refine ⟨key,?_⟩
          rw [hover]
          congr 1
          omega
      · rw [update_of_ne heq] at hj
        exact h.live hj
  · intro other
    unfold Slots.stateOf
    rw [hidOf]
    by_cases hk : other=key
    · rw [if_pos hk,hk,hid]
      change (s.reach cells node exits).stateAt cells node=some ((s.stateAt cells node).getD ∅ ∪ exits)
      rw [hat,if_pos rfl]
    · rw [if_neg hk]
      cases hoid : slots.idOf s other with
      | none => rfl
      | some id =>
        change (s.reach cells node exits).stateAt cells id=s.stateAt cells id
        rw [hat,if_neg]
        rintro rfl
        exact hk (h.idOf_inj hoid hid)
  · rw [hstate]
    rfl
  · rw [hstate]
    rfl

structure NodeSays (grid : ConnectivityGrid) (s : CaveVisibilityScratch) (key : SectionKey)
    (s' : CaveVisibilityScratch) : Prop where
  numbered : Numbered grid.cellCount grid.slots s'
  keeps : Keeps s s'
  addedVisible : s'.addedVisible=s.addedVisible
  stack : s'.stack=s.stack
  touched : s'.touched=s.touched
  /-- Numbers once given stay. -/
  idOf : ∀ {other id}, grid.slots.idOf s other=some id → grid.slots.idOf s' other=some id
  stateOf : grid.slots.stateOf grid.cellCount s'=grid.slots.stateOf grid.cellCount s

lemma NodeSays.self {grid : ConnectivityGrid} {s : CaveVisibilityScratch}
    (h : Numbered grid.cellCount grid.slots s) (key : SectionKey) : NodeSays grid s key s :=
  ⟨h,.refl s,rfl,rfl,rfl,id,rfl⟩

lemma Numbered.allocate {grid : ConnectivityGrid} {s : CaveVisibilityScratch}
    (h : Numbered grid.cellCount grid.slots s) (value : FaceConnectivity)
    (hin : ¬grid.slots.InCell key) (hover : (grid.overflow.lookup key).isSome)
    (hnew : s.overflowIds key=none) :
    NodeSays grid s key { s with
      overflowIds := update s.overflowIds key (some (grid.cellCount+s.overflowNodes.length))
      overflowNodes := s.overflowNodes ++ [(key,value)]
      overflowVisited := update s.overflowVisited s.overflowNodes.length none } := by
  have hidOf : ∀ {other id}, grid.slots.idOf s other=some id →
      grid.slots.idOf { s with
        overflowIds := update s.overflowIds key (some (grid.cellCount+s.overflowNodes.length))
        overflowNodes := s.overflowNodes ++ [(key,value)]
        overflowVisited := update s.overflowVisited s.overflowNodes.length none }
        other=some id := by
    intro other id hid
    by_cases hcell : grid.slots.InCell other
    · rw [Slots.idOf_inCell hcell] at hid ⊢
      exact hid
    · rw [Slots.idOf_not_inCell hcell] at hid ⊢
      change update s.overflowIds key _ other=some id
      rw [update_of_ne,hid]
      rintro rfl
      rw [hnew] at hid
      cases hid
  have hfresh : s.overflowVisited s.overflowNodes.length=none := by
    by_contra hne
    obtain ⟨other,hother⟩ := h.live hne
    obtain ⟨-,j,v,hj,hnode⟩ := h.ids hother
    have hlt := (List.getElem?_eq_some_iff.1 hnode).1
    omega
  have hvisited : update s.overflowVisited s.overflowNodes.length none =
      s.overflowVisited := by
    rw [← hfresh,update_eq_self]
  refine ⟨⟨h.ok,h.bound,h.len,h.empty,h.touched,?_,?_⟩,⟨rfl,rfl,rfl,rfl,rfl,rfl⟩,rfl, rfl,rfl,hidOf,?_⟩
  · intro other id hid
    change update s.overflowIds key _ other=some id at hid
    by_cases hk : other=key
    · subst hk
      rw [update_self] at hid
      cases hid
      exact ⟨hover,s.overflowNodes.length,value,rfl,by simp⟩
    · rw [update_of_ne hk] at hid
      obtain ⟨hsome,j,v,hj,hnode⟩ := h.ids hid
      have hlt := (List.getElem?_eq_some_iff.1 hnode).1
      refine ⟨hsome,j,v,hj,?_⟩
      rw [List.getElem?_append_left hlt,hnode]
  · intro j hj
    rw [hvisited] at hj
    obtain ⟨other,hother⟩ := h.live hj
    refine ⟨other,?_⟩
    change update s.overflowIds key _ other=_
    rw [update_of_ne,hother]
    rintro rfl
    rw [hnew] at hother
    cases hother
  · funext other
    have hstateAt : ∀ id, (({ s with
        overflowIds := update s.overflowIds key (some (grid.cellCount+s.overflowNodes.length))
        overflowNodes := s.overflowNodes ++ [(key,value)]
        overflowVisited := update s.overflowVisited s.overflowNodes.length none } :
        CaveVisibilityScratch)).stateAt grid.cellCount id=s.stateAt grid.cellCount id := by
      intro id
      unfold CaveVisibilityScratch.stateAt
      rw [hvisited]
    unfold Slots.stateOf
    cases hid : grid.slots.idOf s other with
    | some id =>
      rw [hidOf hid]
      exact hstateAt id
    | none =>
      by_cases hcell : grid.slots.InCell other
      · rw [Slots.idOf_inCell hcell] at hid
        cases hid
      · rw [Slots.idOf_not_inCell hcell] at hid ⊢
        change (update s.overflowIds key _ other).bind _=none
        by_cases hk : other=key
        · subst hk
          rw [update_self]
          change CaveVisibilityScratch.stateAt _ _ (grid.cellCount+s.overflowNodes.length) = none
          rw [hstateAt,CaveVisibilityScratch.stateAt,if_neg (by omega),Nat.add_sub_cancel_left, hfresh]
        · rw [update_of_ne hk,hid]
          rfl

/-- A node outside the graph has no number, and nothing changes. -/
lemma node_none {grid : ConnectivityGrid} (hgrid : grid.Sound) {s : CaveVisibilityScratch} (hkey : grid.slots.get key=none) : s.node grid key = (none,s) := by
  have hspec := hgrid.slotSays key
  unfold CaveVisibilityScratch.node
  cases hslot : grid.slot key with
  | cell index value =>
    rw [hslot] at hspec
    obtain ⟨rfl,hcell⟩ := hspec
    rw [Slots.get_of_inCell hcell] at hkey
    cases hkey
  | overflow value =>
    rw [hslot] at hspec
    rw [Slots.get_of_not_inCell hspec.1] at hkey
    exact absurd (hspec.2.symm.trans hkey) (by simp)
  | missing => rfl

lemma node_some {grid : ConnectivityGrid} (hgrid : grid.Sound) {s : CaveVisibilityScratch}
    (h : Numbered grid.cellCount grid.slots s) {value : FaceConnectivity}
    (hkey : grid.slots.get key=some value) :
    ∃ node, (s.node grid key).1=some (node,value) ∧ grid.slots.idOf (s.node grid key).2 key=some node ∧
      NodeSays grid s key (s.node grid key).2 := by
  have hspec := hgrid.slotSays key
  unfold CaveVisibilityScratch.node
  cases hslot : grid.slot key with
  | cell index v =>
    rw [hslot] at hspec
    obtain ⟨rfl,hcell⟩ := hspec
    rw [Slots.get_of_inCell hcell] at hkey
    cases hkey
    exact ⟨_,rfl,Slots.idOf_inCell ⟨value,hcell⟩,.self h key⟩
  | overflow v =>
    rw [hslot] at hspec
    obtain ⟨hin,hover⟩ := hspec
    rw [Slots.get_of_not_inCell hin] at hkey
    obtain rfl : v=value := Option.some.inj (hover.symm.trans hkey)
    dsimp only
    cases hid : s.overflowIds key with
    | none =>
      have hspec := h.allocate v hin (by rw [hover]; rfl) hid
      refine ⟨_,rfl,?_,?_⟩
      · rw [getD_none,if_pos rfl,Slots.idOf_not_inCell hin]
        exact update_self _ _ _
      · rw [getD_none,if_pos rfl]
        exact hspec
    | some id =>
      have hne : id≠grid.cellCount+s.overflowNodes.length := by
        obtain ⟨-,j,v',hj,hnode⟩ := h.ids hid
        have hlt := (List.getElem?_eq_some_iff.1 hnode).1
        omega
      refine ⟨_,rfl,?_,?_⟩
      · rw [getD_some,if_neg hne,Slots.idOf_not_inCell hin]
        exact hid
      · rw [getD_some,if_neg hne]
        exact .self h key
  | missing =>
    rw [hslot] at hspec
    rw [Slots.get_of_not_inCell hspec.1] at hkey
    exact absurd (hspec.2.symm.trans hkey) (by simp)

end Cinnabar.Culling
