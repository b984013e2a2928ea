import Cinnabar.Culling.GridLen
import Cinnabar.Culling.Runs
import Cinnabar.Library.Transducer

/-! # The grid is a finite map

`gridTransducer` runs a session's grid and `mapTransducer` a plain finite map.
-/

namespace Cinnabar.Culling

open ConnectivityGrid Function Finset

inductive GridOp where
  | insert (key : SectionKey) (value : FaceConnectivity) (order : VisitOrder)
  | remove (key : SectionKey)
  | retain (keep : SectionKey → Bool) (order : VisitOrder)
  | reserveView (radius height : ℕ) (order : VisitOrder)
  /-- `std::mem::take`: a default grid takes its place, numbered past those made elsewhere. -/
  | clear (elsewhere : ℕ)

/-- A session's grid, and the number the next default grid gets. -/
structure GridHost where
  grid : ConnectivityGrid
  nextGridId : ℕ

namespace GridHost

def new (number : ℕ) : GridHost := ⟨ConnectivityGrid.new number,number+1⟩

def step (host : GridHost) : GridOp → Option FaceConnectivity × GridHost
  | .insert key value order =>
    let out := host.grid.insert key value order
    (out.1,{ host with grid := out.2 })
  | .remove key =>
    let out := host.grid.remove key
    (out.1,{ host with grid := out.2 })
  | .retain keep order => (none,{ host with grid := host.grid.retain keep order })
  | .reserveView radius height order =>
    (none,{ host with grid := host.grid.reserveView radius height order })
  | .clear elsewhere => (none,new (host.nextGridId+elsewhere))

end GridHost

def gridTransducer : Transducer GridOp (Option FaceConnectivity) GridHost := ⟨GridHost.step⟩

/-- The operations on a plain finite map. -/
def mapStep (map : Connectivity) : GridOp → Option FaceConnectivity × Connectivity
  | .insert key value _ => (map.lookup key,map.insert key value)
  | .remove key => (map.lookup key,map.erase key)
  | .retain keep order => (none,Op.edit map (.retain keep order))
  | .reserveView _ _ _ => (none,map)
  | .clear _ => (none,∅)

def mapTransducer : Transducer GridOp (Option FaceConnectivity) Connectivity := ⟨mapStep⟩

variable {grid grid' grid'' : ConnectivityGrid} {map : Connectivity}

structure Stands (grid : ConnectivityGrid) (map : Connectivity) : Prop where
  sound : grid.Sound
  lookup : ∀ key, grid.slots.get key=map.lookup key
  len : grid.len=map.keys.card

lemma stands_new (number : ℕ) : Stands (ConnectivityGrid.new number) ∅ where
  sound := sound_new number
  lookup := (sound_new number).get_fresh rfl
  len := rfl

lemma card_insert (map : Connectivity) (key : SectionKey) (value : FaceConnectivity) :
    (map.insert key value).keys.card =
      map.keys.card + if (map.lookup key).isSome then 0 else 1 := by
  have hkeys : (map.insert key value).keys=insert key map.keys := by
    ext other
    rw [mem_insert,Finmap.mem_keys,Finmap.mem_keys,Finmap.mem_insert]
  rw [hkeys,card_insert_eq_ite]
  simp only [Finmap.mem_keys,Finmap.lookup_isSome]
  split_ifs <;> rfl

lemma card_erase (map : Connectivity) (key : SectionKey) :
    (map.erase key).keys.card=map.keys.card - if (map.lookup key).isSome then 1 else 0 := by
  rw [Finmap.keys_erase,card_erase_eq_ite]
  simp only [Finmap.mem_keys,Finmap.lookup_isSome]
  split_ifs <;> rfl

section

variable (h : Stands grid map)
include h

lemma Stands.insert (key : SectionKey) (value : FaceConnectivity)
    (order : VisitOrder) : (grid.insert key value order).1=map.lookup key ∧
      Stands (grid.insert key value order).2 (map.insert key value) := by
  have hedit := h.sound.insert key value order
  obtain ⟨hanswer,hlen⟩ := h.sound.insert_answer key value order
  rw [h.lookup] at hanswer hlen
  refine ⟨hanswer,hedit.sound,fun other=>?_,?_⟩
  · rw [hedit.get]
    split_ifs with hk
    · rw [hk,Finmap.lookup_insert]
    · rw [Finmap.lookup_insert_of_ne _ hk,h.lookup]
  · rw [hlen,h.len,card_insert]

lemma Stands.remove (key : SectionKey) :
    (grid.remove key).1=map.lookup key ∧ Stands (grid.remove key).2 (map.erase key) := by
  have hedit := h.sound.remove key
  obtain ⟨hanswer,hlen⟩ := h.sound.remove_answer key
  rw [h.lookup] at hanswer hlen
  refine ⟨hanswer,hedit.sound,fun other=>?_,?_⟩
  · rw [hedit.get]
    split_ifs with hk
    · rw [hk,Finmap.lookup_erase]
    · rw [Finmap.lookup_erase_ne hk,h.lookup]
  · rw [hlen,h.len,card_erase]

lemma Stands.retain (keep : SectionKey → Bool) (order : VisitOrder) :
    Stands (grid.retain keep order) (Op.edit map (.retain keep order)) := by
  have hedit := h.sound.retain keep order
  refine ⟨hedit.sound,fun key=>?_,?_⟩
  · rw [hedit.get,lookup_retain,h.lookup]
  · cases halloc : grid.allocated with
    | false =>
      rw [h.sound.retain_fresh halloc keep order]
      refine (card_eq_zero.2 (eq_empty_of_forall_notMem fun key hkey=>?_)).symm
      rw [Finmap.mem_keys,← Finmap.lookup_isSome,lookup_retain,← h.lookup, h.sound.get_fresh halloc,ite_self] at hkey
      cases hkey
    | true =>
      obtain ⟨hswept,-,hget⟩ := h.sound.sweep halloc keep order
      rw [retain_eq,len_rehomeAll,len_sweep]
      refine card_of_keys hswept.ok (mem_keys hswept order) fun key=>?_
      rw [hget,lookup_retain,h.lookup]

lemma Stands.reserveView (radius height : ℕ) (order : VisitOrder) :
    Stands (grid.reserveView radius height order) map where
  sound := (h.sound.reserveView radius height order).sound
  lookup := fun key=>((h.sound.reserveView radius height order).get key).trans (h.lookup key)
  len := (len_reserveView grid radius height order).trans h.len

end

lemma gridTransducer_simulates :
    Transducer.Simulates (fun host map=>Stands host.grid map) gridTransducer mapTransducer := by
  intro host map op h
  cases op with
  | insert key value order => exact h.insert key value order
  | remove key => exact h.remove key
  | retain keep order => exact ⟨rfl,h.retain keep order⟩
  | reserveView radius height order => exact ⟨rfl,h.reserveView radius height order⟩
  | clear elsewhere => exact ⟨rfl,stands_new _⟩

structure Later (host host' : GridHost) : Prop where
  sound : host'.grid.Sound
  numbered : host'.grid.identity≤host'.nextGridId
  recorded : (host'.grid.identity=host.grid.identity ∧
      (ConnectivityGrid.Journaled host.grid host'.grid ∨ host.grid.epoch<host'.grid.epoch)) ∨
    host.grid.identity<host'.grid.identity

lemma Later.refl {host : GridHost} (hs : host.grid.Sound) (hn : host.grid.identity≤host.nextGridId) : Later host host :=
  ⟨hs,hn,.inl ⟨rfl,.inl (.refl _)⟩⟩

lemma Later.edit {host host' : GridHost} (h : Later host host') {grid : ConnectivityGrid}
    {graph : Graph} (hedit : ConnectivityGrid.Edits host'.grid grid graph) :
    Later host { host' with grid := grid } := by
  refine ⟨hedit.sound,hedit.identity.le.trans h.numbered,?_⟩
  rcases h.recorded with ⟨hid,hjournaled | hepoch⟩ | hother
  · refine .inl ⟨hedit.identity.trans hid,?_⟩
    rcases hedit.recorded with hmore | hlater
    · exact .inl (hjournaled.trans hmore)
    · exact .inr (hjournaled.epoch.symm.trans_lt hlater)
  · refine .inl ⟨hedit.identity.trans hid,.inr ?_⟩
    rcases hedit.recorded with hmore | hlater
    · exact hepoch.trans_eq hmore.epoch.symm
    · exact hepoch.trans hlater
  · exact .inr (hother.trans_eq hedit.identity.symm)

lemma Later.step {host host' : GridHost} (h : Later host host') (op : GridOp) : Later host (host'.step op).2 := by
  cases op with
  | insert key value order => exact h.edit (h.sound.insert key value order)
  | remove key => exact h.edit (h.sound.remove key)
  | retain keep order => exact h.edit (h.sound.retain keep order)
  | reserveView radius height order => exact h.edit (h.sound.reserveView radius height order)
  | clear elsewhere =>
    refine ⟨sound_new _,le_refl _,.inr ?_⟩
    have hle : host.grid.identity≤host'.grid.identity := by
      rcases h.recorded with ⟨hid,-⟩ | hlt
      · exact hid.symm.le
      · exact hlt.le
    have hnumbered := h.numbered
    change host.grid.identity<host'.nextGridId+elsewhere+1
    omega

lemma Later.run {host : GridHost} (hs : host.grid.Sound) (hn : host.grid.identity≤host.nextGridId) (ops : List GridOp) :
    Later host (gridTransducer.run host ops).2 :=
  gridTransducer.run_keeps (fun _ op h=>h.step op) (Later.refl hs hn) ops

/-- A position the journal still retains replays to the current slots. -/
lemma Later.replays {host host' : GridHost} (h : Later host host')
    (hid : host'.grid.identity=host.grid.identity) (hepoch : host'.grid.epoch=host.grid.epoch)
    (hretained : host'.grid.retainsChanges host.grid.journal.finish=true) :
    Replays (host'.grid.changesSince host.grid.journal.finish) host.grid.slots
      host'.grid.slots := by
  rcases h.recorded with ⟨-,hjournaled | hlater⟩ | hother
  · obtain ⟨changes,hjournal,hreplays⟩ := hjournaled.replays
    obtain ⟨-,-,hdrop⟩ := ChangeJournal.records changes host.grid.journal
    have hstart : host'.grid.journal.start≤host.grid.journal.finish := by
      unfold retainsChanges at hretained
      rw [Bool.and_eq_true,decide_eq_true_eq] at hretained
      exact hretained.1
    unfold changesSince
    rw [hjournal] at hstart ⊢
    rw [hdrop _ hstart (le_refl _)]
    have hnothing : host.grid.journal.changes.drop (host.grid.journal.finish-host.grid.journal.start) = [] := by
      refine List.drop_eq_nil_of_le ?_
      unfold ChangeJournal.finish
      omega
    rw [hnothing]
    exact hreplays
  · exact absurd hepoch hlater.ne'
  · exact absurd hid hother.ne'

def replayed (current copy : Graph) : GraphChange → Graph
  | .opened key => update copy key (current key)
  | .narrowed => copy
  | .removed key _ => update copy key none
  | .promoted _ _ => copy

/-- The same key, or a matrix that has lost connections since. -/
def Covers (old new : Option FaceConnectivity) : Prop :=
  match old, new with
  | none, none => True
  | some old, some new => new.connected ⊆ old.connected
  | _, _ => False

lemma Covers.refl (value : Option FaceConnectivity) : Covers value value := by
  cases value with
  | none => trivial
  | some value => exact Finset.Subset.refl value.connected

/-- A copy that agrees with the slots, up to a relation narrowing respects, or is already current
agrees with the slots the entries lead to. -/
lemma Replays.replayed {R : Option FaceConnectivity → Option FaceConnectivity → Prop}
    (hrefl : ∀ value, R value value) {changes : List GraphChange} {s s' : Slots}
    (h : Replays changes s s') (hs : s.Ok)
    (hnarrow : .narrowed ∈ changes → ∀ {copy : Option FaceConnectivity}
      {old value : FaceConnectivity}, R copy (some old) → value.connected ⊆ old.connected → R copy (some value))
    (copy : Graph) (hcopy : ∀ key, copy key=s'.get key ∨ R (copy key) (s.get key))
    (key : SectionKey) : R (changes.foldl (replayed s'.get) copy key) (s'.get key) := by
  induction h generalizing copy with
  | nil s =>
    rcases hcopy key with heq | hkey
    · change R (copy key) _
      rw [heq]
      exact hrefl _
    · exact hkey
  | @cons change changes s s₁ s' hchange hrest ih =>
    refine ih (hchange.ok hs).1 (fun hin=>hnarrow (.tail _ hin)) _ fun other=>?_
    have hopened : ∀ {key : SectionKey} (value : FaceConnectivity), update copy key (s'.get key) other=s'.get other ∨
          R (update copy key (s'.get key) other) ((s.put key value).get other) := by
      intro key value
      by_cases hk : other=key
      · subst hk
        rw [update_self]
        exact .inl rfl
      · rw [update_of_ne hk,(hs.put key value).2,if_neg hk]
        exact hcopy other
    have hremoved : ∀ {key : SectionKey} {s₁ : Slots},
        (∀ other, s₁.get other = if other=key then none else s.get other) →
        update copy key none other=s'.get other ∨
          R (update copy key none other) (s₁.get other) := by
      intro key s₁ hget
      by_cases hk : other=key
      · rw [hget,if_pos hk,hk,update_self]
        exact .inr (hrefl none)
      · rw [update_of_ne hk,hget,if_neg hk]
        exact hcopy other
    cases hchange with
    | joined value hold => exact hopened value
    | gained value hold hsub => exact hopened value
    | @narrowed _ key old value hold hsub =>
      refine (hcopy other).imp id fun hother=>?_
      rw [(hs.put key value).2]
      split_ifs with hk
      · rw [hk,hold] at hother
        rw [hk]
        exact hnarrow (.head _) hother hsub
      · exact hother
    | removedCell hin => exact hremoved (hs.removeCell hin).2
    | removedOverflow hover => exact hremoved (hs.removeOverflow hover).2
    | promoted hover hcell =>
      refine (hcopy other).imp id fun hother=>?_
      rw [(hs.promote hover hcell).2]
      exact hother

structure Shows (grid : ConnectivityGrid) (map : Connectivity) : Prop where
  get : ∀ key, grid.get key=map.lookup key
  containsKey : ∀ key, grid.containsKey key=true ↔ key ∈ map
  len : grid.len=map.keys.card
  /-- Every key is stored once. -/
  nodup : ∀ order, (grid.keys order).Nodup
  keys : ∀ order key, key ∈ grid.keys order ↔ key ∈ map
  /-- An empty home cell is a definite miss. -/
  miss : ∀ key, grid.cells (grid.index key) = none → key ∉ map

lemma Stands.shows (h : Stands grid map) : Shows grid map where
  get := fun key=>(h.sound.get_eq key).trans (h.lookup key)
  containsKey := fun key=>by
    rw [h.sound.containsKey_iff,h.lookup,Finmap.lookup_isSome]
  len := h.len
  nodup := keys_nodup h.sound.ok
  keys := fun order key=>by
    rw [mem_keys h.sound.toPartial,h.lookup,Finmap.lookup_isSome]
  miss := fun key hcell hin=>by
    rw [← Finmap.lookup_isSome,← h.lookup,Slots.get_none (s := grid.slots) hcell] at hin
    have hcrowded := h.sound.crowded key hin
    rw [hcell] at hcrowded
    cases hcrowded

/-- What the journal since a copy was taken is worth to a reader that can ask for the current
matrices. -/
structure Follows (copy grid : ConnectivityGrid) : Prop where
  /-- Each entry is one change of the slots, in order. -/
  replays : Replays (grid.changesSince copy.journal.finish) copy.slots grid.slots
  /-- The keys are current, and a matrix that is not has only lost connections. -/
  covers : ∀ key, Covers ((grid.changesSince copy.journal.finish).foldl (replayed grid.get) copy.get key) (grid.get key)
  /-- Unless a matrix narrowed, the whole map is current. -/
  current : .narrowed ∉ grid.changesSince copy.journal.finish →
    (grid.changesSince copy.journal.finish).foldl (replayed grid.get) copy.get=grid.get

lemma Later.follows {host host' : GridHost} (h : Later host host') (hs : host.grid.Sound)
    (hid : host'.grid.identity=host.grid.identity) (hepoch : host'.grid.epoch=host.grid.epoch)
    (hretained : host'.grid.retainsChanges host.grid.journal.finish=true) :
    Follows host.grid host'.grid := by
  have hreplays := h.replays hid hepoch hretained
  have hget : host'.grid.get=host'.grid.slots.get := funext h.sound.get_eq
  have hcopy : host.grid.get=host.grid.slots.get := funext hs.get_eq
  refine ⟨hreplays,fun key=>?_,fun hnarrow=>funext fun key=>?_⟩ <;> rw [hget,hcopy]
  · refine hreplays.replayed Covers.refl hs.ok (fun _ copy old value hcopy hsub=>?_) _
      (fun other=>.inr (Covers.refl _)) key
    cases copy with
    | none => exact hcopy
    | some copy => exact hsub.trans hcopy
  · exact hreplays.replayed (fun _=>rfl) hs.ok (fun hin=>absurd hin hnarrow) _ (fun other=>.inr rfl) key

/-- Every history of a session's grid answers as a plain finite map does and leaves the grid
showing that map.  The journal since any copy it still retains gives back the current keys, with
each matrix the copy has left too wide at worst, and the current map where none narrowed. -/
theorem grid_is_finite_map (number : ℕ) (earlier later : List GridOp) :
    let copy := (gridTransducer.run (.new number) earlier).2.grid
    let out := gridTransducer.run (.new number) (earlier ++ later)
    let spec := mapTransducer.run ∅ (earlier ++ later)
    out.1 = spec.1 ∧ Shows out.2.grid spec.2 ∧ (out.2.grid.identity=copy.identity → out.2.grid.epoch=copy.epoch →
        out.2.grid.retainsChanges copy.journal.finish = true → Follows copy out.2.grid) := by
  obtain ⟨hanswers,hstands⟩ :=
    gridTransducer_simulates.run (s := GridHost.new number) (stands_new number) (earlier ++ later)
  refine ⟨hanswers,hstands.shows,?_⟩
  rw [Transducer.run_append]
  have hcopy : Later (.new number) (gridTransducer.run (.new number) earlier).2 :=
    .run (sound_new number) (le_refl _) earlier
  exact (Later.run hcopy.sound hcopy.numbered later).follows hcopy.sound

private lemma representable_origin : (⟨0,0,0,0⟩ : SubChunkKey).Representable := by decide

private def sectionAtOrigin : SectionKey := ⟨⟨0,0,0,0⟩,representable_origin⟩

private def joining (face : Face) : FaceConnectivity := ⟨{(face,face)}⟩

private noncomputable def anyOrder : VisitOrder :=
  ⟨Finset.toList,Finset.nodup_toList,fun _ _=>mem_toList⟩

private noncomputable def widened : List GridOp :=
  [.insert sectionAtOrigin ⟨{(.negativeX,.negativeX), (.positiveX,.positiveX)}⟩ anyOrder]

/-- Two matrices narrowed from one leave the same entry. -/
theorem journal_forgets_narrowing : ¬∃ replay : List GraphChange → Graph → Graph, ∀ number earlier later,
      let copy := (gridTransducer.run (.new number) earlier).2.grid
      let grid := (gridTransducer.run (.new number) (earlier ++ later)).2.grid
      grid.identity = copy.identity → grid.epoch=copy.epoch → grid.retainsChanges copy.journal.finish = true →
          replay (grid.changesSince copy.journal.finish) copy.get = grid.get := by
  rintro ⟨replay,hreplay⟩
  have hleft := hreplay 0 widened [.insert sectionAtOrigin (joining .negativeX) anyOrder]
    rfl rfl rfl
  have hright := hreplay 0 widened [.insert sectionAtOrigin (joining .positiveX) anyOrder]
    rfl rfl rfl
  have hsame := congrFun (hleft.symm.trans hright) sectionAtOrigin
  exact absurd hsame (by decide)

end Cinnabar.Culling
