import Cinnabar.Meshing.DecodeVoxels

/-! # A decoded section answers as its packed lookups do -/

namespace Cinnabar.Meshing

open World List

section Table

variable {resolve : ℕ → ResolvedPaletteEntry} {storages : List PalettedStorage} {v w : Voxel}

def cellSurface (resolve : ℕ → ResolvedPaletteEntry) (storages : List PalettedStorage)
    (v : Voxel) : ResolvedPaletteEntry :=
  (resolveDirect resolve storages v).geometryEntry

def cellShelter (resolve : ℕ → ResolvedPaletteEntry) (storages : List PalettedStorage)
    (v : Voxel) : Bool :=
  cellShelters (storages.map (entryOf resolve v))

def cellModel (resolve : ℕ → ResolvedPaletteEntry) (storages : List PalettedStorage)
    (v : Voxel) : Bool :=
  ((resolveDirect resolve storages v).modelEntries.filterMap id).any isModelEntry

lemma resolveLayers_congr (h : ∀ s ∈ storages, runtimeIdAt s v=runtimeIdAt s w) (contributors : ResolvedContributors) :
    resolveLayers resolve v storages contributors =
      resolveLayers resolve w storages contributors := by
  induction storages generalizing contributors with
  | nil => rfl
  | cons s rest ih =>
    have hrest := ih fun s hs=>h s (.tail _ hs)
    rw [resolveLayers,resolveLayers,h s (.head _)]
    cases runtimeIdAt s w with
    | none => rfl
    | some networkValue => exact hrest _

/-- Cells with the same index in every layer resolve alike. -/
lemma resolveDirect_congr (resolve : ℕ → ResolvedPaletteEntry) (hv : v.Inside) (hw : w.Inside)
    (h : ∀ s ∈ storages, s.paletteIndex (linearFromCoordinate v) = s.paletteIndex (linearFromCoordinate w)) :
    resolveDirect resolve storages v=resolveDirect resolve storages w ∧
      storages.map (entryOf resolve v) = storages.map (entryOf resolve w) := by
  have hvalue : ∀ s ∈ storages, runtimeIdAt s v=runtimeIdAt s w := by
    intro s hs
    rw [runtimeIdAt_eq s hv,runtimeIdAt_eq s hw,h s hs]
  rw [PaletteFacts.resolveDirect_inside hv,PaletteFacts.resolveDirect_inside hw]
  refine ⟨resolveLayers_congr hvalue {},map_congr_left fun s hs=>?_⟩
  rw [entryOf,entryOf,hvalue s hs]

/-- The tables after the first voxels: `cells` are the voxels their answers were looked up at. -/
structure Answered (resolve : ℕ → ResolvedPaletteEntry) (storages : List PalettedStorage)
    (key : ℕ → ℕ) (cells : List ℕ) (n : ℕ) (st : Answering) : Prop where
  cells_lt : ∀ c ∈ cells, c<n
  cells_le : cells.length≤n
  entries : st.decoded.entries=cells.map fun c=>cellSurface resolve storages (coordinateFromLinear c)
  shelters : st.decoded.shelters=cells.map fun c=>cellShelter resolve storages (coordinateFromLinear c)
  models : st.decoded.modelCandidates=cells.map fun c=>cellModel resolve storages (coordinateFromLinear c)
  slot : ∀ k slot : ℕ, st.answerOf[k]? = some slot → slot=u16Max ∨ ∃ c, cells[slot]? = some c ∧ key c=k
  length : st.decoded.voxels.length=n
  voxel : ∀ linear<n, ∃ slot : ℕ, st.decoded.voxels[linear]? = some slot ∧
    st.answerOf[key linear]? = some slot ∧ slot≠u16Max

variable {key : ℕ → ℕ} {cells : List ℕ}

variable {st : Answering}

lemma Answered.answerVoxel {facts : PaletteFacts} {n : ℕ} (h : Answered resolve storages key cells n st) (hn : n<voxelCount)
    (hkey : key n < st.answerOf.length)
    (hat : facts.atVoxel (coordinateFromLinear n) = some (cellSurface resolve storages (coordinateFromLinear n)))
    (hshelter : facts.seasonalSheltersAt (coordinateFromLinear n) =
      some (cellShelter resolve storages (coordinateFromLinear n)))
    (hmodel : facts.modelEntriesAt (coordinateFromLinear n) =
      some (resolveDirect resolve storages (coordinateFromLinear n)).modelEntries) :
    ∃ st' cells', facts.answerVoxel n (key n) st=some st' ∧ Answered resolve storages key cells' (n+1) st' ∧
      st'.answerOf.length=st.answerOf.length := by
  obtain ⟨slot,hslot⟩ : ∃ slot, st.answerOf[key n]? = some slot := ⟨_,List.getElem?_eq_getElem hkey⟩
  have hlast : ∀ (voxels : List ℕ) (slot : ℕ), voxels.length=n →
      (voxels ++ [slot])[n]? = some slot := fun voxels slot hlen=>by
    rw [List.getElem?_append_right (Nat.le_of_eq hlen),hlen,Nat.sub_self]
    rfl
  have hold : ∀ {linear : ℕ} (slot : ℕ), linear<n →
      (st.decoded.voxels ++ [slot])[linear]? = st.decoded.voxels[linear]? := fun slot hl =>
    List.getElem?_append_left (h.length.symm ▸ hl)
  unfold PaletteFacts.answerVoxel
  rw [hslot,Option.bind_eq_bind,Option.bind_some]
  by_cases hmiss : slot=u16Max
  · -- The combination is new: the next slot is its own.
    rw [if_pos hmiss]
    have hlen : st.decoded.entries.length=cells.length := by rw [h.entries,length_map]
    have hroom : cells.length<u16Max := lt_of_le_of_lt (h.cells_le.trans hn.le) (by decide)
    have h16 : asU16 st.decoded.entries.length=cells.length := by
      rw [hlen]
      exact Nat.mod_eq_of_lt (lt_trans hroom (by decide))
    dsimp only
    rw [hat,hshelter,hmodel,h16]
    refine ⟨_,cells ++ [n],rfl,?_,length_set⟩
    constructor
    · intro c hc
      rcases mem_append.1 hc with hc | hc
      · exact (h.cells_lt c hc).trans (Nat.lt_succ_self n)
      · rw [mem_singleton.1 hc]
        exact Nat.lt_succ_self n
    · rw [length_append,length_singleton]
      exact Nat.add_le_add_right h.cells_le 1
    · rw [h.entries,map_append]
      rfl
    · rw [h.shelters,map_append]
      rfl
    · rw [h.models,map_append]
      rfl
    · intro k slot' hslot'
      by_cases hk : key n=k
      · subst hk
        rw [List.getElem?_set_self hkey] at hslot'
        cases hslot'
        refine .inr ⟨n,?_,rfl⟩
        rw [List.getElem?_append_right (Nat.le_refl _),Nat.sub_self]
        rfl
      · rw [List.getElem?_set_ne hk] at hslot'
        rcases h.slot k slot' hslot' with hmax | ⟨c,hc,hck⟩
        · exact .inl hmax
        · refine .inr ⟨c,?_,hck⟩
          rw [List.getElem?_append_left (List.getElem?_eq_some_iff.1 hc).1]
          exact hc
    · rw [length_append,h.length]
      rfl
    · intro linear hl
      rcases Nat.lt_succ_iff_lt_or_eq.1 hl with hl | rfl
      · obtain ⟨slot',hvoxel,hanswer,hne⟩ := h.voxel linear hl
        have hk : key n≠key linear := by
          intro heq
          rw [heq,hanswer] at hslot
          cases hslot
          exact hne hmiss
        exact ⟨slot',(hold _ hl).trans hvoxel,(List.getElem?_set_ne hk).trans hanswer,hne⟩
      · exact ⟨cells.length,hlast _ _ h.length,List.getElem?_set_self hkey,hroom.ne⟩
  · rw [if_neg hmiss]
    refine ⟨_,cells,rfl,?_,rfl⟩
    refine ⟨fun c hc=>(h.cells_lt c hc).trans (Nat.lt_succ_self n),
      h.cells_le.trans (Nat.le_succ n),h.entries,h.shelters,h.models,h.slot,?_,?_⟩
    · rw [length_append,h.length]
      rfl
    · intro linear hl
      rcases Nat.lt_succ_iff_lt_or_eq.1 hl with hl | rfl
      · obtain ⟨slot',hvoxel,hanswer,hne⟩ := h.voxel linear hl
        exact ⟨slot',(hold _ hl).trans hvoxel,hanswer,hne⟩
      · exact ⟨slot,hlast _ _ h.length,hslot,hmiss⟩

lemma Answered.answerAll (facts : PaletteFacts) {n : ℕ} (h : Answered resolve storages key cells n st) (todo : List ℕ)
    (htodo : todo.length=voxelCount-n) (hn : n≤voxelCount)
    (hkeys : ∀ i (_ : i<todo.length), todo[i]? = some (key (n+i)))
    (hkey : ∀ linear<voxelCount, key linear < st.answerOf.length)
    (hat : ∀ u : Voxel, u.Inside → facts.atVoxel u=some (cellSurface resolve storages u) ∧
      facts.seasonalSheltersAt u=some (cellShelter resolve storages u) ∧
      facts.modelEntriesAt u=some (resolveDirect resolve storages u).modelEntries) :
    ∃ st' cells', facts.answerAll todo n st=some st' ∧
      Answered resolve storages key cells' voxelCount st' := by
  induction todo generalizing n cells st with
  | nil =>
    rw [length_nil] at htodo
    have hend : n=voxelCount := by omega
    subst hend
    exact ⟨st,cells,rfl,h⟩
  | cons k rest ih =>
    rw [length_cons] at htodo
    have hlt : n<voxelCount := by omega
    have hfirst := hkeys 0 (Nat.succ_pos _)
    rw [List.getElem?_cons_zero,Nat.add_zero,Option.some.injEq] at hfirst
    subst hfirst
    obtain ⟨hsurface,hshelter,hmodel⟩ := hat _ (inside_coordinate hlt)
    obtain ⟨st',cells',hstep,h',hlen⟩ := h.answerVoxel hlt (hkey n hlt) hsurface hshelter hmodel
    obtain ⟨st'',cells'',hrun,h''⟩ := ih h' (by omega) hlt (fun i hi=>by
        have hnext := hkeys (i+1) (Nat.succ_lt_succ hi)
        rwa [List.getElem?_cons_succ,show n + (i+1) = n+1+i by omega] at hnext)
      fun linear hl=>hlen ▸ hkey linear hl
    refine ⟨st'',cells'',?_,h''⟩
    rw [PaletteFacts.answerAll,hstep]
    exact hrun

/-- What a decoded table is: each voxel's slot holds what its cell resolves to, below the sentinel,
and voxels share a slot exactly when every layer has the same index at both. -/
structure Tabulates (resolve : ℕ → ResolvedPaletteEntry) (storages : List PalettedStorage)
    (decoded : DecodedVoxels) : Prop where
  length : decoded.voxels.length=voxelCount
  slot : ∀ v : Voxel, v.Inside → ∃ slot, decoded.voxels[linearFromCoordinate v]? = some slot ∧ slot<u16Max ∧
      decoded.entries[slot]? = some (cellSurface resolve storages v) ∧
      decoded.shelters[slot]? = some (cellShelter resolve storages v) ∧
      decoded.modelCandidates[slot]? = some (cellModel resolve storages v)
  apart : ∀ a<voxelCount, ∀ b<voxelCount, decoded.voxels[a]? = decoded.voxels[b]? ↔
    ∀ s ∈ storages, s.paletteIndex a=s.paletteIndex b

/-- A finished table. -/
lemma Answered.tabulates (h : Answered resolve storages key cells voxelCount st)
    (hkey : ∀ a<voxelCount, ∀ b<voxelCount, key a=key b ↔ ∀ s ∈ storages, s.paletteIndex a=s.paletteIndex b) :
    Tabulates resolve storages st.decoded := by
  have hcell : ∀ linear<voxelCount, ∃ slot c : ℕ, st.decoded.voxels[linear]? = some slot ∧
      slot < cells.length ∧ cells[slot]? = some c ∧ key c=key linear ∧ c<voxelCount := by
    intro linear hl
    obtain ⟨slot,hvoxel,hanswer,hne⟩ := h.voxel linear hl
    obtain ⟨c,hc,hck⟩ := (h.slot _ _ hanswer).resolve_left hne
    exact ⟨slot,c,hvoxel,(List.getElem?_eq_some_iff.1 hc).1,hc,hck, h.cells_lt c (List.mem_of_getElem? hc)⟩
  refine ⟨h.length,fun v hv=>?_,fun a ha b hb=>?_⟩
  · have hl := linear_lt hv
    obtain ⟨slot,c,hvoxel,hslot,hc,hck,hclt⟩ := hcell _ hl
    have hinside := inside_coordinate hclt
    have hsame : ∀ s ∈ storages, s.paletteIndex (linearFromCoordinate (coordinateFromLinear c)) =
        s.paletteIndex (linearFromCoordinate v) := by
      rw [linear_coordinate hclt]
      exact (hkey c hclt _ hl).1 hck
    obtain ⟨hdirect,hentries⟩ := resolveDirect_congr resolve hinside hv hsame
    refine ⟨slot,hvoxel,lt_of_lt_of_le hslot (h.cells_le.trans (by decide)),?_,?_,?_⟩
    · rw [h.entries,List.getElem?_map,hc,Option.map_some,cellSurface,cellSurface,hdirect]
    · rw [h.shelters,List.getElem?_map,hc,Option.map_some,cellShelter,cellShelter,hentries]
    · rw [h.models,List.getElem?_map,hc,Option.map_some,cellModel,cellModel,hdirect]
  · rw [← hkey a ha b hb]
    constructor
    · intro heq
      obtain ⟨slot,c,hvoxel,-,hc,hck,-⟩ := hcell a ha
      obtain ⟨slot',c',hvoxel',-,hc',hck',-⟩ := hcell b hb
      rw [hvoxel,hvoxel',Option.some.injEq] at heq
      subst heq
      rw [hc,Option.some.injEq] at hc'
      subst hc'
      exact hck.symm.trans hck'
    · intro heq
      obtain ⟨slot,hvoxel,hanswer,-⟩ := h.voxel a ha
      obtain ⟨slot',hvoxel',hanswer',-⟩ := h.voxel b hb
      rw [heq,hanswer'] at hanswer
      rw [hvoxel,hvoxel',hanswer]

end Table

namespace PaletteFacts

variable {resolve : ℕ → ResolvedPaletteEntry} {storages : List PalettedStorage} {v : Voxel}

lemma known_of {storages : List PalettedStorage} (h : ∀ s ∈ storages, s.Known) :
    ∀ s ∈ storages.map (StoragePaletteFacts.of resolve), s.storage.Known := by
  intro s hs
  obtain ⟨storage,hstorage,rfl⟩ := mem_map.1 hs
  exact h storage hstorage

/-- The packed lookups answer every voxel of the table. -/
lemma answerAll_mixed (h : ∀ s ∈ storages, s.Known) (hne : storages ≠ []) {size : ℕ}
    (hsize : MixedRadix.size StoragePaletteFacts.base (storages.map (.of resolve)) = size) :
    ∃ st cells, (mixed resolve storages).answerAll ((List.range voxelCount).map (keyOf (storages.map (.of resolve)))) 0
        ⟨List.replicate size u16Max,[],[],[],[]⟩ = some st ∧
      Answered resolve storages (keyOf (storages.map (.of resolve))) cells voxelCount st := by
  have hfresh : Answered resolve storages (keyOf (storages.map (.of resolve))) [] 0
      ⟨List.replicate size u16Max,[],[],[],[]⟩ :=
    { cells_lt := fun c hc=>absurd hc not_mem_nil
      cells_le := Nat.le_refl 0
      entries := rfl
      shelters := rfl
      models := rfl
      slot := fun k slot hslot=>.inl (eq_of_mem_replicate (List.mem_of_getElem? hslot))
      length := rfl
      voxel := fun linear hl=>absurd hl (Nat.not_lt_zero linear) }
  refine Answered.answerAll (mixed resolve storages) hfresh _ ?_ (Nat.zero_le _) (fun i hi=>?_)
    (fun linear hl=>?_) fun u hu=>?_
  · rw [length_map,length_range,Nat.sub_zero]
  · rw [length_map,length_range] at hi
    rw [getElem?_voxels _ hi,Nat.zero_add]
  · rw [length_replicate,← hsize]
    exact keyOf_lt (known_of h) hl
  · refine ⟨atVoxel_mixed h hu,seasonalSheltersAt_mixed h hu hne,?_⟩
    unfold modelEntriesAt
    rw [contributorsAt_mixed h hu]
    rfl

/-- Too many combinations, or a layer whose words do not cover the section. -/
def Undecodable (resolve : ℕ → ResolvedPaletteEntry) (storages : List PalettedStorage) : Prop :=
  maxDecodedCombinations < combinations (storages.map (.of resolve)) ∨
    ∃ s ∈ storages, s.paletteIndex (voxelCount-1) = none

/-- Decoding never fails; it leaves the section as it was or with the table of its cells. -/
lemma decodeVoxels_mixed (resolve : ℕ → ResolvedPaletteEntry) (h : ∀ s ∈ storages, s.Known) (hne : storages ≠ []) :
    (mixed resolve storages).decodeVoxels=some (mixed resolve storages) ∧ Undecodable resolve storages ∨
      ∃ decoded, (mixed resolve storages).decodeVoxels =
          some { mixed resolve storages with decoded := some decoded } ∧
        Tabulates resolve storages decoded := by
  change (if maxDecodedCombinations < combinations (storages.map (.of resolve)) then _ else _) = _ ∧
    _ ∨ ∃ decoded, (if maxDecodedCombinations < combinations (storages.map (.of resolve)) then _
      else _) = _ ∧ _
  by_cases hlarge : maxDecodedCombinations < combinations (storages.map (.of resolve))
  · rw [if_pos hlarge]
    exact .inl ⟨rfl,.inl hlarge⟩
  · rw [if_neg hlarge]
    have hsize := size_of_combinations (Nat.le_of_not_lt hlarge)
    have hzero : List.replicate voxelCount 0 = (List.range voxelCount).map (keyOf []) := by
      rw [show keyOf [] = fun _=>0 from rfl,map_const',length_range]
    rw [hzero]
    rcases layerKeys_eq [] (storages.map (.of resolve)) (known_of h)
      (hsize.trans_le (Nat.le_of_not_lt hlarge)) (fun s hs=>absurd hs not_mem_nil) with
      ⟨hshort,s,hs,hnone⟩ | ⟨hkeys,hsome⟩
    · rw [MixedRadix.size_nil] at hshort
      rw [hshort]
      obtain ⟨storage,hstorage,rfl⟩ := mem_map.1 hs
      exact .inl ⟨rfl,.inr ⟨storage,hstorage,hnone⟩⟩
    · rw [MixedRadix.size_nil,nil_append] at hkeys
      obtain ⟨st,cells,hrun,hanswered⟩ := answerAll_mixed h hne hsize
      rw [hkeys,Option.bind_eq_bind,Option.bind_some]
      dsimp only
      refine .inr ⟨st.decoded,?_,hanswered.tabulates fun a ha b hb=>?_⟩
      · rw [hrun]
        rfl
      · rw [paletteIndex_of_keyOf (known_of h) hsome ha hb]
        exact forall_mem_map

end PaletteFacts

end Cinnabar.Meshing
