import Cinnabar.Meshing.DecodedAnswers

/-! # Facts of a section, decoded or not -/

namespace Cinnabar.Meshing

open World PaletteFacts List
open Culling (Face FaceConnectivity)

def connectivityOpen (entry : ResolvedPaletteEntry) : Bool :=
  !entry.flags.contains BlockFlags.occludesFullFace

structure VisibilityMasks where
  occluders : Finset Voxel

namespace VisibilityMasks

def fromFacts (facts : PaletteFacts) : Option VisibilityMasks :=
  match facts.source with
  | .air => some ⟨∅⟩
  | .uniform contributors =>
    some ⟨if contributors.geometryEntry.flags.contains BlockFlags.occludesFullFace then
      grid.toFinset else ∅⟩
  | .mixed _ => do
    let visits ← facts.forEachVoxelClass fun entry =>
      entry.flags.contains BlockFlags.occludesFullFace
    return ⟨visits.foldl (fun occluders visit =>
      if visit.2 then insert visit.1 occluders else occluders) ∅⟩

def occludes (masks : VisibilityMasks) (v : Voxel) : Bool := v ∈ masks.occluders

end VisibilityMasks

/-- Faces of the section joined through voxels that do not fully occlude. -/
def caveConnectivity (facts : PaletteFacts) (isOpen : Voxel → Bool) : Option FaceConnectivity :=
  match facts.source with
  | .air => some .all
  | .uniform contributors =>
    some (if connectivityOpen contributors.geometryEntry then .all else .none)
  | .mixed _ => connectivityThrough isOpen

def meshConnectivity (facts : PaletteFacts) : Option FaceConnectivity :=
  match facts.source with
  | .air => caveConnectivity facts fun _=>true
  | _ => do
    let masks ← VisibilityMasks.fromFacts facts
    caveConnectivity facts fun v=>!masks.occludes v

lemma grid_eq : grid=List.range side ×ˢ (List.range side ×ˢ List.range side) := by
  change _ = (List.range side).flatMap fun x=>(List.range side ×ˢ List.range side).map (Prod.mk x)
  refine congrArg (List.flatMap · _) (funext fun x=>?_)
  change _ = ((List.range side).flatMap fun y=>(List.range side).map (Prod.mk y)).map (Prod.mk x)
  rw [map_flatMap]
  rfl

lemma mem_grid {v : Voxel} : v ∈ grid ↔ v.Inside := by
  rw [grid_eq,mem_product,mem_product,mem_range,mem_range,mem_range]
  rfl

/-- Both orders of visiting go through the section's voxels once. -/
lemma grid_perm : ((List.range voxelCount).map coordinateFromLinear).Perm grid := by
  have hnodup : ((List.range voxelCount).map coordinateFromLinear).Nodup := by
    refine List.Nodup.map_on (fun a ha b hb heq=>?_) nodup_range
    rw [← linear_coordinate (mem_range.1 ha),heq,linear_coordinate (mem_range.1 hb)]
  have hgrid : grid.Nodup := by
    rw [grid_eq]
    exact nodup_range.product (nodup_range.product nodup_range)
  refine (perm_ext_iff_of_nodup hnodup hgrid).2 fun v=>?_
  rw [mem_grid,mem_map]
  constructor
  · rintro ⟨linear,hl,rfl⟩
    exact inside_coordinate (mem_range.1 hl)
  · intro hv
    exact ⟨linearFromCoordinate v,mem_range.2 (linear_lt hv),coordinate_linear hv⟩

lemma mapM_eq_some {α β : Type} {f : α → Option β} {g : α → β} {l : List α}
    (h : ∀ a ∈ l, f a=some (g a)) : l.mapM f=some (l.map g) := by
  induction l with
  | nil => rfl
  | cons a rest ih =>
    rw [mapM_cons,h a (.head _),ih fun a ha=>h a (.tail _ ha)]
    rfl

lemma mem_foldl_occluders {visits : List (Voxel × Bool)} {occluders : Finset Voxel} {v : Voxel} :
    v ∈ visits.foldl (fun occluders visit =>
        if visit.2 then insert visit.1 occluders else occluders) occluders ↔
      v ∈ occluders ∨ (v,true) ∈ visits := by
  induction visits generalizing occluders with
  | nil => simp
  | cons visit rest ih =>
    obtain ⟨w,occludes⟩ := visit
    rw [foldl_cons,ih]
    cases occludes with
    | false => simp
    | true =>
      simp only [if_true,Finset.mem_insert,mem_cons,Prod.mk.injEq,and_true]
      tauto

/-- What a section's facts owe the cells of its layers. -/
structure Resolves (resolve : ℕ → ResolvedPaletteEntry) (storages : List PalettedStorage)
    (facts : PaletteFacts) : Prop where
  surface : ∀ v : Voxel, v.Inside → facts.atVoxel v=some (resolveDirect resolve storages v).geometryEntry
  shelter : ∀ v : Voxel, v.Inside → facts.seasonalSheltersAt v=some (cellShelters (storages.map (entryOf resolve v)))
  model : ∀ v : Voxel, v.Inside → facts.mayHaveModelAt v=some (facts.decoded.isNone || cellModel resolve storages v)
  visits : ∀ {α : Type} (classify : ResolvedPaletteEntry → α), ∃ visits, facts.forEachVoxelClass classify=some visits ∧
      visits.Perm (grid.map fun v=>(v,classify (cellSurface resolve storages v)))

section Answers

variable {resolve : ℕ → ResolvedPaletteEntry} {storages : List PalettedStorage}

variable {facts : PaletteFacts}

lemma Resolves.of_lookups (hdecoded : facts.decoded=none) (hsurface : ∀ v : Voxel, v.Inside →
      facts.atVoxel v=some (resolveDirect resolve storages v).geometryEntry)
    (hshelter : ∀ v : Voxel, v.Inside →
      facts.seasonalSheltersAt v=some (cellShelters (storages.map (entryOf resolve v)))) :
    Resolves resolve storages facts where
  surface := hsurface
  shelter := hshelter
  model := fun v _=>by
    unfold mayHaveModelAt decodedSlot
    rw [hdecoded]
    rfl
  visits := fun classify=>by
    unfold forEachVoxelClass
    rw [hdecoded]
    refine ⟨_,mapM_eq_some fun v hv=>?_,List.Perm.refl _⟩
    rw [hsurface v (mem_grid.1 hv)]
    rfl

lemma Resolves.of_table {decoded : DecodedVoxels}
    (hdecoded : facts.decoded=some decoded) (h : Tabulates resolve storages decoded) :
    Resolves resolve storages facts := by
  have hslot : ∀ v : Voxel, v.Inside → ∃ slot, facts.decodedSlot v=some (some (decoded,slot)) ∧
      decoded.voxels[linearFromCoordinate v]? = some slot ∧
      decoded.entries[slot]? = some (cellSurface resolve storages v) ∧
      decoded.shelters[slot]? = some (cellShelter resolve storages v) ∧
      decoded.modelCandidates[slot]? = some (cellModel resolve storages v) := by
    intro v hv
    obtain ⟨slot,hvoxel,-,hentry,hshelter,hmodel⟩ := h.slot v hv
    refine ⟨slot,?_,hvoxel,hentry,hshelter,hmodel⟩
    obtain ⟨hx,hy,hz⟩ := hv
    unfold decodedSlot
    rw [hdecoded]
    dsimp only
    rw [if_neg (by omega),hvoxel]
    rfl
  refine ⟨fun v hv=>?_,fun v hv=>?_,fun v hv=>?_,fun classify=>?_⟩
  · obtain ⟨slot,heq,-,hentry,-⟩ := hslot v hv
    unfold atVoxel
    rw [heq]
    exact hentry
  · obtain ⟨slot,heq,-,-,hshelter,-⟩ := hslot v hv
    unfold seasonalSheltersAt
    rw [heq]
    exact hshelter
  · obtain ⟨slot,heq,-,-,-,hmodel⟩ := hslot v hv
    unfold mayHaveModelAt
    rw [heq,hdecoded]
    exact hmodel
  · unfold forEachVoxelClass
    rw [hdecoded]
    have hvisit : ∀ pair ∈ decoded.voxels.zipIdx,
        (do return (coordinateFromLinear pair.2,← (decoded.entries.map classify)[pair.1]?)) =
          some (coordinateFromLinear pair.2,
            classify (cellSurface resolve storages (coordinateFromLinear pair.2))) := by
      rintro ⟨slot,linear⟩ hmem
      have hvoxel := List.mem_zipIdx_iff_getElem?.1 hmem
      have hl : linear<voxelCount := h.length ▸ (List.getElem?_eq_some_iff.1 hvoxel).1
      obtain ⟨slot',-,hvoxel',hentry,-⟩ := hslot _ (inside_coordinate hl)
      rw [linear_coordinate hl,hvoxel,Option.some.injEq] at hvoxel'
      rw [List.getElem?_map,hvoxel',hentry]
      rfl
    refine ⟨_,mapM_eq_some hvisit,?_⟩
    have hlinear : decoded.voxels.zipIdx.map Prod.snd=List.range voxelCount := by
      rw [zipIdx_map_snd,h.length,range_eq_range']
    have hmap : (decoded.voxels.zipIdx.map fun pair : ℕ × ℕ=>(coordinateFromLinear pair.2,
        classify (cellSurface resolve storages (coordinateFromLinear pair.2)))) =
        (((List.range voxelCount).map coordinateFromLinear).map fun v =>
          (v,classify (cellSurface resolve storages v))) := by
      rw [← hlinear,map_map,map_map]
      rfl
    rw [hmap]
    exact grid_perm.map _

lemma resolves_new (h : ∀ s ∈ storages, s.Known) : Resolves resolve storages (.new resolve storages) :=
  .of_lookups (new_decoded _ _) (fun _ hv=>atVoxel_new h hv) fun _ hv=>seasonalSheltersAt_new h hv

lemma resolves_mixed (h : ∀ s ∈ storages, s.Known) (hne : storages ≠ []) :
    Resolves resolve storages (.mixed resolve storages) :=
  .of_lookups rfl (fun _ hv=>atVoxel_mixed h hv) fun _ hv=>seasonalSheltersAt_mixed h hv hne

/-- The masks have the cells that fully occlude. -/
lemma fromFacts_mixed (h : Resolves resolve storages facts)
    {mixed : List StoragePaletteFacts} (hsource : facts.source = .mixed mixed) :
    ∃ masks, VisibilityMasks.fromFacts facts=some masks ∧ ∀ v : Voxel, v.Inside →
      (!masks.occludes v) = connectivityOpen (cellSurface resolve storages v) := by
  obtain ⟨visits,hvisits,hperm⟩ := h.visits fun entry =>
    entry.flags.contains BlockFlags.occludesFullFace
  refine ⟨⟨visits.foldl (fun occluders visit =>
    if visit.2 then insert visit.1 occluders else occluders) ∅⟩,?_,fun v hv=>?_⟩
  · unfold VisibilityMasks.fromFacts
    rw [hsource]
    rw [hvisits]
    rfl
  · have hmem : (v,true) ∈ visits ↔ BlockFlags.contains
        (cellSurface resolve storages v).flags BlockFlags.occludesFullFace=true := by
      rw [hperm.mem_iff,mem_map]
      constructor
      · rintro ⟨w,-,heq⟩
        rw [Prod.mk.injEq] at heq
        obtain ⟨rfl,hocc⟩ := heq
        exact hocc
      · exact fun hocc=>⟨v,mem_grid.2 hv,by rw [hocc]⟩
    unfold VisibilityMasks.occludes connectivityOpen
    refine congrArg not (Bool.eq_iff_iff.2 ?_)
    rw [decide_eq_true_eq,mem_foldl_occluders,hmem]
    simp

section

variable (h : ∀ s ∈ storages, s.Known)
include h

lemma cellSurface_uniform {contributors : ResolvedContributors}
    (hall : ∀ v, (new resolve storages).contributorsAt v=some contributors)
    {v : Voxel} (hv : v.Inside) :
    cellSurface resolve storages v=contributors.geometryEntry := by
  have heq := contributorsAt_new resolve h hv
  rw [hall v,Option.some.injEq] at heq
  rw [cellSurface,← heq]

/-- A section of one entry joins all of its faces or none. -/
lemma connected_uniform {contributors : ResolvedContributors}
    (hall : ∀ v, (new resolve storages).contributorsAt v=some contributors)
    (entry exit : Face) :
    FaceConnectivity.isConnected (if connectivityOpen contributors.geometryEntry then .all else .none) entry exit=true ↔
      JoinsFaces (fun v=>connectivityOpen (cellSurface resolve storages v)) entry exit := by
  by_cases hopen : connectivityOpen contributors.geometryEntry=true
  · rw [if_pos hopen]
    refine iff_of_true (decide_eq_true (Finset.mem_univ _)) (joinsFaces_of_open ?_ entry exit)
    intro v hv
    rw [cellSurface_uniform h hall hv,hopen]
  · rw [if_neg hopen]
    refine iff_of_false (fun hmem=>Finset.notMem_empty _ (of_decide_eq_true hmem))
      (not_joinsFaces_of_closed (fun v hv=>?_) entry exit)
    rw [cellSurface_uniform h hall hv]
    exact Bool.eq_false_iff.2 hopen

lemma caveConnectivity_spec (hsource : facts.source = (new resolve storages).source) {isOpen : Voxel → Bool}
    (hopen : ∀ mixed, facts.source = .mixed mixed → ∀ v : Voxel, v.Inside →
      isOpen v=connectivityOpen (cellSurface resolve storages v)) :
    ∃ connectivity, caveConnectivity facts isOpen=some connectivity ∧ ∀ entry exit,
      connectivity.isConnected entry exit=true ↔
        JoinsFaces (fun v=>connectivityOpen (cellSurface resolve storages v)) entry exit := by
  have hall : ∀ contributors, (∀ v, facts.contributorsAt v=some contributors) →
      ∀ v, (new resolve storages).contributorsAt v=some contributors := by
    intro contributors hfacts v
    rw [← hfacts v]
    unfold contributorsAt
    rw [hsource]
  unfold caveConnectivity
  cases hkind : facts.source with
  | air =>
    have hair : ∀ v, facts.contributorsAt v=some {} := fun v=>by
      unfold contributorsAt
      rw [hkind]
    exact ⟨.all,rfl,connected_uniform h (hall {} hair)⟩
  | uniform contributors =>
    have huniform : ∀ v, facts.contributorsAt v=some contributors := fun v=>by
      unfold contributorsAt
      rw [hkind]
    exact ⟨_,rfl,connected_uniform h (hall contributors huniform)⟩
  | mixed mixed =>
    obtain ⟨connectivity,hrun,hconnected⟩ := connectivityThrough_spec isOpen
    refine ⟨connectivity,hrun,fun entry exit=>?_⟩
    rw [← joinsFaces_congr (hopen mixed hkind),← hconnected]
    exact decide_eq_true_iff

lemma meshConnectivity_spec (hsource : facts.source = (new resolve storages).source)
    (hresolves : Resolves resolve storages facts) :
    ∃ connectivity, meshConnectivity facts=some connectivity ∧ ∀ entry exit, connectivity.isConnected entry exit=true ↔
        JoinsFaces (fun v=>connectivityOpen (cellSurface resolve storages v)) entry exit := by
  unfold meshConnectivity
  cases hkind : facts.source with
  | air =>
    refine caveConnectivity_spec h hsource fun mixed hmixed=>?_
    rw [hkind] at hmixed
    cases hmixed
  | uniform contributors =>
    have hmasks : ∃ masks, VisibilityMasks.fromFacts facts=some masks := by
      unfold VisibilityMasks.fromFacts
      rw [hkind]
      exact ⟨_,rfl⟩
    obtain ⟨masks,hmasks⟩ := hmasks
    rw [hmasks]
    refine caveConnectivity_spec h hsource fun mixed hmixed=>?_
    rw [hkind] at hmixed
    cases hmixed
  | mixed mixed =>
    obtain ⟨masks,hmasks,hopen⟩ := fromFacts_mixed hresolves hkind
    rw [hmasks]
    exact caveConnectivity_spec h hsource fun _ _ v hv=>hopen v hv

end

/-- Decoding a section leaves it resolving its cells, with a table that has no shared slot. -/
lemma decodeVoxels_new (resolve : ℕ → ResolvedPaletteEntry) (h : ∀ s ∈ storages, s.Known) : ∃ facts,
    (new resolve storages).decodeVoxels=some facts ∧ facts.source = (new resolve storages).source ∧
      Resolves resolve storages facts ∧
      ∀ decoded, facts.decoded=some decoded → Tabulates resolve storages decoded := by
  have hnew : Resolves resolve storages (.new resolve storages) := resolves_new h
  have hnone : ∀ decoded, (new resolve storages).decoded=some decoded →
      Tabulates resolve storages decoded := by
    intro decoded hdecoded
    rw [new_decoded] at hdecoded
    cases hdecoded
  rcases new_cases resolve storages with ⟨hne,heq⟩ | ⟨st,-,heq⟩
  · rcases decodeVoxels_mixed resolve h hne with
      ⟨hrun,-⟩ | ⟨decoded,hrun,htable⟩
    · rw [← heq] at hrun
      exact ⟨_,hrun,rfl,hnew,hnone⟩
    · rw [← heq] at hrun
      refine ⟨_,hrun,rfl,.of_table rfl htable,fun decoded' hdecoded=>?_⟩
      cases hdecoded
      exact htable
  · refine ⟨_,?_,rfl,hnew,hnone⟩
    rw [heq]
    unfold decodeVoxels
    split
    · rename_i hmixed
      split_ifs at hmixed
    · rfl

end Answers

/-- Before and after decoding, and through the packed lookups, a section's facts answer each cell
with the resolution of its layers; a decoded table has no overflow and no shared slot; the faces
joined are those that open cells join. -/
theorem PaletteFacts.decodeVoxels_spec (classifier : BlockClassifier) (visuals : RuntimeAssets)
    (networkIdMode : NetworkIdMode) {storages : List PalettedStorage}
    (h : ∀ s ∈ storages, s.Reached) :
    let resolve := resolvePaletteEntry classifier visuals networkIdMode
    ∃ facts, (new resolve storages).decodeVoxels = some facts ∧
      Resolves resolve storages (.new resolve storages) ∧ Resolves resolve storages facts ∧
      (storages ≠ [] → Resolves resolve storages (.mixed resolve storages)) ∧
      (∀ decoded, facts.decoded = some decoded → Tabulates resolve storages decoded) ∧
      (∀ isOpen : Voxel → Bool, (∀ v : Voxel, v.Inside → ∃ entry, facts.atVoxel v=some entry ∧
          isOpen v = connectivityOpen entry) →
        ∃ connectivity, caveConnectivity facts isOpen = some connectivity ∧ ∀ entry exit,
          connectivity.isConnected entry exit=true ↔ JoinsFaces isOpen entry exit) ∧
      ∃ connectivity, meshConnectivity facts = some connectivity ∧ ∀ entry exit,
        connectivity.isConnected entry exit=true ↔
          JoinsFaces (fun v => connectivityOpen (cellSurface resolve storages v)) entry exit := by
  intro resolve
  have hknown : ∀ s ∈ storages, s.Known := fun s hs => (h s hs).known
  obtain ⟨facts,hrun,hsource,hfacts,htable⟩ := decodeVoxels_new resolve hknown
  refine ⟨facts,hrun,resolves_new hknown,hfacts,resolves_mixed hknown,htable,
    fun isOpen hopen => ?_,meshConnectivity_spec hknown hsource hfacts⟩
  have hagrees : ∀ v : Voxel, v.Inside → isOpen v = connectivityOpen (cellSurface resolve storages v) := by
    intro v hv
    obtain ⟨entry,hentry,heq⟩ := hopen v hv
    rw [hfacts.surface v hv,Option.some.injEq] at hentry
    rw [heq,← hentry,cellSurface]
  obtain ⟨connectivity,hcave,hconnected⟩ := caveConnectivity_spec hknown hsource fun _ _=>hagrees
  exact ⟨connectivity,hcave,fun entry exit =>
    (hconnected entry exit).trans (joinsFaces_congr hagrees).symm⟩

/-- Two palette entries of air over a whole section. -/
def airLayer : PalettedStorage := .new 1 (List.replicate 128 0) [0,0]

lemma airLayer_built : airLayer.Built := by
  refine ⟨rfl,by decide,fun word hword=>?_⟩
  rw [eq_of_mem_replicate hword]
  decide

lemma airLayer_reached : airLayer.Reached := ⟨airLayer,[],[],airLayer_built,rfl⟩

lemma airLayer_index {linear : ℕ} (hl : linear<voxelCount) : airLayer.paletteIndex linear=some 0 := by
  have hword : linear/BitFields.perWord 1<128 := by
    rw [voxelCount_eq] at hl
    unfold blocksPerSubChunk at hl
    rw [show BitFields.perWord 1=32 from rfl]
    omega
  rw [PalettedStorage.paletteIndex,PalettedStorage.physicalIndex,
    if_neg (by rwa [Nat.not_le]),if_neg (by decide),airLayer,PalettedStorage.new,
    BitFields.readCell,List.getElem?_replicate,if_pos hword]
  simp [BitFields.getField]

def noVisuals : RuntimeAssets where
  resolve := fun _ _=>⟨false,0,fun _=>diagnosticMaterial,.diagnostic,.primary,none,0⟩
  sequentialIdForHash := fun _=>none

theorem PaletteFacts.decodeVoxels_spec_air :
    let resolve := resolvePaletteEntry ⟨0⟩ noVisuals .sequential
    ∃ facts, (new resolve [airLayer]).decodeVoxels = some facts ∧
      Resolves resolve [airLayer] (.new resolve [airLayer]) ∧ Resolves resolve [airLayer] facts := by
  have hreached : ∀ s ∈ [airLayer], s.Reached := fun s hs => by
    rw [mem_singleton.1 hs]
    exact airLayer_reached
  obtain ⟨facts,hrun,hnew,hfacts,-⟩ := PaletteFacts.decodeVoxels_spec ⟨0⟩ noVisuals .sequential hreached
  exact ⟨facts,hrun,hnew,hfacts⟩

/-- A section of nothing but air may have a model until it is decoded. -/
theorem PaletteFacts.mayHaveModelAt_decoded : ¬ ∀ (classifier : BlockClassifier)
    (visuals : RuntimeAssets) (networkIdMode : NetworkIdMode) (storages : List PalettedStorage),
    (∀ s ∈ storages, s.Reached) → ∀ facts, (new (resolvePaletteEntry classifier visuals networkIdMode)
        storages).decodeVoxels = some facts → ∀ v : Voxel, v.Inside →
      facts.mayHaveModelAt v = (new (resolvePaletteEntry classifier visuals networkIdMode)
          storages).mayHaveModelAt v := by
  intro hclaim
  have hreached : ∀ s ∈ [airLayer], s.Reached := fun s hs => by
    rw [mem_singleton.1 hs]
    exact airLayer_reached
  have hknown : ∀ s ∈ [airLayer], s.Known := fun s hs => (hreached s hs).known
  have hinside : Voxel.Inside (0,0,0) := ⟨by decide,by decide,by decide⟩
  rcases decodeVoxels_mixed (resolvePaletteEntry ⟨0⟩ noVisuals .sequential) hknown
      (cons_ne_nil _ _) with ⟨-,hlarge | ⟨s,hs,hnone⟩⟩ | ⟨decoded,hrun,htable⟩
  · exact absurd hlarge (by decide)
  · rw [mem_singleton.1 hs,airLayer_index (by decide)] at hnone
    cases hnone
  · have heq := hclaim ⟨0⟩ noVisuals .sequential [airLayer] hreached _ hrun _ hinside
    have hvalue : runtimeIdAt airLayer (0,0,0) = some 0 := by
      rfl
    have hdirect : resolveDirect (resolvePaletteEntry ⟨0⟩ noVisuals .sequential) [airLayer] (0,0,0) = {} := by
      rw [resolveDirect_inside hinside,resolveLayers,hvalue]
      dsimp only
      rw [resolveLayers,ResolvedContributors.push,if_pos (by decide)]
    have hundecoded : (new (resolvePaletteEntry ⟨0⟩ noVisuals .sequential)
        [airLayer]).mayHaveModelAt (0,0,0) = some true := rfl
    rw [(Resolves.of_table rfl htable).model _ hinside,cellModel,hdirect,hundecoded] at heq
    cases heq

end Cinnabar.Meshing
