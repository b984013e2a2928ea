import Cinnabar.Meshing.PaletteFacts

/-! # Undecoded sections answer per cell -/

namespace Cinnabar.Meshing

open World List

section Lookups

variable {resolve : ℕ → ResolvedPaletteEntry} {storage : PalettedStorage}
  {storages : List PalettedStorage} {v : Voxel}

lemma runtimeIdAt_eq (storage : PalettedStorage) (hv : v.Inside) : runtimeIdAt storage v =
    (storage.paletteIndex (linearFromCoordinate v)).bind fun index=>storage.palette[index]? := by
  obtain ⟨hx,hy,hz⟩ := hv
  unfold side at hx hy hz
  unfold runtimeIdAt PalettedStorage.runtimeId
  rw [if_neg (by omega)]
  rfl

/-- A layer's packed lookup finds the entry of its runtime value. -/
lemma entryAt_of (resolve : ℕ → ResolvedPaletteEntry) (h : storage.Known) (hv : v.Inside) :
    (StoragePaletteFacts.of resolve storage).entryAt v=some (entryOf resolve v storage) := by
  obtain ⟨words,hshows⟩ := exists_shows h
  unfold StoragePaletteFacts.entryAt StoragePaletteFacts.of entryOf
  rw [hshows.packedPaletteIndex_eq hv,runtimeIdAt_eq storage hv,Option.bind_eq_bind, Option.bind_some]
  cases storage.paletteIndex (linearFromCoordinate v) with
  | none => rfl
  | some index =>
    rw [Option.bind_some,Option.bind_some,List.getElem?_map]
    rfl

lemma pushEntries_of (h : ∀ s ∈ storages, s.Known) (hv : v.Inside) (contributors : ResolvedContributors) :
    pushEntries v (storages.map (.of resolve)) contributors =
      some (resolveLayers resolve v storages contributors) := by
  induction storages generalizing contributors with
  | nil => rfl
  | cons s rest ih =>
    have hrest := ih fun s hs=>h s (.tail _ hs)
    rw [map_cons,pushEntries,entryAt_of resolve (h s (.head _)) hv,resolveLayers,
      Option.bind_eq_bind,Option.bind_some,entryOf]
    cases runtimeIdAt s v with
    | none => rfl
    | some networkValue => exact hrest _

lemma pushSurface_of (h : ∀ s ∈ storages, s.Known) (hv : v.Inside) (contributors : ResolvedContributors) :
    pushSurface v (storages.map (.of resolve)) contributors =
      some (resolveLayers resolve v storages contributors).geometryEntry := by
  induction storages generalizing contributors with
  | nil => rfl
  | cons s rest ih =>
    have hrest := ih fun s hs=>h s (.tail _ hs)
    rw [map_cons,pushSurface,entryAt_of resolve (h s (.head _)) hv,resolveLayers,
      Option.bind_eq_bind,Option.bind_some,entryOf]
    cases runtimeIdAt s v with
    | none => rfl
    | some networkValue => exact hrest _

lemma anyUnsupported_of (resolve : ℕ → ResolvedPaletteEntry) (h : ∀ s ∈ storages, s.Known) (hv : v.Inside) :
    anyUnsupported v (storages.map (.of resolve)) = some ((storages.map (entryOf resolve v)).any fun entry =>
        entry.all fun entry=>!entry.flags.contains BlockFlags.air) := by
  induction storages with
  | nil => rfl
  | cons s rest ih =>
    have hrest := ih fun s hs=>h s (.tail _ hs)
    rw [map_cons,anyUnsupported,entryAt_of resolve (h s (.head _)) hv,map_cons,
      any_cons,Option.bind_eq_bind,Option.bind_some]
    cases entryOf resolve v s with
    | none => rfl
    | some entry =>
      dsimp only
      rw [Option.all_some]
      cases entry.flags.contains BlockFlags.air with
      | false => rfl
      | true => exact hrest

lemma packedShelters_of (h : ∀ s ∈ storages, s.Known) (hv : v.Inside) (hne : storages ≠ []) :
    packedShelters v (storages.map (.of resolve)) =
      some (cellShelters (storages.map (entryOf resolve v))) := by
  cases storages with
  | nil => exact absurd rfl hne
  | cons main extras =>
    have hmain := entryAt_of resolve (h main (.head _)) hv
    unfold packedShelters
    cases extras with
    | nil =>
      rw [map_singleton,List.getElem?_cons_zero]
      dsimp only
      rw [hmain]
      rfl
    | cons extra rest =>
      have hextra := entryAt_of resolve (h extra (.tail _ (.head _))) hv
      have hlate : ∀ s ∈ rest, s.Known := fun s hs =>
        h s (.tail _ (.tail _ hs))
      have hrest := anyUnsupported_of resolve hlate hv
      rw [map_cons,map_cons,List.getElem?_cons_zero,List.getElem?_cons_succ,
        List.getElem?_cons_zero,drop_succ_cons,drop_succ_cons,drop_zero]
      dsimp only
      rw [hmain,hextra,hrest,map_cons,map_cons]
      cases entryOf resolve v extra with
      | none => rfl
      | some entry => rfl

lemma runtimeIdAt_uniform (h : storage.Known) (hv : v.Inside) {networkValue : ℕ}
    (huniform : uniformRuntimeId storage=some networkValue) :
    runtimeIdAt storage v=some networkValue := by
  obtain ⟨words,hshows⟩ := exists_shows h
  unfold uniformRuntimeId at huniform
  split_ifs at huniform with hzero
  rw [runtimeIdAt_eq storage hv,hshows.uniform hzero _ (linear_lt hv)]
  exact huniform

end Lookups

namespace UniformLayers

def pushAll : ℕ → UniformLayers → List ResolvedPaletteEntry → UniformLayers
  | _, st, [] => st
  | layer, st, entry::rest => pushAll (layer+1) (st.push layer entry) rest

lemma pushAll_contributors (layer : ℕ) (st : UniformLayers) (entries : List ResolvedPaletteEntry) :
    (pushAll layer st entries).contributors =
      entries.foldl ResolvedContributors.push st.contributors := by
  induction entries generalizing layer st with
  | nil => rfl
  | cons entry rest ih =>
    rw [pushAll,ih,foldl_cons]
    unfold push
    split <;> rfl

/-- Past the wire's two layers only the unsupported flag changes. -/
lemma pushAll_late (layer : ℕ) (st : UniformLayers) (entries : List ResolvedPaletteEntry) :
    (pushAll (layer+2) st entries).main=st.main ∧ (pushAll (layer+2) st entries).extra=st.extra ∧
      (pushAll (layer+2) st entries).unsupportedExtra =
        (st.unsupportedExtra || entries.any fun entry=>!entry.flags.contains BlockFlags.air) := by
  induction entries generalizing layer st with
  | nil => exact ⟨rfl,rfl,(Bool.or_false _).symm⟩
  | cons entry rest ih =>
    obtain ⟨hmain,hextra,hunsupported⟩ := ih (layer+1) (st.push (layer+2) entry)
    rw [pushAll,show layer+2+1=layer+1+2 by omega]
    refine ⟨hmain,hextra,?_⟩
    rw [hunsupported,any_cons,← Bool.or_assoc]
    rfl

/-- The uniform answer is the cell's. -/
lemma pushAll_shelters (entries : List ResolvedPaletteEntry) : ((pushAll 0 {} entries).unsupportedExtra ||
      seasonalFoliageCellShelters (pushAll 0 {} entries).main (pushAll 0 {} entries).extra) =
      cellShelters (entries.map some) := by
  cases entries with
  | nil => decide
  | cons main extras =>
    cases extras with
    | nil => rfl
    | cons extra rest =>
      rw [pushAll,pushAll]
      obtain ⟨hmain,hextra,hunsupported⟩ := pushAll_late 0 ((push {} 0 main).push 1 extra) rest
      rw [hmain,hextra,hunsupported,map_cons,map_cons,cellShelters,any_map]
      rfl

end UniformLayers

section Uniform

variable {resolve : ℕ → ResolvedPaletteEntry} {storages : List PalettedStorage} {v : Voxel}

lemma uniformLayers_eq (h : ∀ s ∈ storages, s.Known) (hv : v.Inside) {layer : ℕ}
    {st out : UniformLayers} (hrun : uniformLayers resolve storages layer st=some out) :
    ∃ entries, storages.map (entryOf resolve v) = entries.map some ∧
      out=UniformLayers.pushAll layer st entries := by
  induction storages generalizing layer st with
  | nil =>
    cases hrun
    exact ⟨[],rfl,rfl⟩
  | cons s rest ih =>
    obtain ⟨networkValue,huniform,hrest⟩ := Option.bind_eq_some_iff.1 hrun
    obtain ⟨entries,hentries,hout⟩ := ih (fun s hs=>h s (.tail _ hs)) hrest
    refine ⟨resolve networkValue::entries,?_,hout⟩
    rw [map_cons,map_cons,hentries,entryOf, runtimeIdAt_uniform (h s (.head _)) hv huniform]
    rfl

lemma resolveLayers_of_entries {entries : List ResolvedPaletteEntry}
    (hentries : storages.map (entryOf resolve v) = entries.map some)
    (contributors : ResolvedContributors) : resolveLayers resolve v storages contributors =
      entries.foldl ResolvedContributors.push contributors := by
  induction storages generalizing entries contributors with
  | nil =>
    cases entries with
    | nil => rfl
    | cons entry rest => cases hentries
  | cons s storages ih =>
    cases entries with
    | nil => cases hentries
    | cons entry entries =>
      rw [map_cons,map_cons,List.cons.injEq] at hentries
      obtain ⟨hentry,hrest⟩ := hentries
      obtain ⟨networkValue,hvalue,rfl⟩ := Option.map_eq_some_iff.1 hentry
      rw [resolveLayers,hvalue]
      exact ih hrest _

end Uniform

namespace PaletteFacts

variable {resolve : ℕ → ResolvedPaletteEntry} {storages : List PalettedStorage} {v : Voxel}

lemma resolveDirect_inside (hv : v.Inside) : resolveDirect resolve storages v=resolveLayers resolve v storages {} := by
  obtain ⟨hx,hy,hz⟩ := hv
  unfold resolveDirect
  rw [if_neg (by omega)]

/-- What a section is made of: its layers' one answer, or the packed lookups. -/
lemma new_cases (resolve : ℕ → ResolvedPaletteEntry) (storages : List PalettedStorage) :
    (storages ≠ [] ∧ new resolve storages=mixed resolve storages) ∨
      ∃ st, uniformLayers resolve storages 0 {} = some st ∧ new resolve storages =
        { source := if st.contributors.isEmpty then .air else .uniform st.contributors
          uniformSeasonalShelter :=
            st.unsupportedExtra || seasonalFoliageCellShelters st.main st.extra
          decoded := none } := by
  unfold new
  cases hrun : uniformLayers resolve storages 0 {} with
  | none =>
    refine .inl ⟨?_,rfl⟩
    rintro rfl
    cases hrun
  | some st => exact .inr ⟨st,rfl,rfl⟩

lemma new_decoded (resolve : ℕ → ResolvedPaletteEntry) (storages : List PalettedStorage) :
    (new resolve storages).decoded=none := by
  rcases new_cases resolve storages with ⟨-,hnew⟩ | ⟨st,-,hnew⟩
  · rw [hnew]
    rfl
  · rw [hnew]

section

variable (h : ∀ s ∈ storages, s.Known)
include h

lemma contributorsAt_mixed (hv : v.Inside) :
    (mixed resolve storages).contributorsAt v=some (resolveDirect resolve storages v) := by
  rw [resolveDirect_inside hv]
  exact pushEntries_of h hv {}

lemma atVoxel_mixed (hv : v.Inside) : (mixed resolve storages).atVoxel v =
      some (resolveDirect resolve storages v).geometryEntry := by
  rw [resolveDirect_inside hv]
  exact pushSurface_of h hv {}

lemma seasonalSheltersAt_mixed (hv : v.Inside) (hne : storages ≠ []) : (mixed resolve storages).seasonalSheltersAt v =
      some (cellShelters (storages.map (entryOf resolve v))) :=
  packedShelters_of h hv hne

end

/-- The contributors of a voxel, whichever way they are kept. -/
lemma contributorsAt_new (resolve : ℕ → ResolvedPaletteEntry) (h : ∀ s ∈ storages, s.Known) (hv : v.Inside) :
    (new resolve storages).contributorsAt v=some (resolveDirect resolve storages v) := by
  rcases new_cases resolve storages with ⟨-,hnew⟩ | ⟨st,hrun,hnew⟩
  · rw [hnew]
    exact contributorsAt_mixed h hv
  · obtain ⟨entries,hentries,rfl⟩ := uniformLayers_eq h hv hrun
    have hcontributors := UniformLayers.pushAll_contributors 0 {} entries
    rw [hnew,resolveDirect_inside hv,resolveLayers_of_entries hentries,← hcontributors]
    unfold contributorsAt
    by_cases hempty : (UniformLayers.pushAll 0 {} entries).contributors.isEmpty=true
    · rw [if_pos hempty]
      have hcovered : (UniformLayers.pushAll 0 {} entries).contributors.Covered := by
        rw [hcontributors]
        exact ResolvedContributors.covered_foldl (fun _=>rfl) entries
      rw [ResolvedContributors.eq_default_of_isEmpty hcovered hempty]
    · rw [if_neg hempty]

lemma atVoxel_new (h : ∀ s ∈ storages, s.Known) (hv : v.Inside) : (new resolve storages).atVoxel v =
      some (resolveDirect resolve storages v).geometryEntry := by
  have hcontributors := contributorsAt_new resolve h hv
  rcases new_cases resolve storages with ⟨-,hnew⟩ | ⟨st,hrun,hnew⟩
  · rw [hnew]
    exact atVoxel_mixed h hv
  · rw [hnew] at hcontributors ⊢
    unfold atVoxel decodedSlot
    rw [Option.bind_eq_bind,Option.bind_some]
    dsimp only
    split
    · rename_i heq
      split_ifs at heq
    · rw [hcontributors]
      rfl

lemma seasonalSheltersAt_new (h : ∀ s ∈ storages, s.Known) (hv : v.Inside) :
    (new resolve storages).seasonalSheltersAt v =
      some (cellShelters (storages.map (entryOf resolve v))) := by
  rcases new_cases resolve storages with ⟨hne,hnew⟩ | ⟨st,hrun,hnew⟩
  · rw [hnew]
    exact seasonalSheltersAt_mixed h hv hne
  · obtain ⟨entries,hentries,rfl⟩ := uniformLayers_eq h hv hrun
    rw [hnew,hentries,← UniformLayers.pushAll_shelters]
    unfold seasonalSheltersAt decodedSlot
    rw [Option.bind_eq_bind,Option.bind_some]
    dsimp only
    split
    · rename_i heq
      split_ifs at heq
    · rfl

end PaletteFacts

end Cinnabar.Meshing
