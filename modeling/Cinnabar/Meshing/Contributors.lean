import Cinnabar.Culling.Face

/-! # Resolved contributors -/

namespace Cinnabar.Meshing

open Culling (Face)

/-- A `u8` of flag bits. -/
abbrev BlockFlags := ℕ

namespace BlockFlags

def air : BlockFlags := 1 <<< 0

def cubeGeometry : BlockFlags := 1 <<< 1

def occludesFullFace : BlockFlags := 1 <<< 2

def leafModel : BlockFlags := 1 <<< 3

def seasonalReplaceable : BlockFlags := 1 <<< 4

variable (flags other : BlockFlags)

def contains : Bool := flags &&& other == other

def intersects : Bool := flags &&& other != 0

/-- `flags & !other` -/
def remove : BlockFlags := flags &&& (255 ^^^ other)

end BlockFlags

def blockVisualVariantTopSnow : ℕ := 1 <<< 31

def noModelTemplate : ℕ := 2^32-1

def diagnosticMaterial : ℕ := 0

inductive VisualKind where
  | diagnostic | cube | cross | model | liquid | invisible
deriving DecidableEq

inductive ContributorRole where
  | primary | liquidAdditional | air
deriving DecidableEq

inductive NetworkIdMode where
  | sequential | hashed
deriving DecidableEq

structure ResolvedBlock where
  known : Bool
  flags : BlockFlags
  face : Face → ℕ
  kind : VisualKind
  contributorRole : ContributorRole
  modelTemplate : Option ℕ
  variant : ℕ

/-- The lookups of `RuntimeAssets` that resolving a palette value makes. -/
structure RuntimeAssets where
  resolve : NetworkIdMode → ℕ → ResolvedBlock
  sequentialIdForHash : ℕ → Option ℕ

structure BlockClassifier where
  airNetworkId : ℕ

variable (classifier : BlockClassifier)

def BlockClassifier.isAir (runtimeId : ℕ) : Bool :=
  runtimeId == classifier.airNetworkId

structure ResolvedPaletteEntry where
  networkValue : ℕ
  sequentialId : Option ℕ
  contributorRole : ContributorRole
  flags : BlockFlags
  faces : Face → ℕ
  kind : VisualKind
  modelTemplate : ℕ
  variant : ℕ

namespace ResolvedPaletteEntry

/-- `AIR` -/
def AIR : ResolvedPaletteEntry where
  networkValue := 0
  sequentialId := none
  contributorRole := .air
  flags := BlockFlags.air
  faces := fun _=>diagnosticMaterial
  kind := .invisible
  modelTemplate := noModelTemplate
  variant := 0

/-- `DIAGNOSTIC` -/
def DIAGNOSTIC : ResolvedPaletteEntry where
  networkValue := 0
  sequentialId := none
  contributorRole := .primary
  flags := 0
  faces := fun _=>diagnosticMaterial
  kind := .diagnostic
  modelTemplate := noModelTemplate
  variant := 0

def air (networkValue : ℕ) : ResolvedPaletteEntry := { AIR with networkValue }

def diagnostic (networkValue : ℕ) (sequentialId : Option ℕ) : ResolvedPaletteEntry :=
  { DIAGNOSTIC with networkValue, sequentialId }

def emitsCubeGeometry (entry : ResolvedPaletteEntry) : Bool :=
  entry.flags.contains BlockFlags.cubeGeometry || entry.kind == .diagnostic

end ResolvedPaletteEntry

def paletteEntryOfBlock (visuals : RuntimeAssets) (networkIdMode : NetworkIdMode)
    (networkValue : ℕ) (block : ResolvedBlock) : ResolvedPaletteEntry :=
  let sequentialId := if block.known then
      match networkIdMode with
      | .sequential => some networkValue
      | .hashed => visuals.sequentialIdForHash networkValue
    else none
  let flags := BlockFlags.remove block.flags BlockFlags.air
  let textured := BlockFlags.contains flags BlockFlags.cubeGeometry ||
    block.kind == .liquid || block.kind == .model
  { networkValue, sequentialId
    contributorRole := block.contributorRole
    flags :=
      if textured then flags
      else
        let flags := flags.remove BlockFlags.leafModel
        if block.kind ≠ .model then flags.remove BlockFlags.occludesFullFace else flags
    faces := if textured then block.face else fun _=>diagnosticMaterial
    kind := block.kind
    modelTemplate := block.modelTemplate.getD noModelTemplate
    variant := block.variant }

def resolvePaletteEntry (visuals : RuntimeAssets)
    (networkIdMode : NetworkIdMode) (networkValue : ℕ) : ResolvedPaletteEntry :=
  if classifier.isAir networkValue then .air networkValue
  else
    paletteEntryOfBlock visuals networkIdMode networkValue (visuals.resolve networkIdMode networkValue)

variable (entry : ResolvedPaletteEntry)

/-- A contributor the model pass tessellates. -/
def isModelEntry : Bool :=
  (entry.kind == .cross || entry.kind == .model) && entry.modelTemplate != noModelTemplate

/-- A diagnostic excludes real contributors. -/
structure ResolvedContributors where
  primary : Option ResolvedPaletteEntry := none
  coveredPlant : Option ResolvedPaletteEntry := none
  liquid : Option ResolvedPaletteEntry := none
  diagnostic : Option ResolvedPaletteEntry := none

namespace ResolvedContributors

section

variable (c : ResolvedContributors)

def isEmpty : Bool :=
  c.primary.isNone && c.liquid.isNone && c.diagnostic.isNone

/-- The surface of cube visibility and neighbour occlusion. -/
def geometryEntry : ResolvedPaletteEntry :=
  match c.diagnostic, c.primary with
  | some entry, _ => entry
  | none, some entry => entry
  | none, none => .AIR

def failClosed (networkValue : ℕ) (sequentialId : Option ℕ) : ResolvedContributors where
  diagnostic := some (.diagnostic networkValue sequentialId)

def topSnow (entry : ResolvedPaletteEntry) : Bool := entry.variant &&& blockVisualVariantTopSnow != 0

/-- A second primary: snow over a crossed plant, in either order, or nothing that is supported. -/
def pushPrimary (primary entry : ResolvedPaletteEntry) :
    ResolvedContributors :=
  if c.coveredPlant.isNone then
    if topSnow primary && entry.kind == .cross then { c with coveredPlant := some entry }
    else if topSnow entry && primary.kind == .cross then
      { c with primary := some entry, coveredPlant := some primary }
    else failClosed entry.networkValue entry.sequentialId
  else failClosed entry.networkValue entry.sequentialId

def push (entry : ResolvedPaletteEntry) : ResolvedContributors :=
  if c.diagnostic.isSome || entry.flags.contains BlockFlags.air then c
  else
    match entry.contributorRole with
    | .primary =>
      match c.primary with
      | none => { c with primary := some entry }
      | some primary => c.pushPrimary primary entry
    | .liquidAdditional =>
      if entry.kind = .liquid then
        match c.liquid with
        | none => { c with liquid := some entry }
        | some liquid =>
          if liquid.networkValue≠entry.networkValue then
            failClosed entry.networkValue entry.sequentialId
          else c
      else failClosed entry.networkValue entry.sequentialId
    | .air => failClosed entry.networkValue entry.sequentialId

def modelEntries : List (Option ResolvedPaletteEntry) :=
  [c.primary,c.coveredPlant]

def Covered : Prop := c.primary=none → c.coveredPlant=none

end

lemma covered_failClosed (networkValue : ℕ) (sequentialId : Option ℕ) :
    (failClosed networkValue sequentialId).Covered := fun _=>rfl

variable {c : ResolvedContributors}

lemma covered_pushPrimary {primary : ResolvedPaletteEntry}
    (hprimary : c.primary=some primary) (entry : ResolvedPaletteEntry) :
    (c.pushPrimary primary entry).Covered := by
  unfold pushPrimary
  split_ifs
  · intro hnone
    rw [hprimary] at hnone
    cases hnone
  · intro hnone
    cases hnone
  · exact covered_failClosed _ _
  · exact covered_failClosed _ _

lemma covered_push (h : c.Covered) (entry : ResolvedPaletteEntry) : (c.push entry).Covered := by
  unfold push
  by_cases hskip : (c.diagnostic.isSome || entry.flags.contains BlockFlags.air) = true
  · rwa [if_pos hskip]
  · rw [if_neg hskip]
    cases entry.contributorRole with
    | primary =>
      cases hprimary : c.primary with
      | none =>
        intro hnone
        cases hnone
      | some primary => exact covered_pushPrimary hprimary entry
    | liquidAdditional =>
      by_cases hkind : entry.kind = .liquid
      · rw [if_pos hkind]
        cases c.liquid with
        | none => exact h
        | some liquid =>
          dsimp only
          split_ifs
          · exact covered_failClosed _ _
          · exact h
      · rw [if_neg hkind]
        exact covered_failClosed _ _
    | air => exact covered_failClosed _ _

lemma covered_foldl (h : c.Covered) (entries : List ResolvedPaletteEntry) : (entries.foldl push c).Covered := by
  induction entries generalizing c with
  | nil => exact h
  | cons entry rest ih => exact ih (covered_push h entry)

lemma eq_default_of_isEmpty (h : c.Covered) (hempty : c.isEmpty=true) : c = {} := by
  obtain ⟨primary,covered,liquid,diagnostic⟩ := c
  simp only [isEmpty,Bool.and_eq_true,Option.isNone_iff_eq_none] at hempty
  obtain ⟨⟨rfl,rfl⟩,rfl⟩ := hempty
  rw [show covered=none from h rfl]

end ResolvedContributors

structure SeasonalFoliageBlock where
  flags : BlockFlags
  kind : VisualKind
  variant : ℕ

/-- `AIR` -/
def SeasonalFoliageBlock.AIR : SeasonalFoliageBlock := ⟨BlockFlags.air,.invisible,0⟩

def seasonalBlock : SeasonalFoliageBlock :=
  ⟨entry.flags,entry.kind,entry.variant⟩

/-- No `main` is unavailable and shelters; no `extra` is no extra storage. -/
def seasonalFoliageCellShelters (main extra : Option SeasonalFoliageBlock) : Bool :=
  match main with
  | none => true
  | some main =>
    if main.kind = .diagnostic then true
    else if main.flags.intersects (BlockFlags.air ||| BlockFlags.leafModel) then false
    else if main.variant &&& blockVisualVariantTopSnow≠0 then
      match extra.filter fun extra=>!extra.flags.contains BlockFlags.air with
      | some extra =>
        extra.kind == .diagnostic || !extra.flags.contains BlockFlags.seasonalReplaceable
      | none => main.kind != .model
    else !main.flags.contains BlockFlags.seasonalReplaceable

end Cinnabar.Meshing
