import Cinnabar.Residency.ColumnScan

/-! # Retention of columns

A pass retires the columns outside the view, polled item by item.
-/

namespace Cinnabar.Residency

open Finset

section View

/-- Chunks the grid retains beyond the confirmed radius. -/
def chunkViewSlack : ℤ := 2

def maxViewRadiusChunks : ℕ := 255

/-- The nearest number of at most 24 significant bits, ties to even: an `f32` of that value. -/
def roundF32 (n : ℕ) : ℕ :=
  let unit := 2 ^ (Nat.size n-24)
  let low := n/unit
  let rest := n % unit
  (if 2*rest<unit ∨ (2*rest=unit ∧ low % 2=0) then low else low+1) * unit

/-- `view as f32 + 1.5 + 1.7320508`, in units of `2⁻²³`. -/
def viewThreshold (view : ℕ) : ℕ :=
  roundF32 (roundF32 (roundF32 view*2^23+3*2^22)+14529495)

def chunkViewDistance (radius : ℤ) : ℤ := max (radius+1) 1

/-- Whether a grid around a centre retains a column, by their distances on each axis. -/
def inView (radius : ℤ) (dx dz : ℕ) : Bool :=
  let view := chunkViewDistance radius
  (dx : ℤ) ≤ view+1 && (dz : ℤ) ≤ view+1 &&
    roundF32 (dx*dx+dz*dz) * 2^46 < roundF32 (viewThreshold view.toNat*viewThreshold view.toNat)

def chunkInView (radius x z centreX centreZ : ℤ) : Bool :=
  inView radius (centreX-x).natAbs (centreZ-z).natAbs

lemma roundF32_of_lt {n : ℕ} (h : n<2^24) : roundF32 n=n := by
  have hsize : Nat.size n-24=0 := Nat.sub_eq_zero_of_le (Nat.size_le.2 h)
  unfold roundF32
  rw [hsize]
  simp [Nat.mod_one]

/-- A nearer column of the row is in view too. -/
lemma inView_of_succ {radius : ℤ} (hradius : radius ≤ maxViewRadiusChunks) {dx d : ℕ}
    (h : inView radius dx (d+1) = true) : inView radius dx d=true := by
  unfold inView at h ⊢
  simp only [Bool.and_eq_true,decide_eq_true_eq] at h ⊢
  obtain ⟨⟨hx,hz⟩,hlt⟩ := h
  have hview : chunkViewDistance radius≤256 := by
    unfold chunkViewDistance maxViewRadiusChunks at *
    omega
  have hdx : dx≤257 := by omega
  have hd : d+1≤257 := by omega
  have hxx : dx*dx≤257*257 := Nat.mul_le_mul hdx hdx
  have hdd : (d+1) * (d+1) ≤ 257*257 := Nat.mul_le_mul hd hd
  have hmono : d*d ≤ (d+1) * (d+1) := Nat.mul_le_mul (Nat.le_succ d) (Nat.le_succ d)
  rw [roundF32_of_lt (by omega)] at hlt
  rw [roundF32_of_lt (by omega)]
  exact ⟨⟨hx,by omega⟩,(Nat.mul_le_mul_right _ (by omega)).trans_lt hlt⟩

example : (inView 8 10 7,inView 8 10 8,inView 2 4 4,inView 0 2 2,inView 0 3 0) =
    (true,false,true,true,false) := by decide

end View

/-- What a pass retains: the grid of a confirmed radius around the player, or the square of the
publisher's around its centre. -/
structure Scope where
  centre : Column
  radius : ℕ
  radius_le : radius ≤ maxViewRadiusChunks
  confirmed : Bool
deriving DecidableEq

namespace Scope

variable {scope : Scope}

section

variable (scope : Scope)

def gridRadius : Option ℕ := if scope.confirmed then some scope.radius else none

def retainedAt (dimension x z : ℤ) : Bool :=
  dimension=scope.centre.dimension && if scope.confirmed then chunkInView scope.radius x z scope.centre.x scope.centre.z
    else (x-scope.centre.x).natAbs ≤ scope.radius && (z-scope.centre.z).natAbs ≤ scope.radius

def retained (column : Column) : Bool :=
  scope.retainedAt column.dimension column.x column.z

def row (x : Coordinate) : Option (Coordinate × Coordinate) :=
  rowSpan scope.centre.z (scope.radius+chunkViewSlack) fun z =>
    scope.retainedAt scope.centre.dimension x z

lemma circular_row (x : Coordinate) : Circular scope.centre.z
    (scope.radius+chunkViewSlack) (fun z=>scope.retainedAt scope.centre.dimension x z)
      fun d=>if scope.confirmed then inView scope.radius ((scope.centre.x : ℤ) - x).natAbs d
        else ((x : ℤ) - scope.centre.x).natAbs ≤ scope.radius && d ≤ scope.radius where
  eq := by
    intro z _
    unfold retainedAt chunkInView
    rw [decide_eq_true rfl,Bool.true_and,← Int.natAbs_neg ((scope.centre.z : ℤ) - z),neg_sub]
  down := by
    intro d h
    split at h
    · rename_i hconfirmed
      rw [if_pos hconfirmed]
      exact inView_of_succ (by exact_mod_cast scope.radius_le) h
    · rename_i hconfirmed
      rw [if_neg hconfirmed]
      simp only [Bool.and_eq_true,decide_eq_true_eq] at h ⊢
      omega
  le_reach := by
    intro d h
    unfold chunkViewSlack
    split at h
    · unfold inView chunkViewDistance at h
      simp only [Bool.and_eq_true,decide_eq_true_eq] at h
      omega
    · simp only [Bool.and_eq_true,decide_eq_true_eq] at h
      omega
  bound := by
    have hle := scope.radius_le
    unfold chunkViewSlack i32Max
    unfold maxViewRadiusChunks at hle
    omega

end

lemma row_of_retained {column : Column} (h : scope.retained column=true) :
    ∃ first last, scope.row column.x=some (first,last) ∧ first ≤ column.z ∧ column.z≤last ∧
      ∀ z : Coordinate, first≤z → z≤last → scope.retained { column with z } = true := by
  have hdimension : column.dimension=scope.centre.dimension := by
    exact of_decide_eq_true (Bool.and_eq_true_iff.1 h).1
  unfold retained at h ⊢
  rw [hdimension] at h
  rcases (scope.circular_row column.x).rowSpan with ⟨-,-,hout⟩ | ⟨first,last,hspan,hin⟩
  · rw [hout _ column.z.2] at h
    cases h
  · have hcolumn := (hin _ column.z.2).1 h
    refine ⟨first,last,hspan,hcolumn.1,hcolumn.2,fun z hfirst hlast=>?_⟩
    rw [hdimension]
    exact (hin _ z.2).2 ⟨hfirst,hlast⟩

end Scope

inductive Index where
  | loadedColumns
  | requiredColumns
  | requested
  | collisionFailures
  | unsentColumnDeadlines
  | lightDiagnostics
  | resident
  | knownAir
deriving DecidableEq

def Index.all : List Index :=
  [.loadedColumns,.requiredColumns,.requested,.collisionFailures,.unsentColumnDeadlines,
    .lightDiagnostics,.resident,.knownAir]

abbrev Section : Type := Column × ℤ

structure Indexes where
  loadedColumns : Finset Column
  requiredColumns : Finset Column
  requested : Finset Column
  collisionFailures : Finset Column
  unsentColumnDeadlines : Finset Column
  lightDiagnostics : Finset Column
  resident : Finset Section
  knownAir : Finset Section
  /-- Sections the terrain holds, blocks or biomes. -/
  terrain : Finset Section
  /-- Known air is resident. -/
  air_subset : knownAir ⊆ resident

namespace Indexes

section

variable (indexes : Indexes)

def get : Index → Finset Column
  | .loadedColumns => indexes.loadedColumns
  | .requiredColumns => indexes.requiredColumns
  | .requested => indexes.requested
  | .collisionFailures => indexes.collisionFailures
  | .unsentColumnDeadlines => indexes.unsentColumnDeadlines
  | .lightDiagnostics => indexes.lightDiagnostics
  | .resident => indexes.resident.image Prod.fst
  | .knownAir => indexes.knownAir.image Prod.fst

def inColumn (column : Column) (sections : Finset Section) : Finset Section :=
  sections.filter fun entry=>entry.1=column

def evictSections (column : Column) : Finset Section × Finset Section :=
  let residentKeys := inColumn column indexes.resident
  let changed := residentKeys ∪ inColumn column indexes.terrain
  if residentKeys.card=indexes.resident.card then (∅,∅)
  else if changed = ∅ then (indexes.resident,indexes.knownAir)
  else
    let retiring := inColumn column indexes.knownAir ∪ changed
    (indexes.resident \ retiring,indexes.knownAir \ retiring)

lemma inColumn_subset (column : Column) (sections : Finset Section) :
    inColumn column sections ⊆ sections := filter_subset _ _

lemma evictSections_eq (column : Column) :
    indexes.evictSections column = (indexes.resident.filter fun entry=>entry.1≠column,
      indexes.knownAir.filter fun entry=>entry.1≠column) := by
  unfold evictSections
  dsimp only
  split
  · rename_i hall
    have heq := eq_of_subset_of_card_le (inColumn_subset column indexes.resident) hall.ge
    have hcolumn : ∀ entry ∈ indexes.resident, entry.1=column := by
      intro entry hmem
      rw [← heq] at hmem
      exact (mem_filter.1 hmem).2
    rw [filter_false_of_mem fun entry hmem=>not_not.2 (hcolumn entry hmem),
      filter_false_of_mem fun entry hmem=>not_not.2 (hcolumn entry (indexes.air_subset hmem))]
  · split
    · rename_i hnone
      have hnone' := (union_eq_empty.1 hnone).1
      have hcolumn : ∀ entry ∈ indexes.resident, entry.1≠column := by
        intro entry hmem heq
        exact eq_empty_iff_forall_notMem.1 hnone' entry (mem_filter.2 ⟨hmem,heq⟩)
      rw [filter_true_of_mem hcolumn, filter_true_of_mem fun entry hmem=>hcolumn entry (indexes.air_subset hmem)]
    · refine Prod.ext (Finset.ext fun entry=>?_) (Finset.ext fun entry=>?_)
      · simp only [inColumn,mem_sdiff,mem_union,mem_filter]
        tauto
      · simp only [inColumn,mem_sdiff,mem_union,mem_filter]
        tauto

def evictColumn (column : Column) : Indexes :=
  { indexes with
    loadedColumns := indexes.loadedColumns.erase column
    requested := indexes.requested.erase column
    collisionFailures := indexes.collisionFailures.erase column
    lightDiagnostics := indexes.lightDiagnostics.erase column
    resident := (indexes.evictSections column).1
    knownAir := (indexes.evictSections column).2
    terrain := indexes.terrain.filter fun entry=>entry.1≠column
    air_subset := by
      rw [evictSections_eq]
      exact filter_subset_filter _ indexes.air_subset }

def retire (column : Column) : Indexes :=
  let indexes : Indexes :=
    { indexes with
      lightDiagnostics := indexes.lightDiagnostics.erase column
      requiredColumns := indexes.requiredColumns.erase column
      unsentColumnDeadlines := indexes.unsentColumnDeadlines.erase column
      collisionFailures := indexes.collisionFailures.erase column }
  if column ∈ indexes.loadedColumns ∨ column ∈ indexes.requested ∨
      (inColumn column indexes.resident).Nonempty ∨ (inColumn column indexes.knownAir).Nonempty then
    indexes.evictColumn column
  else indexes

lemma image_filter_ne (column : Column) (sections : Finset Section) :
    (sections.filter fun entry=>entry.1≠column).image Prod.fst =
      (sections.image Prod.fst).erase column := by
  ext other
  simp only [mem_image,mem_filter,mem_erase]
  constructor
  · rintro ⟨entry,⟨hmem,hne⟩,rfl⟩
    exact ⟨hne,entry,hmem,rfl⟩
  · rintro ⟨hne,entry,hmem,rfl⟩
    exact ⟨entry,⟨hmem,hne⟩,rfl⟩

lemma image_of_not_nonempty {column : Column} {sections : Finset Section} (h : ¬(inColumn column sections).Nonempty) :
    sections.image Prod.fst = (sections.image Prod.fst).erase column := by
  refine (erase_eq_of_notMem fun hmem=>h ?_).symm
  obtain ⟨entry,hentry,rfl⟩ := mem_image.1 hmem
  exact ⟨entry,mem_filter.2 ⟨hentry,rfl⟩⟩

lemma get_retire (column : Column) (index : Index) :
    (indexes.retire column).get index = (indexes.get index).erase column := by
  unfold retire
  dsimp only
  split
  · cases index with
    | resident =>
      change ((evictSections _ column).1).image Prod.fst=_
      rw [evictSections_eq]
      exact image_filter_ne column _
    | knownAir =>
      change ((evictSections _ column).2).image Prod.fst=_
      rw [evictSections_eq]
      exact image_filter_ne column _
    | collisionFailures => exact erase_idem
    | lightDiagnostics => exact erase_idem
    | loadedColumns => rfl
    | requiredColumns => rfl
    | requested => rfl
    | unsentColumnDeadlines => rfl
  · rename_i hnone
    simp only [not_or] at hnone
    obtain ⟨hloaded,hrequested,hresident,hair⟩ := hnone
    cases index with
    | resident => exact image_of_not_nonempty hresident
    | knownAir => exact image_of_not_nonempty hair
    | loadedColumns => exact (erase_eq_of_notMem hloaded).symm
    | requested => exact (erase_eq_of_notMem hrequested).symm
    | requiredColumns => rfl
    | collisionFailures => rfl
    | unsentColumnDeadlines => rfl
    | lightDiagnostics => rfl

/-- Strictly after the last completed item. -/
def after (cursor : Option Column) (column : Column) : Prop := ∀ last, cursor=some last → last < column

instance (cursor : Option Column) (column : Column) : Decidable (after cursor column) :=
  match cursor with
  | none => .isTrue fun _ h=>by cases h
  | some last => decidable_of_iff (last < column) ⟨fun h other heq=>by cases heq; exact h,fun h=>h last rfl⟩

def firstAfter (cursor : Option Column) (columns : Finset Column) : Option Column :=
  let rest := columns.filter fun column=>after cursor column
  if h : rest.Nonempty then some (rest.min' h) else none

def firstOf : Option Column → Option Column → Option Column
  | some a, some b => some (min a b)
  | some a, none => some a
  | none, b => b

def nextRetentionColumn (cursor : Option Column) (indexes : Indexes) : Option Column :=
  (Index.all.map fun index=>firstAfter cursor (indexes.get index)).foldr firstOf none

def Tracked (column : Column) : Prop := ∃ index, column ∈ indexes.get index

end

variable {cursor : Option Column} {indexes : Indexes} {column : Column}

lemma firstAfter_eq_some {columns : Finset Column} (h : firstAfter cursor columns=some column) :
    column ∈ columns ∧ after cursor column ∧ ∀ other ∈ columns, after cursor other → column≤other := by
  unfold firstAfter at h
  dsimp only at h
  split at h
  · cases h
    rename_i hsome
    obtain ⟨hmem,hafter⟩ := mem_filter.1 (min'_mem _ hsome)
    exact ⟨hmem,hafter,fun other hother hlate =>
      min'_le _ _ (mem_filter.2 ⟨hother,hlate⟩)⟩
  · cases h

lemma firstAfter_eq_none {columns : Finset Column} (h : firstAfter cursor columns=none) :
    ∀ other ∈ columns, ¬after cursor other := by
  unfold firstAfter at h
  dsimp only at h
  split at h
  · cases h
  · rename_i hnone
    exact fun other hother hlate=>hnone ⟨other,mem_filter.2 ⟨hother,hlate⟩⟩

lemma foldr_firstOf (candidates : List (Option Column)) :
    (candidates.foldr firstOf none=none → ∀ candidate ∈ candidates, candidate=none) ∧
    ∀ column, candidates.foldr firstOf none=some column → some column ∈ candidates ∧
      ∀ other, some other ∈ candidates → column≤other := by
  induction candidates with
  | nil =>
    exact ⟨fun _ candidate hmem=>absurd hmem List.not_mem_nil,fun column h=>by cases h⟩
  | cons candidate candidates ih =>
    rw [List.foldr_cons]
    obtain ⟨hnone,hsome⟩ := ih
    cases hrest : candidates.foldr firstOf none with
    | none =>
      have hall := hnone hrest
      cases candidate with
      | none =>
        refine ⟨fun _=>List.forall_mem_cons.2 ⟨rfl,hall⟩,fun column h=>?_⟩
        cases h
      | some first =>
        refine ⟨fun h=>?_,fun column h=>?_⟩
        · cases h
        · cases h
          refine ⟨.head _,fun other hmem=>?_⟩
          rcases List.mem_cons.1 hmem with heq | hmem
          · exact (Option.some.inj heq).ge
          · exact absurd (hall _ hmem) (Option.some_ne_none other)
    | some rest =>
      obtain ⟨hmem,hle⟩ := hsome rest hrest
      cases candidate with
      | none =>
        refine ⟨fun h=>?_,fun column h=>?_⟩
        · cases h
        · cases h
          refine ⟨.tail _ hmem,fun other hother=>?_⟩
          exact hle other ((List.mem_cons.1 hother).resolve_left (Option.some_ne_none other))
      | some first =>
        refine ⟨fun h=>?_,fun column h=>?_⟩
        · cases h
        · cases h
          refine ⟨?_,fun other hother=>?_⟩
          · rcases min_choice first rest with heq | heq
            · rw [heq]
              exact .head _
            · rw [heq]
              exact .tail _ hmem
          · rcases List.mem_cons.1 hother with heq | hother
            · exact (min_le_left _ _).trans (Option.some.inj heq).ge
            · exact (min_le_right _ _).trans (hle other hother)

lemma mem_all (index : Index) : index ∈ Index.all := by
  cases index <;> decide

lemma nextRetentionColumn_eq_some (h : nextRetentionColumn cursor indexes=some column) :
    indexes.Tracked column ∧ after cursor column ∧
      ∀ other, indexes.Tracked other → after cursor other → column≤other := by
  obtain ⟨hmem,hle⟩ := (foldr_firstOf _).2 column h
  obtain ⟨index,-,hfirst⟩ := List.mem_map.1 hmem
  obtain ⟨hcolumn,hafter,-⟩ := firstAfter_eq_some hfirst
  refine ⟨⟨index,hcolumn⟩,hafter,fun other htracked hlate=>?_⟩
  obtain ⟨index,hother⟩ := htracked
  cases hfirst : firstAfter cursor (indexes.get index) with
  | none => exact absurd hlate (firstAfter_eq_none hfirst other hother)
  | some first =>
    refine (hle first (List.mem_map.2 ⟨index,mem_all index,hfirst⟩)).trans ?_
    exact (firstAfter_eq_some hfirst).2.2 other hother hlate

lemma nextRetentionColumn_eq_none (h : nextRetentionColumn cursor indexes=none) :
    ∀ other, indexes.Tracked other → ¬after cursor other := by
  rintro other ⟨index,hother⟩
  exact firstAfter_eq_none ((foldr_firstOf _).1 h _ (List.mem_map.2 ⟨index,mem_all index,rfl⟩)) other hother

end Indexes

structure Stream where
  indexes : Indexes
  /-- The view, as the next poll finds it. -/
  scope : Scope
  retentionDue : Bool
  /-- The last column a pass completed. -/
  retentionCursor : Option Column
  lastRetentionCenter : Option Column
  lastRetentionRadius : Option ℕ

namespace Stream

/-- One item of a pass; `none` is the failed `expect` of a retained row. -/
def retentionItem (stream : Stream) (column : Column) : Option Stream :=
  if stream.scope.retained column then do
    let (_,last) ← stream.scope.row column.x
    return { stream with retentionCursor := some { column with z := last } }
  else
    some { stream with
      retentionCursor := some column
      indexes := stream.indexes.retire column }

/-- The items of a poll, until it yields or the pass finishes. -/
def retentionItems : ℕ → Stream → Option Stream
  | 0, stream => some stream
  | items+1, stream =>
    match Indexes.nextRetentionColumn stream.retentionCursor stream.indexes with
    | none => some { stream with retentionDue := false, retentionCursor := none }
    | some column => (stream.retentionItem column).bind (retentionItems items)

/-- Whether the centre or the confirmed radius differs from the last pass's. -/
def Changed (stream : Stream) : Prop :=
  stream.lastRetentionCenter≠some stream.scope.centre ∨ stream.lastRetentionRadius≠stream.scope.gridRadius

instance (stream : Stream) : Decidable stream.Changed := inferInstanceAs (Decidable (_ ∨ _))

/-- The state a poll starts its items from. -/
def restarted (stream : Stream) : Stream :=
  if stream.Changed then
    { stream with
      lastRetentionCenter := some stream.scope.centre
      lastRetentionRadius := stream.scope.gridRadius
      retentionCursor := none
      retentionDue := true }
  else stream

/-- Whether a poll has a pass to run. -/
def Active (stream : Stream) : Prop :=
  (stream.scope.confirmed=true ∨ stream.retentionDue=true) ∧ (stream.Changed ∨ stream.retentionDue=true)

instance (stream : Stream) : Decidable stream.Active := inferInstanceAs (Decidable (_ ∧ _))

def reevaluateChunkRetention (items : ℕ) (stream : Stream) : Option Stream :=
  if stream.Active then retentionItems items stream.restarted else some stream

end Stream

/-- A pass: the view it started with, whether every poll found that view, and the columns that
arrived where its cursor had passed. -/
structure Pass where
  scope : Scope
  steady : Bool
  late : Column → Prop

abbrev Ledger : Type := Stream × Pass

inductive Event where
  | poll (items : ℕ)
  /-- Columns arrive and are evicted, and the view moves. -/
  | change (indexes : Indexes) (scope : Scope)
  | requestRetention
  /-- A local teleport. -/
  | rebase
  /-- A change of dimension. -/
  | forget

def Pass.polled (pass : Pass) (stream : Stream) : Pass :=
  if stream.Active then
    if stream.restarted.retentionCursor=none then ⟨stream.scope,true,fun _=>False⟩
    else { pass with steady := pass.steady && stream.scope=pass.scope }
  else pass

def Event.run (ledger : Ledger) : Event → Option Ledger
  | .poll items =>
    (ledger.1.reevaluateChunkRetention items).map fun stream=>(stream,ledger.2.polled ledger.1)
  | .change indexes scope =>
    some ({ ledger.1 with indexes, scope },{ ledger.2 with
      late := fun column=>ledger.2.late column ∨ (indexes.Tracked column ∧ ¬ledger.1.indexes.Tracked column ∧
          ¬Indexes.after ledger.1.retentionCursor column) })
  | .requestRetention => some ({ ledger.1 with retentionDue := true },ledger.2)
  | .rebase => some ({ ledger.1 with retentionDue := true, retentionCursor := none },ledger.2)
  | .forget =>
    some ({ ledger.1 with lastRetentionCenter := none, lastRetentionRadius := none },ledger.2)

def Event.runAll (events : List Event) (ledger : Ledger) : Option Ledger := events.foldlM Event.run ledger

def Indexes.empty : Indexes := ⟨∅,∅,∅,∅,∅,∅,∅,∅,∅,Finset.Subset.refl ∅⟩

/-- A stream that tracks nothing yet. -/
def Stream.new (scope : Scope) : Stream := ⟨Indexes.empty,scope,false,none,none,none⟩

def Ledger.new (scope : Scope) : Ledger := (Stream.new scope,⟨scope,true,fun _=>False⟩)

/-- No column appeared and no retained column went. -/
def Pruned (scope : Scope) (before after : Indexes) : Prop :=
  ∀ index, after.get index ⊆ before.get index ∧
    ∀ column ∈ before.get index, scope.retained column=true → column ∈ after.get index

namespace Pruned

variable {scope : Scope} {before between after : Indexes}

lemma refl (scope : Scope) (indexes : Indexes) : Pruned scope indexes indexes :=
  fun _=>⟨Finset.Subset.refl _,fun _ hmem _=>hmem⟩

lemma trans (h : Pruned scope before between) (h' : Pruned scope between after) :
    Pruned scope before after :=
  fun index=>⟨(h' index).1.trans (h index).1,fun column hmem hretained =>
    (h' index).2 column ((h index).2 column hmem hretained) hretained⟩

lemma retire {column : Column} (h : ¬scope.retained column=true) (indexes : Indexes) :
    Pruned scope indexes (indexes.retire column) := by
  intro index
  rw [Indexes.get_retire]
  refine ⟨erase_subset _ _,fun other hmem hretained=>mem_erase.2 ⟨?_,hmem⟩⟩
  rintro rfl
  exact h hretained

lemma tracked (h : Pruned scope before after) {column : Column} (htracked : after.Tracked column) :
    before.Tracked column := by
  obtain ⟨index,hmem⟩ := htracked
  exact ⟨index,(h index).1 hmem⟩

end Pruned

def Swept (scope : Scope) (late : Column → Prop) (cursor : Option Column) (indexes : Indexes) : Prop :=
  ∀ column, indexes.Tracked column → ¬Indexes.after cursor column → scope.retained column=true ∨ late column

def Clean (scope : Scope) (late : Column → Prop) (indexes : Indexes) : Prop :=
  ∀ column, indexes.Tracked column → scope.retained column=true ∨ late column

lemma Swept.none (scope : Scope) (late : Column → Prop) (indexes : Indexes) :
    Swept scope late none indexes :=
  fun _ _ hafter=>absurd (fun _ h=>by cases h) hafter

lemma not_after_some {last column : Column} : ¬Indexes.after (some last) column ↔ column≤last := by
  rw [← not_lt]
  exact not_congr ⟨fun h=>h last rfl,fun h other heq=>by cases heq; exact h⟩

def Indexes.columns (indexes : Indexes) : Finset Column := Index.all.toFinset.biUnion indexes.get

def remaining (cursor : Option Column) (indexes : Indexes) : ℕ :=
  (indexes.columns.filter fun column=>Indexes.after cursor column).card

/-- What a poll of any number of items does to a stream. -/
structure Served (stream stream' : Stream) : Prop where
  scope : stream'.scope=stream.scope
  lastRetentionCenter : stream'.lastRetentionCenter=stream.lastRetentionCenter
  lastRetentionRadius : stream'.lastRetentionRadius=stream.lastRetentionRadius
  pruned : Pruned stream.scope stream.indexes stream'.indexes
  swept : ∀ late, Swept stream.scope late stream.retentionCursor stream.indexes →
    Swept stream.scope late stream'.retentionCursor stream'.indexes
  clean : ∀ late, Swept stream.scope late stream.retentionCursor stream.indexes →
    stream.retentionDue=true → stream'.retentionDue=false → Clean stream.scope late stream'.indexes

section Items

variable {stream : Stream} {column : Column}

lemma column_le_iff {a b : Column} : a≤b ↔ a.dimension<b.dimension ∨
    a.dimension=b.dimension ∧ (a.x<b.x ∨ a.x=b.x ∧ a.z≤b.z) := by
  change toLex (a.dimension,toLex (a.x,a.z)) ≤ toLex (b.dimension,toLex (b.x,b.z)) ↔ _
  rw [Prod.Lex.toLex_le_toLex,Prod.Lex.toLex_le_toLex]

lemma le_row_last {last : Coordinate} (h : column.z≤last) : column ≤ { column with z := last } :=
  column_le_iff.2 (.inr ⟨rfl,.inr ⟨rfl,h⟩⟩)

lemma between_row {other : Column} {last : Coordinate} (hle : column≤other)
    (hother : other ≤ { column with z := last }) :
    other = { column with z := other.z } ∧ column.z≤other.z ∧ other.z≤last := by
  rw [column_le_iff] at hle hother
  rcases hle with hlt | ⟨hdimension,hle⟩
  · rcases hother with hlt' | ⟨heq,-⟩
    · exact absurd hlt' hlt.asymm
    · exact absurd heq hlt.ne'
  · have hx : column.x≤other.x ∧ other.x ≤ column.x := by
      refine ⟨hle.elim le_of_lt fun h=>h.1.le,?_⟩
      rcases hother with hlt | ⟨-,hlt | ⟨heq,-⟩⟩
      · exact absurd hdimension hlt.ne'
      · exact hlt.le
      · exact heq.le
    have hx' := le_antisymm hx.1 hx.2
    refine ⟨?_,?_,?_⟩
    · rcases other with ⟨dimension,x,z⟩
      rw [hdimension,hx']
    · exact (hle.resolve_left hx'.not_lt).2
    · rcases hother with hlt | ⟨-,hlt | ⟨-,h⟩⟩
      · exact absurd hdimension hlt.ne'
      · exact absurd hx'.symm hlt.ne
      · exact h

lemma retentionItem_spec (h : Indexes.nextRetentionColumn stream.retentionCursor stream.indexes=some column) :
    ∃ last indexes, stream.retentionItem column =
        some { stream with retentionCursor := some last, indexes } ∧ column≤last ∧
      Pruned stream.scope stream.indexes indexes ∧
      ∀ late, Swept stream.scope late stream.retentionCursor stream.indexes →
        Swept stream.scope late (some last) indexes := by
  obtain ⟨-,-,hfirst⟩ := Indexes.nextRetentionColumn_eq_some h
  unfold Stream.retentionItem
  by_cases hretained : stream.scope.retained column=true
  · obtain ⟨first,last,hrow,hfirst',hlast,hspan⟩ := Scope.row_of_retained hretained
    refine ⟨{ column with z := last },stream.indexes,?_,?_,Pruned.refl _ _,?_⟩
    · rw [if_pos hretained,hrow]
      rfl
    · exact le_row_last hlast
    · intro late hswept other htracked hafter
      rw [not_after_some] at hafter
      by_cases hbehind : Indexes.after stream.retentionCursor other
      · obtain ⟨hother,hz,hz'⟩ := between_row (hfirst other htracked hbehind) hafter
        left
        rw [hother]
        exact hspan other.z (hfirst'.trans hz) hz'
      · exact hswept other htracked hbehind
  · refine ⟨column,stream.indexes.retire column,?_,le_rfl,Pruned.retire hretained _,?_⟩
    · rw [if_neg hretained]
    · intro late hswept other htracked hafter
      rw [not_after_some] at hafter
      have hold := (Pruned.retire hretained stream.indexes).tracked htracked
      refine hswept other hold fun hbehind=>?_
      have heq : other=column := le_antisymm hafter (hfirst other hold hbehind)
      obtain ⟨index,hmem⟩ := htracked
      rw [heq,Indexes.get_retire] at hmem
      exact absurd hmem (notMem_erase _ _)

lemma mem_tracked {indexes : Indexes} : column ∈ indexes.columns ↔ indexes.Tracked column := by
  rw [Indexes.columns,mem_biUnion]
  exact ⟨fun ⟨index,_,h⟩=>⟨index,h⟩, fun ⟨index,h⟩=>⟨index,List.mem_toFinset.2 (Indexes.mem_all index),h⟩⟩

/-- An item visits a column that no later item visits. -/
lemma remaining_lt {last : Column} {indexes : Indexes} (hle : column≤last)
    (hpruned : Pruned stream.scope stream.indexes indexes)
    (h : Indexes.nextRetentionColumn stream.retentionCursor stream.indexes=some column) :
    remaining (some last) indexes < remaining stream.retentionCursor stream.indexes := by
  obtain ⟨htracked,hafter,-⟩ := Indexes.nextRetentionColumn_eq_some h
  refine card_lt_card ((ssubset_iff_of_subset fun other hmem=>?_).2 ⟨column,?_,?_⟩)
  · obtain ⟨hother,hlater⟩ := mem_filter.1 hmem
    refine mem_filter.2 ⟨mem_tracked.2 (hpruned.tracked (mem_tracked.1 hother)),?_⟩
    intro before hbefore
    exact (hafter before hbefore).trans (hle.trans_lt (hlater last rfl))
  · exact mem_filter.2 ⟨mem_tracked.2 htracked,hafter⟩
  · intro hmem
    exact absurd hle (not_le.2 ((mem_filter.1 hmem).2 last rfl))

lemma Served.refl (h : stream.retentionDue=true) : Served stream stream where
  scope := rfl
  lastRetentionCenter := rfl
  lastRetentionRadius := rfl
  pruned := Pruned.refl _ _
  swept := fun _ hswept=>hswept
  clean := fun _ _ _ hdone=>absurd (h.symm.trans hdone) Bool.noConfusion

/-- The items of a poll always succeed, and finish a pass once there are enough of them. -/
lemma retentionItems_spec (items : ℕ) : ∀ stream : Stream, stream.retentionDue=true →
    ∃ stream', Stream.retentionItems items stream=some stream' ∧ Served stream stream' ∧
      (remaining stream.retentionCursor stream.indexes < items → stream'.retentionDue=false) := by
  induction items with
  | zero => exact fun stream hdue=>⟨stream,rfl,Served.refl hdue,fun h=>absurd h (Nat.not_lt_zero _)⟩
  | succ items ih =>
    intro stream hdue
    cases hnext : Indexes.nextRetentionColumn stream.retentionCursor stream.indexes with
    | none =>
      have hitems : Stream.retentionItems (items+1) stream =
          some { stream with retentionDue := false, retentionCursor := none } := by
        rw [Stream.retentionItems,hnext]
      refine ⟨_,hitems,⟨rfl,rfl,rfl,Pruned.refl _ _,fun late _=>Swept.none _ _ _,?_⟩,fun _=>rfl⟩
      intro late hswept _ _ other htracked
      exact hswept other htracked (Indexes.nextRetentionColumn_eq_none hnext other htracked)
    | some column =>
      obtain ⟨last,indexes,hitem,hle,hpruned,hstep⟩ := retentionItem_spec hnext
      obtain ⟨stream',hrest,hserved,hdone⟩ :=
        ih { stream with retentionCursor := some last, indexes } hdue
      have hitems : Stream.retentionItems (items+1) stream=some stream' := by
        rw [Stream.retentionItems,hnext]
        change (stream.retentionItem column).bind _=_
        rw [hitem]
        exact hrest
      refine ⟨stream',hitems,⟨hserved.scope,hserved.lastRetentionCenter,
        hserved.lastRetentionRadius,hpruned.trans hserved.pruned,?_,?_⟩,fun hlt=>hdone ?_⟩
      · exact fun late hswept=>hserved.swept late (hstep late hswept)
      · exact fun late hswept=>hserved.clean late (hstep late hswept)
      · have hless := remaining_lt hle hpruned hnext
        dsimp only
        omega

end Items

section Runs

variable {ledger : Ledger}

/-- Polls and what comes between them keep a pass and its cursor in step. -/
structure Ledger.InStep (ledger : Ledger) : Prop where
  swept : ledger.2.steady=true → Swept ledger.2.scope ledger.2.late ledger.1.retentionCursor ledger.1.indexes
  /-- A pass at work is of the last centre and radius, unless these were forgotten. -/
  centre : ledger.1.retentionCursor≠none → ledger.1.lastRetentionCenter≠none →
    ledger.1.lastRetentionCenter=some ledger.2.scope.centre ∧ ledger.1.lastRetentionRadius=ledger.2.scope.gridRadius
  /-- Only an unconfirmed radius can move without a new pass. -/
  steady : ledger.2.scope.confirmed=true → ledger.2.steady=true

lemma Stream.not_changed {stream : Stream} (h : ¬stream.Changed) : stream.lastRetentionCenter=some stream.scope.centre ∧
      stream.lastRetentionRadius=stream.scope.gridRadius := by
  unfold Changed at h
  simpa only [not_or,not_not] using h

lemma Scope.eq_of_gridRadius {a b : Scope} (hconfirmed : a.confirmed=true)
    (hcentre : a.centre=b.centre) (hradius : a.gridRadius=b.gridRadius) : a=b := by
  unfold gridRadius at hradius
  rw [if_pos hconfirmed] at hradius
  split at hradius
  · rename_i hconfirmed'
    rcases a with ⟨centre,radius,hle,confirmed⟩
    rcases b with ⟨centre',radius',hle',confirmed'⟩
    dsimp only at *
    cases Option.some.inj hradius
    rw [hcentre,hconfirmed,hconfirmed']
  · cases hradius

variable {stream : Stream}

lemma Stream.restarted_eq (h : stream.Active) :
    stream.restarted.scope=stream.scope ∧ stream.restarted.indexes=stream.indexes ∧ stream.restarted.retentionDue=true ∧
      stream.restarted.lastRetentionCenter=some stream.scope.centre ∧
      stream.restarted.lastRetentionRadius=stream.scope.gridRadius := by
  unfold restarted
  by_cases hchanged : stream.Changed
  · rw [if_pos hchanged]
    exact ⟨rfl,rfl,rfl,rfl,rfl⟩
  · rw [if_neg hchanged]
    exact ⟨rfl,rfl,h.2.resolve_left hchanged,not_changed hchanged⟩

/-- A poll that resumes a pass found its centre and radius. -/
lemma Stream.restarted_of_cursor (h : stream.restarted.retentionCursor≠none) :
    stream.restarted=stream ∧ ¬stream.Changed := by
  unfold restarted at h ⊢
  by_cases hchanged : stream.Changed
  · rw [if_pos hchanged] at h
    exact absurd rfl h
  · exact ⟨if_neg hchanged,hchanged⟩

lemma Ledger.InStep.restarted (h : InStep ledger) (hactive : ledger.1.Active) :
    InStep (ledger.1.restarted,ledger.2.polled ledger.1) ∧
      ((ledger.2.polled ledger.1).steady=true → (ledger.2.polled ledger.1).scope=ledger.1.scope) ∧
      (ledger.1.scope.confirmed=true → (ledger.2.polled ledger.1).steady=true) ∧
      ledger.1.restarted.lastRetentionCenter=some (ledger.2.polled ledger.1).scope.centre ∧
      ledger.1.restarted.lastRetentionRadius = (ledger.2.polled ledger.1).scope.gridRadius := by
  obtain ⟨-,-,-,hcentre,hradius⟩ := Stream.restarted_eq hactive
  unfold Pass.polled
  rw [if_pos hactive]
  by_cases hcursor : ledger.1.restarted.retentionCursor=none
  · rw [if_pos hcursor]
    refine ⟨⟨fun _=>?_,fun hresumed=>absurd hcursor hresumed,fun _=>rfl⟩,fun _=>rfl, fun _=>rfl,hcentre,hradius⟩
    rw [hcursor]
    exact Swept.none _ _ _
  · rw [if_neg hcursor]
    obtain ⟨heq,-⟩ := Stream.restarted_of_cursor hcursor
    rw [heq] at hcentre hradius hcursor ⊢
    obtain ⟨hcentre',hradius'⟩ := h.centre hcursor (by rw [hcentre]; exact Option.some_ne_none _)
    have hcentres := Option.some.inj (hcentre.symm.trans hcentre')
    have hradii := hradius.symm.trans hradius'
    have hsteady (hscope : ledger.1.scope=ledger.2.scope) (hpass : ledger.2.steady=true) :
        (ledger.2.steady && ledger.1.scope=ledger.2.scope) = true := by
      rw [hpass,decide_eq_true hscope]
      rfl
    refine ⟨⟨fun hsteady=>?_,fun _ _=>⟨hcentre',hradius'⟩,fun hpass=>?_⟩,fun hsteady=>?_,
      fun hconfirmed=>?_,hcentre',hradius'⟩
    · exact h.swept (Bool.and_eq_true_iff.1 hsteady).1
    · exact hsteady (Scope.eq_of_gridRadius hpass hcentres.symm hradii.symm).symm (h.steady hpass)
    · exact (of_decide_eq_true (Bool.and_eq_true_iff.1 hsteady).2).symm
    · have hscope := Scope.eq_of_gridRadius hconfirmed hcentres hradii
      exact hsteady hscope (h.steady (hscope ▸ hconfirmed))

lemma Ledger.InStep.poll (h : InStep ledger) (items : ℕ) :
    ∃ stream, ledger.1.reevaluateChunkRetention items=some stream ∧ InStep (stream,ledger.2.polled ledger.1) ∧
      Pruned ledger.1.scope ledger.1.indexes stream.indexes ∧
      (ledger.1.Active → stream.retentionDue=false →
        ledger.1.scope.confirmed=true ∨ (ledger.2.polled ledger.1).steady=true →
          Clean ledger.1.scope (ledger.2.polled ledger.1).late stream.indexes) ∧
      (ledger.1.Active → ledger.1.indexes.columns.card < items → stream.retentionDue=false) := by
  unfold Stream.reevaluateChunkRetention
  by_cases hactive : ledger.1.Active
  · rw [if_pos hactive]
    obtain ⟨hscope,hindexes,hdue,-,-⟩ := Stream.restarted_eq hactive
    obtain ⟨hinstep,hsame,hconfirmed,hcentre,hradius⟩ := h.restarted hactive
    obtain ⟨stream,hitems,hserved,hdone⟩ := retentionItems_spec items ledger.1.restarted hdue
    have hpruned := hserved.pruned
    rw [hscope,hindexes] at hpruned
    refine ⟨stream,hitems,⟨fun hsteady=>?_,fun _ _=>?_,hinstep.steady⟩,hpruned,
      fun _ hfinished hsteady=>?_,fun _ hlt=>hdone ?_⟩
    · have hswept := hinstep.swept hsteady
      rw [hsame hsteady,← hscope] at hswept ⊢
      exact hserved.swept _ hswept
    · exact ⟨hserved.lastRetentionCenter.trans hcentre,hserved.lastRetentionRadius.trans hradius⟩
    · have hsteady' := hsteady.elim hconfirmed id
      have hswept := hinstep.swept hsteady'
      rw [hsame hsteady',← hscope] at hswept
      rw [← hscope]
      exact hserved.clean _ hswept hdue hfinished
    · refine lt_of_le_of_lt ?_ hlt
      rw [hindexes]
      exact card_le_card (filter_subset _ _)
  · rw [if_neg hactive]
    have hpass : ledger.2.polled ledger.1=ledger.2 := if_neg hactive
    rw [hpass]
    exact ⟨ledger.1,rfl,h,Pruned.refl _ _,fun hyes=>absurd hyes hactive, fun hyes=>absurd hyes hactive⟩

lemma Ledger.InStep.run (h : InStep ledger) (event : Event) :
    ∃ ledger', event.run ledger=some ledger' ∧ InStep ledger' := by
  cases event with
  | poll items =>
    obtain ⟨stream,hpoll,hinstep,-⟩ := h.poll items
    refine ⟨_,?_,hinstep⟩
    change Option.map _ (ledger.1.reevaluateChunkRetention items) = _
    rw [hpoll]
    rfl
  | change indexes scope =>
    refine ⟨_,rfl,fun hsteady column htracked hbehind=>?_,h.centre,h.steady⟩
    by_cases hold : ledger.1.indexes.Tracked column
    · exact (h.swept hsteady column hold hbehind).imp_right .inl
    · exact .inr (.inr ⟨htracked,hold,hbehind⟩)
  | requestRetention => exact ⟨_,rfl,h.swept,h.centre,h.steady⟩
  | rebase => exact ⟨_,rfl,fun _=>Swept.none _ _ _,fun hresumed=>absurd rfl hresumed,h.steady⟩
  | forget => exact ⟨_,rfl,h.swept,fun _ hknown=>absurd rfl hknown,h.steady⟩

lemma Ledger.inStep_runAll (scope : Scope) (events : List Event) :
    ∃ ledger, Event.runAll events (new scope) = some ledger ∧ InStep ledger := by
  have hrun : ∀ (events : List Event) (ledger : Ledger), InStep ledger →
      ∃ ledger', Event.runAll events ledger=some ledger' ∧ InStep ledger' := by
    intro events
    induction events with
    | nil => exact fun ledger h=>⟨ledger,rfl,h⟩
    | cons event events ih =>
      intro ledger h
      obtain ⟨between,hevent,hbetween⟩ := h.run event
      obtain ⟨ledger',hrest,h'⟩ := ih between hbetween
      refine ⟨ledger',?_,h'⟩
      unfold Event.runAll at hrest ⊢
      rw [List.foldlM_cons,hevent]
      exact hrest
  exact hrun events _ ⟨fun _=>Swept.none _ _ _,fun hresumed=>absurd rfl hresumed,fun _=>rfl⟩

end Runs

/-- Across any run, a poll's retained rows are found; it takes no retained column from an index, and
adds none.  When it finishes a pass of one view, every tracked column is retained or came late, and
a poll long enough does finish.  A scan yields the columns that enter a disk, each once. -/
theorem retention_exact :
    (∀ (scope : Scope) (events : List Event), ∃ ledger, Event.runAll events (Ledger.new scope) = some ledger ∧
      ∀ items, ∃ stream, ledger.1.reevaluateChunkRetention items = some stream ∧
        (∀ index, stream.indexes.get index ⊆ ledger.1.indexes.get index ∧
          ∀ column ∈ ledger.1.indexes.get index, ledger.1.scope.retained column = true →
            column ∈ stream.indexes.get index) ∧
        (ledger.1.Active → stream.retentionDue=false →
          ledger.1.scope.confirmed=true ∨ (ledger.2.polled ledger.1).steady = true →
            ∀ column, stream.indexes.Tracked column →
              ledger.1.scope.retained column = true ∨ (ledger.2.polled ledger.1).late column) ∧
        (ledger.1.Active → ledger.1.indexes.columns.card < items → stream.retentionDue=false)) ∧
    ∀ (disk : Disk) (previous : Option Disk), (EnteringColumns.new disk previous).collect.Nodup ∧
      ∀ column, column ∈ (EnteringColumns.new disk previous).collect ↔
        disk.contains column = true ∧ ∀ old, previous = some old → old.contains column = false := by
  refine ⟨fun scope events => ?_,EnteringColumns.mem_collect_new⟩
  obtain ⟨ledger,hrun,hinstep⟩ := Ledger.inStep_runAll scope events
  refine ⟨ledger,hrun,fun items => ?_⟩
  obtain ⟨stream,hpoll,-,hpruned,hclean,hdone⟩ := hinstep.poll items
  exact ⟨stream,hpoll,hpruned,hclean,hdone⟩

def originScope : Scope := ⟨⟨0,saturate 0,saturate 0⟩,0,Nat.zero_le _,true⟩

def loadedAt (x : ℤ) : Indexes := { Indexes.empty with loadedColumns := {⟨0,saturate x,saturate 0⟩} }

/-- A poll retires the column at 200, another arrives at 100, and the pass finishes without it. -/
theorem passed_column_stays : ∃ ledger stream,
    Event.runAll [.change (loadedAt 200) originScope,.poll 1,.change (loadedAt 100) originScope]
      (Ledger.new originScope) = some ledger ∧
    ledger.1.scope=originScope ∧ ledger.1.Active ∧
      ledger.1.reevaluateChunkRetention 1=some stream ∧ stream.retentionDue=false ∧
      stream.indexes.Tracked ⟨0,saturate 100,saturate 0⟩ ∧
      originScope.retained ⟨0,saturate 100,saturate 0⟩ = false := by
  refine ⟨_,_,rfl,rfl,?_,rfl,?_,?_,?_⟩
  · decide
  · decide
  · exact ⟨.loadedColumns,by decide⟩
  · decide

end Cinnabar.Residency
