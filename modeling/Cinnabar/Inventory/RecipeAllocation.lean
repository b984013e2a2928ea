import Cinnabar.Inventory.Crafting

/-! # Allocating held stacks to a recipe -/

namespace Cinnabar.Inventory

inductive Cell where
  | craft (slot : ℕ)
  | inventory (slot : ℕ)
deriving DecidableEq

structure NetworkItemStack where
  networkId : ℤ
  metadata : UInt32
  blockRuntimeId : ℤ
  extraData : List UInt8
  count : UInt16
  stackNetworkId : ℤ
deriving DecidableEq

structure ItemRegistryEntry (Facts : Type) where
  identifier : String
  itemTags : List String
  facts : Facts

structure RecipeIngredientView where
  name : String
  tag : Bool
  aux : UInt16
  count : UInt8
deriving DecidableEq

/-- What the allocation asks of the item data: tags, stack capacities and user data equality. -/
structure ItemData (Facts : Type) where
  vanillaTagContains : String → String → Option Bool
  entryCapacity : ItemRegistryEntry Facts → Option UInt8
  itemUserDataEqual : List UInt8 → List UInt8 → Option Bool

structure Source where
  cell : Cell
  amount : ℕ
  id : ℤ
deriving DecidableEq

abbrev IngredientSources := List Source

structure Variant (Facts : Type) where
  stack : NetworkItemStack
  entry : ItemRegistryEntry Facts
  capacity : ℕ
  sources : IngredientSources
  total : ℕ

structure RecipeAllocation (Facts : Type) where
  variants : List (Variant Facts)
  counts : List ℕ
  accepts : List (List ℕ)

section Inputs

variable {Facts : Type} (data : ItemData Facts)

def sameItem (a b : NetworkItemStack) : Bool :=
  a.networkId=b.networkId && a.metadata=b.metadata && a.blockRuntimeId=b.blockRuntimeId &&
    data.itemUserDataEqual a.extraData b.extraData=some true

def pushSource (cell : Cell) (stack : NetworkItemStack) (entry : ItemRegistryEntry Facts) :
    List (Variant Facts) → List (Variant Facts)
  | [] =>
    [{ stack := stack
       entry := entry
       capacity := (data.entryCapacity entry).elim 0 UInt8.toNat
       sources := [⟨cell,stack.count.toNat,stack.stackNetworkId⟩]
       total := stack.count.toNat }]
  | variant::variants =>
    if sameItem data variant.stack stack then
      { variant with
        sources := variant.sources ++ [⟨cell,stack.count.toNat,stack.stackNetworkId⟩]
        total := variant.total+stack.count.toNat } :: variants
    else variant::pushSource cell stack entry variants

/-- `RecipeInputs::new`, over the cells whose stack is usable. -/
def recipeInputs (usable : List (Cell × NetworkItemStack × ItemRegistryEntry Facts)) :
    List (Variant Facts) :=
  usable.foldl (fun variants source=>pushSource data source.1 source.2.1 source.2.2 variants) []

def ingredientAccepts (ingredient : RecipeIngredientView) (identifier : String)
    (metadata : UInt32) (tags : List String) : Bool :=
  if ingredient.tag then
    tags.any (· = ingredient.name) || data.vanillaTagContains ingredient.name identifier=some true
  else ingredient.name=identifier && (ingredient.aux=recipeAnyAux || ingredient.aux.toUInt32=metadata)

def Variant.accepts (variant : Variant Facts) (ingredient : RecipeIngredientView) : Bool :=
  ingredientAccepts data ingredient variant.entry.identifier variant.stack.metadata variant.entry.itemTags

def allocation (variants : List (Variant Facts)) (layout : List (Option RecipeIngredientView)) :
    RecipeAllocation Facts where
  variants := variants
  counts := layout.map fun view=>view.elim 0 fun view=>view.count.toNat
  accepts := layout.map fun view =>
    variants.zipIdx.filterMap fun variant =>
      if view.any (variant.1.accepts data) then some variant.2 else none

end Inputs

/-- A canonical capacity multiset for the remaining cells; a mask is the set of its bits. -/
structure SearchState where
  cells : Finset ℕ
  missing : ℕ
  capacities : Multiset (Finset ℕ × ℕ)
deriving DecidableEq

structure Search where
  accepts : List (List ℕ)
  demands : List ℕ
  compatible : List (Finset ℕ)
  visited : List SearchState
  remaining : List ℕ
  assigned : List (Option ℕ)
  order : List ℕ

/-- The first item of the least key. -/
def minByKey (key : ℕ → ℕ) : List ℕ → Option ℕ
  | [] => none
  | item::items =>
    match minByKey key items with
    | none => some item
    | some least => if key item≤key least then some item else some least

namespace Search

variable (search : Search)

def demand (cell : ℕ) : ℕ := search.demands.getD cell 0

def mask (variant : ℕ) : Finset ℕ := search.compatible.getD variant ∅

def supply (variant : ℕ) : ℕ := search.remaining.getD variant 0

/-- The slots that still need assignment. -/
def open_ (first : ℕ) : List ℕ := search.order.drop first

/-- The variants as bins: which slots each may fill, and what is left of it. -/
def bins : List (Finset ℕ × ℕ) := search.compatible.zip search.remaining

def state (first missing : ℕ) : SearchState :=
  let cells := (search.open_ first).toFinset
  { cells := cells
    missing := missing
    capacities := ((search.bins.filterMap fun bin =>
      if (bin.1 ∩ cells).Nonempty then some (bin.1 ∩ cells,bin.2) else none : List _) : Multiset _) }

variable (cell variant : ℕ)

def fits : Bool :=
  search.demand cell ≤ search.supply variant && cell ∈ search.mask variant

def choices (cell : ℕ) : List ℕ :=
  (search.accepts.getD cell []).filter (search.fits cell)

variable (cells : List ℕ)

/-- Slots that no single variant can fill. -/
def impossible : ℕ :=
  (cells.filter fun cell=>0 < search.demand cell && (search.choices cell).isEmpty).length

/-- Slots of at least this demand whose variants all fit this slot too. -/
def shared (cell : ℕ) : ℕ :=
  (cells.filter fun other=>search.demand cell ≤ search.demand other &&
    search.compatible.all fun mask=>other ∉ mask || cell ∈ mask).length

/-- How many such demands the slot's variants hold. -/
def portions (cell : ℕ) : ℕ :=
  ((search.bins.filter fun bin=>cell ∈ bin.1).map fun bin=>bin.2/search.demand cell).sum

/-- What the slots need, without the largest `missing`. -/
def needed (missing : ℕ) : ℕ :=
  (((cells.map search.demand).mergeSort fun a b=>b≤a).drop missing).sum

/-- What the variants hold that fit some slot. -/
def available : ℕ :=
  ((search.remaining.zipIdx.filter fun supply =>
    cells.any fun cell =>
      supply.2 ∈ search.accepts.getD cell [] && search.fits cell supply.2).map Prod.fst).sum

def remainingCapacityFits (first missing : ℕ) : Bool :=
  let cells := search.open_ first
  if missing < search.impossible cells then false
  else if cells.any fun cell=>0 < search.demand cell &&
      search.portions cell < search.shared cells cell-missing then false
  else search.needed cells missing ≤ search.available cells

/-- The open slot with the fewest choices. -/
def next (first : ℕ) : ℕ :=
  (minByKey (fun index=>(search.choices (search.order.getD index 0)).length)
    (List.range' first (search.order.length-first))).getD first

def swap (first other : ℕ) : Search :=
  { search with
    order := (search.order.set first (search.order.getD other 0)).set other (search.order.getD first 0) }

def take : Search :=
  { search with
    remaining := search.remaining.set variant (search.supply variant-search.demand cell)
    assigned := search.assigned.set cell (some variant) }

def restore : Search :=
  { search with
    remaining := search.remaining.set variant (search.supply variant+search.demand cell)
    assigned := search.assigned.set cell none }

/-- Tries the variants of a slot; one with the same slots and supply as an earlier is no choice. -/
def tryVariants (assign : Search → Bool × Search) (cell : ℕ) (cells : Finset ℕ) :
    List (Finset ℕ × ℕ) → List ℕ → Search → Bool × Search
  | _, [], search => (false,search)
  | tried, variant::variants, search =>
    if !search.fits cell variant then tryVariants assign cell cells tried variants search
    else if (search.mask variant ∩ cells,search.supply variant) ∈ tried then
      tryVariants assign cell cells tried variants search
    else
      match assign (search.take cell variant) with
      | (true,found) => (true,found)
      | (false,failed) =>
        tryVariants assign cell cells (tried ++ [(search.mask variant ∩ cells,search.supply variant)]) variants
          (failed.restore cell variant)

/-- Assigns the last `left` slots of the order, `missing` of which may stay empty. -/
def assign : ℕ → ℕ → Search → Bool × Search
  | 0, _, search => (true,search)
  | left+1, missing, search =>
    let first := search.demands.length - (left+1)
    if !search.remainingCapacityFits first missing then (false,search)
    else
      let state := search.state first missing
      if state ∈ search.visited then (false,search)
      else
        let next := search.next first
        let search := { search with visited := state::search.visited }.swap first next
        let cell := search.order.getD first 0
        if search.demand cell=0 then
          match assign left missing search with
          | (complete,search) => (complete,search.swap first next)
        else
          match search.tryVariants (assign left missing) cell state.cells []
              (search.accepts.getD cell []) with
          | (true,search) => (true,search)
          | (false,search) =>
            if 0 < missing then
              match assign left (missing-1) search with
              | (complete,search) => (complete,search.swap first next)
            else (false,search.swap first next)

end Search

namespace RecipeAllocation

variable {Facts : Type} (allocation : RecipeAllocation Facts)

/-- Retains each variant's eligible slots, including physical stack limits when placing. -/
def search (crafts : UInt8) (inGrid : Bool) : Search :=
  let demands := allocation.counts.map fun count=>count*crafts.toNat
  { accepts := allocation.accepts
    demands := demands
    compatible := allocation.variants.zipIdx.map fun input =>
      (Finset.range allocation.accepts.length).filter fun cell =>
        0<demands.getD cell 0 ∧ input.2 ∈ allocation.accepts.getD cell [] ∧
          (inGrid=false ∨ demands.getD cell 0 ≤ input.1.capacity)
    visited := []
    remaining := allocation.variants.map Variant.total
    assigned := List.replicate allocation.counts.length none
    order := List.range allocation.counts.length }

def assign (crafts : UInt8) (inGrid : Bool) (missing : ℕ) : Option (List (Option ℕ)) :=
  match (allocation.search crafts inGrid).assign allocation.counts.length missing with
  | (true,search) => some search.assigned
  | (false,_) => none

def draw : ℕ → IngredientSources → IngredientSources × IngredientSources
  | _, [] => ([],[])
  | needed, source::sources =>
    let amount := min needed source.amount
    let (drawn,left) := draw (needed-amount) sources
    (if 0<amount then ⟨source.cell,amount,source.id⟩ :: drawn else drawn,
      { source with amount := source.amount-amount } :: left)

/-- Draws each assigned slot's full demand from its variant, without reusing quantities. -/
def drawAll (crafts : UInt8) :
    List (Option ℕ × ℕ) → List IngredientSources → List IngredientSources
  | [], _ => []
  | (none,_) :: slots, variants => [] :: drawAll crafts slots variants
  | (some variant,count) :: slots, variants =>
    let (drawn,left) := draw (count*crafts.toNat) (variants.getD variant [])
    drawn::drawAll crafts slots (variants.set variant left)

def sources (crafts : UInt8) (assigned : List (Option ℕ)) : List IngredientSources :=
  drawAll crafts (assigned.zip allocation.counts) (allocation.variants.map Variant.sources)

def plan (crafts : UInt8) (inGrid : Bool) : Option (List IngredientSources) :=
  (allocation.assign crafts inGrid 0).map (allocation.sources crafts)

/-- Places one craft's worth in as many cells as possible. -/
def partialPlan : List IngredientSources :=
  let filled := (allocation.counts.filter (0 < ·)).length
  (((List.range' 1 filled).findSome? (allocation.assign 1 true)).map
    (allocation.sources 1)).getD (List.replicate allocation.counts.length [])

end RecipeAllocation

end Cinnabar.Inventory
