import Mathlib

/-! # Matching a recipe to the crafting grid -/

namespace Cinnabar.Inventory

/-- The auxiliary value that stands for any metadata. -/
def recipeAnyAux : UInt16 := 0x7fff

structure Ingredient where
  name : String
  tag : Bool
  aux : UInt16
  count : UInt8
deriving DecidableEq

/-- Row-major shaped cells, or the shapeless ingredient list. -/
structure Recipe where
  ingredients : List (Option Ingredient)
deriving DecidableEq

structure CraftGridCell where
  identifier : String
  metadata : UInt32
  count : UInt16
  tags : List String
deriving DecidableEq

inductive InventoryGestureError where
  | invalidRequest
deriving DecidableEq

def Ingredient.acceptsMetadata (ingredient : Ingredient) (metadata : UInt32) : Bool :=
  ingredient.aux=recipeAnyAux || ingredient.aux.toUInt32=metadata

/-- `u16::checked_mul` -/
def checkedMulU16 (a b : UInt16) : Option UInt16 :=
  if a.toNat*b.toNat<65536 then some (a*b) else none

/-- The ingredients proper, empty shape cells skipped. -/
def Recipe.flat (recipe : Recipe) : List Ingredient := recipe.ingredients.filterMap id

def Recipe.ingredientCounts (recipe : Recipe) : List UInt8 := recipe.flat.map Ingredient.count

section Accepting

-- The pinned table says whether a known vanilla tag contains an identifier.
variable (vanillaTagContains : String → String → Option Bool)

/-- An unknown tag that the item does not declare fails closed. -/
def accepts (ingredient : Ingredient) (item : CraftGridCell) (crafts : UInt16) : Bool :=
  let kind := if ingredient.tag then
      item.tags.any (· = ingredient.name) ||
        vanillaTagContains ingredient.name item.identifier=some true
    else ingredient.name=item.identifier && ingredient.acceptsMetadata item.metadata
  kind && (checkedMulU16 ingredient.count.toUInt16 crafts).any fun needed=>needed ≤ item.count

def recipeIngredientAccepts (recipe : Recipe) (index : ℕ) (item : CraftGridCell)
    (crafts : UInt8) : Bool :=
  recipe.flat[index]?.any fun ingredient =>
    accepts vanillaTagContains ingredient item crafts.toUInt16

end Accepting

structure IngredientMatcher where
  vanillaTagContains : String → String → Option Bool
  recipe : Recipe
  cells : List (Option CraftGridCell)
  crafts : UInt8
  counts : List UInt8

/-- Which ingredient claims each cell, and the cells an augmentation has visited. -/
structure Visit where
  occupied : List (Option ℕ)
  seen : List Bool
deriving DecidableEq

namespace Visit

variable (visit : Visit) (cell : ℕ)

def claim : Option ℕ := visit.occupied.getD cell none

def saw : Bool := visit.seen.getD cell false

def mark : Visit := { visit with seen := visit.seen.set cell true }

def occupy (ingredient : ℕ) : Visit :=
  { visit with occupied := visit.occupied.set cell (some ingredient) }

end Visit

namespace IngredientMatcher

variable (matcher : IngredientMatcher)

def acceptsCell (ingredient cell : ℕ) : Bool :=
  (matcher.cells.getD cell none).any fun grid =>
    recipeIngredientAccepts matcher.vanillaTagContains matcher.recipe ingredient grid matcher.crafts

/-- The amounts an ingredient takes do not fit one request. -/
def exceeds (ingredient : ℕ) : Bool :=
  255 < (matcher.counts.getD ingredient 0).toUInt16*matcher.crafts.toUInt16

/-- One pass over the cells: free ones first, then claimed ones whose claim can move. -/
def visitCells (assign : ℕ → Visit → Bool × Visit) (ingredient : ℕ) (moveAssigned : Bool) :
    List ℕ → Visit → Bool × Visit
  | [], visit => (false,visit)
  | cell::cells, visit =>
    if visit.saw cell || (visit.claim cell).isSome != moveAssigned ||
        !matcher.acceptsCell ingredient cell then
      visitCells assign ingredient moveAssigned cells visit
    else
      let visit := visit.mark cell
      match visit.claim cell with
      | none => (true,visit.occupy cell ingredient)
      | some previous =>
        match assign previous visit with
        | (true,visit) => (true,visit.occupy cell ingredient)
        | (false,visit) => visitCells assign ingredient moveAssigned cells visit

/-- Augments the matching through claimed cells; every nested call has one cell less to visit. -/
def assign : ℕ → ℕ → Visit → Bool × Visit
  | 0, _, visit => (false,visit)
  | turns+1, ingredient, visit =>
    if matcher.exceeds ingredient then (false,visit)
    else
      match matcher.visitCells (assign turns) ingredient false
          (List.range matcher.cells.length) visit with
      | (true,visit) => (true,visit)
      | (false,visit) =>
        matcher.visitCells (assign turns) ingredient true (List.range matcher.cells.length) visit

/-- Places the ingredients in order, each with no cell visited yet. -/
def assignAll : List ℕ → List (Option ℕ) → Option (List (Option ℕ))
  | [], occupied => some occupied
  | ingredient::ingredients, occupied =>
    match matcher.assign (matcher.cells.length+1) ingredient
        ⟨occupied,List.replicate matcher.cells.length false⟩ with
    | (true,visit) => assignAll ingredients visit.occupied
    | (false,_) => none

end IngredientMatcher

/-- The cell of each ingredient, read off the claims. -/
def cellsOf (count : ℕ) (occupied : List (Option ℕ)) : List ℕ :=
  occupied.zipIdx.foldl (fun assignment claim =>
      match claim.1 with
      | some ingredient => assignment.set ingredient claim.2
      | none => assignment)
    (List.replicate count 0)

section Crafting

variable (vanillaTagContains : String → String → Option Bool) (recipe : Recipe)

/-- Finds a complete ingredient assignment, broad matches moving for specific ones. -/
def ingredientAssignment (cells : List (Option CraftGridCell)) (crafts : UInt8) :
    Option (List ℕ) :=
  let matcher : IngredientMatcher := ⟨vanillaTagContains,recipe,cells,crafts,recipe.ingredientCounts⟩
  (matcher.assignAll (List.range matcher.counts.length)
    (List.replicate cells.length none)).map (cellsOf matcher.counts.length)

/-- Halves the range of craft counts while it holds more than one. -/
def searchCrafts (cells : List (Option CraftGridCell)) : ℕ → UInt8 → UInt8 → UInt8
  | 0, low, _ => low
  | turns+1, low, high =>
    if low<high then
      let middle := low + ((high-low) / 2 + (high-low) % 2)
      if (ingredientAssignment vanillaTagContains recipe cells middle).isSome then
        searchCrafts cells turns middle high
      else searchCrafts cells turns low (middle-1)
    else low

/-- How many times the presented grid can craft the recipe at once. -/
def maxCrafts (grid : Option (List (Option CraftGridCell))) :
    Except InventoryGestureError UInt8 :=
  match grid with
  | none => .error .invalidRequest
  | some cells =>
    let low := searchCrafts vanillaTagContains recipe cells 255 0 255
    if low=0 then .error .invalidRequest else .ok low

end Crafting

end Cinnabar.Inventory
