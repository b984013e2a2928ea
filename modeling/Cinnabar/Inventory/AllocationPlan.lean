import Cinnabar.Inventory.AllocationSearch

/-! # Complete allocations and what they draw -/

namespace Cinnabar.Inventory

open RecipeAllocation List

section Drawing

def drawnFrom (cell : Cell) (sources : IngredientSources) : ℕ :=
  ((sources.filter fun source=>source.cell=cell).map Source.amount).sum

def amounts (sources : IngredientSources) : ℕ := (sources.map Source.amount).sum

/-- A source drawn from, whatever the amount. -/
def Source.place (source : Source) : Cell × ℤ := (source.cell,source.id)

variable {needed : ℕ} {sources : IngredientSources} {cell : Cell}

lemma drawnFrom_cons {source : Source} : drawnFrom cell (source::sources) =
    (if source.cell=cell then source.amount else 0) + drawnFrom cell sources := by
  unfold drawnFrom
  split <;> simp_all

lemma drawnFrom_append {others : IngredientSources} :
    drawnFrom cell (sources++others) = drawnFrom cell sources+drawnFrom cell others := by
  unfold drawnFrom
  rw [filter_append,map_append,sum_append]

structure Drawn (needed : ℕ) (sources : IngredientSources)
    (result : IngredientSources × IngredientSources) : Prop where
  amount : amounts result.1=min needed (amounts sources)
  left : amounts result.1+amounts result.2=amounts sources
  cells : ∀ cell, drawnFrom cell result.1+drawnFrom cell result.2=drawnFrom cell sources
  places : result.2.map Source.place=sources.map Source.place
  drawn : ∀ source ∈ result.1, source.place ∈ sources.map Source.place

lemma draw_spec : Drawn needed sources (draw needed sources) := by
  induction sources generalizing needed with
  | nil =>
    exact ⟨(Nat.min_zero _).symm,rfl,fun _=>rfl,rfl,fun _ h=>absurd h not_mem_nil⟩
  | cons source sources ih =>
    have hrest : Drawn (needed-min needed source.amount) sources (draw (needed-min needed source.amount) sources) := ih
    obtain ⟨hamount,hleft,hcells,hplaces,hdrawn⟩ := hrest
    rw [draw]
    generalize draw (needed-min needed source.amount) sources=rest at *
    obtain ⟨drawn,left⟩ := rest
    dsimp only at *
    have htake : amounts (if 0 < min needed source.amount then
        ⟨source.cell,min needed source.amount,source.id⟩ :: drawn else drawn) =
        min needed source.amount+amounts drawn := by
      split
      · rfl
      · omega
    have hsum : ∀ rest, amounts (source::rest) = source.amount+amounts rest := fun _=>rfl
    have hrest : amounts ({ source with amount := source.amount-min needed source.amount } ::
        left) = source.amount-min needed source.amount+amounts left := rfl
    constructor
    · rw [htake,hsum,hamount]
      omega
    · rw [htake,hrest,hsum]
      omega
    · intro cell
      have hcell := hcells cell
      rw [drawnFrom_cons,drawnFrom_cons]
      dsimp only
      split
      · rw [drawnFrom_cons]
        dsimp only
        split <;> omega
      · split <;> omega
    · rw [map_cons,map_cons,hplaces]
      rfl
    · intro other hmem
      rw [map_cons,mem_cons]
      split at hmem
      · rcases mem_cons.1 hmem with rfl | hmem
        · exact .inl rfl
        · exact .inr (hdrawn other hmem)
      · exact .inr (hdrawn other hmem)

end Drawing

section DrawingAll

variable {crafts : UInt8} {slots : List (Option ℕ × ℕ)} {pools : List IngredientSources}

def takenFrom (crafts : UInt8) (variant : ℕ) (slots : List (Option ℕ × ℕ)) : ℕ :=
  ((slots.filter fun slot=>slot.1=some variant).map fun slot=>slot.2*crafts.toNat).sum

lemma takenFrom_cons {slot : Option ℕ × ℕ} {variant : ℕ} : takenFrom crafts variant (slot::slots) =
      (if slot.1=some variant then slot.2*crafts.toNat else 0) +
        takenFrom crafts variant slots := by
  unfold takenFrom
  split <;> simp_all

def poolOf (pools : List IngredientSources) (variant : ℕ) : IngredientSources :=
  pools.getD variant []

lemma poolOf_set {variant other : ℕ} {left : IngredientSources} (h : variant<pools.length) :
    poolOf (pools.set variant left) other =
      if variant=other then left else poolOf pools other := by
  unfold poolOf
  rw [List.getD_eq_getElem?_getD,List.getD_eq_getElem?_getD,List.getElem?_set]
  split
  · rfl
  · rfl

lemma drawnFrom_flatten_set {variant : ℕ} (cell : Cell) (left : IngredientSources) (h : variant<pools.length) :
    drawnFrom cell (pools.set variant left).flatten+drawnFrom cell (poolOf pools variant) =
      drawnFrom cell pools.flatten+drawnFrom cell left := by
  induction pools generalizing variant with
  | nil => exact absurd h (Nat.not_lt_zero _)
  | cons pool pools ih =>
    cases variant with
    | zero =>
      change drawnFrom cell (left++pools.flatten) + drawnFrom cell pool =
        drawnFrom cell (pool++pools.flatten) + drawnFrom cell left
      rw [drawnFrom_append,drawnFrom_append]
      omega
    | succ variant =>
      have hrest := ih (Nat.lt_of_succ_lt_succ h)
      change drawnFrom cell (pool ++ (pools.set variant left).flatten) + drawnFrom cell (poolOf pools variant) =
        drawnFrom cell (pool++pools.flatten) + drawnFrom cell left
      rw [drawnFrom_append,drawnFrom_append]
      omega

lemma drawAll_spec (hvariants : ∀ slot ∈ slots, ∀ variant, slot.1=some variant → variant<pools.length)
    (henough : ∀ variant, takenFrom crafts variant slots≤amounts (poolOf pools variant)) :
    (drawAll crafts slots pools).length=slots.length ∧
    (∀ (index : ℕ) (slot : Option ℕ × ℕ), slots[index]? = some slot →
      ∃ drawn, (drawAll crafts slots pools)[index]? = some drawn ∧ match slot.1 with
        | none => drawn = []
        | some variant => amounts drawn=slot.2*crafts.toNat ∧
            ∀ source ∈ drawn, source.place ∈ (poolOf pools variant).map Source.place) ∧
    ∀ cell, drawnFrom cell (drawAll crafts slots pools).flatten ≤
      drawnFrom cell pools.flatten := by
  induction slots generalizing pools with
  | nil => exact ⟨rfl,fun _ _ h=>(by cases h),fun _=>Nat.zero_le _⟩
  | cons slot slots ih =>
    obtain ⟨assigned,count⟩ := slot
    cases assigned with
    | none =>
      obtain ⟨hlength,hdrawn,hcells⟩ := ih (fun other hmem =>
        hvariants other (.tail _ hmem)) fun variant =>
          (Nat.le_add_left _ _).trans (takenFrom_cons.symm.le.trans (henough variant))
      refine ⟨congrArg (· + 1) hlength,fun index other hget=>?_,hcells⟩
      cases index with
      | zero =>
        cases hget
        exact ⟨[],rfl,rfl⟩
      | succ index => exact hdrawn index other hget
    | some variant =>
      have hlt := hvariants _ (.head _) variant rfl
      have hdraw : Drawn (count*crafts.toNat) (poolOf pools variant)
        (draw (count*crafts.toNat) (pools.getD variant [])) := draw_spec
      have hfirst := henough variant
      rw [takenFrom_cons,if_pos rfl] at hfirst
      rw [drawAll]
      generalize draw (count*crafts.toNat) (pools.getD variant []) = result at *
      obtain ⟨drawn,left⟩ := result
      have hpool : ∀ other, amounts (poolOf (pools.set variant left) other) =
          if variant=other then amounts left else amounts (poolOf pools other) := by
        intro other
        rw [poolOf_set hlt]
        split <;> rfl
      obtain ⟨hlength,hrest,hcells⟩ := @ih (pools.set variant left) (fun other hmem taken htaken=>by
          rw [length_set]
          exact hvariants other (.tail _ hmem) taken htaken)
        (fun other=>by
          have hother := henough other
          have hamount := hdraw.amount
          have hleft := hdraw.left
          rw [takenFrom_cons] at hother
          rw [hpool]
          dsimp only at hother hamount hleft hfirst
          split
          · rename_i heq
            subst heq
            omega
          · omega)
      refine ⟨congrArg (· + 1) hlength,fun index other hget=>?_,fun cell=>?_⟩
      · cases index with
        | zero =>
          cases hget
          refine ⟨drawn,rfl,?_,hdraw.drawn⟩
          have hamount := hdraw.amount
          dsimp only at hamount hfirst ⊢
          omega
        | succ index =>
          obtain ⟨found,hfound,hspec⟩ := hrest index other hget
          refine ⟨found,hfound,?_⟩
          cases hother : other.1 with
          | none =>
            rw [hother] at hspec
            exact hspec
          | some taken =>
            rw [hother] at hspec
            refine ⟨hspec.1,fun source hmem=>?_⟩
            have hplace := hspec.2 source hmem
            rw [poolOf_set hlt] at hplace
            split at hplace
            · rename_i heq
              subst heq
              rw [hdraw.places] at hplace
              exact hplace
            · exact hplace
      · have hcell := hcells cell
        have hset := drawnFrom_flatten_set cell left hlt
        have hkept := hdraw.cells cell
        change drawnFrom cell (drawn++_) ≤ _
        rw [drawnFrom_append]
        dsimp only at hkept
        omega

end DrawingAll

section Planning

variable {Facts : Type} {data : ItemData Facts} {variants : List (Variant Facts)}
  {layout : List (Option RecipeIngredientView)} {crafts : UInt8} {inGrid : Bool} {slot : ℕ}

def slotDemand (layout : List (Option RecipeIngredientView)) (crafts : UInt8) (slot : ℕ) : ℕ :=
  ((layout.getD slot none).elim 0 fun view=>view.count.toNat) * crafts.toNat

/-- An accepted variant for every slot that needs something, all within the supplies. -/
structure Allocates (data : ItemData Facts) (variants : List (Variant Facts))
    (layout : List (Option RecipeIngredientView)) (crafts : UInt8) (inGrid : Bool)
    (choice : ℕ → ℕ) : Prop where
  accepted : ∀ slot, 0 < slotDemand layout crafts slot → ∃ view variant,
    layout[slot]? = some (some view) ∧ variants[choice slot]? = some variant ∧ variant.accepts data view=true ∧
      (inGrid=true → slotDemand layout crafts slot≤variant.capacity)
  supplied : ∀ index variant, variants[index]? = some variant →
    ∑ slot ∈ Finset.range layout.length with choice slot=index, slotDemand layout crafts slot ≤ amounts variant.sources

lemma demand_search : ((allocation data variants layout).search crafts inGrid).demand slot =
    slotDemand layout crafts slot := by
  unfold Search.demand search allocation slotDemand
  rw [List.getD_eq_getElem?_getD,List.getD_eq_getElem?_getD,map_map,List.getElem?_map]
  cases layout[slot]? <;> simp

lemma length_demands : ((allocation data variants layout).search crafts inGrid).demands.length =
    layout.length := by
  unfold search allocation
  simp

variable {index : ℕ}

lemma mem_accepts : index ∈ ((allocation data variants layout).search crafts inGrid).accepts.getD slot [] ↔
      ∃ view variant, layout[slot]? = some (some view) ∧ variants[index]? = some variant ∧
        variant.accepts data view=true := by
  unfold search allocation
  rw [List.getD_eq_getElem?_getD,List.getElem?_map]
  cases layout[slot]? with
  | none => simp
  | some entry =>
    rw [Option.map_some,Option.getD_some,mem_filterMap]
    cases entry with
    | none => simp
    | some view =>
      constructor
      · rintro ⟨⟨variant,found⟩,hmem,hsome⟩
        split at hsome
        · rename_i haccepts
          cases hsome
          exact ⟨view,variant,rfl,List.mem_zipIdx_iff_getElem?.1 hmem,haccepts⟩
        · cases hsome
      · rintro ⟨view,variant,hview,hvariant,haccepts⟩
        cases hview
        refine ⟨(variant,index),List.mem_zipIdx_iff_getElem?.2 hvariant,?_⟩
        rw [Option.any_some,if_pos haccepts]

lemma mem_mask : slot ∈ ((allocation data variants layout).search crafts inGrid).mask index ↔
      ∃ view variant, layout[slot]? = some (some view) ∧ variants[index]? = some variant ∧
        variant.accepts data view=true ∧ 0 < slotDemand layout crafts slot ∧
        (inGrid=true → slotDemand layout crafts slot≤variant.capacity) := by
  have haccepts : index ∈ (allocation data variants layout).accepts.getD slot [] ↔ _ :=
    @mem_accepts _ data variants layout crafts inGrid slot index
  have hdemand : ((allocation data variants layout).counts.map fun count =>
      count*crafts.toNat).getD slot 0=slotDemand layout crafts slot :=
    @demand_search _ data variants layout crafts inGrid slot
  unfold Search.mask search
  rw [List.getD_eq_getElem?_getD,List.getElem?_map,List.getElem?_zipIdx]
  change slot ∈ ((variants[index]?.map _).map _).getD ∅ ↔ _
  cases hvariant : variants[index]? with
  | none => simp
  | some variant =>
    rw [Option.map_some,Option.map_some,Option.getD_some,Finset.mem_filter,hdemand, Nat.zero_add,haccepts,hvariant]
    have hrange : ∀ view, layout[slot]? = some (some view) →
        slot ∈ Finset.range (allocation data variants layout).accepts.length := by
      intro view hview
      unfold allocation
      rw [Finset.mem_range,length_map]
      exact (List.getElem?_eq_some_iff.1 hview).1
    constructor
    · rintro ⟨-,hpos,⟨view,found,hview,hfound,haccepted⟩,hgrid⟩
      cases hfound
      exact ⟨view,variant,hview,rfl,haccepted,hpos,fun h=>hgrid.resolve_left (by simp [h])⟩
    · rintro ⟨view,found,hview,hfound,haccepted,hpos,hgrid⟩
      cases hfound
      refine ⟨hrange view hview,hpos,⟨view,variant,hview,rfl,haccepted⟩,?_⟩
      cases inGrid with
      | false => exact .inl rfl
      | true => exact .inr (hgrid rfl)

lemma supply_search : ((allocation data variants layout).search crafts inGrid).supply index =
      (variants[index]?).elim 0 Variant.total := by
  unfold Search.supply search allocation
  rw [List.getD_eq_getElem?_getD,List.getElem?_map]
  cases variants[index]? <;> rfl

lemma formed_search : ((allocation data variants layout).search crafts inGrid).Formed where
  order := by
    unfold search
    rw [length_map]
  bins := by
    unfold search
    rw [length_map,length_zipIdx,length_map]
  assigned := by
    unfold search
    rw [length_replicate,length_map]
  eligible hmem := by
    obtain ⟨view,variant,hview,hvariant,haccepts,hpos,-⟩ := mem_mask.1 hmem
    refine ⟨mem_accepts.2 ⟨view,variant,hview,hvariant,haccepts⟩,?_,?_⟩
    · rw [length_demands]
      exact (List.getElem?_eq_some_iff.1 hview).1
    · rw [demand_search]
      exact hpos

lemma ready_search : Search.Ready ((allocation data variants layout).search crafts inGrid).supply layout.length
    ((allocation data variants layout).search crafts inGrid) where
  formed := formed_search
  enough := length_demands.ge
  hopeless := fun _ hmem=>absurd hmem not_mem_nil
  accounts := by
    have hnone : ∀ cell, ((allocation data variants layout).search crafts inGrid).assigned.getD cell none=none := by
      intro cell
      unfold search
      rw [List.getD_eq_getElem?_getD,List.getElem?_replicate]
      split <;> rfl
    rw [length_demands,Nat.sub_self]
    refine ⟨fun hsome=>?_,fun hmem=>absurd hmem not_mem_nil,fun variant=>?_⟩
    · rw [hnone] at hsome
      cases hsome
    · rw [Finset.filter_false_of_mem (fun cell _ hsome=>by
        rw [hnone] at hsome
        cases hsome),Finset.sum_empty,Nat.add_zero]

lemma Allocates.packs (hsums : ∀ variant ∈ variants, variant.total=amounts variant.sources)
    {choice : ℕ → ℕ} (h : Allocates data variants layout crafts inGrid choice) :
    PacksInto ((allocation data variants layout).search crafts inGrid).demand
      ((allocation data variants layout).search crafts inGrid).bins
      (((allocation data variants layout).search crafts inGrid).needs 0) := by
  have hneeds : ∀ slot ∈ ((allocation data variants layout).search crafts inGrid).needs 0,
      0 < slotDemand layout crafts slot := fun slot hmem =>
    demand_search.symm ▸ (Search.mem_open hmem).2
  refine PacksInto.of_assignment choice (fun slot hmem=>?_) fun index bin hbin=>?_
  · obtain ⟨view,variant,hview,hvariant,haccepts,hgrid⟩ := h.accepted slot (hneeds slot hmem)
    have hmask := mem_mask.2 ⟨view,variant,hview,hvariant,haccepts,hneeds slot hmem,hgrid⟩
    exact ⟨_,formed_search.bins_getElem? hmask,hmask⟩
  · have hvariant : ∃ variant, variants[index]? = some variant := by
      obtain ⟨-,hremaining⟩ := List.getElem?_zip_eq_some.1 hbin
      cases hvariant : variants[index]? with
      | none =>
        have hnone : ((allocation data variants layout).search crafts inGrid).remaining[index]? =
            none := by
          change (variants.map Variant.total)[index]? = none
          rw [List.getElem?_map,hvariant,Option.map_none]
        rw [hnone] at hremaining
        cases hremaining
      | some variant => exact ⟨variant,rfl⟩
    obtain ⟨variant,hvariant⟩ := hvariant
    cases Search.bins_eq_some hbin
    rw [supply_search,hvariant,Option.elim_some,hsums variant (List.mem_of_getElem? hvariant)]
    refine le_trans ?_ (h.supplied index variant hvariant)
    simp only [demand_search]
    refine Finset.sum_le_sum_of_subset fun slot hmem=>?_
    obtain ⟨hmem,hchoice⟩ := Finset.mem_filter.1 hmem
    obtain ⟨view,-,hview,-⟩ := h.accepted slot (hneeds slot hmem)
    exact Finset.mem_filter.2 ⟨Finset.mem_range.2 (List.getElem?_eq_some_iff.1 hview).1,hchoice⟩

end Planning

section Grouping

variable {Facts : Type} {data : ItemData Facts} {variants : List (Variant Facts)} {cell : Cell}
  {usable : List (Cell × NetworkItemStack × ItemRegistryEntry Facts)}

def heldIn (cell : Cell) (usable : List (Cell × NetworkItemStack × ItemRegistryEntry Facts)) : ℕ :=
  ((usable.filter fun source=>source.1=cell).map fun source=>source.2.1.count.toNat).sum

def offered (cell : Cell) (variants : List (Variant Facts)) : ℕ :=
  drawnFrom cell (variants.map Variant.sources).flatten

def Summed (variants : List (Variant Facts)) : Prop :=
  ∀ variant ∈ variants, variant.total=amounts variant.sources

lemma heldIn_cons {source : Cell × NetworkItemStack × ItemRegistryEntry Facts} : heldIn cell (source::usable) =
      (if source.1=cell then source.2.1.count.toNat else 0) + heldIn cell usable := by
  unfold heldIn
  split <;> simp_all

lemma offered_cons {variant : Variant Facts} : offered cell (variant::variants) =
    drawnFrom cell variant.sources+offered cell variants := drawnFrom_append

variable {entry : ItemRegistryEntry Facts} {stack : NetworkItemStack}

lemma Summed.pushSource (h : Summed variants) : Summed (pushSource data cell stack entry variants) := by
  induction variants with
  | nil =>
    intro variant hmem
    cases mem_singleton.1 hmem
    rfl
  | cons first variants ih =>
    have hrest := ih fun variant hmem=>h variant (.tail _ hmem)
    have hfirst := h first (.head _)
    rw [Inventory.pushSource]
    split
    · intro variant hmem
      rcases mem_cons.1 hmem with rfl | hmem
      · unfold amounts
        rw [map_append,sum_append]
        exact congrArg (· + stack.count.toNat) hfirst
      · exact h variant (.tail _ hmem)
    · intro variant hmem
      rcases mem_cons.1 hmem with rfl | hmem
      · exact hfirst
      · exact hrest variant hmem

lemma offered_pushSource {other : Cell} : offered cell (pushSource data other stack entry variants) =
      offered cell variants + if other=cell then stack.count.toNat else 0 := by
  induction variants with
  | nil =>
    exact drawnFrom_cons.trans (Nat.add_comm _ _)
  | cons first variants ih =>
    rw [pushSource]
    split
    · rw [offered_cons,offered_cons,drawnFrom_append,drawnFrom_cons]
      change _ + ((if other=cell then stack.count.toNat else 0)+0) + _=_
      omega
    · rw [offered_cons,offered_cons,ih]
      omega

lemma foldl_pushSource (h : Summed variants) : Summed (usable.foldl (fun variants source =>
      pushSource data source.1 source.2.1 source.2.2 variants) variants) ∧
    ∀ cell, offered cell (usable.foldl (fun variants source =>
      pushSource data source.1 source.2.1 source.2.2 variants) variants) =
        offered cell variants+heldIn cell usable := by
  induction usable generalizing variants with
  | nil => exact ⟨h,fun _=>rfl⟩
  | cons source usable ih =>
    have hpush : Summed (pushSource data source.1 source.2.1 source.2.2 variants) := h.pushSource
    obtain ⟨hsummed,hoffered⟩ := ih hpush
    refine ⟨hsummed,fun cell=>?_⟩
    rw [foldl_cons,hoffered,offered_pushSource,heldIn_cons,Nat.add_assoc]

lemma summed_recipeInputs : Summed (recipeInputs data usable) :=
  (foldl_pushSource fun _ h=>absurd h not_mem_nil).1

lemma offered_recipeInputs : offered cell (recipeInputs data usable) = heldIn cell usable :=
  ((foldl_pushSource fun _ h=>absurd h not_mem_nil).2 cell).trans (Nat.zero_add _)

end Grouping

section Assigned

variable {Facts : Type} {data : ItemData Facts} {variants : List (Variant Facts)}
  {layout : List (Option RecipeIngredientView)} {crafts : UInt8} {inGrid : Bool}
  {found : Search} {assigned : List (Option ℕ)} {counts : List ℕ} {variant slot : ℕ}

lemma takenFrom_zip (h : assigned.length=counts.length) : takenFrom crafts variant (assigned.zip counts) =
      ∑ slot ∈ Finset.range counts.length with assigned.getD slot none=some variant,
        counts.getD slot 0*crafts.toNat := by
  induction counts generalizing assigned with
  | nil =>
    rw [zip_nil_right]
    rfl
  | cons count counts ih =>
    cases assigned with
    | nil => cases h
    | cons slot assigned =>
      have hrest := ih (Nat.succ.inj h)
      rw [zip_cons_cons,takenFrom_cons,hrest,Finset.sum_filter,Finset.sum_filter,
        length_cons,Finset.sum_range_succ',Nat.add_comm]
      rfl

lemma slotDemand_eq : slotDemand layout crafts slot =
    (allocation data variants layout).counts.getD slot 0*crafts.toNat := by
  unfold slotDemand allocation
  rw [List.getD_eq_getElem?_getD,List.getD_eq_getElem?_getD,List.getElem?_map]
  cases layout[slot]? <;> rfl

lemma lt_length_of_slotDemand (h : 0 < slotDemand layout crafts slot) : slot<layout.length := by
  by_contra hge
  unfold slotDemand at h
  rw [getD_eq_default _ _ (Nat.le_of_not_lt hge),Option.elim_none,Nat.zero_mul] at h
  exact absurd h (Nat.lt_irrefl 0)

lemma allocates_of_finished (hsums : Summed variants)
    (h : Search.Finished ((allocation data variants layout).search crafts inGrid).supply
      ((allocation data variants layout).search crafts inGrid) found) :
    Allocates data variants layout crafts inGrid
      fun slot=>(found.assigned.getD slot none).getD 0 := by
  have hchosen : ∀ slot, 0 < slotDemand layout crafts slot →
      ∃ variant, found.assigned.getD slot none=some variant := fun slot hpos =>
    Option.ne_none_iff_exists'.1 (h.all (length_demands.symm ▸ lt_length_of_slotDemand hpos)
      (demand_search.symm ▸ hpos))
  constructor
  · intro slot hpos
    obtain ⟨index,hindex⟩ := hchosen slot hpos
    obtain ⟨view,variant,hview,hvariant,haccepts,-,hgrid⟩ := mem_mask.1 (h.eligible hindex)
    rw [hindex,Option.getD_some]
    exact ⟨view,variant,hview,hvariant,haccepts,hgrid⟩
  · intro index variant hvariant
    have htotal := h.totals index
    rw [supply_search,hvariant,Option.elim_some,hsums variant (List.mem_of_getElem? hvariant), length_demands] at htotal
    refine le_trans (Finset.sum_le_sum_of_ne_zero fun slot hmem hne=>?_)
      ((Finset.sum_congr rfl fun _ _=>demand_search).symm.le.trans htotal)
    obtain ⟨hslot,hchoice⟩ := Finset.mem_filter.1 hmem
    obtain ⟨taken,htaken⟩ := hchosen slot (Nat.pos_of_ne_zero hne)
    rw [htaken,Option.getD_some] at hchoice
    exact Finset.mem_filter.2 ⟨hslot,htaken.trans (congrArg some hchoice)⟩

/-- What the sources of a plan owe the slots and the cells. -/
structure Supplies (held : Cell → ℕ) (variants : List (Variant Facts))
    (layout : List (Option RecipeIngredientView)) (crafts : UInt8) (choice : ℕ → ℕ)
    (sources : List IngredientSources) : Prop where
  length : sources.length=layout.length
  amount : ∀ (slot : ℕ) (drawn : IngredientSources), sources[slot]? = some drawn →
    amounts drawn=slotDemand layout crafts slot
  variant : ∀ (slot : ℕ) (drawn : IngredientSources), sources[slot]? = some drawn →
    ∀ source ∈ drawn, ∃ variant, variants[choice slot]? = some variant ∧ source.place ∈ variant.sources.map Source.place
  cells : ∀ cell, drawnFrom cell sources.flatten≤held cell

lemma poolOf_sources {variant : ℕ} : poolOf (variants.map Variant.sources) variant =
    (variants[variant]?).elim [] Variant.sources := by
  unfold poolOf
  rw [List.getD_eq_getElem?_getD,List.getElem?_map]
  cases variants[variant]? <;> rfl

lemma length_counts : (allocation data variants layout).counts.length=layout.length :=
  length_map _

lemma assigned_of_zip {pair : Option ℕ × ℕ}
    (h : (assigned.zip (allocation data variants layout).counts)[slot]? = some pair) :
    assigned.getD slot none=pair.1 ∧ pair.2*crafts.toNat=slotDemand layout crafts slot := by
  obtain ⟨hassigned,hcount⟩ := List.getElem?_zip_eq_some.1 h
  rw [@slotDemand_eq _ data variants,List.getD_eq_getElem?_getD,List.getD_eq_getElem?_getD, hassigned,hcount]
  exact ⟨rfl,rfl⟩

section Finished

variable (h : Search.Finished ((allocation data variants layout).search crafts inGrid).supply
  ((allocation data variants layout).search crafts inGrid) found)
include h

lemma length_assigned : found.assigned.length = (allocation data variants layout).counts.length :=
  h.length.trans (length_demands.trans length_counts.symm)

lemma variant_of_assigned {index : ℕ} (hassigned : found.assigned.getD slot none=some index) :
    ∃ variant, variants[index]? = some variant :=
  have ⟨_,variant,_,hvariant,_⟩ := mem_mask.1 (h.eligible hassigned)
  ⟨variant,hvariant⟩

/-- Every pool holds what the slots take from it. -/
lemma takenFrom_le (hsums : Summed variants) :
    takenFrom crafts variant (found.assigned.zip (allocation data variants layout).counts) ≤
      amounts (poolOf (variants.map Variant.sources) variant) := by
  have htotal := h.totals variant
  rw [length_demands,supply_search] at htotal
  rw [takenFrom_zip (length_assigned h),length_counts,poolOf_sources]
  refine (Finset.sum_congr rfl fun slot _=>?_).le.trans (htotal.trans ?_)
  · rw [demand_search,@slotDemand_eq _ data variants]
  · cases hvariant : variants[variant]? with
    | none => exact Nat.zero_le _
    | some variant => exact (hsums variant (List.mem_of_getElem? hvariant)).le

/-- The sources drawn for a finished search. -/
lemma supplies_of_finished (hsums : Summed variants) : Supplies (fun cell=>offered cell variants) variants layout crafts
      (fun slot=>(found.assigned.getD slot none).getD 0)
      ((allocation data variants layout).sources crafts found.assigned) := by
  have hzip : (found.assigned.zip (allocation data variants layout).counts).length =
      layout.length := by
    rw [length_zip,length_assigned h,Nat.min_self,length_counts]
  obtain ⟨hlength,hslots,hcells⟩ := @drawAll_spec crafts
    (found.assigned.zip (allocation data variants layout).counts) (variants.map Variant.sources)
    (fun pair hmem variant hvariant=>by
      obtain ⟨slot,hget⟩ := List.mem_iff_getElem?.1 hmem
      have hassigned := (@assigned_of_zip _ data variants layout crafts _ slot _ hget).1
      obtain ⟨found,hfound⟩ := variant_of_assigned h (hassigned.trans hvariant)
      rw [length_map]
      exact (List.getElem?_eq_some_iff.1 hfound).1)
    fun variant=>takenFrom_le h hsums
  have hspec : ∀ (slot : ℕ) (drawn : IngredientSources),
      ((allocation data variants layout).sources crafts found.assigned)[slot]? = some drawn →
      amounts drawn=slotDemand layout crafts slot ∧
      ∀ source ∈ drawn, ∃ variant, variants[(found.assigned.getD slot none).getD 0]? = some variant ∧
          source.place ∈ variant.sources.map Source.place := by
    intro slot drawn hget
    have hlt : slot < (found.assigned.zip (allocation data variants layout).counts).length :=
      hlength ▸ (List.getElem?_eq_some_iff.1 hget).1
    obtain ⟨other,hother,hmatch⟩ := hslots slot _ (List.getElem?_eq_getElem hlt)
    cases hget.symm.trans hother
    obtain ⟨hassigned,hdemand⟩ := assigned_of_zip (List.getElem?_eq_getElem hlt)
    cases hvariant : found.assigned.getD slot none with
    | none =>
      rw [← hassigned,hvariant] at hmatch
      cases hmatch
      refine ⟨?_,fun _ hmem=>absurd hmem not_mem_nil⟩
      -- a slot that needs something would be assigned
      by_contra hne
      exact h.all (length_demands.symm ▸ hzip ▸ hlt) (demand_search.symm ▸ Nat.pos_of_ne_zero (Ne.symm hne)) hvariant
    | some variant =>
      rw [← hassigned,hvariant] at hmatch
      obtain ⟨found,hfound⟩ := variant_of_assigned h hvariant
      dsimp only at hmatch
      rw [poolOf_sources,hfound] at hmatch
      exact ⟨hmatch.1.trans hdemand,fun source hmem=>⟨found,hfound,hmatch.2 source hmem⟩⟩
  exact ⟨hlength.trans hzip,fun slot drawn hget=>(hspec slot drawn hget).1,
    fun slot drawn hget=>(hspec slot drawn hget).2,hcells⟩

end Finished

end Assigned

section Plans

variable {Facts : Type} {data : ItemData Facts} {variants : List (Variant Facts)}
  {layout : List (Option RecipeIngredientView)} {crafts : UInt8} {inGrid : Bool}

lemma assign_answers : Search.Answers ((allocation data variants layout).search crafts inGrid).supply layout.length
    ((allocation data variants layout).search crafts inGrid)
    (((allocation data variants layout).search crafts inGrid).assign layout.length 0) :=
  Search.assign_spec ready_search

lemma plan_of_allocates (hsums : Summed variants) {choice : ℕ → ℕ}
    (h : Allocates data variants layout crafts inGrid choice) :
    ((allocation data variants layout).plan crafts inGrid).isSome=true := by
  have hanswers : Search.Answers _ _ _ _ := @assign_answers _ data variants layout crafts inGrid
  unfold plan assign
  rw [length_counts]
  generalize Search.assign _ _ _=result at *
  obtain ⟨complete,found⟩ := result
  cases complete with
  | true => rfl
  | false =>
    have hfailed := (hanswers.2 rfl).2
    rw [length_demands,Nat.sub_self] at hfailed
    exact absurd (h.packs hsums) hfailed

lemma plan_spec (hsums : Summed variants) {sources : List IngredientSources}
    (h : (allocation data variants layout).plan crafts inGrid=some sources) :
    ∃ choice, Allocates data variants layout crafts inGrid choice ∧
      Supplies (fun cell=>offered cell variants) variants layout crafts choice sources := by
  have hanswers : Search.Answers _ _ _ _ := @assign_answers _ data variants layout crafts inGrid
  unfold plan assign at h
  rw [length_counts] at h
  generalize Search.assign _ _ _=result at *
  obtain ⟨complete,found⟩ := result
  cases complete with
  | false => cases h
  | true =>
    cases h
    exact ⟨_,allocates_of_finished hsums (hanswers.1 rfl), supplies_of_finished (hanswers.1 rfl) hsums⟩

end Plans

variable {Facts : Type}

/-- A plan is found exactly when every slot that needs something can be given one accepted variant
within the supplies; it gives every slot its whole demand and overdraws no cell. -/
theorem recipe_allocation_complete (data : ItemData Facts)
    (usable : List (Cell × NetworkItemStack × ItemRegistryEntry Facts))
    (layout : List (Option RecipeIngredientView)) (crafts : UInt8) (inGrid : Bool) :
    (((allocation data (recipeInputs data usable) layout).plan crafts inGrid).isSome = true ↔
      ∃ choice, Allocates data (recipeInputs data usable) layout crafts inGrid choice) ∧
    ∀ sources : List IngredientSources,
      (allocation data (recipeInputs data usable) layout).plan crafts inGrid = some sources →
      ∃ choice, Allocates data (recipeInputs data usable) layout crafts inGrid choice ∧
        Supplies (fun cell => heldIn cell usable) (recipeInputs data usable) layout crafts choice
          sources := by
  have hplan : ∀ {sources : List IngredientSources},
      (allocation data (recipeInputs data usable) layout).plan crafts inGrid = some sources →
      ∃ choice, Allocates data (recipeInputs data usable) layout crafts inGrid choice ∧
        Supplies (fun cell => heldIn cell usable) (recipeInputs data usable) layout crafts choice
          sources := by
    intro sources h
    obtain ⟨choice,hallocates,hsupplies⟩ := plan_spec summed_recipeInputs h
    refine ⟨choice,hallocates,{ hsupplies with cells := fun cell => ?_ }⟩
    exact (hsupplies.cells cell).trans offered_recipeInputs.le
  constructor
  · constructor
    · intro hsome
      obtain ⟨sources,hsources⟩ := Option.isSome_iff_exists.1 hsome
      obtain ⟨choice,hallocates,-⟩ := hplan hsources
      exact ⟨choice,hallocates⟩
    · rintro ⟨choice,hallocates⟩
      exact plan_of_allocates summed_recipeInputs hallocates
  · exact fun sources => hplan

/-- No crafts need no ingredient: a plan is found though no variant is accepted. -/
theorem no_crafts_need_no_variant :
    let data : ItemData Unit := ⟨fun _ _=>none,fun _=>none,fun _ _=>none⟩
    let layout : List (Option RecipeIngredientView) := [some ⟨"minecraft:stick",false,0,1⟩]
    ((allocation data (recipeInputs data []) layout).plan 0 false).isSome = true ∧
    ¬∃ choice : ℕ → ℕ, ∀ (slot : ℕ) (view : RecipeIngredientView),
      layout[slot]? = some (some view) → ∃ variant : Variant Unit, (recipeInputs data [])[choice slot]? = some variant ∧
          variant.accepts data view=true := by
  intro data layout
  refine ⟨@plan_of_allocates _ data _ layout 0 false summed_recipeInputs (fun _=>0) ?_,?_⟩
  · exact ⟨fun slot hpos => absurd hpos (Nat.lt_irrefl 0),fun _ _ h => (by cases h)⟩
  · rintro ⟨choice,h⟩
    obtain ⟨variant,hvariant,-⟩ := h 0 _ rfl
    cases hvariant

end Cinnabar.Inventory
