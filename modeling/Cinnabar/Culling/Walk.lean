import Cinnabar.Culling.Nodes

/-! # Walking until every exit is served -/

namespace Cinnabar.Culling

open CaveVisibilityScratch Finset

variable {grid : ConnectivityGrid} {s s' s₀ : CaveVisibilityScratch}

noncomputable abbrev ConnectivityGrid.states (grid : ConnectivityGrid)
    (s : CaveVisibilityScratch) : SectionKey → NodeState :=
  grid.slots.stateOf grid.cellCount s

def Served (graph : Graph) (allowed : SectionKey → Finset Face) (states : SectionKey → NodeState)
    (next : SectionKey) (exit : Face) : Prop :=
  ∀ value, graph next=some value → ∃ state, states next=some state ∧ value.row exit.opposite ∩ allowed next ⊆ state

def Fact.Noted (states : SectionKey → NodeState) : Fact → Prop
  | .reached key => ∃ state, states key=some state
  | .exit key face => ∃ state, states key=some state ∧ face ∈ state

variable {allowed : SectionKey → Finset Face}

lemma Reaches.noted {graph : Graph} {camera : SectionKey} {states : SectionKey → NodeState}
    (hseed : ∀ value, graph camera=some value → ∃ state, states camera=some state ∧ value.touchedFaces ⊆ state)
    (hserved : ∀ {key state exit next}, states key=some state → exit ∈ state →
      adjacent key exit=some next → Served graph allowed states next exit)
    {fact : Fact} (h : Reaches graph allowed camera fact) : fact.Noted states := by
  refine Closure.least ?_ ?_ h
  · rintro _ (hg | ⟨hg,hin⟩)
    · obtain ⟨state,hstate,-⟩ := hseed _ hg
      exact ⟨state,hstate⟩
    · obtain ⟨state,hstate,hsub⟩ := hseed _ hg
      exact ⟨state,hstate,hsub hin⟩
  · rintro _ _ hx (⟨hadj,hg⟩ | ⟨hadj,hg,hrow,hallow⟩)
    · obtain ⟨state,hstate,hexit⟩ := hx
      obtain ⟨entered,hentered,-⟩ := hserved hstate hexit hadj _ hg
      exact ⟨entered,hentered⟩
    · obtain ⟨state,hstate,hexit⟩ := hx
      obtain ⟨entered,hentered,hsub⟩ := hserved hstate hexit hadj _ hg
      exact ⟨entered,hentered,hsub (mem_inter.2 ⟨hrow,hallow⟩)⟩

def OnStack (grid : ConnectivityGrid) (s : CaveVisibilityScratch) (key : SectionKey)
    (exit : Face) : Prop :=
  ∃ item ∈ s.stack, grid.slots.idOf s key=some item.1 ∧ exit ∈ item.2

/-- Reached keys stay reached, and keep their exits. -/
def Grows (grid : ConnectivityGrid) (s s' : CaveVisibilityScratch) : Prop :=
  ∀ key state, grid.states s key=some state → ∃ state', grid.states s' key=some state' ∧ state ⊆ state'

lemma Grows.refl (grid : ConnectivityGrid) (s : CaveVisibilityScratch) : Grows grid s s :=
  fun _ state h=>⟨state,h,Finset.Subset.refl state⟩

lemma Grows.trans {s'' : CaveVisibilityScratch} (h : Grows grid s s') (h' : Grows grid s' s'') :
    Grows grid s s'' := by
  intro key state hstate
  obtain ⟨state',hstate',hsub⟩ := h key state hstate
  obtain ⟨state'',hstate'',hsub'⟩ := h' key state' hstate'
  exact ⟨state'',hstate'',hsub.trans hsub'⟩

variable {key : SectionKey}

lemma NodeSays.states (h : NodeSays grid s key s') : grid.states s'=grid.states s := h.stateOf

lemma ReachSays.grows {node : ℕ} {exits : Finset Face}
    (h : ReachSays grid.cellCount grid.slots s key node exits s') : Grows grid s s' := by
  intro other state hstate
  rw [ConnectivityGrid.states,h.stateOf]
  by_cases hk : other=key
  · subst hk
    rw [if_pos rfl,show grid.slots.stateOf grid.cellCount s other=some state from hstate]
    exact ⟨_,rfl,subset_union_left⟩
  · rw [if_neg hk]
    exact ⟨state,hstate,Finset.Subset.refl _⟩

/-- A node of the graph whose neighbour is reached, for a rule that shows such shells. -/
def NextToReached (grid : ConnectivityGrid) (s : CaveVisibilityScratch) (key : SectionKey) : Prop :=
  (grid.slots.get key).isSome ∧ s.builtOutwardOnly=false ∧
    ∃ face neighbour, adjacent key face=some neighbour ∧ grid.states s neighbour≠none

lemma NextToReached.mono (h : NextToReached grid s key)
    (hkeeps : Keeps s s') (hgrows : Grows grid s s') : NextToReached grid s' key := by
  obtain ⟨hsome,hrule,face,neighbour,hadj,hreached⟩ := h
  refine ⟨hsome,hkeeps.builtOutwardOnly.trans hrule,face,neighbour,hadj,?_⟩
  obtain ⟨state,hstate⟩ := Option.ne_none_iff_exists'.1 hreached
  obtain ⟨state',hstate',-⟩ := hgrows neighbour state hstate
  rw [hstate']
  exact Option.some_ne_none state'

/-- What every step of a walk from `s₀` keeps. -/
structure Walk (grid : ConnectivityGrid) (P : Fact → Prop) (owed : SectionKey → Face → Prop)
    (s₀ s : CaveVisibilityScratch) : Prop where
  numbered : Numbered grid.cellCount grid.slots s
  keeps : Keeps s₀ s
  grows : Grows grid s₀ s
  idOf : ∀ {key node}, grid.slots.idOf s₀ key=some node → grid.slots.idOf s key=some node
  stacked : ∀ item ∈ s.stack, ∃ key state, grid.slots.idOf s key=some item.1 ∧
    grid.states s key=some state ∧ item.2 ⊆ state
  /-- The nodes touched since are the ones reached since. -/
  touched : ∃ nodes, s.touched=s₀.touched++nodes ∧ (∀ key, grid.states s₀ key=none → grid.states s key≠none →
      ∃ node ∈ nodes, grid.slots.idOf s key=some node) ∧
    ∀ node ∈ nodes, ∃ key, grid.slots.idOf s key=some node ∧ grid.states s key≠none
  /-- What was added since lies next to a reached node. -/
  added : s₀.addedVisible ⊆ s.addedVisible ∧ ∀ key ∈ s.addedVisible, key ∈ s₀.addedVisible ∨ NextToReached grid s key
  sound : ∀ {key state}, grid.states s key=some state → P (.reached key) ∧ ∀ exit ∈ state, P (.exit key exit)
  served : ∀ {key state exit next}, grid.states s key=some state → exit ∈ state →
    adjacent key exit=some next → owed key exit ∨ OnStack grid s key exit ∨
      Served grid.slots.get s₀.allowedExits (grid.states s) next exit

lemma Served.mono {graph : Graph} {states states' : SectionKey → NodeState} {next : SectionKey} {exit : Face}
    (h : Served graph allowed states next exit)
    (hgrows : ∀ state, states next=some state → ∃ state', states' next=some state' ∧
      state ⊆ state') : Served graph allowed states' next exit := by
  intro value hvalue
  obtain ⟨state,hstate,hsub⟩ := h value hvalue
  obtain ⟨state',hstate',hsub'⟩ := hgrows state hstate
  exact ⟨state',hstate',hsub.trans hsub'⟩

namespace Walk

variable {P : Fact → Prop} {owed owed' : SectionKey → Face → Prop}

section

variable (h : Walk grid P owed s₀ s)
include h

lemma weaken (howed : ∀ {key state exit next}, grid.states s key=some state → exit ∈ state →
      adjacent key exit=some next → owed key exit →
      owed' key exit ∨ Served grid.slots.get s₀.allowedExits (grid.states s) next exit) :
    Walk grid P owed' s₀ s where
  __ := h
  served := by
    intro key state exit next hstate hexit hnext
    rcases h.served hstate hexit hnext with ho | hstack | hserved
    · rcases howed hstate hexit hnext ho with ho' | hserved
      · exact .inl ho'
      · exact .inr (.inr hserved)
    · exact .inr (.inl hstack)
    · exact .inr (.inr hserved)

/-- Asking for a number changes nothing a walk looks at. -/
lemma node {key : SectionKey} (hspec : NodeSays grid s key s') : Walk grid P owed s₀ s' where
  numbered := hspec.numbered
  keeps := h.keeps.trans hspec.keeps
  grows := by
    intro key state hstate
    rw [hspec.states]
    exact h.grows key state hstate
  idOf := fun hid=>hspec.idOf (h.idOf hid)
  stacked := by
    intro item hitem
    rw [hspec.stack] at hitem
    obtain ⟨key,state,hid,hstate,hsub⟩ := h.stacked item hitem
    refine ⟨key,state,hspec.idOf hid,?_,hsub⟩
    rw [ConnectivityGrid.states,hspec.stateOf]
    exact hstate
  touched := by
    obtain ⟨nodes,htouched,hnew,hlive⟩ := h.touched
    have hstates : grid.states s'=grid.states s := hspec.stateOf
    rw [hspec.touched,hstates]
    refine ⟨nodes,htouched,fun key hnone hsome=>?_,fun node hnode=>?_⟩
    · obtain ⟨node,hnode,hid⟩ := hnew key hnone hsome
      exact ⟨node,hnode,hspec.idOf hid⟩
    · obtain ⟨key,hid,hsome⟩ := hlive node hnode
      exact ⟨key,hspec.idOf hid,hsome⟩
  added := by
    obtain ⟨hsub,hnext⟩ := h.added
    rw [hspec.addedVisible]
    refine ⟨hsub,fun other hother=>(hnext other hother).imp id fun hn=>?_⟩
    refine hn.mono hspec.keeps fun key state hstate=>⟨state,?_,Finset.Subset.refl state⟩
    rw [hspec.states]
    exact hstate
  sound := by
    intro key state hstate
    rw [ConnectivityGrid.states,hspec.stateOf] at hstate
    exact h.sound hstate
  served := by
    intro key state exit next hstate hexit hnext
    rw [ConnectivityGrid.states,hspec.stateOf] at hstate ⊢
    rcases h.served hstate hexit hnext with ho | ⟨item,hitem,hid,hin⟩ | hserved
    · exact .inl ho
    · refine .inr (.inl ⟨item,?_,hspec.idOf hid,hin⟩)
      rw [hspec.stack]
      exact hitem
    · exact .inr (.inr hserved)

lemma reach {key : SectionKey} {node : ℕ}
    (exits : Finset Face) (hid : grid.slots.idOf s key=some node) (hreached : P (.reached key))
    (hexits : ∀ exit ∈ exits, P (.exit key exit)) :
    Walk grid P owed s₀ (s.reach grid.cellCount node exits) ∧
      ∃ state, grid.states (s.reach grid.cellCount node exits) key=some state ∧
        exits ⊆ state := by
  have hspec := h.numbered.reach exits hid
  have hself : grid.states (s.reach grid.cellCount node exits) key=some ((grid.states s key).getD ∅ ∪ exits) := by
    rw [ConnectivityGrid.states,hspec.stateOf,if_pos rfl]
  have hother : ∀ {other}, other≠key → grid.states (s.reach grid.cellCount node exits) other=grid.states s other := by
    intro other hk
    rw [ConnectivityGrid.states,hspec.stateOf,if_neg hk]
  have hgrows : Grows grid s (s.reach grid.cellCount node exits) := hspec.grows
  have hstack : ∀ item ∈ s.stack, item ∈ (s.reach grid.cellCount node exits).stack := by
    intro item hitem
    rw [hspec.stack]
    split_ifs
    · exact .tail _ hitem
    · exact hitem
  refine ⟨⟨hspec.numbered,h.keeps.trans hspec.keeps,?_,?_,?_,?_,?_,?_,?_⟩,_,hself, subset_union_right⟩
  · exact h.grows.trans hgrows
  · intro other id hother
    rw [hspec.idOf]
    exact h.idOf hother
  · intro item hitem
    rw [hspec.idOf]
    have hold : item ∈ s.stack → ∃ key state, grid.slots.idOf s key=some item.1 ∧
        grid.states (s.reach grid.cellCount node exits) key=some state ∧ item.2 ⊆ state := by
      intro hitem
      obtain ⟨other,state,hoid,hstate,hsub⟩ := h.stacked item hitem
      obtain ⟨state',hstate',hsub'⟩ := hgrows _ _ hstate
      exact ⟨other,state',hoid,hstate',hsub.trans hsub'⟩
    rw [hspec.stack] at hitem
    split_ifs at hitem
    · rcases List.mem_cons.1 hitem with rfl | hitem
      · exact ⟨key,_,hid,hself,sdiff_subset.trans subset_union_right⟩
      · exact hold hitem
    · exact hold hitem
  · obtain ⟨nodes,htouched,hnew,hlive⟩ := h.touched
    have hliveOld : ∀ n ∈ nodes, ∃ other, grid.slots.idOf (s.reach grid.cellCount node exits) other=some n ∧
          grid.states (s.reach grid.cellCount node exits) other≠none := by
      intro n hn
      obtain ⟨other,hoid,hsome⟩ := hlive n hn
      obtain ⟨state,hstate⟩ := Option.ne_none_iff_exists'.1 hsome
      obtain ⟨state',hstate',-⟩ := hgrows _ _ hstate
      rw [hspec.idOf]
      refine ⟨other,hoid,?_⟩
      rw [hstate']
      exact Option.some_ne_none state'
    rw [hspec.touched]
    by_cases hnone : (grid.states s key).isNone=true
    · rw [if_pos hnone,htouched,List.append_assoc]
      refine ⟨nodes ++ [node],rfl,fun other hwas his=>?_,fun n hn=>?_⟩
      · rw [hspec.idOf]
        by_cases hk : other=key
        · subst hk
          exact ⟨node,List.mem_append_right _ (.head _),hid⟩
        · rw [hother hk] at his
          obtain ⟨n,hn,hoid⟩ := hnew other hwas his
          exact ⟨n,List.mem_append_left _ hn,hoid⟩
      · rcases List.mem_append.1 hn with hn | hn
        · exact hliveOld n hn
        · rw [List.mem_singleton] at hn
          subst hn
          exact ⟨key,by rw [hspec.idOf]; exact hid,by rw [hself]; exact Option.some_ne_none _⟩
    · rw [if_neg hnone]
      refine ⟨nodes,htouched,fun other hwas his=>?_,hliveOld⟩
      rw [hspec.idOf]
      refine hnew other hwas ?_
      by_cases hk : other=key
      · subst hk
        simpa using hnone
      · rwa [hother hk] at his
  · obtain ⟨hsub,hnext⟩ := h.added
    rw [hspec.addedVisible]
    exact ⟨hsub,fun other hother=>(hnext other hother).imp id fun hn=>hn.mono hspec.keeps hgrows⟩
  · intro other state hstate
    by_cases hk : other=key
    · subst hk
      rw [hself] at hstate
      cases hstate
      refine ⟨hreached,fun exit hexit=>?_⟩
      rcases mem_union.1 hexit with hold | hnew
      · cases hst : grid.states s other with
        | none =>
          rw [hst] at hold
          simp at hold
        | some st =>
          rw [hst] at hold
          exact (h.sound hst).2 exit hold
      · exact hexits exit hnew
    · rw [hother hk] at hstate
      exact h.sound hstate
  · intro other state exit next hstate hexit hnext
    have hold : ∀ {st}, grid.states s other=some st → exit ∈ st → owed other exit ∨
        OnStack grid (s.reach grid.cellCount node exits) other exit ∨
        Served grid.slots.get s₀.allowedExits
          (grid.states (s.reach grid.cellCount node exits)) next exit := by
      intro st hst hin
      rcases h.served hst hin hnext with ho | ⟨item,hitem,hoid,hmem⟩ | hserved
      · exact .inl ho
      · exact .inr (.inl ⟨item,hstack item hitem,by rw [hspec.idOf]; exact hoid,hmem⟩)
      · exact .inr (.inr (hserved.mono (hgrows next)))
    by_cases hk : other=key
    · subst hk
      rw [hself] at hstate
      cases hstate
      by_cases hin : exit ∈ (grid.states s other).getD ∅
      · cases hst : grid.states s other with
        | none =>
          rw [hst] at hin
          simp at hin
        | some st =>
          rw [hst] at hin
          exact hold hst hin
      · have hfresh : exit ∈ exits \ (grid.states s other).getD ∅ :=
          mem_sdiff.2 ⟨(mem_union.1 hexit).resolve_left hin,hin⟩
        refine .inr (.inl ⟨(node,exits \ (grid.states s other).getD ∅),?_,?_,hfresh⟩)
        · rw [hspec.stack,if_pos ⟨exit,hfresh⟩]
          exact .head _
        · rw [hspec.idOf]
          exact hid
    · rw [hother hk] at hstate
      exact hold hstate hexit

end

lemma leave (owed' : SectionKey → Face → Prop) (hgrid : grid.Sound) (h : Walk grid P owed s₀ s)
    (hstep : ∀ {f f'}, P f → Step grid.slots.get s₀.allowedExits f f' → P f')
    {key : SectionKey} {exit : Face} {state : Finset Face} (hstate : grid.states s key=some state)
    (hexit : exit ∈ state)
    (howed : ∀ {other e}, owed other e → owed' other e ∨ (other=key ∧ e=exit)) :
    Walk grid P owed' s₀ (CaveVisibilityScratch.leave grid key s exit) := by
  have hP : P (.exit key exit) := (h.sound hstate).2 exit hexit
  unfold CaveVisibilityScratch.leave
  cases hadj : adjacent key exit with
  | none =>
    refine h.weaken fun _ _ hnext ho=>?_
    rcases howed ho with ho' | ⟨rfl,rfl⟩
    · exact .inl ho'
    · rw [hadj] at hnext
      cases hnext
  | some next =>
    dsimp only
    cases hget : grid.slots.get next with
    | none =>
      rw [node_none hgrid hget]
      refine h.weaken fun _ _ hnext ho=>?_
      rcases howed ho with ho' | ⟨rfl,rfl⟩
      · exact .inl ho'
      · rw [hadj] at hnext
        cases hnext
        refine .inr fun value hvalue=>?_
        rw [hget] at hvalue
        cases hvalue
    | some value =>
      obtain ⟨node,hnode,hid,hspec⟩ := node_some hgrid h.numbered hget
      rw [hnode]
      have hallow : (s.node grid next).2.allowedExits=s₀.allowedExits := (h.keeps.trans hspec.keeps).allowedExits
      rw [hallow]
      obtain ⟨hwalk,entered,hentered,hsub⟩ := (h.node hspec).reach (value.row exit.opposite ∩ s₀.allowedExits next) hid
        (hstep hP (.reached hadj hget)) fun e he=>hstep hP (.exit hadj hget (mem_inter.1 he).1 (mem_inter.1 he).2)
      refine hwalk.weaken fun _ _ hnext ho=>?_
      rcases howed ho with ho' | ⟨rfl,rfl⟩
      · exact .inl ho'
      · rw [hadj] at hnext
        cases hnext
        refine .inr fun v hv=>?_
        rw [hget] at hv
        cases hv
        exact ⟨entered,hentered,hsub⟩

end Walk

lemma leave_numbered (hgrid : grid.Sound) (hs : Numbered grid.cellCount grid.slots s) (key : SectionKey) (exit : Face) :
    Numbered grid.cellCount grid.slots (leave grid key s exit) ∧
      Grows grid s (leave grid key s exit) := by
  unfold leave
  cases hadj : adjacent key exit with
  | none => exact ⟨hs,.refl grid s⟩
  | some next =>
    dsimp only
    cases hget : grid.slots.get next with
    | none =>
      rw [node_none hgrid hget]
      exact ⟨hs,.refl grid s⟩
    | some value =>
      obtain ⟨node,hnode,hid,hspec⟩ := node_some hgrid hs hget
      rw [hnode]
      have hreach := hspec.numbered.reach (value.row exit.opposite ∩ (s.node grid next).2.allowedExits next) hid
      refine ⟨hreach.numbered,fun other state hstate=>?_⟩
      rw [← hspec.states] at hstate
      exact hreach.grows other state hstate

/-- The keys of the graph. -/
noncomputable def ConnectivityGrid.members (grid : ConnectivityGrid) : Finset SectionKey :=
  ((Finset.range grid.cellCount).biUnion fun index =>
    ((grid.cells index).map Cell.key).toFinset) ∪ grid.overflow.keys

lemma ConnectivityGrid.card_members (grid : ConnectivityGrid) :
    grid.members.card≤grid.cellCount+grid.overflow.keys.card := by
  refine (card_union_le _ _).trans (Nat.add_le_add_right ?_ _)
  refine (card_biUnion_le).trans ?_
  calc ∑ index ∈ Finset.range grid.cellCount, ((grid.cells index).map Cell.key).toFinset.card
      ≤ ∑ _index ∈ Finset.range grid.cellCount, 1 := by
        refine sum_le_sum fun index _=>?_
        cases grid.cells index <;> simp
    _=grid.cellCount := by simp

lemma Numbered.mem_members (hs : Numbered grid.cellCount grid.slots s)
    {value : FaceConnectivity} (h : grid.slots.get key=some value) : key ∈ grid.members := by
  by_cases hin : grid.slots.InCell key
  · obtain ⟨v,hv⟩ := hin
    refine mem_union_left _ (mem_biUnion.2 ⟨grid.index key,mem_range.2 (hs.bound hv),?_⟩)
    change grid.cells (grid.index key) = _ at hv
    simp [hv]
  · rw [Slots.get_of_not_inCell hin] at h
    exact mem_union_right _ (Finmap.mem_keys.2 (Finmap.mem_of_lookup_eq_some h))

noncomputable def exitsLeft (grid : ConnectivityGrid) (s : CaveVisibilityScratch) : ℕ :=
  s.stack.length + ∑ key ∈ grid.members, (6 - ((grid.states s key).getD ∅).card)

lemma exitsLeft_le (grid : ConnectivityGrid) (s : CaveVisibilityScratch) :
    exitsLeft grid s ≤ s.stack.length+6 * (grid.cellCount+grid.overflow.keys.card) := by
  refine Nat.add_le_add_left ?_ _
  calc ∑ key ∈ grid.members, (6 - ((grid.states s key).getD ∅).card)
      ≤ ∑ _key ∈ grid.members, 6 := sum_le_sum fun _ _=>Nat.sub_le _ _
    _=6*grid.members.card := by rw [sum_const,smul_eq_mul,Nat.mul_comm]
    _≤6 * (grid.cellCount+grid.overflow.keys.card) :=
        Nat.mul_le_mul_left 6 grid.card_members

/-- A stacked item pays for itself with the exits it adds. -/
lemma ReachSays.exitsLeft_le {node : ℕ} {exits : Finset Face}
    (h : ReachSays grid.cellCount grid.slots s key node exits s')
    (hkey : key ∈ grid.members) : exitsLeft grid s'≤exitsLeft grid s := by
  have hself : grid.states s' key=some ((grid.states s key).getD ∅ ∪ exits) := by
    rw [ConnectivityGrid.states,h.stateOf,if_pos rfl]
  have hcard : ((grid.states s key).getD ∅ ∪ exits).card =
      ((grid.states s key).getD ∅).card + (exits \ (grid.states s key).getD ∅).card := by
    rw [← union_sdiff_self_eq_union, card_union_of_disjoint disjoint_sdiff]
  have hsix : ((grid.states s key).getD ∅ ∪ exits).card≤6 := card_le_univ _
  have hpay : ∑ other ∈ grid.members, (6 - ((grid.states s' other).getD ∅).card) +
      (exits \ (grid.states s key).getD ∅).card ≤
      ∑ other ∈ grid.members, (6 - ((grid.states s other).getD ∅).card) := by
    refine potential_le hkey (fun other _ hk=>?_) ?_
    · rw [ConnectivityGrid.states,h.stateOf,if_neg hk]
    · rw [hself,Option.getD_some]
      omega
  have hstack : s'.stack.length ≤ s.stack.length + (exits \ (grid.states s key).getD ∅).card := by
    rw [h.stack]
    split_ifs with hne
    · have := card_pos.2 hne
      exact Nat.add_le_add_left this _
    · exact Nat.le_add_right _ _
  unfold exitsLeft
  omega

lemma leave_exitsLeft (hgrid : grid.Sound) (hs : Numbered grid.cellCount grid.slots s)
    (key : SectionKey) (exit : Face) :
    exitsLeft grid (leave grid key s exit) ≤ exitsLeft grid s := by
  unfold leave
  cases hadj : adjacent key exit with
  | none => exact le_refl _
  | some next =>
    dsimp only
    cases hget : grid.slots.get next with
    | none =>
      rw [node_none hgrid hget]
    | some value =>
      obtain ⟨node,hnode,hid,hspec⟩ := node_some hgrid hs hget
      rw [hnode]
      have hreach := hspec.numbered.reach (value.row exit.opposite ∩ (s.node grid next).2.allowedExits next) hid
      refine (hreach.exitsLeft_le (hs.mem_members hget)).trans_eq ?_
      unfold exitsLeft
      rw [hspec.states,hspec.stack]

namespace Walk

variable {P : Fact → Prop} {owed owed' : SectionKey → Face → Prop}

lemma leaveAll (hgrid : grid.Sound) (hstep : ∀ {f f'}, P f → Step grid.slots.get s₀.allowedExits f f' → P f')
    {key : SectionKey} (exits : List Face)
    (h : Walk grid P (fun other e=>owed other e ∨ (other=key ∧ e ∈ exits)) s₀ s)
    {state : Finset Face} (hstate : grid.states s key=some state)
    (hexits : ∀ exit ∈ exits, exit ∈ state) :
    Walk grid P owed s₀ (exits.foldl (CaveVisibilityScratch.leave grid key) s) ∧
      Grows grid s (exits.foldl (CaveVisibilityScratch.leave grid key) s) ∧
      exitsLeft grid (exits.foldl (CaveVisibilityScratch.leave grid key) s) ≤ exitsLeft grid s := by
  induction exits generalizing s state with
  | nil =>
    exact ⟨h.weaken fun _ _ _ ho=>.inl (by simpa using ho),.refl grid s,le_refl _⟩
  | cons exit rest ih =>
    have hwalk := h.leave (fun other e=>owed other e ∨ (other=key ∧ e ∈ rest)) hgrid
      hstep hstate (hexits exit (.head _)) fun {other e} ho=>by
        rw [List.mem_cons] at ho
        tauto
    obtain ⟨hnumbered,hgrows⟩ := leave_numbered hgrid h.numbered key exit
    obtain ⟨state',hstate',hsub⟩ := hgrows key state hstate
    obtain ⟨hrest,hgrows',hle⟩ := ih hwalk hstate' fun e he =>
      hsub (hexits e (.tail _ he))
    exact ⟨hrest,hgrows.trans hgrows',hle.trans (leave_exitsLeft hgrid h.numbered key exit)⟩

variable {rest : CaveVisibilityScratch} {item : ℕ × Finset Face}

/-- Popping an item owes its exits. -/
lemma pop (h : Walk grid P owed s₀ s) (hpop : s.pop=some (item,rest)) :
    ∃ key state, (rest.describe grid item.1).1=key ∧ grid.states rest key=some state ∧
      item.2 ⊆ state ∧ exitsLeft grid rest+1=exitsLeft grid s ∧ Grows grid s rest ∧
      Walk grid P (fun other e=>owed other e ∨ (other=key ∧ e ∈ item.2)) s₀ rest := by
  unfold CaveVisibilityScratch.pop at hpop
  cases hstack : s.stack with
  | nil =>
    rw [hstack] at hpop
    cases hpop
  | cons top tail =>
    rw [hstack] at hpop
    cases hpop
    obtain ⟨key,state,hid,hstate,hsub⟩ := h.stacked item (by
      rw [hstack]
      exact .head _)
    have hnumbered := h.numbered
    have hrest : Numbered grid.cellCount grid.slots { s with stack := tail } :=
      ⟨hnumbered.ok,hnumbered.bound,hnumbered.len,hnumbered.empty,hnumbered.touched, hnumbered.ids,hnumbered.live⟩
    have hkeeps := h.keeps
    refine ⟨key,state,hrest.describe_of_idOf hid,hstate,hsub,?_,.refl grid s,?_⟩
    · unfold exitsLeft
      rw [hstack,List.length_cons,Nat.add_right_comm]
      rfl
    · refine ⟨hrest,⟨hkeeps.camera,hkeeps.checkpoint,hkeeps.cameraPresent,hkeeps.outwardOnly,
        hkeeps.builtOutwardOnly,hkeeps.supersetUpdates⟩,h.grows,h.idOf,fun other hother=>h.stacked other (by
        rw [hstack]
        exact .tail _ hother),h.touched,h.added,h.sound,?_⟩
      intro other st exit next hst hexit hnext
      rcases h.served hst hexit hnext with ho | ⟨entry,hentry,hoid,hin⟩ | hserved
      · exact .inl (.inl ho)
      · rw [hstack] at hentry
        rcases List.mem_cons.1 hentry with rfl | hentry
        · exact .inl (.inr ⟨hnumbered.idOf_inj hoid hid,hin⟩)
        · exact .inr (.inl ⟨entry,hentry,hoid,hin⟩)
      · exact .inr (.inr hserved)

lemma mem_inBitOrder {exits : Finset Face} {exit : Face} : exit ∈ inBitOrder exits ↔ exit ∈ exits := by
  unfold inBitOrder
  rw [List.mem_filter,decide_eq_true_iff,and_iff_right (Face.mem_all exit)]

/-- One round of the loop. -/
lemma explore (hgrid : grid.Sound) (hstep : ∀ {f f'}, P f → Step grid.slots.get s₀.allowedExits f f' → P f')
    (h : Walk grid P owed s₀ s)
    (hpop : s.pop=some (item,rest)) :
    Walk grid P owed s₀ (CaveVisibilityScratch.explore grid item rest) ∧
      Grows grid s (CaveVisibilityScratch.explore grid item rest) ∧
      exitsLeft grid (CaveVisibilityScratch.explore grid item rest) < exitsLeft grid s := by
  obtain ⟨key,state,hkey,hstate,hsub,hleft,hgrows,hrest⟩ := h.pop hpop
  unfold CaveVisibilityScratch.explore
  rw [hkey]
  obtain ⟨hwalk,hgrows',hle⟩ := @leaveAll grid rest s₀ P owed hgrid hstep key (inBitOrder item.2)
    (hrest.weaken fun _ _ _ ho=>.inl (by rwa [mem_inBitOrder])) state hstate
    fun exit hexit=>hsub (mem_inBitOrder.1 hexit)
  exact ⟨hwalk,hgrows.trans hgrows',by omega⟩

/-- The loop ends with nothing on the stack. -/
lemma propagate (hgrid : grid.Sound) (hstep : ∀ {f f'}, P f → Step grid.slots.get s₀.allowedExits f f' → P f')
    (h : Walk grid P owed s₀ s) :
    Walk grid P owed s₀ (CaveVisibilityScratch.propagate grid s) ∧
      Grows grid s (CaveVisibilityScratch.propagate grid s) ∧
      (CaveVisibilityScratch.propagate grid s).stack = [] := by
  obtain ⟨⟨hwalk,hgrows⟩,hpop⟩ := exhaust_spec (I := fun t=>Walk grid P owed s₀ t ∧ Grows grid s t) (exitsLeft grid)
    (fun t next ht hp=>by
      obtain ⟨key,state,-,-,-,hleft,-⟩ := ht.1.pop hp
      omega)
    (fun t item rest ht hp=>by
      obtain ⟨hexplored,hgrew,hlt⟩ := ht.1.explore hgrid hstep hp
      exact ⟨⟨hexplored,ht.2.trans hgrew⟩,hlt⟩)
    ⟨h,.refl grid s⟩ (exitsLeft_le grid s)
  refine ⟨hwalk,hgrows,?_⟩
  change CaveVisibilityScratch.pop (CaveVisibilityScratch.propagate grid s) = none at hpop
  unfold CaveVisibilityScratch.pop at hpop
  cases hstack : (CaveVisibilityScratch.propagate grid s).stack with
  | nil => rfl
  | cons top tail =>
    rw [hstack] at hpop
    cases hpop

end Walk

end Cinnabar.Culling
