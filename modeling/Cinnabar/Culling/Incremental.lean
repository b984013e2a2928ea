import Cinnabar.Culling.SameRegion

/-! # One incremental update -/

namespace Cinnabar.Culling

open CaveVisibilityScratch List Function

variable {grid : ConnectivityGrid} {s s' : CaveVisibilityScratch} {slots slots' : Slots}

/-- What replaying entries leaves alone. -/
structure ReplayKeeps (s s' : CaveVisibilityScratch) : Prop where
  outwardOnly : s'.outwardOnly=s.outwardOnly
  addedVisible : s'.addedVisible=s.addedVisible
  superset : s'.supersetUpdates=s.supersetUpdates ∨ s'.supersetUpdates=some (s.supersetUpdates.getD 0)

lemma replay_keeps (grid : ConnectivityGrid) (s : CaveVisibilityScratch) (change : GraphChange) :
    ReplayKeeps s (replay grid s change) := by
  have hforget : ∀ key cell, (s.forget grid key cell).outwardOnly=s.outwardOnly ∧
      (s.forget grid key cell).addedVisible=s.addedVisible ∧
      (s.forget grid key cell).supersetUpdates=s.supersetUpdates := by
    intro key cell
    unfold CaveVisibilityScratch.forget
    cases cell with
    | some cell => exact ⟨rfl,rfl,rfl⟩
    | none => cases s.overflowIds key <;> exact ⟨rfl,rfl,rfl⟩
  cases change with
  | opened key => exact ⟨rfl,rfl,.inl rfl⟩
  | narrowed => exact ⟨rfl,rfl,.inr rfl⟩
  | removed key cell =>
    obtain ⟨ho,ha,hs⟩ := hforget key cell
    refine ⟨ho,ha,.inr ?_⟩
    change some ((s.forget grid key cell).supersetUpdates.getD 0) = _
    rw [hs]
  | promoted key cell =>
    obtain ⟨ho,ha,hs⟩ := hforget key none
    exact ⟨ho,ha,.inl hs⟩

/-- The nodes touched by promotions hold reached keys, while nothing was lost. -/
def Promotions (slots : Slots) (s : CaveVisibilityScratch) (nodes : List ℕ) : Prop :=
  s.supersetUpdates=none → ∀ node ∈ nodes, ∃ cell, slots.cells node=some cell ∧ s.visited node≠none

lemma Promotions.nil (slots : Slots) (s : CaveVisibilityScratch) : Promotions slots s [] :=
  fun _ _ hnode=>nomatch hnode

lemma put_cells (hs : slots.Ok) (key : SectionKey) (value : FaceConnectivity) {node : ℕ}
    (h : (slots.cells node).isSome) : ((slots.put key value).cells node).isSome := by
  rcases Slots.put_cases hs key value with ⟨hput,-⟩ | ⟨hput,-,-⟩
  · rw [hput]
    exact h
  · rw [hput]
    change (update slots.cells _ _ node).isSome
    rw [update_apply]
    split_ifs
    · rfl
    · exact h

variable {nodes : List ℕ} {change : GraphChange}

lemma promotions_step (grid : ConnectivityGrid) (hs : slots.Ok)
    (hchange : Change change slots slots') (h : Promotions slots s nodes) :
    ∃ more, (replay grid s change).touched=s.touched++more ∧
      Promotions slots' (replay grid s change) (nodes++more) := by
  have hput : ∀ key value, Promotions (slots.put key value) s nodes := by
    intro key value hexact node hnode
    obtain ⟨cell,hcell,hvisited⟩ := h hexact node hnode
    obtain ⟨cell',hcell'⟩ := Option.isSome_iff_exists.1
      (put_cells hs key value (Option.isSome_iff_exists.2 ⟨cell,hcell⟩))
    exact ⟨cell',hcell',hvisited⟩
  have hforget : ∀ key cell, (s.forget grid key cell).touched=s.touched := by
    intro key cell
    unfold CaveVisibilityScratch.forget
    cases cell with
    | some cell => rfl
    | none => cases s.overflowIds key <;> rfl
  cases hchange with
  | joined value hnew =>
    refine ⟨[],(append_nil _).symm,?_⟩
    rw [append_nil]
    exact hput _ value
  | gained value hold hsub =>
    refine ⟨[],(append_nil _).symm,?_⟩
    rw [append_nil]
    exact hput _ value
  | narrowed value hold hsub => exact ⟨[],(append_nil _).symm,fun hexact=>nomatch hexact⟩
  | removedCell hin =>
    exact ⟨[],((append_nil _).trans (hforget _ _).symm).symm,fun hexact=>nomatch hexact⟩
  | removedOverflow hover =>
    exact ⟨[],((append_nil _).trans (hforget _ _).symm).symm,fun hexact=>nomatch hexact⟩
  | @promoted _ key value hover hcell =>
    have hfield : (s.forget grid key none).visited=s.visited ∧
        (s.forget grid key none).supersetUpdates=s.supersetUpdates := by
      unfold CaveVisibilityScratch.forget
      cases s.overflowIds key <;> exact ⟨rfl,rfl⟩
    have hstate : ∀ state : NodeState, state =
        ((s.overflowIds key).bind fun id=>s.overflowVisited (id-grid.cellCount)) →
        ∃ more, (replay grid s (.promoted key (slots.index key))).touched=s.touched++more ∧
          ∀ node ∈ more, node=slots.index key ∧ state≠none := by
      rintro state rfl
      have htouched : (replay grid s (.promoted key (slots.index key))).touched =
          if ((s.overflowIds key).bind fun id=>s.overflowVisited (id-grid.cellCount)).isSome then
            (s.forget grid key none).touched ++ [slots.index key]
          else (s.forget grid key none).touched := rfl
      rw [htouched,hforget]
      split_ifs with hsome
      · exact ⟨[slots.index key],rfl,fun node hnode =>
          ⟨mem_singleton.1 hnode,Option.isSome_iff_ne_none.1 hsome⟩⟩
      · exact ⟨[],(append_nil _).symm,fun node hnode=>nomatch hnode⟩
    obtain ⟨more,htouched,hmore⟩ := hstate _ rfl
    refine ⟨more,htouched,fun hexact node hnode=>?_⟩
    have hvisited : (replay grid s (.promoted key (slots.index key))).visited = update s.visited (slots.index key)
          ((s.overflowIds key).bind fun id=>s.overflowVisited (id-grid.cellCount)) := by
      change update (s.forget grid key none).visited _ _=_
      rw [hfield.1]
    have hcells : ((slots.eraseOverflow key).setCell (slots.index key) (some ⟨key,value⟩)).cells =
        update slots.cells (slots.index key) (some ⟨key,value⟩) := rfl
    rw [hvisited,hcells]
    rcases mem_append.1 hnode with hold | hnew
    · obtain ⟨cell,hhas,hne⟩ := h (hfield.2.symm.trans hexact) node hold
      have hother : node≠slots.index key := by
        rintro rfl
        rw [hcell] at hhas
        cases hhas
      rw [update_of_ne hother,update_of_ne hother]
      exact ⟨cell,hhas,hne⟩
    · obtain ⟨rfl,hne⟩ := hmore node hnew
      rw [update_self,update_self]
      exact ⟨_,rfl,hne⟩

lemma Graph.Le.trans {graph graph' graph'' : Graph} (h : graph.Le graph')
    (h' : graph'.Le graph'') : graph.Le graph'' := by
  intro key value hvalue
  obtain ⟨value',hvalue',hsub⟩ := h key value hvalue
  obtain ⟨value'',hvalue'',hsub'⟩ := h' key value' hvalue'
  exact ⟨value'',hvalue'',hsub.trans hsub'⟩

lemma Change.opened_mem {key : SectionKey}
    (h : Change change slots slots') (hopened : change = .opened key) (hs : slots.Ok) :
    ∃ value, slots'.get key=some value := by
  subst hopened
  cases h with
  | joined value hnew => exact ⟨value,by rw [(hs.put key value).2,if_pos rfl]⟩
  | gained value hold hsub => exact ⟨value,by rw [(hs.put key value).2,if_pos rfl]⟩

variable {camera : SectionKey} {changes : List GraphChange}

lemma Retained.replayAll {opened visible : SectionKey → Prop} (h : Retained grid.cellCount slots camera opened visible s)
    (hreplays : Replays changes slots slots')
    (hopened : ∀ key, GraphChange.opened key ∈ changes → opened key)
    (hindex : changes ≠ [] → ∀ key, slots.index key<grid.cellCount) (hnodes : Promotions slots s nodes) :
    Retained grid.cellCount slots' camera opened visible (changes.foldl (replay grid) s) ∧
      (changes.foldl (replay grid) s).cameraPresent=s.cameraPresent ∧
      (changes.foldl (replay grid) s).builtOutwardOnly=s.builtOutwardOnly ∧
      ReplayKeeps s (changes.foldl (replay grid) s) ∧
      (changes = [] → (changes.foldl (replay grid) s).supersetUpdates=s.supersetUpdates) ∧
      ((changes.foldl (replay grid) s).supersetUpdates=none → Graph.Le slots.get slots'.get ∧
        ∀ key, GraphChange.opened key ∈ changes → (slots'.get key).isSome) ∧
      ∃ more, (changes.foldl (replay grid) s).touched=s.touched++more ∧
        Promotions slots' (changes.foldl (replay grid) s) (nodes++more) := by
  induction hreplays generalizing s nodes with
  | nil slots =>
    refine ⟨h,rfl,rfl,⟨rfl,rfl,.inl rfl⟩,fun _=>rfl,fun _=>⟨fun key value hvalue =>
      ⟨value,hvalue,Finset.Subset.refl _⟩,fun key hkey=>nomatch hkey⟩,[],
      (append_nil _).symm,?_⟩
    rw [append_nil]
    exact hnodes
  | @cons change changes slots slots' slots'' hchange hrest ih =>
    have hspec : ReplaySays grid.cellCount slots slots' opened s (replay grid s change) :=
      replay_spec h.numbered hchange (fun key hkey=>hopened key (by
        rw [hkey]
        exact .head _)) (hindex (cons_ne_nil _ _))
    obtain ⟨more,htouched,hpromotions⟩ := promotions_step grid h.numbered.ok hchange hnodes
    have hsame := (hchange.ok h.numbered.ok).2
    obtain ⟨hretained,hpresent,hrule,hkeeps,-,hexact,more',htouched',hpromotions'⟩ := ih
      (h.step hspec) (fun key hkey=>hopened key (.tail _ hkey)) (fun _ key=>by
        rw [hsame]
        exact hindex (cons_ne_nil _ _) key) hpromotions
    have hkeep := replay_keeps grid s change
    rw [foldl_cons]
    refine ⟨hretained,hpresent.trans hspec.cameraPresent,hrule.trans hspec.builtOutwardOnly,
      ⟨hkeeps.outwardOnly.trans hkeep.outwardOnly,hkeeps.addedVisible.trans hkeep.addedVisible,?_⟩,
      fun h=>absurd h (cons_ne_nil _ _),fun hnone=>?_,more++more',?_,?_⟩
    · rcases hkeeps.superset with h₁ | h₁ <;> rcases hkeep.superset with h₂ | h₂ <;> rw [h₁,h₂] <;> simp
    · obtain ⟨hle,hopen⟩ := hexact hnone
      have hmid : (replay grid s change).supersetUpdates=none := by
        rcases hkeeps.superset with h₁ | h₁
        · rw [← h₁]
          exact hnone
        · rw [h₁] at hnone
          cases hnone
      refine ⟨((hspec.exact hmid).2).trans hle,fun key hkey=>?_⟩
      rcases mem_cons.1 hkey with heq | hkey
      · obtain ⟨value,hvalue⟩ := hchange.opened_mem heq.symm h.numbered.ok
        obtain ⟨value',hvalue',-⟩ := hle key value hvalue
        rw [hvalue']
        rfl
      · exact hopen key hkey
    · rw [htouched',htouched,append_assoc]
    · rw [← append_assoc]
      exact hpromotions'

variable {visible : SectionKey → Prop}

lemma Retained.weaken {cells : ℕ}
    (h : Retained cells slots camera (fun _=>False) visible s) (opened : SectionKey → Prop) :
    Retained cells slots camera opened visible { s with addedVisible := [] } where
  numbered :=
    { __ := h.numbered }
  __ := h
  served := fun hstate hexit hnext=>(h.served hstate hexit hnext).imp False.elim id
  seeded := fun hpresent=>(h.seeded hpresent).imp False.elim id
  absent := fun habsent=>⟨(h.absent habsent).1,fun key hkey =>
    ((h.absent habsent).2 key hkey).imp False.elim id⟩
  shell := fun hrule _ _ _ hkey hnext hsome=>(h.shell hrule hkey hnext hsome).imp False.elim id

/-- What the extended traversal knows before it is published: `nodes` were touched by the update. -/
structure Extended (grid : ConnectivityGrid) (camera : SectionKey) (visible : SectionKey → Prop)
    (nodes : List ℕ) (s : CaveVisibilityScratch) : Prop where
  numbered : Numbered grid.cellCount grid.slots s
  stack : s.stack = []
  viewed : s.camera=some camera
  served : ∀ {key state exit next}, grid.states s key=some state → exit ∈ state →
    adjacent key exit=some next → Served grid.slots.get s.allowedExits (grid.states s) next exit
  seeded : s.cameraPresent=true → ∀ value, grid.slots.get camera=some value →
    ∃ state, grid.states s camera=some state ∧ value.touchedFaces ⊆ state
  absent : s.cameraPresent=false → (∀ key, grid.states s key=none) ∧
    ∀ key, (grid.slots.get key).isSome → key ∈ s.addedVisible ∨ visible key
  shown : ∀ key, grid.states s key≠none → visible key ∨ ∃ node ∈ nodes, grid.slots.idOf s key=some node
  shell : s.builtOutwardOnly=false → ∀ {key face next}, grid.states s key≠none →
    adjacent key face=some next → (grid.slots.get next).isSome →
    (next ∈ s.addedVisible ∨ visible next) ∨ ∃ node ∈ nodes, grid.slots.idOf s key=some node
  exact : s.supersetUpdates=none → (∀ key, visible key ∨ key ∈ s.addedVisible → (grid.slots.get key).isSome ∧
      (s.cameraPresent=true → Lit grid.slots.get s.builtOutwardOnly camera key)) ∧
    (∀ {key state}, grid.states s key=some state →
      Reaches grid.slots.get (ruleExits s.builtOutwardOnly camera) camera (.reached key) ∧
      ∀ exit ∈ state, Reaches grid.slots.get (ruleExits s.builtOutwardOnly camera) camera (.exit key exit)) ∧
    ∀ node ∈ nodes, ∃ key, grid.slots.idOf s key=some node ∧ grid.states s key≠none

lemma Promotions.live (h : Promotions grid.slots s nodes)
    (hs : Numbered grid.cellCount grid.slots s) (hexact : s.supersetUpdates=none) :
    ∀ node ∈ nodes, ∃ key, grid.slots.idOf s key=some node ∧ grid.states s key≠none := by
  intro node hnode
  obtain ⟨⟨key,value⟩,hcell,hvisited⟩ := h hexact node hnode
  have hindex : grid.slots.index key=node := hs.ok.home hcell
  have hid : grid.slots.idOf s key=some node := by
    rw [← hindex] at hcell ⊢
    exact Slots.idOf_inCell ⟨value,hcell⟩
  refine ⟨key,hid,?_⟩
  unfold ConnectivityGrid.states Slots.stateOf
  rw [hid]
  change s.stateAt _ node≠none
  rw [CaveVisibilityScratch.stateAt,if_pos (hs.bound hcell)]
  exact hvisited

lemma Walk.rebase {s₀ : CaveVisibilityScratch} {P : Fact → Prop}
    {owed : SectionKey → Face → Prop} (h : Walk grid P owed s₀ s) : Walk grid P owed s s where
  __ := h
  keeps := .refl s
  grows := .refl grid s
  idOf := id
  touched := by
    refine ⟨[],(append_nil _).symm,fun key hnone hsome=>absurd hnone hsome,?_⟩
    intro node hnode
    cases hnode
  added := ⟨fun _=>id,fun _=>.inl⟩
  served := by
    intro key state exit next hstate hexit hnext
    rw [h.keeps.allowedExits]
    exact h.served hstate hexit hnext

variable {before more : List ℕ}

lemma extended_present (hgrid : grid.Sound)
    (h : Retained grid.cellCount grid.slots camera (fun key=>GraphChange.opened key ∈ changes) visible s)
    (hpresent : s.cameraPresent=true) (hadded : s.addedVisible = [])
    (htouched : s.touched=before++more) (hmore : Promotions grid.slots s more) :
    ∃ nodes, (propagate grid (changes.foldl (seedChange grid) s)).touched=before++nodes ∧
      Extended grid camera visible nodes (propagate grid (changes.foldl (seedChange grid) s)) ∧
      Keeps s (propagate grid (changes.foldl (seedChange grid) s)) := by
  let P : Fact → Prop := fun f=>s.supersetUpdates=none →
    Reaches grid.slots.get (ruleExits s.builtOutwardOnly camera) camera f
  have hallow := allowedExits_eq h.viewed
  have hstep : ∀ {f f'}, P f → Step grid.slots.get s.allowedExits f f' → P f' := by
    intro f f' hf hff' hexact
    rw [hallow] at hff'
    exact (hf hexact).tail hff'
  have hseeds : SeedsHold grid P s := by
    intro key value hkey hvalue
    rw [h.viewed] at hkey
    cases hkey
    exact ⟨fun _=>Closure.of_seed (.reached hvalue), fun exit hexit _=>Closure.of_seed (.exit hvalue hexit)⟩
  have hstart : Walk grid P (fun other e=>∃ next, adjacent other e=some next ∧
      GraphChange.opened next ∈ changes) s s := by
    refine .start h.numbered h.stack (fun hstate=>?_) fun hstate hexit hnext=>?_
    · exact ⟨fun hexact=>((h.exact hexact).2 hstate).1, fun exit hexit hexact=>((h.exact hexact).2 hstate).2 exit hexit⟩
    · exact (h.served hstate hexit hnext).imp (fun ho=>⟨_,hnext,ho⟩) id
  obtain ⟨hseeded,hopen⟩ := seedChanges_spec hgrid hstep hseeds changes hpresent hstart
  obtain ⟨hwalk,hgrows,hstack⟩ := hseeded.propagate hgrid hstep
  have hsubAdded : (changes.foldl (seedChange grid) s).addedVisible ⊆
      (propagate grid (changes.foldl (seedChange grid) s)).addedVisible := by
    refine (hseeded.rebase.propagate hgrid fun {f f'} hf hff'=>?_).1.added.1
    rw [hseeded.keeps.allowedExits] at hff'
    exact hstep hf hff'
  generalize changes.foldl (seedChange grid) s=seeded at *
  generalize propagate grid seeded=t at *
  obtain ⟨nodes,hnodes,hnew,hlive⟩ := hwalk.touched
  refine ⟨more++nodes,?_,?_,hwalk.keeps⟩
  · rw [hnodes,htouched,append_assoc]
  · have hfound : ∀ key, grid.states t key≠none → grid.states s key≠none ∨
        ∃ node ∈ more++nodes, grid.slots.idOf t key=some node := by
      intro key hkey
      by_cases hwas : grid.states s key=none
      · obtain ⟨node,hnode,hid⟩ := hnew key hwas hkey
        exact .inr ⟨node,mem_append_right more hnode,hid⟩
      · exact .inl hwas
    refine ⟨hwalk.numbered,hstack,hwalk.keeps.camera.trans h.viewed,?_,?_,?_,?_,?_,?_⟩
    · intro key state exit next hstate hexit hnext
      rw [hwalk.keeps.allowedExits]
      rcases hwalk.served hstate hexit hnext with ho | ⟨item,hitem,-⟩ | hserved
      · exact ho.elim
      · rw [hstack] at hitem
        cases hitem
      · exact hserved
    · intro _ value hvalue
      rcases h.seeded hpresent with ho | hserved
      · obtain ⟨state,hstate,hsub⟩ := hopen.camera camera ho h.viewed value hvalue
        obtain ⟨state',hstate',hsub'⟩ := hgrows camera state hstate
        exact ⟨state',hstate',hsub.trans hsub'⟩
      · obtain ⟨state,hstate,hsub⟩ := hserved value hvalue
        obtain ⟨state',hstate',hsub'⟩ := hwalk.grows camera state hstate
        exact ⟨state',hstate',hsub.trans hsub'⟩
    · intro habsent
      rw [hwalk.keeps.cameraPresent,hpresent] at habsent
      cases habsent
    · intro key hkey
      exact (hfound key hkey).imp (h.shown key) id
    · intro hrule key face next hkey hnext hsome
      rcases hfound key hkey with hwas | hnode
      · refine .inl ?_
        rw [hwalk.keeps.builtOutwardOnly] at hrule
        rcases h.shell hrule hwas hnext hsome with ho | hvisible
        · exact .inl (hsubAdded (hopen.shell hrule next ho hsome face.opposite key (adjacent_comm hnext) hwas))
        · exact .inr hvisible
      · exact .inr hnode
    · intro hexact
      rw [hwalk.keeps.supersetUpdates] at hexact
      obtain ⟨hvisible,-⟩ := h.exact hexact
      have hsound : ∀ {key state}, grid.states t key=some state →
          Reaches grid.slots.get (ruleExits s.builtOutwardOnly camera) camera (.reached key) ∧
          ∀ exit ∈ state, Reaches grid.slots.get (ruleExits s.builtOutwardOnly camera) camera
            (.exit key exit) := by
        intro key state hstate
        obtain ⟨hreached,hexits⟩ := hwalk.sound hstate
        exact ⟨hreached hexact,fun exit hexit=>hexits exit hexit hexact⟩
      rw [hwalk.keeps.builtOutwardOnly]
      refine ⟨fun key hkey=>?_,hsound,fun node hnode=>?_⟩
      · rcases hkey with hkey | hkey
        · exact ⟨(hvisible key hkey).1,fun _=>(hvisible key hkey).2 hpresent⟩
        · rcases hwalk.added.2 key hkey with hold | ⟨hsome,hrule,face,neighbour,hadj,hreached⟩
          · rw [hadded] at hold
            cases hold
          · obtain ⟨state,hstate⟩ := Option.ne_none_iff_exists'.1 hreached
            refine ⟨hsome,fun _=>.inr ⟨hwalk.keeps.builtOutwardOnly.symm.trans hrule,neighbour,
              face.opposite,adjacent_comm hadj,(hsound hstate).1⟩⟩
      · rcases mem_append.1 hnode with hnode | hnode
        · obtain ⟨key,hid,hkey⟩ := hmore.live h.numbered hexact node hnode
          obtain ⟨state,hstate⟩ := Option.ne_none_iff_exists'.1 hkey
          obtain ⟨state',hstate',-⟩ := hwalk.grows key state hstate
          refine ⟨key,hwalk.idOf hid,?_⟩
          rw [hstate']
          exact Option.some_ne_none state'
        · exact hlive node hnode

lemma seedChanges_absent (changes : List GraphChange) (habsent : s.cameraPresent=false) :
    ∃ keys, changes.foldl (seedChange grid) s = { s with addedVisible := s.addedVisible++keys } ∧
      ∀ key, key ∈ keys ↔ GraphChange.opened key ∈ changes := by
  induction changes generalizing s with
  | nil => exact ⟨[],by simp,fun key=>by simp⟩
  | cons change rest ih =>
    cases change with
    | opened key =>
      have hseed : seedChange grid s (.opened key) = { s with addedVisible := s.addedVisible ++ [key] } :=
        if_neg (by rw [habsent]; exact Bool.false_ne_true)
      rw [foldl_cons,hseed]
      obtain ⟨keys,hkeys,hmem⟩ := @ih { s with addedVisible := s.addedVisible ++ [key] } habsent
      refine ⟨key::keys,?_,fun other=>?_⟩
      · rw [hkeys]
        simp
      · rw [mem_cons,hmem,mem_cons,GraphChange.opened.injEq]
    | narrowed =>
      obtain ⟨keys,hkeys,hmem⟩ := ih habsent
      exact ⟨keys,hkeys,fun other=>by rw [hmem]; simp⟩
    | removed key cell =>
      obtain ⟨keys,hkeys,hmem⟩ := ih habsent
      exact ⟨keys,hkeys,fun other=>by rw [hmem]; simp⟩
    | promoted key cell =>
      obtain ⟨keys,hkeys,hmem⟩ := ih habsent
      exact ⟨keys,hkeys,fun other=>by rw [hmem]; simp⟩

lemma propagate_nil (hstack : s.stack = []) : propagate grid s=s := by
  have hpop : s.pop=none := by
    unfold CaveVisibilityScratch.pop
    rw [hstack]
  unfold CaveVisibilityScratch.propagate
  generalize s.stack.length+6 * (grid.cellCount+grid.overflow.keys.card) = fuel
  cases fuel with
  | zero => rfl
  | succ fuel =>
    rw [exhaust,hpop]

lemma extended_absent
    (h : Retained grid.cellCount grid.slots camera (fun key=>GraphChange.opened key ∈ changes) visible s)
    (habsent : s.cameraPresent=false) (hadded : s.addedVisible = [])
    (htouched : s.touched=before++more) (hmore : Promotions grid.slots s more)
    (hopen : s.supersetUpdates=none → ∀ key, GraphChange.opened key ∈ changes → (grid.slots.get key).isSome) :
    ∃ nodes, (propagate grid (changes.foldl (seedChange grid) s)).touched=before++nodes ∧
      Extended grid camera visible nodes (propagate grid (changes.foldl (seedChange grid) s)) ∧
      Keeps s (propagate grid (changes.foldl (seedChange grid) s)) := by
  obtain ⟨keys,hkeys,hmem⟩ := @seedChanges_absent grid s changes habsent
  rw [hadded,nil_append] at hkeys
  rw [hkeys,propagate_nil (s := { s with addedVisible := keys }) h.stack]
  obtain ⟨hnone,hall⟩ := h.absent habsent
  have hnumbered := h.numbered
  refine ⟨more,htouched,⟨⟨hnumbered.ok,hnumbered.bound,hnumbered.len,hnumbered.empty,
    hnumbered.touched,hnumbered.ids,hnumbered.live⟩,h.stack,h.viewed,?_,?_,?_,?_,?_,?_⟩,
    ⟨rfl,rfl,rfl,rfl,rfl,rfl⟩⟩
  · intro key state exit next hstate
    change grid.slots.stateOf grid.cellCount s key=_ at hstate
    rw [hnone] at hstate
    cases hstate
  · intro hpresent
    rw [habsent] at hpresent
    cases hpresent
  · exact fun _=>⟨hnone,fun key hkey=>(hall key hkey).imp (hmem key).2 id⟩
  · exact fun key hkey=>absurd (hnone key) hkey
  · exact fun _ key _ _ hkey=>absurd (hnone key) hkey
  · intro hexact
    refine ⟨fun key hkey=>⟨?_,fun hpresent=>?_⟩,fun {key state} hstate=>?_, fun node hnode=>?_⟩
    · rcases hkey with hkey | hkey
      · exact ((h.exact hexact).1 key hkey).1
      · exact hopen hexact key ((hmem key).1 hkey)
    · rw [habsent] at hpresent
      cases hpresent
    · change grid.slots.stateOf grid.cellCount s key=_ at hstate
      rw [hnone] at hstate
      cases hstate
    · obtain ⟨key,hid,hkey⟩ := hmore.live h.numbered hexact node hnode
      exact absurd (hnone key) hkey

/-- The retained traversal has everything its camera reaches. -/
lemma Extended.contains (h : Extended grid camera visible nodes s) (hpresent : s.cameraPresent=true) {key : SectionKey}
    (hreached : Reaches grid.slots.get (ruleExits s.builtOutwardOnly camera) camera (.reached key)) :
    ∃ state, grid.states s key=some state ∧ ∀ exit,
      Reaches grid.slots.get (ruleExits s.builtOutwardOnly camera) camera (.exit key exit) →
        exit ∈ state := by
  have hnoted : ∀ fact, Reaches grid.slots.get (ruleExits s.builtOutwardOnly camera) camera fact →
      fact.Noted (grid.states s) := by
    intro fact hfact
    rw [← allowedExits_eq h.viewed] at hfact
    exact hfact.noted (h.seeded hpresent) h.served
  obtain ⟨state,hstate⟩ := hnoted _ hreached
  refine ⟨state,hstate,fun exit hexit=>?_⟩
  obtain ⟨state',hstate',hin⟩ := hnoted _ hexit
  rw [hstate] at hstate'
  cases hstate'
  exact hin

/-- The camera moved from `previous` without the traversal noticing. -/
structure Unmoved (grid : ConnectivityGrid) (previous camera : SectionKey)
    (s : CaveVisibilityScratch) : Prop where
  rule : s.builtOutwardOnly=true → previous=camera
  seeded : s.cameraPresent=true → ∀ value, grid.slots.get camera=some value →
    ∃ state, grid.states s camera=some state ∧ value.touchedFaces ⊆ state
  facts : s.cameraPresent=true → s.supersetUpdates=none → ∀ f,
    Reaches grid.slots.get (ruleExits s.builtOutwardOnly previous) previous f ↔
      Reaches grid.slots.get (ruleExits s.builtOutwardOnly camera) camera f

variable {previous : SectionKey}

lemma Extended.unmoved (hgrid : grid.Sound) (h : Extended grid previous visible nodes s) (camera : SectionKey)
    (hrule : s.builtOutwardOnly=true → previous=camera)
    (hmoved : cameraMoved camera grid s=false) : Unmoved grid previous camera s := by
  by_cases hsame : previous=camera
  · subst hsame
    exact ⟨hrule,h.seeded,fun _ _ _=>Iff.rfl⟩
  · have hdense : s.builtOutwardOnly=false := by
      cases hbuilt : s.builtOutwardOnly with
      | false => rfl
      | true => exact absurd (hrule hbuilt) hsame
    unfold cameraMoved at hmoved
    rw [h.viewed] at hmoved
    have hfacts : s.cameraPresent=true → s.supersetUpdates=none ∧ ∀ f,
        Reaches grid.slots.get (ruleExits s.builtOutwardOnly previous) previous f ↔
          Reaches grid.slots.get (ruleExits s.builtOutwardOnly camera) camera f := by
      intro hpresent
      have hexact : s.supersetUpdates=none ∧ sameRegion camera grid s=true := by
        simpa [hsame,hpresent] using hmoved
      refine ⟨hexact.1,fun f=>?_⟩
      obtain ⟨-,hsound,-⟩ := h.exact hexact.1
      rw [hdense] at hsound ⊢
      exact sameRegion_spec hgrid h.numbered h.viewed (fun hstate exit hexit=>(hsound hstate).2 exit hexit)
        (fun hstate=>(hsound hstate).1) hexact.2 f
    refine ⟨hrule,fun hpresent value hvalue=>?_,fun hpresent _=>(hfacts hpresent).2⟩
    have hiff := (hfacts hpresent).2
    obtain ⟨state,hstate,hexits⟩ := h.contains hpresent ((hiff _).2 (Closure.of_seed (.reached hvalue)))
    exact ⟨state,hstate,fun exit hexit =>
      hexits exit ((hiff _).2 (Closure.of_seed (.exit hvalue hexit)))⟩

lemma Lit.congr {graph : Graph} {outwardOnly : Bool} {previous camera key : SectionKey}
    (h : ∀ f, Reaches graph (ruleExits outwardOnly previous) previous f ↔
      Reaches graph (ruleExits outwardOnly camera) camera f)
    (hlit : Lit graph outwardOnly previous key) : Lit graph outwardOnly camera key := by
  rcases hlit with hreached | ⟨hrule,node,face,hadj,hreached⟩
  · exact .inl ((h _).1 hreached)
  · exact .inr ⟨hrule,node,face,hadj,(h _).1 hreached⟩

lemma Extended.published (hgrid : grid.Sound) {previous camera : SectionKey} {visible : CaveVisibleSet}
    (h : Extended grid previous (fun key=>key ∈ visible.members) nodes s)
    (hunmoved : Unmoved grid previous camera s) (hwell : visible.WellFormed) :
    let out := nodes.foldl (publishNode grid) (publishAdded { s with camera := some camera } visible)
    Retained grid.cellCount grid.slots camera (fun _=>False) (fun key=>key ∈ out.2.members)
        { out.1 with checkpoint := grid.checkpoint } ∧ out.2.WellFormed ∧
      SameButAdded { s with camera := some camera } out.1 := by
  obtain ⟨hsameAdded,hadded⟩ := @publishAdded_spec { s with camera := some camera } visible hwell
  obtain ⟨hsame,hnodes⟩ := publishNodes_spec hgrid nodes hsameAdded hadded.1
  generalize nodes.foldl (publishNode grid) (publishAdded { s with camera := some camera } visible) = out at *
  have hmembers : ∀ key, key ∈ out.2.members ↔ (key ∈ visible.members ∨ key ∈ s.addedVisible) ∨
      ∃ node ∈ nodes, Lights grid s.builtOutwardOnly (s.describe grid node).1 key := by
    intro key
    rw [hnodes.2,hadded.2]
    rfl
  have hlights : ∀ {key node other}, node ∈ nodes → grid.slots.idOf s key=some node →
      Lights grid s.builtOutwardOnly key other → other ∈ out.2.members := by
    intro key node other hnode hid hother
    refine (hmembers other).2 (.inr ⟨node,hnode,?_⟩)
    rw [h.numbered.describe_of_idOf hid]
    exact hother
  have hnumbered := h.numbered
  refine ⟨?_,hnodes.1,hsame⟩
  obtain ⟨keys,hkeys⟩ := hsame
  rw [hkeys]
  have hallow : ({ s with
      camera := some camera
      addedVisible := keys
      checkpoint := grid.checkpoint } : CaveVisibilityScratch).allowedExits=s.allowedExits := by
    rw [allowedExits_eq rfl,allowedExits_eq h.viewed]
    cases hbuilt : s.builtOutwardOnly with
    | false => rfl
    | true => rw [hunmoved.rule hbuilt]
  refine ⟨⟨hnumbered.ok,hnumbered.bound,hnumbered.len,hnumbered.empty,hnumbered.touched,
    hnumbered.ids,hnumbered.live⟩,h.stack,rfl,fun hstate hexit hnext=>.inr ?_,
    fun hpresent=>.inr (hunmoved.seeded hpresent),fun habsent=>?_,fun key hkey=>?_,
    fun hrule key face next hkey hnext hsome=>.inr ?_,fun hexact=>?_⟩
  · rw [hallow]
    exact h.served hstate hexit hnext
  · obtain ⟨hnone,hall⟩ := h.absent habsent
    exact ⟨hnone,fun key hkey=>.inr ((hmembers key).2 (.inl (hall key hkey).symm))⟩
  · rcases h.shown key hkey with hvisible | ⟨node,hnode,hid⟩
    · exact (hmembers key).2 (.inl (.inl hvisible))
    · exact hlights hnode hid (.inl rfl)
  · rcases h.shell hrule hkey hnext hsome with hshown | ⟨node,hnode,hid⟩
    · exact (hmembers next).2 (.inl hshown.symm)
    · exact hlights hnode hid (.inr ⟨hrule,face,hnext,hsome⟩)
  · obtain ⟨hvisible,hsound,hlive⟩ := h.exact hexact
    have hreached : ∀ {key state}, grid.states s key=some state → s.cameraPresent=true := by
      intro key state hstate
      by_contra habsent
      rw [Bool.not_eq_true] at habsent
      rw [(h.absent habsent).1 key] at hstate
      cases hstate
    refine ⟨fun key hkey=>?_,fun {key state} hstate=>?_⟩
    · rcases (hmembers key).1 hkey with hkey | ⟨node,hnode,hlight⟩
      · obtain ⟨hsome,hlit⟩ := hvisible key hkey
        exact ⟨hsome,fun hpresent=>(hlit hpresent).congr (hunmoved.facts hpresent hexact)⟩
      · obtain ⟨other,hid,hother⟩ := hlive node hnode
        obtain ⟨state,hstate⟩ := Option.ne_none_iff_exists'.1 hother
        rw [h.numbered.describe_of_idOf hid] at hlight
        obtain ⟨hsome,hlit⟩ := lit_of_lights (hsound hstate).1 hlight
        exact ⟨hsome,fun hpresent=>hlit.congr (hunmoved.facts hpresent hexact)⟩
    · have hiff := hunmoved.facts (hreached hstate) hexact
      exact ⟨(hiff _).1 (hsound hstate).1,fun exit hexit=>(hiff _).1 ((hsound hstate).2 exit hexit)⟩

/-- What holds of a scratch and the set it published between updates: while its checkpoint is
still in the grid's journal, the entries since lead from the slots it knows to the current ones. -/
structure Rest (grid : ConnectivityGrid) (s : CaveVisibilityScratch) (visible : CaveVisibleSet) :
    Prop where
  clean : Clean s
  bound : ∀ updates, s.supersetUpdates=some updates → updates < supersetUpdateLimit
  followed : s.checkpoint.1=grid.identity → s.checkpoint.2.1≤grid.epoch ∧
    (s.checkpoint.2.1=grid.epoch → s.checkpoint.2.2≤grid.journal.finish ∧
      (grid.journal.start ≤ s.checkpoint.2.2 → ∃ slots camera,
        Retained grid.cellCount slots camera (fun _=>False) (fun key=>key ∈ visible.members) s ∧
        Replays (grid.changesSince s.checkpoint.2.2) slots grid.slots ∧
        (grid.changesSince s.checkpoint.2.2 ≠ [] → grid.allocated=true)))

def VisibilityUpdate.published (out : VisibilityUpdate) : CaveVisibleSet :=
  if out.rebuilt then out.replacement else out.visible

structure UpdateSays (camera : SectionKey) (grid : ConnectivityGrid) (s : CaveVisibilityScratch)
    (out : VisibilityUpdate) : Prop where
  retained : Retained grid.cellCount grid.slots camera (fun _=>False) (fun key=>key ∈ out.published.members) out.scratch
  visible : out.visible.WellFormed
  replacement : out.replacement.WellFormed
  checkpoint : out.scratch.checkpoint=grid.checkpoint
  cameraPresent : out.scratch.cameraPresent=grid.containsKey camera
  outwardOnly : out.scratch.outwardOnly=s.outwardOnly
  builtOutwardOnly : out.scratch.builtOutwardOnly=s.outwardOnly
  superset : out.scratch.supersetUpdates=none ∨ ∃ updates,
    out.scratch.supersetUpdates=some (updates+1) ∧ updates+1 < supersetUpdateLimit ∧
    (s.supersetUpdates=some updates ∨ s.supersetUpdates=none ∧ grid.changesSince s.checkpoint.2.2 ≠ [])

lemma filled_leaves (hgrid : grid.Sound) {s t : CaveVisibilityScratch}
    {visible replacement : CaveVisibleSet} (hclean : Clean t) (hrule : t.outwardOnly=s.outwardOnly)
    (hvisible : visible.WellFormed) (hreplacement : replacement.WellFormed) (camera : SectionKey)
    (order : VisitOrder) :
    UpdateSays camera grid s ⟨true,(fillVisible camera grid order t replacement).1,visible,
      (fillVisible camera grid order t replacement).2⟩ := by
  have hfill := fill_spec hgrid hclean hreplacement camera order
  exact ⟨hfill.retained,hvisible,hfill.wellFormed,hfill.checkpoint,hfill.cameraPresent,
    hfill.outwardOnly.trans hrule,hfill.builtOutwardOnly.trans hrule,.inl hfill.supersetUpdates⟩

lemma Rest.of_not_outdated {visible : CaveVisibleSet}
    (h : Rest grid s visible) (hcurrent : outdated camera grid s=false) :
    s.builtOutwardOnly=s.outwardOnly ∧ (s.outwardOnly=true → s.camera=some camera) ∧
      s.cameraPresent=grid.containsKey camera ∧ ∃ slots previous,
        Retained grid.cellCount slots previous (fun _=>False) (fun key=>key ∈ visible.members) s ∧
        Replays (grid.changesSince s.checkpoint.2.2) slots grid.slots ∧
        (grid.changesSince s.checkpoint.2.2 ≠ [] → grid.allocated=true) := by
  unfold outdated at hcurrent
  simp only [Bool.or_eq_false_iff,bne_eq_false_iff_eq,Bool.and_eq_false_iff,decide_eq_false_iff_not,
    not_not,Bool.not_eq_false'] at hcurrent
  obtain ⟨⟨⟨⟨⟨hrule,hcamera⟩,hidentity⟩,hepoch⟩,hretains⟩,hpresent⟩ := hcurrent
  unfold ConnectivityGrid.retainsChanges at hretains
  simp only [Bool.and_eq_true,decide_eq_true_eq] at hretains
  refine ⟨hrule.symm,fun ho=>?_,hpresent,?_⟩
  · rcases hcamera with hno | hyes
    · rw [hno] at ho
      cases ho
    · exact hyes
  · exact ((h.followed hidentity).2 hepoch).2 hretains.1

lemma Extended.count (h : Extended grid camera visible nodes s) : Extended grid camera visible nodes
      { s with supersetUpdates := s.supersetUpdates.map (· + 1) } where
  numbered :=
    { __ := h.numbered }
  __ := h
  exact := fun hexact=>h.exact (Option.map_eq_none_iff.1 hexact)

/-- The retained traversal after both passes. -/
lemma extend_spec (hgrid : grid.Sound) (hretained : Retained grid.cellCount slots previous (fun _=>False) visible s)
    (hreplays : Replays (grid.changesSince s.checkpoint.2.2) slots grid.slots)
    (halloc : grid.changesSince s.checkpoint.2.2 ≠ [] → grid.allocated=true) :
    ∃ nodes, (extend grid s).touched=s.touched++nodes ∧ Extended grid previous visible nodes (extend grid s) ∧
      (extend grid s).cameraPresent=s.cameraPresent ∧
      (extend grid s).outwardOnly=s.outwardOnly ∧
      (extend grid s).builtOutwardOnly=s.builtOutwardOnly ∧
      ((extend grid s).supersetUpdates=none ∨ ∃ updates, (extend grid s).supersetUpdates=some (updates+1) ∧
        (s.supersetUpdates=some updates ∨
          s.supersetUpdates=none ∧ grid.changesSince s.checkpoint.2.2 ≠ [])) := by
  generalize hchanges : grid.changesSince s.checkpoint.2.2=changes at *
  have hindex : changes ≠ [] → ∀ key, slots.index key<grid.cellCount := by
    intro hne key
    have hsame := (hreplays.ok hretained.numbered.ok).2
    rw [← hsame]
    unfold ConnectivityGrid.cellCount
    rw [if_pos (halloc hne)]
    exact cellIndex_lt _ _ _
  obtain ⟨hreplayed,hpresent,hrule,hkeeps,hidle,hopen,more,htouched,hpromotions⟩ :=
    (hretained.weaken fun key=>GraphChange.opened key ∈ changes).replayAll hreplays
      (fun _=>id) hindex (Promotions.nil slots _)
  have hextended : ∃ nodes, (propagate grid (changes.foldl (seedChange grid)
        (changes.foldl (replay grid) { s with addedVisible := [] }))).touched=s.touched++nodes ∧
      Extended grid previous visible nodes (propagate grid (changes.foldl (seedChange grid)
        (changes.foldl (replay grid) { s with addedVisible := [] }))) ∧
      Keeps (changes.foldl (replay grid) { s with addedVisible := [] }) (propagate grid (changes.foldl (seedChange grid)
          (changes.foldl (replay grid) { s with addedVisible := [] }))) := by
    cases hcamera : (changes.foldl (replay grid) { s with addedVisible := [] }).cameraPresent with
    | true => exact extended_present hgrid hreplayed hcamera hkeeps.addedVisible htouched hpromotions
    | false =>
      exact extended_absent hreplayed hcamera hkeeps.addedVisible htouched hpromotions fun hexact=>(hopen hexact).2
  obtain ⟨nodes,hnodes,hext,hkept⟩ := hextended
  have hextend : extend grid s = { propagate grid (changes.foldl (seedChange grid)
      (changes.foldl (replay grid) { s with addedVisible := [] })) with
        supersetUpdates := (propagate grid (changes.foldl (seedChange grid)
          (changes.foldl (replay grid) { s with addedVisible := [] }))).supersetUpdates.map
            (· + 1) } := by
    unfold extend
    rw [hchanges]
  rw [hextend]
  refine ⟨nodes,hnodes,hext.count,hkept.cameraPresent.trans hpresent,
    hkept.outwardOnly.trans hkeeps.outwardOnly,hkept.builtOutwardOnly.trans hrule,?_⟩
  have hsuperset : (changes.foldl (replay grid) { s with addedVisible := [] }).supersetUpdates =
      s.supersetUpdates ∨ (changes.foldl (replay grid) { s with addedVisible := [] }).supersetUpdates =
        some (s.supersetUpdates.getD 0) := hkeeps.superset
  have hidle' : changes = [] → (changes.foldl (replay grid)
      { s with addedVisible := [] }).supersetUpdates=s.supersetUpdates := hidle
  have hmap : ∀ count : Option ℕ, (propagate grid (changes.foldl (seedChange grid)
      (changes.foldl (replay grid) { s with addedVisible := [] }))).supersetUpdates=count →
      count=s.supersetUpdates ∨ count=some (s.supersetUpdates.getD 0) ∧ changes ≠ [] := by
    intro count hcount
    rw [← hcount,hkept.supersetUpdates]
    by_cases hne : changes = []
    · exact .inl (hidle' hne)
    · exact hsuperset.imp id fun heq=>⟨heq,hne⟩
  generalize (propagate grid (changes.foldl (seedChange grid)
    (changes.foldl (replay grid) { s with addedVisible := [] }))).supersetUpdates=count at hmap
  rcases hmap count rfl with rfl | ⟨rfl,hne⟩
  · cases hcount : s.supersetUpdates with
    | none => exact .inl rfl
    | some updates => exact .inr ⟨updates,rfl,.inl rfl⟩
  · cases hcount : s.supersetUpdates with
    | none => exact .inr ⟨0,rfl,.inr ⟨rfl,hne⟩⟩
    | some updates => exact .inr ⟨updates,rfl,.inl rfl⟩

/-- After an update what is published and retained owes the graph nothing. -/
lemma update_spec (hgrid : grid.Sound) {visible replacement : CaveVisibleSet}
    (hvisible : visible.WellFormed) (hreplacement : replacement.WellFormed)
    (h : Rest grid s visible) (camera : SectionKey) (order : VisitOrder) :
    UpdateSays camera grid s (updateVisible camera grid order s visible replacement) := by
  unfold updateVisible
  cases hcurrent : outdated camera grid s with
  | true => exact filled_leaves hgrid h.clean rfl hvisible hreplacement camera order
  | false =>
    obtain ⟨hbuilt,hviewed,hpresent,slots,previous,hretained,hreplays,halloc⟩ := h.of_not_outdated hcurrent
    obtain ⟨nodes,htouched,hext,hpresent',houtward',hbuilt',hcount⟩ := extend_spec hgrid hretained hreplays halloc
    have hdrop : (extend grid s).touched.drop s.touched.length=nodes := by
      rw [htouched,drop_left]
    change UpdateSays camera grid s (if (cameraMoved camera grid (extend grid s) ||
        (extend grid s).supersetUpdates.any fun updates=>supersetUpdateLimit≤updates) = true then
      ⟨true,(fillVisible camera grid order (extend grid s) replacement).1,visible,
        (fillVisible camera grid order (extend grid s) replacement).2⟩
      else ⟨false,{ (((extend grid s).touched.drop s.touched.length).foldl (publishNode grid)
        (publishAdded { extend grid s with camera := some camera } visible)).1 with
          checkpoint := grid.checkpoint },
        (((extend grid s).touched.drop s.touched.length).foldl (publishNode grid)
          (publishAdded { extend grid s with camera := some camera } visible)).2,replacement⟩)
    rw [hdrop]
    split_ifs with hmoved
    · exact filled_leaves hgrid hext.numbered.clean houtward' hvisible hreplacement camera order
    · rw [Bool.or_eq_true,not_or,Bool.not_eq_true,Bool.not_eq_true] at hmoved
      obtain ⟨hmoved,hlimit⟩ := hmoved
      have hunmoved := hext.unmoved hgrid camera (fun hrule=>by
        rw [hbuilt',hbuilt] at hrule
        have hsame := hviewed hrule
        rw [hretained.viewed] at hsame
        exact Option.some.inj hsame) hmoved
      obtain ⟨hdone,hwell,hsame⟩ := hext.published hgrid hunmoved hvisible
      generalize nodes.foldl (publishNode grid)
        (publishAdded { extend grid s with camera := some camera } visible) = out at *
      have hkept := hsame.keeps
      refine ⟨hdone,hwell,hreplacement,rfl,(hkept.cameraPresent.trans hpresent').trans hpresent,
        hkept.outwardOnly.trans houtward',(hkept.builtOutwardOnly.trans hbuilt').trans hbuilt,?_⟩
      have hcounted : out.1.supersetUpdates = (extend grid s).supersetUpdates := hkept.supersetUpdates
      rw [hcounted]
      rcases hcount with hnone | ⟨updates,hsome,hwhy⟩
      · exact .inl hnone
      · refine .inr ⟨updates,hsome,?_,hwhy⟩
        rw [hsome] at hlimit
        simpa using hlimit

end Cinnabar.Culling
