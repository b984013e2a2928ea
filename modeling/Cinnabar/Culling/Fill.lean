import Cinnabar.Culling.Replay

/-! # Publishing reached nodes -/

namespace Cinnabar.Culling

open CaveVisibilityScratch

variable {grid : ConnectivityGrid} {s : CaveVisibilityScratch} {visible : CaveVisibleSet}

/-- What publishing one node adds. -/
def Lights (grid : ConnectivityGrid) (outwardOnly : Bool) (key other : SectionKey) : Prop :=
  other=key ∨ (outwardOnly=false ∧ ∃ face, adjacent key face=some other ∧ (grid.slots.get other).isSome)

def Adds (visible visible' : CaveVisibleSet) (added : SectionKey → Prop) : Prop :=
  visible'.WellFormed ∧ ∀ key, key ∈ visible'.members ↔ key ∈ visible.members ∨ added key

lemma Adds.refl (h : visible.WellFormed) {added : SectionKey → Prop}
    (hnone : ∀ key, ¬added key) : Adds visible visible added :=
  ⟨h,fun key=>⟨.inl,fun hkey=>hkey.resolve_right (hnone key)⟩⟩

variable {added added' : SectionKey → Prop}

lemma Adds.trans {visible' visible'' : CaveVisibleSet}
    (h : Adds visible visible' added) (h' : Adds visible' visible'' added') :
    Adds visible visible'' fun key=>added key ∨ added' key :=
  ⟨h'.1,fun key=>by rw [h'.2,h.2,or_assoc]⟩

lemma Adds.congr {visible' : CaveVisibleSet}
    (h : Adds visible visible' added) (hadded : ∀ key, added key ↔ added' key) :
    Adds visible visible' added' :=
  ⟨h.1,fun key=>by rw [h.2,hadded]⟩

lemma adds_insert (h : visible.WellFormed) (key : SectionKey) :
    Adds visible (visible.insert key).2 fun other=>other=key :=
  ⟨(h.insert key).1,fun other=>by rw [(h.insert key).2.1,or_comm]⟩

lemma adds_foldl {α β : Type} {f : β → α → β} (ok : β → Prop)
    (set : β → CaveVisibleSet) (added : α → SectionKey → Prop) (l : List α) {b : β}
    (hb : ok b) (hwell : (set b).WellFormed)
    (hstep : ∀ b a, a ∈ l → ok b → (set b).WellFormed → ok (f b a) ∧ Adds (set b) (set (f b a)) (added a)) :
    ok (l.foldl f b) ∧ Adds (set b) (set (l.foldl f b)) fun key=>∃ a ∈ l, added a key := by
  induction l generalizing b with
  | nil => exact ⟨hb,.refl hwell fun key h=>by simp at h⟩
  | cons a rest ih =>
    obtain ⟨hok,hadds⟩ := hstep b a (.head _) hb hwell
    obtain ⟨hok',hadds'⟩ := ih hok hadds.1 fun b' a' ha' =>
      hstep b' a' (.tail _ ha')
    refine ⟨hok',(hadds.trans hadds').congr fun key=>?_⟩
    simp

lemma adds_insertShell (hgrid : grid.Sound) (h : visible.WellFormed) (key : SectionKey) :
    Adds visible (insertShell grid key visible) fun other =>
      ∃ face, adjacent key face=some other ∧ (grid.slots.get other).isSome := by
  refine ((adds_foldl (fun _=>True) id (fun face other=>adjacent key face=some other ∧ (grid.slots.get other).isSome)
    Face.all trivial h fun visible face _ _ hwell=>⟨trivial,?_⟩).2).congr fun other=>⟨?_,?_⟩
  · cases hadj : adjacent key face with
    | none => exact .refl hwell fun other hother=>by simp at hother
    | some neighbour =>
      dsimp only
      split_ifs with hin
      · refine (adds_insert hwell neighbour).congr fun other=>?_
        rw [hgrid.containsKey_iff] at hin
        constructor
        · rintro rfl
          exact ⟨rfl,hin⟩
        · rintro ⟨heq,-⟩
          exact (Option.some.inj heq).symm
      · refine .refl hwell ?_
        rintro other ⟨heq,hsome⟩
        cases heq
        exact hin ((hgrid.containsKey_iff _).2 hsome)
  · rintro ⟨face,-,hface⟩
    exact ⟨face,hface⟩
  · rintro ⟨face,hface⟩
    exact ⟨face,Face.mem_all face,hface⟩

def SameButAdded (s s' : CaveVisibilityScratch) : Prop :=
  ∃ keys, s' = { s with addedVisible := keys }

lemma SameButAdded.keeps {s' : CaveVisibilityScratch} (h : SameButAdded s s') : Keeps s s' := by
  obtain ⟨keys,rfl⟩ := h
  exact ⟨rfl,rfl,rfl,rfl,rfl,rfl⟩

variable {out : CaveVisibilityScratch × CaveVisibleSet}

lemma insertVisible_spec (key : SectionKey) (hs : SameButAdded s out.1) (h : out.2.WellFormed) :
    SameButAdded s (insertVisible key out).1 ∧
      Adds out.2 (insertVisible key out).2 fun other=>other=key := by
  refine ⟨?_,adds_insert h key⟩
  obtain ⟨keys,hkeys⟩ := hs
  unfold insertVisible
  dsimp only
  rw [hkeys]
  split_ifs
  · exact ⟨_,rfl⟩
  · exact ⟨keys,rfl⟩

lemma publishAdded_spec (h : visible.WellFormed) : SameButAdded s (publishAdded s visible).1 ∧
      Adds visible (publishAdded s visible).2 fun key=>key ∈ s.addedVisible := by
  obtain ⟨hsame,hadds⟩ := adds_foldl (fun out=>SameButAdded s out.1) Prod.snd _
    (b := ({ s with addedVisible := [] },visible)) s.addedVisible ⟨[],rfl⟩ h
    fun out key _ hs hwell=>insertVisible_spec key hs hwell
  exact ⟨hsame,hadds.congr fun key=>by simp⟩

def publishFace (grid : ConnectivityGrid) (key : SectionKey)
    (out : CaveVisibilityScratch × CaveVisibleSet) (face : Face) :
    CaveVisibilityScratch × CaveVisibleSet :=
  match adjacent key face with
  | none => out
  | some neighbour => if grid.containsKey neighbour then insertVisible neighbour out else out

lemma publishFace_spec (hgrid : grid.Sound)
    (key : SectionKey) (face : Face) (hs : SameButAdded s out.1) (h : out.2.WellFormed) :
    SameButAdded s (publishFace grid key out face).1 ∧ Adds out.2 (publishFace grid key out face).2 fun other =>
        adjacent key face=some other ∧ (grid.slots.get other).isSome := by
  unfold publishFace
  cases hadj : adjacent key face with
  | none => exact ⟨hs,.refl h fun other hother=>by simp at hother⟩
  | some neighbour =>
    dsimp only
    split_ifs with hin
    · obtain ⟨hsame,hadds⟩ := insertVisible_spec neighbour hs h
      refine ⟨hsame,hadds.congr fun other=>?_⟩
      rw [hgrid.containsKey_iff] at hin
      constructor
      · rintro rfl
        exact ⟨rfl,hin⟩
      · rintro ⟨heq,-⟩
        exact (Option.some.inj heq).symm
    · refine ⟨hs,.refl h ?_⟩
      rintro other ⟨heq,hsome⟩
      cases heq
      exact hin ((hgrid.containsKey_iff _).2 hsome)

lemma publishNode_spec (hgrid : grid.Sound) (node : ℕ) (hs : SameButAdded s out.1) (h : out.2.WellFormed) :
    SameButAdded s (publishNode grid out node).1 ∧ Adds out.2 (publishNode grid out node).2
      (Lights grid s.builtOutwardOnly (s.describe grid node).1) := by
  have hdescribe : (out.1.describe grid node).1 = (s.describe grid node).1 := by
    obtain ⟨keys,hkeys⟩ := hs
    rw [hkeys]
    rfl
  obtain ⟨hself,hadds⟩ := insertVisible_spec (s.describe grid node).1 hs h
  have hrule : (insertVisible (s.describe grid node).1 out).1.builtOutwardOnly =
      s.builtOutwardOnly := by
    obtain ⟨keys,hkeys⟩ := hself
    rw [hkeys]
  unfold publishNode
  dsimp only
  rw [hdescribe,hrule]
  cases hrule' : s.builtOutwardOnly with
  | true =>
    refine ⟨hself,hadds.congr fun other=>⟨.inl,fun hother=>?_⟩⟩
    exact hother.resolve_right fun hshell=>nomatch hshell.1
  | false =>
    obtain ⟨hsame,hshell⟩ := adds_foldl (fun out=>SameButAdded s out.1) Prod.snd _
      (f := publishFace grid (s.describe grid node).1) Face.all hself hadds.1
      fun _ face _ hs' hwell=>publishFace_spec hgrid _ face hs' hwell
    refine ⟨hsame,(hadds.trans hshell).congr fun other=>or_congr_right ⟨?_,?_⟩⟩
    · rintro ⟨face,-,hface⟩
      exact ⟨rfl,face,hface⟩
    · rintro ⟨-,face,hface⟩
      exact ⟨face,Face.mem_all face,hface⟩

lemma publishNodes_spec (hgrid : grid.Sound) (nodes : List ℕ) (hs : SameButAdded s out.1) (h : out.2.WellFormed) :
    SameButAdded s (nodes.foldl (publishNode grid) out).1 ∧
      Adds out.2 (nodes.foldl (publishNode grid) out).2 fun key=>∃ node ∈ nodes,
        Lights grid s.builtOutwardOnly (s.describe grid node).1 key :=
  adds_foldl (fun out=>SameButAdded s out.1) Prod.snd _ nodes hs h
    fun _ node _ hs' hwell=>publishNode_spec hgrid node hs' hwell

end Cinnabar.Culling

/-! # The full traversal

From any scratch whose dirty cells are on record, `fillVisible` retains the
exact traversal of the graph and publishes exactly what its rule shows.
-/

namespace Cinnabar.Culling

open CaveVisibilityScratch List

variable {grid : ConnectivityGrid} {s s₀ : CaveVisibilityScratch} {visible : CaveVisibleSet}

/-- Every dirty cell is on record for the next rebuild to clear. -/
def Clean (s : CaveVisibilityScratch) : Prop :=
  ∀ index, s.visited index≠none → index ∈ s.touched ∧ index < s.visitedLen

lemma Numbered.clean {cells : ℕ} {slots : Slots} (h : Numbered cells slots s) : Clean s := by
  intro index hindex
  refine ⟨h.touched hindex,?_⟩
  rw [h.len]
  by_contra hge
  apply hindex
  refine h.empty ?_
  by_contra hcell
  obtain ⟨cell,hcell⟩ := Option.ne_none_iff_exists'.1 hcell
  exact hge (h.bound hcell)

lemma ConnectivityGrid.Partial.cell_lt (h : grid.Partial) {index : ℕ} {cell : Cell}
    (hcell : grid.cells index=some cell) : index<grid.cellCount := by
  cases halloc : grid.allocated with
  | true => exact h.cells_lt halloc (by rw [hcell]; rfl)
  | false =>
    rw [(h.fresh halloc).1 index] at hcell
    cases hcell

lemma visited_cleared (len : ℕ) (nodes : List ℕ) (visited : ℕ → NodeState) (index : ℕ) :
    nodes.foldl (fun visited node =>
      if node<len then Function.update visited node none else visited) visited index =
      if index ∈ nodes ∧ index<len then none else visited index := by
  induction nodes generalizing visited with
  | nil => simp
  | cons node rest ih =>
    rw [foldl_cons,ih]
    by_cases heq : index=node
    · subst heq
      by_cases hlt : index<len <;> simp [hlt]
    · by_cases hlt : node<len <;> simp [hlt,heq]

lemma restart_visited (h : Clean s) (camera : SectionKey) (index : ℕ) : (s.restart camera grid).visited index=none := by
  unfold CaveVisibilityScratch.restart
  dsimp only
  split_ifs with hlen
  · rfl
  · rw [visited_cleared]
    split_ifs with hin
    · rfl
    · by_contra hne
      exact hin (h index hne)

lemma restart_numbered (hgrid : grid.Sound) (h : Clean s) (camera : SectionKey) :
    Numbered grid.cellCount grid.slots (s.restart camera grid) where
  ok := hgrid.ok
  bound := fun hcell=>hgrid.cell_lt hcell
  len := rfl
  empty := fun _=>restart_visited h camera _
  touched := fun hne=>absurd (restart_visited h camera _) hne
  ids := fun hid=>nomatch hid
  live := fun hne=>absurd rfl hne

lemma restart_states (h : Clean s) (camera key : SectionKey) : grid.states (s.restart camera grid) key=none := by
  unfold ConnectivityGrid.states Slots.stateOf
  by_cases hin : grid.slots.InCell key
  · rw [Slots.idOf_inCell hin]
    change CaveVisibilityScratch.stateAt _ _ _=none
    unfold CaveVisibilityScratch.stateAt
    split_ifs
    · exact restart_visited h camera _
    · rfl
  · rw [Slots.idOf_not_inCell hin]
    rfl

lemma Walk.start {P : Fact → Prop} {owed : SectionKey → Face → Prop}
    (h : Numbered grid.cellCount grid.slots s) (hstack : s.stack = [])
    (hsound : ∀ {key state}, grid.states s key=some state → P (.reached key) ∧ ∀ exit ∈ state, P (.exit key exit))
    (hserved : ∀ {key state exit next}, grid.states s key=some state → exit ∈ state → adjacent key exit=some next →
      owed key exit ∨ Served grid.slots.get s.allowedExits (grid.states s) next exit) :
    Walk grid P owed s s where
  numbered := h
  keeps := .refl s
  grows := .refl grid s
  idOf := id
  stacked := by
    intro item hitem
    rw [hstack] at hitem
    cases hitem
  touched := by
    refine ⟨[],(append_nil _).symm,fun key hnone hsome=>absurd hnone hsome,?_⟩
    intro node hnode
    cases hnode
  added := ⟨fun _=>id,fun _=>.inl⟩
  sound := hsound
  served := by
    intro key state exit next hstate hexit hnext
    exact (hserved hstate hexit hnext).imp id .inr

lemma mem_keys (hgrid : grid.Partial) (order : VisitOrder) (key : SectionKey) :
    key ∈ grid.keys order ↔ (grid.slots.get key).isSome := by
  unfold ConnectivityGrid.keys
  rw [mem_append,mem_filterMap,order.mem,Finmap.mem_keys,← Finmap.lookup_isSome]
  constructor
  · rintro (⟨index,-,hcell⟩ | hover)
    · obtain ⟨cell,hhas,rfl⟩ := Option.map_eq_some_iff.1 hcell
      have hindex : grid.index cell.key=index := hgrid.ok.home hhas
      rw [← hindex] at hhas
      rw [Slots.get_of_inCell (s := grid.slots) hhas]
      rfl
    · obtain ⟨value,hvalue⟩ := Option.isSome_iff_exists.1 hover
      rw [hgrid.ok.get_of_overflow hvalue]
      rfl
  · intro hsome
    by_cases hin : grid.slots.InCell key
    · obtain ⟨value,hvalue⟩ := hin
      exact .inl ⟨grid.index key,mem_range.2 (hgrid.cell_lt hvalue), Option.map_eq_some_iff.2 ⟨_,hvalue,rfl⟩⟩
    · rw [Slots.get_of_not_inCell hin] at hsome
      exact .inr hsome

/-- Everything the finished traversal of the current graph gives. -/
structure FillSays (camera : SectionKey) (grid : ConnectivityGrid) (s : CaveVisibilityScratch)
    (out : CaveVisibilityScratch × CaveVisibleSet) : Prop where
  retained : Retained grid.cellCount grid.slots camera (fun _=>False) (fun key=>key ∈ out.2.members) out.1
  wellFormed : out.2.WellFormed
  checkpoint : out.1.checkpoint=grid.checkpoint
  cameraPresent : out.1.cameraPresent=grid.containsKey camera
  outwardOnly : out.1.outwardOnly=s.outwardOnly
  builtOutwardOnly : out.1.builtOutwardOnly=s.outwardOnly
  supersetUpdates : out.1.supersetUpdates=none

variable {camera : SectionKey}

lemma fill_absent (hgrid : grid.Sound) (hclean : Clean s) (hvisible : visible.WellFormed) (order : VisitOrder) (habsent : grid.slots.get camera=none) :
    FillSays camera grid s (fillVisible camera grid order s visible) := by
  have hpresent : (s.restart camera grid).cameraPresent=false := by
    change grid.containsKey camera=false
    rw [← Bool.not_eq_true,hgrid.containsKey_iff,habsent]
    exact Bool.false_ne_true
  unfold fillVisible
  rw [node_none hgrid habsent]
  have hadds : Adds (visible.reset camera grid.dims) ((grid.keys order).foldl (fun visible key=>(visible.insert key).2)
        (visible.reset camera grid.dims)) fun other=>∃ key ∈ grid.keys order, other=key :=
    (adds_foldl (fun _=>True) (fun set=>set) _ (grid.keys order) trivial (hvisible.reset camera grid.dims)
      fun visible key _ _ hwell=>⟨trivial,adds_insert hwell key⟩).2
  have hmembers : ∀ key, key ∈ ((grid.keys order).foldl (fun visible key=>(visible.insert key).2)
      (visible.reset camera grid.dims)).members ↔ (grid.slots.get key).isSome := by
    intro key
    rw [hadds.2,CaveVisibleSet.members_reset]
    simp [mem_keys hgrid.toPartial order]
  have hnone := fun key=>@restart_states grid s hclean camera key
  refine ⟨⟨restart_numbered hgrid hclean camera,rfl,rfl,?_,?_,?_,?_,?_,?_⟩,hadds.1,rfl, rfl,rfl,rfl,rfl⟩
  · intro key state exit next hstate
    rw [show grid.slots.stateOf grid.cellCount (s.restart camera grid) key=none from hnone key] at hstate
    cases hstate
  · intro h
    rw [hpresent] at h
    cases h
  · exact fun _=>⟨hnone,fun key hkey=>.inr ((hmembers key).2 hkey)⟩
  · exact fun key hkey=>absurd (hnone key) hkey
  · exact fun _ key _ _ hkey=>absurd (hnone key) hkey
  · intro _
    refine ⟨fun key hkey=>⟨(hmembers key).1 hkey,fun h=>?_⟩,fun {key state} hstate=>?_⟩
    · rw [hpresent] at h
      cases h
    · rw [show grid.slots.stateOf grid.cellCount (s.restart camera grid) key=none from hnone key] at hstate
      cases hstate

lemma Walk.retained {P : Fact → Prop} {members : SectionKey → Prop}
    (h : Walk grid P (fun _ _=>False) s₀ s) (hstack : s.stack = [])
    (hcamera : s₀.camera=some camera) (hpresent : s₀.cameraPresent=true)
    (hseeded : ∀ value, grid.slots.get camera=some value →
      ∃ state, grid.states s camera=some state ∧ value.touchedFaces ⊆ state)
    (hshown : ∀ key, grid.states s key≠none → ∀ other, Lights grid s₀.builtOutwardOnly key other → members other)
    (hexact : s₀.supersetUpdates=none → (∀ key, members key → (grid.slots.get key).isSome ∧
        Lit grid.slots.get s₀.builtOutwardOnly camera key) ∧ ∀ f, P f →
        Reaches grid.slots.get (ruleExits s₀.builtOutwardOnly camera) camera f) :
    Retained grid.cellCount grid.slots camera (fun _=>False) members s where
  numbered := h.numbered
  stack := hstack
  viewed := h.keeps.camera.trans hcamera
  served := by
    intro key state exit next hstate hexit hnext
    rw [h.keeps.allowedExits]
    rcases h.served hstate hexit hnext with ho | ⟨item,hitem,-⟩ | hserved
    · exact .inl ho
    · rw [hstack] at hitem
      cases hitem
    · exact .inr hserved
  seeded := fun _=>.inr hseeded
  absent := by
    intro habsent
    rw [h.keeps.cameraPresent,hpresent] at habsent
    cases habsent
  shown := fun key hkey=>hshown key hkey key (.inl rfl)
  shell := by
    intro hrule key face next hkey hnext hsome
    rw [h.keeps.builtOutwardOnly] at hrule
    exact .inr (hshown key hkey next (.inr ⟨hrule,face,hnext,hsome⟩))
  exact := by
    intro hexact'
    rw [h.keeps.supersetUpdates] at hexact'
    rw [h.keeps.builtOutwardOnly]
    obtain ⟨hmembers,hP⟩ := hexact hexact'
    refine ⟨fun key hkey=>⟨(hmembers key hkey).1,fun _=>(hmembers key hkey).2⟩, fun {key state} hstate=>?_⟩
    obtain ⟨hreached,hexits⟩ := h.sound hstate
    exact ⟨hP _ hreached,fun exit hexit=>hP _ (hexits exit hexit)⟩

lemma lit_of_lights {outwardOnly : Bool} {camera key other : SectionKey}
    (hreached : Reaches grid.slots.get (ruleExits outwardOnly camera) camera (.reached key))
    (h : Lights grid outwardOnly key other) :
    (grid.slots.get other).isSome ∧ Lit grid.slots.get outwardOnly camera other := by
  rcases h with rfl | ⟨hrule,face,hadj,hsome⟩
  · obtain ⟨value,hvalue⟩ := hreached.mem_graph
    rw [hvalue]
    exact ⟨rfl,.inl hreached⟩
  · exact ⟨hsome,.inr ⟨hrule,key,face,hadj,hreached⟩⟩

lemma fill_present (hgrid : grid.Sound) (hclean : Clean s) (hvisible : visible.WellFormed) (order : VisitOrder) {value : FaceConnectivity}
    (hget : grid.slots.get camera=some value) :
    FillSays camera grid s (fillVisible camera grid order s visible) := by
  have hpresent : (s.restart camera grid).cameraPresent=true := by
    change grid.containsKey camera=true
    rw [hgrid.containsKey_iff,hget]
    rfl
  have hnumbered := restart_numbered hgrid hclean camera
  have hnone : ∀ {key state}, grid.states (s.restart camera grid) key=some state → False := by
    intro key state hstate
    rw [restart_states hclean] at hstate
    cases hstate
  have hallow : (s.restart camera grid).allowedExits=ruleExits s.outwardOnly camera := allowedExits_eq rfl
  let P := Reaches grid.slots.get (ruleExits s.outwardOnly camera) camera
  have hstart : Walk grid P (fun _ _=>False) (s.restart camera grid) (s.restart camera grid) :=
    .start hnumbered rfl (fun hstate=>(hnone hstate).elim) fun hstate=>(hnone hstate).elim
  have hstep : ∀ {f f'}, P f → Step grid.slots.get (s.restart camera grid).allowedExits f f' → P f' := by
    intro f f' hf hff'
    exact hf.tail hff'
  obtain ⟨node,hnode,hid,hspec⟩ := node_some hgrid hnumbered hget
  obtain ⟨hreach,faces,hfaces,hsub⟩ := (hstart.node hspec).reach
    value.touchedFaces hid (Closure.of_seed (.reached hget)) fun exit hexit=>Closure.of_seed (.exit hget hexit)
  obtain ⟨hwalk,hgrows,hstack⟩ := hreach.propagate hgrid hstep
  obtain ⟨faces',hfaces',hsub'⟩ := hgrows camera faces hfaces
  unfold fillVisible
  dsimp only
  rw [hnode]
  dsimp only
  generalize propagate grid (((s.restart camera grid).node grid camera).2.reach grid.cellCount node
    value.touchedFaces) = t at hwalk hstack hfaces' ⊢
  have hrule : t.builtOutwardOnly=s.outwardOnly := hwalk.keeps.builtOutwardOnly
  have hadds : Adds (visible.reset camera grid.dims) (t.touched.foldl (fun visible node =>
        if t.builtOutwardOnly then (visible.insert (t.describe grid node).1).2
        else insertShell grid (t.describe grid node).1 (visible.insert (t.describe grid node).1).2)
        (visible.reset camera grid.dims)) fun key=>∃ node ∈ t.touched,
          Lights grid s.outwardOnly (t.describe grid node).1 key := by
    refine (adds_foldl (fun _=>True) (fun set=>set) _ t.touched trivial
      (hvisible.reset camera grid.dims) fun visible node _ _ hwell=>⟨trivial,?_⟩).2
    have hself := adds_insert hwell (t.describe grid node).1
    rw [hrule]
    cases hrule' : s.outwardOnly with
    | true =>
      refine hself.congr fun other=>⟨.inl,fun hother=>?_⟩
      exact hother.resolve_right fun hshell=>nomatch hshell.1
    | false =>
      refine (hself.trans (adds_insertShell hgrid hself.1 _)).congr fun other =>
        or_congr_right ⟨fun hface=>⟨rfl,hface⟩,And.right⟩
  obtain ⟨nodes,htouched,hnew,hlive⟩ := hwalk.touched
  refine ⟨hwalk.retained hstack rfl hpresent (fun v hv=>?_) ?_ fun _=>⟨?_,fun _=>id⟩,
    hadds.1,hwalk.keeps.checkpoint,hwalk.keeps.cameraPresent,hwalk.keeps.outwardOnly,hrule,
    hwalk.keeps.supersetUpdates⟩
  · rw [hget] at hv
    cases hv
    exact ⟨faces',hfaces',hsub.trans hsub'⟩
  · intro key hkey other hother
    obtain ⟨n,hn,hidn⟩ := hnew key (restart_states hclean camera key) hkey
    refine (hadds.2 other).2 (.inr ⟨n,?_,?_⟩)
    · rw [htouched]
      exact hn
    · rw [hwalk.numbered.describe_of_idOf hidn]
      exact hother
  · intro other hother
    rcases (hadds.2 other).1 hother with hold | ⟨n,hn,hlights⟩
    · simp at hold
    · rw [htouched] at hn
      obtain ⟨key,hidn,hkey⟩ := hlive n hn
      obtain ⟨state,hstate⟩ := Option.ne_none_iff_exists'.1 hkey
      rw [hwalk.numbered.describe_of_idOf hidn] at hlights
      exact lit_of_lights (hwalk.sound hstate).1 hlights

lemma fill_spec (hgrid : grid.Sound) (hclean : Clean s) (hvisible : visible.WellFormed)
    (camera : SectionKey) (order : VisitOrder) :
    FillSays camera grid s (fillVisible camera grid order s visible) := by
  cases hget : grid.slots.get camera with
  | none => exact fill_absent hgrid hclean hvisible order hget
  | some value => exact fill_present hgrid hclean hvisible order hget

end Cinnabar.Culling
