import Cinnabar.Culling.Incremental
import Cinnabar.Culling.Oracle

/-! # Histories of edits and updates -/

namespace Cinnabar.Culling

open List

/-- One operation of the stream's grid or of the caller's buffers. -/
inductive Op where
  | insert (key : SectionKey) (value : FaceConnectivity) (order : VisitOrder)
  | remove (key : SectionKey)
  | retain (keep : SectionKey → Bool) (order : VisitOrder)
  | reserveView (radius height : ℕ) (order : VisitOrder)
  | setOutwardOnly (outwardOnly : Bool)
  | update (camera : SectionKey) (order : VisitOrder)

/-- The grid, and the scratch and output buffers that belong together. -/
structure View where
  grid : ConnectivityGrid
  scratch : CaveVisibilityScratch
  visible : CaveVisibleSet
  replacement : CaveVisibleSet

namespace View

def new (number : ℕ) : View :=
  ⟨ConnectivityGrid.new number,CaveVisibilityScratch.new,CaveVisibleSet.empty, CaveVisibleSet.empty⟩

def update (view : View) (camera : SectionKey) (order : VisitOrder) : View :=
  let out := updateVisible camera view.grid order view.scratch view.visible view.replacement
  if out.rebuilt then ⟨view.grid,out.scratch,out.replacement,out.visible⟩
  else ⟨view.grid,out.scratch,out.visible,out.replacement⟩

def step (view : View) : Op → View
  | .insert key value order => { view with grid := (view.grid.insert key value order).2 }
  | .remove key => { view with grid := (view.grid.remove key).2 }
  | .retain keep order => { view with grid := view.grid.retain keep order }
  | .reserveView radius height order =>
    { view with grid := view.grid.reserveView radius height order }
  | .setOutwardOnly outwardOnly =>
    { view with scratch := view.scratch.setOutwardOnly outwardOnly }
  | .update camera order => view.update camera order

def run (view : View) (ops : List Op) : View := ops.foldl step view

end View

/-- What an operation does to the map the grid stands for. -/
def Op.edit (map : Connectivity) : Op → Connectivity
  | .insert key value _ => map.insert key value
  | .remove key => map.erase key
  | .retain keep order =>
    (order.list map.keys).foldl (fun map key=>if keep key then map else map.erase key) map
  | _ => map

/-- The map after a history. -/
def edited (ops : List Op) : Connectivity := ops.foldl Op.edit ∅

variable {view : View} {map : Connectivity} {grid grid' : ConnectivityGrid}
  {s : CaveVisibilityScratch} {visible : CaveVisibleSet}

lemma lookup_retain (keep : SectionKey → Bool) (order : VisitOrder) (map : Connectivity) (key : SectionKey) :
    (Op.edit map (.retain keep order)).lookup key =
      if keep key then map.lookup key else none := by
  have hfold : ∀ (keys : List SectionKey) (map : Connectivity),
      (keys.foldl (fun map key=>if keep key then map else map.erase key) map).lookup key =
        if key ∈ keys ∧ keep key=false then none else map.lookup key := by
    intro keys
    induction keys with
    | nil => intro map; simp
    | cons first rest ih =>
      intro map
      rw [foldl_cons,ih]
      by_cases hk : key=first
      · subst hk
        cases hkeep : keep key <;> simp [Finmap.lookup_erase]
      · cases hkeep : keep first <;> simp [hk,Finmap.lookup_erase_ne]
  change ((order.list map.keys).foldl _ map).lookup key=_
  rw [hfold]
  simp only [order.mem,Finmap.mem_keys]
  cases hkeep : keep key with
  | true => simp
  | false =>
    by_cases hin : key ∈ map
    · simp [hin]
    · simp [hin,Finmap.lookup_eq_none.2 hin]

lemma ChangeJournal.records (changes : List GraphChange) (journal : ChangeJournal) :
    (changes.foldl ChangeJournal.record journal).finish=journal.finish+changes.length ∧
      journal.start ≤ (changes.foldl ChangeJournal.record journal).start ∧
      ∀ offset, (changes.foldl ChangeJournal.record journal).start≤offset → offset≤journal.finish →
        (changes.foldl ChangeJournal.record journal).changes.drop
            (offset - (changes.foldl ChangeJournal.record journal).start) =
          journal.changes.drop (offset-journal.start) ++ changes := by
  induction changes generalizing journal with
  | nil => exact ⟨rfl,le_refl _,fun offset _ _=>(append_nil _).symm⟩
  | cons change rest ih =>
    obtain ⟨hfinish,hstart,hdrop⟩ := ih (journal.record change)
    rw [foldl_cons]
    refine ⟨?_,(journal.start_le_record change).trans hstart,fun offset hlow hhigh=>?_⟩
    · rw [hfinish,journal.finish_record,length_cons]
      omega
    · rw [hdrop offset hlow (by rw [journal.finish_record]; omega),
        journal.drop_record change (hstart.trans hlow) hhigh,append_assoc]
      rfl

lemma Rest.edit (h : Rest grid s visible) {graph : Graph}
    (hedit : ConnectivityGrid.Edits grid grid' graph) : Rest grid' s visible where
  clean := h.clean
  bound := h.bound
  followed := by
    intro hidentity
    obtain ⟨hle,hfollowed⟩ := h.followed (hidentity.trans hedit.identity)
    rcases hedit.recorded with hjournaled | hlater
    · refine ⟨hle.trans_eq hjournaled.epoch.symm,fun hepoch=>?_⟩
      obtain ⟨hfinish,hkept⟩ := hfollowed (hepoch.trans hjournaled.epoch)
      obtain ⟨changes,hjournal,hreplays⟩ := hjournaled.replays
      obtain ⟨hfinish',hstart',hdrop⟩ := ChangeJournal.records changes grid.journal
      rw [← hjournal] at hfinish' hstart' hdrop
      refine ⟨by omega,fun hstart=>?_⟩
      obtain ⟨slots,camera,hretained,hsince,halloc⟩ := hkept (hstart'.trans hstart)
      have hcount : grid'.cellCount=grid.cellCount := by
        unfold ConnectivityGrid.cellCount
        rw [hjournaled.allocated,hjournaled.xzBits,hjournaled.yBits]
      have hchanges : grid'.changesSince s.checkpoint.2.2 =
          grid.changesSince s.checkpoint.2.2++changes := hdrop _ hstart hfinish
      refine ⟨slots,camera,by rw [hcount]; exact hretained,?_,fun hne=>?_⟩
      · rw [hchanges]
        exact hsince.append hreplays
      · rw [hjournaled.allocated]
        cases hfresh : grid.allocated with
        | true => rfl
        | false =>
          have hsame : grid'.changesSince s.checkpoint.2.2 =
              grid.changesSince s.checkpoint.2.2 := by
            unfold ConnectivityGrid.changesSince
            rw [hjournaled.idle hfresh]
          rw [hsame] at hne
          rw [hfresh] at halloc
          exact halloc hne
    · omega

lemma Rest.setOutwardOnly (h : Rest grid s visible) (outwardOnly : Bool) :
    Rest grid (s.setOutwardOnly outwardOnly) visible where
  clean := h.clean
  bound := h.bound
  followed := by
    intro hidentity
    obtain ⟨hle,hfollowed⟩ := h.followed hidentity
    refine ⟨hle,fun hepoch=>?_⟩
    obtain ⟨hfinish,hkept⟩ := hfollowed hepoch
    refine ⟨hfinish,fun hstart=>?_⟩
    obtain ⟨slots,camera,hretained,hsince⟩ := hkept hstart
    refine ⟨slots,camera,?_,hsince⟩
    have hnumbered := hretained.numbered
    exact ⟨⟨hnumbered.ok,hnumbered.bound,hnumbered.len,hnumbered.empty,hnumbered.touched,
      hnumbered.ids,hnumbered.live⟩,hretained.stack,hretained.viewed,hretained.served,
      hretained.seeded,hretained.absent,hretained.shown,hretained.shell,hretained.exact⟩

lemma UpdateSays.rest {camera : SectionKey} {out : VisibilityUpdate}
    (h : UpdateSays camera grid s out) : Rest grid out.scratch out.published where
  clean := h.retained.numbered.clean
  bound := by
    intro updates hupdates
    rcases h.superset with hnone | ⟨n,hsome,hlt,-⟩
    · rw [hnone] at hupdates
      cases hupdates
    · rw [hsome] at hupdates
      cases hupdates
      exact hlt
  followed := by
    intro _
    have hnone : grid.changesSince out.scratch.checkpoint.2.2 = [] := by
      rw [h.checkpoint]
      refine drop_eq_nil_of_le ?_
      change _≤grid.journal.start+grid.journal.changes.length-grid.journal.start
      omega
    rw [hnone]
    rw [h.checkpoint]
    exact ⟨le_refl _,fun _=>⟨le_refl _,fun _ =>
      ⟨grid.slots,camera,h.retained,.nil _,fun hne=>absurd rfl hne⟩⟩⟩

/-- What holds of a view whose grid stands for `map`. -/
structure View.Ok (view : View) (map : Connectivity) : Prop where
  sound : view.grid.Sound
  get : ∀ key, view.grid.slots.get key=map.lookup key
  visible : view.visible.WellFormed
  replacement : view.replacement.WellFormed
  rest : Rest view.grid view.scratch view.visible

lemma View.new_ok (number : ℕ) : (View.new number).Ok ∅ where
  sound := ConnectivityGrid.sound_new number
  get := fun key=>rfl
  visible := CaveVisibleSet.wellFormed_empty
  replacement := CaveVisibleSet.wellFormed_empty
  rest :=
    { clean := fun index h=>absurd rfl h
      bound := fun updates h=>nomatch h
      followed := fun h=>nomatch h }

lemma View.Ok.edit (h : view.Ok map) {map' : Connectivity} {graph : Graph}
    (hedit : ConnectivityGrid.Edits view.grid grid' graph)
    (hmap : ∀ key, graph key=map'.lookup key) : View.Ok { view with grid := grid' } map' where
  sound := hedit.sound
  get := fun key=>(hedit.get key).trans (hmap key)
  visible := h.visible
  replacement := h.replacement
  rest := h.rest.edit hedit

lemma View.Ok.update_leaves (h : view.Ok map) (camera : SectionKey) (order : VisitOrder) :
    UpdateSays camera view.grid view.scratch
      (updateVisible camera view.grid order view.scratch view.visible view.replacement) ∧
    (view.update camera order).scratch =
      (updateVisible camera view.grid order view.scratch view.visible view.replacement).scratch ∧
    (view.update camera order).visible =
      (updateVisible camera view.grid order view.scratch view.visible view.replacement).published ∧
    (view.update camera order).grid=view.grid ∧ (view.update camera order).Ok map := by
  have hspec := update_spec h.sound h.visible h.replacement h.rest camera order
  have hrest := hspec.rest
  unfold View.update VisibilityUpdate.published at *
  dsimp only at hrest ⊢
  split_ifs at hrest ⊢
  · exact ⟨hspec,rfl,rfl,rfl,h.sound,h.get,hspec.replacement,hspec.visible,hrest⟩
  · exact ⟨hspec,rfl,rfl,rfl,h.sound,h.get,hspec.visible,hspec.replacement,hrest⟩

/-- One operation. -/
lemma View.Ok.step (h : view.Ok map) (op : Op) : (view.step op).Ok (op.edit map) := by
  cases op with
  | insert key value order =>
    refine h.edit (h.sound.insert key value order) fun other=>?_
    change _ = (map.insert key value).lookup other
    by_cases hk : other=key
    · rw [if_pos hk,hk,Finmap.lookup_insert]
    · rw [if_neg hk,Finmap.lookup_insert_of_ne _ hk,h.get]
  | remove key =>
    refine h.edit (h.sound.remove key) fun other=>?_
    change _ = (map.erase key).lookup other
    by_cases hk : other=key
    · rw [if_pos hk,hk,Finmap.lookup_erase]
    · rw [if_neg hk,Finmap.lookup_erase_ne hk,h.get]
  | retain keep order =>
    refine h.edit (h.sound.retain keep order) fun other=>?_
    rw [lookup_retain,h.get]
  | reserveView radius height order =>
    exact h.edit (h.sound.reserveView radius height order) h.get
  | setOutwardOnly outwardOnly =>
    exact ⟨h.sound,h.get,h.visible,h.replacement,h.rest.setOutwardOnly outwardOnly⟩
  | update camera order => exact (h.update_leaves camera order).2.2.2.2

/-- Every history. -/
lemma View.Ok.run (h : view.Ok map) (ops : List Op) : (view.run ops).Ok (ops.foldl Op.edit map) := by
  induction ops generalizing view map with
  | nil => exact h
  | cons op rest ih => exact ih (h.step op)

/-- What a traversal that owes nothing has published. -/
lemma Retained.shows {camera : SectionKey} {members : SectionKey → Prop}
    (h : Retained grid.cellCount grid.slots camera (fun _=>False) members s)
    (hgrid : grid.Sound) (hpresent : s.cameraPresent=grid.containsKey camera) :
    (∀ key, Shown grid.slots.get s.builtOutwardOnly camera key → members key) ∧ (s.supersetUpdates=none → ∀ key,
        members key → Shown grid.slots.get s.builtOutwardOnly camera key) := by
  have hiff := hgrid.containsKey_iff camera
  rw [← hpresent] at hiff
  refine ⟨fun key hshown=>?_,fun hexact key hkey=>?_⟩
  · obtain ⟨hsome,haway | hlit⟩ := hshown
    · have habsent : s.cameraPresent=false := by
        rw [haway] at hiff
        simpa using hiff
      exact ((h.absent habsent).2 key hsome).resolve_left id
    · have hnoted : ∀ fact, Reaches grid.slots.get (ruleExits s.builtOutwardOnly camera) camera
          fact → fact.Noted (grid.states s) := by
        intro fact hfact
        have hthere : s.cameraPresent=true := by
          obtain ⟨value,hvalue⟩ := hfact.camera
          rw [hiff,hvalue]
          rfl
        rw [← allowedExits_eq h.viewed] at hfact
        refine hfact.noted ?_ fun hstate hexit hnext=>(h.served hstate hexit hnext).resolve_left id
        exact (h.seeded hthere).resolve_left id
      rcases hlit with hreached | ⟨hrule,node,face,hnext,hreached⟩
      · obtain ⟨state,hstate⟩ := hnoted _ hreached
        exact h.shown key (hstate.trans_ne (Option.some_ne_none _))
      · obtain ⟨state,hstate⟩ := hnoted _ hreached
        have hwas := h.shell hrule (hstate.trans_ne (Option.some_ne_none _)) hnext hsome
        exact hwas.resolve_left id
  · obtain ⟨hsome,hlit⟩ := (h.exact hexact).1 key hkey
    refine ⟨hsome,?_⟩
    cases hcamera : s.cameraPresent with
    | true => exact .inr (hlit hcamera)
    | false =>
      refine .inl (Option.not_isSome_iff_eq_none.1 fun hthere=>?_)
      rw [hiff.2 hthere] at hcamera
      cases hcamera

lemma View.Ok.update_shows (h : view.Ok map) (camera : SectionKey) (order : VisitOrder) :
    (∀ key ∈ oracle (view.update camera order).scratch.outwardOnly camera map,
        (view.update camera order).visible.contains key=true) ∧
      ((view.update camera order).scratch.isExact=true → ∀ key, (view.update camera order).visible.contains key=true ↔
          key ∈ oracle (view.update camera order).scratch.outwardOnly camera map) := by
  obtain ⟨hspec,hscratch,hvisible,hgrid,hok⟩ := h.update_leaves camera order
  have hrule : (view.update camera order).scratch.outwardOnly =
      (view.update camera order).scratch.builtOutwardOnly := by
    rw [hscratch,hspec.outwardOnly,hspec.builtOutwardOnly]
  have hget : map.lookup=view.grid.slots.get := funext fun key=>(h.get key).symm
  have hretained := hspec.retained
  have hpresent := hspec.cameraPresent
  rw [← hscratch,← hvisible] at hretained
  rw [← hscratch] at hpresent
  obtain ⟨hcovers,hexact⟩ := hretained.shows h.sound hpresent
  simp only [mem_oracle,hok.visible.contains_iff]
  rw [hrule,hget]
  exact ⟨hcovers,fun hsure key =>
    ⟨hexact (Option.isNone_iff_eq_none.1 hsure) key,hcovers key⟩⟩

/-- Right after an update the grid has no news. -/
lemma View.Ok.settled (h : view.Ok map) (camera : SectionKey) (orders : List VisitOrder) (hne : orders ≠ []) :
    (view.run (orders.map (Op.update camera))).grid.changesSince
      (view.run (orders.map (Op.update camera))).scratch.checkpoint.2.2 = [] := by
  induction orders using List.reverseRecOn with
  | nil => exact absurd rfl hne
  | append_singleton orders order ih =>
    have hbefore := h.run (orders.map (Op.update camera))
    rw [View.run,map_append,foldl_append]
    change ((view.run (orders.map (Op.update camera))).update camera order).grid.changesSince
      ((view.run (orders.map (Op.update camera))).update camera order).scratch.checkpoint.2.2 = []
    obtain ⟨hspec,hscratch,-,hgrid,-⟩ := hbefore.update_leaves camera order
    rw [hgrid,hscratch,hspec.checkpoint]
    refine drop_eq_nil_of_le ?_
    change _≤_+_-_
    rw [Nat.add_sub_cancel_left]

/-- A superset ages with every update, until a rebuild. -/
lemma View.Ok.updates (h : view.Ok map) (camera : SectionKey) (orders : List VisitOrder)
    (hne : orders ≠ []) {updates : ℕ}
    (hsome : (view.run (orders.map (Op.update camera))).scratch.supersetUpdates=some updates) :
    orders.length≤updates := by
  induction orders using List.reverseRecOn generalizing updates with
  | nil => exact absurd rfl hne
  | append_singleton orders order ih =>
    have hbefore := h.run (orders.map (Op.update camera))
    rw [View.run,map_append,foldl_append] at hsome
    change (((view.run (orders.map (Op.update camera))).update camera order).scratch).supersetUpdates=_ at hsome
    obtain ⟨hspec,hscratch,-,-,-⟩ := hbefore.update_leaves camera order
    rw [hscratch] at hsome
    rcases hspec.superset with hnone | ⟨count,hcount,-,hwhy⟩
    · rw [hnone] at hsome
      cases hsome
    · rw [hcount] at hsome
      cases hsome
      rw [length_append,length_singleton]
      refine Nat.succ_le_succ ?_
      rcases hwhy with hold | ⟨-,hchanged⟩
      · by_cases hfirst : orders = []
        · rw [hfirst]
          exact Nat.zero_le _
        · exact ih hfirst hold
      · by_cases hfirst : orders = []
        · rw [hfirst]
          exact Nat.zero_le _
        · exact absurd (h.settled camera orders hfirst) hchanged

/-- After every update of every history the published set contains what the reference traversal
of the edited map shows, and equals it when the scratch reports it is exact; once nothing but
updates follow, it is exact from the limit on. -/
theorem visibility_matches_oracle (number : ℕ) (ops : List Op) (camera : SectionKey) :
    (∀ order, let view := (View.new number).run (ops ++ [.update camera order])
      (∀ key ∈ oracle view.scratch.outwardOnly camera (edited ops), view.visible.contains key=true) ∧
      (view.scratch.isExact=true → ∀ key, view.visible.contains key=true ↔
        key ∈ oracle view.scratch.outwardOnly camera (edited ops))) ∧
    ∀ orders : List VisitOrder, supersetUpdateLimit ≤ orders.length →
      ((View.new number).run (ops ++ orders.map (Op.update camera))).scratch.isExact = true := by
  have hok := (View.new_ok number).run ops
  refine ⟨fun order => ?_,fun orders hlimit => ?_⟩
  · have hrun : (View.new number).run (ops ++ [.update camera order]) =
        ((View.new number).run ops).update camera order := by
      unfold View.run
      rw [foldl_append]
      rfl
    rw [hrun]
    exact hok.update_shows camera order
  · have hrun : (View.new number).run (ops ++ orders.map (Op.update camera)) =
        ((View.new number).run ops).run (orders.map (Op.update camera)) := by
      unfold View.run
      rw [foldl_append]
    rw [hrun]
    have hne : orders ≠ [] := by
      rintro rfl
      exact absurd hlimit (by decide)
    cases hcount : (((View.new number).run ops).run
        (orders.map (Op.update camera))).scratch.supersetUpdates with
    | none =>
      unfold CaveVisibilityScratch.isExact
      rw [hcount]
      rfl
    | some updates =>
      have hage := hok.updates camera orders hne hcount
      have hbound := (hok.run (orders.map (Op.update camera))).rest.bound updates hcount
      omega

end Cinnabar.Culling
