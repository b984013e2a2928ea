import Cinnabar.Culling.Walk

/-! # Seeding the openings -/

namespace Cinnabar.Culling

open CaveVisibilityScratch List

variable {grid : ConnectivityGrid} {s s' s₀ : CaveVisibilityScratch} {P : Fact → Prop}
  {owed : SectionKey → Face → Prop}

variable {key : SectionKey}

lemma Walk.push (h : Walk grid P owed s₀ s) (hnext : NextToReached grid s key) :
    Walk grid P owed s₀ { s with addedVisible := s.addedVisible ++ [key] } where
  numbered :=
    { __ := h.numbered }
  keeps :=
    { __ := h.keeps }
  __ := h
  added := by
    refine ⟨fun other hother=>mem_append_left _ (h.added.1 hother),fun other hother=>?_⟩
    rcases mem_append.1 hother with hold | hnew
    · exact h.added.2 other hold
    · rw [mem_singleton] at hnew
      rw [hnew]
      exact .inr hnext

/-- Exits into `key` from the faces listed are still owed. -/
def OwedThrough (owed : SectionKey → Face → Prop) (key : SectionKey) (faces : List Face)
    (other : SectionKey) (exit : Face) : Prop :=
  owed other exit ∨ ∃ face ∈ faces, adjacent key face=some other ∧ exit=face.opposite

structure SeedSays (grid : ConnectivityGrid) (s s' : CaveVisibilityScratch) (key : SectionKey)
    (node : ℕ) (faces : List Face) : Prop where
  idOf : grid.slots.idOf s' key=some node
  grows : Grows grid s s'
  added : s.addedVisible ⊆ s'.addedVisible
  /-- The key is shown next to a neighbour that was reached. -/
  shell : s.builtOutwardOnly=false → ∀ face ∈ faces, ∀ neighbour,
    adjacent key face=some neighbour → grid.states s neighbour≠none → key ∈ s'.addedVisible

def shelled (s : CaveVisibilityScratch) (state : NodeState) (key : SectionKey) :
    CaveVisibilityScratch :=
  if state.isSome && !s.builtOutwardOnly then { s with addedVisible := s.addedVisible ++ [key] }
  else s

lemma Walk.shelled (h : Walk grid P owed s₀ s) {key neighbour : SectionKey} {face : Face}
    (hget : (grid.slots.get key).isSome) (hadj : adjacent key face=some neighbour) :
    Walk grid P owed s₀ (shelled s (grid.states s neighbour) key) ∧
      grid.slots.idOf (shelled s (grid.states s neighbour) key) = grid.slots.idOf s ∧
      grid.states (shelled s (grid.states s neighbour) key) = grid.states s ∧
      s.addedVisible ⊆ (shelled s (grid.states s neighbour) key).addedVisible ∧
      (s.builtOutwardOnly=false → grid.states s neighbour≠none →
        key ∈ (shelled s (grid.states s neighbour) key).addedVisible) := by
  unfold Culling.shelled
  split_ifs with hshell
  · rw [Bool.and_eq_true,Bool.not_eq_true'] at hshell
    refine ⟨h.push ⟨hget,hshell.2,face,neighbour,hadj,?_⟩,rfl,rfl,
      subset_append_left _ _,fun _ _=>mem_append_right _ (.head _)⟩
    exact Option.isSome_iff_ne_none.1 hshell.1
  · refine ⟨h,rfl,rfl,fun _=>id,fun hrule hreached=>absurd ?_ hshell⟩
    rw [Bool.and_eq_true,Bool.not_eq_true']
    exact ⟨Option.isSome_iff_ne_none.2 hreached,hrule⟩

variable {value : FaceConnectivity}

lemma seedFace_spec (hgrid : grid.Sound)
    (hstep : ∀ {f f'}, P f → Step grid.slots.get s₀.allowedExits f f' → P f') {node : ℕ} {face : Face} {rest : List Face}
    (hget : grid.slots.get key=some value) (hid : grid.slots.idOf s key=some node)
    (h : Walk grid P (OwedThrough owed key (face::rest)) s₀ s) :
    Walk grid P (OwedThrough owed key rest) s₀ (seedFace key grid node value s face) ∧
      SeedSays grid s (seedFace key grid node value s face) key node [face] := by
  unfold seedFace
  cases hadj : adjacent key face with
  | none =>
    refine ⟨h.weaken fun _ _ _ ho=>.inl ?_,hid,.refl grid s,fun _=>id,fun _ f hf n hn=>?_⟩
    · rcases ho with ho | ⟨f,hf,hfadj,rfl⟩
      · exact .inl ho
      · rcases mem_cons.1 hf with rfl | hf
        · rw [hadj] at hfadj
          cases hfadj
        · exact .inr ⟨f,hf,hfadj,rfl⟩
    · rw [mem_singleton.1 hf,hadj] at hn
      cases hn
  | some neighbour =>
    dsimp only
    rw [reachedState_eq hgrid h.numbered]
    change Walk grid P _ s₀ (if face.opposite ∈ (grid.states s neighbour).getD ∅ then
      (shelled s (grid.states s neighbour) key).reach grid.cellCount node
        (value.row face ∩ (shelled s (grid.states s neighbour) key).allowedExits key)
      else shelled s (grid.states s neighbour) key) ∧
      SeedSays grid s (if face.opposite ∈ (grid.states s neighbour).getD ∅ then
      (shelled s (grid.states s neighbour) key).reach grid.cellCount node
        (value.row face ∩ (shelled s (grid.states s neighbour) key).allowedExits key)
      else shelled s (grid.states s neighbour) key) key node [face]
    obtain ⟨hwalk,hidOf,hstates,hadded,hshell⟩ := h.shelled (by rw [hget]; rfl) hadj
    have hshell' : s.builtOutwardOnly=false → ∀ f ∈ [face], ∀ n, adjacent key f=some n →
        grid.states s n≠none → key ∈ (shelled s (grid.states s neighbour) key).addedVisible := by
      intro hrule f hf n hn hreached
      rw [mem_singleton.1 hf,hadj] at hn
      cases hn
      exact hshell hrule hreached
    generalize hs' : shelled s (grid.states s neighbour) key=s' at hwalk hidOf hstates hadded hshell' ⊢
    have hid' : grid.slots.idOf s' key=some node := by rw [hidOf,hid]
    by_cases hmem : face.opposite ∈ (grid.states s neighbour).getD ∅
    · rw [if_pos hmem]
      obtain ⟨state,hstate,hin⟩ : ∃ state, grid.states s neighbour=some state ∧ face.opposite ∈ state := by
        cases hst : grid.states s neighbour with
        | none =>
          rw [hst] at hmem
          simp at hmem
        | some state =>
          rw [hst] at hmem
          exact ⟨state,rfl,hmem⟩
      have hP : P (.exit neighbour face.opposite) := (h.sound hstate).2 _ hin
      have hback : adjacent neighbour face.opposite=some key := adjacent_comm hadj
      have hallow : s'.allowedExits=s₀.allowedExits := hwalk.keeps.allowedExits
      rw [hallow]
      have hspec := hwalk.numbered.reach (value.row face ∩ s₀.allowedExits key) hid'
      obtain ⟨hreached,entered,hentered,hsub⟩ := hwalk.reach
        (value.row face ∩ s₀.allowedExits key) hid' (hstep hP (.reached hback hget))
        fun e he=>hstep hP (.exit hback hget (by
          rw [Face.opposite_opposite]
          exact (Finset.mem_inter.1 he).1) (Finset.mem_inter.1 he).2)
      refine ⟨hreached.weaken fun _ _ hnext ho=>?_,?_,?_,?_,?_⟩
      · rcases ho with ho | ⟨f,hf,hfadj,rfl⟩
        · exact .inl (.inl ho)
        · rcases mem_cons.1 hf with rfl | hf
          · rw [hadj] at hfadj
            cases hfadj
            rw [hback] at hnext
            cases hnext
            refine .inr fun v hv=>⟨entered,hentered,?_⟩
            rw [hget] at hv
            cases hv
            rw [Face.opposite_opposite]
            exact hsub
          · exact .inl (.inr ⟨f,hf,hfadj,rfl⟩)
      · rw [hspec.idOf]
        exact hid'
      · intro other st hst
        rw [← hstates] at hst
        exact hspec.grows other st hst
      · rw [hspec.addedVisible]
        exact hadded
      · rw [hspec.addedVisible]
        exact hshell'
    · rw [if_neg hmem]
      refine ⟨hwalk.weaken fun hstate hexit hnext ho=>.inl ?_,hid',?_,hadded,hshell'⟩
      · rcases ho with ho | ⟨f,hf,hfadj,rfl⟩
        · exact .inl ho
        · rcases mem_cons.1 hf with rfl | hf
          · rw [hadj] at hfadj
            cases hfadj
            refine absurd ?_ hmem
            rw [hstates] at hstate
            rw [hstate]
            exact hexit
          · exact .inr ⟨f,hf,hfadj,rfl⟩
      · intro other st hst
        rw [← hstates] at hst
        exact ⟨st,hst,Finset.Subset.refl st⟩

lemma seedFaces_spec (hgrid : grid.Sound)
    (hstep : ∀ {f f'}, P f → Step grid.slots.get s₀.allowedExits f f' → P f') {node : ℕ} (faces : List Face)
    (hget : grid.slots.get key=some value) (hid : grid.slots.idOf s key=some node)
    (h : Walk grid P (OwedThrough owed key faces) s₀ s) :
    Walk grid P owed s₀ (faces.foldl (seedFace key grid node value) s) ∧
      SeedSays grid s (faces.foldl (seedFace key grid node value) s) key node faces := by
  induction faces generalizing s with
  | nil =>
    refine ⟨h.weaken fun _ _ _ ho=>.inl ?_,hid,.refl grid s,fun _=>id, fun _ f hf=>nomatch hf⟩
    rcases ho with ho | ⟨f,hf,-⟩
    · exact ho
    · cases hf
  | cons face rest ih =>
    obtain ⟨hwalk,hspec⟩ := seedFace_spec hgrid hstep hget hid h
    obtain ⟨hwalk',hspec'⟩ := ih hspec.idOf hwalk
    refine ⟨hwalk',hspec'.idOf,hspec.grows.trans hspec'.grows,
      fun _ hother=>hspec'.added (hspec.added hother),fun hrule f hf n hn hreached=>?_⟩
    rcases mem_cons.1 hf with rfl | hf
    · exact hspec'.added (hspec.shell hrule f (.head _) n hn hreached)
    · refine hspec'.shell ?_ f hf n hn ?_
      · rw [hwalk.keeps.builtOutwardOnly,← h.keeps.builtOutwardOnly]
        exact hrule
      · obtain ⟨state,hstate⟩ := Option.ne_none_iff_exists'.1 hreached
        obtain ⟨state',hstate',-⟩ := hspec.grows n state hstate
        rw [hstate']
        exact Option.some_ne_none state'

structure OpenSays (grid : ConnectivityGrid) (s s' : CaveVisibilityScratch)
    (opened : SectionKey → Prop) : Prop where
  grows : Grows grid s s'
  added : s.addedVisible ⊆ s'.addedVisible
  shell : s.builtOutwardOnly=false → ∀ key, opened key → (grid.slots.get key).isSome →
    ∀ face neighbour, adjacent key face=some neighbour → grid.states s neighbour≠none → key ∈ s'.addedVisible
  /-- The camera's own faces. -/
  camera : ∀ key, opened key → s.camera=some key → ∀ value, grid.slots.get key=some value →
    ∃ state, grid.states s' key=some state ∧ value.touchedFaces ⊆ state

def SeedsHold (grid : ConnectivityGrid) (P : Fact → Prop) (s₀ : CaveVisibilityScratch) : Prop :=
  ∀ camera value, s₀.camera=some camera → grid.slots.get camera=some value →
    P (.reached camera) ∧ ∀ exit ∈ value.touchedFaces, P (.exit camera exit)

lemma seedOpened_spec (hgrid : grid.Sound) (hstep : ∀ {f f'}, P f → Step grid.slots.get s₀.allowedExits f f' → P f')
    (hseeds : SeedsHold grid P s₀) (owed : SectionKey → Face → Prop) (key : SectionKey)
    (h : Walk grid P (fun other e=>owed other e ∨ adjacent other e=some key) s₀ s) :
    Walk grid P owed s₀ (seedOpened key grid s) ∧
      OpenSays grid s (seedOpened key grid s) fun other=>other=key := by
  unfold seedOpened
  cases hget : grid.slots.get key with
  | none =>
    rw [node_none hgrid hget]
    refine ⟨h.weaken fun _ _ hnext ho=>?_,.refl grid s,fun _=>id,
      fun _ other hk hsome=>?_,fun other hk _ value hvalue=>?_⟩
    · rcases ho with ho | hadj
      · exact .inl ho
      · rw [hadj] at hnext
        cases hnext
        refine .inr fun value hvalue=>?_
        rw [hget] at hvalue
        cases hvalue
    · rw [hk,hget] at hsome
      cases hsome
    · rw [hk,hget] at hvalue
      cases hvalue
  | some value =>
    obtain ⟨node,hnode,hid,hspec⟩ := node_some hgrid h.numbered hget
    dsimp only
    rw [hnode]
    dsimp only
    have howed : Walk grid P (OwedThrough owed key Face.all) s₀ (s.node grid key).2 := by
      refine (h.node hspec).weaken fun _ _ _ ho=>.inl ?_
      rcases ho with ho | hadj
      · exact .inl ho
      · exact .inr ⟨_,Face.mem_all _,adjacent_comm hadj,(Face.opposite_opposite _).symm⟩
    have hgrows : Grows grid s (s.node grid key).2 := by
      intro other st hst
      rw [hspec.states]
      exact ⟨st,hst,Finset.Subset.refl st⟩
    -- the camera's own faces come first
    have hcamera : ∃ t, (if (s.node grid key).2.camera=some key then
          (s.node grid key).2.reach grid.cellCount node value.touchedFaces
          else (s.node grid key).2) = t ∧
        Walk grid P (OwedThrough owed key Face.all) s₀ t ∧ grid.slots.idOf t key=some node ∧
        Grows grid s t ∧ t.addedVisible=s.addedVisible ∧
        (s.camera=some key →
          ∃ state, grid.states t key=some state ∧ value.touchedFaces ⊆ state) := by
      refine ⟨_,rfl,?_⟩
      split_ifs with hcam
      · have hs₀ : s₀.camera=some key := by
          rw [← (h.keeps.trans hspec.keeps).camera]
          exact hcam
        obtain ⟨hP,hexits⟩ := hseeds key value hs₀ hget
        have hreach := hspec.numbered.reach value.touchedFaces hid
        obtain ⟨hwalk,hstate⟩ := howed.reach _ hid hP hexits
        exact ⟨hwalk,by rw [hreach.idOf]; exact hid,hgrows.trans hreach.grows,
          hreach.addedVisible.trans hspec.addedVisible,fun _=>hstate⟩
      · refine ⟨howed,hid,hgrows,hspec.addedVisible,fun hs=>absurd ?_ hcam⟩
        rw [hspec.keeps.camera]
        exact hs
    obtain ⟨t,ht,hwalk,hidt,hgrowst,haddedt,hcamt⟩ := hcamera
    rw [ht]
    obtain ⟨hdone,hseeded⟩ := seedFaces_spec hgrid hstep Face.all hget hidt hwalk
    refine ⟨hdone,hgrowst.trans hseeded.grows,?_,?_,?_⟩
    · rw [← haddedt]
      exact hseeded.added
    · rintro hrule other rfl - face neighbour hadj hreached
      refine hseeded.shell ?_ face (Face.mem_all face) neighbour hadj ?_
      · rw [hwalk.keeps.builtOutwardOnly,← h.keeps.builtOutwardOnly]
        exact hrule
      · obtain ⟨state,hstate⟩ := Option.ne_none_iff_exists'.1 hreached
        obtain ⟨state',hstate',-⟩ := hgrowst neighbour state hstate
        rw [hstate']
        exact Option.some_ne_none state'
    · rintro other rfl hcam v hv
      rw [hget] at hv
      cases hv
      obtain ⟨state,hstate,hsub⟩ := hcamt hcam
      obtain ⟨state',hstate',hsub'⟩ := hseeded.grows other state hstate
      exact ⟨state',hstate',hsub.trans hsub'⟩

lemma seedChanges_spec (hgrid : grid.Sound) (hstep : ∀ {f f'}, P f → Step grid.slots.get s₀.allowedExits f f' → P f')
    (hseeds : SeedsHold grid P s₀) (changes : List GraphChange) (hpresent : s.cameraPresent=true)
    (h : Walk grid P (fun other e=>∃ next, adjacent other e=some next ∧ GraphChange.opened next ∈ changes) s₀ s) :
    Walk grid P (fun _ _=>False) s₀ (changes.foldl (seedChange grid) s) ∧
      OpenSays grid s (changes.foldl (seedChange grid) s)
        fun key=>GraphChange.opened key ∈ changes := by
  induction changes generalizing s with
  | nil =>
    refine ⟨h.weaken fun _ _ _ ho=>?_,.refl grid s,fun _=>id,fun _ _ hk=>?_, fun _ hk=>?_⟩
    · obtain ⟨next,-,hnext⟩ := ho
      cases hnext
    · cases hk
    · cases hk
  | cons change rest ih =>
    have hskip : (∀ key, change ≠ .opened key) → seedChange grid s change=s := by
      intro hchange
      cases change with
      | opened key => exact absurd rfl (hchange key)
      | narrowed => rfl
      | removed key cell => rfl
      | promoted key cell => rfl
    rw [foldl_cons]
    by_cases hopened : ∃ key, change = .opened key
    · obtain ⟨key,rfl⟩ := hopened
      have hseed : seedChange grid s (.opened key) = seedOpened key grid s := if_pos hpresent
      rw [hseed]
      obtain ⟨hwalk,hspec⟩ := seedOpened_spec hgrid hstep hseeds (fun other e =>
        ∃ next, adjacent other e=some next ∧ GraphChange.opened next ∈ rest) key (h.weaken fun _ _ _ ho=>.inl (by
            obtain ⟨next,hadj,hnext⟩ := ho
            rcases mem_cons.1 hnext with heq | hnext
            · cases heq
              exact .inr hadj
            · exact .inl ⟨next,hadj,hnext⟩))
      have hkeeps : (seedOpened key grid s).builtOutwardOnly=s.builtOutwardOnly ∧
          (seedOpened key grid s).camera=s.camera := by
        rw [hwalk.keeps.builtOutwardOnly,hwalk.keeps.camera,h.keeps.builtOutwardOnly, h.keeps.camera]
        exact ⟨rfl,rfl⟩
      obtain ⟨hdone,hrest⟩ := ih (by
        rw [hwalk.keeps.cameraPresent,← h.keeps.cameraPresent]
        exact hpresent) hwalk
      refine ⟨hdone,hspec.grows.trans hrest.grows,fun _ hother =>
        hrest.added (hspec.added hother),?_,?_⟩
      · intro hrule other hother hsome face neighbour hadj hreached
        rcases mem_cons.1 hother with heq | hother
        · cases heq
          exact hrest.added (hspec.shell hrule key rfl hsome face neighbour hadj hreached)
        · refine hrest.shell (hkeeps.1.trans hrule) other hother hsome face neighbour hadj ?_
          obtain ⟨state,hstate⟩ := Option.ne_none_iff_exists'.1 hreached
          obtain ⟨state',hstate',-⟩ := hspec.grows neighbour state hstate
          rw [hstate']
          exact Option.some_ne_none state'
      · intro other hother hcam value hvalue
        rcases mem_cons.1 hother with heq | hother
        · cases heq
          obtain ⟨state,hstate,hsub⟩ := hspec.camera key rfl hcam value hvalue
          obtain ⟨state',hstate',hsub'⟩ := hrest.grows key state hstate
          exact ⟨state',hstate',hsub.trans hsub'⟩
        · exact hrest.camera other hother (hkeeps.2.trans hcam) value hvalue
    · have hother : ∀ key, change ≠ .opened key := fun key hk=>hopened ⟨key,hk⟩
      have hmem : ∀ key, GraphChange.opened key ∈ change::rest → GraphChange.opened key ∈ rest := by
        intro key hkey
        rcases mem_cons.1 hkey with heq | hkey
        · exact absurd heq.symm (hother key)
        · exact hkey
      rw [hskip hother]
      obtain ⟨hdone,hrest⟩ := ih hpresent (h.weaken fun _ _ _ ho=>.inl (by
        obtain ⟨next,hadj,hnext⟩ := ho
        exact ⟨next,hadj,hmem next hnext⟩))
      exact ⟨hdone,hrest.grows,hrest.added, fun hrule key hkey=>hrest.shell hrule key (hmem key hkey),
        fun key hkey=>hrest.camera key (hmem key hkey)⟩

end Cinnabar.Culling
