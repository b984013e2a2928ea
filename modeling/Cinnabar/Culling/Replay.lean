import Cinnabar.Culling.Seeding

/-! # Replaying the journal -/

namespace Cinnabar.Culling

open CaveVisibilityScratch Option

open Function (update update_apply update_eq_self update_of_ne update_self)

open CaveVisibilityScratch

def Lit (graph : Graph) (outwardOnly : Bool) (camera key : SectionKey) : Prop :=
  Reaches graph (ruleExits outwardOnly camera) camera (.reached key) ∨
    (outwardOnly=false ∧ ∃ node face, adjacent node face=some key ∧
      Reaches graph (ruleExits outwardOnly camera) camera (.reached node))

lemma Lit.mono {graph graph' : Graph} (h : graph.Le graph') {outwardOnly : Bool}
    {camera key : SectionKey} (hlit : Lit graph outwardOnly camera key) :
    Lit graph' outwardOnly camera key := by
  rcases hlit with hreached | ⟨hrule,node,face,hadj,hreached⟩
  · exact .inl (hreached.mono h)
  · exact .inr ⟨hrule,node,face,hadj,hreached.mono h⟩

/-- What the traversal and the set it published know of the slots, but for the opened keys. -/
structure Retained (cells : ℕ) (slots : Slots) (camera : SectionKey)
    (opened visible : SectionKey → Prop) (s : CaveVisibilityScratch) : Prop where
  numbered : Numbered cells slots s
  stack : s.stack = []
  viewed : s.camera=some camera
  served : ∀ {key state exit next}, slots.stateOf cells s key=some state → exit ∈ state → adjacent key exit=some next →
    opened next ∨ Served slots.get s.allowedExits (slots.stateOf cells s) next exit
  seeded : s.cameraPresent=true → opened camera ∨ ∀ value, slots.get camera=some value →
    ∃ state, slots.stateOf cells s camera=some state ∧ value.touchedFaces ⊆ state
  /-- Away from the graph everything is shown. -/
  absent : s.cameraPresent=false → (∀ key, slots.stateOf cells s key=none) ∧
    ∀ key, (slots.get key).isSome → opened key ∨ visible key
  shown : ∀ key, slots.stateOf cells s key≠none → visible key
  shell : s.builtOutwardOnly=false → ∀ {key face next}, slots.stateOf cells s key≠none →
    adjacent key face=some next → (slots.get next).isSome → opened next ∨ visible next
  exact : s.supersetUpdates=none → (∀ key, visible key → (slots.get key).isSome ∧
      (s.cameraPresent=true → Lit slots.get s.builtOutwardOnly camera key)) ∧
    ∀ {key state}, slots.stateOf cells s key=some state →
      Reaches slots.get (ruleExits s.builtOutwardOnly camera) camera (.reached key) ∧
      ∀ exit ∈ state, Reaches slots.get (ruleExits s.builtOutwardOnly camera) camera (.exit key exit)

variable {cells : ℕ} {slots slots' : Slots} {s s' : CaveVisibilityScratch}

lemma allowedExits_eq {camera : SectionKey} (h : s.camera=some camera) :
    s.allowedExits=ruleExits s.builtOutwardOnly camera := by
  unfold allowedExits
  rw [h]

structure ReplaySays (cells : ℕ) (slots slots' : Slots) (opened : SectionKey → Prop)
    (s s' : CaveVisibilityScratch) : Prop where
  numbered : Numbered cells slots' s'
  stack : s'.stack=s.stack
  camera : s'.camera=s.camera
  cameraPresent : s'.cameraPresent=s.cameraPresent
  builtOutwardOnly : s'.builtOutwardOnly=s.builtOutwardOnly
  /-- States only go. -/
  shrinks : ∀ {key state}, slots'.stateOf cells s' key=some state → slots.stateOf cells s key=some state
  /-- Keys that stay keep their states and gain nothing unless they are opened. -/
  stays : ∀ {key value}, slots'.get key=some value → opened key ∨
    slots'.stateOf cells s' key=slots.stateOf cells s key ∧
      ∃ old, slots.get key=some old ∧ value.connected ⊆ old.connected
  exact : s'.supersetUpdates=none → s.supersetUpdates=none ∧ Graph.Le slots.get slots'.get

lemma Retained.step {camera : SectionKey} {opened visible : SectionKey → Prop}
    (h : Retained cells slots camera opened visible s)
    (hspec : ReplaySays cells slots slots' opened s s') :
    Retained cells slots' camera opened visible s' := by
  have hcamera : s'.camera=some camera := hspec.camera.trans h.viewed
  have hallow : s'.allowedExits=s.allowedExits := by
    rw [allowedExits_eq hcamera,allowedExits_eq h.viewed,hspec.builtOutwardOnly]
  have hne : ∀ {key}, slots'.stateOf cells s' key≠none → slots.stateOf cells s key≠none := by
    intro key hkey
    obtain ⟨state,hstate⟩ := ne_none_iff_exists'.1 hkey
    rw [hspec.shrinks hstate]
    exact some_ne_none state
  have hstays : ∀ {key}, (slots'.get key).isSome → opened key ∨ (slots.get key).isSome := by
    intro key hkey
    obtain ⟨value,hvalue⟩ := isSome_iff_exists.1 hkey
    rcases hspec.stays hvalue with ho | ⟨-,old,hold,-⟩
    · exact .inl ho
    · rw [hold]
      exact .inr rfl
  refine ⟨hspec.numbered,hspec.stack.trans h.stack,hcamera,?_,?_,?_,?_,?_,?_⟩
  · intro key state exit next hstate hexit hnext
    rcases h.served (hspec.shrinks hstate) hexit hnext with ho | hserved
    · exact .inl ho
    · by_cases ho : opened next
      · exact .inl ho
      · refine .inr fun value hvalue=>?_
        obtain ⟨hsame,old,hold,hsub⟩ := (hspec.stays hvalue).resolve_left ho
        obtain ⟨entered,hentered,hrow⟩ := hserved old hold
        refine ⟨entered,hsame.trans hentered,fun leave hleave=>hrow ?_⟩
        rw [hallow] at hleave
        rw [Finset.mem_inter,FaceConnectivity.mem_row] at hleave ⊢
        exact ⟨hsub hleave.1,hleave.2⟩
  · intro hpresent
    rcases h.seeded (hspec.cameraPresent.symm.trans hpresent) with ho | hseeded
    · exact .inl ho
    · by_cases ho : opened camera
      · exact .inl ho
      · refine .inr fun value hvalue=>?_
        obtain ⟨hsame,old,hold,hsub⟩ := (hspec.stays hvalue).resolve_left ho
        obtain ⟨state,hstate,hfaces⟩ := hseeded old hold
        refine ⟨state,hsame.trans hstate,fun face hface=>hfaces ?_⟩
        rw [FaceConnectivity.mem_touchedFaces] at hface ⊢
        exact hsub hface
  · intro habsent
    obtain ⟨hnone,hall⟩ := h.absent (hspec.cameraPresent.symm.trans habsent)
    refine ⟨fun key=>?_,fun key hkey=>?_⟩
    · by_contra hkey
      exact hne hkey (hnone key)
    · rcases hstays hkey with ho | hold
      · exact .inl ho
      · exact hall key hold
  · exact fun key hkey=>h.shown key (hne hkey)
  · intro hrule key face next hkey hnext hsome
    rcases hstays hsome with ho | hold
    · exact .inl ho
    · exact h.shell (hspec.builtOutwardOnly.symm.trans hrule) (hne hkey) hnext hold
  · intro hexact
    obtain ⟨hexact',hle⟩ := hspec.exact hexact
    obtain ⟨hvisible,hsound⟩ := h.exact hexact'
    rw [hspec.cameraPresent,hspec.builtOutwardOnly]
    refine ⟨fun key hkey=>?_,fun hstate=>?_⟩
    · obtain ⟨hsome,hlit⟩ := hvisible key hkey
      obtain ⟨value,hvalue⟩ := isSome_iff_exists.1 hsome
      obtain ⟨value',hvalue',-⟩ := hle key value hvalue
      exact ⟨by rw [hvalue']; rfl,fun hpresent=>(hlit hpresent).mono hle⟩
    · obtain ⟨hreached,hexits⟩ := hsound (hspec.shrinks hstate)
      exact ⟨hreached.mono hle,fun exit hexit=>(hexits exit hexit).mono hle⟩

lemma Slots.put_cases (hs : slots.Ok) (key : SectionKey) (value : FaceConnectivity) :
    (slots.put key value=slots.insertOverflow key value ∧ ¬slots.InCell key) ∨
      (slots.put key value=slots.setCell (slots.index key) (some ⟨key,value⟩) ∧ slots.overflow.lookup key=none ∧
        ∀ cell, slots.cells (slots.index key) = some cell → cell.key=key) := by
  by_cases hover : (slots.overflow.lookup key).isSome=true
  · exact .inl ⟨if_pos hover,not_inCell_of_overflow hs hover⟩
  · have hnone : slots.overflow.lookup key=none := by simpa using hover
    cases hcell : slots.cells (slots.index key) with
    | none =>
      simp [put,hnone,hcell]
    | some cell =>
      by_cases hk : cell.key=key
      · refine .inr ⟨?_,hnone,fun cell' h=>?_⟩
        · simp [put,hnone,hcell,hk]
        · cases h
          exact hk
      · refine .inl ⟨?_,?_⟩
        · simp [put,hnone,hcell,hk]
        · rintro ⟨v,hv⟩
          rw [hcell] at hv
          cases hv
          exact hk rfl

lemma stateOf_congr {key : SectionKey} (hin : slots'.InCell key ↔ slots.InCell key)
    (hindex : slots'.index=slots.index) :
    slots'.stateOf cells s key=slots.stateOf cells s key := by
  unfold Slots.stateOf
  by_cases h : slots.InCell key
  · rw [Slots.idOf_inCell (hin.2 h),Slots.idOf_inCell h,hindex]
  · rw [Slots.idOf_not_inCell (mt hin.1 h),Slots.idOf_not_inCell h]

section

variable (h : Numbered cells slots s)
include h

variable {key : SectionKey}

lemma Numbered.put (value : FaceConnectivity)
    (hindex : slots.index key < cells) : Numbered cells (slots.put key value) s ∧
      ∀ other, (slots.put key value).stateOf cells s other=slots.stateOf cells s other := by
  have hok := (h.ok.put key value).1
  rcases Slots.put_cases h.ok key value with ⟨hput,hin⟩ | ⟨hput,hover,hcell⟩
  · rw [hput] at hok ⊢
    refine ⟨⟨hok,h.bound,h.len,h.empty,h.touched,fun {other id} hid=>?_,h.live⟩, fun other=>rfl⟩
    refine ⟨?_,(h.ids hid).2⟩
    change ((slots.overflow.insert key value).lookup other).isSome
    by_cases hk : other=key
    · rw [hk,Finmap.lookup_insert]
      rfl
    · rw [Finmap.lookup_insert_of_ne _ hk]
      exact (h.ids hid).1
  · rw [hput] at hok ⊢
    have hcells : ∀ i, (slots.setCell (slots.index key) (some ⟨key,value⟩)).cells i =
        if i=slots.index key then some ⟨key,value⟩ else slots.cells i := fun i=>by
      simp [Slots.setCell,update_apply]
    refine ⟨⟨hok,fun {i c} hc=>?_,h.len,fun {i} hc=>?_,h.touched,h.ids,h.live⟩, fun other=>?_⟩
    · rw [hcells] at hc
      split_ifs at hc with hi
      · rw [hi]
        exact hindex
      · exact h.bound hc
    · rw [hcells] at hc
      split_ifs at hc
      exact h.empty hc
    · by_cases hk : other=key
      · subst hk
        have hin' : (slots.setCell (slots.index other) (some ⟨other,value⟩)).InCell other := ⟨value,by
            exact if_pos rfl⟩
        by_cases hin : slots.InCell other
        · exact stateOf_congr (iff_of_true hin' hin) rfl
        · have hnone : slots.get other=none := by
            rw [Slots.get_of_not_inCell hin,hover]
          rw [h.stateOf_none hnone]
          unfold Slots.stateOf
          rw [Slots.idOf_inCell hin']
          change s.stateAt cells (slots.index other) = none
          rw [stateAt,if_pos hindex]
          refine h.empty ?_
          by_contra hsome
          obtain ⟨cell,hsome⟩ := ne_none_iff_exists'.1 hsome
          obtain ⟨k,v⟩ := cell
          have hkey : k=other := hcell _ hsome
          subst hkey
          exact hin ⟨v,hsome⟩
      · refine stateOf_congr ?_ rfl
        constructor
        · rintro ⟨v,hv⟩
          rw [hcells] at hv
          split_ifs at hv with hi
          · cases hv
            exact absurd rfl hk
          · exact ⟨v,hv⟩
        · rintro ⟨v,hv⟩
          refine ⟨v,?_⟩
          rw [hcells]
          split_ifs with hi
          · change slots.index other=slots.index key at hi
            rw [hi] at hv
            exact absurd (hcell _ hv) hk
          · exact hv

variable {opened : SectionKey → Prop}

lemma replay_joined (value : FaceConnectivity) (hindex : slots.index key < cells) (hopened : opened key)
    (hold : ∀ old, slots.get key=some old → old.connected ⊆ value.connected) :
    ReplaySays cells slots (slots.put key value) opened s s := by
  obtain ⟨hnumbered,hstates⟩ := h.put value hindex
  have hget := (h.ok.put key value).2
  refine ⟨hnumbered,rfl,rfl,rfl,rfl,fun hstate=>?_,fun {other v} hv=>?_, fun hexact=>⟨hexact,fun other v hv=>?_⟩⟩
  · rwa [hstates] at hstate
  · rw [hget] at hv
    split_ifs at hv with hk
    · rw [hk]
      exact .inl hopened
    · exact .inr ⟨hstates other,v,hv,Finset.Subset.refl _⟩
  · rw [hget]
    split_ifs with hk
    · rw [hk] at hv
      exact ⟨value,rfl,hold v hv⟩
    · exact ⟨v,hv,Finset.Subset.refl _⟩

lemma replay_narrowed {old : FaceConnectivity} (value : FaceConnectivity) (hindex : slots.index key < cells)
    (hold : slots.get key=some old) (hsub : value.connected ⊆ old.connected) :
    ReplaySays cells slots (slots.put key value) opened s s.markSuperset := by
  obtain ⟨hnumbered,hstates⟩ := h.put value hindex
  have hget := (h.ok.put key value).2
  refine ⟨⟨hnumbered.ok,hnumbered.bound,hnumbered.len,hnumbered.empty,hnumbered.touched,
    hnumbered.ids,hnumbered.live⟩,rfl,rfl,rfl,rfl,fun {other st} hstate=>?_,
    fun {other v} hv=>?_,fun hexact=>absurd hexact (some_ne_none _)⟩
  · change (slots.put key value).stateOf cells s other=some st at hstate
    rwa [hstates] at hstate
  · refine .inr ⟨hstates other,?_⟩
    rw [hget] at hv
    split_ifs at hv with hk
    · cases hv
      rw [hk]
      exact ⟨old,hold,hsub⟩
    · exact ⟨v,hv,Finset.Subset.refl _⟩

lemma replay_removedCell {grid : ConnectivityGrid} (hin : slots.InCell key) :
    ReplaySays cells slots (slots.setCell (slots.index key) none) opened s
      (s.forget grid key (some (slots.index key))).markSuperset := by
  obtain ⟨hok,hget⟩ := h.ok.removeCell hin
  obtain ⟨value,hvalue⟩ := hin
  have hover : s.overflowIds key=none := by
    by_contra hne
    obtain ⟨id,hid⟩ := ne_none_iff_exists'.1 hne
    have hsome := (h.ids hid).1
    rw [h.ok.apart ⟨value,hvalue⟩] at hsome
    cases hsome
  have hcells : ∀ i, (slots.setCell (slots.index key) none).cells i =
      if i=slots.index key then none else slots.cells i := fun i=>by
    simp [Slots.setCell,update_apply]
  have hvisited : ∀ i, (s.forget grid key (some (slots.index key))).markSuperset.visited i =
      if i=slots.index key then none else s.visited i := fun i =>
    update_apply s.visited _ _ i
  have hout : ¬(slots.setCell (slots.index key) none).InCell key := by
    rintro ⟨v,hv⟩
    have hself : (slots.setCell (slots.index key) none).index key=slots.index key := rfl
    rw [hcells,if_pos hself] at hv
    cases hv
  have hgone : (slots.setCell (slots.index key) none).stateOf cells
      (s.forget grid key (some (slots.index key))).markSuperset key=none := by
    unfold Slots.stateOf
    rw [Slots.idOf_not_inCell hout]
    change (s.overflowIds key).bind _=none
    rw [hover]
    rfl
  have hstates : ∀ other, other≠key → (slots.setCell (slots.index key) none).stateOf cells
      (s.forget grid key (some (slots.index key))).markSuperset other =
        slots.stateOf cells s other := by
    intro other hk
    by_cases hcell : slots.InCell other
    · have hi : slots.index other≠slots.index key := by
        intro hi
        obtain ⟨v,hv⟩ := hcell
        rw [hi,hvalue] at hv
        cases hv
        exact hk rfl
      obtain ⟨v,hv⟩ := hcell
      have hcell' : (slots.setCell (slots.index key) none).InCell other := ⟨v,by
        rw [hcells]
        exact (if_neg hi).trans hv⟩
      unfold Slots.stateOf
      rw [Slots.idOf_inCell hcell',Slots.idOf_inCell ⟨v,hv⟩]
      have hlt := h.bound hv
      change stateAt _ cells (slots.index other) = s.stateAt cells (slots.index other)
      rw [stateAt,stateAt,if_pos hlt,if_pos hlt, hvisited,if_neg hi]
    · have hcell' : ¬(slots.setCell (slots.index key) none).InCell other := by
        rintro ⟨v,hv⟩
        rw [hcells] at hv
        split_ifs at hv
        exact hcell ⟨v,hv⟩
      unfold Slots.stateOf
      rw [Slots.idOf_not_inCell hcell',Slots.idOf_not_inCell hcell]
      change (s.overflowIds other).bind _ = (s.overflowIds other).bind _
      cases hid : s.overflowIds other with
      | none => rfl
      | some id =>
        obtain ⟨-,j,v,rfl,-⟩ := h.ids hid
        change stateAt _ cells (cells+j) = s.stateAt cells (cells+j)
        rw [stateAt,stateAt,if_neg (by omega), if_neg (by omega)]
        rfl
  refine ⟨⟨hok,fun {i c} hc=>?_,h.len,fun {i} hc=>?_,fun {i} hi=>?_,h.ids,h.live⟩,
    rfl,rfl,rfl,rfl,fun {other st} hstate=>?_,fun {other v} hv=>.inr ?_,
    fun hexact=>absurd hexact (some_ne_none _)⟩
  · rw [hcells] at hc
    split_ifs at hc
    exact h.bound hc
  · rw [hvisited]
    rw [hcells] at hc
    split_ifs at hc ⊢
    · rfl
    · exact h.empty hc
  · rw [hvisited] at hi
    split_ifs at hi
    · exact absurd rfl hi
    · exact h.touched hi
  · by_cases hk : other=key
    · rw [hk,hgone] at hstate
      cases hstate
    · rwa [hstates other hk] at hstate
  · rw [hget] at hv
    split_ifs at hv with hk
    exact ⟨hstates other hk,v,hv,Finset.Subset.refl _⟩

end

variable {grid : ConnectivityGrid}

lemma forget_spec (h : Numbered grid.cellCount slots s) (key : SectionKey) :
    (s.forget grid key none).overflowIds=update s.overflowIds key none ∧
      (∀ other id, other≠key → s.overflowIds other=some id →
        (s.forget grid key none).stateAt grid.cellCount id=s.stateAt grid.cellCount id) ∧
      (∀ {j}, (s.forget grid key none).overflowVisited j≠none → ∃ other, other≠key ∧
        s.overflowIds other=some (grid.cellCount+j)) ∧
      (s.forget grid key none).visited=s.visited ∧
      (s.forget grid key none).overflowNodes=s.overflowNodes ∧
      (s.forget grid key none).visitedLen=s.visitedLen ∧
      (s.forget grid key none).stack=s.stack ∧
      (s.forget grid key none).touched=s.touched ∧
      (s.forget grid key none).addedVisible=s.addedVisible ∧
      Keeps s (s.forget grid key none) := by
  unfold CaveVisibilityScratch.forget
  cases hid : s.overflowIds key with
  | none =>
    refine ⟨?_,fun _ _ _ _=>rfl,fun hj=>?_,rfl,rfl,rfl,rfl,rfl,rfl,.refl s⟩
    · rw [← hid,update_eq_self,hid]
    · obtain ⟨other,hother⟩ := h.live hj
      refine ⟨other,?_,hother⟩
      rintro rfl
      rw [hid] at hother
      cases hother
  | some id =>
    obtain ⟨-,j,v,rfl,hnode⟩ := h.ids hid
    refine ⟨rfl,fun other id' hk hid'=>?_,fun {i} hi=>?_,rfl,rfl,rfl,rfl,rfl,rfl, ⟨rfl,rfl,rfl,rfl,rfl,rfl⟩⟩
    · obtain ⟨-,j',v',rfl,hnode'⟩ := h.ids hid'
      unfold stateAt
      rw [if_neg (by omega),if_neg (by omega)]
      change update s.overflowVisited _ none _=_
      rw [update_of_ne]
      intro heq
      have hj : j'=j := by omega
      rw [hj,hnode] at hnode'
      cases hnode'
      exact hk rfl
    · change update s.overflowVisited _ none i≠none at hi
      have hne : i≠grid.cellCount+j-grid.cellCount := by
        rintro rfl
        exact hi (update_self _ _ _)
      rw [update_of_ne hne] at hi
      obtain ⟨other,hother⟩ := h.live hi
      refine ⟨other,?_,hother⟩
      rintro rfl
      have heq := Option.some.inj (hid.symm.trans hother)
      omega

lemma Numbered.forget (h : Numbered grid.cellCount slots s)
    {key : SectionKey} (hover : (slots.overflow.lookup key).isSome) :
    Numbered grid.cellCount (slots.eraseOverflow key) (s.forget grid key none) ∧
      (slots.eraseOverflow key).stateOf grid.cellCount (s.forget grid key none) key=none ∧
      ∀ other, other≠key → (slots.eraseOverflow key).stateOf grid.cellCount (s.forget grid key none) other =
          slots.stateOf grid.cellCount s other := by
  obtain ⟨hids,hstateAt,hlive,hvisited,hnodes,hlen,-,htouched,-,-⟩ := forget_spec h key
  obtain ⟨hok,-⟩ := h.ok.removeOverflow hover
  have hout := Slots.not_inCell_of_overflow h.ok hover
  refine ⟨⟨hok,h.bound,hlen.trans h.len,fun {i} hi=>?_,fun {i} hi=>?_,
    fun {other id} hid=>?_,fun {j} hj=>?_⟩,?_,fun other hk=>?_⟩
  · rw [hvisited]
    exact h.empty hi
  · rw [hvisited] at hi
    rw [htouched]
    exact h.touched hi
  · rw [hids] at hid
    have hk : other≠key := by
      rintro rfl
      rw [update_self] at hid
      cases hid
    rw [update_of_ne hk] at hid
    rw [hnodes]
    refine ⟨?_,(h.ids hid).2⟩
    change ((slots.overflow.erase key).lookup other).isSome
    rw [Finmap.lookup_erase_ne hk]
    exact (h.ids hid).1
  · obtain ⟨other,hk,hid⟩ := hlive hj
    refine ⟨other,?_⟩
    rw [hids,update_of_ne hk,hid]
  · unfold Slots.stateOf
    rw [@Slots.idOf_not_inCell (slots.eraseOverflow key) _ _ hout,hids,update_self]
    rfl
  · unfold Slots.stateOf
    by_cases hcell : slots.InCell other
    · rw [Slots.idOf_inCell hcell,@Slots.idOf_inCell (slots.eraseOverflow key) _ _ hcell]
      obtain ⟨v,hv⟩ := hcell
      have hlt := h.bound hv
      change stateAt _ _ (slots.index other) = s.stateAt _ (slots.index other)
      rw [stateAt,stateAt,if_pos hlt,if_pos hlt, hvisited]
    · rw [Slots.idOf_not_inCell hcell, @Slots.idOf_not_inCell (slots.eraseOverflow key) _ _ hcell,hids, update_of_ne hk]
      cases hid : s.overflowIds other with
      | none => rfl
      | some id => exact hstateAt other id hk hid

variable {opened : SectionKey → Prop}

lemma replay_removedOverflow {key : SectionKey} (h : Numbered grid.cellCount slots s)
    (hover : (slots.overflow.lookup key).isSome) :
    ReplaySays grid.cellCount slots (slots.eraseOverflow key) opened s
      (s.forget grid key none).markSuperset := by
  obtain ⟨hnumbered,hgone,hstates⟩ := h.forget hover
  obtain ⟨-,-,-,-,-,-,hstack,-,-,hkeeps⟩ := forget_spec h key
  obtain ⟨-,hget⟩ := h.ok.removeOverflow hover
  refine ⟨⟨hnumbered.ok,hnumbered.bound,hnumbered.len,hnumbered.empty,hnumbered.touched,
    hnumbered.ids,hnumbered.live⟩,hstack,hkeeps.camera,hkeeps.cameraPresent,
    hkeeps.builtOutwardOnly,fun {other st} hstate=>?_,fun {other v} hv=>.inr ?_,
    fun hexact=>absurd hexact (some_ne_none _)⟩
  · change (slots.eraseOverflow key).stateOf grid.cellCount (s.forget grid key none) other=some st at hstate
    by_cases hk : other=key
    · rw [hk,hgone] at hstate
      cases hstate
    · rwa [hstates other hk] at hstate
  · rw [hget] at hv
    split_ifs at hv with hk
    exact ⟨hstates other hk,v,hv,Finset.Subset.refl _⟩

lemma Numbered.occupy (h : Numbered cells slots s) {key : SectionKey} (value : FaceConnectivity)
    (state : NodeState) (hover : slots.overflow.lookup key=none)
    (hcell : slots.cells (slots.index key) = none) (hindex : slots.index key < cells) :
    let taken : CaveVisibilityScratch := { s with
      visited := update s.visited (slots.index key) state
      touched := if state.isSome then s.touched ++ [slots.index key] else s.touched }
    Numbered cells (slots.setCell (slots.index key) (some ⟨key,value⟩)) taken ∧
      (slots.setCell (slots.index key) (some ⟨key,value⟩)).stateOf cells taken key=state ∧
      ∀ other, other≠key → (slots.setCell (slots.index key) (some ⟨key,value⟩)).stateOf cells taken other =
          slots.stateOf cells s other := by
  obtain ⟨hok,-⟩ := h.ok.setCell_self value hover fun cell hc=>by
    rw [hcell] at hc
    cases hc
  have hcells : ∀ i, (slots.setCell (slots.index key) (some ⟨key,value⟩)).cells i =
      if i=slots.index key then some ⟨key,value⟩ else slots.cells i := fun i=>by
    simp [Slots.setCell,update_apply]
  have hin : (slots.setCell (slots.index key) (some ⟨key,value⟩)).InCell key := ⟨value,by
    exact if_pos rfl⟩
  refine ⟨⟨hok,fun {i c} hc=>?_,h.len,fun {i} hc=>?_,fun {i} hi=>?_,h.ids,h.live⟩, ?_,fun other hk=>?_⟩
  · rw [hcells] at hc
    split_ifs at hc with hi
    · rw [hi]
      exact hindex
    · exact h.bound hc
  · rw [hcells] at hc
    split_ifs at hc with hi
    dsimp only
    rw [update_of_ne hi]
    exact h.empty hc
  · dsimp only at hi ⊢
    by_cases heq : i=slots.index key
    · rw [heq,update_self] at hi
      rw [if_pos (isSome_iff_ne_none.2 hi),heq]
      exact List.mem_append_right _ (.head _)
    · rw [update_of_ne heq] at hi
      have hold := h.touched hi
      split_ifs
      · exact List.mem_append_left _ hold
      · exact hold
  · unfold Slots.stateOf
    rw [Slots.idOf_inCell hin]
    change stateAt _ cells (slots.index key) = state
    rw [stateAt,if_pos hindex]
    exact update_self _ _ _
  · unfold Slots.stateOf
    by_cases hin' : slots.InCell other
    · obtain ⟨v,hv⟩ := hin'
      have hi : slots.index other≠slots.index key := by
        intro hi
        rw [hi,hcell] at hv
        cases hv
      have hin'' : (slots.setCell (slots.index key) (some ⟨key,value⟩)).InCell other := ⟨v,by
        rw [hcells]
        exact (if_neg hi).trans hv⟩
      rw [Slots.idOf_inCell hin'',Slots.idOf_inCell ⟨v,hv⟩]
      have hlt := h.bound hv
      change stateAt _ cells (slots.index other) = s.stateAt cells (slots.index other)
      rw [stateAt,stateAt,if_pos hlt,if_pos hlt]
      exact update_of_ne hi _ _
    · have hin'' : ¬(slots.setCell (slots.index key) (some ⟨key,value⟩)).InCell other := by
        rintro ⟨v,hv⟩
        rw [hcells] at hv
        split_ifs at hv
        · cases hv
          exact hk rfl
        · exact hin' ⟨v,hv⟩
      rw [Slots.idOf_not_inCell hin'',Slots.idOf_not_inCell hin']
      cases hid : s.overflowIds other with
      | none => rfl
      | some id =>
        obtain ⟨-,j,v,rfl,-⟩ := h.ids hid
        have hpast : ¬cells+j < cells := by omega
        change stateAt _ cells (cells+j) = s.stateAt cells (cells+j)
        rw [stateAt,stateAt,if_neg hpast, if_neg hpast]

variable {value : FaceConnectivity}

lemma Numbered.promote (h : Numbered grid.cellCount slots s) {key : SectionKey}
    (hover : slots.overflow.lookup key=some value)
    (hcell : slots.cells (slots.index key) = none) (hindex : slots.index key<grid.cellCount) :
    Numbered grid.cellCount ((slots.eraseOverflow key).setCell (slots.index key) (some ⟨key,value⟩))
        (s.promote grid key (slots.index key)) ∧
      ∀ other, ((slots.eraseOverflow key).setCell (slots.index key) (some ⟨key,value⟩)).stateOf
        grid.cellCount (s.promote grid key (slots.index key)) other =
          slots.stateOf grid.cellCount s other := by
  have hin : ¬slots.InCell key := Slots.not_inCell_of_overflow h.ok (by rw [hover]; rfl)
  have hstate : slots.stateOf grid.cellCount s key =
      (s.overflowIds key).bind fun id=>s.overflowVisited (id-grid.cellCount) := by
    unfold Slots.stateOf
    rw [Slots.idOf_not_inCell hin]
    cases hid : s.overflowIds key with
    | none => rfl
    | some id =>
      obtain ⟨-,j,v,rfl,-⟩ := h.ids hid
      change s.stateAt _ (grid.cellCount+j) = _
      rw [stateAt,if_neg (by omega)]
      rfl
  obtain ⟨hnumbered,-,hothers⟩ := h.forget (isSome_iff_exists.2 ⟨value,hover⟩)
  obtain ⟨htaken,hself,hrest⟩ := @Numbered.occupy _ _ _ hnumbered key value
    ((s.overflowIds key).bind fun id=>s.overflowVisited (id-grid.cellCount))
    (Finmap.lookup_erase key slots.overflow) hcell hindex
  refine ⟨htaken,fun other=>?_⟩
  by_cases hk : other=key
  · rw [hk,hstate]
    exact hself
  · rw [← hothers other hk]
    exact hrest other hk

lemma replay_promoted {key : SectionKey} (h : Numbered grid.cellCount slots s)
    (hover : slots.overflow.lookup key=some value)
    (hcell : slots.cells (slots.index key) = none) (hindex : slots.index key<grid.cellCount) :
    ReplaySays grid.cellCount slots ((slots.eraseOverflow key).setCell (slots.index key) (some ⟨key,value⟩)) opened s
      (s.promote grid key (slots.index key)) := by
  obtain ⟨hnumbered,hstates⟩ := h.promote hover hcell hindex
  obtain ⟨-,-,-,-,-,-,hstack,-,-,hkeeps⟩ := forget_spec h key
  obtain ⟨-,hget⟩ := h.ok.promote hover hcell
  refine ⟨hnumbered,hstack,hkeeps.camera,hkeeps.cameraPresent,hkeeps.builtOutwardOnly,
    fun {other st} hstate=>?_,fun {other v} hv=>.inr ⟨hstates other,v,?_,
      Finset.Subset.refl _⟩,fun hexact=>⟨?_,fun other v hv=>⟨v,?_,Finset.Subset.refl _⟩⟩⟩
  · rwa [hstates other] at hstate
  · rwa [hget other] at hv
  · rw [← hkeeps.supersetUpdates]
    exact hexact
  · rw [hget other]
    exact hv

lemma replay_spec {change : GraphChange} (h : Numbered grid.cellCount slots s) (hchange : Change change slots slots')
    (hopened : ∀ key, change = .opened key → opened key)
    (hindex : ∀ key, slots.index key<grid.cellCount) :
    ReplaySays grid.cellCount slots slots' opened s (replay grid s change) := by
  cases hchange with
  | joined value hnew =>
    refine replay_joined h value (hindex _) (hopened _ rfl) fun old hold=>?_
    rw [hnew] at hold
    cases hold
  | gained value hold hsub =>
    refine replay_joined h value (hindex _) (hopened _ rfl) fun old' hold'=>?_
    rw [hold] at hold'
    cases hold'
    exact hsub
  | narrowed value hold hsub => exact replay_narrowed h value (hindex _) hold hsub
  | removedCell hin => exact replay_removedCell h hin
  | removedOverflow hover => exact replay_removedOverflow h hover
  | promoted hover hcell => exact replay_promoted h hover hcell (hindex _)

end Cinnabar.Culling
