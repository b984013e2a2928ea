import Cinnabar.Culling.Fill

/-! # A camera move inside one region -/

namespace Cinnabar.Culling

open List

variable {grid : ConnectivityGrid} {R : Fact → Prop} {probe probe' : Probe}

structure Probed (R : Fact → Prop) (probe : Probe) : Prop where
  nodes : ∀ node ∈ probe.nodes, R (.reached node.key) ∧ ∀ exit ∈ node.state, R (.exit node.key exit)
  queue : ∀ item ∈ probe.queue, ∃ node, probe.nodes[item.1]? = some node ∧ ∀ exit ∈ item.2, R (.exit node.key exit)
  spent : probe.proofExits ≤ cameraProofBudget

def KeysStay (probe probe' : Probe) : Prop :=
  ∀ (index : ℕ) (node : ProbeNode), probe.nodes[index]? = some node →
    ∃ node' : ProbeNode, probe'.nodes[index]? = some node' ∧ node'.key=node.key

lemma KeysStay.refl (probe : Probe) : KeysStay probe probe := fun _ node h=>⟨node,h,rfl⟩

lemma KeysStay.trans {probe'' : Probe} (h : KeysStay probe probe')
    (h' : KeysStay probe' probe'') : KeysStay probe probe'' := by
  intro index node hnode
  obtain ⟨node',hnode',hkey⟩ := h index node hnode
  obtain ⟨node'',hnode'',hkey'⟩ := h' index node' hnode'
  exact ⟨node'',hnode'',hkey'.trans hkey⟩

def Probe.left (probe : Probe) : ℕ := probe.queue.length + (cameraProofBudget-probe.proofExits)

lemma Probed.arrive (h : Probed R probe) {next : SectionKey} (arrived : Finset Face)
    (hreached : R (.reached next)) (hexits : ∀ exit ∈ arrived, R (.exit next exit)) :
    Probed R (probe.arrive next arrived) ∧ KeysStay probe (probe.arrive next arrived) ∧
      (probe.arrive next arrived).proofExits=probe.proofExits ∧
      (probe.arrive next arrived).queue.length≤probe.queue.length+1 := by
  generalize hindex : probe.nodes.findIdx (fun node=>node.key=next) = index
  generalize hold : ((probe.nodes[index]?).map ProbeNode.state).getD ∅ = old
  have hle : index≤probe.nodes.length := by
    rw [← hindex]
    exact findIdx_le_length
  have harrive : probe.arrive next arrived = { probe with
      nodes := if index=probe.nodes.length then probe.nodes ++ [⟨next,arrived⟩]
        else probe.nodes.set index ⟨next,old ∪ arrived⟩
      queue := if (arrived \ old).Nonempty then probe.queue ++ [(index,arrived \ old)]
        else probe.queue } := by
    unfold Probe.arrive
    dsimp only
    rw [hindex,hold]
  have hat : index<probe.nodes.length → ∃ node, probe.nodes[index]? = some node ∧ node.key=next ∧ node.state=old := by
    intro hlt
    refine ⟨probe.nodes[index],List.getElem?_eq_getElem hlt,?_,?_⟩
    · subst hindex
      have hfound := findIdx_getElem (w := hlt)
      exact of_decide_eq_true hfound
    · rw [List.getElem?_eq_getElem hlt] at hold
      exact hold
  have hstay : KeysStay probe (probe.arrive next arrived) := by
    rw [harrive]
    intro i node hnode
    have hi := (List.getElem?_eq_some_iff.1 hnode).1
    dsimp only
    split_ifs with heq
    · rw [List.getElem?_append_left hi]
      exact ⟨node,hnode,rfl⟩
    · rw [List.getElem?_set]
      by_cases hii : index=i
      · subst hii
        obtain ⟨node',hnode',hkey,-⟩ := hat hi
        rw [hnode] at hnode'
        cases hnode'
        rw [if_pos rfl,if_pos hi]
        exact ⟨_,rfl,hkey.symm⟩
      · rw [if_neg hii]
        exact ⟨node,hnode,rfl⟩
  refine ⟨⟨?_,?_,?_⟩,hstay,?_,?_⟩
  · intro node hnode
    rw [harrive] at hnode
    dsimp only at hnode
    split_ifs at hnode with heq
    · rcases mem_append.1 hnode with hnode | hnode
      · exact h.nodes node hnode
      · rw [mem_singleton] at hnode
        subst hnode
        exact ⟨hreached,hexits⟩
    · rcases mem_or_eq_of_mem_set hnode with hnode | rfl
      · exact h.nodes node hnode
      · refine ⟨hreached,fun exit hexit=>?_⟩
        rcases Finset.mem_union.1 hexit with hin | hin
        · obtain ⟨node',hnode',hkey,hstate⟩ := hat (lt_of_le_of_ne hle heq)
          have hR := (h.nodes node' (List.mem_of_getElem? hnode')).2
          rw [hkey,hstate] at hR
          exact hR exit hin
        · exact hexits exit hin
  · intro item hitem
    have hcases : item ∈ probe.queue ∨ item = (index,arrived \ old) := by
      rw [harrive] at hitem
      dsimp only at hitem
      split_ifs at hitem
      · exact (mem_append.1 hitem).imp id mem_singleton.1
      · exact .inl hitem
    rcases hcases with hitem | rfl
    · obtain ⟨node,hnode,hR⟩ := h.queue item hitem
      obtain ⟨node',hnode',hkey⟩ := hstay item.1 node hnode
      refine ⟨node',hnode',?_⟩
      rw [hkey]
      exact hR
    · have hself : ∃ node, (probe.arrive next arrived).nodes[index]? = some node ∧ node.key=next := by
        by_cases heq : index=probe.nodes.length
        · rw [harrive,heq]
          simp
        · obtain ⟨node,hnode,hkey,-⟩ := hat (lt_of_le_of_ne hle heq)
          obtain ⟨node',hnode',hkey'⟩ := hstay index node hnode
          exact ⟨node',hnode',hkey'.trans hkey⟩
      obtain ⟨node,hnode,hkey⟩ := hself
      refine ⟨node,hnode,fun exit hexit=>?_⟩
      rw [hkey]
      exact hexits exit (Finset.mem_sdiff.1 hexit).1
  · exact h.spent
  · rw [harrive]
  · rw [harrive]
    dsimp only
    split_ifs
    · simp
    · exact Nat.le_succ _

lemma Probed.stateOf (h : Probed R probe) (key : SectionKey) :
    ∀ exit ∈ (probe.stateOf key).getD ∅, R (.exit key exit) := by
  intro exit hexit
  unfold Probe.stateOf at hexit
  cases hfind : probe.nodes.find? (fun node=>node.key=key) with
  | none =>
    rw [hfind] at hexit
    simp at hexit
  | some found =>
    rw [hfind] at hexit
    have hkey : found.key=key := by simpa using List.find?_some hfind
    rw [← hkey]
    exact (h.nodes found (List.mem_of_find?_eq_some hfind)).2 exit hexit

/-- What an early answer means: a `true` has recovered the old camera's exits. -/
def Recovered (R : Fact → Prop) (previous : SectionKey) (target : Finset Face)
    (answer : Option Bool) : Prop :=
  answer≠none ∧ (answer=some true → R (.reached previous) ∧ ∀ exit ∈ target, R (.exit previous exit))

variable {previous : SectionKey} {target : Finset Face}

lemma Probed.explore (h : Probed R probe) (hgrid : grid.Sound)
    (hstep : ∀ {f f'}, R f → Step grid.slots.get (fun _=>Finset.univ) f f' → R f') {index : ℕ} {node : ProbeNode} {face : Face}
    (hnode : probe.nodes[index]? = some node) (hexit : R (.exit node.key face)) :
    Ensures (Recovered R previous target) (fun probe'=>Probed R probe' ∧ KeysStay probe probe' ∧ probe'.left≤probe.left)
      (probe.explore grid previous target index face) := by
  unfold Probe.explore
  split_ifs with hspent
  · exact ⟨by simp,by simp⟩
  · have hlt : probe.proofExits < cameraProofBudget := lt_of_le_of_ne h.spent hspent
    have hnext : Probed R { probe with proofExits := probe.proofExits+1 } := ⟨h.nodes,h.queue,hlt⟩
    have hleft : ({ probe with proofExits := probe.proofExits+1 } : Probe).left+1 ≤
        probe.left := by
      unfold Probe.left
      dsimp only
      omega
    dsimp only
    rw [hnode]
    dsimp only [Option.bind_some]
    cases hadj : adjacent node.key face with
    | none =>
      exact ⟨hnext,.refl probe,by omega⟩
    | some next =>
      dsimp only
      rw [hgrid.get_eq]
      cases hget : grid.slots.get next with
      | none =>
        exact ⟨hnext,.refl probe,by omega⟩
      | some value =>
        dsimp only
        have hreached : R (.reached next) := hstep hexit (.reached hadj hget)
        obtain ⟨harrived,hstay,hspent',hqueue⟩ := hnext.arrive (value.row face.opposite) hreached fun exit hin =>
            hstep hexit (.exit hadj hget hin (Finset.mem_univ exit))
        split_ifs with hfound
        · obtain ⟨rfl,hsub⟩ := hfound
          refine ⟨by simp,fun _=>⟨hreached,fun exit hin=>?_⟩⟩
          exact harrived.stateOf _ exit (hsub hin)
        · refine ⟨harrived,hstay,?_⟩
          have : (Probe.arrive { probe with proofExits := probe.proofExits+1 } next (value.row face.opposite)).left ≤
              ({ probe with proofExits := probe.proofExits+1 } : Probe).left+1 := by
            unfold Probe.left
            omega
          omega

/-- One queued node's exits. -/
lemma Probed.exploreAll (h : Probed R probe) (hgrid : grid.Sound)
    (hstep : ∀ {f f'}, R f → Step grid.slots.get (fun _=>Finset.univ) f f' → R f') {index : ℕ} {node : ProbeNode}
    (exits : List Face) (hnode : probe.nodes[index]? = some node)
    (hexits : ∀ exit ∈ exits, R (.exit node.key exit)) :
    Ensures (Recovered R previous target) (fun probe'=>Probed R probe' ∧ probe'.left≤probe.left)
      (exits.foldlM (Probe.explore grid previous target index) probe) := by
  refine Ensures.mono (Ensures.foldlM_const
    (I := fun p=>Probed R p ∧ KeysStay probe p ∧ p.left≤probe.left) ⟨h,.refl probe,le_refl _⟩
    fun exit hexit p hp=>?_) fun p hp=>⟨hp.1,hp.2.2⟩
  obtain ⟨node',hnode',hkey⟩ := hp.2.1 index node hnode
  refine (hp.1.explore hgrid hstep hnode' (by
    rw [hkey]
    exact hexits exit hexit)).mono fun p' hp'=>?_
  exact ⟨hp'.1,hp.2.1.trans hp'.2.1,hp'.2.2.trans hp.2.2⟩

lemma probe_spec (hgrid : grid.Sound) (hstep : ∀ {f f'}, R f → Step grid.slots.get (fun _=>Finset.univ) f f' → R f')
    (previous : SectionKey) {camera : SectionKey} (target : Finset Face) {seeds : Finset Face}
    (hcamera : R (.reached camera))
    (hseeds : ∀ exit ∈ seeds, R (.exit camera exit)) :
    Ensures (Recovered R previous target) (fun _=>True) (drain Probe.pop (fun item probe=>(inBitOrder item.2).foldlM
        (Probe.explore grid previous target item.1) probe) none (cameraProofBudget+1)
        ⟨[⟨camera,seeds⟩],[(0,seeds)],0⟩) := by
  refine (drain_ensures (I := Probed R) Probe.left ?_ ?_ ⟨?_,?_,Nat.zero_le _⟩ ?_).mono fun _ _=>trivial
  · intro probe next h hpop
    unfold Probe.pop at hpop
    unfold Probe.left
    cases hqueue : probe.queue with
    | nil =>
      rw [hqueue] at hpop
      cases hpop
    | cons item rest =>
      rw [length_cons]
      omega
  · intro probe item rest h hpop
    unfold Probe.pop at hpop
    cases hqueue : probe.queue with
    | nil =>
      rw [hqueue] at hpop
      cases hpop
    | cons top tail =>
      rw [hqueue] at hpop
      cases hpop
      obtain ⟨node,hnode,hexits⟩ := h.queue item (by
        rw [hqueue]
        exact .head _)
      have hrest : Probed R { probe with queue := tail } := ⟨h.nodes,fun other hother =>
        h.queue other (by
          rw [hqueue]
          exact .tail _ hother),h.spent⟩
      refine (hrest.exploreAll hgrid hstep (inBitOrder item.2) hnode fun exit hexit =>
        hexits exit (Walk.mem_inBitOrder.1 hexit)).mono fun p hp=>⟨hp.1,?_⟩
      refine lt_of_le_of_lt hp.2 ?_
      unfold Probe.left
      rw [hqueue,length_cons]
      dsimp only
      omega
  · intro node hnode
    rw [mem_singleton] at hnode
    subst hnode
    exact ⟨hcamera,hseeds⟩
  · intro item hitem
    rw [mem_singleton] at hitem
    subst hitem
    exact ⟨_,rfl,hseeds⟩
  · exact le_refl _

/-- Two cameras the probe connects reach the same facts. -/
lemma sameRegion_spec (hgrid : grid.Sound) {s : CaveVisibilityScratch}
    (h : Numbered grid.cellCount grid.slots s) {camera previous : SectionKey}
    (hviewed : s.camera=some previous)
    (hsound : ∀ {key state}, grid.states s key=some state →
      ∀ exit ∈ state, Reaches grid.slots.get (fun _=>Finset.univ) previous (.exit key exit))
    (hreached : ∀ {key state}, grid.states s key=some state →
      Reaches grid.slots.get (fun _=>Finset.univ) previous (.reached key))
    (hsame : sameRegion camera grid s=true) (f : Fact) :
    Reaches grid.slots.get (fun _=>Finset.univ) previous f ↔
      Reaches grid.slots.get (fun _=>Finset.univ) camera f := by
  unfold sameRegion at hsame
  rw [hviewed,hgrid.get_eq,reachedState_eq hgrid h] at hsame
  cases hget : grid.slots.get camera with
  | none =>
    rw [hget] at hsame
    cases hsame
  | some value =>
    rw [hget] at hsame
    cases hstate : grid.slots.stateOf grid.cellCount s camera with
    | none =>
      rw [hstate] at hsame
      cases hsame
    | some state =>
      rw [hstate] at hsame
      dsimp only at hsame
      split_ifs at hsame with hsub
      rw [hgrid.get_eq] at hsame
      cases hprevious : grid.slots.get previous with
      | none =>
        rw [hprevious] at hsame
        cases hsame
      | some previousValue =>
        rw [hprevious] at hsame
        dsimp only at hsame
        have hprobe := probe_spec (R := Reaches grid.slots.get (fun _=>Finset.univ) camera) hgrid
          (fun hf hff'=>hf.tail hff') previous previousValue.touchedFaces
          (Closure.of_seed (.reached hget)) fun exit hexit=>Closure.of_seed (.exit hget hexit)
        generalize drain Probe.pop _ none (cameraProofBudget+1) _=answer at hprobe hsame
        cases answer with
        | ok probe => cases hsame
        | error answer =>
          cases answer with
          | none => exact absurd rfl hprobe.1
          | some found =>
            subst hsame
            obtain ⟨hback,hexits⟩ := hprobe.2 rfl
            refine Closure.congr_seed ?_ ?_ f
            · rintro _ (hg | ⟨hg,hin⟩)
              · exact hback
              · rw [hprevious] at hg
                cases hg
                exact hexits _ hin
            · rintro _ (hg | ⟨hg,hin⟩)
              · exact hreached hstate
              · rw [hget] at hg
                cases hg
                exact hsound hstate _ (hsub hin)

end Cinnabar.Culling
