import Cinnabar.Updates.Survival

/-! # Updates over many runs -/

namespace Cinnabar.Updates

open List

/-- `rollback` runs within `afterExit` and `restore`, which alone call it. -/
inductive Operation where
  | afterExit (request : Request)
  | swap (payload : Payload)
  | confirmStart
  | cleanupConfirmedBackup
  | needsRollback (leaseFree : Bool)
  | restore (leaseFree : Bool)
  | confirm (observed : Identity)
deriving DecidableEq

structure Action where
  operation : Operation
  cutAfter : Option ℕ := none
  failures : List Bool := []
deriving DecidableEq

def Operation.program : Operation → InstallerM PUnit
  | .afterExit request => Updates.afterExit request
  | .swap payload => swapIn payload
  | .confirmStart => Updates.confirmStart
  | .cleanupConfirmedBackup => Updates.cleanupConfirmedBackup
  | .needsRollback leaseFree => do
    let _ ← Updates.needsRollback leaseFree
    pure ⟨⟩
  | .restore leaseFree => do
    let _ ← Updates.restore leaseFree
    pure ⟨⟩
  | .confirm observed => Updates.confirm observed

namespace Volume

def step (volume : Volume) (action : Action) : Volume :=
  stateAfter action.operation.program ⟨volume,action.cutAfter,action.failures⟩

def run (payload : Payload) (actions : List Action) : Volume :=
  actions.foldl step (installed payload)

end Volume

/-- The installation an operation makes of a verified artifact. -/
def Operation.candidate : Operation → Option Payload
  | .afterExit request => if request.authenticated then some request.payload else none
  | .swap payload => some payload
  | .confirmStart => none
  | .cleanupConfirmedBackup => none
  | .needsRollback _ => none
  | .restore _ => none
  | .confirm _ => none

/-- The first installation or a newly verified one. -/
def Legitimate (payload : Payload) (actions : List Action) (installation : Installation) : Prop :=
  installation=payload.whole ∨ ∃ action ∈ actions, ∃ candidate,
    action.operation.candidate=some candidate ∧ installation=candidate.whole

section Running

variable {verified : Installation → Prop} {volume : Volume} {current : Installation}

lemma program_spec {operation : Operation} (h : Standing verified volume current)
    (hverified : ∀ {candidate : Payload}, operation.candidate=some candidate → verified candidate.whole) :
    Survives volume operation.program (fun _ t=>Sound verified t)
      fun _ t=>Sound verified t := by
  cases operation with
  | afterExit request =>
    exact afterExit_spec h fun hauthenticated=>hverified (if_pos hauthenticated)
  | swap payload =>
    exact (swapIn_spec h (hverified rfl)).mono (fun _ _ ht=>⟨_,ht.1⟩) fun _ _ ht=>⟨_,ht⟩
  | confirmStart =>
    exact (confirmStart_spec h).mono (fun _ _ ht=>⟨_,ht.2⟩) fun _ _ ht=>⟨_,ht⟩
  | cleanupConfirmedBackup =>
    exact (cleanupConfirmedBackup_spec h).mono (fun _ _ ht=>⟨_,ht.1⟩) fun _ _ ht=>⟨_,ht⟩
  | needsRollback leaseFree =>
    refine .bind ((needsRollback_spec h).mono (fun _ t ht=>.pure ?_) fun _ _=>False.elim)
    exact ⟨_,ht.1 ▸ h⟩
  | restore leaseFree =>
    refine .bind ((restore_spec h).mono (fun _ t ht=>.pure ?_) fun _ _=>id)
    cases ht with
    | back _ ht => exact ⟨_,ht⟩
    | kept _ ht => exact ⟨_,ht⟩
  | confirm observed =>
    exact (confirm_spec h).mono (fun _ _ ht=>⟨_,ht⟩) fun _ _ ht=>⟨_,ht⟩

lemma Standing.installed {payload : Payload} (h : verified payload.whole) :
    Standing verified (.installed payload) payload.whole where
  target := rfl
  whole := rfl
  latest := Or.inl ⟨rfl,rfl⟩
  held := mem_singleton_self _
  spared := not_mem_nil
  heldUsed := fun _=>id
  confirmedHeld := nil_subset _
  rolledBackHeld := nil_subset _
  disjoint := by
    rintro identity hmem
    cases hmem
  legitimate := h
  promoted := by
    rintro promotion hmem
    cases hmem
  phase := by
    refine Or.inl ⟨fun promotion hmem=>?_,fun hsome=>?_⟩
    · cases hmem
    · cases hsome

lemma Sound.foldl {actions : List Action} (h : Sound verified volume)
    (hverified : ∀ action ∈ actions, ∀ {candidate : Payload},
      action.operation.candidate=some candidate → verified candidate.whole) :
    Sound verified (actions.foldl Volume.step volume) := by
  induction actions generalizing volume with
  | nil => exact h
  | cons action rest ih =>
    obtain ⟨current,h⟩ := h
    refine ih ?_ fun action hmem=>hverified action (.tail _ hmem)
    exact Survives.stateAfter (program_spec h (hverified action (.head _)))

lemma Sound.run (payload : Payload) (actions : List Action) :
    Sound (Legitimate payload actions) (.run payload actions) :=
  .foldl ⟨payload.whole,.installed (Or.inl rfl)⟩ fun action hmem _ hcandidate =>
    Or.inr ⟨action,hmem,_,hcandidate,rfl⟩

end Running

section Surviving

variable {verified : Installation → Prop} {volume : Volume} {current : Installation}

/-- The last promoted installation is at the target and has not been confirmed. -/
def Volume.Unconfirmed (volume : Volume) (promotion : Promotion) : Prop :=
  volume.promotions.head? = some promotion ∧ volume.place .target=some promotion.installed ∧
    promotion.installed.identity ∉ volume.confirmed

lemma Standing.awaiting {promotion : Promotion} (h : Standing verified volume current)
    (hunconfirmed : volume.Unconfirmed promotion) :
    current=promotion.installed ∧ Awaiting volume current promotion.previous := by
  obtain ⟨hhead,htarget,hnot⟩ := hunconfirmed
  have heq : current=promotion.installed := Option.some.inj (h.target.symm.trans htarget)
  obtain ⟨older,holder⟩ := List.head?_eq_some_iff.1 hhead
  rcases h.phase with hspent | ⟨previous,hwait⟩
  · rcases hspent.settled promotion (holder ▸ mem_cons_self) with hconfirmed | hrolled
    · exact absurd hconfirmed hnot
    · exact absurd (heq ▸ hrolled) h.spared
  · obtain ⟨rest,hpromotions,-⟩ := hwait.promotions
    rw [holder] at hpromotions
    cases hpromotions
    exact ⟨rfl,hwait⟩

/-- However runs are cut off and whatever fails in them: (a) the target holds a complete
installation, the last promoted one or the one before it; (b) while that is unconfirmed the one
before it is complete at the backup, a restore that ends puts it back, and one that nothing cuts
off or fails ends; (c) each installation promoted was confirmed or rolled back or still has its
predecessor complete at the backup, none was both, and a restore says whether it put one back,
which it does just where one is needed. -/
theorem update_survives_crashes (payload : Payload) (actions : List Action) :
    let volume := Volume.run payload actions
    (∃ current, volume.place .target = some current ∧ current.removed=0 ∧
      volume.Latest current ∧ Legitimate payload actions current) ∧
    (∀ promotion, volume.Unconfirmed promotion →
      volume.place .backup = some promotion.previous ∧ promotion.previous.removed=0 ∧
      ∀ machine leaseFree answer after, machine.state=volume → restore leaseFree machine = .ok answer after →
          answer=true ∧ after.state.place .target = some promotion.previous) ∧
    (∀ promotion, volume.Unconfirmed promotion → ∃ after, restore true ⟨volume,none,[]⟩ = .ok true after) ∧
    (∀ promotion ∈ volume.promotions, promotion.Settled volume ∨
      (volume.Unconfirmed promotion ∧ volume.place .backup = some promotion.previous ∧ promotion.previous.removed=0)) ∧
    (∀ identity ∈ volume.rolledBack, identity ∉ volume.confirmed) ∧
    (∀ machine leaseFree answer after, machine.state=volume → restore leaseFree machine = .ok answer after →
        (answer=true ↔ ∃ promotion, volume.Unconfirmed promotion) ∧
        (answer=false → after.state.place .target = volume.place .target)) ∧
    ∀ machine leaseFree needed after, machine.state=volume → needsRollback leaseFree machine = .ok needed after →
        (needed=true ↔ leaseFree=true ∧ ∃ promotion, volume.Unconfirmed promotion) := by
  intro volume
  obtain ⟨current,h⟩ := Sound.run payload actions
  have hunconfirmed : ∀ {previous : Installation}, Awaiting volume current previous →
      volume.Unconfirmed ⟨current,previous⟩ := by
    intro previous hwait
    obtain ⟨older,hpromotions,-⟩ := hwait.promotions
    exact ⟨List.head?_eq_some_iff.2 ⟨older,hpromotions⟩,h.target,hwait.unconfirmed⟩
  have hawaiting : (∃ previous, Awaiting volume current previous) ↔ ∃ promotion, volume.Unconfirmed promotion :=
    ⟨fun ⟨_,hwait⟩ => ⟨_,hunconfirmed hwait⟩,fun ⟨_,hpending⟩ => ⟨_,(h.awaiting hpending).2⟩⟩
  have hrestored : ∀ machine leaseFree answer after, machine.state=volume →
      restore leaseFree machine = .ok answer after →
        Restored (Legitimate payload actions) volume current answer after.state :=
    fun machine leaseFree answer after hmachine hok =>
      ((restore_spec h) machine hmachine).of_ok hok
  refine ⟨⟨current,h.target,h.whole,h.latest,h.legitimate⟩,fun promotion hpending => ?_,
    fun promotion hpending => ?_,fun promotion hmem => ?_,h.disjoint,
    fun machine leaseFree answer after hmachine hok => ?_,
    fun machine leaseFree needed after hmachine hok => ?_⟩
  · obtain ⟨-,hwait⟩ := h.awaiting hpending
    refine ⟨hwait.backup,hwait.whole,fun machine leaseFree answer after hmachine hok => ?_⟩
    cases hrestored machine leaseFree answer after hmachine hok with
    | back hwait' hback =>
      have hsame := Option.some.inj (hwait.backup.symm.trans hwait'.backup)
      exact ⟨rfl,hsame ▸ hback.target⟩
    | kept hspent => exact absurd hspent hwait.not_spent
  · obtain ⟨-,hwait⟩ := h.awaiting hpending
    obtain ⟨answer,t,hok,-⟩ := completes_restore h hwait
    cases hrestored _ _ _ _ rfl hok with
    | back => exact ⟨_,hok⟩
    | kept hspent => exact absurd hspent hwait.not_spent
  · rcases h.phase with hspent | ⟨previous,hwait⟩
    · exact Or.inl (hspent.settled promotion hmem)
    · obtain ⟨older,hpromotions,hsettled⟩ := hwait.promotions
      rw [hpromotions] at hmem
      rcases List.mem_cons.1 hmem with rfl | hmem
      · exact Or.inr ⟨hunconfirmed hwait,hwait.backup,hwait.whole⟩
      · exact Or.inl (hsettled promotion hmem)
  · rw [← hawaiting]
    cases hrestored machine leaseFree answer after hmachine hok with
    | back hwait hback => exact ⟨iff_of_true rfl ⟨_,hwait⟩,fun h => by cases h⟩
    | kept hspent hkept =>
      exact ⟨iff_of_false Bool.false_ne_true fun ⟨_,hwait⟩ => hwait.not_spent hspent,
        fun _=>hkept.target.trans h.target.symm⟩
  · rw [← hawaiting]
    have hspec : Survives volume (needsRollback leaseFree) (fun needed t => t=volume ∧
        (needed=true ↔ leaseFree=true ∧ ∃ previous, Awaiting volume current previous))
        fun _ _=>True := needsRollback_spec h
    exact ((hspec machine hmachine).of_ok hok).2

end Surviving

end Cinnabar.Updates
