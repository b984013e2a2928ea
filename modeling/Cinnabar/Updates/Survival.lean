import Cinnabar.Updates.Standing

/-! # What each program survives

Every program keeps the invariant wherever it is cut off and whichever of its
changes fail.
-/

namespace Cinnabar.Updates

open Function (update update_eq_self update_idem update_of_ne update_self)

variable {verified : Installation → Prop} {volume t : Volume}
  {current other previous : Installation}

section Asking

variable {α : Type} {place : Place} {Q : α → Volume → Prop} {C : Halt InstallError → Volume → Prop}

lemma symlinkMetadata_spec {found : Installation} (h : volume.place place=some found)
    {Q : Installation → Volume → Prop} (hQ : Q found volume) :
    Survives volume (symlinkMetadata place) Q C := by
  refine .bind (.inspect ?_)
  rw [h]
  exact .pure hQ

lemma withContext_spec {text : String} {program : InstallerM α}
    (h : Survives volume program Q fun _ t=>∀ stop, C stop t) :
    Survives volume (withContext text program) Q C := by
  refine .bind (.attempt (h.mono (fun a t ha=>.pure ha) fun stop t hstop=>?_))
  cases stop with
  | cut => exact hstop _
  | error error => exact .halt (hstop _)

end Asking

section Journal

abbrev Volume.journaled (volume : Volume) (text : Option (List Char)) : Volume :=
  { volume with preparing := text }

variable {text : Option (List Char)}

lemma leaves_journaled : Leaves volume (volume.journaled text) :=
  ⟨rfl,rfl,fun _=>id,rfl,rfl,rfl⟩

lemma Standing.journaled (h : Standing verified volume current)
    (hfree : volume.place .backup=none ∨ volume.started=true) :
    Standing verified (volume.journaled text) current := by
  refine h.spend leaves_journaled (h.spent (hfree.imp id Or.inl)) fun hsome=>?_
  rcases hfree with hnone | hstarted
  · cases hnone.symm.trans hsome
  · exact ⟨h.backup_ne hsome,Or.inl hstarted⟩

lemma clearPreparation_spec : Survives volume clearPreparation
    (fun _ t=>t=volume.journaled none) fun _ t=>t=volume := by
  refine .bind (.attempt (.perform_cases rfl (.halt rfl) (fun error herror=>?_) fun t ht=>?_))
  · unfold unlinkJournal at herror
    split at herror
    · rename_i hnone
      cases herror
      refine .pure ?_
      rw [Volume.journaled,← hnone]
    · cases herror
  · unfold unlinkJournal at ht
    split at ht
    · cases ht
    · cases ht
      exact .pure rfl

/-- The journal records the installation at the target, or was cut short. -/
lemma prepareExchange_spec (htarget : volume.place .target=some current)
    (hjournal : volume.preparing=none) : Survives volume prepareExchange
      (fun _ t=>t=volume.journaled (some (record current.identity)))
      fun _ t=>∃ text, t=volume.journaled text := by
  refine .bind (symlinkMetadata_spec htarget ?_)
  refine .bind (.perform (fun _=>⟨none,by rw [Volume.journaled,← hjournal]⟩) fun t ht=>?_)
  unfold createJournal at ht
  rw [hjournal] at ht
  cases ht
  refine .bind (.perform (fun _=>⟨_,rfl⟩) fun t ht=>?_)
  cases ht
  refine .bind (.perform (fun _=>⟨_,rfl⟩) fun t ht=>?_)
  cases ht
  refine .bind (.perform (fun _=>⟨_,rfl⟩) fun t ht=>?_)
  cases ht
  refine .perform (fun _=>⟨_,rfl⟩) fun t ht=>?_
  cases ht
  simp [record,List.append_assoc]

lemma beforeExchange_spec (htarget : volume.place .target=some current)
    (hjournal : volume.preparing=some (record other.identity))
    {C : Halt InstallError → Volume → Prop} :
    Survives volume beforeExchange
      (fun before t=>t=volume ∧ (before=true ↔ current.identity=other.identity)) C := by
  refine .bind (.inspect ?_)
  rw [hjournal]
  dsimp only
  rw [parseRecord_record]
  exact .bind (symlinkMetadata_spec htarget (.pure ⟨rfl,decide_eq_true_iff⟩))

end Journal

section Removal

/-- The disk with something else at the backup. -/
abbrev Volume.backedUp (volume : Volume) (backup : Option Installation) : Volume :=
  { volume with place := update volume.place .backup backup }

variable {backup : Option Installation}

lemma backedUp_backup : (volume.backedUp backup).place .backup=backup := by
  change update volume.place .backup backup .backup=backup
  exact update_self ..

lemma leaves_backedUp : Leaves volume (volume.backedUp backup) :=
  ⟨rfl,rfl,fun _=>id,rfl,rfl,rfl⟩

def Volume.Removing (volume : Volume) (other : Installation) (t : Volume) : Prop :=
  ∃ left : Installation, left.identity=other.identity ∧ t=volume.backedUp (some left)

section

variable (hbackup : volume.place .backup=some other)
include hbackup

lemma unlink_spec : Survives volume (perform osFailure (unlink .backup))
      (fun _ t=>t=volume.backedUp none) fun _ t=>t=volume := by
  refine .perform (fun _=>rfl) fun t ht=>?_
  unfold unlink at ht
  rw [hbackup] at ht
  cases ht
  rfl

lemma removing_self :
    volume.Removing other volume :=
  ⟨other,rfl,by rw [Volume.backedUp,← hbackup,update_eq_self]⟩

lemma removeDirAll_spec {entries : ℕ} : Survives volume (removeDirAll .backup entries)
      (fun _ t=>t=volume.backedUp none) fun _ t=>volume.Removing other t := by
  induction entries generalizing volume other with
  | zero =>
    refine (unlink_spec hbackup).mono (fun _ _=>id) fun _ t ht=>?_
    subst ht
    exact removing_self hbackup
  | succ entries ih =>
    refine .bind (.perform (fun _=>removing_self hbackup) fun t ht=>?_)
    unfold unlinkEntry at ht
    rw [hbackup] at ht
    cases ht
    refine (ih backedUp_backup).mono (fun _ t ht=>?_) fun _ t ht=>?_
    · rw [ht,Volume.backedUp,Volume.backedUp,update_idem]
    · obtain ⟨left,hleft,rfl⟩ := ht
      exact ⟨left,hleft,by rw [Volume.backedUp,Volume.backedUp,update_idem]⟩

lemma remove_spec : Survives volume (remove .backup)
      (fun _ t=>t=volume.backedUp none) fun _ t=>volume.Removing other t := by
  refine .bind (symlinkMetadata_spec hbackup (.ite (fun _=>removeDirAll_spec hbackup) fun _=>?_))
  refine (unlink_spec hbackup).mono (fun _ _=>id) fun _ t ht=>?_
  subst ht
  exact removing_self hbackup

end

lemma Standing.removing (h : Standing verified volume current) (hbackup : volume.place .backup=some other)
    (hfree : volume.started=true ∨ volume.preparing=some (record current.identity))
    (ht : volume.Removing other t) : Standing verified t current := by
  obtain ⟨left,hleft,rfl⟩ := ht
  refine h.spend leaves_backedUp (h.spent (Or.inr hfree)) fun hsome=>?_
  cases backedUp_backup.symm.trans hsome
  exact ⟨hleft ▸ h.backup_ne hbackup,hfree⟩

lemma Standing.backedUp_none (h : Standing verified volume current)
    (hfree : volume.started=true ∨ volume.preparing=some (record current.identity)) :
    Standing verified (volume.backedUp none) current := by
  refine h.spend leaves_backedUp (h.spent (Or.inr hfree)) fun hsome=>?_
  cases backedUp_backup.symm.trans hsome

end Removal

section Confirmation

lemma confirmStart_spec (h : Standing verified volume current) :
    Survives volume confirmStart (fun _ t=>t.started=true ∧ Standing verified t current)
      fun _ t=>Standing verified t current := by
  refine .bind (.attempt (.perform_cases h (.halt h) (fun error herror=>?_) fun t ht=>?_))
  · unfold createReceipt at herror
    split at herror
    · rename_i hstarted
      cases herror
      exact .pure ⟨hstarted,h⟩
    · cases herror
  · unfold createReceipt at ht
    split at ht
    · cases ht
    · cases ht
      refine .perform (fun _=>h.receipt) fun t ht=>?_
      cases ht
      exact ⟨rfl,h.receipt⟩

/-- Where the backup is empty afterwards, so are its markers. -/
structure Tidied (volume t : Volume) : Prop where
  leaves : Leaves volume t
  candidate : t.place .candidate=volume.place .candidate
  started : t.place .backup=none → t.started=false
  preparing : t.place .backup=none → t.preparing=none

lemma cleanupConfirmedBackup_spec (h : Standing verified volume current) :
    Survives volume cleanupConfirmedBackup (fun _ t=>Standing verified t current ∧ Tidied volume t)
      fun _ t=>Standing verified t current := by
  refine .bind (.inspect (.ite (fun hstarted=>?_) fun hstarted=>?_))
  · refine .bind (.inspect ?_)
    rw [h.target]
    refine .bind (.pure ?_)
    have hclear : ∀ {u : Volume}, Standing verified u current → Leaves volume u →
        u.place .candidate=volume.place .candidate → u.started=true →
        u.place .backup=none →
        Survives u (do
          clearPreparation
          withContext "remove startup confirmation" (perform osFailure unlinkReceipt))
          (fun _ t=>Standing verified t current ∧ Tidied volume t)
          fun _ t=>Standing verified t current := by
      intro u hu hleaves hcandidate hreceipt hnone
      refine .bind (clearPreparation_spec.mono (fun _ w hw=>?_) fun _ w hw=>hw ▸ hu)
      have hw' : Standing verified w current := hw ▸ hu.journaled (Or.inl hnone)
      refine withContext_spec (.perform (fun _ _=>hw') fun x hx=>?_)
      subst hw
      unfold unlinkReceipt at hx
      rw [if_pos hreceipt] at hx
      cases hx
      have hlater : Leaves (u.journaled none) { u.journaled none with started := false } :=
        ⟨rfl,rfl,fun _=>id,rfl,rfl,rfl⟩
      refine ⟨hw'.spend hlater (hw'.spent (Or.inl hnone)) fun hsome=>?_,
        (hleaves.trans leaves_journaled).trans hlater,hcandidate,fun _=>rfl,fun _=>rfl⟩
      cases hnone.symm.trans hsome
    refine .bind (.bind (.inspect ?_))
    cases hbackup : volume.place .backup with
    | none => exact .pure (hclear h ⟨rfl,rfl,fun _=>id,rfl,rfl,rfl⟩ rfl hstarted hbackup)
    | some other =>
      refine (withContext_spec ((remove_spec hbackup).mono (fun _ u hu=>?_)
        fun _ u hu _=>h.removing hbackup (Or.inl hstarted) hu))
      subst hu
      exact hclear (h.backedUp_none (Or.inl hstarted)) leaves_backedUp rfl hstarted backedUp_backup
  · refine .bind (.inspect (.ite (fun hsome=>.pure ?_) fun hnone=>?_))
    · have hne : volume.place .backup≠none := by
        intro hnone
        rw [hnone] at hsome
        cases hsome
      exact ⟨h,⟨rfl,rfl,fun _=>id,rfl,rfl,rfl⟩,rfl,fun hnone=>absurd hnone hne, fun hnone=>absurd hnone hne⟩
    · have hnone : volume.place .backup=none := Option.not_isSome_iff_eq_none.1 hnone
      refine clearPreparation_spec.mono (fun _ t ht=>?_) fun _ t ht=>ht ▸ h
      subst ht
      exact ⟨h.journaled (Or.inl hnone),leaves_journaled,rfl, fun _=>eq_false_of_ne_true hstarted,fun _=>rfl⟩

end Confirmation

section Moving

variable {source destination : Place}

lemma move_ok (ht : move source destination volume = .ok t)
    (hsource : volume.place source=some other) (hfrom : source ≠ .target)
    (hto : destination ≠ .target) : t = { volume with
      place := update (update volume.place source none) destination
        (some other) } := by
  unfold move at ht
  rw [hsource] at ht
  dsimp only at ht
  split at ht
  · rw [Volume.relocate_same] at ht
    · exact (Except.ok.inj ht).symm
    · rw [update_of_ne hto.symm,update_of_ne hfrom.symm]
  · cases ht

lemma swapNames_eq (htarget : volume.place .target=some current)
    (hbackup : volume.place .backup=some other) : swapNames .target .backup volume =
      .ok (volume.relocate (update (update volume.place .target (some other))
        .backup (some current))) := by
  unfold swapNames
  rw [htarget,hbackup]

end Moving

section Swapping

/-- The candidate, fresh from a verified artifact. -/
structure Offered (verified : Installation → Prop) (volume : Volume) (other : Installation) :
    Prop where
  candidate : volume.place .candidate=some other
  legitimate : verified other
  whole : other.removed=0
  fresh : other.identity ∉ volume.held
  used : other.identity ∈ volume.used

lemma Offered.leaves (h : Offered verified volume other) (hleaves : Leaves volume t)
    (hcandidate : t.place .candidate=volume.place .candidate) : Offered verified t other :=
  ⟨hcandidate.trans h.candidate,h.legitimate,h.whole,hleaves.held ▸ h.fresh, hleaves.used h.used⟩

/-- The prepared disk: the journal records the target and the backup is still empty. -/
structure Ready (verified : Installation → Prop) (volume : Volume)
    (current other : Installation) : Prop where
  standing : Standing verified volume current
  offered : Offered verified volume other
  backup : volume.place .backup=none
  started : volume.started=false
  journal : volume.preparing=some (record current.identity)

/-- The candidate at the backup, for now. -/
abbrev Volume.replaced (volume : Volume) (other : Installation) : Volume :=
  { volume with
    place := update (update volume.place .candidate none) .backup (some other) }

lemma leaves_replaced : Leaves volume (volume.replaced other) :=
  ⟨rfl,rfl,fun _=>id,rfl,rfl,rfl⟩

lemma replaced_backup : (volume.replaced other).place .backup=some other := by
  change update (update volume.place .candidate none) .backup (some other) .backup=some other
  exact update_self ..

section

variable (h : Ready verified volume current other)
include h

lemma Ready.replaced : Standing verified (volume.replaced other) current := by
  refine h.standing.spend leaves_replaced (h.standing.spent (Or.inl h.backup)) fun hsome=>?_
  cases replaced_backup.symm.trans hsome
  exact ⟨fun heq=>h.offered.fresh (heq ▸ h.standing.held),Or.inr h.journal⟩

lemma retainReplacement_spec : Survives volume retainReplacement (fun _ t=>t=volume.replaced other)
      fun _ t=>Standing verified t current := by
  have hfail : ∀ error, Survives volume (do
      clearPreparation
      halt (.context "prepare replacement beside installation" error) : InstallerM PUnit)
      (fun _ t=>t=volume.replaced other) fun _ t=>Standing verified t current := by
    intro error
    refine .bind (clearPreparation_spec.mono (fun _ t ht=>.halt ?_) fun _ t ht=>?_)
    · subst ht
      exact h.standing.journaled (Or.inl h.backup)
    · subst ht
      exact h.standing
  refine .bind (.attempt (.perform_cases h.standing (hfail _) (fun error _=>hfail error) fun t ht=>.pure ?_))
  exact move_ok ht h.offered.candidate (by decide) (by decide)

/-- The exchange is done, or the candidate moves out of the way again. -/
lemma installReplacement_spec : Survives (volume.replaced other) installReplacement
      (fun _ t=>Standing verified t other ∧ Awaiting t other current)
      fun _ t=>Standing verified t current := by
  have hfail : ∀ error, Survives (volume.replaced other) (do
      withContext "retain uninstalled replacement" (perform osFailure (move .backup .candidate))
      clearPreparation
      halt (.context "install update" error) : InstallerM PUnit)
      (fun _ t=>Standing verified t other ∧ Awaiting t other current)
      fun _ t=>Standing verified t current := by
    intro error
    refine .bind (withContext_spec (.perform (fun _ _=>h.replaced) fun t ht=>?_))
    obtain rfl := move_ok ht replaced_backup (by decide) (by decide)
    have hnone : update (update (volume.replaced other).place .backup none) .candidate (some other) .backup=none := rfl
    have hback : Standing verified { volume.replaced other with
        place := update (update (volume.replaced other).place .backup none)
          .candidate (some other) } current := by
      refine h.replaced.spend ⟨rfl,rfl,fun _=>id,rfl,rfl,rfl⟩
        (h.replaced.spent (Or.inr (Or.inr h.journal))) fun hsome=>?_
      cases hnone.symm.trans hsome
    refine .bind (clearPreparation_spec.mono (fun _ t ht=>.halt ?_) fun _ t ht=>?_)
    · subst ht
      exact hback.journaled (Or.inl hnone)
    · subst ht
      exact hback
  refine .bind (.attempt (.perform_cases h.replaced (hfail _) (fun error _=>hfail error) fun t ht=>.pure ?_))
  rw [swapNames_eq h.replaced.target replaced_backup] at ht
  cases ht
  have hoffered := h.offered.fresh
  exact h.replaced.promote (h.replaced.spent (Or.inr (Or.inr h.journal))) hoffered
    (leaves_replaced.used h.offered.used) h.offered.legitimate h.offered.whole h.journal h.started
    rfl rfl

end

lemma swap_spec (h : Standing verified volume current) (hoffered : Offered verified volume other) :
    Survives volume swap (fun _ t=>Standing verified t other ∧ Awaiting t other current)
      fun _ t=>Standing verified t current := by
  refine .bind ((cleanupConfirmedBackup_spec h).mono (fun _ t ⟨ht,htidied⟩=>?_) fun _ _=>id)
  refine .bind (.inspect (.bind (.ite (fun hnone=>.pure ?_) fun _=>.halt ht)))
  have hnone : t.place .backup=none := by
    cases hbackup : t.place .backup with
    | none => rfl
    | some found =>
      rw [hbackup] at hnone
      cases hnone
  refine .bind ((prepareExchange_spec ht.target (htidied.preparing hnone)).mono (fun _ u hu=>?_) fun _ u ⟨text,hu⟩=>?_)
  · subst hu
    have hready : Ready verified (t.journaled (some (record current.identity))) current other :=
      ⟨ht.journaled (Or.inl hnone),
        (hoffered.leaves htidied.leaves htidied.candidate).leaves leaves_journaled rfl,hnone,
        htidied.started hnone,rfl⟩
    refine .bind ((retainReplacement_spec hready).mono (fun _ w hw=>?_) fun _ _=>id)
    subst hw
    exact installReplacement_spec hready
  · subst hu
    exact ht.journaled (Or.inl hnone)

/-- The previous installation is back at the target and the failed one out of the way. -/
lemma rollback_spec (h : Standing verified volume current) (hwait : Awaiting volume current previous) :
    Survives volume rollback (fun _ t=>Standing verified t previous ∧ t.place .backup=none)
      fun _ t=>Sound verified t := by
  refine .bind (withContext_spec (.perform (fun _ _=>⟨current,h⟩) fun t ht=>?_))
  rw [swapNames_eq h.target hwait.backup] at ht
  have hplace := Volume.relocate_place volume (update
    (update volume.place .target (some previous)) .backup (some current))
  have hdemoted : Standing verified (volume.relocate (update
      (update volume.place .target (some previous)) .backup (some current))) previous ∧
      Spent (volume.relocate (update
        (update volume.place .target (some previous)) .backup (some current)))
        previous := h.demote hwait rfl rfl
  obtain rfl := Except.ok.inj ht
  generalize volume.relocate _=t at *
  obtain ⟨hback,hspent⟩ := hdemoted
  have hbackup : t.place .backup=some current := by
    rw [hplace]
    exact update_self ..
  refine .bind (withContext_spec (.perform (fun _ _=>⟨previous,hback⟩) fun u hu=>?_))
  obtain rfl := move_ok hu hbackup (by decide) (by decide)
  have hnone : update (update t.place .backup none) .failed (some current) .backup=none := rfl
  have haside : Standing verified { t with
      place := update (update t.place .backup none) .failed (some current) }
      previous := by
    refine hback.spend ⟨rfl,rfl,fun _=>id,rfl,rfl,rfl⟩ hspent fun hsome=>?_
    cases hnone.symm.trans hsome
  refine clearPreparation_spec.mono (fun _ w hw=>?_) fun _ w hw=>?_
  · subst hw
    exact ⟨haside.journaled (Or.inl hnone),hnone⟩
  · subst hw
    exact ⟨previous,haside⟩

end Swapping

section Recovering

variable {C : Halt InstallError → Volume → Prop}

/-- An unconfirmed installation at the target is what a restore undoes. -/
lemma Awaiting.not_spent (h : Awaiting volume current previous) : ¬Spent volume current := by
  intro hspent
  rcases (hspent.backup h.backup).2 with hstarted | hjournal
  · rw [h.started] at hstarted
    cases hstarted
  · rw [h.journal] at hjournal
    have hparsed := congrArg parseRecord (Option.some.inj hjournal)
    rw [parseRecord_record,parseRecord_record] at hparsed
    exact h.ne (Except.ok.inj hparsed)

lemma nothingRetained_spec (h : Standing verified volume current) :
    Survives volume nothingRetained (fun nothing t=>t=volume ∧ if nothing then Spent volume current
      else volume.started=false ∧ ∃ other, volume.place .backup=some other) C := by
  refine .bind (.inspect (.ite (fun hsome=>.inspect ⟨rfl,?_⟩) fun hnone=>.pure ⟨rfl,?_⟩))
  · cases hstarted : volume.started with
    | true => exact h.spent (Or.inr (Or.inl hstarted))
    | false => exact ⟨rfl,Option.isSome_iff_exists.1 hsome⟩
  · exact h.spent (Or.inl (Option.not_isSome_iff_eq_none.1 hnone))

lemma targetRecorded_spec (h : Standing verified volume current)
    (hbackup : volume.place .backup=some other) (hstarted : volume.started=false) :
    Survives volume targetRecorded (fun recorded t=>t=volume ∧
      if recorded then volume.preparing=some (record current.identity)
      else ∃ previous, Awaiting volume current previous) C := by
  refine .bind (.inspect ?_)
  rw [h.target]
  rcases h.phase with hspent | ⟨previous,hwait⟩
  · rcases (hspent.backup hbackup).2 with hreceipt | hjournal
    · rw [hstarted] at hreceipt
      cases hreceipt
    · refine (beforeExchange_spec h.target hjournal).mono (fun recorded t ⟨ht,hiff⟩=>⟨ht,?_⟩) fun _ _=>id
      rw [hiff.2 rfl]
      exact hjournal
  · refine (beforeExchange_spec h.target hwait.journal).mono (fun recorded t ⟨ht,hiff⟩=>⟨ht,?_⟩) fun _ _=>id
    cases recorded with
    | true => exact absurd (hiff.1 rfl).symm hwait.ne
    | false => exact ⟨previous,hwait⟩

lemma leaves_openWork (ht : openWork volume = .ok t) : Leaves volume t ∧
    t.place .backup=volume.place .backup ∧ t.preparing=volume.preparing ∧
    t.started=volume.started := by
  cases ht
  exact ⟨⟨rfl,rfl,fun _=>id,rfl,rfl,rfl⟩,rfl,rfl,rfl⟩

inductive Restored (verified : Installation → Prop) (volume : Volume) (current : Installation) :
    Bool → Volume → Prop
  | back {t : Volume} {previous : Installation} (hwait : Awaiting volume current previous)
      (h : Standing verified t previous) : Restored verified volume current true t
  | kept {t : Volume} (hspent : Spent volume current) (h : Standing verified t current) :
      Restored verified volume current false t

section

variable (h : Standing verified volume current)
include h

lemma restoreWithLease_spec : Survives volume restoreWithLease (Restored verified volume current)
      fun _ t=>Sound verified t := by
  refine .bind ((nothingRetained_spec h).mono (fun nothing t ⟨ht,hnothing⟩=>?_) fun _ _=>id)
  subst ht
  refine .ite (fun htrue=>.pure ?_) fun hfalse=>?_
  · rw [if_pos htrue] at hnothing
    exact .kept hnothing h
  rw [if_neg hfalse] at hnothing
  obtain ⟨hstarted,other,hbackup⟩ := hnothing
  refine .bind ((targetRecorded_spec h hbackup hstarted).mono (fun recorded t ⟨ht,hrecorded⟩=>?_) fun _ _=>id)
  subst ht
  refine .ite (fun htrue=>?_) fun hfalse=>?_
  · rw [if_pos htrue] at hrecorded
    refine .bind ((remove_spec hbackup).mono (fun _ u hu=>?_) fun _ u hu =>
      ⟨current,h.removing hbackup (Or.inr hrecorded) hu⟩)
    subst hu
    have hremoved := h.backedUp_none (Or.inr hrecorded)
    refine .bind (clearPreparation_spec.mono (fun _ w hw=>.pure ?_) fun _ w hw=>?_)
    · subst hw
      exact .kept (h.spent (Or.inr (Or.inr hrecorded))) (hremoved.journaled (Or.inl backedUp_backup))
    · subst hw
      exact ⟨current,hremoved⟩
  · rw [if_neg hfalse] at hrecorded
    obtain ⟨previous,hwait⟩ := hrecorded
    refine .bind (.perform (fun _=>⟨current,h⟩) fun u hu=>?_)
    obtain ⟨hleaves,hsame,hpreparing,hreceipt⟩ := leaves_openWork hu
    have hu := h.beside hleaves hsame hpreparing hreceipt
    refine .bind (.bind (.inspect ?_))
    rw [hu.target]
    refine (rollback_spec hu (hleaves.awaiting hwait hsame hpreparing hreceipt)).mono
      (fun _ w ⟨hw,hnone⟩=>?_) fun _ _=>id
    refine .bind (clearPreparation_spec.mono (fun _ x hx=>.pure ?_) fun _ x hx=>?_)
    · subst hx
      exact .back hwait (hw.journaled (Or.inl hnone))
    · subst hx
      exact ⟨previous,hw⟩

lemma restore_spec {leaseFree : Bool} :
    Survives volume (restore leaseFree) (Restored verified volume current) fun _ t=>Sound verified t :=
  .ite (fun _=>restoreWithLease_spec h) fun _=>.halt ⟨current,h⟩

lemma needsRollback_spec {leaseFree : Bool} : Survives volume (needsRollback leaseFree) (fun needed t=>t=volume ∧
      (needed=true ↔ leaseFree=true ∧ ∃ previous, Awaiting volume current previous)) C := by
  refine .bind (.attempt (.bind ((nothingRetained_spec h).mono (fun nothing t ⟨ht,hnothing⟩=>?_) fun _ _=>False.elim)))
  subst ht
  refine .ite (fun htrue=>.pure (.pure ⟨rfl,?_⟩)) fun hfalse=>?_
  · rw [if_pos htrue] at hnothing
    exact iff_of_false Bool.false_ne_true fun ⟨_,_,hwait⟩=>hwait.not_spent hnothing
  rw [if_neg hfalse] at hnothing
  obtain ⟨hstarted,other,hbackup⟩ := hnothing
  refine .bind ((targetRecorded_spec h hbackup hstarted).mono (fun recorded t ⟨ht,hrecorded⟩=>?_) fun _ _=>False.elim)
  subst ht
  refine .ite (fun htrue=>.pure (.pure ⟨rfl,?_⟩)) fun hfalse=>.pure (.pure ⟨rfl,?_⟩)
  · rw [if_pos htrue] at hrecorded
    exact iff_of_false Bool.false_ne_true fun ⟨_,_,hwait⟩ =>
      hwait.not_spent (h.spent (Or.inr (Or.inr hrecorded)))
  · rw [if_neg hfalse] at hrecorded
    exact ⟨fun hfree=>⟨hfree,hrecorded⟩,And.left⟩

lemma confirm_spec {observed : Identity} : Survives volume (confirm observed) (fun _ t=>Standing verified t current)
      fun _ t=>Standing verified t current := by
  refine .bind (.perform (fun _=>h) fun t ht=>?_)
  cases ht
  refine .bind (symlinkMetadata_spec h.target (.ite (fun _=>?_) fun _=>.pure h))
  refine .bind (.bind (.inspect (.ite (fun _=>?_) fun _=>.pure ?_)))
  · refine (confirmStart_spec h).mono (fun _ t ⟨_,ht⟩=>?_) fun _ _=>id
    exact (cleanupConfirmedBackup_spec ht).mono (fun _ _ hu=>hu.1) fun _ _=>id
  · exact (cleanupConfirmedBackup_spec h).mono (fun _ _ ht=>ht.1) fun _ _=>id

end

end Recovering

section Completing

variable {α : Type} {Q : α → Volume → Prop}

lemma completes_withContext {text : String} {program : InstallerM α}
    (h : Completes volume program Q) : Completes volume (withContext text program) Q :=
  .bind (.attempt (h.mono fun _ _=>.pure))

section

variable {Q : PUnit → Volume → Prop}

lemma completes_clearPreparation (hQ : Q ⟨⟩ (volume.journaled none)) : Completes volume clearPreparation Q := by
  cases hjournal : volume.preparing with
  | none =>
    have hrefused : unlinkJournal volume = .error (.os .notFound) := by
      unfold unlinkJournal
      rw [hjournal]
    rw [Volume.journaled,← hjournal] at hQ
    exact .bind (.refused hrefused (.pure hQ))
  | some text =>
    have hunlinked : unlinkJournal volume = .ok (volume.journaled none) := by
      unfold unlinkJournal
      rw [hjournal]
    exact .bind (.attempt (.perform hunlinked (.pure hQ)))

lemma completes_rollback (htarget : volume.place .target=some current)
    (hbackup : volume.place .backup=some previous) (hfailed : volume.place .failed=none) (hQ : ∀ t, Q ⟨⟩ t) : Completes volume rollback Q := by
  refine .bind (completes_withContext (.perform (swapNames_eq htarget hbackup) ?_))
  have hplace := Volume.relocate_place volume (update
    (update volume.place .target (some previous)) .backup (some current))
  generalize volume.relocate _=t at *
  have hback : t.place .backup=some current := by
    rw [hplace]
    exact update_self ..
  have haside : t.place .failed=none := by
    rw [hplace,update_of_ne (by decide),update_of_ne (by decide)]
    exact hfailed
  have hmove : ∃ u, move .backup .failed t = .ok u := by
    unfold move
    rw [hback,haside]
    exact ⟨_,rfl⟩
  obtain ⟨u,hu⟩ := hmove
  exact .bind (completes_withContext (.perform hu (completes_clearPreparation (hQ _))))

lemma completes_bringBack (htarget : volume.place .target=some current)
    (hbackup : volume.place .backup=some previous) (hfailed : volume.place .failed=none) (hQ : ∀ t, Q ⟨⟩ t) : Completes volume bringBack Q := by
  refine .bind (.inspect ?_)
  rw [htarget]
  exact completes_rollback htarget hbackup hfailed hQ

end

/-- A restore that nothing cuts off or fails ends where a swap is to be undone. -/
lemma completes_restore (h : Standing verified volume current) (hwait : Awaiting volume current previous) :
    Completes volume (restore true) fun _ _=>True := by
  refine .bind (.bind (.inspect ?_))
  rw [hwait.backup]
  refine .inspect ?_
  rw [hwait.started]
  refine .bind (.bind (.inspect ?_))
  rw [h.target]
  refine .bind (.inspect ?_)
  rw [hwait.journal]
  dsimp only
  rw [parseRecord_record]
  refine .bind (.bind (.inspect ?_))
  rw [h.target]
  refine .pure (.pure ?_)
  rw [decide_eq_false hwait.ne.symm]
  have htarget : volume.opened.place .target=some current := h.target
  have hbackup : volume.opened.place .backup=some previous := hwait.backup
  exact .bind (.perform (t := volume.opened) rfl (.bind (completes_bringBack htarget hbackup rfl
    fun t=>.bind (completes_clearPreparation (.pure trivial)))))

end Completing

section Applying

variable {request : Request} {payload : Payload}

section

variable (h : Standing verified volume current)
include h

lemma swapIn_spec (hverified : verified payload.whole) : Survives volume (swapIn payload)
      (fun _ t=>Standing verified t payload.whole ∧ Awaiting t payload.whole current)
      fun _ t=>Standing verified t current := by
  refine .bind (.perform (fun _=>h) fun t ht=>?_)
  obtain ⟨hleaves,hbackup,hpreparing,hstarted⟩ := leaves_openWork ht
  have ht := h.beside hleaves hbackup hpreparing hstarted
  refine .bind (.perform (fun _=>ht) fun u hu=>?_)
  unfold create at hu
  split at hu
  · cases hu
  · rename_i hunused
    cases hu
    have hlater : Leaves t { t with
        place := update t.place .candidate (some payload.whole)
        candidates := payload.whole::t.candidates } :=
      ⟨rfl,rfl,List.subset_cons_self _ _,rfl,rfl,rfl⟩
    refine swap_spec (ht.beside hlater rfl rfl rfl) ⟨rfl,hverified,rfl,?_,.head _⟩
    exact fun hmem=>hunused (ht.heldUsed hmem)

/-- Not swapped, or swapped with the installation before it waiting at the backup. -/
lemma replaceInstallation_spec (hverified : request.authenticated=true → verified request.payload.whole) :
    Survives volume (replaceInstallation request) (fun swapped t=>if swapped then
        Standing verified t request.payload.whole ∧ Awaiting t request.payload.whole current
        else Standing verified t current)
      fun _ t=>Standing verified t current := by
  refine .bind (.ite (fun hauthenticated=>.pure ?_) fun _=>.halt h)
  refine .ite (fun _=>?_) fun _=>.pure h
  refine .bind (.ite (fun _=>.pure ?_) fun _=>.halt h)
  refine .bind (symlinkMetadata_spec h.target (.bind ?_))
  exact (swapIn_spec h (hverified hauthenticated)).mono (fun _ _ ht=>.pure ht) fun _ _=>id

lemma applyUpdate_spec (hverified : request.authenticated=true → verified request.payload.whole) :
    Survives volume (applyUpdate request) (fun _ t=>Sound verified t)
      fun _ t=>Sound verified t := by
  refine .bind (.attempt ((replaceInstallation_spec h hverified).mono (fun swapped t ht=>?_) fun stop t ht=>?_))
  · cases swapped with
    | false => exact .pure ⟨current,ht⟩
    | true =>
      obtain ⟨ht,hwait⟩ := ht
      refine .ite (fun _=>?_) fun _=>?_
      · refine .bind (.attempt (.bind ((confirmStart_spec ht).mono (fun _ u ⟨_,hu⟩=>?_) ?_)))
        · refine (cleanupConfirmedBackup_spec hu).mono (fun _ w hw=>.pure ⟨_,hw.1⟩) ?_
          rintro (_ | error) w hw
          · exact ⟨_,hw⟩
          · exact .pure ⟨_,hw⟩
        · rintro (_ | error) u hu
          · exact ⟨_,hu⟩
          · exact .pure ⟨_,hu⟩
      · refine .bind (.attempt ((rollback_spec ht hwait).mono (fun _ u hu=>.pure ⟨_,hu.1⟩) ?_))
        rintro (_ | error) u hu
        · exact hu
        · exact .pure hu
  · cases stop with
    | cut => exact ⟨current,ht⟩
    | error error => exact .pure ⟨current,ht⟩

lemma afterExit_spec (hverified : request.authenticated=true → verified request.payload.whole) :
    Survives volume (afterExit request) (fun _ t=>Sound verified t)
      fun _ t=>Sound verified t := by
  refine .bind ((applyUpdate_spec h hverified).mono (fun outcome t ht=>?_) fun _ _=>id)
  split
  · exact .pure ht
  · refine .ite (fun _=>.halt ht) fun _=>.ite (fun _=>?_) fun _=>.halt ht
    obtain ⟨found,ht⟩ := ht
    refine .bind (.attempt ((restoreWithLease_spec ht).mono (fun _ u hu=>.halt ?_) ?_))
    · cases hu with
      | back _ hu => exact ⟨_,hu⟩
      | kept _ hu => exact ⟨_,hu⟩
    · rintro (_ | error) u hu
      · exact hu
      · exact .halt hu

end

end Applying

end Cinnabar.Updates
