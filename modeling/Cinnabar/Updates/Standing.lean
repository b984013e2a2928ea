import Cinnabar.Updates.Installer

/-! # What holds of the disk at every step -/

namespace Cinnabar.Updates

open List

variable {verified : Installation → Prop} {volume t : Volume}
  {current other previous : Installation}

def Promotion.Settled (volume : Volume) (promotion : Promotion) : Prop :=
  promotion.installed.identity ∈ volume.confirmed ∨ promotion.installed.identity ∈ volume.rolledBack

/-- The new installation `current` is unconfirmed and `previous` waits at the backup. -/
structure Awaiting (volume : Volume) (current previous : Installation) : Prop where
  promotions : ∃ older, volume.promotions = ⟨current,previous⟩ :: older ∧ ∀ promotion ∈ older, promotion.Settled volume
  backup : volume.place .backup=some previous
  whole : previous.removed=0
  ne : previous.identity≠current.identity
  journal : volume.preparing=some (record previous.identity)
  started : volume.started=false
  unconfirmed : current.identity ∉ volume.confirmed
  spared : previous.identity ∉ volume.rolledBack
  held : previous.identity ∈ volume.held

/-- What the backup holds may go. -/
structure Spent (volume : Volume) (current : Installation) : Prop where
  settled : ∀ promotion ∈ volume.promotions, promotion.Settled volume
  backup : ∀ {other : Installation}, volume.place .backup=some other → other.identity≠current.identity ∧
      (volume.started=true ∨ volume.preparing=some (record current.identity))

/-- The last promotion brought what the target holds, or took over from it and was undone. -/
def Volume.Latest (volume : Volume) (current : Installation) : Prop :=
  (volume.promotions = [] ∧ current=volume.initial) ∨ ∃ promotion older, volume.promotions=promotion::older ∧
      (current=promotion.installed ∨ current=promotion.previous)

/-- The invariant: the target holds `current`, one of the installations that may be there. -/
structure Standing (verified : Installation → Prop) (volume : Volume) (current : Installation) :
    Prop where
  target : volume.place .target=some current
  whole : current.removed=0
  latest : volume.Latest current
  held : current.identity ∈ volume.held
  spared : current.identity ∉ volume.rolledBack
  heldUsed : volume.held ⊆ volume.used
  confirmedHeld : volume.confirmed ⊆ volume.held
  rolledBackHeld : volume.rolledBack ⊆ volume.held
  disjoint : ∀ identity ∈ volume.rolledBack, identity ∉ volume.confirmed
  legitimate : verified current
  promoted : ∀ promotion ∈ volume.promotions, verified promotion.installed ∧ verified promotion.previous
  phase : Spent volume current ∨ ∃ previous, Awaiting volume current previous

def Sound (verified : Installation → Prop) (volume : Volume) : Prop :=
  ∃ current, Standing verified volume current

section Relocating

variable {place : Place → Option Installation}

lemma Volume.relocate_place (volume : Volume) (place : Place → Option Installation) :
    (volume.relocate place).place=place := by
  unfold Volume.relocate
  split
  · split
    · rfl
    · split <;> rfl
  · rfl

lemma Volume.relocate_same (h : place .target=volume.place .target) :
    volume.relocate place = { volume with place := place } := by
  unfold Volume.relocate
  rw [h]
  cases volume.place .target with
  | none => rfl
  | some found => exact if_pos rfl

lemma Volume.relocate_back (htarget : volume.place .target=some current)
    (hplace : place .target=some other) (hne : current.identity≠other.identity)
    (hheld : other.identity ∈ volume.held) :
    volume.relocate place =
      { volume with place := place, rolledBack := current.identity::volume.rolledBack } := by
  unfold Volume.relocate
  rw [htarget,hplace]
  dsimp only
  rw [if_neg hne,if_pos hheld]

lemma Volume.relocate_new (htarget : volume.place .target=some current)
    (hplace : place .target=some other) (hne : current.identity≠other.identity)
    (hfresh : other.identity ∉ volume.held) :
    volume.relocate place =
      { volume with place := place, promotions := ⟨other,current⟩ :: volume.promotions } := by
  unfold Volume.relocate
  rw [htarget,hplace]
  dsimp only
  rw [if_neg hne,if_neg hfresh]

end Relocating

namespace Standing

lemma spent (h : Standing verified volume current) (hfree : volume.place .backup=none ∨ volume.started=true ∨
      volume.preparing=some (record current.identity)) : Spent volume current := by
  rcases h.phase with hspent | ⟨previous,hwait⟩
  · exact hspent
  · rcases hfree with hnone | hreceipt | hrecord
    · rw [hwait.backup] at hnone
      cases hnone
    · rw [hwait.started] at hreceipt
      cases hreceipt
    · rw [hwait.journal] at hrecord
      have hparsed := congrArg parseRecord (Option.some.inj hrecord)
      rw [parseRecord_record,parseRecord_record] at hparsed
      exact absurd (Except.ok.inj hparsed) hwait.ne

lemma backup_ne (h : Standing verified volume current)
    (hbackup : volume.place .backup=some other) : other.identity≠current.identity := by
  rcases h.phase with hspent | ⟨previous,hwait⟩
  · exact (hspent.backup hbackup).1
  · rw [hwait.backup] at hbackup
    cases hbackup
    exact hwait.ne

end Standing

/-- Neither the target nor the history changes. -/
structure Leaves (volume t : Volume) : Prop where
  target : t.place .target=volume.place .target
  initial : t.initial=volume.initial
  candidates : volume.candidates ⊆ t.candidates
  promotions : t.promotions=volume.promotions
  confirmed : t.confirmed=volume.confirmed
  rolledBack : t.rolledBack=volume.rolledBack

section

variable (h : Leaves volume t)
include h

lemma Leaves.trans {u : Volume} (h' : Leaves t u) : Leaves volume u :=
  ⟨h'.target.trans h.target,h'.initial.trans h.initial,
    fun _ hmem=>h'.candidates (h.candidates hmem),h'.promotions.trans h.promotions,h'.confirmed.trans h.confirmed,
    h'.rolledBack.trans h.rolledBack⟩

lemma Leaves.held : t.held=volume.held := by
  unfold Volume.held
  rw [h.promotions,h.initial]

lemma Leaves.used : volume.used ⊆ t.used := by
  unfold Volume.used
  rw [h.initial]
  intro identity hmem
  rcases mem_append.1 hmem with hmem | hmem
  · obtain ⟨candidate,hcandidate,rfl⟩ := mem_map.1 hmem
    exact mem_append_left _ (mem_map_of_mem (h.candidates hcandidate))
  · exact mem_append_right _ hmem

lemma Leaves.settled {promotion : Promotion} (hsettled : promotion.Settled volume) : promotion.Settled t := by
  unfold Promotion.Settled at *
  rw [h.confirmed,h.rolledBack]
  exact hsettled

lemma Leaves.spent (hspent : Spent volume current)
    (hbackup : ∀ {other : Installation}, t.place .backup=some other → other.identity≠current.identity ∧
        (t.started=true ∨ t.preparing=some (record current.identity))) :
    Spent t current := by
  refine ⟨fun promotion hmem=>h.settled (hspent.settled promotion ?_),hbackup⟩
  rw [← h.promotions]
  exact hmem

/-- A change that concerns neither the backup nor its markers. -/
lemma Leaves.awaiting (hwait : Awaiting volume current previous) (hbackup : t.place .backup=volume.place .backup)
    (hpreparing : t.preparing=volume.preparing) (hstarted : t.started=volume.started) :
    Awaiting t current previous := by
  obtain ⟨older,hpromotions,hsettled⟩ := hwait.promotions
  exact ⟨⟨older,h.promotions.trans hpromotions,fun promotion hmem =>
    h.settled (hsettled promotion hmem)⟩,hbackup.trans hwait.backup,hwait.whole,hwait.ne,
    hpreparing.trans hwait.journal,hstarted.trans hwait.started,
    h.confirmed ▸ hwait.unconfirmed,h.rolledBack ▸ hwait.spared,h.held ▸ hwait.held⟩

end

namespace Standing

section

variable (h : Standing verified volume current)
include h

lemma leaves (hleaves : Leaves volume t) (hphase : Spent t current ∨ ∃ previous, Awaiting t current previous) :
    Standing verified t current where
  target := hleaves.target.trans h.target
  whole := h.whole
  latest := by
    unfold Volume.Latest
    rw [hleaves.promotions,hleaves.initial]
    exact h.latest
  held := hleaves.held ▸ h.held
  spared := hleaves.rolledBack ▸ h.spared
  heldUsed := by
    rw [hleaves.held]
    exact fun _ hmem=>hleaves.used (h.heldUsed hmem)
  confirmedHeld := by
    rw [hleaves.held,hleaves.confirmed]
    exact h.confirmedHeld
  rolledBackHeld := by
    rw [hleaves.held,hleaves.rolledBack]
    exact h.rolledBackHeld
  disjoint := by
    rw [hleaves.rolledBack,hleaves.confirmed]
    exact h.disjoint
  legitimate := h.legitimate
  promoted := hleaves.promotions ▸ h.promoted
  phase := hphase

/-- A change that concerns neither the target, the backup nor its markers. -/
lemma beside (hleaves : Leaves volume t) (hbackup : t.place .backup=volume.place .backup)
    (hpreparing : t.preparing=volume.preparing) (hstarted : t.started=volume.started) :
    Standing verified t current := by
  refine h.leaves hleaves (h.phase.imp (fun hspent=>hleaves.spent hspent ?_)
    fun ⟨previous,hwait⟩=>⟨previous,hleaves.awaiting hwait hbackup hpreparing hstarted⟩)
  intro other hsome
  rw [hstarted,hpreparing]
  exact hspent.backup (hbackup ▸ hsome)

/-- The backup and its markers change while the backup may go. -/
lemma spend (hleaves : Leaves volume t) (hspent : Spent volume current)
    (hbackup : ∀ {other : Installation}, t.place .backup=some other → other.identity≠current.identity ∧
        (t.started=true ∨ t.preparing=some (record current.identity))) :
    Standing verified t current :=
  h.leaves hleaves (Or.inl (hleaves.spent hspent hbackup))

/-- A receipt confirms the installation at the target. -/
lemma receipt :
    Standing verified { volume with
      started := true
      confirmed := (volume.place .target).toList.map (·.identity) ++ volume.confirmed }
      current := by
  rw [h.target]
  have hsettled : ∀ promotion : Promotion, promotion.Settled volume →
      promotion.Settled { volume with
        started := true
        confirmed := current.identity::volume.confirmed } := fun promotion =>
    Or.imp (mem_cons_of_mem _) id
  refine ⟨h.target,h.whole,h.latest,h.held,h.spared,h.heldUsed,?_,h.rolledBackHeld,?_,
    h.legitimate,h.promoted,Or.inl ⟨fun promotion hmem=>?_, fun hbackup=>⟨h.backup_ne hbackup,Or.inl rfl⟩⟩⟩
  · exact cons_subset.2 ⟨h.held,h.confirmedHeld⟩
  · intro identity hrolled hmem
    rcases mem_cons.1 hmem with rfl | hmem
    · exact h.spared hrolled
    · exact h.disjoint identity hrolled hmem
  · rcases h.phase with hspent | ⟨previous,hwait⟩
    · exact hsettled promotion (hspent.settled promotion hmem)
    · obtain ⟨older,hpromotions,hold⟩ := hwait.promotions
      rw [hpromotions] at hmem
      rcases mem_cons.1 hmem with rfl | hmem
      · exact Or.inl (.head _)
      · exact hsettled promotion (hold promotion hmem)

end

variable {place : Place → Option Installation}

/-- A fresh candidate is exchanged with the recorded installation. -/
lemma promote (h : Standing verified volume current) (hspent : Spent volume current)
    (hfresh : other.identity ∉ volume.held) (hused : other.identity ∈ volume.used)
    (hverified : verified other) (hwhole : other.removed=0)
    (hjournal : volume.preparing=some (record current.identity))
    (hstarted : volume.started=false) (htarget : place .target=some other)
    (hbackup : place .backup=some current) :
    Standing verified (volume.relocate place) other ∧
      Awaiting (volume.relocate place) other current := by
  have hne : current.identity≠other.identity := fun heq=>hfresh (heq ▸ h.held)
  rw [Volume.relocate_new h.target htarget hne hfresh]
  have hheld : volume.held ⊆ Volume.held { volume with
      place := place
      promotions := ⟨other,current⟩ :: volume.promotions } := fun _=>mem_cons_of_mem _
  have hwait : Awaiting { volume with
      place := place
      promotions := ⟨other,current⟩ :: volume.promotions } other current :=
    ⟨⟨volume.promotions,rfl,hspent.settled⟩,hbackup,h.whole,hne,hjournal,hstarted,
      fun hmem=>hfresh (h.confirmedHeld hmem),h.spared,hheld h.held⟩
  refine ⟨⟨htarget,hwhole,Or.inr ⟨_,_,rfl,Or.inl rfl⟩,.head _,
    fun hmem=>hfresh (h.rolledBackHeld hmem),?_,fun _ hmem=>hheld (h.confirmedHeld hmem),
    fun _ hmem=>hheld (h.rolledBackHeld hmem),h.disjoint,hverified,?_,
    Or.inr ⟨current,hwait⟩⟩,hwait⟩
  · exact cons_subset.2 ⟨hused,h.heldUsed⟩
  · intro promotion hmem
    rcases mem_cons.1 hmem with rfl | hmem
    · exact ⟨hverified,h.legitimate⟩
    · exact h.promoted promotion hmem

lemma demote (h : Standing verified volume current) (hwait : Awaiting volume current previous)
    (htarget : place .target=some previous) (hbackup : place .backup=some current) :
    Standing verified (volume.relocate place) previous ∧
      Spent (volume.relocate place) previous := by
  rw [Volume.relocate_back h.target htarget hwait.ne.symm hwait.held]
  obtain ⟨older,hpromotions,hold⟩ := hwait.promotions
  have hspent : Spent { volume with
      place := place
      rolledBack := current.identity::volume.rolledBack } previous := by
    refine ⟨fun promotion hmem=>?_,fun hsome=>?_⟩
    · rw [hpromotions] at hmem
      rcases mem_cons.1 hmem with rfl | hmem
      · exact Or.inr (.head _)
      · exact (hold promotion hmem).imp id (mem_cons_of_mem _)
    · cases hbackup.symm.trans hsome
      exact ⟨hwait.ne.symm,Or.inr hwait.journal⟩
  refine ⟨⟨htarget,hwait.whole,Or.inr ⟨_,_,hpromotions,Or.inr rfl⟩,hwait.held,?_,
    h.heldUsed,h.confirmedHeld,cons_subset.2 ⟨h.held,h.rolledBackHeld⟩,?_,?_,
    h.promoted,Or.inl hspent⟩,hspent⟩
  · intro hmem
    rcases mem_cons.1 hmem with heq | hmem
    · exact hwait.ne heq
    · exact hwait.spared hmem
  · intro identity hmem hconfirmed
    rcases mem_cons.1 hmem with rfl | hmem
    · exact hwait.unconfirmed hconfirmed
    · exact h.disjoint identity hmem hconfirmed
  · exact (h.promoted ⟨current,previous⟩ (hpromotions ▸ mem_cons_self)).2

end Standing

end Cinnabar.Updates
