import Cinnabar.Uploads.ArenaWrites

/-! # Arena writes across a growth

A run of issues, growths and slices keeps in the current buffer what its writes say.
-/

namespace Cinnabar.Uploads

open List Function

/-- What an arena does, with the room the pool has for each batch. -/
inductive Event where
  | issue (mirrorRoom room : Room) (writes : List PartWrite)
  | writeWords (room : Room) (patch : Patch UInt8)
  | grow (used wanted requiredLen maxItems : ℕ)
  | advance (allowance : ℕ)
  | flush

section Steps

variable {M : Type} (device : Device M)

def Event.step (arena : Arena M) : Event → Arena M
  | .issue mirrorRoom room writes => Uploads.issue device mirrorRoom room writes arena
  | .writeWords room patch => writeGeometryStreamWords device room patch arena
  | .grow used wanted requiredLen maxItems => Uploads.grow device used wanted requiredLen maxItems arena
  | .advance allowance => advanceArenaMigration device allowance arena
  | .flush => { arena with uploads := Uploads.flush device arena.uploads }

def Event.patches (stream : ArenaStream) : Event → List (Patch UInt8)
  | .issue _ _ writes =>
    (byPart (writes.filter fun write=>write.part.destination=stream)).map PartWrite.patch
  | .writeWords _ patch => [patch]
  | _ => []

/-- The content its writes give an arena, and the bytes written since its last growth began. -/
structure Logical where
  content : ℕ → UInt8
  written : ℕ → Bool

namespace Logical

def write (patches : List (Patch UInt8)) (logical : Logical) : Logical :=
  ⟨applyAll patches logical.content,fun x=>logical.written x || coversAny patches x⟩

def begin (logical : Logical) : Logical := { logical with written := fun _=>false }

/-- A growth keeps the prefix it copies and what was written since it began. -/
def complete (copyBytes : ℕ) (logical : Logical) : Logical :=
  { logical with content := fun x =>
      if x < copyBytes ∨ logical.written x=true then logical.content x else 0 }

end Logical

abbrev Ledger (M : Type) : Type := Arena M × Logical

def Event.run (ledger : Ledger M) (event : Event) : Ledger M :=
  let arena := event.step device ledger.1
  let logical := ledger.2.write (event.patches ledger.1.stream)
  (arena,match ledger.1.migration,arena.migration with
    | none,some _ => logical.begin
    | some migration,none => logical.complete migration.copyBytes
    | _,_ => logical)

end Steps

section Orders

lemma pairwise_byAddress (writes : List PartWrite) :
    (byAddress writes).Pairwise fun a b=>a.patch.offset≤b.patch.offset := by
  have hsorted : (byAddress writes).Pairwise fun a b=>decide (a.patch.offset≤b.patch.offset) = true :=
    pairwise_mergeSort (fun a b c h h'=>decide_eq_true
      ((of_decide_eq_true h).trans (of_decide_eq_true h'))) (fun a b=>by
        rw [Bool.or_eq_true,decide_eq_true_eq,decide_eq_true_eq]
        exact le_total _ _) writes
  exact hsorted.imp of_decide_eq_true

lemma isChain_of_apart {writes : List PartWrite} (h : overlapping writes=false) :
    writes.IsChain fun a b=>a.patch.stop≤b.patch.offset := by
  induction writes with
  | nil => exact List.IsChain.nil
  | cons a writes ih =>
    cases writes with
    | nil => exact List.IsChain.singleton a
    | cons b writes =>
      rw [overlapping,Bool.or_eq_false_iff,decide_eq_false_iff_not,not_lt] at h
      exact isChain_cons_cons.2 ⟨h.1,ih h.2⟩

lemma applyAll_issueOrder (writes : List PartWrite) (c : ℕ → UInt8) :
    applyAll ((issueOrder writes).map PartWrite.patch) c =
      applyAll ((byPart writes).map PartWrite.patch) c := by
  unfold issueOrder
  split
  · rfl
  · rename_i hapart
    have hperm : (byAddress writes).Perm (byPart writes) := (mergeSort_perm _ _).trans (mergeSort_perm _ _).symm
    refine applyAll_perm (hperm.map _) (pairwise_disjoint ?_ ?_)
    · exact pairwise_map.2 (pairwise_byAddress writes)
    · exact (isChain_map _).2 (isChain_of_apart (Bool.not_eq_true _ ▸ hapart))

end Orders

section Batches

variable {M : Type} {device : Device M} {uploads : TerrainUploads M}
  {staging : Bool} {room : Room} {queue : List Write → List Write} {writes : List Write}

lemma copies_writeBatch {copy : Write} (h : copy ∈ (writeBatch device staging room queue writes uploads).copies) :
    copy ∈ uploads.copies ∨ ∃ write ∈ writes, copy.1=write.1 := by
  unfold writeBatch at h
  split at h
  case isFalse => exact .inl h
  split at h
  · rcases mem_append.1 h with hold | hnew
    · exact .inl hold
    · exact .inr ⟨copy,hnew,rfl⟩
  rename_i index staged write hroom
  obtain ⟨room,hsome,hfound⟩ := Option.bind_eq_some_iff.1 hroom
  obtain ⟨found,hfound,heq⟩ := Option.map_eq_some_iff.1 hfound
  cases heq
  dsimp only [queueWrites] at h
  split at h
  · cases h
  · rcases mem_append.1 h with h | h
    · rcases mem_append.1 h with hold | hnew
      · exact .inl hold
      · exact .inr ⟨copy,mem_of_mem_take hnew,rfl⟩
    · exact .inr ⟨write,List.mem_of_getElem? hfound,by rw [mem_singleton.1 h]⟩

lemma copies_writeBatch_unstaged : (writeBatch device false room queue writes uploads).copies=uploads.copies := rfl

variable (hordered : device.Ordered)

include hordered

lemma live_queueWrites {buffer : ℕ} (h : device.live uploads.device buffer) :
    device.live (queueWrites device writes uploads).device buffer := by
  obtain ⟨m,copies⟩ := uploads
  induction writes generalizing m with
  | nil => exact h
  | cons write writes ih => exact ih _ (hordered.live_writeBuffer _ _ _ h)

lemma live_writeBatch {buffer : ℕ} (h : device.live uploads.device buffer) :
    device.live (writeBatch device staging room queue writes uploads).device buffer := by
  unfold writeBatch
  split
  · split
    · exact h
    · refine live_queueWrites hordered ?_
      split
      · exact hordered.live_submit _ _ _ h
      · exact h
  · exact live_queueWrites hordered h

end Batches

section Sound

variable {M : Type} (device : Device M)

/-- What holds of the buffers of an arena whatever they contain. -/
structure Sound (arena : Arena M) : Prop where
  unstaged : arena.staging=false → arena.uploads.copies = []
  current : device.live arena.uploads.device arena.buffer
  copies : ∀ copy ∈ arena.uploads.copies, device.live arena.uploads.device copy.1
  replacement : ∀ migration, arena.migration=some migration →
    device.live arena.uploads.device migration.buffer ∧ migration.buffer≠arena.buffer ∧
      migration.copiedBytes ≤ migration.copyBytes

/-- The current buffer holds the logical content; a replacement holds it where it has been copied
or written since its growth began, and zeros elsewhere. -/
structure Kept (ledger : Ledger M) : Prop where
  sound : Sound device ledger.1
  current : effect device ledger.1.uploads ledger.1.buffer=ledger.2.content
  replacement : ∀ migration, ledger.1.migration=some migration → ∀ x,
    effect device ledger.1.uploads migration.buffer x =
      if x < migration.copiedBytes ∨ ledger.2.written x=true then ledger.2.content x else 0

end Sound

section Writes

variable {M : Type} {device : Device M} {arena : Arena M} {logical : Logical}

lemma Logical.write_nil : logical.write [] = logical := by
  unfold Logical.write
  simp [applyAll,coversAny]

lemma patchesOf_map (buffer : ℕ) (writes : List PartWrite) :
    patchesOf buffer (writes.map fun write=>(buffer,write.patch)) = writes.map PartWrite.patch := by
  unfold patchesOf
  rw [filter_eq_self.2 (by simp),map_map]
  rfl

lemma patchesOf_map_of_ne {buffer other : ℕ} (h : other≠buffer) (writes : List PartWrite) :
    patchesOf buffer (writes.map fun write=>(other,write.patch)) = [] := by
  simp [patchesOf,h]

/-- Writes that reach the current buffer and its replacement alike keep both. -/
lemma Kept.write {uploads : TerrainUploads M} {patches : List (Patch UInt8)}
    (h : Kept device (arena,logical)) (hsound : Sound device { arena with uploads })
    (hcurrent : effect device uploads arena.buffer=applyAll patches (effect device arena.uploads arena.buffer))
    (hreplacement : ∀ migration, arena.migration=some migration → effect device uploads migration.buffer =
        applyAll patches (effect device arena.uploads migration.buffer)) :
    Kept device ({ arena with uploads },logical.write patches) where
  sound := hsound
  current := by
    have hheld := h.current
    rw [hcurrent,hheld]
    rfl
  replacement := by
    intro migration hsome x
    have hwritten : (logical.write patches).written x = (logical.written x || coversAny patches x) := rfl
    have hcontent : (logical.write patches).content x=applyAll patches logical.content x := rfl
    rw [hreplacement migration hsome,hwritten,hcontent]
    by_cases hcovers : coversAny patches x=true
    · rw [if_pos (.inr (by rw [hcovers,Bool.or_true]))]
      exact applyAll_inside hcovers
    · have hout := Bool.not_eq_true _ ▸ hcovers
      rw [hout,Bool.or_false,applyAll_outside hout,applyAll_outside hout]
      exact h.replacement migration hsome x

variable (hordered : device.Ordered)

include hordered

section

variable (h : Sound device arena)
include h

lemma Sound.writeBatch {room : Room} {queue : List Write → List Write} {writes : List Write} (hwrites : ∀ write ∈ writes, device.live arena.uploads.device write.1) :
    Sound device { arena with
      uploads := Uploads.writeBatch device arena.staging room queue writes arena.uploads } where
  unstaged := by
    intro hoff
    rw [hoff,copies_writeBatch_unstaged]
    exact h.unstaged hoff
  current := live_writeBatch hordered h.current
  copies := by
    intro copy hmem
    rcases copies_writeBatch hmem with hold | ⟨write,hwrite,heq⟩
    · exact live_writeBatch hordered (h.copies copy hold)
    · rw [heq]
      exact live_writeBatch hordered (hwrites write hwrite)
  replacement := by
    intro migration hsome
    obtain ⟨hlive,hne,hle⟩ := h.replacement migration hsome
    exact ⟨live_writeBatch hordered hlive,hne,hle⟩

variable {overlapped : Bool} {buffer : ℕ}

section

variable {writes : List PartWrite}

lemma Sound.writeMerged {room : Room} (hlive : device.live arena.uploads.device buffer) :
    Sound device (Uploads.writeMerged device room overlapped writes buffer arena) := by
  refine h.writeBatch hordered fun write hmem=>?_
  obtain ⟨part,-,rfl⟩ := mem_map.1 hmem
  exact hlive

lemma effect_writeMerged {room : Room} :
    effect device (Uploads.writeMerged device room overlapped writes buffer arena).uploads =
      putWrites (writes.map fun write=>(buffer,write.patch)) (effect device arena.uploads) := by
  refine effect_writeBatch hordered h.unstaged fun rest contents hrest=>?_
  have hsame : ∀ write ∈ rest, write.1=buffer := by
    intro write hmem
    obtain ⟨other,hother,heq⟩ := hrest write hmem
    obtain ⟨part,-,rfl⟩ := mem_map.1 hother
    exact heq
  exact putWrites_queueMerged hsame

lemma effect_writeMerged_self {room : Room} :
    effect device (Uploads.writeMerged device room overlapped writes buffer arena).uploads buffer =
      applyAll (writes.map PartWrite.patch) (effect device arena.uploads buffer) := by
  rw [effect_writeMerged hordered h,putWrites_eq,patchesOf_map]

lemma effect_writeMerged_of_ne {room : Room} {buffer other : ℕ} (hne : buffer≠other) :
    effect device (Uploads.writeMerged device room overlapped writes buffer arena).uploads other =
      effect device arena.uploads other := by
  rw [effect_writeMerged hordered h,putWrites_eq,patchesOf_map_of_ne hne]
  rfl

end

end

end Writes

section Kept

variable {M : Type} {device : Device M} {arena : Arena M} {logical : Logical}

lemma run_of_same_migration (event : Event) (h : (event.step device arena).migration=arena.migration) :
    Event.run device (arena,logical) event =
      (event.step device arena,logical.write (event.patches arena.stream)) := by
  unfold Event.run
  dsimp only
  rw [h]
  cases arena.migration <;> rfl

lemma Kept.idle {event : Event} (h : Kept device (arena,logical))
    (hstep : event.step device arena=arena) (hpatches : event.patches arena.stream = []) :
    Kept device (Event.run device (arena,logical) event) := by
  rw [run_of_same_migration event (congrArg Arena.migration hstep),hstep,hpatches,Logical.write_nil]
  exact h

variable (hordered : device.Ordered)

include hordered

lemma Kept.issue (mirrorRoom room : Room) (writes : List PartWrite) (h : Kept device (arena,logical)) :
    Kept device (Uploads.issue device mirrorRoom room writes arena,
      logical.write ((Event.issue mirrorRoom room writes).patches arena.stream)) := by
  unfold Uploads.issue Event.patches
  dsimp only
  generalize (writes.filter fun write=>write.part.destination=arena.stream) = stream
  split
  · rename_i hempty
    rw [List.isEmpty_iff.1 hempty]
    rw [byPart,mergeSort_nil,map_nil,Logical.write_nil]
    exact h
  cases hmigration : arena.migration with
  | none =>
    refine h.write (h.sound.writeMerged hordered h.sound.current) ?_ fun migration hsome=>?_
    · rw [← applyAll_issueOrder]
      exact effect_writeMerged_self hordered h.sound
    · rw [hmigration] at hsome
      cases hsome
  | some migration =>
    obtain ⟨hlive,hne,-⟩ := h.sound.replacement migration hmigration
    have hmirrored : Sound device (writeMerged device mirrorRoom (overlapping (byAddress stream))
        (issueOrder stream) migration.buffer arena) := h.sound.writeMerged hordered hlive
    refine h.write (hmirrored.writeMerged hordered hmirrored.current) ?_ fun other hsome=>?_
    · rw [← applyAll_issueOrder]
      refine (effect_writeMerged_self hordered hmirrored).trans ?_
      rw [← effect_writeMerged_of_ne hordered h.sound hne]
      rfl
    · rw [hmigration] at hsome
      cases hsome
      rw [← applyAll_issueOrder]
      exact (effect_writeMerged_of_ne hordered hmirrored (Ne.symm hne)).trans (effect_writeMerged_self hordered h.sound)

lemma Kept.writeWords (room : Room) (patch : Patch UInt8) (h : Kept device (arena,logical)) :
    Kept device (writeGeometryStreamWords device room patch arena,logical.write [patch]) := by
  have heffect : ∀ writes : List Write, effect device (writeBatch device arena.staging room id writes arena.uploads) =
        putWrites writes (effect device arena.uploads) := fun writes =>
    effect_writeBatch hordered h.sound.unstaged fun _ _ _=>rfl
  have hlive : ∀ write ∈ mirroredWords patch arena, device.live arena.uploads.device write.1 := by
    intro write hmem
    rcases mem_cons.1 hmem with rfl | hmem
    · exact h.sound.current
    · obtain ⟨migration,hmigration,rfl⟩ := mem_map.1 hmem
      exact (h.sound.replacement migration (Option.mem_toList.1 hmigration)).1
  have hcurrent : patchesOf arena.buffer (mirroredWords patch arena) = [patch] := by
    unfold mirroredWords
    cases hmigration : arena.migration with
    | none => simp [patchesOf]
    | some migration => simp [patchesOf,(h.sound.replacement migration hmigration).2.1]
  have hmirrored : ∀ migration, arena.migration=some migration →
      patchesOf migration.buffer (mirroredWords patch arena) = [patch] := by
    intro migration hmigration
    unfold mirroredWords
    rw [hmigration]
    simp [patchesOf,Ne.symm (h.sound.replacement migration hmigration).2.1]
  refine h.write (h.sound.writeBatch hordered hlive) ?_ fun migration hmigration=>?_
  · rw [heffect,putWrites_eq,hcurrent]
  · rw [heffect,putWrites_eq,hmirrored migration hmigration]

lemma Kept.flush (h : Kept device (arena,logical)) :
    Kept device ({ arena with uploads := Uploads.flush device arena.uploads },logical) where
  sound := {
    unstaged := fun _=>rfl
    current := hordered.live_submit _ _ _ h.sound.current
    copies := fun copy hmem=>absurd hmem not_mem_nil
    replacement := by
      intro migration hsome
      obtain ⟨hlive,hne,hle⟩ := h.sound.replacement migration hsome
      exact ⟨hordered.live_submit _ _ _ hlive,hne,hle⟩ }
  current := by
    rw [effect_flush hordered]
    exact h.current
  replacement := by
    intro migration hsome x
    rw [effect_flush hordered]
    exact h.replacement migration hsome x

/-- A replacement starts as another buffer, of zeros. -/
lemma Kept.begin {migration : ArenaMigration} {m : M} (h : Kept device (arena,logical))
    (hcreate : device.createBuffer arena.uploads.device=some (migration.buffer,m))
    (hcopied : migration.copiedBytes=0) :
    Kept device ({ arena with
      uploads := { arena.uploads with device := m }
      migration := some migration },logical.begin) := by
  obtain ⟨hfresh,hlive,hcontent⟩ := hordered.createBuffer _ _ _ hcreate
  have hkeeps : ∀ other, device.live arena.uploads.device other → device.live m other := fun other =>
    hordered.live_createBuffer _ _ _ other hcreate
  have hne : migration.buffer≠arena.buffer := by
    intro heq
    rw [heq] at hfresh
    exact hfresh h.sound.current
  refine ⟨⟨h.sound.unstaged,hkeeps _ h.sound.current, fun copy hmem=>hkeeps _ (h.sound.copies copy hmem),?_⟩,?_,?_⟩
  · intro other hsome
    cases hsome
    exact ⟨hlive,hne,hcopied ▸ Nat.zero_le _⟩
  · have hheld := h.current
    unfold effect at hheld ⊢
    rw [putWrites_eq] at hheld ⊢
    rw [hcontent,update_of_ne (Ne.symm hne)]
    exact hheld
  · intro other hsome x
    cases hsome
    have hnone : patchesOf migration.buffer arena.uploads.copies = [] := by
      unfold patchesOf
      rw [filter_eq_nil_iff.2,map_nil]
      intro copy hmem heq
      have heq := of_decide_eq_true heq
      exact hfresh (heq ▸ h.sound.copies copy hmem)
    have hoff : ¬(x < migration.copiedBytes ∨ logical.begin.written x=true) := by
      simp [hcopied,Logical.begin]
    refine Eq.trans ?_ (if_neg hoff).symm
    unfold effect
    rw [putWrites_eq,hnone,hcontent,update_self]
    rfl

def slicedUploads (device : Device M) (arena : Arena M) (migration : ArenaMigration) (slice : ℕ) :
    TerrainUploads M :=
  if 0 < slice then
    ⟨device.submit (arena.uploads.copies.map Command.upload ++
      [.copyBuffer arena.buffer migration.buffer migration.copiedBytes slice])
      arena.uploads.device,[]⟩
  else arena.uploads

/-- A slice carries the staged writes of its bytes with it. -/
lemma effect_slicedUploads (migration : ArenaMigration) (slice : ℕ) :
    effect device (slicedUploads device arena migration slice) =
      update (effect device arena.uploads) migration.buffer fun x =>
        if migration.copiedBytes≤x ∧ x < migration.copiedBytes+slice then effect device arena.uploads arena.buffer x
          else effect device arena.uploads migration.buffer x := by
  unfold slicedUploads
  split
  · unfold effect
    rw [hordered.submit,foldl_append,foldl_map]
    rfl
  · have hnone : ∀ x, ¬(migration.copiedBytes≤x ∧ x < migration.copiedBytes+slice) := by
      omega
    simp only [hnone,if_false]
    exact (update_eq_self _ _).symm

variable {migration : ArenaMigration}

lemma live_slicedUploads {slice buffer : ℕ} (h : device.live arena.uploads.device buffer) :
    device.live (slicedUploads device arena migration slice).device buffer := by
  unfold slicedUploads
  split
  · exact hordered.live_submit _ _ _ h
  · exact h

omit hordered in
lemma copies_slicedUploads {slice : ℕ} {copy : Write}
    (h : copy ∈ (slicedUploads device arena migration slice).copies) : copy ∈ arena.uploads.copies := by
  unfold slicedUploads at h
  split at h
  · cases h
  · exact h

/-- After a slice the replacement holds the content up to the new cursor. -/
lemma Kept.sliced (slice : ℕ) (h : Kept device (arena,logical)) (hmigration : arena.migration=some migration) (x : ℕ) :
    effect device (slicedUploads device arena migration slice) migration.buffer x =
      if x < migration.copiedBytes+slice ∨ logical.written x=true
        then logical.content x else 0 := by
  rw [effect_slicedUploads hordered,update_self]
  have hcurrent : effect device arena.uploads arena.buffer=logical.content := h.current
  have hheld := h.replacement migration hmigration x
  by_cases hrange : migration.copiedBytes≤x ∧ x < migration.copiedBytes+slice
  · rw [if_pos hrange,if_pos (.inl hrange.2),hcurrent]
  · rw [if_neg hrange,hheld]
    refine if_congr (or_congr_left ?_) rfl rfl
    omega

omit hordered in
/-- A step of a migration slices the copy, and swaps the buffers when nothing is left. -/
lemma advanceArenaMigration_eq (device : Device M) (allowance : ℕ) (hmigration : arena.migration=some migration) :
    ∃ slice, migration.copiedBytes+slice ≤ max migration.copiedBytes migration.copyBytes ∧
      advanceArenaMigration device allowance arena = if migration.copiedBytes+slice=migration.copyBytes then
          { arena with
            uploads := slicedUploads device arena migration slice
            buffer := migration.buffer
            capacity := migration.newCapacity
            migration := none }
        else
          { arena with
            uploads := slicedUploads device arena migration slice
            migration := some { migration with copiedBytes := migration.copiedBytes+slice } } := by
  refine ⟨min (migration.copyBytes-migration.copiedBytes) (allowance/4*4),by omega,?_⟩
  unfold advanceArenaMigration
  rw [hmigration]
  rfl

lemma Kept.advance (allowance : ℕ) (h : Kept device (arena,logical)) :
    Kept device (Event.run device (arena,logical) (.advance allowance)) := by
  cases hmigration : arena.migration with
  | none =>
    refine h.idle ?_ rfl
    change advanceArenaMigration device allowance arena=arena
    rw [advanceArenaMigration,hmigration]
  | some migration =>
    obtain ⟨hlive,hne,hle⟩ := h.sound.replacement migration hmigration
    obtain ⟨slice,hbound,hstep⟩ := advanceArenaMigration_eq device allowance hmigration
    rw [max_eq_right hle] at hbound
    have hsliced := h.sliced hordered slice hmigration
    have hcurrent : effect device (slicedUploads device arena migration slice) arena.buffer =
        logical.content := by
      rw [effect_slicedUploads hordered,update_of_ne (Ne.symm hne)]
      exact h.current
    have hunstaged : arena.staging=false → (slicedUploads device arena migration slice).copies = [] := fun hoff =>
      eq_nil_iff_forall_not_mem.2 fun copy hmem =>
        absurd (copies_slicedUploads hmem) (h.sound.unstaged hoff ▸ not_mem_nil)
    have hcopies : ∀ copy ∈ (slicedUploads device arena migration slice).copies,
        device.live (slicedUploads device arena migration slice).device copy.1 := fun copy hmem =>
      live_slicedUploads hordered (h.sound.copies copy (copies_slicedUploads hmem))
    unfold Event.run
    dsimp only [Event.step,Event.patches]
    rw [hstep,hmigration,Logical.write_nil]
    by_cases hdone : migration.copiedBytes+slice=migration.copyBytes
    · rw [if_pos hdone]
      refine ⟨⟨hunstaged,live_slicedUploads hordered hlive,hcopies,fun _ hsome=>by cases hsome⟩,
        funext fun x=>?_,fun _ hsome=>by cases hsome⟩
      rw [hdone] at hsliced
      exact hsliced x
    · rw [if_neg hdone]
      refine ⟨⟨hunstaged,live_slicedUploads hordered h.sound.current,hcopies,?_⟩,hcurrent,?_⟩
      · intro other hsome
        cases hsome
        exact ⟨live_slicedUploads hordered hlive,hne,hbound⟩
      · intro other hsome x
        cases hsome
        exact hsliced x

variable {ledger : Ledger M}

/-- At the swap the new buffer holds what was copied or written, and the old one everything. -/
lemma Kept.swapped {migration : ArenaMigration} {allowance : ℕ}
    (h : Kept device ledger) (hmigration : ledger.1.migration=some migration)
    (hdone : (advanceArenaMigration device allowance ledger.1).migration=none) :
    let swapped := advanceArenaMigration device allowance ledger.1
    swapped.buffer=migration.buffer ∧ swapped.capacity=migration.newCapacity ∧
      (∀ x, x < migration.copyBytes ∨ ledger.2.written x=true →
        effect device swapped.uploads swapped.buffer x=ledger.2.content x) ∧
      effect device swapped.uploads ledger.1.buffer=ledger.2.content := by
  obtain ⟨slice,-,hstep⟩ := advanceArenaMigration_eq device allowance hmigration
  rw [hstep] at hdone ⊢
  by_cases hsum : migration.copiedBytes+slice=migration.copyBytes
  · rw [if_pos hsum]
    refine ⟨rfl,rfl,fun x hheld=>?_,?_⟩
    · refine (h.sliced hordered slice hmigration x).trans (if_pos ?_)
      rw [hsum]
      exact hheld
    · refine Eq.trans ?_ h.current
      rw [effect_slicedUploads hordered, update_of_ne (Ne.symm (h.sound.replacement migration hmigration).2.1)]
  · rw [if_neg hsum] at hdone
    cases hdone

lemma Kept.grow (used wanted requiredLen maxItems : ℕ) (h : Kept device (arena,logical)) :
    Kept device (Event.run device (arena,logical) (.grow used wanted requiredLen maxItems)) := by
  have hidle (hstep : Uploads.grow device used wanted requiredLen maxItems arena=arena) :
      Kept device (Event.run device (arena,logical) (.grow used wanted requiredLen maxItems)) :=
    h.idle hstep rfl
  cases hmigration : arena.migration with
  | some migration => exact hidle (by rw [Uploads.grow,hmigration])
  | none =>
    cases hplan : planArenaGrowth arena.capacity requiredLen arena.stream.itemBytes maxItems with
    | none => exact hidle (by rw [Uploads.grow,hmigration,hplan])
    | some plan =>
      cases plan with
      | none => exact hidle (by rw [Uploads.grow,hmigration,hplan])
      | some growth =>
        cases hcreate : device.createBuffer arena.uploads.device with
        | none =>
          refine hidle ?_
          rw [Uploads.grow,hmigration,hplan]
          dsimp only
          rw [beginArenaMigration,hcreate]
        | some created =>
          unfold Event.run
          dsimp only [Event.step,Event.patches]
          rw [Uploads.grow,hmigration,hplan]
          dsimp only
          rw [beginArenaMigration,hcreate,Logical.write_nil]
          exact h.begin hordered hcreate rfl

omit hordered in
lemma migration_issue (mirrorRoom room : Room) (writes : List PartWrite) :
    (Uploads.issue device mirrorRoom room writes arena).migration=arena.migration := by
  unfold Uploads.issue
  dsimp only
  split
  · rfl
  · rw [writeMerged]
    cases hmigration : arena.migration with
    | none => exact hmigration
    | some migration => exact hmigration

/-- Every event keeps the arena with its logical content. -/
lemma Kept.run (event : Event) (h : Kept device ledger) : Kept device (Event.run device ledger event) := by
  obtain ⟨arena,logical⟩ := ledger
  cases event with
  | issue mirrorRoom room writes =>
    rw [run_of_same_migration (.issue mirrorRoom room writes) (migration_issue mirrorRoom room writes)]
    exact h.issue hordered mirrorRoom room writes
  | writeWords room patch =>
    rw [run_of_same_migration (.writeWords room patch) rfl]
    exact h.writeWords hordered room patch
  | grow used wanted requiredLen maxItems => exact h.grow hordered used wanted requiredLen maxItems
  | advance allowance => exact h.advance hordered allowance
  | flush =>
    rw [run_of_same_migration .flush rfl]
    change Kept device (_,logical.write [])
    rw [Logical.write_nil]
    exact h.flush hordered

lemma Kept.runs (events : List Event) (h : Kept device ledger) :
    Kept device (events.foldl (Event.run device) ledger) := by
  induction events generalizing ledger with
  | nil => exact h
  | cons event events ih => exact ih (h.run hordered event)

end Kept

section Capacities

lemma roundArenaCapacity_le (items maxItems : ℕ) : roundArenaCapacity items maxItems ≤ maxItems :=
  Nat.min_le_right _ _

lemma le_roundArenaCapacity {items maxItems required : ℕ} (husize : maxItems≤usizeMax)
    (hitems : required ≤ items) (hmax : required ≤ maxItems) :
    required ≤ roundArenaCapacity items maxItems := by
  unfold roundArenaCapacity saturatingMul
  generalize hgranule : max (((nextPowerOfTwo items).getD maxItems) / 8) 1=granule
  have hpos : 0<granule := by omega
  have hceil : items ≤ (items+granule-1) / granule*granule := by
    have hdiv := Nat.div_add_mod (items+granule-1) granule
    have hmod := Nat.mod_lt (items+granule-1) hpos
    rw [Nat.mul_comm] at hdiv
    omega
  exact le_min (le_min (hitems.trans hceil) (hmax.trans husize)) hmax

variable {growth : ArenaGrowthPlan}

lemma planArenaGrowth_bounds {currentCapacity required itemBytes maxItems : ℕ} (husize : maxItems≤usizeMax)
    (h : planArenaGrowth currentCapacity required itemBytes maxItems=some (some growth)) :
    required≤growth.newCapacity ∧ growth.newCapacity ≤ maxItems := by
  unfold planArenaGrowth at h
  split at h
  · cases h
  rename_i hmax
  split at h
  · cases h
  cases h
  exact ⟨le_roundArenaCapacity husize (le_max_left _ _) (Nat.le_of_not_lt hmax), roundArenaCapacity_le _ _⟩

lemma backlogGrowth_bounds {used wanted itemBytes maxItems required : ℕ}
    (husize : maxItems≤usizeMax) (hrequired : required≤growth.newCapacity)
    (hmax : growth.newCapacity ≤ maxItems) :
    required ≤ (backlogGrowth used wanted itemBytes maxItems growth).newCapacity ∧
      (backlogGrowth used wanted itemBytes maxItems growth).newCapacity ≤ maxItems :=
  ⟨le_roundArenaCapacity husize (hrequired.trans (le_max_right _ _)) (hrequired.trans hmax), roundArenaCapacity_le _ _⟩

end Capacities

section Memory

/-- Buffers numbered in the order of their creation. -/
structure Memory where
  content : ℕ → ℕ → UInt8
  buffers : ℕ

def memoryDevice : Device Memory where
  live m buffer := buffer < m.buffers
  content := Memory.content
  writeBuffer write m := { m with content := putWrite write m.content }
  submit commands m := { m with content := commands.foldl Command.run m.content }
  createBuffer m :=
    some (m.buffers,⟨update m.content m.buffers fun _=>0,m.buffers+1⟩)

lemma ordered_memoryDevice : memoryDevice.Ordered where
  writeBuffer _ _ := rfl
  submit _ _ := rfl
  createBuffer := by
    intro m buffer m' h
    cases h
    exact ⟨Nat.lt_irrefl _,Nat.lt_succ_self _,rfl⟩
  live_writeBuffer _ _ _ h := h
  live_submit _ _ _ h := h
  live_createBuffer := by
    intro m buffer m' other h hlive
    cases h
    exact Nat.lt_succ_of_lt hlive

end Memory

section Survival

variable {M : Type} {device : Device M}

def initialLedger (device : Device M) (m : M) (stream : ArenaStream) (staging : Bool)
    (buffer capacity : ℕ) : Ledger M :=
  (⟨⟨m,[]⟩,stream,staging,buffer,capacity,none⟩,⟨device.content m buffer,fun _=>false⟩)

lemma kept_initialLedger {m : M} {buffer : ℕ} (h : device.live m buffer) (stream : ArenaStream)
    (staging : Bool) (capacity : ℕ) :
    Kept device (initialLedger device m stream staging buffer capacity) where
  sound := {
    unstaged := fun _=>rfl
    current := h
    copies := fun copy hmem=>absurd hmem not_mem_nil
    replacement := fun _ hsome=>by cases hsome }
  current := rfl
  replacement := fun _ hsome=>by cases hsome

/-- An arena holds what its writes say across merging and growth. -/
theorem arena_writes_survive (hordered : device.Ordered) {m : M} {buffer : ℕ}
    (hlive : device.live m buffer) (stream : ArenaStream) (staging : Bool) (capacity : ℕ)
    (events : List Event) :
    let ledger := events.foldl (Event.run device) (initialLedger device m stream staging buffer capacity)
    effect device ledger.1.uploads ledger.1.buffer = ledger.2.content ∧
      (∀ allowance migration, ledger.1.migration = some migration →
        let swapped := advanceArenaMigration device allowance ledger.1
        swapped.migration = none → swapped.buffer=migration.buffer ∧ swapped.capacity=migration.newCapacity ∧
            (∀ x, x < migration.copyBytes ∨ ledger.2.written x=true →
              effect device swapped.uploads swapped.buffer x = ledger.2.content x) ∧
            effect device swapped.uploads ledger.1.buffer = ledger.2.content) ∧
      (∀ overlapped buffer (patches : List (Patch UInt8)) contents,
        putWrites (queueMerged overlapped (patches.map fun patch => (buffer,patch))) contents =
          putWrites (patches.map fun patch => (buffer,patch)) contents) ∧
      ∀ current required itemBytes maxItems used wanted growth, maxItems ≤ usizeMax →
        planArenaGrowth current required itemBytes maxItems = some (some growth) →
          (required ≤ growth.newCapacity ∧ growth.newCapacity ≤ maxItems) ∧
            let sized := backlogGrowth used wanted itemBytes maxItems growth
            required ≤ sized.newCapacity ∧ sized.newCapacity ≤ maxItems := by
  have hkept := (kept_initialLedger hlive stream staging capacity).runs hordered events
  refine ⟨hkept.current,?_,?_,?_⟩
  · intro allowance migration hmigration swapped hdone
    exact hkept.swapped hordered hmigration hdone
  · intro overlapped buffer patches contents
    have hsame : ∀ write ∈ patches.map fun patch => (buffer,patch), write.1=buffer := by
      intro write hmem
      obtain ⟨patch,-,rfl⟩ := mem_map.1 hmem
      rfl
    exact putWrites_queueMerged hsame
  · intro current required itemBytes maxItems used wanted growth husize hplan
    obtain ⟨hrequired,hmax⟩ := planArenaGrowth_bounds husize hplan
    exact ⟨⟨hrequired,hmax⟩,backlogGrowth_bounds husize hrequired hmax⟩

end Survival

section Overlaps

/-- Buffers of sevens, of which the arena has the first. -/
def sevens : Memory := ⟨fun _ _=>7,1⟩

/-- A growth of one item in use, written while it was copied. -/
theorem arena_writes_survive_sevens :
    let ledger := [Event.grow 1 4 2 4,.writeWords none ⟨0,[3]⟩].foldl (Event.run memoryDevice)
      (initialLedger memoryDevice sevens .geometryStreams false 0 1)
    let swapped := advanceArenaMigration memoryDevice 4 ledger.1
    swapped.buffer = 1 ∧
      effect memoryDevice swapped.uploads swapped.buffer 0 = ledger.2.content 0 := by
  have hswapped := (arena_writes_survive ordered_memoryDevice (m := sevens) Nat.zero_lt_one
    .geometryStreams false 1 [.grow 1 4 2 4,.writeWords none ⟨0,[3]⟩]).2.1 4 ⟨1,4,4,0⟩ rfl rfl
  exact ⟨hswapped.1,hswapped.2.2.1 0 (.inl (by decide))⟩

/-- Two writes of one issue at one address. -/
def overlappingWrites : List PartWrite :=
  [⟨.cubeLighting,⟨0,[1,1,1,1]⟩⟩,⟨.model,⟨0,[2,2,2,2]⟩⟩]

def sevensArena : Arena Memory := (initialLedger memoryDevice sevens .geometryStreams false 0 1).1

def grownArena : Arena Memory :=
  advanceArenaMigration memoryDevice 4 (grow memoryDevice 0 2 2 4 sevensArena)

/-- Writes of one issue that overlap are ordered by their parts, not as they were collected; and
a growth loses what was neither in use when it began nor written since. -/
theorem later_write_overwritten :
    (effect memoryDevice (issue memoryDevice none none overlappingWrites sevensArena).uploads 0 0=1 ∧
      applyAll (overlappingWrites.map PartWrite.patch) (fun _=>7) 0=2) ∧
    grownArena.migration.isNone ∧ grownArena.buffer=1 ∧ grownArena.capacity=2 ∧
      effect memoryDevice sevensArena.uploads 0 0=7 ∧
        effect memoryDevice grownArena.uploads 1 0=0 := by
  refine ⟨⟨?_,by decide⟩,by decide⟩
  have hkept : Kept memoryDevice (initialLedger memoryDevice sevens .geometryStreams false 0 1) :=
    kept_initialLedger Nat.zero_lt_one .geometryStreams false 1
  have hissued := (hkept.issue ordered_memoryDevice none none overlappingWrites).current
  have hsorted : byPart (overlappingWrites.filter fun write => write.part.destination = .geometryStreams) =
        [⟨.model,⟨0,[2,2,2,2]⟩⟩,⟨.cubeLighting,⟨0,[1,1,1,1]⟩⟩] := by
    change byPart overlappingWrites = _
    simp [byPart,overlappingWrites,List.mergeSort,Part.order]
  have hcontent := congrFun hissued 0
  refine Eq.trans hcontent ?_
  change applyAll ((byPart (overlappingWrites.filter
    fun write => write.part.destination = .geometryStreams)).map PartWrite.patch) (fun _=>7) 0=1
  rw [hsorted]
  rfl

end Overlaps

end Cinnabar.Uploads
