import Cinnabar.Ingest.Lanes

/-! # What the committer accounts for -/

namespace Cinnabar.Ingest

namespace OrderedCommitState

variable {S V O : Type} {s s' : OrderedCommitState S V O} {Known : ℕ → Prop} {kept : List ℕ}

/-- Whether a sequence holds an ingress reservation, and whether that has light credit. -/
def reservation (s : OrderedCommitState S V O) (sequence : ℕ) : Option Bool :=
  match s.entries.lookup sequence with
  | some ⟨_,.ingress lightReserved,_⟩ => some lightReserved
  | _ => none

structure Working (s : OrderedCommitState S V O) (Known : ℕ → Prop) : Prop where
  applying : ∀ {a}, s.applying=some a → Known a ∧ ∀ {b}, s.blockUpdateRangeEnd=some b → ∀ n, a≤n → n≤b → Known n
  idle : s.applying=none → s.blockUpdateRangeEnd=none
  /-- A partial batch is no burst. -/
  batch : ∀ {p}, s.pendingSubChunks=some p → s.applying=some p.sequence → s.blockUpdateRangeEnd=none
  pending : ∀ {p}, s.pendingSubChunks=some p → Known p.sequence
  blocking : ∀ {a b}, s.blockingBlockUpdates=some (a,b) → ∀ n, a≤n → n≤b → Known n

structure Finished (s : OrderedCommitState S V O) (Known : ℕ → Prop) : Prop where
  frontier : 0 < s.frontier
  below : ∀ n, 0<n → n < s.frontier → Known n
  covers : ∀ n, s.finished.Covers n → Known n

/-- The retained payloads `kept` hold the ingress reservations; what else is ordered is `Known`. -/
structure Accounted (s : OrderedCommitState S V O) (Known : ℕ → Prop) (kept : List ℕ) : Prop where
  working : s.Working Known
  finished : s.Finished Known
  reserved : ∀ n, n ∈ kept ↔ (s.reservation n).isSome
  nodup : kept.Nodup
  waiting : ∀ {n entry}, s.entries.lookup n=some entry → (s.reservation n).isSome →
    ∃ footprint reserved, entry = ⟨footprint,.ingress reserved,.waiting⟩
  known : ∀ {n}, (s.entries.lookup n).isSome → s.reservation n=none → Known n
  /-- The partial batch was popped. -/
  popped : ∀ {p}, s.pendingSubChunks=some p → ∀ {entry}, s.entries.lookup p.sequence=some entry → entry.slot = .active
  ingress : s.ingress=kept.length
  ingressLight : s.ingressLight=kept.countP fun n=>s.reservation n=some true

/-- Every operation leaves the reservations, and counts nothing, of retained ingress. -/
structure Spares (s s' : OrderedCommitState S V O) : Prop where
  reservation : ∀ n, s'.reservation n=s.reservation n
  ingress : s'.ingress=s.ingress
  ingressLight : s'.ingressLight=s.ingressLight
  waiting : ∀ {n}, (s.reservation n).isSome → s'.entries.lookup n=s.entries.lookup n

lemma Spares.refl (s : OrderedCommitState S V O) : Spares s s :=
  ⟨fun _=>rfl,rfl,rfl,fun _=>rfl⟩

variable {s'' : OrderedCommitState S V O}

lemma Spares.trans (h : Spares s s') (h' : Spares s' s'') : Spares s s'' where
  reservation := fun n=>(h'.reservation n).trans (h.reservation n)
  ingress := h'.ingress.trans h.ingress
  ingressLight := h'.ingressLight.trans h.ingressLight
  waiting := fun {n} hn=>(h'.waiting (by rw [h.reservation]; exact hn)).trans (h.waiting hn)

lemma Accounted.spared (h : s.Accounted Known kept) (hs : Spares s s')
    (hworking : s'.Working Known) (hfinished : s'.Finished Known)
    (hknown : ∀ {n}, (s'.entries.lookup n).isSome → s'.reservation n=none → Known n)
    (hpopped : ∀ {p}, s'.pendingSubChunks=some p → ∀ {entry},
      s'.entries.lookup p.sequence=some entry → entry.slot = .active) :
    s'.Accounted Known kept where
  working := hworking
  finished := hfinished
  reserved := fun n=>by rw [hs.reservation,h.reserved]
  nodup := h.nodup
  waiting := by
    intro n entry hentry hn
    rw [hs.reservation] at hn
    rw [hs.waiting hn] at hentry
    exact h.waiting hentry hn
  known := hknown
  popped := hpopped
  ingress := hs.ingress.trans h.ingress
  ingressLight := by
    rw [hs.ingressLight,h.ingressLight]
    simp only [hs.reservation]

lemma Accounted.mono (h : s.Accounted Known kept) {Known' : ℕ → Prop}
    (hle : ∀ n, Known n → Known' n) : s.Accounted Known' kept where
  working :=
    { applying := fun ha=>⟨hle _ (h.working.applying ha).1,fun hb n hlow hhigh =>
        hle n ((h.working.applying ha).2 hb n hlow hhigh)⟩
      idle := h.working.idle
      batch := h.working.batch
      pending := fun hp=>hle _ (h.working.pending hp)
      blocking := fun hb n hlow hhigh=>hle n (h.working.blocking hb n hlow hhigh) }
  finished :=
    { frontier := h.finished.frontier
      below := fun n hn hlt=>hle n (h.finished.below n hn hlt)
      covers := fun n hn=>hle n (h.finished.covers n hn) }
  __ := h
  known := fun hn hr=>hle _ (h.known hn hr)

/-- A sequence is finished only when it was handed over. -/
lemma Finished.isFinished (h : s.Finished Known) {n : ℕ} (hn : 0<n) (hfinished : s.isFinished n=true) : Known n := by
  unfold OrderedCommitState.isFinished at hfinished
  rw [Bool.or_eq_true,decide_eq_true_eq,decide_eq_true_eq] at hfinished
  rcases hfinished with hlt | hle
  · exact h.below n hn hlt
  · exact h.covers n (Runs.covers_of_le_through hn hle)

variable {n : ℕ}

lemma reservation_congr (h : s'.entries.lookup n=s.entries.lookup n) : s'.reservation n=s.reservation n := by
  unfold reservation
  rw [h]

variable {entry : Entry S V O}

lemma reservation_eq_none (h : s.entries.lookup n=some entry)
    (hheld : ∀ reserved, entry.held ≠ .ingress reserved) : s.reservation n=none := by
  unfold reservation
  rw [h]
  obtain ⟨footprint,held,slot⟩ := entry
  cases held with
  | ingress reserved => exact absurd rfl (hheld reserved)
  | light => rfl
  | heavy => rfl
  | deferred => rfl

lemma reservation_of_lookup_none (h : s.entries.lookup n=none) : s.reservation n=none := by
  unfold reservation
  rw [h]

lemma Spares.of_touched (touched : ℕ → Prop) (hne : ∀ n, touched n → s.reservation n=none)
    (hnew : ∀ n, touched n → s'.reservation n=none)
    (hsame : ∀ n, ¬touched n → s'.entries.lookup n=s.entries.lookup n)
    (hingress : s'.ingress=s.ingress) (hlight : s'.ingressLight=s.ingressLight) :
    Spares s s' where
  reservation := by
    intro n
    by_cases hn : touched n
    · rw [hne n hn,hnew n hn]
    · exact reservation_congr (hsame n hn)
  ingress := hingress
  ingressLight := hlight
  waiting := by
    intro n hn
    by_cases ht : touched n
    · rw [hne n ht] at hn
      cases hn
    · exact hsame n ht

/-- Work under way depends on a few fields alone. -/
lemma Working.congr (h : s.Working Known) (happlying : s'.applying=s.applying)
    (hrange : s'.blockUpdateRangeEnd=s.blockUpdateRangeEnd)
    (hpending : s'.pendingSubChunks=s.pendingSubChunks)
    (hblocking : s'.blockingBlockUpdates=s.blockingBlockUpdates) : s'.Working Known where
  applying := by
    rw [happlying,hrange]
    exact h.applying
  idle := by
    rw [happlying,hrange]
    exact h.idle
  batch := by
    rw [happlying,hrange,hpending]
    exact h.batch
  pending := by
    rw [hpending]
    exact h.pending
  blocking := by
    rw [hblocking]
    exact h.blocking

lemma Finished.congr (h : s.Finished Known) (hfinished : s'.finished=s.finished)
    (hfrontier : s'.frontier=s.frontier) : s'.Finished Known where
  frontier := by
    rw [hfrontier]
    exact h.frontier
  below := by
    rw [hfrontier]
    exact h.below
  covers := by
    rw [hfinished]
    exact h.covers

lemma Accounted.write (h : s.Accounted Known kept) (entry : Entry S V O)
    (hentry : ∀ reserved, entry.held ≠ .ingress reserved) (hn : Known n)
    (hfree : s.reservation n=none) (hentries : s'.entries=s.entries.insert n entry)
    (hworking : s'.Working Known) (hfinished : s'.Finished Known) (hingress : s'.ingress=s.ingress)
    (hlight : s'.ingressLight=s.ingressLight) (hpending : s'.pendingSubChunks=s.pendingSubChunks)
    (hslot : ∀ {p}, s.pendingSubChunks=some p → p.sequence=n → entry.slot = .active) :
    s'.Accounted Known kept ∧ Spares s s' := by
  have hself : s'.entries.lookup n=some entry := by
    rw [hentries,Finmap.lookup_insert]
  have hother : ∀ m, m≠n → s'.entries.lookup m=s.entries.lookup m := by
    intro m hm
    rw [hentries,Finmap.lookup_insert_of_ne _ hm]
  have hspares : Spares s s' := by
    refine Spares.of_touched (fun m=>m=n) ?_ ?_ hother hingress hlight
    · rintro m rfl
      exact hfree
    · rintro m rfl
      exact reservation_eq_none hself hentry
  refine ⟨h.spared hspares hworking hfinished (fun {m} hm hnone=>?_) fun {p} hp e he=>?_,hspares⟩
  · by_cases hmn : m=n
    · rw [hmn]
      exact hn
    · rw [hother m hmn] at hm
      rw [hspares.reservation] at hnone
      exact h.known hm hnone
  · rw [hpending] at hp
    by_cases hpn : p.sequence=n
    · rw [hpn,hself] at he
      cases he
      exact hslot hp hpn
    · rw [hother _ hpn] at he
      exact h.popped hp he

lemma release_ingress (h : s.reservation n=none) :
    (s.release n).ingress=s.ingress ∧ (s.release n).ingressLight=s.ingressLight := by
  unfold release
  unfold reservation at h
  cases hn : s.entries.lookup n with
  | none => exact ⟨rfl,rfl⟩
  | some entry =>
    obtain ⟨footprint,held,slot⟩ := entry
    rw [hn] at h
    cases held with
    | light => exact ⟨rfl,rfl⟩
    | heavy => exact ⟨rfl,rfl⟩
    | deferred => exact ⟨rfl,rfl⟩
    | ingress reserved => cases h

lemma Accounted.release (h : s.Accounted Known kept) {n : ℕ} (hfree : s.reservation n=none) :
    (s.release n).Accounted Known kept ∧ Spares s (s.release n) := by
  obtain ⟨hfinished,hfrontier,happlying,hpending,hblocking,hrange⟩ := release_fields (s := s) n
  obtain ⟨hingress,hlight⟩ := release_ingress hfree
  have hspares : Spares s (s.release n) := by
    refine Spares.of_touched (fun m=>m=n) ?_ ?_ ?_ hingress hlight
    · rintro m rfl
      exact hfree
    · rintro m rfl
      exact reservation_of_lookup_none (by rw [lookup_release,if_pos rfl])
    · intro m hm
      rw [lookup_release,if_neg hm]
  refine ⟨h.spared hspares (h.working.congr happlying hrange hpending hblocking)
    (h.finished.congr hfinished hfrontier) (fun {m} hm hnone=>?_) fun {p} hp e he=>?_,hspares⟩
  · rw [lookup_release] at hm
    split_ifs at hm with hmn
    · cases hm
    · rw [hspares.reservation] at hnone
      exact h.known hm hnone
  · rw [hpending] at hp
    rw [lookup_release] at he
    split_ifs at he
    exact h.popped hp he

lemma Accounted.releases (h : s.Accounted Known kept) {sequences : List ℕ}
    (hfree : ∀ n ∈ sequences, s.reservation n=none) :
    (sequences.foldl OrderedCommitState.release s).Accounted Known kept ∧
      Spares s (sequences.foldl OrderedCommitState.release s) ∧
      (sequences.foldl OrderedCommitState.release s).finished=s.finished ∧
      (sequences.foldl OrderedCommitState.release s).frontier=s.frontier := by
  induction sequences generalizing s with
  | nil => exact ⟨h,.refl s,rfl,rfl⟩
  | cons n rest ih =>
    obtain ⟨hnext,hspares⟩ := h.release (hfree n (.head _))
    obtain ⟨hfinished,hfrontier,-⟩ := release_fields (s := s) n
    obtain ⟨hall,hrest,hfinished',hfrontier'⟩ := ih hnext fun m hm=>by
      rw [hspares.reservation]
      exact hfree m (.tail _ hm)
    exact ⟨hall,hspares.trans hrest,hfinished'.trans hfinished,hfrontier'.trans hfrontier⟩

/-- Finishing a range that was handed over. -/
lemma Accounted.releaseRange (h : s.Accounted Known kept) (start last : ℕ)
    (hknown : ∀ n, start≤n → n≤last → Known n) (hapart : ∀ n ∈ kept, ¬Known n) :
    (s.releaseRange start last).Accounted Known kept ∧ Spares s (s.releaseRange start last) := by
  have hfree : ∀ n ∈ List.range' start (last+1-start), s.reservation n=none := by
    intro n hn
    rw [List.mem_range'_1] at hn
    by_contra hsome
    refine hapart n ((h.reserved n).2 (Option.isSome_iff_ne_none.2 hsome)) (hknown n hn.1 ?_)
    omega
  obtain ⟨hall,hspares,hfinished,hfrontier⟩ := h.releases hfree
  unfold OrderedCommitState.releaseRange
  dsimp only
  split_ifs with hnone hrun
  · exact ⟨hall,hspares⟩
  all_goals
    rw [hfinished] at *
    rw [hfrontier] at *
    have hcovers : ∀ m, ((s.finished.merge (start,last)).1.1 ≤ m ∧
        m ≤ (s.finished.merge (start,last)).1.2) ∨ (s.finished.merge (start,last)).2.Covers m →
        Known m := by
      intro m hm
      rcases Runs.covers_merge hm with hm | hm
      · exact hknown m hm.1 hm.2
      · exact h.finished.covers m hm
  · refine ⟨⟨hall.working.congr rfl rfl rfl rfl,⟨Nat.succ_pos _,fun n hn hlt=>?_,fun n hn =>
      hcovers n (.inr hn)⟩,hall.reserved,hall.nodup,hall.waiting,hall.known,
      hall.popped,hall.ingress,hall.ingressLight⟩,hspares.reservation,hspares.ingress,hspares.ingressLight,
      hspares.waiting⟩
    by_cases hold : n < s.frontier
    · exact h.finished.below n hn hold
    · exact hcovers n (.inl ⟨hrun.trans (not_lt.1 hold),Nat.le_of_lt_succ hlt⟩)
  · refine ⟨⟨hall.working.congr rfl rfl rfl rfl,⟨?_,?_,fun n hn=>?_⟩,hall.reserved,
      hall.nodup,hall.waiting,hall.known,hall.popped,hall.ingress,hall.ingressLight⟩,hspares.reservation,
      hspares.ingress,hspares.ingressLight,hspares.waiting⟩
    · exact h.finished.frontier
    · exact h.finished.below
    · exact hcovers n (Runs.covers_insert hn)

/-- Popping ready entries changes their slots alone. -/
structure Pops (s s' : OrderedCommitState S V O) : Prop where
  entries : s' = { s with entries := s'.entries }
  spares : Spares s s'
  isSome : ∀ n, (s'.entries.lookup n).isSome = (s.entries.lookup n).isSome

lemma Pops.refl (s : OrderedCommitState S V O) : Pops s s := ⟨rfl,.refl s,fun _=>rfl⟩

lemma Pops.trans (h : Pops s s') (h' : Pops s' s'') : Pops s s'' where
  entries := by
    rw [h'.entries,h.entries]
  spares := h.spares.trans h'.spares
  isSome := fun n=>(h'.isSome n).trans (h.isSome n)

variable {event : PreparedWorldEvent S V O}

lemma Accounted.not_reserved (h : s.Accounted Known kept) (hlook : s.entries.lookup n=some entry)
    (hslot : entry.slot = .ready event) : s.reservation n=none := by
  by_contra hsome
  obtain ⟨footprint,reserved,rfl⟩ := h.waiting hlook (Option.isSome_iff_ne_none.2 hsome)
  cases hslot

lemma Accounted.activate (h : s.Accounted Known kept) {n : ℕ} (hlook : s.entries.lookup n=some entry)
    (hslot : entry.slot = .ready event) :
    (s.activate n entry).Accounted Known kept ∧ Pops s (s.activate n entry) ∧ Known n := by
  have hfree := h.not_reserved hlook hslot
  have hn : Known n := h.known (by rw [hlook]; rfl) hfree
  have hheld : ∀ reserved, entry.held ≠ .ingress reserved := by
    intro reserved hheld
    obtain ⟨footprint,held,slot⟩ := entry
    subst hheld
    unfold reservation at hfree
    rw [hlook] at hfree
    cases hfree
  obtain ⟨haccounted,hspares⟩ : (s.activate n entry).Accounted Known kept ∧
      Spares s (s.activate n entry) := h.write { entry with slot := .active } hheld hn hfree rfl (h.working.congr rfl rfl rfl rfl)
    (h.finished.congr rfl rfl) rfl rfl rfl fun _ _=>rfl
  refine ⟨haccounted,⟨rfl,hspares,fun m=>?_⟩,hn⟩
  change ((s.entries.insert n _).lookup m).isSome=_
  by_cases hm : m=n
  · rw [hm,Finmap.lookup_insert,hlook]
    rfl
  · rw [Finmap.lookup_insert_of_ne _ hm]

/-- A burst merges sequences that were handed over. -/
lemma Accounted.takeAdjacent {take : OrderedCommitState S V O → ℕ →
      Option (List (BlockUpdateEvent V) × OrderedCommitState S V O)} (htake : TakesNext take)
    (h : s.Accounted Known kept) {start : ℕ} (last : ℕ)
    (hrange : ∀ n, start≤n → n≤last → Known n) (fuel : ℕ) :
    (takeAdjacent take fuel s last).2.2.Accounted Known kept ∧ Pops s (takeAdjacent take fuel s last).2.2 ∧
      ∀ n, start≤n → n ≤ (takeAdjacent take fuel s last).2.1 → Known n := by
  induction fuel generalizing s last with
  | zero => exact ⟨h,.refl s,hrange⟩
  | succ fuel ih =>
    unfold OrderedCommitState.takeAdjacent
    cases htaken : take s last with
    | none => exact ⟨h,.refl s,hrange⟩
    | some taken =>
      obtain ⟨packet,s'⟩ := taken
      obtain ⟨entry,event,hlook,hslot,rfl⟩ := htake s last packet s' htaken
      obtain ⟨hnext,hpops,hn⟩ := h.activate hlook hslot
      obtain ⟨hall,hrest,hknown⟩ := ih hnext (last+1) fun n hlow hhigh=>by
        rcases Nat.le_succ_iff.1 hhigh with hle | rfl
        · exact hrange n hlow hle
        · exact hn
      exact ⟨hall,hpops.trans hrest,hknown⟩

section

variable (h : s.Accounted Known kept)
include h

/-- The entries, the run under way and the credit of retained ingress stay as they are. -/
lemma Accounted.unchanged (s' : OrderedCommitState S V O) (hentries : s'.entries=s.entries)
    (hworking : s'.Working Known) (hfinished : s'.Finished Known) (hingress : s'.ingress=s.ingress)
    (hlight : s'.ingressLight=s.ingressLight)
    (hpopped : ∀ {p}, s'.pendingSubChunks=some p → ∀ {entry},
      s.entries.lookup p.sequence=some entry → entry.slot = .active) :
    s'.Accounted Known kept ∧ Spares s s' := by
  have hspares : Spares s s' := by
    refine Spares.of_touched (fun _=>False) (fun _=>False.elim) (fun _=>False.elim) (fun n _=>?_) hingress hlight
    rw [hentries]
  refine ⟨h.spared hspares hworking hfinished (fun {n} hn hnone=>?_) fun {p} hp e he=>?_,hspares⟩
  · rw [hentries] at hn
    rw [hspares.reservation] at hnone
    exact h.known hn hnone
  · rw [hentries] at he
    exact hpopped hp he

lemma Accounted.validated (hn : s.validateSequence n = .ok ()) : s.reservation n=none := by
  unfold validateSequence at hn
  split_ifs at hn with hheld
  rw [Bool.or_eq_true,not_or,Bool.not_eq_true,Bool.not_eq_true,Option.isSome_eq_false_iff,
    Option.isNone_iff_eq_none] at hheld
  exact reservation_of_lookup_none hheld.2

variable {footprint : Footprint}

/-- Admission into any lane of an event not submitted before. -/
lemma Accounted.insertEntry {n : ℕ} {held : Held} (hheld : ∀ reserved, held ≠ .ingress reserved) (hn : ¬Known n)
    (hvalid : s.validateSequence n = .ok ()) {light heavy deferred : ℕ} :
    ({ s with light := light, heavy := heavy, deferred := deferred }.insertEntry n footprint
      held).Accounted (fun m=>Known m ∨ m=n) kept ∧
      Spares s ({ s with light := light, heavy := heavy, deferred := deferred }.insertEntry n
        footprint held) := by
  have hmore : s.Accounted (fun m=>Known m ∨ m=n) kept := h.mono fun _=>.inl
  refine hmore.write ⟨footprint,held,.waiting⟩ hheld (.inr rfl) (h.validated hvalid) rfl
    (hmore.working.congr rfl rfl rfl rfl) (hmore.finished.congr rfl rfl) rfl rfl rfl ?_
  rintro p hp rfl
  exact absurd (h.working.pending hp) hn

lemma Accounted.admit {n retainedCommits : ℕ} (hn : ¬Known n)
    (hentry : s.admitEntry n footprint retainedCommits = .ok s' ∨
      s.admitDeferred n footprint retainedCommits = .ok s') :
    s'.Accounted (fun m=>Known m ∨ m=n) kept ∧ Spares s s' := by
  unfold OrderedCommitState.admitEntry OrderedCommitState.admitDeferred at hentry
  cases hvalid : s.validateSequence n with
  | error error =>
    rw [hvalid] at hentry
    rcases hentry with hentry | hentry <;> cases hentry
  | ok unit =>
    rw [hvalid] at hentry
    rcases hentry with hentry | hentry <;> split_ifs at hentry
    all_goals cases hentry
    all_goals exact h.insertEntry (by simp) hn hvalid

end

lemma held_of_not_reserved (hlook : s.entries.lookup n=some entry)
    (hfree : s.reservation n=none) (reserved : Bool) : entry.held ≠ .ingress reserved := by
  intro hheld
  obtain ⟨footprint,held,slot⟩ := entry
  subst hheld
  unfold reservation at hfree
  rw [hlook] at hfree
  cases hfree

section

variable (h : s.Accounted Known kept)
include h

lemma Accounted.rewrite {entry : Entry S V O}
    (entry' : Entry S V O) (hlook : s.entries.lookup n=some entry) (hfree : s.reservation n=none)
    (hheld : ∀ reserved, entry'.held ≠ .ingress reserved)
    (hslot : entry.slot = .active → entry'.slot = .active)
    (hentries : s'.entries=s.entries.insert n entry') (happlying : s'.applying=s.applying)
    (hrange : s'.blockUpdateRangeEnd=s.blockUpdateRangeEnd)
    (hpending : s'.pendingSubChunks=s.pendingSubChunks)
    (hblocking : s'.blockingBlockUpdates=s.blockingBlockUpdates)
    (hfinished : s'.finished=s.finished) (hfrontier : s'.frontier=s.frontier)
    (hingress : s'.ingress=s.ingress) (hlight : s'.ingressLight=s.ingressLight) :
    s'.Accounted Known kept ∧ Spares s s' := by
  refine h.write entry' hheld (h.known (by rw [hlook]; rfl) hfree) hfree hentries
    (h.working.congr happlying hrange hpending hblocking) (h.finished.congr hfinished hfrontier)
    hingress hlight hpending ?_
  rintro p hp rfl
  exact hslot (h.popped hp hlook)

variable {event : PreparedWorldEvent S V O}

lemma Accounted.insertReady {n : ℕ} (hfree : s.reservation n=none)
    (hready : s.insertReady n event = .ok s') : s'.Accounted Known kept ∧ Spares s s' := by
  unfold OrderedCommitState.insertReady at hready
  split at hready
  · next footprint held hlook =>
    cases hready
    have hheld := held_of_not_reserved hlook hfree
    exact h.rewrite ⟨footprint,held,.ready event⟩ hlook hfree hheld
      (fun hactive=>nomatch hactive) rfl rfl rfl rfl rfl rfl rfl rfl rfl
  · cases hready

lemma Accounted.promoteDeferred {n : ℕ} (hfree : s.reservation n=none) (hpromote : s.promoteDeferred n=some s') :
    s'.Accounted Known kept ∧ Spares s s' := by
  unfold OrderedCommitState.promoteDeferred at hpromote
  cases hlook : s.entries.lookup n with
  | none =>
    rw [hlook] at hpromote
    cases hpromote
  | some entry =>
    rw [hlook] at hpromote
    dsimp only at hpromote
    split_ifs at hpromote
    · cases hpromote
      exact h.rewrite { entry with held := .heavy } hlook hfree (by simp) id
        rfl rfl rfl rfl rfl rfl rfl rfl rfl
    · cases hpromote
      exact ⟨h,.refl s⟩

lemma Accounted.normalize {n : ℕ} (hfree : s.reservation n=none) :
    (s.normalize n).Accounted Known kept ∧ Spares s (s.normalize n) := by
  unfold OrderedCommitState.normalize
  cases hlook : s.entries.lookup n with
  | none => exact ⟨h,.refl s⟩
  | some entry =>
    have hheld := held_of_not_reserved hlook hfree
    exact h.rewrite { entry with footprint := { entry.footprint with heavy := false } }
      hlook hfree hheld id rfl rfl rfl rfl rfl rfl rfl rfl rfl

lemma Accounted.completeDecode {n : ℕ} (hfree : s.reservation n=none) (hapart : ∀ n ∈ kept, ¬Known n) {released : Bool}
    (hdecode : s.completeDecode n event = .ok (released,s')) :
    s'.Accounted Known kept ∧ Spares s s' := by
  have hready : ∀ {out : Except WorldStreamError (OrderedCommitState S V O)},
      (out.map fun s=>(false,s)) = .ok (released,s') → out = .ok s' := by
    intro out hout
    cases out with
    | error error => cases hout
    | ok s => cases hout; rfl
  unfold OrderedCommitState.completeDecode at hdecode
  cases hblocking : s.blockingBlockUpdates with
  | none =>
    rw [hblocking] at hdecode
    exact h.insertReady hfree (hready hdecode)
  | some range =>
    obtain ⟨start,last⟩ := range
    rw [hblocking] at hdecode
    dsimp only at hdecode
    split_ifs at hdecode with hcond
    · cases hdecode
      obtain ⟨hcleared,hspares⟩ := h.unchanged { s with blockingBlockUpdates := none } rfl
        ⟨h.working.applying,h.working.idle,h.working.batch,h.working.pending,
          fun hnone=>nomatch hnone⟩ (h.finished.congr rfl rfl) rfl rfl h.popped
      obtain ⟨hreleased,hspares'⟩ := hcleared.releaseRange n last
        (fun m hlow hhigh=>h.working.blocking hblocking m (by omega) hhigh) hapart
      exact ⟨hreleased,hspares.trans hspares'⟩
    · exact h.insertReady hfree (hready hdecode)

lemma Accounted.continueSubChunks {pending : PendingSubChunkCommit S} (hpending : s.pendingSubChunks=some pending)
    (hidle : s.applying=none) :
    (s.continueSubChunks pending).2.Accounted Known kept ∧
      Spares s (s.continueSubChunks pending).2 := by
  have hknown := h.working.pending hpending
  have hrange := h.working.idle hidle
  have happlying : ∀ {a}, some pending.sequence=some a → Known a ∧
      ∀ {b}, s.blockUpdateRangeEnd=some b → ∀ n, a≤n → n≤b → Known n := by
    intro a ha
    cases ha
    refine ⟨hknown,fun hb=>?_⟩
    rw [hrange] at hb
    cases hb
  unfold OrderedCommitState.continueSubChunks
  cases pending.entries with
  | nil =>
    exact h.unchanged _ rfl ⟨happlying,(fun hnone=>nomatch hnone),fun _ _=>hrange,
      h.working.pending,h.working.blocking⟩ (h.finished.congr rfl rfl) rfl rfl h.popped
  | cons entry rest =>
    refine h.unchanged _ rfl ⟨happlying,(fun hnone=>nomatch hnone),fun _ _=>hrange,
      fun hp=>?_,h.working.blocking⟩ (h.finished.congr rfl rfl) rfl rfl fun hp e he=>?_
    · cases hp
      exact hknown
    · cases hp
      exact h.popped hpending he

/-- Applying one popped event alone. -/
lemma Accounted.applyOne (hn : Known n) (hrange : s.blockUpdateRangeEnd=none) (heavy : Bool) :
    { s with lastStepHeavy := heavy, applying := some n }.Accounted Known kept ∧
      Spares s { s with lastStepHeavy := heavy, applying := some n } := by
  refine h.unchanged _ rfl ⟨fun ha=>?_,(fun hno=>nomatch hno),fun _ _=>hrange,
    h.working.pending,h.working.blocking⟩ (h.finished.congr rfl rfl) rfl rfl h.popped
  cases ha
  refine ⟨hn,fun hb=>?_⟩
  rw [hrange] at hb
  cases hb

lemma Accounted.applyBurst {n last : ℕ} (hn : Known n) (hknown : ∀ m, n ≤ m → m≤last → Known m)
    (hbatch : ∀ {p}, s.pendingSubChunks=some p → p.sequence≠n) (heavy : Bool) :
    { s with
      lastStepHeavy := heavy
      blockUpdateRangeEnd := some last
      applying := some n }.Accounted Known kept ∧
    Spares s { s with
      lastStepHeavy := heavy
      blockUpdateRangeEnd := some last
      applying := some n } := by
  refine h.unchanged _ rfl ⟨fun ha=>?_,(fun hno=>nomatch hno),fun hp ha=>?_,
    h.working.pending,h.working.blocking⟩ (h.finished.congr rfl rfl) rfl rfl h.popped
  · cases ha
    refine ⟨hn,fun hb=>?_⟩
    cases hb
    exact hknown
  · exact absurd (Option.some.inj ha).symm (hbatch hp)

variable {budget : CommitBudget}

lemma Accounted.popReady (hidle : s.applying=none) {n : ℕ} {step : CommitStep S V O}
    (hpop : s.popReady budget n=some (step,s')) : s'.Accounted Known kept ∧ Spares s s' := by
  unfold OrderedCommitState.popReady at hpop
  cases hlook : s.entries.lookup n with
  | none =>
    rw [hlook] at hpop
    cases hpop
  | some entry =>
    rw [hlook] at hpop
    dsimp only at hpop
    cases hslot : entry.slot with
    | waiting =>
      rw [hslot] at hpop
      cases hpop
    | active =>
      rw [hslot] at hpop
      cases hpop
    | ready event =>
      rw [hslot] at hpop
      obtain ⟨hactive,hpops,hn⟩ := h.activate hlook hslot
      have hone : ∀ heavy, { s.activate n entry with
          lastStepHeavy := heavy
          applying := some n }.Accounted Known kept ∧ Spares s { s.activate n entry with
          lastStepHeavy := heavy
          applying := some n } := by
        intro heavy
        obtain ⟨hdone,hspares⟩ := hactive.applyOne hn (h.working.idle hidle) heavy
        exact ⟨hdone,hpops.spares.trans hspares⟩
      -- the partial batch was popped, so it is not the entry found ready
      have hbatch : ∀ {t : OrderedCommitState S V O}, Pops (s.activate n entry) t →
          ∀ {p}, t.pendingSubChunks=some p → p.sequence≠n := by
        intro t ht p hp hpn
        rw [ht.entries] at hp
        have hpopped := h.popped (p := p) hp (by rw [hpn]; exact hlook)
        rw [hslot] at hpopped
        cases hpopped
      have hburst : ∀ out : List (List (BlockUpdateEvent V)) × ℕ × OrderedCommitState S V O,
          out.2.2.Accounted Known kept → Pops (s.activate n entry) out.2.2 →
          (∀ m, n ≤ m → m≤out.2.1 → Known m) → ∀ heavy,
          { out.2.2 with
            lastStepHeavy := heavy
            blockUpdateRangeEnd := some out.2.1
            applying := some n }.Accounted Known kept ∧
          Spares s { out.2.2 with
            lastStepHeavy := heavy
            blockUpdateRangeEnd := some out.2.1
            applying := some n } := by
        intro out haccounted hmerged hknown heavy
        obtain ⟨hdone,hspares⟩ := haccounted.applyBurst hn hknown (hbatch hmerged) heavy
        exact ⟨hdone,hpops.spares.trans (hmerged.spares.trans hspares)⟩
      have hstart : ∀ m, n ≤ m → m≤n → Known m := by
        intro m hlow hhigh
        rw [le_antisymm hhigh hlow]
        exact hn
      cases event with
      | subChunks dimension entries duration =>
        cases hpop
        obtain ⟨hdone,hspares⟩ := hactive.unchanged { s.activate n entry with
            pendingSubChunks := some ⟨n,dimension,entries,duration⟩ } rfl
          ⟨h.working.applying,h.working.idle,fun _ _=>h.working.idle hidle,fun hp=>by
            cases hp
            exact hn,h.working.blocking⟩ (h.finished.congr rfl rfl) rfl rfl fun hp e he=>by
            cases hp
            change (s.entries.insert n _).lookup n=some e at he
            rw [Finmap.lookup_insert] at he
            cases he
            rfl
        exact ⟨hdone,hpops.spares.trans hspares⟩
      | immediateBlockUpdates updates =>
        cases hpop
        split_ifs
        · obtain ⟨hall,hmerged,hknown⟩ := hactive.takeAdjacent (takesNext_blockUpdates budget)
            n hstart s.entries.keys.card
          exact hburst _ hall hmerged hknown _
        · exact hburst ([],n,s.activate n entry) hactive (.refl _) hstart _
      | immediateSyncedBlockUpdates updates =>
        dsimp only at hpop
        cases hkey : syncedUpdateKey updates with
        | none =>
          rw [hkey] at hpop
          cases hpop
          exact hburst ([],n,s.activate n entry) hactive (.refl _) hstart _
        | some key =>
          rw [hkey] at hpop
          cases hpop
          obtain ⟨hall,hmerged,hknown⟩ := hactive.takeAdjacent (takesNext_syncedUpdates key budget)
            n hstart s.entries.keys.card
          exact hburst _ hall hmerged hknown _
      | subChunk dimension item duration =>
        cases hpop
        exact hone _
      | blockUpdates result =>
        cases hpop
        exact hone _
      | syncedBlockUpdates result =>
        cases hpop
        exact hone _
      | commitOnly =>
        cases hpop
        exact hone _
      | other event =>
        cases hpop
        exact hone _

variable {step : Option (CommitStep S V O)}

lemma Accounted.takeFound (hidle : s.applying=none) {found : Option ℕ}
    (htake : s.takeFound budget found=some (step,s')) :
    s'.Accounted Known kept ∧ Spares s s' := by
  cases found with
  | none =>
    cases htake
    exact ⟨h,.refl s⟩
  | some n =>
    unfold OrderedCommitState.takeFound at htake
    dsimp only at htake
    split at htake
    · next pending hpending =>
      cases htake
      exact h.continueSubChunks (Option.filter_eq_some_iff.1 hpending).1 hidle
    · obtain ⟨out,hpopped,heq⟩ := Option.map_eq_some_iff.1 htake
      cases heq
      exact h.popReady hidle hpopped

lemma Accounted.nextCommitWithin (hnext : s.nextCommitWithin budget=some (step,s')) :
    s'.Accounted Known kept ∧ Spares s s' := by
  have hset : ∀ earlier : EarlierEvents, { s with lastStepHeavy := false, earlier := earlier }.Accounted Known kept ∧
        Spares s { s with lastStepHeavy := false, earlier := earlier } := fun earlier =>
    h.unchanged _ rfl (h.working.congr rfl rfl rfl rfl) (h.finished.congr rfl rfl) rfl rfl h.popped
  unfold OrderedCommitState.nextCommitWithin at hnext
  dsimp only at hnext
  split_ifs at hnext with happlying
  · cases hnext
    exact hset s.earlier
  all_goals
    rw [Option.not_isSome_iff_eq_none] at happlying
    split at hnext
  · next pending hpending =>
    cases hnext
    obtain ⟨hstart,hspares⟩ := hset s.earlier
    obtain ⟨hdone,hspares'⟩ := hstart.continueSubChunks hpending happlying
    exact ⟨hdone,hspares.trans hspares'⟩
  · obtain ⟨hstart,hspares⟩ := hset ({ s with lastStepHeavy := false }.findUnblocked budget).2
    obtain ⟨hdone,hspares'⟩ := hstart.takeFound happlying hnext
    exact ⟨hdone,hspares.trans hspares'⟩
  · next pending hpending => cases hpending
  · obtain ⟨hstart,hspares⟩ := hset ({ s with lastStepHeavy := false }.findUnblocked budget).2
    obtain ⟨hdone,hspares'⟩ := hstart.takeFound happlying hnext
    exact ⟨hdone,hspares.trans hspares'⟩

end

/-- The range under way was handed over. -/
lemma Working.range (h : s.Working Known) (happlying : s.applying=some n) (m : ℕ)
    (hlow : n ≤ m) (hhigh : m ≤ s.blockUpdateRangeEnd.getD n) : Known m := by
  obtain ⟨hn,hrange⟩ := h.applying happlying
  cases hlast : s.blockUpdateRangeEnd with
  | none =>
    rw [hlast] at hhigh
    rw [le_antisymm hhigh hlow]
    exact hn
  | some last =>
    rw [hlast] at hhigh
    exact hrange hlast m hlow hhigh

lemma Accounted.deferBlockUpdates (h : s.Accounted Known kept) {n : ℕ}
    (hdefer : s.deferBlockUpdates n=some s') : s'.Accounted Known kept ∧ Spares s s' := by
  unfold OrderedCommitState.deferBlockUpdates at hdefer
  split_ifs at hdefer with happlying
  cases hdefer
  refine h.unchanged _ rfl ⟨(fun hnone=>nomatch hnone),fun _=>rfl,fun _ _=>rfl,
    h.working.pending,fun hblocking=>?_⟩ (h.finished.congr rfl rfl) rfl rfl h.popped
  cases hblocking
  exact h.working.range happlying

lemma Accounted.finishCommit (h : s.Accounted Known kept) (hapart : ∀ n ∈ kept, ¬Known n) (n : ℕ) :
    (s.finishCommit n).2.Accounted Known kept ∧ Spares s (s.finishCommit n).2 := by
  unfold OrderedCommitState.finishCommit
  split_ifs with happlying
  · exact ⟨h,.refl s⟩
  · rw [not_not] at happlying
    have hknown := h.working.range happlying
    have hidle : ∀ pending, (pending=s.pendingSubChunks ∨ pending=none) →
        let t : OrderedCommitState S V O := { s with
          applying := none
          pendingSubChunks := pending
          blockUpdateRangeEnd := none }
        (t.releaseRange n (s.blockUpdateRangeEnd.getD n)).Accounted Known kept ∧
          Spares s (t.releaseRange n (s.blockUpdateRangeEnd.getD n)) := by
      rintro pending hpending t
      have hsome : ∀ {p}, pending=some p → s.pendingSubChunks=some p := by
        rintro p rfl
        rcases hpending with hsame | hno
        · exact hsame.symm
        · cases hno
      obtain ⟨hcleared,hspares⟩ := h.unchanged t rfl ⟨(fun hnone=>nomatch hnone),fun _=>rfl,fun _ _=>rfl,
          fun hp=>h.working.pending (hsome hp),h.working.blocking⟩ (h.finished.congr rfl rfl)
        rfl rfl fun hp=>h.popped (hsome hp)
      obtain ⟨hdone,hspares'⟩ := hcleared.releaseRange n (s.blockUpdateRangeEnd.getD n) hknown hapart
      exact ⟨hdone,hspares.trans hspares'⟩
    dsimp only
    split
    · next pending hpending =>
      split_ifs with hsame hleft
      · have hrange := h.working.batch hpending (happlying.trans (by rw [hsame]))
        exact h.unchanged _ rfl ⟨(fun hnone=>nomatch hnone),fun _=>hrange,fun _ _=>hrange,
          h.working.pending,h.working.blocking⟩ (h.finished.congr rfl rfl) rfl rfl h.popped
      · exact hidle none (.inr rfl)
      · have hkeep := hidle s.pendingSubChunks (.inl rfl)
        exact hkeep
    · exact hidle s.pendingSubChunks (.inl rfl)

def Op.admits : Op S V O → Option ℕ
  | .admitEntry sequence _ _ => some sequence
  | .admitDeferred sequence _ _ => some sequence
  | _ => none

lemma Op.sequence_of_admits (op : Op S V O) (h : op.admits=some n) : op.sequence=some n := by
  cases op with
  | admitEntry => exact h
  | admitDeferred => exact h
  | promoteDeferred => cases h
  | insertReady => cases h
  | normalize => cases h
  | cancelAdmission => cases h
  | completeDecode => cases h
  | nextCommitWithin => cases h
  | deferBlockUpdates => cases h
  | finishCommit => cases h

/-- What the stream does to events it was handed leaves retained ingress alone. -/
lemma Accounted.op (h : s.Accounted Known kept) (hapart : ∀ n ∈ kept, ¬Known n)
    {op : Op S V O} (hfree : ∀ n, op.sequence=some n → n ∉ kept)
    (hnew : ∀ n, op.admits=some n → ¬Known n) (hrun : op.run s=some s') :
    s'.Accounted (fun m=>Known m ∨ op.admits=some m) kept ∧ Spares s s' := by
  have hmore : ∀ {t}, t.Accounted Known kept ∧ Spares s t →
      t.Accounted (fun m=>Known m ∨ op.admits=some m) kept ∧ Spares s t := fun ht =>
    ⟨ht.1.mono fun _=>.inl,ht.2⟩
  have hunreserved : ∀ n, op.sequence=some n → s.reservation n=none := by
    intro n hn
    have hnot := hfree n hn
    rw [h.reserved,Option.not_isSome_iff_eq_none] at hnot
    exact hnot
  have htoOption : ∀ {α : Type} {out : Except WorldStreamError α} {a : α}, out.toOption=some a → out = .ok a := by
    intro α out a ha
    cases out with
    | error error => cases ha
    | ok a' => cases ha; rfl
  cases op with
  | admitEntry n footprint retainedCommits =>
    obtain ⟨hadmitted,hspares⟩ := h.admit (hnew n rfl) (.inl (htoOption hrun))
    exact ⟨hadmitted.mono fun m hm=>hm.imp id fun hmn=>by rw [hmn]; rfl,hspares⟩
  | admitDeferred n footprint retainedCommits =>
    obtain ⟨hadmitted,hspares⟩ := h.admit (hnew n rfl) (.inr (htoOption hrun))
    exact ⟨hadmitted.mono fun m hm=>hm.imp id fun hmn=>by rw [hmn]; rfl,hspares⟩
  | promoteDeferred n => exact hmore (h.promoteDeferred (hunreserved n rfl) hrun)
  | insertReady n event => exact hmore (h.insertReady (hunreserved n rfl) (htoOption hrun))
  | normalize n =>
    cases hrun
    exact hmore (h.normalize (hunreserved n rfl))
  | cancelAdmission n =>
    cases hrun
    exact hmore (h.release (hunreserved n rfl))
  | completeDecode n event =>
    obtain ⟨out,hout,rfl⟩ := Option.map_eq_some_iff.1 hrun
    exact hmore (h.completeDecode (hunreserved n rfl) hapart (htoOption hout))
  | nextCommitWithin budget =>
    obtain ⟨out,hout,rfl⟩ := Option.map_eq_some_iff.1 hrun
    exact hmore (h.nextCommitWithin hout)
  | deferBlockUpdates n => exact hmore (h.deferBlockUpdates hrun)
  | finishCommit n =>
    cases hrun
    exact hmore (h.finishCommit hapart n)

end OrderedCommitState

end Cinnabar.Ingest
