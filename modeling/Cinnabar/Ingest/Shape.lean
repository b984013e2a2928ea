import Cinnabar.Ingest.Lanes

/-! # The committer's shape -/

namespace Cinnabar.Ingest

namespace OrderedCommitState

variable {S V O : Type} {s s' : OrderedCommitState S V O} {n : ℕ}

/-- The last sequence of the step being applied. -/
def rangeEnd (s : OrderedCommitState S V O) (start : ℕ) : ℕ := s.blockUpdateRangeEnd.getD start

structure Shape (s : OrderedCommitState S V O) : Prop where
  runs : s.finished.Apart
  positive : 0 < s.frontier
  above : ∀ n, s.finished.Covers n → s.frontier<n
  unfinished : ∀ n, (s.entries.lookup n).isSome → s.frontier≤n ∧ ¬s.finished.Covers n
  applying : ∀ {a}, s.applying=some a → a ≤ s.rangeEnd a ∧ ∀ n, a≤n → n ≤ s.rangeEnd a → s.Active n
  idle : s.applying=none → s.blockUpdateRangeEnd=none
  pending : ∀ {p}, s.pendingSubChunks=some p → s.Active p.sequence
  /-- The partial batch is no part of a burst. -/
  batch : ∀ {p a}, s.pendingSubChunks=some p → s.applying=some a → a≤p.sequence →
    p.sequence ≤ s.rangeEnd a → a=p.sequence ∧ s.blockUpdateRangeEnd=none
  fence : ∀ {a b}, s.blockingBlockUpdates=some (a,b) → a≤b ∧ ∀ n, a≤n → n≤b → s.Active n
  /-- What the fence holds is neither being applied nor the partial batch. -/
  apart : ∀ {a b}, s.blockingBlockUpdates=some (a,b) → ∀ n, a≤n → n≤b →
    (∀ p, s.pendingSubChunks=some p → p.sequence≠n) ∧ ∀ c, s.applying=some c → ¬(c≤n ∧ n ≤ s.rangeEnd c)
  burst : s.blockUpdateRangeEnd.isSome → s.blockingBlockUpdates=none

lemma shape_new {first : ℕ} (h : 0<first) : (OrderedCommitState.new first : OrderedCommitState S V O).Shape where
  runs := Runs.apart_empty
  positive := h
  above := fun _ hn=>absurd hn Runs.not_covers_empty
  unfinished := fun n hn=>by
    change ((∅ : Finmap fun _ : ℕ=>Entry S V O).lookup n).isSome=true at hn
    cases hn
  applying := fun hnone=>nomatch hnone
  idle := fun _=>rfl
  pending := fun hnone=>nomatch hnone
  batch := fun hnone=>nomatch hnone
  fence := fun hnone=>nomatch hnone
  apart := fun hnone=>nomatch hnone
  burst := fun hnone=>nomatch hnone

def Done (s : OrderedCommitState S V O) (n : ℕ) : Prop := n < s.frontier ∨ s.finished.Covers n

section

variable (h : s.Shape)
include h

lemma Shape.isFinished_iff : s.isFinished n=true ↔ s.Done n := by
  unfold OrderedCommitState.isFinished Done
  rw [Bool.or_eq_true,decide_eq_true_eq,decide_eq_true_eq]
  rcases Nat.eq_zero_or_pos n with rfl | hn
  · exact iff_of_true (.inl h.positive) (.inl h.positive)
  · exact or_congr_right (h.runs.covers_iff hn).symm

lemma Shape.not_done (hn : (s.entries.lookup n).isSome) : ¬s.Done n := by
  rintro (hlt | hcovers)
  · exact absurd (h.unfinished n hn).1 hlt.not_ge
  · exact (h.unfinished n hn).2 hcovers

lemma Shape.frontier_not_done : ¬s.Done s.frontier := by
  rintro (hlt | hcovers)
  · exact lt_irrefl _ hlt
  · exact lt_irrefl _ (h.above _ hcovers)

/-- Entries come and go while no popped one does. -/
lemma Shape.entries (hfrontier : s'.frontier=s.frontier)
    (hfinished : s'.finished=s.finished) (happlying : s'.applying=s.applying)
    (hpending : s'.pendingSubChunks=s.pendingSubChunks)
    (hblocking : s'.blockingBlockUpdates=s.blockingBlockUpdates)
    (hrange : s'.blockUpdateRangeEnd=s.blockUpdateRangeEnd)
    (hactive : ∀ n, s.Active n → s'.Active n)
    (hsome : ∀ n, (s'.entries.lookup n).isSome → (s.entries.lookup n).isSome ∨ ¬s.Done n) :
    s'.Shape where
  runs := hfinished ▸ h.runs
  positive := hfrontier ▸ h.positive
  above := fun n hn=>by
    rw [hfinished] at hn
    rw [hfrontier]
    exact h.above n hn
  unfinished := fun n hn=>by
    rw [hfrontier,hfinished]
    rcases hsome n hn with hold | hnew
    · exact h.unfinished n hold
    · exact ⟨not_lt.1 fun hlt=>hnew (.inl hlt),fun hcovers=>hnew (.inr hcovers)⟩
  applying := fun {a} ha=>by
    unfold rangeEnd
    rw [happlying] at ha
    rw [hrange]
    exact ⟨(h.applying ha).1,fun n hle hle'=>hactive n ((h.applying ha).2 n hle hle')⟩
  idle := fun hnone=>by
    rw [hrange]
    exact h.idle (happlying ▸ hnone)
  pending := fun hp=>hactive _ (h.pending (hpending ▸ hp))
  batch := fun hp ha=>by
    unfold rangeEnd
    rw [hrange]
    exact h.batch (hpending ▸ hp) (happlying ▸ ha)
  fence := fun hb=>by
    obtain ⟨hle,hall⟩ := h.fence (hblocking ▸ hb)
    exact ⟨hle,fun n hle hle'=>hactive n (hall n hle hle')⟩
  apart := fun hb n hle hle'=>by
    unfold rangeEnd
    rw [hpending,happlying,hrange]
    exact h.apart (hblocking ▸ hb) n hle hle'
  burst := fun hsome=>by
    rw [hblocking]
    exact h.burst (hrange ▸ hsome)

lemma Shape.write {old new : Entry S V O} (hlook : s.entries.lookup n=some old)
    (hslot : old.slot = .active → new.slot = .active)
    (hentries : s'.entries=s.entries.insert n new)
    (hfrontier : s'.frontier=s.frontier) (hfinished : s'.finished=s.finished)
    (happlying : s'.applying=s.applying) (hpending : s'.pendingSubChunks=s.pendingSubChunks)
    (hblocking : s'.blockingBlockUpdates=s.blockingBlockUpdates)
    (hrange : s'.blockUpdateRangeEnd=s.blockUpdateRangeEnd) : s'.Shape := by
  refine h.entries hfrontier hfinished happlying hpending hblocking hrange ?_ ?_
  · rintro m ⟨entry,hentry,hactive⟩
    unfold Active
    rw [hentries]
    by_cases hm : m=n
    · subst hm
      rw [hlook] at hentry
      cases hentry
      exact ⟨new,Finmap.lookup_insert _,hslot hactive⟩
    · exact ⟨entry,by rwa [Finmap.lookup_insert_of_ne _ hm],hactive⟩
  · intro m hm
    rw [hentries] at hm
    by_cases hmn : m=n
    · rw [hmn,hlook]
      exact .inl rfl
    · rw [Finmap.lookup_insert_of_ne _ hmn] at hm
      exact .inl hm

/-- An event is ordered that was neither ordered nor finished. -/
lemma Shape.insert {new : Entry S V O} (habsent : s.entries.lookup n=none)
    (hdone : ¬s.Done n) (hentries : s'.entries=s.entries.insert n new)
    (hfrontier : s'.frontier=s.frontier) (hfinished : s'.finished=s.finished)
    (happlying : s'.applying=s.applying) (hpending : s'.pendingSubChunks=s.pendingSubChunks)
    (hblocking : s'.blockingBlockUpdates=s.blockingBlockUpdates)
    (hrange : s'.blockUpdateRangeEnd=s.blockUpdateRangeEnd) : s'.Shape := by
  refine h.entries hfrontier hfinished happlying hpending hblocking hrange ?_ ?_
  · rintro m ⟨entry,hentry,hactive⟩
    have hm : m≠n := by
      rintro rfl
      rw [habsent] at hentry
      cases hentry
    exact ⟨entry,by rwa [hentries,Finmap.lookup_insert_of_ne _ hm],hactive⟩
  · intro m hm
    rw [hentries] at hm
    by_cases hmn : m=n
    · rw [hmn]
      exact .inr hdone
    · rw [Finmap.lookup_insert_of_ne _ hmn] at hm
      exact .inl hm

end

/-- What releasing an entry keeps. -/
structure Kept (s s' : OrderedCommitState S V O) : Prop where
  frontier : s'.frontier=s.frontier
  finished : s'.finished=s.finished
  applying : s'.applying=s.applying
  pending : s'.pendingSubChunks=s.pendingSubChunks
  blocking : s'.blockingBlockUpdates=s.blockingBlockUpdates
  range : s'.blockUpdateRangeEnd=s.blockUpdateRangeEnd

lemma kept_release (s : OrderedCommitState S V O) (n : ℕ) : Kept s (s.release n) := by
  obtain ⟨hfinished,hfrontier,happlying,hpending,hblocking,hrange⟩ := release_fields (s := s) n
  exact ⟨hfrontier,hfinished,happlying,hpending,hblocking,hrange⟩

lemma releases_spec (sequences : List ℕ) : Kept s (sequences.foldl release s) ∧
    ∀ m, (sequences.foldl release s).entries.lookup m =
      if m ∈ sequences then none else s.entries.lookup m := by
  induction sequences generalizing s with
  | nil =>
    refine ⟨⟨rfl,rfl,rfl,rfl,rfl,rfl⟩,fun m=>?_⟩
    rfl
  | cons n rest ih =>
    obtain ⟨hrest,hlookup⟩ := ih (s := s.release n)
    have hfirst := kept_release s n
    refine ⟨⟨hrest.frontier.trans hfirst.frontier,hrest.finished.trans hfirst.finished,
      hrest.applying.trans hfirst.applying,hrest.pending.trans hfirst.pending,
      hrest.blocking.trans hfirst.blocking,hrest.range.trans hfirst.range⟩,fun m=>?_⟩
    rw [List.foldl_cons,hlookup,lookup_release]
    by_cases hm : m=n
    · rw [if_pos hm,ite_self,if_pos (List.mem_cons.2 (.inl hm))]
    · rw [if_neg hm]
      exact if_congr (by simp [hm]) rfl rfl

/-- A range released: what it finishes, and what stays. -/
structure Releases (s s' : OrderedCommitState S V O) (start last : ℕ) : Prop where
  frontier : s.frontier ≤ s'.frontier
  runs : s'.finished.Apart
  above : ∀ n, s'.finished.Covers n → s'.frontier<n
  done : ∀ n, s'.Done n ↔ s.Done n ∨ start≤n ∧ n≤last
  lookup : ∀ n, s'.entries.lookup n = if start≤n ∧ n≤last then none else s.entries.lookup n
  applying : s'.applying=s.applying
  pending : s'.pendingSubChunks=s.pendingSubChunks
  blocking : s'.blockingBlockUpdates=s.blockingBlockUpdates
  range : s'.blockUpdateRangeEnd=s.blockUpdateRangeEnd

lemma Shape.releaseRange (h : s.Shape) {start last : ℕ} (hle : start≤last)
    (hsome : ∀ n, start≤n → n≤last → (s.entries.lookup n).isSome) :
    Releases s (s.releaseRange start last) start last := by
  have hmem : ∀ n, n ∈ List.range' start (last+1-start) ↔ start≤n ∧ n≤last := by
    intro n
    rw [List.mem_range'_1]
    omega
  obtain ⟨hkept,hlookup⟩ := releases_spec (s := s) (List.range' start (last+1 - start))
  have hfirst := hsome start (le_refl _) hle
  have hnew : ∀ n, start≤n → n≤last → ¬s.finished.Covers n := fun n hn hn' =>
    (h.unfinished n (hsome n hn hn')).2
  have hrun : (start,last).1 ≤ (start,last).2 := hle
  have hjoined := h.runs.joined hrun hnew
  have hnone : ¬((List.range' start (last+1-start)).all fun n =>
      (s.entries.lookup n).isNone) = true := by
    intro hall
    have hall := List.all_eq_true.1 hall start ((hmem start).2 ⟨le_refl _,hle⟩)
    rw [Option.isNone_iff_eq_none] at hall
    rw [hall] at hfirst
    cases hfirst
  have hlow : s.frontier ≤ start := (h.unfinished start hfirst).1
  unfold OrderedCommitState.releaseRange
  dsimp only
  rw [if_neg hnone,hkept.finished,hkept.frontier]
  generalize (s.finished.merge (start,last)).1=joined at hjoined
  generalize (s.finished.merge (start,last)).2=rest at hjoined
  have hin := hjoined.le
  have hcovers := hjoined.covers
  -- the joined run starts above the frontier unless the frontier is in it
  have hstart : s.frontier≤joined.1 := by
    rcases (hcovers joined.1).1 (.inl ⟨le_refl _,hin⟩) with hm | hm
    · exact hlow.trans hm.1
    · exact (h.above _ hm).le
  have habove : ∀ {a b}, rest.ends a=some b → s.frontier<a := fun {a b} hab =>
    h.above a ⟨a,b,hjoined.sub hab,le_refl _,h.runs.le (hjoined.sub hab)⟩
  have hrest : rest.Apart := ⟨fun hab=>h.runs.le (hjoined.sub hab),
    fun hab hab'=>h.runs.gap (hjoined.sub hab) (hjoined.sub hab')⟩
  split_ifs with hreach
  · have hpast : ∀ n, rest.Covers n → joined.2+1<n := by
      rintro n ⟨a,b,hab,ha,-⟩
      exact (hjoined.after hab (by have := habove hab; omega)).trans_le ha
    refine
      { frontier := by dsimp only; omega
        runs := hrest
        above := hpast
        done := fun n=>?_
        lookup := fun n=>(hlookup n).trans (if_congr (hmem n) rfl rfl)
        __ := hkept }
    have hn := hcovers n
    unfold Done
    dsimp only at hn ⊢
    constructor
    · rintro (hlt | hrestn)
      · by_cases hold : n < s.frontier
        · exact .inl (.inl hold)
        · rcases hn.1 (.inl ⟨by omega,by omega⟩) with hrange | hold
          · exact .inr hrange
          · exact .inl (.inr hold)
      · rcases hn.1 (.inr hrestn) with hrange | hold
        · exact .inr hrange
        · exact .inl (.inr hold)
    · rintro ((hlt | hold) | hrange)
      · exact .inl (by omega)
      · rcases hn.2 (.inr hold) with hjoin | hrestn
        · exact .inl (by omega)
        · exact .inr hrestn
      · rcases hn.2 (.inl hrange) with hjoin | hrestn
        · exact .inl (by omega)
        · exact .inr hrestn
  · have hinsert : ∀ n, (rest.insert joined).Covers n ↔ (joined.1≤n ∧ n≤joined.2) ∨ rest.Covers n := by
      intro n
      refine ⟨Runs.covers_insert,?_⟩
      rintro (hjoin | ⟨a,b,hab,ha,hb⟩)
      · exact ⟨joined.1,joined.2,Runs.ends_insert.2 (.inl ⟨rfl,rfl⟩),hjoin⟩
      · refine ⟨a,b,Runs.ends_insert.2 (.inr ⟨?_,hab⟩),ha,hb⟩
        rintro rfl
        have := hjoined.after hab (le_refl _)
        omega
    refine
      { frontier := le_refl _
        runs := ⟨fun hab=>?_,fun {a b a' b'} hab hab' hlt=>?_⟩
        above := fun n hn=>?_
        done := fun n=>?_
        lookup := fun n=>(hlookup n).trans (if_congr (hmem n) rfl rfl)
        __ := hkept }
    · rcases Runs.ends_insert.1 hab with ⟨rfl,rfl⟩ | ⟨-,hab⟩
      · exact hin
      · exact hrest.le hab
    · rcases Runs.ends_insert.1 hab with ⟨rfl,rfl⟩ | ⟨hne,hab⟩
      · rcases Runs.ends_insert.1 hab' with ⟨rfl,rfl⟩ | ⟨-,hab'⟩
        · exact absurd hlt (lt_irrefl _)
        · exact hjoined.after hab' hlt.le
      · rcases Runs.ends_insert.1 hab' with ⟨rfl,rfl⟩ | ⟨-,hab'⟩
        · exact hjoined.before hab hlt
        · exact hrest.gap hab hab' hlt
    · change s.frontier<n
      rcases (hinsert n).1 hn with hjoin | ⟨a,b,hab,ha,-⟩
      · omega
      · exact (habove hab).trans_le ha
    · unfold Done
      rw [hinsert n,hcovers n,or_assoc]
      exact or_congr_right or_comm

lemma Shape.released (h : s.Shape) {start last : ℕ} (hr : Releases s s' start last)
    (happlying : ∀ a, s.applying=some a → ∀ n, start≤n → n≤last → ¬(a≤n ∧ n ≤ s.rangeEnd a))
    (hpending : ∀ p, s.pendingSubChunks=some p → ¬(start≤p.sequence ∧ p.sequence≤last))
    (hfence : ∀ a b, s.blockingBlockUpdates=some (a,b) → ∀ n, a≤n → n≤b →
      ¬(start≤n ∧ n≤last)) : s'.Shape := by
  have hactive : ∀ n, ¬(start≤n ∧ n≤last) → s.Active n → s'.Active n := by
    rintro n hn ⟨entry,hentry,hslot⟩
    exact ⟨entry,by rw [hr.lookup,if_neg hn,hentry],hslot⟩
  exact
    { runs := hr.runs
      positive := h.positive.trans_le hr.frontier
      above := hr.above
      unfinished := fun n hn=>by
        rw [hr.lookup] at hn
        split_ifs at hn with hrange
        · cases hn
        · have hdone : ¬s'.Done n := by
            rw [hr.done]
            exact not_or.2 ⟨h.not_done hn,hrange⟩
          exact ⟨not_lt.1 fun hlt=>hdone (.inl hlt),fun hcovers=>hdone (.inr hcovers)⟩
      applying := fun {a} ha=>by
        rw [hr.applying] at ha
        unfold rangeEnd
        rw [hr.range]
        obtain ⟨hle,hall⟩ := h.applying ha
        refine ⟨hle,fun n hn hn'=>hactive n (fun hin=>?_) (hall n hn hn')⟩
        exact happlying a ha n hin.1 hin.2 ⟨hn,hn'⟩
      idle := fun hnone=>by
        rw [hr.range]
        exact h.idle (hr.applying ▸ hnone)
      pending := fun {p} hp=>by
        rw [hr.pending] at hp
        exact hactive _ (hpending p hp) (h.pending hp)
      batch := fun hp ha=>by
        unfold rangeEnd
        rw [hr.range]
        exact h.batch (hr.pending ▸ hp) (hr.applying ▸ ha)
      fence := fun {a b} hb=>by
        rw [hr.blocking] at hb
        obtain ⟨hle,hall⟩ := h.fence hb
        exact ⟨hle,fun n hn hn'=>hactive n (hfence a b hb n hn hn') (hall n hn hn')⟩
      apart := fun hb n hn hn'=>by
        unfold rangeEnd
        rw [hr.pending,hr.applying,hr.range]
        exact h.apart (hr.blocking ▸ hb) n hn hn'
      burst := fun hsome=>by
        rw [hr.blocking]
        exact h.burst (hr.range ▸ hsome) }

end OrderedCommitState

end Cinnabar.Ingest

/-! # Runs of the committer

What its callers do with it, with a ledger of the sequences a finished commit released
and of the reservation that was released for admission and is not yet admitted.
-/

namespace Cinnabar.Ingest

open OrderedCommitState

variable {S V O : Type}

structure Ledger (S V O : Type) where
  order : OrderedCommitState S V O
  /-- Released by `finish_commit` or `complete_decode`. -/
  released : ℕ → Prop
  /-- Rolled back for its admission. -/
  absent : Option ℕ

def OrderedCommitState.Drops (s s' : OrderedCommitState S V O) (n : ℕ) : Prop :=
  (s.entries.lookup n).isSome ∧ s'.entries.lookup n=none

namespace Ledger

def new (first : ℕ) : Ledger S V O := ⟨.new first,fun _=>False,none⟩

/-- One call that is accepted.  A reservation or an admission is rolled back before its event was
prepared, and admitted again before the next is; terrain is promoted where the decode lane has room
or at the frontier; only a block batch waits for its decode. -/
inductive Step (capacity : ℕ) (l : Ledger S V O) : Ledger S V O → Prop
  | admitEntry (n : ℕ) (footprint : Footprint) (retainedCommits : ℕ) {order : OrderedCommitState S V O}
      (h : l.order.admitEntry n footprint retainedCommits = .ok order) :
    Step capacity l { l with order := order, absent := l.absent.filter (· ≠ n) }
  | admitDeferred (n : ℕ) (footprint : Footprint) (retainedCommits : ℕ) {order : OrderedCommitState S V O}
      (h : l.order.admitDeferred n footprint retainedCommits = .ok order) :
    Step capacity l { l with order := order, absent := l.absent.filter (· ≠ n) }
  | retainIngress (n : ℕ) (footprint : Footprint) (retainedCommits : ℕ) {credit : Bool}
      {order : OrderedCommitState S V O}
      (h : l.order.retainIngress n footprint capacity retainedCommits = .ok (some (credit,order))) :
    Step capacity l { l with order := order, absent := l.absent.filter (· ≠ n) }
  | reserveIngressLight (n retainedCommits : ℕ) {credit : Bool} {order : OrderedCommitState S V O}
      (h : l.order.reserveIngressLight n retainedCommits=some (credit,order)) :
    Step capacity l { l with order := order }
  | releaseIngress (n : ℕ) {order : OrderedCommitState S V O} (hactive : ¬l.order.Active n)
      (habsent : l.absent=none) (h : l.order.releaseIngress n=some order) :
    Step capacity l { l with order := order, absent := some n }
  | cancelAdmission (n : ℕ) (hsome : (l.order.entries.lookup n).isSome)
      (hactive : ¬l.order.Active n) (habsent : l.absent=none) :
    Step capacity l { l with order := l.order.cancelAdmission n, absent := some n }
  | promoteDeferred (n : ℕ) {order : OrderedCommitState S V O} (hroom : 0<l.order.heavyCapacity ∨ n=l.order.frontier ∨
        ∀ entry, l.order.entries.lookup n=some entry → entry.held ≠ .deferred)
      (h : l.order.promoteDeferred n=some order) : Step capacity l { l with order := order }
  | insertReady (n : ℕ) (event : PreparedWorldEvent S V O) {order : OrderedCommitState S V O}
      (h : l.order.insertReady n event = .ok order) : Step capacity l { l with order := order }
  | normalize (n : ℕ) : Step capacity l { l with order := l.order.normalize n }
  | completeDecode (n : ℕ) (event : PreparedWorldEvent S V O) {answer : Bool}
      {order : OrderedCommitState S V O} (h : l.order.completeDecode n event = .ok (answer,order)) :
    Step capacity l { l with
      order := order
      released := fun m=>l.released m ∨ l.order.Drops order m }
  | nextCommitWithin (budget : CommitBudget) {step : Option (CommitStep S V O)}
      {order : OrderedCommitState S V O} (h : l.order.nextCommitWithin budget=some (step,order)) :
    Step capacity l { l with order := order }
  | deferBlockUpdates (n : ℕ) {order : OrderedCommitState S V O}
      (hbatch : l.order.blockUpdateRangeEnd.isSome) (h : l.order.deferBlockUpdates n=some order) :
    Step capacity l { l with order := order }
  | finishCommit (n : ℕ) :
    Step capacity l { l with
      order := (l.order.finishCommit n).2
      released := fun m=>l.released m ∨ l.order.Drops (l.order.finishCommit n).2 m }

inductive Reachable (capacity first : ℕ) : Ledger S V O → Prop
  | new : Reachable capacity first (new first)
  | step {l l' : Ledger S V O} : Reachable capacity first l → Step capacity l l' → Reachable capacity first l'

def Passed (s : OrderedCommitState S V O) (absent : Option ℕ) : Prop :=
  ∀ m n, s.frontier ≤ m → m<n → s.finished.Covers n ∨ s.Active n →
    (s.entries.lookup m).isSome ∨ s.finished.Covers m ∨ absent=some m

/-- The lanes stay within their capacities; terrain promoted at the frontier may exceed its own
by one. -/
structure Bounded (capacity : ℕ) (s : OrderedCommitState S V O) : Prop where
  light : s.light+s.ingressLight ≤ maxAdmittedWorldEvents
  heavy : s.heavy ≤ maxAdmittedHeavyEvents ∨ s.heavy=maxAdmittedHeavyEvents+1 ∧
    ∃ entry, s.entries.lookup s.frontier=some entry ∧ entry.held = .heavy
  deferred : s.deferred ≤ maxDeferredWorldEvents
  ingress : s.ingress ≤ capacity

structure Sound (capacity first : ℕ) (l : Ledger S V O) : Prop where
  shape : l.order.Shape
  counted : l.order.Counted
  bounded : Bounded capacity l.order
  released : ∀ n, l.order.Done n ↔ n<first ∨ l.released n
  passed : Passed l.order l.absent

lemma sound_new {capacity first : ℕ} (h : 0<first) : (new first : Ledger S V O).Sound capacity first where
  shape := shape_new h
  counted := fun lane=>by cases lane <;> rfl
  bounded := ⟨Nat.zero_le _,.inl (Nat.zero_le _),Nat.zero_le _,Nat.zero_le _⟩
  released := fun n=>by
    refine ⟨fun hdone=>.inl (hdone.resolve_right Runs.not_covers_empty),?_⟩
    rintro (hlt | hno)
    · exact .inl hlt
    · exact hno.elim
  passed := by
    rintro m n - - (hcovers | ⟨entry,hentry,-⟩)
    · exact absurd hcovers Runs.not_covers_empty
    · change (∅ : Finmap fun _ : ℕ=>Entry S V O).lookup n=some entry at hentry
      cases hentry

end Ledger

end Cinnabar.Ingest
