import Cinnabar.Ingest.LedgerSteps

/-! # Frontiers -/

namespace Cinnabar.Ingest

variable {S V O : Type}

namespace OrderedCommitState

variable {s : OrderedCommitState S V O} {start n m c : ℕ} {list : List (ℕ × Entry S V O)}
  {reads : ℕ → Entry S V O → Bool}

/-- Whether a sequence's mutation reads as complete to frontier observers: the active callback
keeps the popped-sequence view, while block-update steps and partial batches between steps stay
fenced. -/
def readsCommitted (s : OrderedCommitState S V O) (sequence : ℕ) (entry : Entry S V O) : Bool :=
  match entry.slot with
  | .active => s.applying=some sequence && s.blockUpdateRangeEnd.isNone
  | .waiting => false
  | .ready _ => false

def frontierFrom (s : OrderedCommitState S V O) (reads : ℕ → Entry S V O → Bool) (committed : ℕ) :
    List (ℕ × Entry S V O) → ℕ
  | [] => s.finished.through (committed+1)
  | (sequence,entry) :: rest =>
    let committed := s.finishedThroughBefore (committed+1) sequence
    if sequence≠committed+1 ∨ ¬reads sequence entry then committed
    else s.frontierFrom reads sequence rest

def frontierWhere (s : OrderedCommitState S V O) (passes : Footprint → Bool) : ℕ :=
  s.frontierFrom (fun sequence entry=>s.readsCommitted sequence entry || passes entry.footprint) (s.frontier-1) s.scan

/-- The last sequence through which every mutation has synchronously finished. -/
def committedSequence (s : OrderedCommitState S V O) : ℕ := s.frontierWhere fun _=>false

def committedPastChunkData (s : OrderedCommitState S V O) : ℕ :=
  s.frontierWhere Footprint.isChunkData

def Reads (s : OrderedCommitState S V O) (reads : ℕ → Entry S V O → Bool) (n : ℕ) : Prop :=
  s.Done n ∨ ∃ entry, s.entries.lookup n=some entry ∧ reads n entry=true

/-- From a sequence on, what has finished ends before the next that has not. -/
lemma Shape.through_spec (h : s.Shape) (hstart : s.frontier ≤ start) :
    start ≤ s.finished.through start+1 ∧ (∀ n, start≤n → n ≤ s.finished.through start → s.Done n) ∧
      ¬s.Done (s.finished.through start+1) := by
  have hpos := h.positive.trans_le hstart
  by_cases hcovers : s.finished.Covers start
  · obtain ⟨hle,hall,hnext⟩ := h.runs.through_spec hcovers
    refine ⟨by omega,fun n hn hn'=>.inr (hall n hn hn'),?_⟩
    rintro (hlt | hmore)
    · omega
    · exact hnext hmore
  · have hsame : s.finished.through start+1=start := by
      rw [Runs.through_of_not_covers hcovers]
      omega
    refine ⟨hsame.ge,fun n hn hn'=>by omega,?_⟩
    rw [hsame]
    rintro (hlt | hmore)
    · omega
    · exact hcovers hmore

/-- What `finished_through_before` skips has finished, up to the next entry or a gap. -/
lemma Shape.throughBefore_spec (h : s.Shape) (hstart : s.frontier ≤ start) (hle : start≤n)
    (hsome : (s.entries.lookup n).isSome) :
    start ≤ s.finishedThroughBefore start n+1 ∧ s.finishedThroughBefore start n+1≤n ∧
      (∀ m, start ≤ m → m ≤ s.finishedThroughBefore start n → s.Done m) ∧
      ¬s.Done (s.finishedThroughBefore start n+1) := by
  have hpos := h.positive.trans_le hstart
  unfold finishedThroughBefore
  split_ifs with hsame
  · subst hsame
    have hback : start-1+1=start := Nat.succ_pred_eq_of_pos hpos
    refine ⟨hback.ge,hback.le,fun m hm hm'=>by omega,?_⟩
    rw [hback]
    exact h.not_done hsome
  · obtain ⟨hbefore,hall,hnext⟩ := h.through_spec hstart
    refine ⟨hbefore,?_,hall,hnext⟩
    by_contra hlt
    exact h.not_done hsome (hall n hle (by omega))

lemma Shape.frontierFrom_spec (h : s.Shape) (hstart : s.frontier ≤ c+1)
    (hlist : s.Lists (c+1) list) (hbefore : ∀ n ≤ c, s.Reads reads n) :
    IsGreatest {m | ∀ n ≤ m, s.Reads reads n} (s.frontierFrom reads c list) := by
  -- nothing that does not read as finished is passed
  have hgreatest : ∀ {last}, (∀ n≤last, s.Reads reads n) → ¬s.Reads reads (last+1) →
      IsGreatest {m | ∀ n ≤ m, s.Reads reads n} last := by
    intro last hall hnext
    exact ⟨hall,fun m hm=>not_lt.1 fun hlt=>hnext (hm _ hlt)⟩
  induction list generalizing c with
  | nil =>
    obtain ⟨hfrom,hdone,hnext⟩ := h.through_spec hstart
    refine hgreatest (fun n hn=>?_) ?_
    · by_cases hc : n ≤ c
      · exact hbefore n hc
      · exact .inl (hdone n (by omega) hn)
    · rintro (hlast | ⟨entry,hentry,-⟩)
      · exact hnext hlast
      · exact nomatch (hlist.mem _ entry).2 ⟨hfrom,hentry⟩
  | cons first rest ih =>
    obtain ⟨n,entry⟩ := first
    obtain ⟨hle,hlook,hgap,hrest⟩ := hlist.cons
    obtain ⟨hfrom,hto,hdone,hnext⟩ := h.throughBefore_spec hstart hle (Option.isSome_of_eq_some hlook)
    have hskipped : ∀ m ≤ s.finishedThroughBefore (c+1) n, s.Reads reads m := by
      intro m hm
      by_cases hc : m ≤ c
      · exact hbefore m hc
      · exact .inl (hdone m (by omega) hm)
    unfold frontierFrom
    dsimp only
    split_ifs with hstop
    · refine hgreatest hskipped ?_
      rintro (hlast | ⟨other,hother,hreads⟩)
      · exact hnext hlast
      · rcases hstop with hne | hno
        · rw [hgap _ hfrom (lt_of_le_of_ne hto (Ne.symm hne))] at hother
          cases hother
        · by_cases hn : n=s.finishedThroughBefore (c+1) n+1
          · rw [← hn,hlook] at hother
            cases hother
            rw [← hn] at hreads
            exact hno hreads
          · rw [hgap _ hfrom (lt_of_le_of_ne hto (Ne.symm hn))] at hother
            cases hother
    · obtain ⟨hn,hreads⟩ := not_or.1 hstop
      refine ih (by omega) hrest fun m hm=>?_
      by_cases hmn : m=n
      · exact .inr ⟨entry,by rw [hmn,hlook],hmn ▸ not_not.1 hreads⟩
      · exact hskipped m (by have := not_not.1 hn; omega)

lemma Shape.frontierWhere_spec (h : s.Shape) (passes : Footprint → Bool) :
    IsGreatest {m | ∀ n ≤ m, s.Reads (fun sequence entry =>
      s.readsCommitted sequence entry || passes entry.footprint) n} (s.frontierWhere passes) := by
  have hback : s.frontier-1+1=s.frontier := Nat.succ_pred_eq_of_pos h.positive
  refine h.frontierFrom_spec hback.ge ?_ fun n hn=>.inl (.inl (by have := h.positive; omega))
  rw [hback]
  exact s.lists_scan

/-- What the partial batch or the step being applied holds back is past nothing else. -/
lemma Shape.committedSequence_spec (h : s.Shape) :
    IsGreatest {m | ∀ n ≤ m, s.Done n ∨ s.applying=some n ∧ s.blockUpdateRangeEnd=none}
      s.committedSequence := by
  have hreads : ∀ n, (s.Reads (fun sequence entry=>s.readsCommitted sequence entry || false) n ↔
      s.Done n ∨ s.applying=some n ∧ s.blockUpdateRangeEnd=none) := by
    intro n
    refine or_congr_right ⟨?_,?_⟩
    · rintro ⟨entry,-,hread⟩
      dsimp only at hread
      rw [Bool.or_false] at hread
      unfold readsCommitted at hread
      split at hread
      next =>
        rw [Bool.and_eq_true,decide_eq_true_eq,Option.isNone_iff_eq_none] at hread
        exact hread
      next => cases hread
      next => cases hread
    · rintro ⟨happlying,hrange⟩
      obtain ⟨hle,hactive⟩ := h.applying happlying
      obtain ⟨entry,hentry,hslot⟩ := hactive n (le_refl _) hle
      refine ⟨entry,hentry,?_⟩
      dsimp only
      unfold readsCommitted
      rw [hslot,happlying,hrange]
      simp
  have hspec := h.frontierWhere_spec fun _=>false
  simp only [hreads] at hspec
  exact hspec

lemma releaseRange_kept (s : OrderedCommitState S V O) (start last : ℕ) :
    (s.releaseRange start last).applying=s.applying ∧
      (s.releaseRange start last).blockUpdateRangeEnd=s.blockUpdateRangeEnd ∧
      ∀ m, start ≤ m → m≤last → (s.releaseRange start last).entries.lookup m=none := by
  obtain ⟨hkept,hlookup⟩ := releases_spec (s := s) (List.range' start (last+1 - start))
  have hnone : ∀ m, start ≤ m → m≤last →
      ((List.range' start (last+1-start)).foldl release s).entries.lookup m=none := by
    intro m hm hm'
    rw [hlookup,if_pos (List.mem_range'_1.2 (by omega))]
  unfold releaseRange
  dsimp only
  split_ifs
  · exact ⟨hkept.applying,hkept.range,hnone⟩
  · exact ⟨hkept.applying,hkept.range,hnone⟩
  · exact ⟨hkept.applying,hkept.range,hnone⟩

/-- A step that leaves nothing of its batch takes its entry away. -/
lemma finishCommit_lookup (happlying : s.applying=some n) (hle : n ≤ s.rangeEnd n)
    (hdone : ∀ pending, s.pendingSubChunks=some pending → pending.sequence=n →
      pending.entries = []) : (s.finishCommit n).2.entries.lookup n=none := by
  unfold finishCommit
  rw [if_neg (not_not.2 happlying)]
  dsimp only
  split
  next pending hpending =>
    split_ifs with hsame hleft
    · exact absurd (hdone pending hpending hsame) hleft
    · exact (releaseRange_kept _ n _).2.2 n (le_refl _) hle
    · exact (releaseRange_kept _ n _).2.2 n (le_refl _) hle
  next => exact (releaseRange_kept _ n _).2.2 n (le_refl _) hle

end OrderedCommitState

open OrderedCommitState

namespace Ledger

variable {l l' : Ledger S V O} {capacity first n : ℕ}

lemma Step.released (h : Step capacity l l') (hn : l.released n) : l'.released n := by
  cases h with
  | completeDecode => exact .inl hn
  | finishCommit => exact .inl hn
  | _ => exact hn

/-- Finishing a step puts the rest of its partial batch aside. -/
def PutsAside (l l' : Ledger S V O) : Prop :=
  ∃ pending : PendingSubChunkCommit S, l.order.pendingSubChunks=some pending ∧
    l.order.applying=some pending.sequence ∧ pending.entries ≠ [] ∧ l'.order = (l.order.finishCommit pending.sequence).2

lemma Step.applying (hl : l.Sound capacity first) (h : Step capacity l l')
    (happlying : l.order.applying=some n) (hrange : l.order.blockUpdateRangeEnd=none) :
    (l'.order.applying=some n ∧ l'.order.blockUpdateRangeEnd=none) ∨ l'.released n ∨
      PutsAside l l' := by
  have hkept : ∀ {s : OrderedCommitState S V O}, Kept l.order s →
      s.applying=some n ∧ s.blockUpdateRangeEnd=none := fun hkept =>
    ⟨hkept.applying.trans happlying,hkept.range.trans hrange⟩
  have hcases : ∀ {m s}, (s=l.order ∨ ∃ old new, Rewrites l.order s m old new ∧ HeldMoves l.order m old.held new.held) →
      s.applying=some n ∧ s.blockUpdateRangeEnd=none := by
    rintro m s (rfl | ⟨old,new,hrewrites,-⟩)
    · exact ⟨happlying,hrange⟩
    · exact hkept hrewrites.kept
  cases h with
  | admitEntry m footprint retainedCommits h =>
    obtain ⟨held,hadmits,(_ : HasRoom capacity l.order held)⟩ := admit_admits (.inl h)
    exact .inl (hkept hadmits.kept)
  | admitDeferred m footprint retainedCommits h =>
    obtain ⟨held,hadmits,(_ : HasRoom capacity l.order held)⟩ := admit_admits (.inr h)
    exact .inl (hkept hadmits.kept)
  | retainIngress m footprint retainedCommits h =>
    obtain ⟨order,hadmits,-,hreserve⟩ := retainIngress_admits h
    refine .inl ?_
    rcases reserveIngressLight_cases hreserve with rfl | ⟨old,new,hrewrites,-⟩
    · exact hkept hadmits.kept
    · exact hkept (kept_trans hadmits.kept hrewrites.kept)
  | reserveIngressLight m retainedCommits h => exact .inl (hcases (reserveIngressLight_cases h))
  | releaseIngress m hactive habsent h =>
    unfold OrderedCommitState.releaseIngress at h
    split at h
    · cases h
      exact .inl (hkept (kept_release l.order m))
    · cases h
  | cancelAdmission m hsome hactive habsent => exact .inl (hkept (kept_release l.order m))
  | promoteDeferred m hroom h => exact .inl (hcases (promoteDeferred_cases hroom h hl.counted))
  | insertReady m event h => exact .inl (hcases (.inr (insertReady_rewrites h)))
  | normalize m => exact .inl (hcases (normalize_cases l.order m))
  | @completeDecode m event answer order h =>
    refine .inl ?_
    have hready : (l.order.insertReady m event).map (fun s=>(false,s)) = .ok (answer,order) →
        order.applying=some n ∧ order.blockUpdateRangeEnd=none := by
      intro hmap
      cases hinsert : l.order.insertReady m event with
      | error error =>
        rw [hinsert] at hmap
        cases hmap
      | ok inserted =>
        rw [hinsert] at hmap
        cases hmap
        exact hcases (.inr (insertReady_rewrites hinsert))
    unfold OrderedCommitState.completeDecode at h
    split at h
    next start last hblocking =>
      split_ifs at h with hdecoded
      · cases h
        obtain ⟨hsame,hrangeSame,-⟩ :=
          releaseRange_kept { l.order with blockingBlockUpdates := none } m last
        exact ⟨hsame.trans happlying,hrangeSame.trans hrange⟩
      · exact hready h
    next => exact hready h
  | @nextCommitWithin budget step order h =>
    have hcommits := nextCommitWithin_commits hl.shape.runs hl.shape.positive h
    cases hcommits with
    | idle heavy earlier => exact .inl ⟨happlying,hrange⟩
    | batch heavy earlier hidle => exact nomatch happlying.symm.trans hidle
    | start heavy earlier hidle => exact nomatch happlying.symm.trans hidle
    | apply heavy earlier hidle => exact nomatch happlying.symm.trans hidle
    | burst heavy earlier hidle => exact nomatch happlying.symm.trans hidle
  | deferBlockUpdates m hbatch h =>
    rw [hrange] at hbatch
    cases hbatch
  | finishCommit m =>
    by_cases hm : l.order.applying=some m
    · have hmn : m=n := Option.some.inj (hm.symm.trans happlying)
      subst hmn
      by_cases haside : PutsAside l { l with
          order := (l.order.finishCommit m).2
          released := fun k=>l.released k ∨ l.order.Drops (l.order.finishCommit m).2 k }
      · exact .inr (.inr haside)
      · obtain ⟨hle,hactive⟩ := hl.shape.applying happlying
        obtain ⟨entry,hentry,-⟩ := hactive m (le_refl _) hle
        refine .inr (.inl (.inr ⟨Option.isSome_of_eq_some hentry,?_⟩))
        exact finishCommit_lookup happlying hle fun pending hpending hsame=>by
          by_contra hleft
          exact haside ⟨pending,hpending,hsame ▸ happlying,hleft,by rw [hsame]⟩
    · have hsame : (l.order.finishCommit m).2=l.order := by
        unfold OrderedCommitState.finishCommit
        rw [if_pos hm]
      refine .inl ?_
      rw [hsame]
      exact ⟨happlying,hrange⟩

/-- Finished runs follow entries, or the event being admitted again. -/
lemma Sound.runs_le (hl : l.Sound capacity first) (starts : Finset ℕ)
    (hstarts : ∀ a ∈ starts, (l.order.finished.ends a).isSome) :
    starts.card≤l.order.entries.keys.card+1 := by
  have hbefore : ∀ a ∈ starts, 0<a ∧ a-1 ∈ l.order.entries.keys ∪ l.absent.toFinset := by
    intro a ha
    obtain ⟨b,hab⟩ := Option.isSome_iff_exists.1 (hstarts a ha)
    have hcovers : l.order.finished.Covers a := ⟨a,b,hab,le_refl _,hl.shape.runs.le hab⟩
    have habove := hl.shape.above a hcovers
    refine ⟨by omega,?_⟩
    have hnot : ¬l.order.finished.Covers (a-1) := by
      rintro ⟨a',b',hab',ha',hb'⟩
      have hgap := hl.shape.runs.gap hab' hab (by omega)
      omega
    rw [Finset.mem_union,Finmap.mem_keys,← Finmap.lookup_isSome,Option.mem_toFinset]
    rcases hl.passed (a-1) a (by omega) (by omega) (.inl hcovers) with hsome | hold | habsent
    · exact .inl hsome
    · exact absurd hold hnot
    · exact .inr habsent
  have himage := Finset.card_le_card_of_injOn (· - 1) (fun a ha=>(hbefore a ha).2) fun a ha b hb (heq : a-1=b-1) => by
      have hpos := (hbefore a ha).1
      have hpos' := (hbefore b hb).1
      omega
  refine himage.trans ((Finset.card_union_le _ _).trans ?_)
  have habsent : l.absent.toFinset.card≤1 := by cases l.absent <;> simp
  omega

/-- What the committer's borders, counts and frontier say. -/
structure Accounted (capacity first : ℕ) (l : Ledger S V O) : Prop where
  finished : ∀ n, l.order.isFinished n=true ↔ n<first ∨ l.released n
  frontier : IsLeast {n | l.order.isFinished n=false} l.order.frontier
  nonempty : ∀ {a b}, l.order.finished.ends a=some b → a≤b
  /-- Runs are disjoint and not adjacent. -/
  apart : ∀ {a b a' b'}, l.order.finished.ends a=some b → l.order.finished.ends a'=some b' → a<a' → b+1<a'
  above : ∀ {a b}, l.order.finished.ends a=some b → l.order.frontier<a
  unadmitted : ∀ {a b n}, l.order.finished.ends a=some b → a≤n → n≤b → l.order.entries.lookup n=none
  few : ∀ starts : Finset ℕ, (∀ a ∈ starts, (l.order.finished.ends a).isSome) → starts.card≤l.order.entries.keys.card+1
  /-- A step of block updates is fenced while it is applied. -/
  committed : IsGreatest {m | ∀ n ≤ m, l.order.isFinished n=true ∨
    l.order.applying=some n ∧ l.order.blockUpdateRangeEnd=none} l.order.committedSequence
  valid : ∀ n, l.order.validateSequence n = .ok () ↔ l.order.isFinished n=false ∧ l.order.entries.lookup n=none
  counted : ∀ lane : Lane, l.order.counter lane=lane.recount l.order.entries
  /-- A lane counts what is taken from it. -/
  charged : ∀ (lane : Lane) n entry, l.order.entries.lookup n=some entry →
    lane.holds entry.held=true → 1≤l.order.counter lane
  bounded : Bounded capacity l.order

section

variable (hl : l.Sound capacity first)
include hl

lemma Sound.accounted : Accounted capacity first l where
  finished := fun n=>hl.shape.isFinished_iff.trans (hl.released n)
  frontier := by
    constructor
    · rw [Set.mem_ofPred_eq,← Bool.not_eq_true,hl.shape.isFinished_iff]
      exact hl.shape.frontier_not_done
    · intro n hn
      rw [Set.mem_ofPred_eq,← Bool.not_eq_true,hl.shape.isFinished_iff] at hn
      exact not_lt.1 fun hlt=>hn (.inl hlt)
  nonempty := fun hab=>hl.shape.runs.le hab
  apart := fun hab hab' hlt=>hl.shape.runs.gap hab hab' hlt
  above := fun {a b} hab=>hl.shape.above a ⟨a,b,hab,le_refl _,hl.shape.runs.le hab⟩
  unadmitted := fun {a b n} hab ha hb=>by
    by_contra hne
    have hsome := Option.isSome_iff_ne_none.2 hne
    exact (hl.shape.unfinished n hsome).2 ⟨a,b,hab,ha,hb⟩
  few := hl.runs_le
  committed := by
    have hspec := hl.shape.committedSequence_spec
    simp only [← hl.shape.isFinished_iff] at hspec
    exact hspec
  valid := fun n=>by
    unfold validateSequence
    split_ifs with hknown
    · refine iff_of_false (fun hok=>nomatch hok) ?_
      rintro ⟨hfinished,hnone⟩
      rw [hfinished,hnone] at hknown
      cases hknown
    · rw [Bool.or_eq_true,not_or,Bool.not_eq_true,Bool.not_eq_true,
        Option.isSome_eq_false_iff,Option.isNone_iff_eq_none] at hknown
      exact iff_of_true rfl hknown
  counted := hl.counted
  charged := fun lane n entry hentry hheld=>by
    have hle := hl.counted.weigh_le lane n
    rw [hentry] at hle
    have hone : lane.weigh (some entry) = 1 := by
      unfold Lane.weigh
      rw [Option.any_some,hheld]
      rfl
    rwa [hone] at hle
  bounded := hl.bounded

/-- The frontier passes whatever was finished. -/
lemma Sound.committed_le (hl' : l'.Sound capacity first)
    (hpast : ∀ n, l.order.Done n ∨ l.order.applying=some n ∧ l.order.blockUpdateRangeEnd=none →
      l'.order.Done n ∨ l'.order.applying=some n ∧ l'.order.blockUpdateRangeEnd=none) :
    l.order.committedSequence≤l'.order.committedSequence :=
  hl'.shape.committedSequence_spec.2 fun n hn =>
    hpast n (hl.shape.committedSequence_spec.1 n hn)

lemma Step.committed_le (h : Step capacity l l') :
    l.order.committedSequence≤l'.order.committedSequence ∨ PutsAside l l' := by
  have hl' := hl.step h
  rw [or_iff_not_imp_right]
  intro haside
  refine hl.committed_le hl' fun n hn=>?_
  rcases hn with hdone | ⟨happlying,hrange⟩
  · exact .inl ((hl'.released n).2 (((hl.released n).1 hdone).imp id h.released))
  · rcases h.applying hl happlying hrange with hsame | hreleased | hputs
    · exact .inr hsame
    · exact .inl ((hl'.released n).2 (.inr hreleased))
    · exact absurd hputs haside

end

/-- What was released stays so through a run. -/
lemma steps_released (h : Relation.ReflTransGen (Step capacity) l l') (hn : l.released n) :
    l'.released n := by
  induction h with
  | refl => exact hn
  | tail _ hstep ih => exact hstep.released ih

lemma Reachable.steps (h : Reachable capacity first l)
    (hsteps : Relation.ReflTransGen (Step capacity) l l') : Reachable capacity first l' := by
  induction hsteps with
  | refl => exact h
  | tail _ hstep ih => exact ih.step hstep

/-- Between steps the frontier never goes back: what a state without a step reads as committed has
finished. -/
lemma Reachable.committed_le (hfirst : 0<first) (h : Reachable capacity first l)
    (hidle : l.order.applying=none) (hsteps : Relation.ReflTransGen (Step capacity) l l') :
    l.order.committedSequence≤l'.order.committedSequence := by
  have hl := h.sound hfirst
  have hl' := (h.steps hsteps).sound hfirst
  refine hl.committed_le hl' fun n hn=>.inl ?_
  rcases hn with hdone | ⟨happlying,-⟩
  · exact (hl'.released n).2 (((hl.released n).1 hdone).imp id (steps_released hsteps))
  · rw [hidle] at happlying
    cases happlying

variable (event : PreparedWorldEvent Unit Unit Unit)

def firstReady : OrderedCommitState Unit Unit Unit :=
  { frontier := 1
    entries := (∅ : Finmap fun _ : ℕ=>Entry Unit Unit Unit).insert 1 ⟨{},.light,.ready event⟩
    unfinished := 1
    light := 1 }

lemma reachable_firstReady : Reachable 0 1 ⟨firstReady event,fun _=>False,none⟩ := by
  have hadmit : Reachable 0 1 (⟨{ firstReady event with
      entries := (∅ : Finmap fun _ : ℕ=>Entry Unit Unit Unit).insert 1 ⟨{},.light,.waiting⟩ },
      fun _=>False,none⟩ : Ledger Unit Unit Unit) :=
    Reachable.new.step (.admitEntry 1 {} 0 rfl)
  exact hadmit.step (.insertReady 1 event rfl)

/-- In every state reached the committer's borders and counts are exact, and its frontier never
goes back except where a step of a partial batch is put aside. -/
theorem frontier_accounting (hfirst : 0 < first) (h : Reachable capacity first l) :
    Accounted capacity first l ∧ (∀ l', Step capacity l l' →
        l.order.committedSequence ≤ l'.order.committedSequence ∨ PutsAside l l') ∧
      (l.order.applying=none → ∀ l', Relation.ReflTransGen (Step capacity) l l' →
        l.order.committedSequence ≤ l'.order.committedSequence) :=
  ⟨(h.sound hfirst).accounted,fun _ hstep => hstep.committed_le (h.sound hfirst),
    fun hidle _ hsteps => h.committed_le hfirst hidle hsteps⟩

/-- The first event, ready to be committed. -/
theorem frontier_accounting_first :
    Accounted 0 1 (⟨firstReady .commitOnly,fun _=>False,none⟩ : Ledger Unit Unit Unit) :=
  (frontier_accounting (by decide) (reachable_firstReady .commitOnly)).1

/-- Terrain ordered past a deferred first event fills its lane. -/
lemma reachable_heavy (k : ℕ) (hk : k ≤ maxAdmittedHeavyEvents) :
    ∃ l : Ledger Unit Unit Unit, Reachable 0 1 l ∧ l.order.frontier=1 ∧ l.order.heavy=k ∧
      (∃ footprint slot, l.order.entries.lookup 1=some ⟨footprint,.deferred,slot⟩) ∧
      l.order.finished = .empty ∧ ∀ n, k+1<n → l.order.entries.lookup n=none := by
  induction k with
  | zero =>
    refine ⟨_,Reachable.new.step (.admitDeferred 1 { heavy := true } 0 rfl),rfl,rfl, ⟨_,_,rfl⟩,rfl,fun n hn=>?_⟩
    change ((∅ : Finmap fun _ : ℕ=>Entry Unit Unit Unit).insert 1 _).lookup n=none
    rw [Finmap.lookup_insert_of_ne _ (by omega),Finmap.lookup_empty]
  | succ k ih =>
    obtain ⟨l,hl,hfrontier,hheavy,⟨footprint,slot,hfirst⟩,hfinished,hlater⟩ := ih (by omega)
    have hvalid : l.order.validateSequence (k+2) = .ok () := by
      unfold validateSequence isFinished
      rw [hfrontier,hfinished,Runs.through_of_not_covers Runs.not_covers_empty, hlater _ (by omega)]
      simp
    have hadmit : l.order.admitEntry (k+2) { heavy := true } 0 =
        .ok ({ l.order with heavy := l.order.heavy+1 }.insertEntry (k+2) { heavy := true }
          .heavy) := by
      unfold OrderedCommitState.admitEntry heavyCapacity
      rw [hvalid,hheavy]
      exact if_neg (by omega)
    refine ⟨_,hl.step (.admitEntry (k+2) { heavy := true } 0 hadmit),hfrontier,?_,
      ⟨footprint,slot,?_⟩,hfinished,fun n hn=>?_⟩
    · exact congrArg (· + 1) hheavy
    · exact (Finmap.lookup_insert_of_ne _ (by omega)).trans hfirst
    · exact (Finmap.lookup_insert_of_ne _ (by omega)).trans (hlater n (by omega))

/-- A block-update step is not read as committed while it is applied, a partial batch put aside
takes the frontier back, and terrain promoted at the frontier exceeds the heavy lane. -/
theorem frontier_fenced : (∃ l : Ledger Unit Unit Unit, Reachable 0 1 l ∧ l.order.applying = some 1 ∧
      ¬IsGreatest {m | ∀ n ≤ m, l.order.isFinished n=true ∨ l.order.applying = some n} l.order.committedSequence) ∧
    (∃ l l' : Ledger Unit Unit Unit, Reachable 0 1 l ∧ Step 0 l l' ∧
      l'.order.committedSequence < l.order.committedSequence) ∧
    ∃ l : Ledger Unit Unit Unit, Reachable 0 1 l ∧ maxAdmittedHeavyEvents < l.order.heavy := by
  refine ⟨?_,?_,?_⟩
  · have hrun : ((firstReady (.immediateBlockUpdates [])).nextCommitWithin ⟨true,true,false⟩).map
        (fun out => (out.2.applying,out.2.isFinished 0,out.2.committedSequence)) =
        some (some 1,true,0) := by
      decide +kernel
    obtain ⟨⟨step,order⟩,hnext,hout⟩ := Option.map_eq_some_iff.1 hrun
    simp only [Prod.mk.injEq] at hout
    obtain ⟨happlying,hzero,hcommitted⟩ := hout
    refine ⟨_,(reachable_firstReady _).step (.nextCommitWithin _ hnext),happlying,?_⟩
    rintro ⟨-,hgreatest⟩
    have hone : (1 : ℕ) ≤ order.committedSequence := hgreatest fun n hn => by
      rcases Nat.le_one_iff_eq_zero_or_eq_one.1 hn with rfl | rfl
      · exact .inl hzero
      · exact .inr happlying
    omega
  · have hrun : (((firstReady (.subChunks 0 [(),()] 0)).nextCommitWithin
        ⟨true,true,false⟩).bind fun out => (out.2.nextCommitWithin ⟨true,true,false⟩).map
          fun out => (out.2.committedSequence,(out.2.finishCommit 1).2.committedSequence)) =
        some (1,0) := by
      decide +kernel
    obtain ⟨⟨first,started⟩,hstart,hrun⟩ := Option.bind_eq_some_iff.1 hrun
    obtain ⟨⟨step,order⟩,hnext,hout⟩ := Option.map_eq_some_iff.1 hrun
    simp only [Prod.mk.injEq] at hout
    refine ⟨_,_,((reachable_firstReady _).step (.nextCommitWithin _ hstart)).step
      (.nextCommitWithin _ hnext),.finishCommit 1,?_⟩
    rw [hout.1,hout.2]
    exact Nat.zero_lt_one
  · obtain ⟨l,hl,hfrontier,hheavy,⟨footprint,slot,hfirst⟩,-,-⟩ := reachable_heavy maxAdmittedHeavyEvents le_rfl
    have hpromote : l.order.promoteDeferred 1=some { l.order with
        deferred := l.order.deferred-1
        heavy := l.order.heavy+1
        entries := l.order.entries.insert 1 ⟨footprint,.heavy,slot⟩ } := by
      unfold OrderedCommitState.promoteDeferred
      rw [hfirst]
      exact if_pos rfl
    refine ⟨_,hl.step (.promoteDeferred 1 (.inr (.inl hfrontier.symm)) hpromote),?_⟩
    dsimp only
    omega

end Ledger

end Cinnabar.Ingest
