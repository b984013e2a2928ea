import Cinnabar.Ingest.Frontier

/-! # Looking past chunk data -/

namespace Cinnabar.Ingest

variable {S V O : Type}

def CommitBudget.allows (budget : CommitBudget) (entry : Entry S V O) : Bool :=
  (budget.heavy || !(entry.footprint.heavy || entry.footprint.barrier)) &&
    (budget.chunkData || !isHeavyChunkData entry.footprint)

namespace OrderedCommitState

variable {s : OrderedCommitState S V O} {couple : Bool} {n m start : ℕ} {entry : Entry S V O}
  {event : PreparedWorldEvent S V O} {list rest : List (ℕ × Entry S V O)}
  {earlier skipped : EarlierEvents} {budget : CommitBudget}

/-- A ready event of a free kind that no earlier unfinished event blocks. -/
structure Unblocked (s : OrderedCommitState S V O) (couple : Bool) (n : ℕ) (entry : Entry S V O)
    (event : PreparedWorldEvent S V O) : Prop where
  found : s.Found n entry event
  apart : ∀ m other, m<n → s.entries.lookup m=some other → other.footprint.conflicts couple entry.footprint=false

def Able (s : OrderedCommitState S V O) (n : ℕ) (entry : Entry S V O) : Prop :=
  s.isFree entry.slot=true ∨ s.isPartialBatch n=true ∨ (s.batchWaitsFor entry.slot).isSome=true

/-- Pure chunk data that is able to progress: it waits only on other such chunk data. -/
inductive Progresses (s : OrderedCommitState S V O) (couple : Bool) : ℕ → Prop
  | mk {n : ℕ} {entry : Entry S V O} (hlook : s.entries.lookup n=some entry)
    (hchunk : isHeavyChunkData entry.footprint=true) (hable : s.Able n entry)
    (hpassable : s.Passable s.frontier n)
    (hwaits : ∀ m other, m<n → s.entries.lookup m=some other →
      other.footprint.conflicts couple entry.footprint=true → Progresses s couple m) :
    Progresses s couple n

/-- A ready event, no chunk data itself, that would be unblocked once the chunk data able to
progress were finished. -/
structure Releasable (s : OrderedCommitState S V O) (couple : Bool) (n : ℕ) (entry : Entry S V O)
    (event : PreparedWorldEvent S V O) : Prop where
  found : s.Found n entry event
  other : isHeavyChunkData entry.footprint=false
  waits : ∀ m other, m<n → s.entries.lookup m=some other →
    other.footprint.conflicts couple entry.footprint=true → s.Progresses couple m

lemma commitsNow_iff : s.commitsNow budget earlier entry=true ↔ ∃ event,
    entry.slot = .ready event ∧ budget.allows entry=true ∧ s.kindIsFree event=true ∧
      earlier.blocks entry.footprint budget.couplePosition=false := by
  unfold commitsNow
  split
  next event hslot =>
    simp only [Bool.and_eq_true (_ && _),Bool.not_eq_true',CommitBudget.allows]
    constructor
    · rintro ⟨⟨hallows,hfree⟩,hblocks⟩
      exact ⟨event,hslot,hallows,hfree,hblocks⟩
    · rintro ⟨other,hother,hallows,hfree,hblocks⟩
      rw [hslot] at hother
      cases hother
      exact ⟨⟨hallows,hfree⟩,hblocks⟩
  next hno =>
    refine iff_of_false (fun hfalse=>nomatch hfalse) ?_
    rintro ⟨event,hslot,-⟩
    exact hno event hslot

lemma Lists.first_le (h : s.Lists start ((n,entry) :: rest)) {other : Entry S V O}
    (hm : start ≤ m) (hother : s.entries.lookup m=some other) : n ≤ m := by
  obtain ⟨-,-,hnone,-⟩ := h.cons
  by_contra hlt
  rw [hnone m hm (not_le.1 hlt)] at hother
  cases hother

/-- Before the next entry lies a gap nothing may pass, or all has finished. -/
lemma earlierAt_cases (h : s.Shape) (hstart : s.frontier ≤ start)
    (hlist : s.Lists start ((n,entry) :: rest)) (hpassable : s.Passable s.frontier start) :
    ((∀ earlier, (s.earlierAt start n earlier).isBarrier=true) ∧
        ∀ m, start ≤ m → (s.entries.lookup m).isSome → ¬s.Passable s.frontier m) ∨
      (∀ earlier, s.earlierAt start n earlier=earlier) ∧ s.Passable s.frontier n := by
  obtain ⟨hle,hlook,hnone,-⟩ := hlist.cons
  have hsome : (s.entries.lookup n).isSome=true := Option.isSome_of_eq_some hlook
  by_cases hgap : n=s.finishedThroughBefore start n+1
  · refine .inr ⟨fun earlier=>if_neg (not_not.2 hgap),fun m hm hlt=>?_⟩
    by_cases hbefore : m < start
    · exact hpassable m hm hbefore
    · exact .inr (covers_before h.runs (h.positive.trans_le hstart) hgap (not_lt.1 hbefore) hlt)
  · obtain ⟨hlow,hhigh,-,hnot⟩ := h.throughBefore_spec hstart hle hsome
    refine .inl ⟨fun earlier=>?_,fun m hm hmsome hpast=>?_⟩
    · unfold earlierAt
      rw [if_pos hgap]
      rfl
    · -- an entry from here on is the next one or lies after it
      have hnm : n ≤ m := by
        by_contra hlt
        rw [hnone m hm (not_le.1 hlt)] at hmsome
        cases hmsome
      have hlt : s.finishedThroughBefore start n+1<n := lt_of_le_of_ne hhigh (Ne.symm hgap)
      rcases hpast _ (hstart.trans hlow) (hlt.trans_le hnm) with hentry | hcovers
      · rw [hnone _ hlow hlt] at hentry
        cases hentry
      · exact hnot (.inr hcovers)

lemma Passable.next (h : s.Passable s.frontier n) (hlook : s.entries.lookup n=some entry) :
    s.Passable s.frontier (n+1) := by
  intro m hm hlt
  rcases Nat.lt_succ_iff_lt_or_eq.1 hlt with hbefore | rfl
  · exact h m hm hbefore
  · exact .inl (Option.isSome_of_eq_some hlook)

variable {P : ℕ → Prop}

/-- The summary at the next entry, and past it. -/
lemma Sums.reach (h : s.Sums couple earlier fun m=>m < start ∧ P m) (hlist : s.Lists start ((n,entry) :: rest)) :
    s.Sums couple earlier fun m=>m<n ∧ P m := by
  obtain ⟨hle,-,hnone,-⟩ := hlist.cons
  refine h.congr fun m hm=>and_congr_left fun _=>⟨fun hlt=>hlt.trans_le hle,fun hlt=>?_⟩
  by_contra hge
  rw [hnone m (not_lt.1 hge) hlt] at hm
  cases hm

lemma Sums.skip (h : s.Sums couple earlier fun m=>m<n ∧ P m) (hn : ¬P n) : s.Sums couple earlier fun m=>m<n+1 ∧ P m :=
  h.congr fun m _=>⟨fun ⟨hlt,hm⟩=>⟨hlt.trans (Nat.lt_succ_self _),hm⟩,fun ⟨hlt,hm⟩ =>
    ⟨lt_of_le_of_ne (Nat.lt_succ_iff.1 hlt) (by rintro rfl; exact hn hm),hm⟩⟩

lemma Sums.take (h : s.Sums couple earlier fun m=>m<n ∧ P m) (hlook : s.entries.lookup n=some entry) (hn : P n) :
    s.Sums couple (earlier.add entry.footprint couple) fun m=>m<n+1 ∧ P m := by
  refine (h.add hlook).congr fun m _=>⟨?_,fun ⟨hlt,hm⟩=>?_⟩
  · rintro (⟨hlt,hm⟩ | rfl)
    · exact ⟨hlt.trans (Nat.lt_succ_self _),hm⟩
    · exact ⟨Nat.lt_succ_self _,hn⟩
  · rcases Nat.lt_succ_iff_lt_or_eq.1 hlt with hbefore | rfl
    · exact .inl ⟨hbefore,hm⟩
    · exact .inr rfl

lemma scanUnblocked_first (budget : CommitBudget) (h : s.Shape) (hstart : s.frontier ≤ start)
    (hlist : s.Lists start list)
    (hpassable : s.Passable s.frontier start)
    (hsums : s.Sums budget.couplePosition earlier fun m=>m < start ∧ True) :
    (∀ n, (s.scanUnblocked budget start earlier list).1=some n → ∃ entry event,
      s.Unblocked budget.couplePosition n entry event ∧ budget.allows entry=true) ∧
    ∀ m entry event, start ≤ m → s.Unblocked budget.couplePosition m entry event → budget.allows entry=true →
        ∃ n ≤ m, (s.scanUnblocked budget start earlier list).1=some n := by
  induction list generalizing start earlier with
  | nil =>
    refine ⟨fun n hn=>(by cases hn),fun m entry event hm hunblocked _=>?_⟩
    have hmem := (hlist.mem m entry).2 ⟨hm,hunblocked.found.looked⟩
    exact absurd hmem List.not_mem_nil
  | cons first rest ih =>
    obtain ⟨n,entry⟩ := first
    obtain ⟨hle,hlook,-,hrest⟩ := hlist.cons
    unfold scanUnblocked
    rcases earlierAt_cases h hstart hlist hpassable with ⟨hbarrier,hno⟩ | ⟨hsame,hreached⟩
    · rw [if_pos (hbarrier earlier)]
      exact ⟨fun n hn=>(by cases hn),fun m other event hm hunblocked _=>absurd
        hunblocked.found.passable (hno m hm (Option.isSome_of_eq_some hunblocked.found.looked))⟩
    · rw [hsame]
      have hhere := hsums.reach hlist
      by_cases hbarrier : earlier.isBarrier=true
      · rw [if_pos hbarrier]
        obtain ⟨k,other,hk,hother,hb⟩ := hhere.barrier.1 hbarrier
        refine ⟨fun n hn=>(by cases hn),fun m entry event hm hunblocked _=>?_⟩
        have hapart := hunblocked.apart k other (hk.1.trans_le (hlist.first_le hm hunblocked.found.looked)) hother
        rw [Footprint.conflicts_of_barrier hb] at hapart
        cases hapart
      · rw [if_neg hbarrier]
        by_cases hcommits : s.commitsNow budget earlier entry=true
        · rw [if_pos hcommits]
          obtain ⟨event,hslot,hallows,hfree,hblocks⟩ := commitsNow_iff.1 hcommits
          refine ⟨fun k hk=>?_,fun m other event hm hunblocked _ =>
            ⟨n,hlist.first_le hm hunblocked.found.looked,rfl⟩⟩
          cases hk
          refine ⟨entry,event,⟨⟨hstart.trans hle,hlook,hslot,hfree,hreached⟩,?_⟩,hallows⟩
          intro m other hlt hother
          by_contra hconflicts
          rw [(hhere.blocks entry.footprint).2
            ⟨m,other,⟨hlt,trivial⟩,hother,Bool.eq_true_of_not_eq_false hconflicts⟩] at hblocks
          cases hblocks
        · rw [if_neg hcommits]
          obtain ⟨hsome,hfirst⟩ := ih (hstart.trans (hle.trans (Nat.le_succ _)))
            hrest (hreached.next hlook) (hhere.take hlook trivial)
          refine ⟨hsome,fun m other event hm hunblocked hallows=>?_⟩
          refine hfirst m other event (Nat.succ_le_of_lt (lt_of_le_of_ne
            (hlist.first_le hm hunblocked.found.looked) ?_)) hunblocked hallows
          rintro rfl
          have heq := hunblocked.found.looked
          rw [hlook] at heq
          cases heq
          refine hcommits (commitsNow_iff.2 ⟨event,hunblocked.found.slot,hallows, hunblocked.found.free,?_⟩)
          by_contra hblocks
          obtain ⟨k,other,⟨hk,-⟩,hother,hconflicts⟩ :=
            (hhere.blocks entry.footprint).1 (Bool.eq_true_of_not_eq_false hblocks)
          rw [hunblocked.apart k other hk hother] at hconflicts
          cases hconflicts

def FirstSkipped (s : OrderedCommitState S V O) (couple : Bool) (start : ℕ) : Option ℕ → Prop
  | none => ∀ m < start, ¬s.Progresses couple m
  | some f => s.isPartialBatch f=true ∨ f < start ∧ ∃ entry event,
      s.Unblocked couple f entry event ∧ isHeavyChunkData entry.footprint=true

lemma progresses_iff (hlook : s.entries.lookup n=some entry) (hpassable : s.Passable s.frontier n)
    (hsums : s.Sums couple earlier fun m=>m<n ∧ ¬s.Progresses couple m) :
    s.Progresses couple n ↔ earlier.blocks entry.footprint couple=false ∧
      isHeavyChunkData entry.footprint=true ∧ s.Able n entry := by
  constructor
  · rintro ⟨hother,hchunk,hable,-,hwaits⟩
    rw [hlook] at hother
    cases hother
    refine ⟨?_,hchunk,hable⟩
    by_contra hblocks
    obtain ⟨m,other,⟨hlt,hno⟩,hother,hconflicts⟩ :=
      (hsums.blocks entry.footprint).1 (Bool.eq_true_of_not_eq_false hblocks)
    exact hno (hwaits m other hlt hother hconflicts)
  · rintro ⟨hblocks,hchunk,hable⟩
    refine .mk hlook hchunk hable hpassable fun m other hlt hother hconflicts=>?_
    by_contra hno
    rw [(hsums.blocks entry.footprint).2 ⟨m,other,⟨hlt,hno⟩,hother,hconflicts⟩] at hblocks
    cases hblocks

variable {firstSkipped : Option ℕ}

lemma FirstSkipped.next (hs : s.Shape)
    (h : s.FirstSkipped couple n firstSkipped) (hlook : s.entries.lookup n=some entry)
    (hpassable : s.Passable s.frontier n) (hprogresses : s.Progresses couple n) :
    s.FirstSkipped couple (n+1)
      (firstSkipped.or (some ((s.batchWaitsFor entry.slot).getD n))) := by
  cases firstSkipped with
  | some f =>
    exact h.imp id fun ⟨hlt,hunblocked⟩=>⟨hlt.trans (Nat.lt_succ_self _),hunblocked⟩
  | none =>
    obtain ⟨hother,hchunk,hable,-,hwaits⟩ := hprogresses
    rw [hlook] at hother
    cases hother
    rcases hslot : s.batchWaitsFor entry.slot with _ | p
    · rcases hable with hfree | hbatch | hwaiting
      · unfold isFree at hfree
        split at hfree
        next event hready =>
          refine .inr ⟨Nat.lt_succ_self _,entry,event,⟨⟨?_,hlook,hready,hfree,hpassable⟩,
            fun m other hlt hother=>?_⟩,hchunk⟩
          · exact (hs.unfinished n (Option.isSome_of_eq_some hlook)).1
          · by_contra hconflicts
            exact h m hlt (hwaits m other hlt hother (Bool.eq_true_of_not_eq_false hconflicts))
        next => cases hfree
      · exact .inl hbatch
      · rw [hslot] at hwaiting
        cases hwaiting
    · unfold batchWaitsFor at hslot
      split at hslot
      · obtain ⟨pending,hpending,heq⟩ := Option.map_eq_some_iff.1 hslot
        refine .inl ?_
        unfold isPartialBatch
        rw [hpending,← heq]
        simp
      · cases hslot

/-- The lookahead finds chunk data exactly where a ready event waits on nothing else. -/
lemma chunkDataHoldingReadyWork_spec (h : s.Shape) (hstart : s.frontier ≤ start) (hlist : s.Lists start list)
    (hpassable : s.Passable s.frontier start)
    (hearlier : s.Sums couple earlier fun m=>m < start ∧ ¬s.Progresses couple m)
    (hskipped : s.Sums couple skipped fun m=>m < start ∧ s.Progresses couple m)
    (hfirst : s.FirstSkipped couple start firstSkipped) :
    (∀ f, (s.chunkDataHoldingReadyWork couple start earlier skipped firstSkipped list).1=some f →
      ∃ n, s.FirstSkipped couple n (some f) ∧ ∃ entry event, s.Releasable couple n entry event) ∧
    ∀ m entry event, start ≤ m → s.Releasable couple m entry event →
      ¬s.Unblocked couple m entry event → ∃ f n, n ≤ m ∧ s.FirstSkipped couple n (some f) ∧
        (s.chunkDataHoldingReadyWork couple start earlier skipped firstSkipped list).1=some f := by
  induction list generalizing start earlier skipped firstSkipped with
  | nil =>
    refine ⟨fun f hf=>(by cases hf),fun m entry event hm hreleasable _=>?_⟩
    have hmem := (hlist.mem m entry).2 ⟨hm,hreleasable.found.looked⟩
    exact absurd hmem List.not_mem_nil
  | cons first rest ih =>
    obtain ⟨n,entry⟩ := first
    obtain ⟨hle,hlook,hnone,hrest⟩ := hlist.cons
    unfold chunkDataHoldingReadyWork
    rcases earlierAt_cases h hstart hlist hpassable with ⟨hbarrier,hno⟩ | ⟨hsame,hreached⟩
    · rw [if_pos (hbarrier earlier)]
      exact ⟨fun n hn=>(by cases hn),fun m other event hm hreleasable _=>absurd
        hreleasable.found.passable (hno m hm (Option.isSome_of_eq_some hreleasable.found.looked))⟩
    · rw [hsame]
      have hblocking := hearlier.reach hlist
      have hskipping := hskipped.reach hlist
      have hfirst' : s.FirstSkipped couple n firstSkipped := by
        cases firstSkipped with
        | none =>
          intro m hlt hprogresses
          by_cases hbefore : m < start
          · exact hfirst m hbefore hprogresses
          · obtain ⟨hother,-⟩ := hprogresses
            rw [hnone m (not_lt.1 hbefore) hlt] at hother
            cases hother
        | some f => exact hfirst.imp id fun ⟨hlt,hunblocked⟩=>⟨hlt.trans_le hle,hunblocked⟩
      have hnext : s.frontier≤n+1 := hstart.trans (hle.trans (Nat.le_succ _))
      by_cases hbarrier : earlier.isBarrier=true
      · rw [if_pos hbarrier]
        obtain ⟨k,other,hk,hother,hb⟩ := hblocking.barrier.1 hbarrier
        refine ⟨fun n hn=>(by cases hn),fun m entry event hm hreleasable _=>?_⟩
        exact absurd (hreleasable.waits k other (hk.1.trans_le
          (hlist.first_le hm hreleasable.found.looked)) hother (Footprint.conflicts_of_barrier hb)) hk.2
      · rw [if_neg hbarrier]
        have hiff := progresses_iff hlook hreached hblocking
        by_cases hprogresses : s.Progresses couple n
        · obtain ⟨hblocks,hchunk,hable⟩ := hiff.1 hprogresses
          rw [if_pos (by
            rw [hblocks,hchunk]
            simpa [Able,or_assoc] using hable)]
          obtain ⟨hsome,hall⟩ := ih hnext hrest (hreached.next hlook)
            (hblocking.skip (not_not.2 hprogresses)) (hskipping.take hlook hprogresses)
            (hfirst'.next h hlook hreached hprogresses)
          refine ⟨hsome,fun m other event hm hreleasable hblocked=>?_⟩
          refine hall m other event (Nat.succ_le_of_lt (lt_of_le_of_ne
            (hlist.first_le hm hreleasable.found.looked) ?_)) hreleasable hblocked
          rintro rfl
          have heq := hreleasable.found.looked
          rw [hlook] at heq
          cases heq
          rw [hreleasable.other] at hchunk
          cases hchunk
        · rw [if_neg (by
            intro hcond
            refine hprogresses (hiff.2 ?_)
            simp only [Bool.and_eq_true,Bool.not_eq_true',Bool.or_eq_true] at hcond
            exact ⟨hcond.1.1,hcond.1.2,or_assoc.1 hcond.2⟩)]
          -- an event here is releasable where nothing that is stuck blocks it
          by_cases hwork : (!earlier.blocks entry.footprint couple && s.isFree entry.slot &&
              skipped.blocks entry.footprint couple) = true
          · rw [if_pos hwork]
            simp only [Bool.and_eq_true,Bool.not_eq_true'] at hwork
            obtain ⟨⟨hblocks,hfree⟩,hheld⟩ := hwork
            obtain ⟨k,held,⟨hk,hkprogresses⟩,hkheld,hkconflicts⟩ := (hskipping.blocks entry.footprint).1 hheld
            have hsomeFirst : ∃ f, firstSkipped=some f := by
              cases firstSkipped with
              | none => exact absurd hkprogresses (hfirst' k hk)
              | some f => exact ⟨f,rfl⟩
            obtain ⟨f,rfl⟩ := hsomeFirst
            have hfree' := hfree
            unfold isFree at hfree'
            split at hfree'
            next event hready =>
              refine ⟨fun g hg=>?_,fun m other event hm hreleasable _ =>
                ⟨f,n,hlist.first_le hm hreleasable.found.looked,hfirst',rfl⟩⟩
              cases hg
              refine ⟨n,hfirst',entry,event, ⟨hstart.trans hle,hlook,hready,hfree',hreached⟩,?_,?_⟩
              · by_contra hchunk
                exact hprogresses (hiff.2 ⟨hblocks,Bool.eq_true_of_not_eq_false hchunk,.inl hfree⟩)
              · intro m other hlt hother hconflicts
                by_contra hno
                rw [(hblocking.blocks entry.footprint).2 ⟨m,other,⟨hlt,hno⟩,hother,hconflicts⟩] at hblocks
                cases hblocks
            next => cases hfree'
          · rw [if_neg hwork]
            have hfirst'' : s.FirstSkipped couple (n+1) firstSkipped := by
              cases firstSkipped with
              | none =>
                intro m hlt
                rcases Nat.lt_succ_iff_lt_or_eq.1 hlt with hbefore | rfl
                · exact hfirst' m hbefore
                · exact hprogresses
              | some f =>
                exact hfirst'.imp id fun ⟨hlt,hunblocked⟩ =>
                  ⟨hlt.trans (Nat.lt_succ_self _),hunblocked⟩
            obtain ⟨hsome,hall⟩ := ih hnext hrest (hreached.next hlook)
              (hblocking.take hlook hprogresses) (hskipping.skip hprogresses) hfirst''
            refine ⟨hsome,fun m other event hm hreleasable hblocked=>?_⟩
            refine hall m other event (Nat.succ_le_of_lt (lt_of_le_of_ne
              (hlist.first_le hm hreleasable.found.looked) ?_)) hreleasable hblocked
            rintro rfl
            have heq := hreleasable.found.looked
            rw [hlook] at heq
            cases heq
            refine hwork ?_
            have hblocks : earlier.blocks entry.footprint couple=false := by
              by_contra hblocks
              obtain ⟨k,other,⟨hk,hno⟩,hother,hconflicts⟩ :=
                (hblocking.blocks entry.footprint).1 (Bool.eq_true_of_not_eq_false hblocks)
              exact hno (hreleasable.waits k other hk hother hconflicts)
            have hheld : skipped.blocks entry.footprint couple=true := by
              by_contra hheld
              refine hblocked ⟨hreleasable.found,fun k other hk hother=>?_⟩
              by_contra hconflicts
              have hconflicts := Bool.eq_true_of_not_eq_false hconflicts
              exact hheld ((hskipping.blocks entry.footprint).2 ⟨k,other,
                ⟨hk,hreleasable.waits k other hk hother hconflicts⟩,hother,hconflicts⟩)
            have hfree : s.isFree entry.slot=true := by
              rw [hreleasable.found.slot]
              exact hreleasable.found.free
            rw [hblocks,hfree,hheld]
            rfl

/-- What a pass that may not spend on chunk data looks past to: the partial batch, or the chunk
data that comes first, while a ready event waits on such only. -/
structure LooksAhead (s : OrderedCommitState S V O) (budget : CommitBudget) (n : ℕ) : Prop where
  nothing : (s.scanUnblocked budget s.frontier {} s.scan).1=none
  work : ∃ m entry event, s.Releasable budget.couplePosition m entry event
  chunk : s.isPartialBatch n=true ∨ ∃ entry event,
    s.Unblocked budget.couplePosition n entry event ∧ isHeavyChunkData entry.footprint=true ∧
      ∀ m other ready, s.Releasable budget.couplePosition m other ready → n < m

lemma Unblocked.releasable (h : s.Unblocked couple n entry event)
    (hother : isHeavyChunkData entry.footprint=false) : s.Releasable couple n entry event where
  found := h.found
  other := hother
  waits := fun m other hlt hlook hconflicts=>by
    rw [h.apart m other hlt hlook] at hconflicts
    cases hconflicts

lemma findUnblocked_within (h : s.Shape) (hheavy : budget.heavy=true) (hchunk : budget.chunkData=false) :
    (∀ n, (s.findUnblocked budget).1=some n → (∃ entry event, s.Unblocked budget.couplePosition n entry event ∧
          isHeavyChunkData entry.footprint=false) ∨ s.LooksAhead budget n) ∧
      ((s.findUnblocked budget).1=none →
        ∀ m entry event, ¬s.Releasable budget.couplePosition m entry event) := by
  have hbefore : s.Passable s.frontier s.frontier := fun m hm hlt=>absurd hm hlt.not_ge
  have hnone : ∀ {P : ℕ → Prop}, s.Sums budget.couplePosition {} fun m=>m < s.frontier ∧ P m :=
    sums_empty fun m hm hlt=>(h.unfinished m hm).1.not_gt hlt.1
  have hallows : ∀ entry : Entry S V O, budget.allows entry=true ↔ isHeavyChunkData entry.footprint=false := by
    unfold CommitBudget.allows
    rw [hheavy,hchunk]
    simp
  obtain ⟨hscan,hscanFirst⟩ := scanUnblocked_first budget h (le_refl _) s.lists_scan hbefore (hnone (P := fun _=>True))
  have hfull : ∀ entry : Entry S V O, ({ budget with chunkData := true } : CommitBudget).allows entry=true := by
    unfold CommitBudget.allows
    rw [hheavy]
    simp
  obtain ⟨hrescan,hrescanFirst⟩ := scanUnblocked_first { budget with chunkData := true } h (le_refl _)
    s.lists_scan hbefore (hnone (P := fun _=>True))
  have hunskipped : s.FirstSkipped budget.couplePosition s.frontier none := fun m hlt ⟨hlook,_,_,_,_⟩ =>
      (h.unfinished m (Option.isSome_of_eq_some hlook)).1.not_gt hlt
  obtain ⟨hahead,haheadFirst⟩ := chunkDataHoldingReadyWork_spec h (le_refl _) s.lists_scan hbefore
    hnone hnone hunskipped
  unfold findUnblocked
  rcases hfirst : s.scanUnblocked budget s.frontier {} s.scan with ⟨found,earlier⟩
  rw [hfirst] at hscan hscanFirst
  cases found with
  | some n =>
    refine ⟨fun k hk=>.inl ?_,fun hno=>nomatch hno⟩
    cases hk
    obtain ⟨entry,event,hunblocked,hallowed⟩ := hscan n rfl
    exact ⟨entry,event,hunblocked,(hallows entry).1 hallowed⟩
  | none =>
    have hblocked : ∀ {m entry event}, s.Releasable budget.couplePosition m entry event →
        ¬s.Unblocked budget.couplePosition m entry event := by
      intro m entry event hreleasable hunblocked
      obtain ⟨n,-,hn⟩ := hscanFirst m entry event hunblocked.found.frontier hunblocked
        ((hallows entry).2 hreleasable.other)
      cases hn
    dsimp only
    rw [if_neg (show ¬(!budget.heavy || budget.chunkData) = true by rw [hheavy,hchunk]; decide)]
    rcases hholding : s.chunkDataHoldingReadyWork budget.couplePosition s.frontier {} {} none s.scan
      with ⟨holding,between⟩
    rw [hholding] at hahead haheadFirst
    cases holding with
    | none =>
      refine ⟨fun n hn=>(by cases hn),fun _ m entry event hreleasable=>?_⟩
      obtain ⟨f,n,-,-,hf⟩ := haheadFirst m entry event hreleasable.found.frontier hreleasable (hblocked hreleasable)
      cases hf
    | some f =>
      obtain ⟨m,hskipped,entry,event,hreleasable⟩ := hahead f rfl
      dsimp only
      by_cases hbatch : s.isPartialBatch f=true
      · rw [if_pos hbatch]
        refine ⟨fun n hn=>.inr ?_,fun hno=>nomatch hno⟩
        cases hn
        exact ⟨by rw [hfirst],⟨m,entry,event,hreleasable⟩,.inl hbatch⟩
      · rw [if_neg hbatch]
        obtain ⟨-,skippedEntry,skippedEvent,hunblocked,-⟩ := hskipped.resolve_left hbatch
        obtain ⟨n,hle,hn⟩ := hrescanFirst f skippedEntry skippedEvent hunblocked.found.frontier
          hunblocked (hfull skippedEntry)
        rw [hn]
        refine ⟨fun k hk=>.inr ?_,fun hno=>nomatch hno⟩
        cases hk
        obtain ⟨nextEntry,nextEvent,hnext,-⟩ := hrescan n hn
        refine ⟨by rw [hfirst],⟨m,entry,event,hreleasable⟩,.inr ⟨nextEntry,nextEvent,hnext,?_,
          fun k other ready hother=>hle.trans_lt ?_⟩⟩
        · -- the first scan would have found anything else
          by_contra hother
          exact hblocked (hnext.releasable (Bool.eq_false_of_not_eq_true hother)) hnext
        · obtain ⟨g,past,hpast,hbefore,hg⟩ := haheadFirst k other ready hother.found.frontier hother (hblocked hother)
          cases hg
          exact (hbefore.resolve_left hbatch).1.trans_le hpast

/-- What the last pass took up: the event being applied, or the batch installed. -/
def taken (s : OrderedCommitState S V O) : Option ℕ :=
  s.applying.or (s.pendingSubChunks.map (·.sequence))

variable (pending : PendingSubChunkCommit S)

lemma continueSubChunks_applying : (s.continueSubChunks pending).2.applying=some pending.sequence := by
  unfold continueSubChunks
  cases pending.entries <;> rfl

lemma continueSubChunks_taken : (s.continueSubChunks pending).2.taken=some pending.sequence := by
  unfold taken
  rw [continueSubChunks_applying]
  rfl

lemma popReady_taken (budget : CommitBudget) (hidle : s.applying=none)
    (hlook : s.entries.lookup n=some entry) (hslot : entry.slot = .ready event) (hfree : s.kindIsFree event=true) :
    ∃ step s', s.popReady budget n=some (step,s') ∧ s'.taken=some n ∧
      (s'.applying=none → s.pendingSubChunks=none) := by
  unfold popReady
  rw [hlook]
  dsimp only
  rw [hslot]
  cases event with
  | subChunks dimension entries duration =>
    refine ⟨_,_,rfl,?_,fun _=>Option.isNone_iff_eq_none.1 hfree⟩
    unfold taken
    rw [show (s.activate n entry).applying=none from hidle]
    rfl
  | immediateBlockUpdates updates => exact ⟨_,_,rfl,rfl,fun hno=>nomatch hno⟩
  | immediateSyncedBlockUpdates updates => exact ⟨_,_,rfl,rfl,fun hno=>nomatch hno⟩
  | subChunk dimension item duration => exact ⟨_,_,rfl,rfl,fun hno=>nomatch hno⟩
  | blockUpdates result => exact ⟨_,_,rfl,rfl,fun hno=>nomatch hno⟩
  | syncedBlockUpdates result => exact ⟨_,_,rfl,rfl,fun hno=>nomatch hno⟩
  | commitOnly => exact ⟨_,_,rfl,rfl,fun hno=>nomatch hno⟩
  | other event => exact ⟨_,_,rfl,rfl,fun hno=>nomatch hno⟩

/-- What a pass noted down does not matter to the next. -/
lemma findUnblocked_noted (heavy : Bool) (noted : EarlierEvents) :
    ({ s with
      lastStepHeavy := heavy
      earlier := noted } : OrderedCommitState S V O).findUnblocked budget =
      s.findUnblocked budget := by
  have hscan : ∀ budget start earlier list, ({ s with
      lastStepHeavy := heavy
      earlier := noted } : OrderedCommitState S V O).scanUnblocked budget start earlier list =
      s.scanUnblocked budget start earlier list := by
    intro budget start earlier list
    induction list generalizing start earlier with
    | nil => rfl
    | cons first rest ih =>
      unfold scanUnblocked
      dsimp only
      rw [ih]
      rfl
  have hahead : ∀ couple start earlier skipped firstSkipped list, ({ s with
      lastStepHeavy := heavy
      earlier := noted } : OrderedCommitState S V O).chunkDataHoldingReadyWork couple start earlier
        skipped firstSkipped list =
      s.chunkDataHoldingReadyWork couple start earlier skipped firstSkipped list := by
    intro couple start earlier skipped firstSkipped list
    induction list generalizing start earlier skipped firstSkipped with
    | nil => rfl
    | cons first rest ih =>
      unfold chunkDataHoldingReadyWork
      dsimp only
      rw [ih,ih]
      rfl
  unfold findUnblocked
  simp only [hscan,hahead]
  rfl

/-- A pass that does not continue the partial batch at once takes what it finds. -/
lemma nextCommitWithin_eq (hidle : s.applying=none)
    (hbatch : (if budget.heavy && budget.chunkData then s.pendingSubChunks else none) = none) :
    s.nextCommitWithin budget = { s with
      lastStepHeavy := false
      earlier := (s.findUnblocked budget).2 }.takeFound budget (s.findUnblocked budget).1 := by
  have hfind : ({ s with lastStepHeavy := false } : OrderedCommitState S V O).findUnblocked budget =
      s.findUnblocked budget := findUnblocked_noted false s.earlier
  unfold nextCommitWithin
  rw [if_neg (show ¬s.applying.isSome=true by rw [hidle]; decide),hbatch]
  rw [hfind]

lemma nextCommitWithin_spec (h : s.Shape) (hidle : s.applying=none)
    (hheavy : budget.heavy=true) (hchunk : budget.chunkData=false) :
    (∃ s', s.nextCommitWithin budget=some (none,s') ∧
        ∀ m entry event, ¬s.Releasable budget.couplePosition m entry event) ∨
      ∃ step s' n, s.nextCommitWithin budget=some (some step,s') ∧ s'.taken=some n ∧
        (s'.applying=none → s.pendingSubChunks=none) ∧ ((∃ entry event,
          s.Unblocked budget.couplePosition n entry event ∧
            isHeavyChunkData entry.footprint=false) ∨ s.LooksAhead budget n) := by
  obtain ⟨hfound,hnone⟩ := findUnblocked_within h hheavy hchunk
  rw [nextCommitWithin_eq hidle (by rw [hchunk,Bool.and_false]; rfl)]
  rcases hunblocked : s.findUnblocked budget with ⟨found,noted⟩
  rw [hunblocked] at hfound hnone
  cases found with
  | none => exact .inl ⟨_,rfl,hnone rfl⟩
  | some n =>
    refine .inr ?_
    have hn := hfound n rfl
    unfold takeFound
    dsimp only
    rcases hbatch : s.pendingSubChunks.filter fun pending=>pending.sequence=n with _ | pending
    · -- no partial batch is continued, so the entry is ready
      have hready : ∃ entry event, s.entries.lookup n=some entry ∧
          entry.slot = .ready event ∧ s.kindIsFree event=true := by
        have honto : ¬s.isPartialBatch n=true := by
          intro honto
          obtain ⟨p,hp,hsame⟩ := (Option.any_eq_true _ _).1 honto
          rw [Option.filter_eq_some_iff.2 ⟨hp,hsame⟩] at hbatch
          cases hbatch
        rcases hn with ⟨entry,event,hunblocked,-⟩ | hahead
        · exact ⟨entry,event,hunblocked.found.looked,hunblocked.found.slot,hunblocked.found.free⟩
        · obtain ⟨entry,event,hunblocked,-⟩ := hahead.chunk.resolve_left honto
          exact ⟨entry,event,hunblocked.found.looked,hunblocked.found.slot,hunblocked.found.free⟩
      obtain ⟨entry,event,hlook,hslot,hfree⟩ := hready
      obtain ⟨step,s',hpop,htaken,hstarts⟩ := popReady_taken (s := { s with
          lastStepHeavy := false
          earlier := noted }) budget hidle hlook hslot hfree
      exact ⟨step,s',n,by rw [hbatch,hpop]; rfl,htaken,hstarts,hn⟩
    · obtain ⟨hpending,hsame⟩ := Option.filter_eq_some_iff.1 hbatch
      rw [decide_eq_true_eq] at hsame
      have htaken := continueSubChunks_taken (s := { s with
        lastStepHeavy := false
        earlier := noted }) pending
      rw [hsame] at htaken
      refine ⟨_,_,n,by rw [hbatch]; rfl,htaken,fun hno=>?_,hn⟩
      rw [continueSubChunks_applying] at hno
      cases hno

end OrderedCommitState

end Cinnabar.Ingest
