import Cinnabar.Ingest.Ordered

/-! # What a commit pass can do -/

namespace Cinnabar.Ingest

open List

variable {S V O : Type}

def Slot.isActive : Slot S V O → Bool
  | .active => true
  | _ => false

def Entry.activated (entry : Entry S V O) : Entry S V O := { entry with slot := .active }

namespace OrderedCommitState

variable {s s' : OrderedCommitState S V O} {n m start : ℕ} {entry : Entry S V O}
  {list rest : List (ℕ × Entry S V O)}

def Active (s : OrderedCommitState S V O) (n : ℕ) : Prop :=
  ∃ entry, s.entries.lookup n=some entry ∧ entry.slot = .active

structure Lists (s : OrderedCommitState S V O) (start : ℕ) (list : List (ℕ × Entry S V O)) :
    Prop where
  ascending : list.Pairwise fun a b=>a.1<b.1
  mem : ∀ n entry, (n,entry) ∈ list ↔ start≤n ∧ s.entries.lookup n=some entry

lemma lists_scan (s : OrderedCommitState S V O) : s.Lists s.frontier s.scan where
  ascending := by
    refine pairwise_filterMap.2 ((Finset.sortedLT_sort _).pairwise.imp ?_)
    intro a b hlt x hx y hy
    obtain ⟨_,-,rfl⟩ := Option.map_eq_some_iff.1 hx
    obtain ⟨_,-,rfl⟩ := Option.map_eq_some_iff.1 hy
    exact hlt
  mem := by
    intro n entry
    unfold scan
    rw [mem_filterMap]
    simp only [Finset.mem_sort,Finset.mem_filter,Finmap.mem_keys,Option.map_eq_some_iff, Prod.mk.injEq]
    constructor
    · rintro ⟨_,⟨-,hle⟩,_,hlook,rfl,rfl⟩
      exact ⟨hle,hlook⟩
    · rintro ⟨hle,hlook⟩
      exact ⟨n,⟨Finmap.mem_of_lookup_eq_some hlook,hle⟩,entry,hlook,rfl,rfl⟩

lemma Lists.cons (h : s.Lists start ((n,entry) :: rest)) : start≤n ∧ s.entries.lookup n=some entry ∧
      (∀ m, start ≤ m → m<n → s.entries.lookup m=none) ∧ s.Lists (n+1) rest := by
  obtain ⟨hfirst,hrest⟩ := pairwise_cons.1 h.ascending
  obtain ⟨hle,hlook⟩ := (h.mem n entry).1 (.head _)
  have hlater : ∀ m other, (m,other) ∈ rest ↔ n < m ∧ s.entries.lookup m=some other := by
    intro m other
    constructor
    · intro hmem
      exact ⟨hfirst _ hmem,((h.mem m other).1 (.tail _ hmem)).2⟩
    · rintro ⟨hlt,hother⟩
      rcases mem_cons.1 ((h.mem m other).2 ⟨hle.trans hlt.le,hother⟩) with heq | hmem
      · cases heq
        exact absurd hlt (lt_irrefl _)
      · exact hmem
  refine ⟨hle,hlook,fun m hstart hlt=>?_,hrest,fun m other=>hlater m other⟩
  by_contra hne
  obtain ⟨other,hother⟩ := Option.ne_none_iff_exists'.1 hne
  rcases mem_cons.1 ((h.mem m other).2 ⟨hstart,hother⟩) with heq | hmem
  · cases heq
    exact absurd hlt (lt_irrefl _)
  · exact absurd ((hlater m other).1 hmem).1 hlt.not_gt

/-- Without a gap before an entry, everything from `start` up to it has finished. -/
lemma covers_before (hruns : s.finished.Apart) (hstart : 0 < start)
    (hgap : n=s.finishedThroughBefore start n+1) (hle : start ≤ m) (hlt : m<n) :
    s.finished.Covers m := by
  unfold finishedThroughBefore at hgap
  split_ifs at hgap with hsame
  · omega
  · have hcovers : s.finished.Covers start := Runs.covers_of_le_through hstart (by omega)
    exact (hruns.through_spec hcovers).2.1 m hle (by omega)

lemma gap_of_not_barrier {earlier : EarlierEvents} (h : ¬(s.earlierAt start n earlier).isBarrier=true) :
    n=s.finishedThroughBefore start n+1 := by
  by_contra hgap
  unfold earlierAt at h
  rw [if_pos hgap] at h
  exact h rfl

def Passable (s : OrderedCommitState S V O) (start n : ℕ) : Prop :=
  ∀ m, start ≤ m → m<n → (s.entries.lookup m).isSome ∨ s.finished.Covers m

/-- A ready event of a free kind that nothing unknown precedes. -/
structure Found (s : OrderedCommitState S V O) (n : ℕ) (entry : Entry S V O)
    (event : PreparedWorldEvent S V O) : Prop where
  frontier : s.frontier≤n
  looked : s.entries.lookup n=some entry
  slot : entry.slot = .ready event
  free : s.kindIsFree event=true
  passable : s.Passable s.frontier n

variable {budget : CommitBudget}

lemma scanUnblocked_some (hruns : s.finished.Apart)
    {earlier final : EarlierEvents} (hstart : 0 < start) (hlist : s.Lists start list)
    (h : s.scanUnblocked budget start earlier list = (some n,final)) :
    start≤n ∧ s.Passable start n ∧ ∃ entry event, s.entries.lookup n=some entry ∧
      entry.slot = .ready event ∧ s.kindIsFree event=true := by
  induction list generalizing start earlier with
  | nil => cases h
  | cons first rest ih =>
    obtain ⟨sequence,entry⟩ := first
    obtain ⟨hle,hlook,-,hrest⟩ := hlist.cons
    unfold scanUnblocked at h
    dsimp only at h
    split_ifs at h with hbarrier hcommits
    · cases h
    · cases h
      have hgap := gap_of_not_barrier hbarrier
      refine ⟨hle,fun m hm hlt=>.inr (covers_before hruns hstart hgap hm hlt),entry,?_⟩
      unfold commitsNow at hcommits
      split at hcommits
      next event hslot =>
        simp only [Bool.and_eq_true] at hcommits
        exact ⟨event,hlook,hslot,hcommits.1.2⟩
      next => cases hcommits
    · have hgap := gap_of_not_barrier hbarrier
      obtain ⟨hlt,hpassable,hfound⟩ := ih (Nat.succ_pos _) hrest h
      refine ⟨by omega,fun m hm hmn=>?_,hfound⟩
      rcases lt_trichotomy m sequence with hbefore | rfl | hafter
      · exact .inr (covers_before hruns hstart hgap hm hbefore)
      · exact .inl (by rw [hlook]; rfl)
      · exact hpassable m hafter hmn

/-- What a pass finds: the partial batch, or an event it may pop. -/
lemma findUnblocked_some (hruns : s.finished.Apart) (hpos : 0 < s.frontier) {final : EarlierEvents}
    (h : s.findUnblocked budget = (some n,final)) :
    s.isPartialBatch n=true ∨ ∃ entry event, s.Found n entry event := by
  have hscan : ∀ {budget final}, s.scanUnblocked budget s.frontier {} s.scan = (some n,final) →
      ∃ entry event, s.Found n entry event := by
    intro budget final hscan
    obtain ⟨hle,hpassable,entry,event,hlook,hslot,hfree⟩ := scanUnblocked_some hruns hpos s.lists_scan hscan
    exact ⟨entry,event,hle,hlook,hslot,hfree,hpassable⟩
  unfold findUnblocked at h
  split at h
  next hfirst =>
    cases h
    exact .inr (hscan hfirst)
  next =>
    split_ifs at h
    · cases h
    · split at h
      next => cases h
      next =>
        split_ifs at h with hbatch
        · cases h
          exact .inl hbatch
        · exact .inr (hscan h)

/-- A burst popped: its entries change their slots, and nothing else does. -/
structure Bursts (s s' : OrderedCommitState S V O) (n last : ℕ) : Prop where
  rest : s' = { s with entries := s'.entries }
  le : n≤last
  ready : ∀ m, n ≤ m → m≤last → ∃ entry event, s.entries.lookup m=some entry ∧ entry.slot = .ready event
  lookup : ∀ m, s'.entries.lookup m =
    if n ≤ m ∧ m≤last then (s.entries.lookup m).map Entry.activated else s.entries.lookup m

variable {event : PreparedWorldEvent S V O}

lemma Bursts.activate (hlook : s.entries.lookup n=some entry) (hslot : entry.slot = .ready event) :
    Bursts s (s.activate n entry) n n where
  rest := rfl
  le := le_refl _
  ready := fun m hle hle'=>⟨entry,event,by rwa [le_antisymm hle' hle],hslot⟩
  lookup := fun m=>by
    change (s.entries.insert n _).lookup m=_
    by_cases hm : m=n
    · subst hm
      rw [Finmap.lookup_insert,if_pos ⟨le_refl _,le_refl _⟩,hlook]
      rfl
    · rw [Finmap.lookup_insert_of_ne _ hm,if_neg (by omega)]

lemma Bursts.next {last : ℕ} (h : Bursts s s' n last)
    (hlook : s'.entries.lookup (last+1) = some entry) (hslot : entry.slot = .ready event) :
    Bursts s (s'.activate (last+1) entry) n (last+1) where
  rest := by
    unfold OrderedCommitState.activate
    rw [h.rest]
  le := h.le.trans (Nat.le_succ _)
  ready := fun m hle hle'=>by
    rcases Nat.le_succ_iff.1 hle' with hlast | rfl
    · exact h.ready m hle hlast
    · rw [h.lookup,if_neg (by omega)] at hlook
      exact ⟨entry,event,hlook,hslot⟩
  lookup := fun m=>by
    change (s'.entries.insert (last+1) _).lookup m=_
    by_cases hm : m=last+1
    · subst hm
      have hle := h.le
      rw [h.lookup,if_neg (by omega)] at hlook
      rw [Finmap.lookup_insert,if_pos (by omega),hlook]
      rfl
    · rw [Finmap.lookup_insert_of_ne _ hm,h.lookup]
      exact if_congr (by omega) rfl rfl

/-- A round of merging pops the next sequence's ready entry. -/
def TakesNext (take : OrderedCommitState S V O → ℕ →
    Option (List (BlockUpdateEvent V) × OrderedCommitState S V O)) : Prop :=
  ∀ s last packet s', take s last=some (packet,s') → ∃ entry event,
    s.entries.lookup (last+1) = some entry ∧ entry.slot = .ready event ∧ s'=s.activate (last+1) entry

lemma takesNext_blockUpdates (budget : CommitBudget) :
    TakesNext fun (s : OrderedCommitState S V O) last=>s.takeAdjacentBlockUpdates last budget := by
  intro s last packet s' h
  unfold takeAdjacentBlockUpdates at h
  dsimp only at h
  split at h
  · next entry hlook =>
    split at h
    · next updates hslot =>
      split_ifs at h
      cases h
      exact ⟨entry,_,hlook,hslot,rfl⟩
    · cases h
  · cases h

lemma takesNext_syncedUpdates (key : SubChunkKey) (budget : CommitBudget) :
    TakesNext fun (s : OrderedCommitState S V O) last =>
      s.takeAdjacentSyncedUpdates last key budget := by
  intro s last packet s' h
  unfold takeAdjacentSyncedUpdates at h
  dsimp only at h
  split at h
  · next entry hlook =>
    split at h
    · next updates hslot =>
      split_ifs at h
      cases h
      exact ⟨entry,_,hlook,hslot,rfl⟩
    · cases h
  · cases h

/-- A burst merges the packets that follow one another. -/
lemma Bursts.takeAdjacent {take : OrderedCommitState S V O → ℕ →
      Option (List (BlockUpdateEvent V) × OrderedCommitState S V O)} (htake : TakesNext take)
    {last : ℕ} (h : Bursts s s' n last) (fuel : ℕ) :
    Bursts s (OrderedCommitState.takeAdjacent take fuel s' last).2.2 n
      (OrderedCommitState.takeAdjacent take fuel s' last).2.1 := by
  induction fuel generalizing s' last with
  | zero => exact h
  | succ fuel ih =>
    unfold OrderedCommitState.takeAdjacent
    cases htaken : take s' last with
    | none => exact h
    | some taken =>
      obtain ⟨packet,next⟩ := taken
      obtain ⟨entry,event,hlook,hslot,rfl⟩ := htake s' last packet next htaken
      exact ih (h.next hlook hslot)

/-- What one commit pass does; `heavy` and `earlier` are what it noted down. -/
inductive Commits (s : OrderedCommitState S V O) : OrderedCommitState S V O → Prop
  | idle (heavy : Bool) (earlier : EarlierEvents) :
    Commits s { s with lastStepHeavy := heavy, earlier := earlier }
  /-- The partial batch goes on. -/
  | batch (heavy : Bool) (earlier : EarlierEvents) {pending : PendingSubChunkCommit S}
      (hidle : s.applying=none) (hpending : s.pendingSubChunks=some pending) :
    Commits s { s with
      lastStepHeavy := heavy
      earlier := earlier
      applying := some pending.sequence
      pendingSubChunks := some { pending with entries := pending.entries.tail } }
  /-- A batch is installed. -/
  | start (heavy : Bool) (earlier : EarlierEvents) {n : ℕ} {entry : Entry S V O} {dimension : ℤ}
      {entries : List S} {duration : ℕ} (hidle : s.applying=none)
      (hfound : s.Found n entry (.subChunks dimension entries duration)) :
    Commits s { s.activate n entry with
      lastStepHeavy := heavy
      earlier := earlier
      pendingSubChunks := some ⟨n,dimension,entries,duration⟩ }
  | apply (heavy : Bool) (earlier : EarlierEvents) {n : ℕ} {entry : Entry S V O}
      {event : PreparedWorldEvent S V O} (hidle : s.applying=none)
      (hfound : s.Found n entry event) :
    Commits s { s.activate n entry with
      lastStepHeavy := heavy
      earlier := earlier
      applying := some n }
  /-- A burst of block updates, through the last sequence merged. -/
  | burst (heavy : Bool) (earlier : EarlierEvents) {n last : ℕ} {entry : Entry S V O}
      {event : PreparedWorldEvent S V O} {t : OrderedCommitState S V O} (hidle : s.applying=none)
      (hfound : s.Found n entry event) (hfree : s.blockingBlockUpdates=none)
      (hburst : Bursts s t n last) :
    Commits s { t with
      lastStepHeavy := heavy
      earlier := earlier
      blockUpdateRangeEnd := some last
      applying := some n }

/-- What a pass notes down decides nothing here. -/
lemma Commits.of_noted (heavy : Bool) (earlier : EarlierEvents)
    (h : Commits { s with lastStepHeavy := heavy, earlier := earlier } s') : Commits s s' := by
  cases h with
  | idle heavy earlier => exact .idle heavy earlier
  | batch heavy earlier hidle hpending => exact .batch heavy earlier hidle hpending
  | start heavy earlier hidle hfound =>
    exact .start heavy earlier hidle ⟨hfound.frontier,hfound.looked,hfound.slot,hfound.free,hfound.passable⟩
  | apply heavy earlier hidle hfound =>
    exact .apply heavy earlier hidle ⟨hfound.frontier,hfound.looked,hfound.slot,hfound.free,hfound.passable⟩
  | @burst heavy earlier n last entry event t hidle hfound hfree hburst =>
    have hsame : Bursts s { t with lastStepHeavy := s.lastStepHeavy, earlier := s.earlier } n last :=
      ⟨by rw [hburst.rest],hburst.le,hburst.ready,hburst.lookup⟩
    have hevent : s.Found n entry event := ⟨hfound.frontier,hfound.looked,hfound.slot,hfound.free,hfound.passable⟩
    have hcommits := Commits.burst (s := s) heavy earlier hidle hevent hfree hsame
    exact hcommits

lemma popReady_commits {step : CommitStep S V O} (hidle : s.applying=none) (hfound : s.Found n entry event)
    (hpop : s.popReady budget n=some (step,s')) : Commits s s' := by
  have hactivate := Bursts.activate hfound.looked hfound.slot
  have hlook := hfound.looked
  have hslot := hfound.slot
  unfold popReady at hpop
  rw [hlook] at hpop
  dsimp only at hpop
  rw [hslot] at hpop
  cases event with
  | subChunks dimension entries duration =>
    cases hpop
    exact .start s.lastStepHeavy s.earlier hidle hfound
  | immediateBlockUpdates updates =>
    cases hpop
    have hfree : s.blockingBlockUpdates=none := Option.isNone_iff_eq_none.1 hfound.free
    have hmerged : ∃ t last, (if blockUpdatesCanCoalesce updates then
        takeAdjacent (fun s last=>s.takeAdjacentBlockUpdates last budget) s.entries.keys.card
          (s.activate n entry) n else ([],n,s.activate n entry)).2 = (last,t) ∧
        Bursts s t n last := by
      split_ifs
      · exact ⟨_,_,rfl,hactivate.takeAdjacent (takesNext_blockUpdates budget) _⟩
      · exact ⟨_,_,rfl,hactivate⟩
    obtain ⟨t,last,heq,hburst⟩ := hmerged
    rw [heq]
    exact Commits.burst (entry.footprint.heavy || entry.footprint.barrier) t.earlier hidle hfound hfree hburst
  | immediateSyncedBlockUpdates updates =>
    cases hpop
    have hfree : s.blockingBlockUpdates=none := Option.isNone_iff_eq_none.1 hfound.free
    cases hkey : syncedUpdateKey updates with
    | none =>
      exact Commits.burst (entry.footprint.heavy || entry.footprint.barrier) s.earlier hidle hfound hfree hactivate
    | some key =>
      exact Commits.burst (entry.footprint.heavy || entry.footprint.barrier) _
        hidle hfound hfree (hactivate.takeAdjacent (takesNext_syncedUpdates key budget) _)
  | subChunk dimension item duration =>
    cases hpop
    exact .apply _ s.earlier hidle hfound
  | blockUpdates result =>
    cases hpop
    exact .apply _ s.earlier hidle hfound
  | syncedBlockUpdates result =>
    cases hpop
    exact .apply _ s.earlier hidle hfound
  | commitOnly =>
    cases hpop
    exact .apply _ s.earlier hidle hfound
  | other event =>
    cases hpop
    exact .apply _ s.earlier hidle hfound

/-- What a pass does. -/
lemma nextCommitWithin_commits (hruns : s.finished.Apart) (hpos : 0 < s.frontier) {step : Option (CommitStep S V O)}
    (hnext : s.nextCommitWithin budget=some (step,s')) : Commits s s' := by
  have hcontinue : ∀ (t : OrderedCommitState S V O) pending, t.applying=none →
      t.pendingSubChunks=some pending → Commits t (t.continueSubChunks pending).2 := by
    intro t pending hidle hpending
    have hcommits := Commits.batch true t.earlier hidle hpending
    obtain ⟨sequence,dimension,entries,duration⟩ := pending
    cases entries with
    | nil =>
      dsimp only [tail_nil] at hcommits ⊢
      rw [← hpending] at hcommits
      exact hcommits
    | cons first rest => exact hcommits
  have hfound : ∀ earlier, s.applying=none → ({ s with lastStepHeavy := false, earlier := earlier }.takeFound budget
        ({ s with lastStepHeavy := false }.findUnblocked budget).1) = some (step,s') →
      Commits s s' := by
    intro earlier hidle htake
    refine Commits.of_noted false earlier ?_
    cases hunblocked : { s with lastStepHeavy := false }.findUnblocked budget with
    | mk found final =>
      rw [hunblocked] at htake
      cases found with
      | none =>
        cases htake
        exact .idle _ _
      | some n =>
        unfold takeFound at htake
        dsimp only at htake
        split at htake
        next pending hpending =>
          cases htake
          exact hcontinue _ pending hidle (Option.filter_eq_some_iff.1 hpending).1
        next hnone =>
          obtain ⟨out,hpopped,heq⟩ := Option.map_eq_some_iff.1 htake
          cases heq
          rcases findUnblocked_some (s := { s with lastStepHeavy := false }) hruns hpos hunblocked
            with hbatch | ⟨entry,event,hevent⟩
          · -- the partial batch would have been continued
            obtain ⟨pending,hpending,hsame⟩ := (Option.any_eq_true _ _).1 hbatch
            exact absurd (Option.filter_eq_some_iff.2 ⟨hpending,hsame⟩) (by rw [hnone]; simp)
          · exact popReady_commits hidle ⟨hevent.frontier,hevent.looked,hevent.slot,hevent.free,hevent.passable⟩ hpopped
  unfold nextCommitWithin at hnext
  dsimp only at hnext
  split_ifs at hnext with happlying
  · cases hnext
    exact .idle _ _
  all_goals
    rw [Option.not_isSome_iff_eq_none] at happlying
    split at hnext
  · next pending hpending =>
    cases hnext
    exact Commits.of_noted false s.earlier (hcontinue _ pending happlying hpending)
  · exact hfound _ happlying hnext
  · next pending hpending => cases hpending
  · exact hfound _ happlying hnext

end OrderedCommitState

end Cinnabar.Ingest
