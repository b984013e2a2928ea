import Cinnabar.Ingest.Lookahead

/-! # Ready work is released -/

namespace Cinnabar.Ingest

open Finset

variable {S V O : Type}

def PreparedWorldEvent.isSubChunks : PreparedWorldEvent S V O → Bool
  | .subChunks .. => true
  | _ => false

def PreparedWorldEvent.steps : PreparedWorldEvent S V O → ℕ
  | .subChunks _ entries _ => max entries.length 1+1
  | _ => 1

namespace OrderedCommitState

variable {s t : OrderedCommitState S V O} {couple : Bool} {n m a b : ℕ} {entry : Entry S V O}
  {event : PreparedWorldEvent S V O} {budget : CommitBudget} {w : ℕ → Entry S V O → ℕ}

def weigh (s : OrderedCommitState S V O) (w : ℕ → Entry S V O → ℕ) (m : ℕ) : ℕ :=
  (s.entries.lookup m).elim 0 (w m)

def tally (s : OrderedCommitState S V O) (w : ℕ → Entry S V O → ℕ) : ℕ :=
  ∑ m ∈ s.entries.keys, s.weigh w m

lemma tally_eq {keys : Finset ℕ} (h : s.entries.keys ⊆ keys) : s.tally w = ∑ m ∈ keys, s.weigh w m := by
  refine sum_subset h fun m _ hm=>?_
  have hnone : s.entries.lookup m=none := by
    by_contra hsome
    obtain ⟨entry,hentry⟩ := Option.ne_none_iff_exists'.1 hsome
    exact hm (Finmap.mem_keys.2 (Finmap.mem_of_lookup_eq_some hentry))
  unfold weigh
  rw [hnone]
  rfl

lemma tally_le (h : ∀ m, t.weigh w m ≤ s.weigh w m) : t.tally w ≤ s.tally w := by
  have hsub : t.entries.keys ⊆ t.entries.keys ∪ s.entries.keys := subset_union_left
  have hsub' : s.entries.keys ⊆ t.entries.keys ∪ s.entries.keys := subset_union_right
  rw [tally_eq hsub,tally_eq hsub']
  exact sum_le_sum fun m _=>h m

lemma tally_drop (h : ∀ m, t.weigh w m ≤ s.weigh w m) (hzero : t.weigh w n=0) : t.tally w+s.weigh w n ≤ s.tally w := by
  have hsub : s.entries.keys ⊆ insert n (t.entries.keys ∪ s.entries.keys) :=
    subset_union_right.trans (subset_insert _ _)
  have hsub' : t.entries.keys ⊆ insert n (t.entries.keys ∪ s.entries.keys) :=
    subset_union_left.trans (subset_insert _ _)
  have hmem := mem_insert_self n (t.entries.keys ∪ s.entries.keys)
  rw [tally_eq hsub,tally_eq hsub',← add_sum_erase _ _ hmem, ← add_sum_erase _ (s.weigh w) hmem,hzero]
  have hrest := sum_le_sum (s := (insert n (t.entries.keys ∪ s.entries.keys)).erase n) fun m _=>h m
  omega

/-- What an entry ready at `m` counts for an event `n`: chunk data ahead, and every batch. -/
def aheadOf (n m : ℕ) (entry : Entry S V O) : ℕ :=
  match entry.slot with
  | .ready event =>
    if (isHeavyChunkData entry.footprint && decide (m<n)) || event.isSubChunks then event.steps
    else 0
  | _ => 0

def otherReady (_ : ℕ) (entry : Entry S V O) : ℕ :=
  match entry.slot with
  | .ready _ => if isHeavyChunkData entry.footprint then 0 else 1
  | _ => 0

/-- The steps left of the partial batch. -/
def pendingSteps (s : OrderedCommitState S V O) : ℕ :=
  s.pendingSubChunks.elim 0 fun pending=>max pending.entries.length 1

def chunkSteps (s : OrderedCommitState S V O) (n : ℕ) : ℕ := s.pendingSteps+s.tally (aheadOf n)

def otherEvents (s : OrderedCommitState S V O) : ℕ := s.tally otherReady

def Popped (s : OrderedCommitState S V O) (n : ℕ) : Prop :=
  ∀ entry event, s.entries.lookup n=some entry → entry.slot ≠ .ready event

/-- `finish_commit` of the step just returned; an installed batch is nothing to finish. -/
def finishStep (s : OrderedCommitState S V O) : OrderedCommitState S V O :=
  match s.applying with
  | some n => (s.finishCommit n).2
  | none => s

/-- What finishing the step being applied does: the rest of its batch is put aside, or its range
is released. -/
lemma finishCommit_cases (h : s.Shape) (happlying : s.applying=some n) :
    (∃ pending, s.pendingSubChunks=some pending ∧ pending.sequence=n ∧ pending.entries ≠ [] ∧
      (s.finishCommit n).2 = { s with applying := none }) ∨
    ∃ left, (left=none ∧ (∃ pending, s.pendingSubChunks=some pending ∧ pending.sequence=n ∧ pending.entries = []) ∨
        left=s.pendingSubChunks ∧ ∀ p, s.pendingSubChunks=some p → p.sequence≠n) ∧
      Releases { s with
        applying := none
        pendingSubChunks := left
        blockUpdateRangeEnd := none } (s.finishCommit n).2 n (s.rangeEnd n) := by
  obtain ⟨hle,hactive⟩ := h.applying happlying
  have hreleases : ∀ left, (left=none ∨ left=s.pendingSubChunks) → Releases { s with
        applying := none
        pendingSubChunks := left
        blockUpdateRangeEnd := none } ({ s with
          applying := none
          pendingSubChunks := left
          blockUpdateRangeEnd := none }.releaseRange n (s.rangeEnd n)) n (s.rangeEnd n) := by
    intro left hleft
    have hkept : ∀ {p}, left=some p → s.pendingSubChunks=some p := by
      intro p hp
      rcases hleft with hnone | hsame
      · rw [hnone] at hp
        cases hp
      · exact hsame ▸ hp
    refine Shape.releaseRange (s := { s with
        applying := none
        pendingSubChunks := left
        blockUpdateRangeEnd := none })
      { __ := h
        applying := fun hnone=>nomatch hnone
        idle := fun _=>rfl
        pending := fun hp=>h.pending (hkept hp)
        batch := fun _ hnone=>nomatch hnone
        apart := fun hb m hm hm' =>
          ⟨fun p hp=>(h.apart hb m hm hm').1 p (hkept hp),fun c hc=>nomatch hc⟩
        burst := fun hnone=>nomatch hnone } hle fun m hm hm'=>?_
    obtain ⟨entry,hentry,-⟩ := hactive m hm hm'
    exact Option.isSome_of_eq_some hentry
  unfold finishCommit
  rw [if_neg (not_not.2 happlying)]
  rcases hpending : s.pendingSubChunks with _ | pending
  · refine .inr ⟨none,.inr ⟨rfl,fun p hp=>nomatch hp⟩,?_⟩
    exact hreleases none (.inl rfl)
  · dsimp only
    by_cases hsame : pending.sequence=n
    · rw [if_pos hsame]
      by_cases hleft : pending.entries = []
      · rw [if_neg (not_not.2 hleft)]
        exact .inr ⟨none,.inl ⟨rfl,pending,rfl,hsame,hleft⟩,hreleases none (.inl rfl)⟩
      · rw [if_pos hleft]
        exact .inl ⟨pending,rfl,hsame,hleft,by rw [← hpending]⟩
    · rw [if_neg hsame]
      refine .inr ⟨some pending,.inr ⟨rfl,fun p hp=>?_⟩,?_⟩
      · cases hp
        exact hsame
      · exact hreleases (some pending) (.inr hpending.symm)

/-- What a pass leaves after its step was finished. -/
structure After (s t : OrderedCommitState S V O) (n : ℕ) : Prop where
  idle : t.applying=none
  done : ∀ m, s.Done m → t.Done m
  blocking : t.blockingBlockUpdates=s.blockingBlockUpdates
  lookup : ∀ m, t.entries.lookup m=s.entries.lookup m ∨ t.entries.lookup m=none ∧ t.Done m ∨
      t.entries.lookup m = (s.entries.lookup m).map Entry.activated ∧ t.isPartialBatch m=true
  goesOn : ∀ m, s.isPartialBatch m=true → t.isPartialBatch m=true ∨ t.entries.lookup m=none
  popped : t.Popped n
  /-- The partial batch has one step less, or a ready event was popped. -/
  spends : s.isPartialBatch n=true ∧ t.pendingSteps+1=s.pendingSteps ∨
    ∃ entry event, s.entries.lookup n=some entry ∧ entry.slot = .ready event ∧
      t.pendingSteps+1 ≤ s.pendingSteps+event.steps ∧ (event.isSubChunks=true ∨ t.pendingSteps=s.pendingSteps)

lemma isPartialBatch_iff : s.isPartialBatch n=true ↔
    ∃ pending, s.pendingSubChunks=some pending ∧ pending.sequence=n := by
  unfold isPartialBatch
  rw [Option.any_eq_true]
  simp only [decide_eq_true_eq]

lemma PreparedWorldEvent.one_le_steps (event : PreparedWorldEvent S V O) : 1≤event.steps := by
  cases event with
  | subChunks => exact Nat.succ_le_succ (Nat.zero_le _)
  | _ => exact le_refl _

lemma popped_of_lookup_none (h : t.entries.lookup n=none) : t.Popped n := by
  intro entry event hlook
  rw [h] at hlook
  cases hlook

/-- A step applied and finished. -/
lemma Bursts.after {last : ℕ} (range : Option ℕ) (heavy : Bool) (noted : EarlierEvents)
    (hs : s.Shape) (h : Bursts s t n last) (hrange : range.getD n=last)
    (hshape : ({ t with
      lastStepHeavy := heavy
      earlier := noted
      blockUpdateRangeEnd := range
      applying := some n } : OrderedCommitState S V O).Shape) :
    After s ({ t with
      lastStepHeavy := heavy
      earlier := noted
      blockUpdateRangeEnd := range
      applying := some n } : OrderedCommitState S V O).finishStep n := by
  obtain ⟨entry,event,hlook,hslot⟩ := h.ready n (le_refl _) h.le
  have hne : ∀ p, s.pendingSubChunks=some p → ¬(n≤p.sequence ∧ p.sequence≤last) := by
    intro p hp hin
    obtain ⟨other,ready,hother,hready⟩ := h.ready p.sequence hin.1 hin.2
    exact Ledger.not_active_of_ready hother hready (hs.pending hp)
  have hpending : t.pendingSubChunks=s.pendingSubChunks := by rw [h.rest]
  have hblocking : t.blockingBlockUpdates=s.blockingBlockUpdates := by rw [h.rest]
  have hfinished : ∀ m, t.Done m ↔ s.Done m := by
    intro m
    rw [h.rest]
    rfl
  change After s (OrderedCommitState.finishCommit _ n).2 n
  rcases finishCommit_cases hshape rfl with ⟨pending,hp,hsame,-,-⟩ | ⟨left,hleft,hreleases⟩
  · exact absurd ⟨hsame.ge,hsame.trans_le h.le⟩ (hne pending (hpending ▸ hp))
  · have hkept : left=s.pendingSubChunks := by
      rcases hleft with ⟨-,pending,hp,hsame,-⟩ | ⟨hsame,-⟩
      · exact absurd ⟨hsame.ge,hsame.trans_le h.le⟩ (hne pending (hpending ▸ hp))
      · exact hsame.trans hpending
    have hend : OrderedCommitState.rangeEnd (S := S) (V := V) (O := O) ({ t with
        lastStepHeavy := heavy
        earlier := noted
        blockUpdateRangeEnd := range
        applying := some n }) n=last := hrange
    rw [hend] at hreleases
    generalize (OrderedCommitState.finishCommit _ n).2=u at hreleases ⊢
    have hsteps : u.pendingSubChunks=s.pendingSubChunks := hreleases.pending.trans hkept
    have hnone : u.entries.lookup n=none := by
      rw [hreleases.lookup,if_pos ⟨le_refl _,h.le⟩]
    exact
      { idle := hreleases.applying
        done := fun m hm=>(hreleases.done m).2 (.inl ((hfinished m).2 hm))
        blocking := hreleases.blocking.trans hblocking
        lookup := fun m=>by
          by_cases hin : n ≤ m ∧ m≤last
          · refine .inr (.inl ⟨?_,(hreleases.done m).2 (.inr hin)⟩)
            rw [hreleases.lookup,if_pos hin]
          · refine .inl ?_
            rw [hreleases.lookup,if_neg hin]
            rw [h.lookup,if_neg hin]
        goesOn := fun m hm=>.inl (by
          rw [isPartialBatch_iff] at hm ⊢
          rwa [hsteps])
        popped := popped_of_lookup_none hnone
        spends := by
          have hsame : u.pendingSteps=s.pendingSteps := by
            unfold pendingSteps
            rw [hsteps]
          refine .inr ⟨entry,event,hlook,hslot,?_,.inr hsame⟩
          rw [hsame]
          exact Nat.add_le_add_left (PreparedWorldEvent.one_le_steps event) _ }

/-- What a pass does that returned a step, once that is finished. -/
lemma Commits.after (hs : s.Shape) (hidle : s.applying=none) (h : Commits s t) (htaken : t.taken=some n)
    (hstarts : t.applying=none → s.pendingSubChunks=none) : After s t.finishStep n := by
  have hshape := Ledger.commits_shape hs h
  cases h with
  | @idle heavy earlier =>
    rw [hidle,hstarts hidle] at htaken
    cases htaken
  | @batch heavy earlier pending _ hpending =>
    have hn : pending.sequence=n := Option.some.inj htaken
    have hrange : s.blockUpdateRangeEnd=none := hs.idle hidle
    subst hn
    have hsteps : s.pendingSteps=max pending.entries.length 1 := by
      unfold pendingSteps
      rw [hpending]
      rfl
    have honto : s.isPartialBatch pending.sequence=true := isPartialBatch_iff.2 ⟨pending,hpending,rfl⟩
    obtain ⟨active,hactive,hslot⟩ := hs.pending hpending
    change After s (OrderedCommitState.finishCommit _ pending.sequence).2 pending.sequence
    rcases finishCommit_cases hshape rfl with
      ⟨p,hp,-,hentries,hout⟩ | ⟨left,hleft,hreleases⟩
    · cases hp
      rw [hout]
      exact
        { idle := rfl
          done := fun _=>id
          blocking := rfl
          lookup := fun _=>.inl rfl
          goesOn := fun m hm=>.inl (by
            obtain ⟨p,hp,hsame⟩ := isPartialBatch_iff.1 hm
            rw [hpending] at hp
            cases hp
            exact isPartialBatch_iff.2 ⟨_,rfl,hsame⟩)
          popped := fun entry event hlook hready=>by
            rw [hactive] at hlook
            cases hlook
            rw [hslot] at hready
            cases hready
          spends := .inl ⟨honto,by
            change max pending.entries.tail.length 1+1=_
            have hpos := List.length_pos_iff.2 hentries
            rw [List.length_tail] at hpos ⊢
            omega⟩ }
    · have hdone : left=none ∧ pending.entries.tail = [] := by
        rcases hleft with ⟨hnone,p,hp,-,hentries⟩ | ⟨-,hne⟩
        · cases hp
          exact ⟨hnone,hentries⟩
        · exact absurd rfl (hne { pending with entries := pending.entries.tail } rfl)
      obtain ⟨rfl,hentries⟩ := hdone
      have hend : OrderedCommitState.rangeEnd (S := S) (V := V) (O := O) ({ s with
          lastStepHeavy := heavy
          earlier := earlier
          applying := some pending.sequence
          pendingSubChunks := some { pending with entries := pending.entries.tail } })
          pending.sequence=pending.sequence := by
        unfold rangeEnd
        rw [hrange]
        rfl
      rw [hend] at hreleases
      generalize (OrderedCommitState.finishCommit _ pending.sequence).2=u at hreleases ⊢
      have hnone : u.entries.lookup pending.sequence=none := by
        rw [hreleases.lookup,if_pos ⟨le_refl _,le_refl _⟩]
      exact
        { idle := hreleases.applying
          done := fun m hm=>(hreleases.done m).2 (.inl hm)
          blocking := hreleases.blocking
          lookup := fun m=>by
            by_cases hin : pending.sequence ≤ m ∧ m≤pending.sequence
            · refine .inr (.inl ⟨?_,(hreleases.done m).2 (.inr hin)⟩)
              rw [hreleases.lookup,if_pos hin]
            · refine .inl ?_
              rw [hreleases.lookup,if_neg hin]
          goesOn := fun m hm=>.inr (by
            obtain ⟨p,hp,hsame⟩ := isPartialBatch_iff.1 hm
            rw [hpending] at hp
            cases hp
            rw [← hsame,hnone])
          popped := popped_of_lookup_none hnone
          spends := .inl ⟨honto,by
            rw [hsteps]
            have hzero : u.pendingSteps=0 := by
              unfold pendingSteps
              rw [hreleases.pending]
              rfl
            have hlength := congrArg List.length hentries
            rw [List.length_tail,List.length_nil] at hlength
            rw [hzero,max_eq_right (Nat.sub_eq_zero_iff_le.1 hlength)]⟩ }
  | @start heavy earlier m entry dimension entries duration _ hfound =>
    have hnone : s.pendingSubChunks=none := Option.isNone_iff_eq_none.1 hfound.free
    have hn : m=n := by
      dsimp only at htaken
      rw [show (s.activate m entry).applying=none from hidle] at htaken
      exact Option.some.inj htaken
    subst hn
    have hfinish : OrderedCommitState.finishStep (S := S) (V := V) (O := O) ({ s.activate m entry with
        lastStepHeavy := heavy
        earlier := earlier
        pendingSubChunks := some ⟨m,dimension,entries,duration⟩ }) = { s.activate m entry with
        lastStepHeavy := heavy
        earlier := earlier
        pendingSubChunks := some ⟨m,dimension,entries,duration⟩ } := by
      unfold finishStep
      rw [show (s.activate m entry).applying=none from hidle]
    rw [hfinish]
    have hlookup : ∀ k, (s.activate m entry).entries.lookup k =
        if k=m then some entry.activated else s.entries.lookup k := by
      intro k
      change (s.entries.insert m _).lookup k=_
      split_ifs with hk
      · rw [hk,Finmap.lookup_insert]
        rfl
      · rw [Finmap.lookup_insert_of_ne _ hk]
    exact
      { idle := hidle
        done := fun _=>id
        blocking := rfl
        lookup := fun k=>by
          by_cases hk : k=m
          · subst hk
            refine .inr (.inr ⟨?_,isPartialBatch_iff.2 ⟨_,rfl,rfl⟩⟩)
            rw [hfound.looked]
            exact (hlookup k).trans (if_pos rfl)
          · exact .inl ((hlookup k).trans (if_neg hk))
        goesOn := fun k hk=>by
          obtain ⟨p,hp,-⟩ := isPartialBatch_iff.1 hk
          rw [hnone] at hp
          cases hp
        popped := fun other event hother hready=>by
          have heq := (hlookup m).symm.trans hother
          rw [if_pos rfl] at heq
          cases heq
          cases hready
        spends := by
          refine .inr ⟨entry,_,hfound.looked,hfound.slot,?_,.inl rfl⟩
          unfold pendingSteps
          rw [hnone]
          change max entries.length 1+1≤0 + (max entries.length 1+1)
          rw [Nat.zero_add] }
  | @apply heavy earlier m entry event _ hfound =>
    have hn : m=n := Option.some.inj htaken
    subst hn
    have hrange : s.blockUpdateRangeEnd=none := hs.idle hidle
    refine (Bursts.activate hfound.looked hfound.slot).after s.blockUpdateRangeEnd heavy earlier hs ?_ hshape
    rw [hrange]
    rfl
  | @burst heavy earlier m last entry event u _ hfound hfree hburst =>
    have hn : m=n := Option.some.inj htaken
    subst hn
    exact hburst.after (some last) heavy earlier hs rfl hshape

section

variable (h : After s t n)
include h

lemma After.of_lookup (hlook : t.entries.lookup m=some entry) :
    ∃ old, s.entries.lookup m=some old ∧ entry.footprint=old.footprint ∧
      (entry=old ∨ t.isPartialBatch m=true) := by
  rcases h.lookup m with hsame | ⟨hnone,-⟩ | ⟨hactivated,honto⟩
  · exact ⟨entry,hsame ▸ hlook,rfl,.inl rfl⟩
  · rw [hnone] at hlook
    cases hlook
  · rw [hactivated] at hlook
    obtain ⟨old,hold,rfl⟩ := Option.map_eq_some_iff.1 hlook
    exact ⟨old,hold,rfl,.inr honto⟩

lemma After.passable (hpass : s.Passable s.frontier m) :
    t.Passable t.frontier m := by
  intro k hk hlt
  have hdone : t.Done k → t.finished.Covers k := fun hdone=>hdone.resolve_left hk.not_gt
  by_cases hbelow : k < s.frontier
  · exact .inr (hdone (h.done k (.inl hbelow)))
  · rcases hpass k (not_lt.1 hbelow) hlt with hsome | hcovers
    · rcases h.lookup k with hsame | ⟨-,hfinished⟩ | ⟨hactivated,-⟩
      · rw [hsame]
        exact .inl hsome
      · exact .inr (hdone hfinished)
      · rw [hactivated,Option.isSome_map]
        exact .inl hsome
    · exact .inr (hdone (h.done k (.inr hcovers)))

lemma After.free (hfree : s.kindIsFree event=true) (hevent : event.isSubChunks=false) : t.kindIsFree event=true := by
  cases event with
  | subChunks => cases hevent
  | immediateBlockUpdates =>
    unfold kindIsFree at hfree ⊢
    rwa [h.blocking]
  | immediateSyncedBlockUpdates =>
    unfold kindIsFree at hfree ⊢
    rwa [h.blocking]
  | _ => rfl

/-- Chunk data able to progress stays so until it is over. -/
lemma After.able (hable : s.Able m entry) (hlook : t.entries.lookup m=some entry) : t.Able m entry := by
  have hready : ∀ event, entry.slot = .ready event → event.isSubChunks=true → t.Able m entry := by
    intro event hslot hbatch
    cases event with
    | subChunks dimension entries duration =>
      unfold Able isFree batchWaitsFor
      rw [hslot]
      dsimp only [kindIsFree]
      cases t.pendingSubChunks with
      | none => exact .inl rfl
      | some pending => exact .inr (.inr rfl)
    | _ => cases hbatch
  rcases hable with hfree | honto | hwaits
  · unfold isFree at hfree
    split at hfree
    next event hslot =>
      cases hbatch : event.isSubChunks with
      | true => exact hready event hslot hbatch
      | false =>
        refine .inl ?_
        rw [hslot]
        exact h.free hfree hbatch
    next => cases hfree
  · rcases h.goesOn m honto with honto' | hnone
    · exact .inr (.inl honto')
    · rw [hnone] at hlook
      cases hlook
  · unfold batchWaitsFor at hwaits
    split at hwaits
    next dimension entries duration hslot => exact hready _ hslot rfl
    next => cases hwaits

/-- Chunk data that progresses goes on to, or is over. -/
lemma After.progresses (hm : s.Progresses couple m) : (t.entries.lookup m).isSome → t.Progresses couple m := by
  induction hm with
  | @mk m old hlook hchunk hable hpassable hwaits ih =>
    intro hsome
    obtain ⟨entry,hentry⟩ := Option.isSome_iff_exists.1 hsome
    obtain ⟨same,hsame,hfootprint,hkind⟩ := h.of_lookup hentry
    rw [hlook] at hsame
    cases hsame
    refine .mk hentry (hfootprint ▸ hchunk) ?_ (h.passable hpassable) ?_
    · rcases hkind with rfl | honto
      · exact h.able hable hentry
      · exact .inr (.inl honto)
    · intro k other hlt hother hconflicts
      obtain ⟨before,hbefore,hprint,-⟩ := h.of_lookup hother
      rw [hprint,hfootprint] at hconflicts
      exact ih k before hlt hbefore hconflicts (Option.isSome_of_eq_some hother)

lemma After.releasable (ht : t.Shape) (hevent : event.isSubChunks=false) (hm : s.Releasable couple m entry event) :
    t.Popped m ∨ t.Releasable couple m entry event := by
  rcases h.lookup m with hsame | ⟨hnone,-⟩ | ⟨hactivated,-⟩
  · have hlook := hsame.trans hm.found.looked
    refine .inr ⟨⟨(ht.unfinished m (Option.isSome_of_eq_some hlook)).1,hlook,hm.found.slot,
      h.free hm.found.free hevent,h.passable hm.found.passable⟩,hm.other,?_⟩
    intro k other hlt hother hconflicts
    obtain ⟨before,hbefore,hprint,-⟩ := h.of_lookup hother
    rw [hprint] at hconflicts
    exact h.progresses (hm.waits k before hlt hbefore hconflicts) (Option.isSome_of_eq_some hother)
  · exact .inl (popped_of_lookup_none hnone)
  · refine .inl fun other ready hother hready=>?_
    rw [hactivated,hm.found.looked] at hother
    cases hother
    cases hready

end

def Readies (w : ℕ → Entry S V O → ℕ) : Prop :=
  ∀ m entry, (∀ event, entry.slot ≠ .ready event) → w m entry=0

lemma readies_aheadOf : Readies (aheadOf n : ℕ → Entry S V O → ℕ) := by
  intro m entry hno
  unfold aheadOf
  split
  next event hslot => exact absurd hslot (hno event)
  next => rfl

lemma readies_otherReady : Readies (otherReady : ℕ → Entry S V O → ℕ) := by
  intro m entry hno
  unfold otherReady
  split
  next event hslot => exact absurd hslot (hno event)
  next => rfl

lemma weigh_popped (hw : Readies w) (h : t.Popped m) : t.weigh w m=0 := by
  unfold weigh
  rcases hlook : t.entries.lookup m with _ | entry
  · rfl
  · exact hw m entry fun event hslot=>h entry event hlook hslot

section

variable (h : After s t n)
include h

/-- A pass takes what it popped off every count. -/
lemma After.weigh_le (hw : Readies w) (m : ℕ) : t.weigh w m ≤ s.weigh w m := by
  rcases h.lookup m with hsame | ⟨hnone,-⟩ | ⟨hactivated,-⟩
  · unfold weigh
    rw [hsame]
  · rw [weigh_popped hw (popped_of_lookup_none hnone)]
    exact Nat.zero_le _
  · rw [weigh_popped hw fun entry event hlook hready=>?_]
    · exact Nat.zero_le _
    · rw [hactivated] at hlook
      obtain ⟨old,-,rfl⟩ := Option.map_eq_some_iff.1 hlook
      cases hready

lemma After.tally_le (hw : Readies w) : t.tally w ≤ s.tally w :=
  OrderedCommitState.tally_le (h.weigh_le hw)

lemma After.tally_drop (hw : Readies w) : t.tally w+s.weigh w n ≤ s.tally w :=
  OrderedCommitState.tally_drop (h.weigh_le hw) (weigh_popped hw h.popped)

lemma After.takesOther (hn : s.Unblocked couple n entry event) (hother : isHeavyChunkData entry.footprint=false) :
    t.chunkSteps m ≤ s.chunkSteps m ∧ t.otherEvents+1 ≤ s.otherEvents := by
  have hweigh : ∀ w : ℕ → Entry S V O → ℕ, s.weigh w n=w n entry := by
    intro w
    unfold weigh
    rw [hn.found.looked]
    rfl
  have hslot := hn.found.slot
  constructor
  · have htally := h.tally_drop (w := aheadOf m) readies_aheadOf
    rw [hweigh] at htally
    unfold chunkSteps
    rcases h.spends with ⟨honto,hsteps⟩ | ⟨old,popped,hold,hready,hsteps,hkind⟩
    · omega
    · rw [hn.found.looked] at hold
      cases hold
      rw [hslot] at hready
      cases hready
      rcases hkind with hbatch | hsame
      · have hcounts : aheadOf m n entry=event.steps := by
          unfold aheadOf
          rw [hslot]
          dsimp only
          rw [hbatch,Bool.or_true,if_pos rfl]
        omega
      · omega
  · have htally := h.tally_drop (w := otherReady) readies_otherReady
    rw [hweigh] at htally
    have hcounts : otherReady n entry=1 := by
      unfold otherReady
      rw [hslot]
      rw [hother]
      rfl
    unfold otherEvents
    omega

/-- A step of what the lookahead found leaves one step less of the chunk data ahead. -/
lemma After.looksAhead (hs : s.Shape) (hn : s.LooksAhead budget n)
    (hm : s.Releasable budget.couplePosition m entry event) :
    t.chunkSteps m+1 ≤ s.chunkSteps m ∧ t.otherEvents ≤ s.otherEvents := by
  refine ⟨?_,h.tally_le readies_otherReady⟩
  have htally := h.tally_drop (w := aheadOf m) readies_aheadOf
  unfold chunkSteps
  rcases h.spends with ⟨-,hsteps⟩ | ⟨old,popped,hold,hready,hsteps,-⟩
  · omega
  · have honto : ¬s.isPartialBatch n=true := by
      intro honto
      obtain ⟨pending,hpending,rfl⟩ := isPartialBatch_iff.1 honto
      exact Ledger.not_active_of_ready hold hready (hs.pending hpending)
    obtain ⟨other,ready,hunblocked,hchunk,hbefore⟩ := hn.chunk.resolve_left honto
    rw [hunblocked.found.looked] at hold
    cases hold
    have hcounts : s.weigh (aheadOf m) n=popped.steps := by
      unfold weigh
      rw [hunblocked.found.looked]
      change aheadOf m n old=_
      unfold aheadOf
      rw [hready]
      rw [hchunk,decide_eq_true (hbefore m entry event hm)]
      rfl
    omega

end

end OrderedCommitState

end Cinnabar.Ingest
