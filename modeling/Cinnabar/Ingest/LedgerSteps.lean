import Cinnabar.Ingest.Shape

/-! # Every call keeps the ledger sound -/

namespace Cinnabar.Ingest

open OrderedCommitState

namespace Ledger

variable {S V O : Type} {s s' : OrderedCommitState S V O} {l : Ledger S V O} {capacity first n : ℕ}

/-- The fields that no admission changes. -/
lemma kept_trans {s'' : OrderedCommitState S V O} (h : Kept s s') (h' : Kept s' s'') :
    Kept s s'' :=
  ⟨h'.frontier.trans h.frontier,h'.finished.trans h.finished,h'.applying.trans h.applying,
    h'.pending.trans h.pending,h'.blocking.trans h.blocking,h'.range.trans h.range⟩

lemma done_congr (h : Kept s s') : s'.Done n ↔ s.Done n := by
  unfold Done
  rw [h.frontier,h.finished]

structure Admits (s s' : OrderedCommitState S V O) (n : ℕ) (held : Held) : Prop where
  absent : s.entries.lookup n=none
  fresh : s.isFinished n=false
  entries : ∃ footprint, s'.entries=s.entries.insert n ⟨footprint,held,.waiting⟩
  kept : Kept s s'
  counter : ∀ lane : Lane, s'.counter lane=s.counter lane + (lane.holds held).toNat

lemma Admits.lookup {held : Held} (h : Admits s s' n held) (m : ℕ) (hm : m≠n) :
    s'.entries.lookup m=s.entries.lookup m := by
  obtain ⟨footprint,hentries⟩ := h.entries
  rw [hentries,Finmap.lookup_insert_of_ne _ hm]

variable {held : Held} {retainedCommits : ℕ} {t : OrderedCommitState S V O}

lemma Admits.shape (h : Admits s s' n held) (hs : s.Shape) : s'.Shape := by
  obtain ⟨footprint,hentries⟩ := h.entries
  have hdone : ¬s.Done n := by
    rw [← hs.isFinished_iff,h.fresh]
    exact Bool.false_ne_true
  exact hs.insert h.absent hdone hentries h.kept.frontier h.kept.finished h.kept.applying
    h.kept.pending h.kept.blocking h.kept.range

lemma Admits.counted (h : Admits s s' n held) (hs : s.Counted) : s'.Counted := by
  obtain ⟨footprint,hentries⟩ := h.entries
  refine hs.rewrite (n := n) (some ⟨footprint,held,.waiting⟩) (fun m=>?_) fun lane=>?_
  · split_ifs with hm
    · rw [hentries,hm,Finmap.lookup_insert]
    · exact h.lookup m hm
  · rw [h.absent,h.counter]
    rfl

lemma Admits.passed (h : Admits s s' n held) {absent : Option ℕ}
    (hs : Passed s absent) : Passed s' (absent.filter (· ≠ n)) := by
  obtain ⟨footprint,hentries⟩ := h.entries
  intro m p hm hlt hpast
  rw [h.kept.frontier] at hm
  rw [h.kept.finished] at hpast ⊢
  by_cases hmn : m=n
  · rw [hmn,hentries,Finmap.lookup_insert]
    exact .inl rfl
  · have hold : s.finished.Covers p ∨ s.Active p := by
      refine hpast.imp id fun ⟨entry,hentry,hslot⟩=>⟨entry,?_,hslot⟩
      by_cases hp : p=n
      · rw [hp,hentries,Finmap.lookup_insert] at hentry
        cases hentry
        cases hslot
      · rwa [h.lookup p hp] at hentry
    rw [h.lookup m hmn]
    refine (hs m p hm hlt hold).imp id (Or.imp id fun hsome=>?_)
    rw [hsome]
    exact Option.filter_eq_some_iff.2 ⟨rfl,decide_eq_true hmn⟩

def HasRoom (capacity : ℕ) (s : OrderedCommitState S V O) : Held → Prop
  | .light => s.light+s.ingressLight < maxAdmittedWorldEvents
  | .heavy => s.heavy < maxAdmittedHeavyEvents
  | .deferred => s.deferred < maxDeferredWorldEvents
  | .ingress lightReserved => s.ingress < capacity ∧ lightReserved=false

lemma Admits.bounded (h : Admits s s' n held) (hs : Bounded capacity s)
    (hroom : HasRoom capacity s held) : Bounded capacity s' := by
  have hlight : s'.light=s.light + ((Lane.light).holds held).toNat := h.counter .light
  have hheavy : s'.heavy=s.heavy + ((Lane.heavy).holds held).toNat := h.counter .heavy
  have hdeferred : s'.deferred=s.deferred + ((Lane.deferred).holds held).toNat := h.counter .deferred
  have hingress : s'.ingress=s.ingress + ((Lane.ingress).holds held).toNat := h.counter .ingress
  have hreserved : s'.ingressLight=s.ingressLight + ((Lane.ingressLight).holds held).toNat := h.counter .ingressLight
  have hfrontier : s.heavy=maxAdmittedHeavyEvents+1 ∧ (∃ entry,
      s.entries.lookup s.frontier=some entry ∧ entry.held = .heavy) → ∃ entry,
      s'.entries.lookup s'.frontier=some entry ∧ entry.held = .heavy := by
    rintro ⟨-,entry,hentry,hheld⟩
    refine ⟨entry,?_,hheld⟩
    rw [h.kept.frontier,h.lookup _ fun heq=>?_,hentry]
    rw [heq,h.absent] at hentry
    cases hentry
  have hbound := hs.heavy
  have hlight' := hs.light
  have hdeferred' := hs.deferred
  have hingress' := hs.ingress
  cases held with
  | light =>
    simp only [Lane.holds,HasRoom] at *
    simp at hlight hheavy hdeferred hingress hreserved
    refine ⟨by omega,?_,by omega,by omega⟩
    exact hbound.imp (fun hle=>by omega) fun hover=>⟨by omega,hfrontier hover⟩
  | heavy =>
    simp only [Lane.holds,HasRoom] at *
    simp at hlight hheavy hdeferred hingress hreserved
    exact ⟨by omega,.inl (by omega),by omega,by omega⟩
  | deferred =>
    simp only [Lane.holds,HasRoom] at *
    simp at hlight hheavy hdeferred hingress hreserved
    refine ⟨by omega,?_,by omega,by omega⟩
    exact hbound.imp (fun hle=>by omega) fun hover=>⟨by omega,hfrontier hover⟩
  | ingress lightReserved =>
    obtain ⟨hroom,rfl⟩ := hroom
    simp only [Lane.holds] at *
    simp at hlight hheavy hdeferred hingress hreserved
    refine ⟨by omega,?_,by omega,by omega⟩
    exact hbound.imp (fun hle=>by omega) fun hover=>⟨by omega,hfrontier hover⟩

lemma Admits.sound (h : Admits l.order s' n held) (hl : l.Sound capacity first)
    (hroom : HasRoom capacity l.order held) :
    ({ l with order := s', absent := l.absent.filter (· ≠ n) } : Ledger S V O).Sound capacity first
    where
  shape := h.shape hl.shape
  counted := h.counted hl.counted
  bounded := h.bounded hl.bounded hroom
  released := fun m=>(done_congr h.kept).trans (hl.released m)
  passed := h.passed hl.passed

structure Rewrites (s s' : OrderedCommitState S V O) (n : ℕ) (old new : Entry S V O) : Prop where
  looked : s.entries.lookup n=some old
  entries : s'.entries=s.entries.insert n new
  kept : Kept s s'
  slot : new.slot = .active ↔ old.slot = .active
  counter : ∀ lane : Lane, s'.counter lane + (lane.holds old.held).toNat=s.counter lane + (lane.holds new.held).toNat

variable {old new : Entry S V O}

section

variable (h : Rewrites s s' n old new)
include h

lemma Rewrites.lookup (m : ℕ) : s'.entries.lookup m = if m=n then some new else s.entries.lookup m := by
  rw [h.entries]
  split_ifs with hm
  · rw [hm,Finmap.lookup_insert]
  · exact Finmap.lookup_insert_of_ne _ hm

lemma Rewrites.active (m : ℕ) : s'.Active m ↔ s.Active m := by
  unfold Active
  rw [h.lookup]
  split_ifs with hm
  · subst hm
    rw [h.looked]
    simp [h.slot]
  · exact Iff.rfl

lemma Rewrites.passed {absent : Option ℕ} (hs : Passed s absent) :
    Passed s' absent := by
  intro m p hm hlt hpast
  rw [h.kept.frontier] at hm
  rw [h.kept.finished,h.active] at hpast
  rw [h.kept.finished,h.lookup]
  split_ifs with hmn
  · exact .inl rfl
  · exact hs m p hm hlt hpast

end

/-- What may become of a holding. -/
inductive HeldMoves (s : OrderedCommitState S V O) (n : ℕ) : Held → Held → Prop
  | same (held : Held) : HeldMoves s n held held
  | promoted (h : s.heavy < maxAdmittedHeavyEvents ∨ n=s.frontier) : HeldMoves s n .deferred .heavy
  | credited (h : s.light+s.ingressLight < maxAdmittedWorldEvents) : HeldMoves s n (.ingress false) (.ingress true)

lemma Rewrites.bounded (h : Rewrites s s' n old new) (hs : Bounded capacity s)
    (hmoves : HeldMoves s n old.held new.held) : Bounded capacity s' := by
  have hlight := h.counter .light
  have hheavy := h.counter .heavy
  have hdeferred := h.counter .deferred
  have hingress := h.counter .ingress
  have hreserved := h.counter .ingressLight
  simp only [OrderedCommitState.counter] at hlight hheavy hdeferred hingress hreserved
  have hbound := hs.heavy
  have hlight' := hs.light
  have hdeferred' := hs.deferred
  have hingress' := hs.ingress
  have hlookup := h.lookup s'.frontier
  rw [h.kept.frontier] at hlookup
  generalize hold : old.held=oldHeld at hmoves hlight hheavy hdeferred hingress hreserved
  generalize hnew : new.held=newHeld at hmoves hlight hheavy hdeferred hingress hreserved
  cases hmoves with
  | same held =>
    refine ⟨by omega,hbound.imp (fun hle=>by omega) ?_,by omega,by omega⟩
    rintro ⟨hover,entry,hentry,hheld⟩
    refine ⟨by omega,?_⟩
    rw [h.kept.frontier,hlookup]
    split_ifs with hfrontier
    · rw [hfrontier,h.looked] at hentry
      cases hentry
      exact ⟨new,rfl,(hnew.trans hold.symm).trans hheld⟩
    · exact ⟨entry,hentry,hheld⟩
  | promoted hroom =>
    simp [Lane.holds] at hlight hheavy hdeferred hingress hreserved
    refine ⟨by omega,?_,by omega,by omega⟩
    rcases hroom with hlt | rfl
    · exact .inl (by omega)
    · -- the frontier's entry was deferred, so the lane was not exceeded yet
      have hle : s.heavy ≤ maxAdmittedHeavyEvents := by
        refine hbound.resolve_right ?_
        rintro ⟨-,entry,hentry,hheld⟩
        rw [h.looked] at hentry
        cases hentry
        rw [hold] at hheld
        cases hheld
      rcases hle.lt_or_eq with hlt | heq
      · exact .inl (by omega)
      · refine .inr ⟨by omega,new,?_,hnew⟩
        rw [h.kept.frontier,hlookup,if_pos rfl]
  | credited hroom =>
    simp [Lane.holds] at hlight hheavy hdeferred hingress hreserved
    refine ⟨by omega,hbound.imp (fun hle=>by omega) ?_,by omega,by omega⟩
    rintro ⟨hover,entry,hentry,hheld⟩
    refine ⟨by omega,entry,?_,hheld⟩
    rw [h.kept.frontier,hlookup,if_neg ?_,hentry]
    intro hfrontier
    rw [hfrontier,h.looked] at hentry
    cases hentry
    rw [hold] at hheld
    cases hheld

lemma Rewrites.sound (h : Rewrites l.order s' n old new) (hl : l.Sound capacity first)
    (hmoves : HeldMoves l.order n old.held new.held) :
    ({ l with order := s' } : Ledger S V O).Sound capacity first where
  shape := hl.shape.write h.looked h.slot.2 h.entries h.kept.frontier h.kept.finished
    h.kept.applying h.kept.pending h.kept.blocking h.kept.range
  counted := hl.counted.rewrite (some new) h.lookup fun lane=>by
    rw [h.looked]
    exact h.counter lane
  bounded := h.bounded hl.bounded hmoves
  released := fun m=>(done_congr h.kept).trans (hl.released m)
  passed := h.passed hl.passed

lemma Bounded.drop (hb : Bounded capacity s) (hs : s.Counted) (hs' : s'.Counted)
    (hlookup : ∀ m, s'.entries.lookup m=none ∨ s'.entries.lookup m=s.entries.lookup m)
    (hfrontier : (s'.entries.lookup s.frontier).isSome → s'.frontier=s.frontier) :
    Bounded capacity s' := by
  have hle : ∀ lane : Lane, s'.counter lane ≤ s.counter lane := fun lane=>by
    rw [hs lane,hs' lane]
    exact lane.recount_le hlookup
  have hlight := hle .light
  have hheavy := hle .heavy
  have hdeferred := hle .deferred
  have hingress := hle .ingress
  have hreserved := hle .ingressLight
  simp only [OrderedCommitState.counter] at hlight hheavy hdeferred hingress hreserved
  refine ⟨by have := hb.light; omega,?_,hdeferred.trans hb.deferred,hingress.trans hb.ingress⟩
  rcases hb.heavy with hbound | ⟨hover,entry,hentry,hheld⟩
  · exact .inl (hheavy.trans hbound)
  · rcases hlookup s.frontier with hnone | hsame
    · -- the entry over the bound is dropped
      have hrecount : (Lane.heavy).recount s'.entries ≤ (Lane.heavy).recount (s.entries.erase s.frontier) := by
        refine (Lane.heavy).recount_le fun m=>?_
        by_cases hm : m=s.frontier
        · rw [hm,Finmap.lookup_erase]
          exact .inl hnone
        · rw [Finmap.lookup_erase_ne hm]
          exact hlookup m
      have hcount := hs .heavy
      have hcount' := hs' .heavy
      have herase := (Lane.heavy).recount_erase s.entries s.frontier
      have hone : (Lane.heavy).weigh (s.entries.lookup s.frontier) = 1 := by
        rw [hentry]
        unfold Lane.weigh Lane.holds
        simp [hheld]
      simp only [OrderedCommitState.counter] at hcount hcount'
      exact .inl (by omega)
    · rw [hentry] at hsame
      have hstays := hfrontier (by rw [hsame]; rfl)
      rcases hheavy.lt_or_eq with hlt | heq
      · exact .inl (by omega)
      · exact .inr ⟨by omega,entry,by rw [hstays,hsame],hheld⟩

/-- A reservation or an admission is rolled back. -/
lemma Sound.rollback (hl : l.Sound capacity first) (hactive : ¬l.order.Active n) (habsent : l.absent=none) :
    ({ l with order := l.order.release n, absent := some n } : Ledger S V O).Sound capacity first
    where
  shape := by
    have hkept := kept_release l.order n
    refine hl.shape.entries hkept.frontier hkept.finished hkept.applying hkept.pending hkept.blocking hkept.range ?_ ?_
    · rintro m ⟨entry,hentry,hslot⟩
      refine ⟨entry,?_,hslot⟩
      rw [lookup_release,if_neg ?_,hentry]
      rintro rfl
      exact hactive ⟨entry,hentry,hslot⟩
    · intro m hm
      rw [lookup_release] at hm
      split_ifs at hm
      · cases hm
      · exact .inl hm
  counted := hl.counted.release n
  bounded := by
    refine hl.bounded.drop hl.counted (hl.counted.release n) (fun m=>?_) fun _ =>
      (kept_release l.order n).frontier
    rw [lookup_release]
    split_ifs
    · exact .inl rfl
    · exact .inr rfl
  released := fun m=>(done_congr (kept_release l.order n)).trans (hl.released m)
  passed := by
    intro m p hm hlt hpast
    have hkept := kept_release l.order n
    rw [hkept.frontier] at hm
    rw [hkept.finished] at hpast ⊢
    have hold : l.order.finished.Covers p ∨ l.order.Active p := by
      refine hpast.imp id ?_
      rintro ⟨entry,hentry,hslot⟩
      rw [lookup_release] at hentry
      split_ifs at hentry
      exact ⟨entry,hentry,hslot⟩
    rw [lookup_release]
    by_cases hmn : m=n
    · exact .inr (.inr (by rw [hmn]))
    · rw [if_neg hmn]
      refine (hl.passed m p hm hlt hold).imp id (Or.imp id fun hsome=>?_)
      rw [habsent] at hsome
      cases hsome

/-- A popped range is released, and finished. -/
lemma Sound.finish (hl : l.Sound capacity first) {start last : ℕ}
    (ht : t.Shape) (hle : start≤last) (hrange : ∀ m, start ≤ m → m≤last → l.order.Active m)
    (hentries : t.entries=l.order.entries) (hfrontier : t.frontier=l.order.frontier)
    (hfinished : t.finished=l.order.finished)
    (hcounter : ∀ lane, t.counter lane=l.order.counter lane)
    (happlying : ∀ a, t.applying=some a → ∀ m, start ≤ m → m≤last → ¬(a ≤ m ∧ m≤t.rangeEnd a))
    (hpending : ∀ p, t.pendingSubChunks=some p → ¬(start≤p.sequence ∧ p.sequence≤last))
    (hfence : ∀ a b, t.blockingBlockUpdates=some (a,b) → ∀ m, a ≤ m → m≤b → ¬(start ≤ m ∧ m≤last)) :
    ({ l with
      order := t.releaseRange start last
      released := fun m=>l.released m ∨ l.order.Drops (t.releaseRange start last) m } :
        Ledger S V O).Sound capacity first := by
  have hreleases := ht.releaseRange hle fun m hm hm'=>by
    obtain ⟨entry,hentry,-⟩ := hrange m hm hm'
    rw [hentries,hentry]
    rfl
  have hshape := ht.released hreleases happlying hpending hfence
  have hcounted := (hl.counted.congr hcounter fun m=>by rw [hentries]).releaseRange start last
  have hlookup := hreleases.lookup
  have hdone := hreleases.done
  have hgrows := hreleases.frontier
  rw [hentries] at hlookup
  rw [hfrontier] at hgrows
  generalize t.releaseRange start last=s' at hlookup hdone hgrows hshape hcounted ⊢
  have hdone' : ∀ m, s'.Done m ↔ l.order.Done m ∨ start ≤ m ∧ m≤last := by
    intro m
    rw [hdone]
    unfold Done
    rw [hfrontier,hfinished]
  refine ⟨hshape,hcounted,?_,fun m=>?_,?_⟩
  · refine hl.bounded.drop hl.counted hcounted (fun m=>?_) fun hsome=>?_
    · rw [hlookup]
      split_ifs
      · exact .inl rfl
      · exact .inr rfl
    · exact le_antisymm (not_lt.1 fun hlt=>hshape.not_done hsome (.inl hlt)) hgrows
  · have hdrops : l.order.Drops s' m ↔ start ≤ m ∧ m≤last := by
      unfold Drops
      rw [hlookup]
      constructor
      · rintro ⟨hsome,hnone⟩
        by_contra hout
        rw [if_neg hout] at hnone
        rw [hnone] at hsome
        cases hsome
      · intro hin
        obtain ⟨entry,hentry,-⟩ := hrange m hin.1 hin.2
        rw [if_pos hin,hentry]
        exact ⟨rfl,rfl⟩
    dsimp only
    rw [hdone',hl.released,hdrops,or_assoc]
  · intro m p hm hlt hpast
    have hold : l.order.finished.Covers p ∨ l.order.Active p := by
      rcases hpast with hcovers | ⟨entry,hentry,hslot⟩
      · rcases (hdone' p).1 (.inr hcovers) with (hbelow | hcovers') | hin
        · exact absurd (hgrows.trans (hm.trans hlt.le)) hbelow.not_ge
        · exact .inl hcovers'
        · exact .inr (hrange p hin.1 hin.2)
      · rw [hlookup] at hentry
        split_ifs at hentry
        exact .inr ⟨entry,hentry,hslot⟩
    have hcovers : s'.Done m → s'.finished.Covers m := fun h=>h.resolve_left hm.not_gt
    rcases hl.passed m p (hgrows.trans hm) hlt hold with hsome | hcovers' | habsent
    · by_cases hin : start ≤ m ∧ m≤last
      · exact .inr (.inl (hcovers ((hdone' m).2 (.inr hin))))
      · rw [hlookup,if_neg hin]
        exact .inl hsome
    · exact .inr (.inl (hcovers ((hdone' m).2 (.inl (.inr hcovers')))))
    · exact .inr (.inr habsent)

lemma bursts_active {last : ℕ} (h : Bursts s t n last) (m : ℕ) : t.Active m ↔ s.Active m ∨ n ≤ m ∧ m≤last := by
  unfold Active
  rw [h.lookup]
  split_ifs with hin
  · obtain ⟨entry,event,hentry,-⟩ := h.ready m hin.1 hin.2
    rw [hentry]
    exact iff_of_true ⟨_,rfl,rfl⟩ (.inr hin)
  · exact (or_iff_left hin).symm

/-- What a commit pass leaves as it was, and what it may pop. -/
structure Pops (s s' : OrderedCommitState S V O) : Prop where
  frontier : s'.frontier=s.frontier
  finished : s'.finished=s.finished
  counter : ∀ lane, s'.counter lane=s.counter lane
  held : ∀ m, (s'.entries.lookup m).map Entry.held = (s.entries.lookup m).map Entry.held
  active : ∀ m, s.Active m → s'.Active m
  popped : ∀ m, s'.Active m → s.Active m ∨ s.Passable s.frontier m

lemma bursts_pops {last : ℕ} (h : Bursts s t n last) (hpassable : s.Passable s.frontier n) : Pops s t where
  frontier := by rw [h.rest]
  finished := by rw [h.rest]
  counter := fun lane=>by
    rw [h.rest]
    cases lane <;> rfl
  held := fun m=>by
    rw [h.lookup]
    split_ifs
    · rw [Option.map_map]
      rfl
    · rfl
  active := fun m hm=>(bursts_active h m).2 (.inl hm)
  popped := fun m hm=>by
    rcases (bursts_active h m).1 hm with hold | hin
    · exact .inl hold
    · refine .inr fun p hp hlt=>?_
      by_cases hbefore : p<n
      · exact hpassable p hp hbefore
      · obtain ⟨entry,event,hentry,-⟩ := h.ready p (not_lt.1 hbefore) (hlt.le.trans hin.2)
        rw [hentry]
        exact .inl rfl

lemma commits_pops (h : Commits s s') : Pops s s' := by
  have hone : ∀ {n entry event}, s.Found n entry event → Pops s (s.activate n entry) :=
    fun hfound=>bursts_pops (.activate hfound.looked hfound.slot) hfound.passable
  cases h with
  | idle heavy earlier =>
    exact ⟨rfl,rfl,fun lane=>by cases lane <;> rfl,fun _=>rfl,fun _=>id,fun _=>.inl⟩
  | batch heavy earlier hidle hpending =>
    exact ⟨rfl,rfl,fun lane=>by cases lane <;> rfl,fun _=>rfl,fun _=>id,fun _=>.inl⟩
  | start heavy earlier hidle hfound =>
    have hpops := hone hfound
    exact ⟨hpops.frontier,hpops.finished,fun lane=>by cases lane <;> rfl,hpops.held, hpops.active,hpops.popped⟩
  | apply heavy earlier hidle hfound =>
    have hpops := hone hfound
    exact ⟨hpops.frontier,hpops.finished,fun lane=>by cases lane <;> rfl,hpops.held, hpops.active,hpops.popped⟩
  | burst heavy earlier hidle hfound hfree hburst =>
    have hpops := bursts_pops hburst hfound.passable
    refine ⟨hpops.frontier,hpops.finished,fun lane=>?_,hpops.held,hpops.active,hpops.popped⟩
    rw [← hpops.counter lane]
    cases lane <;> rfl

variable {event : PreparedWorldEvent S V O}

lemma not_active_of_ready {entry : Entry S V O}
    (hlook : s.entries.lookup n=some entry) (hslot : entry.slot = .ready event) :
    ¬s.Active n := by
  rintro ⟨other,hother,hactive⟩
  rw [hlook] at hother
  cases hother
  rw [hslot] at hactive
  cases hactive

lemma commits_shape (hs : s.Shape) (h : Commits s s') : s'.Shape := by
  have hpops := commits_pops h
  have hunfinished : ∀ m, (s'.entries.lookup m).isSome → s'.frontier ≤ m ∧ ¬s'.finished.Covers m := by
    intro m hm
    have hsome := congrArg Option.isSome (hpops.held m)
    rw [Option.isSome_map,Option.isSome_map] at hsome
    rw [hpops.frontier,hpops.finished]
    exact hs.unfinished m (hsome ▸ hm)
  have hruns : s'.finished.Apart := hpops.finished ▸ hs.runs
  have hpositive : 0 < s'.frontier := hpops.frontier ▸ hs.positive
  have habove : ∀ m, s'.finished.Covers m → s'.frontier < m := by
    rw [hpops.finished,hpops.frontier]
    exact hs.above
  have hfence : s'.blockingBlockUpdates=s.blockingBlockUpdates → ∀ {a b},
      s'.blockingBlockUpdates=some (a,b) → a≤b ∧ ∀ m, a ≤ m → m≤b → s'.Active m := by
    intro hsame a b hb
    obtain ⟨hle,hall⟩ := hs.fence (hsame ▸ hb)
    exact ⟨hle,fun m hm hm'=>hpops.active m (hall m hm hm')⟩
  cases h with
  | idle heavy earlier =>
    exact hs.entries rfl rfl rfl rfl rfl rfl (fun _=>id) fun _=>.inl
  | @batch heavy earlier pending hidle hpending =>
    have hrange := hs.idle hidle
    exact
      { runs := hruns
        positive := hpositive
        above := habove
        unfinished := hunfinished
        applying := fun {a} ha=>by
          cases ha
          unfold rangeEnd
          rw [hrange]
          refine ⟨le_refl _,fun m hm hm'=>?_⟩
          rw [le_antisymm hm' hm]
          exact hs.pending hpending
        idle := fun hnone=>nomatch hnone
        pending := fun {p} hp=>by
          have hheld := hs.pending hpending
          cases hp
          exact hheld
        batch := fun {p a} hp ha _ _=>by
          cases hp
          cases ha
          exact ⟨rfl,hrange⟩
        fence := hfence rfl
        apart := fun {a b} hb m hm hm'=>by
          have hne := (hs.apart hb m hm hm').1 pending hpending
          refine ⟨fun p hp=>?_,fun c hc hin=>?_⟩
          · cases hp
            exact hne
          · cases hc
            unfold rangeEnd at hin
            rw [hrange] at hin
            exact hne (le_antisymm hin.1 hin.2)
        burst := fun hsome=>by
          rw [hrange] at hsome
          cases hsome }
  | @start heavy earlier n entry dimension entries duration hidle hfound =>
    have hready := not_active_of_ready hfound.looked hfound.slot
    have hactive := bursts_active (.activate hfound.looked hfound.slot)
    exact
      { runs := hruns
        positive := hpositive
        above := habove
        unfinished := hunfinished
        applying := fun {a} ha=>by
          change s.applying=some a at ha
          rw [hidle] at ha
          cases ha
        idle := fun _=>hs.idle hidle
        pending := fun {p} hp=>by
          cases hp
          exact (hactive n).2 (.inr ⟨le_refl _,le_refl _⟩)
        batch := fun {p a} _ ha=>by
          change s.applying=some a at ha
          rw [hidle] at ha
          cases ha
        fence := hfence rfl
        apart := fun {a b} hb m hm hm'=>by
          refine ⟨fun p hp=>?_,fun c hc=>?_⟩
          · cases hp
            rintro rfl
            exact hready ((hs.fence hb).2 _ hm hm')
          · change s.applying=some c at hc
            rw [hidle] at hc
            cases hc
        burst := fun hsome=>by
          change s.blockUpdateRangeEnd.isSome=true at hsome
          rw [hs.idle hidle] at hsome
          cases hsome }
  | @apply heavy earlier n entry event hidle hfound =>
    have hready := not_active_of_ready hfound.looked hfound.slot
    have hactive := bursts_active (.activate hfound.looked hfound.slot)
    have hrange := hs.idle hidle
    exact
      { runs := hruns
        positive := hpositive
        above := habove
        unfinished := hunfinished
        applying := fun {a} ha=>by
          cases ha
          change n ≤ s.blockUpdateRangeEnd.getD n ∧ ∀ m, n ≤ m →
            m ≤ s.blockUpdateRangeEnd.getD n → (s.activate n entry).Active m
          rw [hrange]
          refine ⟨le_refl _,fun m hm hm'=>?_⟩
          exact (hactive m).2 (.inr ⟨hm,hm'⟩)
        idle := fun hnone=>nomatch hnone
        pending := fun {p} hp=>hpops.active _ (hs.pending hp)
        batch := fun {p a} hp ha hle hle'=>by
          cases ha
          change p.sequence ≤ s.blockUpdateRangeEnd.getD n at hle'
          rw [hrange] at hle'
          have heq : p.sequence=n := le_antisymm hle' hle
          rw [← heq] at hready
          exact absurd (hs.pending hp) hready
        fence := hfence rfl
        apart := fun {a b} hb m hm hm'=>by
          refine ⟨(hs.apart hb m hm hm').1,fun c hc hin=>?_⟩
          cases hc
          change n ≤ m ∧ m ≤ s.blockUpdateRangeEnd.getD n at hin
          rw [hrange] at hin
          have heq : m=n := le_antisymm hin.2 hin.1
          rw [← heq] at hready
          exact hready ((hs.fence hb).2 m hm hm')
        burst := fun hsome=>by
          change s.blockUpdateRangeEnd.isSome=true at hsome
          rw [hrange] at hsome
          cases hsome }
  | @burst heavy earlier n last entry event t hidle hfound hfree hburst =>
    have hactive := bursts_active hburst
    have hpending : t.pendingSubChunks=s.pendingSubChunks := by rw [hburst.rest]
    have hblocking : t.blockingBlockUpdates=none := by
      rw [hburst.rest]
      exact hfree
    exact
      { runs := hruns
        positive := hpositive
        above := habove
        unfinished := hunfinished
        applying := fun {a} ha=>by
          cases ha
          exact ⟨hburst.le,fun m hm hm'=>(hactive m).2 (.inr ⟨hm,hm'⟩)⟩
        idle := fun hnone=>nomatch hnone
        pending := fun {p} hp=>hpops.active _ (hs.pending (hpending ▸ hp))
        batch := fun {p a} hp ha hle hle'=>by
          cases ha
          obtain ⟨other,ready,hother,hslot⟩ := hburst.ready p.sequence hle hle'
          exact absurd (hs.pending (hpending ▸ hp)) (not_active_of_ready hother hslot)
        fence := fun hb=>by
          rw [hblocking] at hb
          cases hb
        apart := fun hb=>by
          rw [hblocking] at hb
          cases hb
        burst := fun _=>hblocking }

lemma Sound.commits (hl : l.Sound capacity first) (h : Commits l.order s') :
    ({ l with order := s' } : Ledger S V O).Sound capacity first := by
  have hpops := commits_pops h
  refine ⟨commits_shape hl.shape h,hl.counted.congr hpops.counter hpops.held,?_,fun m=>?_,?_⟩
  · have hlight := hpops.counter .light
    have hheavy := hpops.counter .heavy
    have hdeferred := hpops.counter .deferred
    have hingress := hpops.counter .ingress
    have hreserved := hpops.counter .ingressLight
    simp only [OrderedCommitState.counter] at hlight hheavy hdeferred hingress hreserved
    refine ⟨by rw [hlight,hreserved]; exact hl.bounded.light,?_,
      by rw [hdeferred]; exact hl.bounded.deferred,by rw [hingress]; exact hl.bounded.ingress⟩
    rw [hheavy,hpops.frontier]
    refine hl.bounded.heavy.imp id (And.imp id ?_)
    rintro ⟨entry,hentry,hheld⟩
    have hsame := hpops.held l.order.frontier
    rw [hentry] at hsame
    obtain ⟨other,hother,heq⟩ := Option.map_eq_some_iff.1 hsame
    exact ⟨other,hother,heq.trans hheld⟩
  · rw [← hl.released]
    unfold Done
    rw [hpops.frontier,hpops.finished]
  · intro m p hm hlt hpast
    rw [hpops.frontier] at hm
    rw [hpops.finished] at hpast ⊢
    have hsome := congrArg Option.isSome (hpops.held m)
    rw [Option.isSome_map,Option.isSome_map] at hsome
    rw [hsome]
    rcases hpast with hcovers | hactive
    · exact hl.passed m p hm hlt (.inl hcovers)
    · rcases hpops.popped p hactive with hold | hpassable
      · exact hl.passed m p hm hlt (.inr hold)
      · exact (hpassable m hm hlt).imp id .inl

lemma validated {n : ℕ} (h : s.validateSequence n = .ok ()) : s.isFinished n=false ∧ s.entries.lookup n=none := by
  unfold validateSequence at h
  split_ifs at h with hheld
  rw [Bool.or_eq_true,not_or,Bool.not_eq_true,Bool.not_eq_true,Option.isSome_eq_false_iff,
    Option.isNone_iff_eq_none] at hheld
  exact hheld

/-- An event is ordered in the lane whose counter is raised. -/
lemma admits_insertEntry (footprint : Footprint)
    (hvalid : s.validateSequence n = .ok ()) (hentries : t.entries=s.entries) (hkept : Kept s t)
    (hcounter : ∀ lane : Lane, (t.insertEntry n footprint held).counter lane =
      s.counter lane + (lane.holds held).toNat) : Admits s (t.insertEntry n footprint held) n held
    where
  absent := (validated hvalid).2
  fresh := (validated hvalid).1
  entries := ⟨footprint,by
    rw [← hentries]
    rfl⟩
  kept := ⟨hkept.frontier,hkept.finished,hkept.applying,hkept.pending,hkept.blocking, hkept.range⟩
  counter := hcounter

/-- An event that does not weigh on the heavy lanes takes light credit. -/
lemma admits_light (footprint : Footprint) (hvalid : s.validateSequence n = .ok ())
    (hroom : s.lightCapacity retainedCommits≠0) :
    ∃ held, Admits s ({ s with light := s.light+1 }.insertEntry n footprint .light) n held ∧
      HasRoom capacity s held := by
  refine ⟨.light,admits_insertEntry footprint hvalid rfl ⟨rfl,rfl,rfl,rfl,rfl,rfl⟩ fun lane=>by cases lane <;> rfl,?_⟩
  unfold lightCapacity lightCapacityWithReservations at hroom
  change s.light+s.ingressLight < maxAdmittedWorldEvents
  omega

variable {footprint : Footprint}

lemma admit_admits (h : s.admitEntry n footprint retainedCommits = .ok s' ∨
    s.admitDeferred n footprint retainedCommits = .ok s') :
    ∃ held, Admits s s' n held ∧ HasRoom capacity s held := by
  unfold OrderedCommitState.admitEntry OrderedCommitState.admitDeferred at h
  cases hvalid : s.validateSequence n with
  | error error =>
    rw [hvalid] at h
    rcases h with h | h <;> cases h
  | ok accepted =>
    rw [hvalid] at h
    rcases h with h | h
    all_goals
      change (if footprint.heavy=true then _ else _) = _ at h
      split_ifs at h with hheavy hroom hroom
    · cases h
      refine ⟨.heavy,admits_insertEntry footprint hvalid rfl ⟨rfl,rfl,rfl,rfl,rfl,rfl⟩
        fun lane=>by cases lane <;> rfl,Nat.lt_of_sub_ne_zero hroom⟩
    · cases h
      exact admits_light footprint hvalid hroom
    · cases h
      refine ⟨.deferred,admits_insertEntry footprint hvalid rfl ⟨rfl,rfl,rfl,rfl,rfl,rfl⟩
        fun lane=>by cases lane <;> rfl,Nat.lt_of_sub_ne_zero hroom⟩
    · cases h
      exact admits_light footprint hvalid hroom

lemma reserveIngressLight_cases {credit : Bool} (h : s.reserveIngressLight n retainedCommits=some (credit,s')) :
    s'=s ∨ ∃ old new, Rewrites s s' n old new ∧ HeldMoves s n old.held new.held := by
  unfold reserveIngressLight at h
  split at h
  next footprint lightReserved slot hlook =>
    split_ifs at h with hheld hroom
    · cases h
      exact .inl rfl
    · cases h
      exact .inl rfl
    · cases h
      rw [Bool.or_eq_true,not_or,Bool.not_eq_true,Bool.not_eq_true] at hheld
      obtain ⟨-,rfl⟩ := hheld
      refine .inr ⟨_,⟨footprint,.ingress true,slot⟩,⟨hlook,rfl,⟨rfl,rfl,rfl,rfl,rfl,rfl⟩,
        Iff.rfl,fun lane=>by cases lane <;> rfl⟩,.credited ?_⟩
      unfold lightCapacity lightCapacityWithReservations at hroom
      omega
  next => cases h

lemma promoteDeferred_cases (hroom : 0 < s.heavyCapacity ∨ n=s.frontier ∨
      ∀ entry, s.entries.lookup n=some entry → entry.held ≠ .deferred)
    (h : s.promoteDeferred n=some s') (hs : s.Counted) :
    s'=s ∨ ∃ old new, Rewrites s s' n old new ∧ HeldMoves s n old.held new.held := by
  unfold promoteDeferred at h
  cases hlook : s.entries.lookup n with
  | none =>
    rw [hlook] at h
    cases h
  | some entry =>
    rw [hlook] at h
    dsimp only at h
    split_ifs at h with hheld
    · cases h
      have hpos := hs.weigh_le .deferred n
      rw [hlook] at hpos
      have hone : (Lane.deferred).weigh (some entry) = 1 := by
        unfold Lane.weigh Lane.holds
        simp [hheld]
      rw [hone] at hpos
      change 1 ≤ s.deferred at hpos
      refine .inr ⟨entry,{ entry with held := .heavy },⟨hlook,rfl,⟨rfl,rfl,rfl,rfl,rfl,rfl⟩, Iff.rfl,fun lane=>?_⟩,?_⟩
      · rw [hheld]
        cases lane <;> simp [OrderedCommitState.counter,Lane.holds]
        omega
      · rw [hheld]
        refine .promoted (hroom.imp (fun hlt=>?_) fun hrest=>?_)
        · unfold heavyCapacity at hlt
          omega
        · exact hrest.resolve_right fun hne=>hne entry hlook hheld
    · cases h
      exact .inl rfl

lemma insertReady_rewrites (h : s.insertReady n event = .ok s') :
    ∃ old new, Rewrites s s' n old new ∧ HeldMoves s n old.held new.held := by
  unfold insertReady at h
  split at h
  next footprint held hlook =>
    cases h
    have hslot : Slot.ready event = .active ↔ (Slot.waiting : Slot S V O) = .active :=
      ⟨fun hready=>(nomatch hready),fun hwaiting=>(nomatch hwaiting)⟩
    exact ⟨_,⟨footprint,held,.ready event⟩,⟨hlook,rfl,⟨rfl,rfl,rfl,rfl,rfl,rfl⟩,hslot,
      fun lane=>by cases lane <;> rfl⟩,.same held⟩
  next => cases h

lemma normalize_cases (s : OrderedCommitState S V O) (n : ℕ) : s.normalize n=s ∨
    ∃ old new, Rewrites s (s.normalize n) n old new ∧ HeldMoves s n old.held new.held := by
  unfold OrderedCommitState.normalize
  cases hlook : s.entries.lookup n with
  | none => exact .inl rfl
  | some entry =>
    exact .inr ⟨entry,_,⟨hlook,rfl,⟨rfl,rfl,rfl,rfl,rfl,rfl⟩,Iff.rfl, fun lane=>by cases lane <;> rfl⟩,.same entry.held⟩

lemma Sound.noDrops (hl : ({ l with order := s' } : Ledger S V O).Sound capacity first)
    (hsome : ∀ m, (l.order.entries.lookup m).isSome → (s'.entries.lookup m).isSome) :
    ({ l with order := s', released := fun m=>l.released m ∨ l.order.Drops s' m } :
      Ledger S V O).Sound capacity first := by
  refine ⟨hl.shape,hl.counted,hl.bounded,fun m=>?_,hl.passed⟩
  have hdrops : ¬l.order.Drops s' m := by
    rintro ⟨hold,hnone⟩
    have hnew := hsome m hold
    rw [hnone] at hnew
    cases hnew
  dsimp only
  rw [or_iff_left hdrops]
  exact hl.released m

section

variable (hl : l.Sound capacity first)
include hl

lemma Sound.completeDecode {event : PreparedWorldEvent S V O}
    {answer : Bool} (h : l.order.completeDecode n event = .ok (answer,s')) :
    ({ l with order := s', released := fun m=>l.released m ∨ l.order.Drops s' m } :
      Ledger S V O).Sound capacity first := by
  have hready : (l.order.insertReady n event).map (fun s=>(false,s)) = .ok (answer,s') →
      ({ l with order := s', released := fun m=>l.released m ∨ l.order.Drops s' m } :
        Ledger S V O).Sound capacity first := by
    intro hmap
    cases hinsert : l.order.insertReady n event with
    | error error =>
      rw [hinsert] at hmap
      cases hmap
    | ok order =>
      rw [hinsert] at hmap
      cases hmap
      obtain ⟨old,new,hrewrites,hmoves⟩ := insertReady_rewrites hinsert
      refine (hrewrites.sound hl hmoves).noDrops fun m hm=>?_
      rw [hrewrites.lookup]
      split_ifs
      · rfl
      · exact hm
  unfold OrderedCommitState.completeDecode at h
  split at h
  next start last hblocking =>
    split_ifs at h with hdecoded
    · cases h
      obtain ⟨rfl,-⟩ := hdecoded
      obtain ⟨hle,hactive⟩ := hl.shape.fence hblocking
      have ht : ({ l.order with blockingBlockUpdates := none } : OrderedCommitState S V O).Shape :=
        { __ := hl.shape
          fence := fun hnone=>nomatch hnone
          apart := fun hnone=>nomatch hnone
          burst := fun _=>rfl }
      refine hl.finish ht hle hactive rfl rfl rfl (fun lane=>by cases lane <;> rfl)
        (fun a ha m hm hm'=>((hl.shape.apart hblocking m hm hm').2 a ha)) (fun p hp hin=>?_)
        fun a b hnone=>nomatch hnone
      exact (hl.shape.apart hblocking _ hin.1 hin.2).1 p hp rfl
    · exact hready h
  next => exact hready h

lemma Sound.deferBlockUpdates (hbatch : l.order.blockUpdateRangeEnd.isSome) (h : l.order.deferBlockUpdates n=some s') :
    ({ l with order := s' } : Ledger S V O).Sound capacity first := by
  unfold OrderedCommitState.deferBlockUpdates at h
  split_ifs at h with happlying
  cases h
  obtain ⟨hle,hactive⟩ := hl.shape.applying happlying
  refine ⟨?_,hl.counted.congr (fun lane=>by cases lane <;> rfl) fun _=>rfl,
    ⟨hl.bounded.light,hl.bounded.heavy,hl.bounded.deferred,hl.bounded.ingress⟩,hl.released,
    hl.passed⟩
  exact
    { __ := hl.shape
      applying := fun hnone=>nomatch hnone
      idle := fun _=>rfl
      batch := fun _ hnone=>nomatch hnone
      fence := fun hb=>by
        cases hb
        exact ⟨hle,hactive⟩
      apart := fun hb m hm hm'=>by
        cases hb
        refine ⟨fun p hp hpm=>?_,fun c hc=>nomatch hc⟩
        obtain ⟨-,hnone⟩ := hl.shape.batch hp happlying (hpm ▸ hm) (hpm ▸ hm')
        rw [hnone] at hbatch
        cases hbatch
      burst := fun hnone=>nomatch hnone }

lemma Sound.finishCommit (n : ℕ) :
    ({ l with
      order := (l.order.finishCommit n).2
      released := fun m=>l.released m ∨ l.order.Drops (l.order.finishCommit n).2 m } :
        Ledger S V O).Sound capacity first := by
  by_cases happlying : l.order.applying=some n
  · obtain ⟨hle,hactive⟩ := hl.shape.applying happlying
    -- the step is over, and its partial batch where that has nothing left
    have hfinish : ∀ pending, (pending=none ∨ pending=l.order.pendingSubChunks ∧ ∀ p, pending=some p → p.sequence≠n) →
        ({ l with
          order := ({ l.order with
            applying := none
            pendingSubChunks := pending
            blockUpdateRangeEnd := none }.releaseRange n (l.order.rangeEnd n))
          released := fun m=>l.released m ∨ l.order.Drops ({ l.order with
            applying := none
            pendingSubChunks := pending
            blockUpdateRangeEnd := none }.releaseRange n (l.order.rangeEnd n)) m } :
          Ledger S V O).Sound capacity first := by
      intro pending hpending
      have hkept : ∀ {p}, pending=some p → l.order.pendingSubChunks=some p ∧ p.sequence≠n := by
        intro p hp
        rcases hpending with hnone | ⟨hsame,hne⟩
        · rw [hnone] at hp
          cases hp
        · exact ⟨hsame ▸ hp,hne p hp⟩
      have ht : ({ l.order with
          applying := none
          pendingSubChunks := pending
          blockUpdateRangeEnd := none } : OrderedCommitState S V O).Shape :=
        { __ := hl.shape
          applying := fun hnone=>nomatch hnone
          idle := fun _=>rfl
          pending := fun hp=>hl.shape.pending (hkept hp).1
          batch := fun _ hnone=>nomatch hnone
          apart := fun hb m hm hm' =>
            ⟨fun p hp=>(hl.shape.apart hb m hm hm').1 p (hkept hp).1,fun c hc=>nomatch hc⟩
          burst := fun hnone=>nomatch hnone }
      refine hl.finish ht hle hactive rfl rfl rfl (fun lane=>by cases lane <;> rfl)
        (fun a hnone=>nomatch hnone) (fun p hp hin=>?_) fun a b hb m hm hm' hin=>?_
      · exact (hkept hp).2 (hl.shape.batch (hkept hp).1 happlying hin.1 hin.2).1.symm
      · exact (hl.shape.apart hb m hm hm').2 n happlying hin
    unfold OrderedCommitState.finishCommit
    rw [if_neg (not_not.2 happlying)]
    cases hpending : l.order.pendingSubChunks with
    | none => exact hfinish none (.inl rfl)
    | some p =>
      dsimp only
      by_cases hsame : p.sequence=n
      · by_cases hleft : p.entries ≠ []
        · -- the batch goes on later
          rw [if_pos hsame,if_pos hleft]
          have hrange := (hl.shape.batch hpending happlying hsame.ge (hsame.trans_le hle)).2
          refine Sound.noDrops ⟨?_,hl.counted.congr (fun lane=>by cases lane <;> rfl) fun _=>rfl,
            ⟨hl.bounded.light,hl.bounded.heavy,hl.bounded.deferred,hl.bounded.ingress⟩,
            hl.released,hl.passed⟩ fun _=>id
          exact
            { __ := hl.shape
              applying := fun hnone=>nomatch hnone
              idle := fun _=>hrange
              pending := fun hp=>hl.shape.pending (hpending.trans hp)
              batch := fun _ hnone=>nomatch hnone
              apart := fun hb m hm hm' =>
                ⟨fun p' hp=>(hl.shape.apart hb m hm hm').1 p' (hpending.trans hp), fun c hc=>nomatch hc⟩ }
        · rw [if_pos hsame,if_neg hleft]
          exact hfinish none (.inl rfl)
      · rw [if_neg hsame]
        exact hfinish (some p) (.inr ⟨hpending.symm,fun p' hp=>by
          cases hp
          exact hsame⟩)
  · unfold OrderedCommitState.finishCommit
    rw [if_pos happlying]
    exact Sound.noDrops hl fun _=>id

end

lemma retainIngress_admits {credit : Bool}
    (h : s.retainIngress n footprint capacity retainedCommits = .ok (some (credit,s'))) :
    ∃ order, Admits s order n (.ingress false) ∧ HasRoom capacity s (.ingress false) ∧
      order.reserveIngressLight n retainedCommits=some (credit,s') := by
  unfold OrderedCommitState.retainIngress at h
  cases hvalid : s.validateSequence n with
  | error error =>
    rw [hvalid] at h
    cases h
  | ok accepted =>
    rw [hvalid] at h
    change (if capacity ≤ s.ingress then _ else _) = _ at h
    split_ifs at h with hfull
    have hadmits : Admits s ({ s with ingress := s.ingress+1 }.insertEntry n footprint
        (.ingress false)) n (.ingress false) :=
      admits_insertEntry footprint hvalid rfl ⟨rfl,rfl,rfl,rfl,rfl,rfl⟩ fun lane=>by cases lane <;> rfl
    exact ⟨_,hadmits,⟨not_le.1 hfull,rfl⟩,Except.ok.inj h⟩

lemma Sound.step {l' : Ledger S V O} (hl : l.Sound capacity first) (h : Step capacity l l') :
    l'.Sound capacity first := by
  have hcases : ∀ {n s'}, (s'=l.order ∨ ∃ old new, Rewrites l.order s' n old new ∧
      HeldMoves l.order n old.held new.held) →
      ({ l with order := s' } : Ledger S V O).Sound capacity first := by
    rintro n s' (rfl | ⟨old,new,hrewrites,hmoves⟩)
    · exact hl
    · exact hrewrites.sound hl hmoves
  cases h with
  | admitEntry n footprint retainedCommits h =>
    obtain ⟨held,hadmits,hroom⟩ := admit_admits (.inl h)
    exact hadmits.sound hl hroom
  | admitDeferred n footprint retainedCommits h =>
    obtain ⟨held,hadmits,hroom⟩ := admit_admits (.inr h)
    exact hadmits.sound hl hroom
  | retainIngress n footprint retainedCommits h =>
    obtain ⟨order,hadmits,hroom,hreserve⟩ := retainIngress_admits h
    have hretained := hadmits.sound hl hroom
    rcases reserveIngressLight_cases hreserve with rfl | ⟨old,new,hrewrites,hmoves⟩
    · exact hretained
    · exact hrewrites.sound hretained hmoves
  | reserveIngressLight n retainedCommits h => exact hcases (reserveIngressLight_cases h)
  | releaseIngress n hactive habsent h =>
    unfold OrderedCommitState.releaseIngress at h
    split at h
    · cases h
      exact hl.rollback hactive habsent
    · cases h
  | cancelAdmission n hsome hactive habsent => exact hl.rollback hactive habsent
  | promoteDeferred n hroom h => exact hcases (promoteDeferred_cases hroom h hl.counted)
  | insertReady n event h => exact hcases (.inr (insertReady_rewrites h))
  | normalize n => exact hcases (normalize_cases l.order n)
  | completeDecode n event h => exact hl.completeDecode h
  | nextCommitWithin budget h =>
    exact hl.commits (nextCommitWithin_commits hl.shape.runs hl.shape.positive h)
  | deferBlockUpdates n hbatch h => exact hl.deferBlockUpdates hbatch h
  | finishCommit n => exact hl.finishCommit n

lemma Reachable.sound (hfirst : 0<first) (h : Reachable capacity first l) :
    l.Sound capacity first := by
  induction h with
  | new => exact sound_new hfirst
  | step _ hstep ih => exact ih.step hstep

end Ledger

end Cinnabar.Ingest
