import Mathlib.Data.List.Basic
import Mathlib.Data.Nat.Basic
import Mathlib.Order.MinMax

/-! # Movement boosts

Boosts are half-open intervals of ticks.
-/

namespace Cinnabar.Boosts

open List

inductive MovementBoost where
  | glide
  | dolphin
deriving DecidableEq

inductive BoostSpan where
  | ticks (ticks : ℕ)
  | unbounded
deriving DecidableEq

def u64Max : ℕ := 18446744073709551615

def predictedRocketBoostTicks : ℕ := 20

structure BoostInterval where
  boost : MovementBoost
  server : Bool
  start : ℕ
  /-- The first tick no longer boosted, if there is one. -/
  last : Option ℕ
deriving DecidableEq

/-- Whether an end, if there is one, comes after a tick. -/
def after (last : Option ℕ) (tick : ℕ) : Bool := last.all (tick < ·)

def BoostInterval.contains (interval : BoostInterval) (tick : ℕ) : Bool :=
  interval.start≤tick && after interval.last tick

abbrev BoostTimeline : Type := List BoostInterval

def earlier : Option ℕ → Option ℕ → Option ℕ
  | some last,some next => some (min last next)
  | none,next => next
  | last,none => last

def BoostSpan.last (start : ℕ) : BoostSpan → Option ℕ
  | .ticks count => some (min (start+count) u64Max)
  | .unbounded => none

/-- What is left of an interval when a server boost is recorded. -/
def BoostInterval.restated (boost : MovementBoost) (start : ℕ) (interval : BoostInterval) :
    Option BoostInterval :=
  if interval.boost≠boost ∨ start < interval.start then some interval
  else
    let last := interval.last.elim start (min · start)
    if interval.start<last then some { interval with last := some last } else none

namespace BoostTimeline

variable (timeline : BoostTimeline)

def boosted (boost : MovementBoost) (tick : ℕ) : Bool :=
  timeline.any fun interval=>interval.boost=boost && interval.contains tick

def predictRocket (start : ℕ) : BoostTimeline :=
  timeline ++ [⟨.glide,false,start,some (start+predictedRocketBoostTicks)⟩]

/-- The start of the next server boost of a kind that begins later. -/
def nextServer (boost : MovementBoost) (start : ℕ) : Option ℕ :=
  ((timeline.filter fun interval =>
    interval.server && interval.boost=boost && start < interval.start).map (·.start)).min?

def recordServer (boost : MovementBoost) (start : ℕ) (span : BoostSpan) : BoostTimeline :=
  let intervals := timeline.filterMap (BoostInterval.restated boost start)
  let last := earlier (span.last start) (nextServer intervals boost start)
  if after last start then intervals ++ [⟨boost,true,start,last⟩] else intervals

def forgetBefore (tick : ℕ) : BoostTimeline :=
  timeline.filter fun interval=>after interval.last tick

end BoostTimeline

inductive Operation where
  | predictRocket (start : ℕ)
  | recordServer (boost : MovementBoost) (start : ℕ) (span : BoostSpan)
  | forgetBefore (tick : ℕ)

def BoostTimeline.step (timeline : BoostTimeline) : Operation → BoostTimeline
  | .predictRocket start => timeline.predictRocket start
  | .recordServer boost start span => timeline.recordServer boost start span
  | .forgetBefore tick => timeline.forgetBefore tick

def BoostTimeline.run (timeline : BoostTimeline) (operations : List Operation) : BoostTimeline :=
  operations.foldl step timeline

/-- The boost lanes of the simulator's effects. -/
structure MovementEffects where
  glideBoost : Bool
  dolphinBoost : Bool
deriving DecidableEq

def MovementBoost.flag (effects : MovementEffects) : MovementBoost → Bool
  | .glide => effects.glideBoost
  | .dolphin => effects.dolphinBoost

def MovementBoost.setFlag (effects : MovementEffects) (flag : Bool) :
    MovementBoost → MovementEffects
  | .glide => { effects with glideBoost := flag }
  | .dolphin => { effects with dolphinBoost := flag }

def BoostTimeline.apply (timeline : BoostTimeline) (tick : ℕ) (effects : MovementEffects) :
    MovementEffects :=
  [MovementBoost.glide,.dolphin].foldl (fun effects boost=>boost.setFlag effects (timeline.boosted boost tick)) effects

structure PredictedFrame where
  tick : ℕ
  effects : MovementEffects

abbrev PredictionHistory : Type := List PredictedFrame

namespace PredictionHistory

variable (history : PredictionHistory)

def oldestTick : Option ℕ := history.head?.map (·.tick)

def newestTick : Option ℕ := history.getLast?.map (·.tick)

def inputAt (tick : ℕ) : Option MovementEffects :=
  (history.find? fun frame=>frame.tick=tick).map (·.effects)

end PredictionHistory

structure LocalPhysicsController where
  /-- The tick of the player's state, while one is held. -/
  state : Option ℕ
  history : PredictionHistory
  boosts : BoostTimeline

namespace LocalPhysicsController

variable (controller : LocalPhysicsController)

/-- The tick before a tick whose recorded boosts differ from the timeline. -/
def boostChange (tick : ℕ) : Option ℕ := do
  let recorded ← controller.history.inputAt tick
  if controller.boosts.apply tick recorded≠recorded then some (tick-1) else none

def firstBoostChange : Option ℕ := do
  let oldest ← controller.history.oldestTick
  let newest ← controller.history.newestTick
  (List.range' (oldest+1) (newest-oldest)).findSome? controller.boostChange

end LocalPhysicsController

/-- A boost as recorded, with the next later-starting server boost of its kind held then. -/
structure Recorded where
  boost : MovementBoost
  server : Bool
  start : ℕ
  spanLast : Option ℕ
  known : Option ℕ

/-- What an operation on a timeline records. -/
def record (timeline : BoostTimeline) : Operation → List Recorded
  | .predictRocket start => [⟨.glide,false,start,some (start+predictedRocketBoostTicks),none⟩]
  | .recordServer boost start span =>
    [⟨boost,true,start,span.last start,timeline.nextServer boost start⟩]
  | .forgetBefore _ => []

/-- What a run from a timeline records, the latest first. -/
def recorded (timeline : BoostTimeline) : List Operation → List Recorded
  | [] => []
  | operation::operations =>
    recorded (timeline.step operation) operations++record timeline operation

/-- A recorded boost applies in its span, up to the server boost known then and up to each server
boost of its kind recorded later that starts no earlier. -/
structure Recorded.Applies (entry : Recorded) (later : List Recorded) (tick : ℕ) : Prop where
  started : entry.start≤tick
  span : after entry.spanLast tick=true
  known : after entry.known tick=true
  later : ∀ other ∈ later, other.server=true → other.boost=entry.boost → entry.start≤other.start → tick<other.start

/-- Some recorded boost of the kind with that start applies. -/
def RuleFrom (log : List Recorded) (kind : MovementBoost) (first tick : ℕ) : Prop :=
  ∃ later entry older, log=later++entry::older ∧ entry.boost=kind ∧ entry.start=first ∧ entry.Applies later tick

/-- The first tick that no operation has forgotten. -/
def forgotten : List Operation → ℕ
  | [] => 0
  | .forgetBefore tick::operations => max tick (forgotten operations)
  | _::operations => forgotten operations

section Records

variable {timeline : BoostTimeline} {log : List Recorded} {boost kind : MovementBoost}
  {start first tick floor : ℕ} {span : BoostSpan} {interval : BoostInterval}

/-- Some interval of the kind with that start contains the tick. -/
def BoostTimeline.Starts (timeline : BoostTimeline) (kind : MovementBoost) (first tick : ℕ) : Prop :=
  ∃ interval ∈ timeline, interval.boost=kind ∧ interval.start=first ∧ interval.contains tick=true

lemma contains_iff : interval.contains tick=true ↔ interval.start≤tick ∧ after interval.last tick=true := by
  rw [BoostInterval.contains,Bool.and_eq_true,decide_eq_true_eq]

/-- A new record applies as it is, and cuts the older ones of its kind that start no later. -/
lemma ruleFrom_cons {entry : Recorded} : RuleFrom (entry::log) kind first tick ↔
    (entry.boost=kind ∧ entry.start=first ∧ entry.Applies [] tick) ∨ RuleFrom log kind first tick ∧
        (entry.server=true → entry.boost=kind → first≤entry.start → tick<entry.start) := by
  constructor
  · rintro ⟨later,found,older,hlog,rfl,rfl,happlies⟩
    cases later with
    | nil =>
      cases hlog
      exact .inl ⟨rfl,rfl,happlies⟩
    | cons head later =>
      cases hlog
      exact .inr ⟨⟨later,found,older,rfl,rfl,rfl,{ happlies with
        later := fun other hother=>happlies.later other (.tail _ hother) }⟩,
        happlies.later _ (.head _)⟩
  · rintro (⟨hboost,hstart,happlies⟩ | ⟨⟨later,found,older,rfl,rfl,rfl,happlies⟩,hcut⟩)
    · exact ⟨[],entry,log,rfl,hboost,hstart,happlies⟩
    · refine ⟨entry::later,found,older,rfl,rfl,rfl,{ happlies with later := ?_ }⟩
      intro other hother
      rcases mem_cons.1 hother with rfl | hother
      · exact hcut
      · exact happlies.later other hother

lemma after_min {last : Option ℕ} (start : ℕ) : after (some (last.elim start (min · start))) tick=true ↔
    after last tick=true ∧ tick < start := by
  cases last with
  | none => simp [after]
  | some last => simp [after]

lemma after_earlier {last next : Option ℕ} :
    after (earlier last next) tick=true ↔ after last tick=true ∧ after next tick=true := by
  cases last <;> cases next <;> simp [after,earlier]

/-- Restating keeps kind, start and server mark, and ends what starts no later at the new start. -/
lemma restated_spec (boost : MovementBoost) (start : ℕ) (interval : BoostInterval) :
    (∃ last, interval.restated boost start=some { interval with last } ∧
      (last=interval.last ∨ interval.start < start ∧ interval.boost=boost ∧
        last=some (interval.last.elim start (min · start))) ∧
      ∀ tick, after last tick=true ↔ after interval.last tick=true ∧
        (interval.boost=boost → interval.start ≤ start → tick < start)) ∨
    interval.restated boost start=none ∧ interval.boost=boost ∧ interval.start ≤ start ∧
      ∀ tick, interval.start≤tick → tick < start → after interval.last tick=false := by
  unfold BoostInterval.restated
  dsimp only
  split_ifs with hother hempty
  · refine .inl ⟨interval.last,rfl,.inl rfl,fun tick=>⟨fun h=>⟨h,fun hboost hle=>?_⟩,And.left⟩⟩
    rcases hother with hne | hlt
    · exact absurd hboost hne
    · exact absurd hle (Nat.not_le.2 hlt)
  · rw [not_or,not_not,Nat.not_lt] at hother
    refine .inl ⟨_,rfl,.inr ⟨?_,hother.1,rfl⟩,fun tick=>?_⟩
    · refine hempty.trans_le ?_
      cases interval.last with
      | none => exact le_refl _
      | some last => exact min_le_right _ _
    · rw [after_min]
      exact and_congr_right fun _=>⟨fun h _ _=>h,fun h=>h hother.1 hother.2⟩
  · rw [not_or,not_not,Nat.not_lt] at hother
    refine .inr ⟨rfl,hother.1,hother.2,fun tick hstart hlt=>?_⟩
    refine Bool.eq_false_iff.2 fun htrue=>hempty ?_
    have hboth := (after_min start).2 ⟨htrue,hlt⟩
    exact hstart.trans_lt (of_decide_eq_true hboth)

lemma after_anti {last : Option ℕ} (hle : start≤tick) (h : after last tick=true) : after last start=true := by
  cases last with
  | none => rfl
  | some last => exact decide_eq_true (hle.trans_lt (of_decide_eq_true h))

lemma restated_some {left : BoostInterval} (h : interval.restated boost start=some left) :
    left.boost=interval.boost ∧ left.server=interval.server ∧ left.start=interval.start ∧
      (after interval.last interval.start=true → after left.last left.start=true) ∧
      ∀ tick, after left.last tick=true ↔ after interval.last tick=true ∧
        (interval.boost=boost → interval.start ≤ start → tick < start) := by
  rcases restated_spec boost start interval with ⟨last,hsome,hkept,hlast⟩ | ⟨hnone,-⟩
  · rw [hsome] at h
    cases h
    refine ⟨rfl,rfl,rfl,fun hstart=>?_,hlast⟩
    rcases hkept with rfl | ⟨hlt,-⟩
    · exact hstart
    · exact (hlast _).2 ⟨hstart,fun _ _=>hlt⟩
  · rw [hnone] at h
    cases h

/-- Restating commutes with a choice by kind, start and server mark. -/
lemma filter_restated {p : BoostInterval → Bool} (hp : ∀ {interval left : BoostInterval},
    left.boost=interval.boost → left.server=interval.server → left.start=interval.start → p left=p interval) :
    (timeline.filterMap (BoostInterval.restated boost start)).filter p =
      (timeline.filter p).filterMap (BoostInterval.restated boost start) := by
  rw [filter_filterMap,filterMap_filter]
  refine filterMap_congr fun interval _=>?_
  cases hleft : interval.restated boost start with
  | none => rw [Option.filter_none,ite_self]
  | some left =>
    obtain ⟨hboost,hserver,hstart,-⟩ := restated_some hleft
    rw [Option.filter_some,hp hboost hserver hstart]

lemma nextServer_restated : BoostTimeline.nextServer
    (timeline.filterMap (BoostInterval.restated boost start)) boost start =
      timeline.nextServer boost start := by
  unfold BoostTimeline.nextServer
  rw [filter_restated fun hboost hserver hstart=>by rw [hboost,hserver,hstart]]
  refine congrArg (fun held : BoostTimeline=>(held.map (·.start)).min?) ?_
  refine (filterMap_congr fun interval hmem=>?_).trans filterMap_some
  rw [mem_filter,Bool.and_eq_true,decide_eq_true_eq] at hmem
  exact if_pos (.inr hmem.2.2)

/-- A record cuts the intervals of its kind that start no later, and adds its own. -/
lemma starts_recordServer : (timeline.recordServer boost start span).Starts kind first tick ↔
    timeline.Starts kind first tick ∧ (kind=boost → first ≤ start → tick < start) ∨
      kind=boost ∧ first=start ∧ start≤tick ∧ after (span.last start) tick=true ∧
        after (timeline.nextServer boost start) tick=true := by
  have hcut : BoostTimeline.Starts (timeline.filterMap (BoostInterval.restated boost start)) kind
      first tick ↔ timeline.Starts kind first tick ∧ (kind=boost → first ≤ start → tick < start) := by
    constructor
    · rintro ⟨_,hmem,rfl,rfl,hcontains⟩
      obtain ⟨interval,hinterval,hrestated⟩ := mem_filterMap.1 hmem
      rcases restated_spec boost start interval with ⟨last,hsome,-,hlast⟩ | ⟨hnone,-⟩
      · rw [hsome] at hrestated
        cases hrestated
        obtain ⟨hstart,hafter⟩ := contains_iff.1 hcontains
        obtain ⟨hold,hbefore⟩ := (hlast tick).1 hafter
        exact ⟨⟨interval,hinterval,rfl,rfl,contains_iff.2 ⟨hstart,hold⟩⟩,hbefore⟩
      · rw [hnone] at hrestated
        cases hrestated
    · rintro ⟨⟨interval,hinterval,rfl,rfl,hcontains⟩,hbefore⟩
      obtain ⟨hstart,hafter⟩ := contains_iff.1 hcontains
      rcases restated_spec boost start interval with ⟨last,hsome,-,hlast⟩ | ⟨-,hboost,hle,hempty⟩
      · exact ⟨_,mem_filterMap.2 ⟨interval,hinterval,hsome⟩,rfl,rfl,
          contains_iff.2 ⟨hstart,(hlast tick).2 ⟨hafter,hbefore⟩⟩⟩
      · rw [hempty tick hstart (hbefore hboost hle)] at hafter
        cases hafter
  unfold BoostTimeline.recordServer
  dsimp only
  rw [nextServer_restated,← after_earlier,← hcut]
  split_ifs with hkept
  · unfold BoostTimeline.Starts
    simp only [mem_append,mem_singleton,or_and_right,exists_or,exists_eq_left]
    refine or_congr_right ⟨?_,?_⟩
    · rintro ⟨rfl,rfl,hcontains⟩
      exact ⟨rfl,rfl,contains_iff.1 hcontains⟩
    · rintro ⟨rfl,rfl,hle,hafter⟩
      exact ⟨rfl,rfl,contains_iff.2 ⟨hle,hafter⟩⟩
  · exact ⟨.inl,fun h=>h.elim id fun hnew=>absurd (after_anti hnew.2.2.1 hnew.2.2.2) hkept⟩

/-- The answers of a timeline follow the rule on the ticks from a floor on. -/
def Follows (floor : ℕ) (timeline : BoostTimeline) (log : List Recorded) : Prop :=
  ∀ kind first tick, floor≤tick → (timeline.Starts kind first tick ↔ RuleFrom log kind first tick)

lemma Follows.step (h : Follows floor timeline log) (operation : Operation) :
    Follows (max floor (forgotten [operation])) (timeline.step operation)
      (record timeline operation++log) := by
  intro kind first tick htick
  obtain ⟨hfloor,hforgot⟩ := max_le_iff.1 htick
  have hold := h kind first tick hfloor
  cases operation with
  | predictRocket start =>
    unfold BoostTimeline.step BoostTimeline.predictRocket record
    rw [singleton_append,ruleFrom_cons,← hold,or_comm]
    unfold BoostTimeline.Starts
    simp only [mem_append,mem_singleton,or_and_right,exists_or,exists_eq_left,
      Bool.false_eq_true,false_imp_iff,and_true]
    refine or_congr_right (and_congr_right fun _=>and_congr_right fun _=>⟨fun hcontains=>?_,?_⟩)
    · obtain ⟨hstart,hafter⟩ := contains_iff.1 hcontains
      exact ⟨hstart,hafter,rfl,fun _ hother=>by cases hother⟩
    · exact fun happlies=>contains_iff.2 ⟨happlies.started,happlies.span⟩
  | recordServer boost start span =>
    unfold BoostTimeline.step record
    rw [singleton_append,ruleFrom_cons,← hold,starts_recordServer,or_comm]
    refine or_congr ⟨?_,?_⟩ ?_
    · rintro ⟨rfl,rfl,hle,hspan,hknown⟩
      exact ⟨rfl,rfl,hle,hspan,hknown,fun _ hother=>by cases hother⟩
    · rintro ⟨rfl,rfl,happlies⟩
      exact ⟨rfl,rfl,happlies.started,happlies.span,happlies.known⟩
    · refine and_congr_right fun _=>⟨fun hcut _ heq=>hcut heq.symm,fun hcut heq=>?_⟩
      exact hcut rfl heq.symm
  | forgetBefore limit =>
    have hlimit : limit≤tick := (le_max_left limit 0).trans hforgot
    refine Iff.trans ⟨?_,?_⟩ hold
    · rintro ⟨interval,hmem,hinterval⟩
      exact ⟨interval,(mem_filter.1 hmem).1,hinterval⟩
    · rintro ⟨interval,hmem,hboost,hstart,hcontains⟩
      exact ⟨interval,mem_filter.2 ⟨hmem,after_anti hlimit (contains_iff.1 hcontains).2⟩,hboost,hstart,hcontains⟩

lemma Follows.run (h : Follows floor timeline log) (operations : List Operation) :
    Follows (max floor (forgotten operations)) (timeline.run operations)
      (recorded timeline operations++log) := by
  induction operations generalizing floor timeline log with
  | nil =>
    intro kind first tick htick
    exact h kind first tick ((le_max_left _ _).trans htick)
  | cons operation operations ih =>
    have hrun := ih (h.step operation)
    have hforgotten : forgotten (operation::operations) = max (forgotten [operation]) (forgotten operations) := by
      cases operation <;> simp [forgotten]
    rw [max_assoc,← hforgotten,← append_assoc] at hrun
    exact hrun

/-- No interval is empty, and server intervals of a kind share no tick. -/
structure Sound (timeline : BoostTimeline) : Prop where
  nonempty : ∀ interval ∈ timeline, after interval.last interval.start=true
  apart : timeline.Pairwise fun interval other=>interval.server=true → other.server=true →
    interval.boost=other.boost → ∀ tick, interval.contains tick=true → other.contains tick=false

lemma nextServer_le {next : ℕ} (hnext : timeline.nextServer boost start=some next)
    (hmem : interval ∈ timeline) (hserver : interval.server=true) (hboost : interval.boost=boost)
    (hlt : start < interval.start) : next ≤ interval.start := by
  refine (List.min?_eq_some_iff.1 hnext).2 _ (mem_map.2 ⟨interval,mem_filter.2 ⟨hmem,?_⟩,rfl⟩)
  simp [hserver,hboost,hlt]

lemma Sound.step (h : Sound timeline) (operation : Operation) : Sound (timeline.step operation) := by
  cases operation with
  | predictRocket start =>
    refine ⟨fun interval hmem=>?_,pairwise_append.2 ⟨h.apart,pairwise_singleton _ _,?_⟩⟩
    · rcases mem_append.1 hmem with hmem | hmem
      · exact h.nonempty interval hmem
      · rw [mem_singleton.1 hmem]
        exact decide_eq_true (Nat.lt_add_of_pos_right (by decide))
    · intro interval _ other hother _ hserver
      rw [mem_singleton.1 hother] at hserver
      cases hserver
  | forgetBefore limit =>
    exact ⟨fun interval hmem=>h.nonempty interval (mem_filter.1 hmem).1, h.apart.sublist filter_sublist⟩
  | recordServer boost start span =>
    have hcut : Sound (timeline.filterMap (BoostInterval.restated boost start)) := by
      refine ⟨fun left hleft=>?_,h.apart.filterMap _ fun interval other hapart left hleft right hright
        hserver hserver' hboost tick htick => ?_⟩
      · obtain ⟨interval,hmem,hsome⟩ := mem_filterMap.1 hleft
        exact (restated_some hsome).2.2.2.1 (h.nonempty interval hmem)
      · obtain ⟨hb,hs,hstart,-,hlast⟩ := restated_some hleft
        obtain ⟨hb',hs',hstart',-,hlast'⟩ := restated_some hright
        obtain ⟨hle,hafter⟩ := contains_iff.1 htick
        have hnot := hapart (hs ▸ hserver) (hs' ▸ hserver') (hb ▸ hb' ▸ hboost) tick
          (contains_iff.2 ⟨hstart ▸ hle,((hlast tick).1 hafter).1⟩)
        refine Bool.eq_false_iff.2 fun htrue=>Bool.eq_false_iff.1 hnot ?_
        obtain ⟨hle',hafter'⟩ := contains_iff.1 htrue
        exact contains_iff.2 ⟨hstart' ▸ hle',((hlast' tick).1 hafter').1⟩
    unfold BoostTimeline.step BoostTimeline.recordServer
    dsimp only
    split_ifs with hkept
    · refine ⟨fun interval hmem=>?_,pairwise_append.2 ⟨hcut.apart,pairwise_singleton _ _,?_⟩⟩
      · rcases mem_append.1 hmem with hmem | hmem
        · exact hcut.nonempty interval hmem
        · rw [mem_singleton.1 hmem]
          exact hkept
      · -- What starts no later ends at the new start, and the new boost ends at what starts later.
        intro left hleft other hother hserver _ hboost tick htick
        rw [mem_singleton.1 hother] at hboost ⊢
        obtain ⟨interval,-,hsome⟩ := mem_filterMap.1 hleft
        obtain ⟨hb,-,hstart,-,hlast⟩ := restated_some hsome
        obtain ⟨hle,hafter⟩ := contains_iff.1 htick
        refine Bool.eq_false_iff.2 fun htrue=>?_
        obtain ⟨hge,hnew⟩ := contains_iff.1 htrue
        rcases Nat.lt_or_ge start left.start with hlater | hearlier
        · have hnext := (after_earlier.1 hnew).2
          cases hfound : BoostTimeline.nextServer
              (timeline.filterMap (BoostInterval.restated boost start)) boost start with
          | none =>
            exact ne_nil_of_mem (mem_map_of_mem (mem_filter.2 ⟨hleft,by
              simp [hserver,hboost,hlater]⟩)) (List.min?_eq_none_iff.1 hfound)
          | some next =>
            rw [hfound] at hnext
            have hbound := nextServer_le hfound hleft hserver hboost hlater
            exact absurd (of_decide_eq_true hnext) (Nat.not_lt.2 (hbound.trans hle))
        · have hlt := ((hlast tick).1 hafter).2 (hb ▸ hboost) (hstart ▸ hearlier)
          exact absurd hge (Nat.not_le.2 hlt)
    · exact hcut

lemma Sound.run (h : Sound timeline) (operations : List Operation) : Sound (timeline.run operations) := by
  induction operations generalizing timeline with
  | nil => exact h
  | cons operation operations ih => exact ih (h.step operation)

/-- The server intervals that start after all the given ones of their kind. -/
def BoostTimeline.late (timeline gone : BoostTimeline) : BoostTimeline :=
  timeline.filter fun interval=>interval.server &&
    gone.all fun other=>other.boost=interval.boost → other.start < interval.start

variable {gone other : BoostTimeline}

end Records

section Changes

variable (controller : LocalPhysicsController)

/-- A retained tick after the oldest simulated other boosts than the timeline's. -/
def LocalPhysicsController.Changed (tick : ℕ) : Prop :=
  ∃ oldest newest recorded, controller.history.oldestTick=some oldest ∧
    controller.history.newestTick=some newest ∧ oldest<tick ∧ tick≤newest ∧
    controller.history.inputAt tick=some recorded ∧
    ∃ boost : MovementBoost, boost.flag recorded≠controller.boosts.boosted boost tick

lemma apply_ne_iff (timeline : BoostTimeline) (tick : ℕ) (effects : MovementEffects) :
    timeline.apply tick effects≠effects ↔
      ∃ boost : MovementBoost, boost.flag effects≠timeline.boosted boost tick := by
  obtain ⟨glide,dolphin⟩ := effects
  rw [← not_iff_not,not_not,not_exists]
  constructor
  · intro heq boost
    obtain ⟨hglide,hdolphin⟩ := MovementEffects.mk.inj heq
    cases boost with
    | glide => exact not_not.2 hglide.symm
    | dolphin => exact not_not.2 hdolphin.symm
  · intro h
    exact congrArg₂ MovementEffects.mk (not_not.1 (h .glide)).symm (not_not.1 (h .dolphin)).symm

lemma boostChange_eq_some {tick before : ℕ} : controller.boostChange tick=some before ↔
    (∃ recorded, controller.history.inputAt tick=some recorded ∧
      ∃ boost : MovementBoost, boost.flag recorded≠controller.boosts.boosted boost tick) ∧
    tick-1=before := by
  unfold LocalPhysicsController.boostChange
  cases controller.history.inputAt tick with
  | none =>
    refine ⟨fun h=>(by cases h),?_⟩
    rintro ⟨⟨_,hnone,-⟩,-⟩
    cases hnone
  | some recorded =>
    rw [Option.bind_eq_bind,Option.bind_some,Option.ite_none_right_eq_some,apply_ne_iff, Option.some_inj]
    simp only [Option.some_inj,exists_eq_left']

lemma changed_iff {oldest newest tick : ℕ} (hold : controller.history.oldestTick=some oldest)
    (hnew : controller.history.newestTick=some newest) : controller.Changed tick ↔
      oldest<tick ∧ tick≤newest ∧ controller.boostChange tick=some (tick-1) := by
  rw [boostChange_eq_some,eq_self,and_true]
  constructor
  · rintro ⟨_,_,recorded,hold',hnew',hlt,hle,hdiffers⟩
    rw [hold] at hold'
    rw [hnew] at hnew'
    cases hold'
    cases hnew'
    exact ⟨hlt,hle,recorded,hdiffers⟩
  · rintro ⟨hlt,hle,recorded,hdiffers⟩
    exact ⟨oldest,newest,recorded,hold,hnew,hlt,hle,hdiffers⟩

lemma not_changed (h : controller.firstBoostChange=none) (tick : ℕ) : ¬ controller.Changed tick := by
  intro hchanged
  obtain ⟨oldest,newest,-,hold,hnew,-⟩ := id hchanged
  obtain ⟨hlt,hle,hsome⟩ := (changed_iff controller hold hnew).1 hchanged
  unfold LocalPhysicsController.firstBoostChange at h
  rw [hold,hnew,Option.bind_eq_bind,Option.bind_some,Option.bind_some] at h
  rw [List.findSome?_eq_none_iff.1 h tick (mem_range'_1.2 ⟨hlt,by omega⟩)] at hsome
  cases hsome

end Changes

section Runs

variable (operations more : List Operation) {kind : MovementBoost} {tick : ℕ}

end Runs

end Cinnabar.Boosts
