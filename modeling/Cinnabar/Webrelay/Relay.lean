import Cinnabar.Webrelay.Resume

/-! # Sessions are neither stranded nor hijacked -/

namespace Cinnabar.Webrelay

variable {T A : Type} [DecidableEq T] [DecidableEq A]

namespace Relay

variable {relay relay' : Relay T A} {b : ℕ}

lemma turned_new [Inhabited A] (b : ℕ) : (Relay.new : Relay T A).Turned b where
  ok := ok_new
  issues := ⟨fun hi=>(nomatch hi),fun hi=>(nomatch hi),fun hi=>(nomatch hi),
    fun hk=>(nomatch hk),fun ht=>(nomatch ht),fun hr=>(nomatch hr),fun ht=>(nomatch ht),
    fun hb=>absurd hb (Finset.notMem_empty b),fun hk=>(nomatch hk),fun hk=>(nomatch hk),
    fun hk=>(nomatch hk),fun _ hi=>(nomatch hi),fun hi=>(nomatch hi),
    fun hs=>absurd hs (Finset.notMem_empty _)⟩
  messages := ⟨fun hm=>(nomatch hm),fun hm=>(nomatch hm)⟩

end Relay

/-- Every state of a run in which the browser of `b` takes turns. -/
lemma Reachable.turned [Inhabited A] {b : ℕ} {relay : Relay T A} (h : Reachable (InTurn b) relay) : relay.Turned b := by
  induction h with
  | new => exact Relay.turned_new b
  | step a _ hturn hstep ih => exact ih.step hturn hstep

/-- A run with rules is a run. -/
lemma Reachable.any [Inhabited A] {allowed : Relay T A → Action T A → Prop} {relay : Relay T A}
    (h : Reachable allowed relay) : Reachable (fun _ _=>True) relay := by
  induction h with
  | new => exact .new
  | step a _ _ hstep ih => exact ih.step a trivial hstep

instance (b : ℕ) (relay : Relay T A) : (a : Action T A) → Decidable (Presents b relay a)
  | .controlSession _ _ (some _) _ => inferInstanceAs (Decidable (_ → _))
  | .controlSession _ _ none _ => .isTrue trivial
  | .acknowledge .. => inferInstanceAs (Decidable (_ → _))
  | .attachControl _ => .isTrue trivial
  | .takeControl .. => .isTrue trivial
  | .leave _ => .isTrue trivial
  | .detach .. => .isTrue trivial
  | .welcome .. => .isTrue trivial
  | .playSession .. => .isTrue trivial
  | .attachPlay _ => .isTrue trivial
  | .beginPlay _ => .isTrue trivial
  | .endPlay _ => .isTrue trivial
  | .applyAccount .. => .isTrue trivial
  | .finishSignIn .. => .isTrue trivial
  | .expire .. => .isTrue trivial
  | .close _ => .isTrue trivial
  | .deliver _ => .isTrue trivial
  | .tick _ => .isTrue trivial

instance (b : ℕ) (relay : Relay T A) : (conn : Conn T A) → Decidable (ResumesNewest b relay conn)
  | .attached _ _ (some _) _ => inferInstanceAs (Decidable (_ → _))
  | .attached _ _ none _ => .isTrue trivial
  | .idle => .isTrue trivial
  | .found .. => .isTrue trivial
  | .refused .. => .isTrue trivial
  | .control .. => .isTrue trivial
  | .leaving .. => .isTrue trivial
  | .left .. => .isTrue trivial
  | .playFound .. => .isTrue trivial
  | .playAttached .. => .isTrue trivial
  | .playing .. => .isTrue trivial
  | .playLeft _ => .isTrue trivial
  | .ended => .isTrue trivial

instance (b : ℕ) (relay : Relay T A) :
    (control : Option (ℕ × ℕ)) → Decidable (LastController b relay control)
  | some (_,_) => inferInstanceAs (Decidable (_ → _))
  | none => .isTrue trivial

instance (b : ℕ) (relay : Relay T A) : (a : Action T A) → Decidable (TakesTurns b relay a)
  | .takeControl k _ => inferInstanceAs (Decidable (ResumesNewest b relay (relay.conns k)))
  | .deliver (k,_,_) => inferInstanceAs (Decidable (LastController b relay (relay.conns k).controls))
  | .detach .. => inferInstanceAs (Decidable (_ → _))
  | .controlSession .. => .isTrue trivial
  | .attachControl _ => .isTrue trivial
  | .leave _ => .isTrue trivial
  | .welcome .. => .isTrue trivial
  | .acknowledge .. => .isTrue trivial
  | .playSession .. => .isTrue trivial
  | .attachPlay _ => .isTrue trivial
  | .beginPlay _ => .isTrue trivial
  | .endPlay _ => .isTrue trivial
  | .applyAccount .. => .isTrue trivial
  | .finishSignIn .. => .isTrue trivial
  | .expire .. => .isTrue trivial
  | .close _ => .isTrue trivial
  | .tick _ => .isTrue trivial

instance (b : ℕ) (relay : Relay T A) (a : Action T A) : Decidable (InTurn b relay a) :=
  inferInstanceAs (Decidable (_ ∧ _))

def Relay.runs (allowed : Relay T A → Action T A → Prop)
    [∀ relay a, Decidable (allowed relay a)] (relay : Relay T A) :
    List (Action T A) → Option (Relay T A)
  | [] => some relay
  | a::rest =>
    if allowed relay a then (relay.step a).bind fun relay=>relay.runs allowed rest else none

lemma Reachable.runs [Inhabited A] {allowed : Relay T A → Action T A → Prop}
    [∀ relay a, Decidable (allowed relay a)] {relay relay' : Relay T A} {actions : List (Action T A)}
    (h : Reachable allowed relay) (hruns : relay.runs allowed actions=some relay') :
    Reachable allowed relay' := by
  induction actions generalizing relay with
  | nil =>
    cases hruns
    exact h
  | cons a rest ih =>
    unfold Relay.runs at hruns
    split_ifs at hruns with hallowed
    obtain ⟨next,hstep,hrest⟩ := Option.bind_eq_some_iff.1 hruns
    exact ih (h.step a hallowed hstep) hrest

lemma exists_of_runs [Inhabited A] {allowed : Relay T A → Action T A → Prop}
    [∀ relay a, Decidable (allowed relay a)] (actions : List (Action T A)) {p : Relay T A → Prop}
    [DecidablePred p]
    (h : ((Relay.new : Relay T A).runs allowed actions).any (fun relay=>decide (p relay)) = true) :
    ∃ relay : Relay T A, Reachable allowed relay ∧ p relay := by
  cases hruns : (Relay.new : Relay T A).runs allowed actions with
  | none =>
    rw [hruns] at h
    cases h
  | some relay =>
    rw [hruns,Option.any_some] at h
    exact ⟨relay,.runs .new hruns,of_decide_eq_true h⟩

/-- The first browser opens a session at `now` and receives the bearer `10`. -/
def opens : List (Action ℕ ℕ) :=
  [.controlSession 0 1 none 0,.attachControl 0,.takeControl 0 10,.welcome 0 false 0 0, .deliver (0,0,⟨some 10,1,120⟩)]

/-- Two resumes overlap, and the later one takes effect last: the bearer `11` that the browser
received in between is gone. -/
def overlaps : List (Action ℕ ℕ) :=
  opens ++ [.controlSession 1 1 (some 10) 0,.controlSession 2 1 (some 10) 0,.attachControl 2,
    .takeControl 2 11,.welcome 2 false 0 0,.deliver (2,1,⟨some 11,2,120⟩),.attachControl 1,
    .takeControl 1 12]

/-- Between two dated ends the session of the bearer `13` is forgotten: a call that was made when the
session opened fails nine minutes later and dates the idle session back to its own time. -/
def datesBack : List (Action ℕ ℕ) :=
  let minute := 60*second
  opens ++ [.controlSession 1 1 (some 10) 0, .welcome 0 true 11 0,.deliver (0,1,⟨some 11,1,120⟩),.acknowledge 0 11 0,
    .welcome 0 true 12 0,.deliver (0,2,⟨some 12,1,120⟩),.acknowledge 0 12 0,
    .tick (9*minute),.welcome 0 true 13 (9*minute),.deliver (0,3,⟨some 13,1,120⟩),
    .leave 0,.detach 0 (9*minute),.attachControl 1,.takeControl 1 14,.detach 1 0,
    .tick (minute+1),.expire 0 (10*minute+1)]

/-- The browser's next address counts four sessions. -/
def fills : List (Action ℕ ℕ) :=
  opens ++ [.controlSession 1 2 none 0,.controlSession 2 2 none 0,.controlSession 3 2 none 0,
    .controlSession 4 2 none 0]

def Relay.Valid (relay : Relay T A) (b : ℕ) (t : T) : Prop :=
  relay.newest b=some t ∧ ∃ i ∈ relay.issued, i.token=t ∧ relay.clock < i.now+resumeTTL

instance (relay : Relay T A) (b : ℕ) (t : T) : Decidable (relay.Valid b t) :=
  inferInstanceAs (Decidable (_ ∧ _))

/-- A browser that always presents its newest bearer loses its session when two resumes overlap,
when a failed call dates the session back, and at an address without room. -/
theorem newest_bearer_not_resumed : (∃ relay : Relay ℕ ℕ, Reachable (Presents 0) relay ∧
      relay.Valid 0 11 ∧ relay.resumeLocked 11 relay.clock = none) ∧
    (∃ relay : Relay ℕ ℕ, Reachable (Presents 0) relay ∧ relay.Valid 0 13 ∧ relay.resumeLocked 13 relay.clock = none) ∧
    ∃ relay : Relay ℕ ℕ, Reachable (Presents 0) relay ∧
      relay.Valid 0 10 ∧ relay.refuses 0 2 (some 10) relay.clock = true :=
  ⟨exists_of_runs overlaps (by decide +kernel),exists_of_runs datesBack (by decide +kernel),
    exists_of_runs fills (by decide +kernel)⟩

/-- In every run the valid bearers of a session are its own, the controllers of a session never act
again once they are replaced, and `perIP` counts the sessions within the limit; and the newest
bearer of a browser that takes turns resumes its session until its expiry. -/
theorem sessions_neither_stranded_nor_hijacked [Inhabited A] {relay : Relay T A} (h : Reachable (fun _ _=>True) relay) :
    relay.Bearers ∧
    (∀ b, Reachable (InTurn b) relay → relay.Resumable b) ∧
    (∀ {k s generation}, (relay.conns k).controls = some (s,generation) → ∀ {relay'}, relay.Later relay' →
        (generation < (relay.webSessions s).generation → ∀ {a : Action T A},
          a.controller relay' = some k → relay'.step a=none) ∧
        ∀ {k' generation'}, (relay.conns k').controls = none →
          (relay'.conns k').controls = some (s,generation') → generation < generation') ∧
    relay.PerAddress := by
  refine ⟨h.ok.bearers,fun b hturn => hturn.turned.issues.resumable h.ok,
    fun {k s generation} hk {relay'} hlater => ⟨fun hold {a} ha => ?_,fun {k' g} hnew hk' => ?_⟩,
    h.ok.perAddress⟩
  · exact h.ok.replaced hk hold hlater ha
  · exact h.ok.increases hk hlater hnew hk'

/-- The session of the first browser, after its welcome. -/
theorem sessions_neither_stranded_nor_hijacked_opened :
    ∃ relay : Relay ℕ ℕ, relay.newest 0=some 10 ∧ relay.Bearers ∧ relay.Resumable 0 ∧
      relay.PerAddress := by
  have hopened : ∃ relay : Relay ℕ ℕ, Reachable (InTurn 0) relay ∧ relay.newest 0=some 10 :=
    exists_of_runs opens (by decide +kernel)
  obtain ⟨relay,hturn,hnewest⟩ := hopened
  obtain ⟨hbearers,hresumable,-,hperAddress⟩ := sessions_neither_stranded_nor_hijacked hturn.any
  exact ⟨relay,hnewest,hbearers,hresumable 0 hturn,hperAddress⟩

end Cinnabar.Webrelay
