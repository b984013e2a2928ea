import Mathlib.Data.List.Basic
import Mathlib.Logic.Function.Basic
import Mathlib.Algebra.Order.Ring.Nat

/-! # Shared derivations -/

namespace Cinnabar.Authcache

open List Function

/-- What a flight fails with; `E` are the errors of its run. -/
inductive AuthError (E : Type) where
  | derivationTimeout
  | cancelled
  | run (error : E)
deriving DecidableEq

variable {V E : Type}

/-- A derivation in progress: its run, the goroutine that completes it and what its callers see. -/
structure Flight (V E : Type) where
  key : String
  /-- The result the run sent. -/
  sent : Option (Except (AuthError E) V)
  /-- Whether the run is no longer counted. -/
  ended : Bool
  taken : Option (Except (AuthError E) V)
  /-- Whether it left the table. -/
  removed : Bool
  value : Option (Except (AuthError E) V)
  done : Bool

inductive Outcome (V E : Type) where
  | result (result : Except (AuthError E) V)
  | cancelled

/-- A caller that joined a flight, with whether the run had returned or the flight left by then. -/
structure Waiter (V E : Type) where
  flight : ℕ
  returned : Bool
  removed : Bool
  outcome : Option (Outcome V E)

structure Account (V E : Type) where
  active : ℕ
  /-- Operations begun and not ended, besides runs. -/
  operations : ℕ
  closing : Bool
  closed : Bool
  /-- Whether an idle channel is open, of those made and those closed. -/
  idle : Bool
  made : ℕ
  closings : ℕ
  flights : List (Flight V E)
  table : String → Option ℕ
  waiters : List (Waiter V E)
  /-- The idle channel each drain waits for, and none once it has passed. -/
  drains : List (Option ℕ)

namespace Account

def new : Account V E := ⟨0,0,false,false,false,0,0,[],fun _=>none,[],[]⟩

section

variable (s : Account V E)

def refuses : Bool := s.closing || s.closed

def begin : Account V E :=
  if s.refuses then s else { s with active := s.active+1, operations := s.operations+1 }

/-- `end` of an operation or a run. -/
def leave : Account V E :=
  if s.active-1=0 ∧ s.idle=true then
    { s with active := 0, idle := false, closings := s.closings+1 }
  else { s with active := s.active-1 }

def join (f : ℕ) (flight : Flight V E) : Account V E :=
  { s with waiters := s.waiters ++ [⟨f,flight.sent.isSome,flight.removed,none⟩] }

/-- The part of `awaitFlight` under the lock: joins the flight of a key, or starts one. -/
def awaitFlight (key : String) : Account V E :=
  match s.table key with
  | some f => s.flights[f]?.elim s (s.join f)
  | none =>
    if s.refuses then s
    else
      let flight : Flight V E := ⟨key,none,false,none,false,none,false⟩
      { s with
        active := s.active+1
        flights := s.flights ++ [flight]
        table := update s.table key (some s.flights.length) }.join s.flights.length flight

def onFlight (f : ℕ) (allowed : Flight V E → Bool) (next : Flight V E → Flight V E) :
    Account V E :=
  match s.flights[f]? with
  | some flight => if allowed flight then { s with flights := s.flights.set f (next flight) } else s
  | none => s

/-- The run of a flight ends, after its result was sent. -/
def unwind (f : ℕ) : Account V E :=
  match s.flights[f]? with
  | some flight =>
    if flight.sent.isSome && !flight.ended then
      { s with flights := s.flights.set f { flight with ended := true } }.leave
    else s
  | none => s

/-- A flight leaves the table before its callers see its result. -/
def remove (f : ℕ) : Account V E :=
  match s.flights[f]? with
  | some flight =>
    if flight.taken.isSome && !flight.removed then
      { s with
        flights := s.flights.set f { flight with removed := true }
        table := update s.table flight.key none }
    else s
  | none => s

def resolve (w : ℕ) (outcome : Waiter V E → Option (Outcome V E)) : Account V E :=
  match s.waiters[w]? with
  | some waiter =>
    if waiter.outcome.isNone then
      { s with waiters := s.waiters.set w { waiter with outcome := outcome waiter } }
    else s
  | none => s

def received (waiter : Waiter V E) : Option (Outcome V E) :=
  (s.flights[waiter.flight]?.bind fun flight=>if flight.done then flight.value else none).map .result

def drain : Account V E :=
  if s.active=0 then { s with closing := true, drains := s.drains ++ [none] }
  else if s.idle then { s with closing := true, drains := s.drains ++ [some s.made] }
  else { s with closing := true, idle := true, made := s.made+1, drains := s.drains ++ [some (s.made+1)] }

/-- A drain goes on once its channel is closed; channels are closed in the order they are made. -/
def pass (d : ℕ) : Account V E :=
  match s.drains[d]? with
  | some (some channel) => if channel ≤ s.closings then { s with drains := s.drains.set d none } else s
  | _ => s

end

end Account

def late (deadline : Bool) : Except (AuthError E) V → Except (AuthError E) V
  | .ok value => .ok value
  | .error error => .error (if deadline then .derivationTimeout else error)

inductive Event (V E : Type) where
  | begins
  | ends
  | awaits (key : String)
  | returns (flight : ℕ) (result : Except (AuthError E) V)
  | unwinds (flight : ℕ)
  /-- The run's result is taken, where the deadline may have passed meanwhile. -/
  | takes (flight : ℕ) (deadline : Bool)
  /-- The flight's context ends first. -/
  | expires (flight : ℕ) (deadline : Bool)
  | removes (flight : ℕ)
  | publishes (flight : ℕ)
  | completes (flight : ℕ)
  | receives (waiter : ℕ)
  | cancels (waiter : ℕ)
  | drains
  | passes (drain : ℕ)
  | closes

namespace Account

def step (s : Account V E) : Event V E → Account V E
  | .begins => s.begin
  | .ends => if s.operations=0 then s else { s with operations := s.operations-1 }.leave
  | .awaits key => s.awaitFlight key
  | .returns f result => s.onFlight f (·.sent.isNone) fun flight=>{ flight with sent := some result }
  | .unwinds f => s.unwind f
  | .takes f deadline => s.onFlight f (fun flight=>flight.taken.isNone && flight.sent.isSome)
      fun flight=>{ flight with taken := flight.sent.map (late deadline) }
  | .expires f deadline => s.onFlight f (·.taken.isNone) fun flight =>
      { flight with taken := some (late deadline (.error .cancelled)) }
  | .removes f => s.remove f
  | .publishes f => s.onFlight f (fun flight=>flight.removed && flight.value.isNone)
      fun flight=>{ flight with value := flight.taken }
  | .completes f => s.onFlight f (fun flight=>flight.value.isSome && !flight.done)
      fun flight=>{ flight with done := true }
  | .receives w => s.resolve w s.received
  | .cancels w => s.resolve w fun _=>some .cancelled
  | .drains => s.drain
  | .passes d => s.pass d
  | .closes => { s with closed := true }

def run (s : Account V E) (events : List (Event V E)) : Account V E := events.foldl step s

/-- What the idle channels and the drains say of the operations counted. -/
structure Gate (s : Account V E) : Prop where
  idle : s.idle=true → s.closing=true ∧ 0 < s.active
  made : s.made=s.closings+s.idle.toNat
  closings : s.closings≤1
  closed : 0 < s.closings → s.closing=true ∧ s.active=0
  drains : ∀ drain ∈ s.drains, s.closing=true ∧ drain.elim (s.active=0) (0 < ·)

end Account

structure Flight.Ordered (flight : Flight V E) : Prop where
  ended : flight.ended=true → flight.sent.isSome=true
  removed : flight.removed=true → flight.taken.isSome=true
  value : ∀ result, flight.value=some result → flight.removed=true ∧ flight.taken=some result
  done : flight.done=true → flight.value.isSome=true

namespace Account

structure Sound (s : Account V E) : Prop where
  active : s.active=s.operations+s.flights.countP fun flight=>!flight.ended
  gate : s.Gate
  ordered : ∀ flight ∈ s.flights, flight.Ordered
  /-- The table names the one flight of a key that has not left it. -/
  table : ∀ key f, s.table key=some f ↔ ∃ flight, s.flights[f]? = some flight ∧ flight.key=key ∧ flight.removed=false
  waiters : ∀ waiter ∈ s.waiters, waiter.removed=false ∧ ∀ result, waiter.outcome=some (.result result) →
      ∃ flight, s.flights[waiter.flight]? = some flight ∧ flight.done=true ∧ flight.value=some result

variable {s s' : Account V E} {f : ℕ} {flight next : Flight V E}

lemma Gate.congr (h : s.Gate) (hactive : s'.active=s.active) (hclosing : s'.closing=s.closing)
    (hidle : s'.idle=s.idle) (hmade : s'.made=s.made) (hclosings : s'.closings=s.closings)
    (hdrains : s'.drains=s.drains) : s'.Gate where
  idle := by rw [hidle,hclosing,hactive]; exact h.idle
  made := by rw [hmade,hclosings,hidle]; exact h.made
  closings := by rw [hclosings]; exact h.closings
  closed := by rw [hclosings,hclosing,hactive]; exact h.closed
  drains := by rw [hdrains,hclosing,hactive]; exact h.drains

/-- One more operation or run, begun before any drain. -/
lemma Gate.more (h : s.Gate) (hrefuses : s.refuses=false) (hactive : s'.active=s.active+1)
    (hclosing : s'.closing=s.closing) (hidle : s'.idle=s.idle) (hmade : s'.made=s.made)
    (hclosings : s'.closings=s.closings) (hdrains : s'.drains=s.drains) : s'.Gate := by
  have hopen : s.closing=false := (Bool.or_eq_false_iff.1 hrefuses).1
  refine ⟨?_,?_,?_,?_,?_⟩
  · rw [hidle,hclosing,hactive]
    exact fun htrue=>⟨(h.idle htrue).1,Nat.succ_pos _⟩
  · rw [hmade,hclosings,hidle]
    exact h.made
  · rw [hclosings]
    exact h.closings
  · rw [hclosings]
    intro hpos
    have hclosed := (h.closed hpos).1
    rw [hopen] at hclosed
    cases hclosed
  · rw [hdrains]
    intro drain hmem
    have hclosed := (h.drains drain hmem).1
    rw [hopen] at hclosed
    cases hclosed

/-- An operation or a run ends; the last one closes the idle channel. -/
lemma Gate.leave (h : s.Gate) (hpos : 0 < s.active) : s.leave.Gate ∧ s.leave.active=s.active-1 := by
  have hnone : s.closings=0 := by
    by_contra hne
    have hzero := (h.closed (Nat.pos_of_ne_zero hne)).2
    omega
  have hmade := h.made
  unfold Account.leave
  split
  · rename_i hlast
    obtain ⟨hzero,hidle⟩ := hlast
    rw [hidle] at hmade
    refine ⟨⟨(by intro h; cases h),?_,?_,fun _=>⟨(h.idle hidle).1,rfl⟩,fun drain hmem=>?_⟩, hzero.symm⟩
    · exact hmade
    · change s.closings+1≤1
      omega
    · obtain ⟨hclosing,hdrain⟩ := h.drains drain hmem
      refine ⟨hclosing,?_⟩
      cases drain with
      | none => rfl
      | some channel => exact hdrain
  · rename_i hmore
    refine ⟨⟨fun hidle=>⟨(h.idle hidle).1,?_⟩,hmade,h.closings,fun hpos=>?_,fun drain hmem=>?_⟩,rfl⟩
    · exact Nat.pos_of_ne_zero fun hzero=>hmore ⟨hzero,hidle⟩
    · change 0 < s.closings at hpos
      omega
    · obtain ⟨hclosing,hdrain⟩ := h.drains drain hmem
      refine ⟨hclosing,?_⟩
      cases drain with
      | none =>
        change s.active=0 at hdrain
        omega
      | some channel => exact hdrain

@[simp] lemma leave_operations : s.leave.operations=s.operations := by unfold leave; split <;> rfl
@[simp] lemma leave_flights : s.leave.flights=s.flights := by unfold leave; split <;> rfl
@[simp] lemma leave_table : s.leave.table=s.table := by unfold leave; split <;> rfl
@[simp] lemma leave_waiters : s.leave.waiters=s.waiters := by unfold leave; split <;> rfl
@[simp] lemma leave_closing : s.leave.closing=s.closing := by unfold leave; split <;> rfl

/-- Flights after one took another stage. -/
lemma waiters_set (h : s.Sound) (hflight : s.flights[f]? = some flight)
    (hdone : flight.done=true → next.done=true ∧ next.value=flight.value) :
    ∀ waiter ∈ s.waiters, waiter.removed=false ∧ ∀ result, waiter.outcome=some (.result result) →
      ∃ flight, (s.flights.set f next)[waiter.flight]? = some flight ∧ flight.done=true ∧
        flight.value=some result := by
  intro waiter hmem
  obtain ⟨hremoved,hresult⟩ := h.waiters waiter hmem
  refine ⟨hremoved,fun result houtcome=>?_⟩
  obtain ⟨other,hother,hotherDone,hvalue⟩ := hresult result houtcome
  rw [List.getElem?_set]
  by_cases heq : f=waiter.flight
  · subst heq
    rw [hflight] at hother
    cases hother
    rw [if_pos rfl,if_pos (List.getElem?_eq_some_iff.1 hflight).1]
    exact ⟨next,rfl,(hdone hotherDone).1,(hdone hotherDone).2.trans hvalue⟩
  · rw [if_neg heq]
    exact ⟨other,hother,hotherDone,hvalue⟩

lemma table_set (h : s.Sound) (hflight : s.flights[f]? = some flight) (hkey : next.key=flight.key)
    (hremoved : next.removed=flight.removed) (key : String) (g : ℕ) :
    s.table key=some g ↔ ∃ flight, (s.flights.set f next)[g]? = some flight ∧ flight.key=key ∧
      flight.removed=false := by
  rw [h.table,List.getElem?_set]
  by_cases heq : f=g
  · subst heq
    rw [if_pos rfl,if_pos (List.getElem?_eq_some_iff.1 hflight).1,hflight]
    constructor
    · rintro ⟨_,hsome,hcond⟩
      cases hsome
      exact ⟨next,rfl,by rw [hkey,hremoved]; exact hcond⟩
    · rintro ⟨_,hsome,hcond⟩
      cases hsome
      exact ⟨flight,rfl,by rw [← hkey,← hremoved]; exact hcond⟩
  · rw [if_neg heq]

lemma ordered_set (h : s.Sound) (hnext : next.Ordered) : ∀ flight ∈ s.flights.set f next, flight.Ordered := by
  intro other hmem
  rcases mem_or_eq_of_mem_set hmem with hmem | rfl
  · exact h.ordered other hmem
  · exact hnext

lemma countP_set (hflight : s.flights[f]? = some flight) (next : Flight V E) :
    (s.flights.set f next).countP (fun flight=>!flight.ended) + (if flight.ended then 0 else 1) =
      s.flights.countP (fun flight=>!flight.ended) + if next.ended then 0 else 1 := by
  obtain ⟨hlt,heq⟩ := List.getElem?_eq_some_iff.1 hflight
  rw [List.countP_set hlt,heq]
  cases hended : flight.ended with
  | true => cases next.ended <;> simp
  | false =>
    have hpos : 0 < s.flights.countP fun flight=>!flight.ended :=
      countP_pos_iff.2 ⟨flight,List.mem_of_getElem? hflight,by rw [hended]; rfl⟩
    cases next.ended
    · simp only [Bool.not_false,if_true,Bool.false_eq_true,if_false]
      omega
    · simp only [Bool.not_false,Bool.not_true,if_true,Bool.false_eq_true,if_false]
      omega

/-- A stage that neither ends a run nor takes a flight from the table. -/
lemma Sound.onFlight (h : s.Sound) {allowed : Flight V E → Bool} {next : Flight V E → Flight V E}
    (hnext : ∀ flight : Flight V E, flight.Ordered → allowed flight=true → (next flight).Ordered ∧
      (next flight).key=flight.key ∧ (next flight).ended=flight.ended ∧
      (next flight).removed=flight.removed ∧
      (flight.done=true → (next flight).done=true ∧ (next flight).value=flight.value)) (f : ℕ) :
    (s.onFlight f allowed next).Sound := by
  unfold Account.onFlight
  split
  · rename_i flight hflight
    split
    · rename_i hallowed
      obtain ⟨hordered,hkey,hended,hremoved,hdone⟩ :=
        hnext flight (h.ordered flight (List.mem_of_getElem? hflight)) hallowed
      refine ⟨?_,h.gate.congr rfl rfl rfl rfl rfl rfl,ordered_set h hordered,
        table_set h hflight hkey hremoved,waiters_set h hflight hdone⟩
      have hcount := countP_set hflight (next flight)
      rw [hended] at hcount
      have hactive := h.active
      dsimp only
      omega
    · exact h
  · exact h

lemma Sound.new : (Account.new : Account V E).Sound where
  active := rfl
  gate := ⟨(by intro h; cases h),rfl,Nat.zero_le _,fun h=>absurd h (Nat.lt_irrefl _),fun _ h=>by cases h⟩
  ordered _ h := by cases h
  table key f := ⟨(by intro h; cases h),fun ⟨_,h,_⟩=>by cases h⟩
  waiters _ h := by cases h

lemma Sound.begin (h : s.Sound) : s.begin.Sound := by
  unfold Account.begin
  split
  · exact h
  · rename_i hopen
    refine ⟨?_,h.gate.more (Bool.not_eq_true _ ▸ hopen) rfl rfl rfl rfl rfl rfl,h.ordered,h.table,h.waiters⟩
    have hactive := h.active
    dsimp only
    omega

lemma Sound.of_leave (hgate : s.Gate) (hactive : s.active=s.operations + s.flights.countP (fun flight=>!flight.ended)+1)
    (hordered : ∀ flight ∈ s.flights, flight.Ordered)
    (htable : ∀ key f, s.table key=some f ↔
      ∃ flight, s.flights[f]? = some flight ∧ flight.key=key ∧ flight.removed=false)
    (hwaiters : ∀ waiter ∈ s.waiters, waiter.removed=false ∧ ∀ result,
      waiter.outcome=some (.result result) → ∃ flight, s.flights[waiter.flight]? = some flight ∧
        flight.done=true ∧ flight.value=some result) : s.leave.Sound := by
  obtain ⟨hleft,hless⟩ := hgate.leave (by omega)
  refine ⟨?_,hleft,?_,?_,?_⟩
  · rw [hless,leave_operations,leave_flights]
    omega
  · rwa [leave_flights]
  · rwa [leave_table,leave_flights]
  · rwa [leave_waiters,leave_flights]

section

variable (h : s.Sound)
include h

lemma Sound.ends (hpos : s.operations≠0) : ({ s with operations := s.operations-1 }.leave : Account V E).Sound := by
  have hactive := h.active
  refine .of_leave (h.gate.congr rfl rfl rfl rfl rfl rfl) ?_ h.ordered h.table h.waiters
  dsimp only
  omega

lemma Sound.unwind (f : ℕ) : (s.unwind f).Sound := by
  unfold Account.unwind
  split
  · rename_i flight hflight
    split
    · rename_i hallowed
      rw [Bool.and_eq_true,Bool.not_eq_true'] at hallowed
      have hordered := h.ordered flight (List.mem_of_getElem? hflight)
      have hcount := countP_set hflight { flight with ended := true }
      rw [hallowed.2,if_pos rfl,if_neg Bool.false_ne_true] at hcount
      have hactive := h.active
      refine .of_leave (h.gate.congr rfl rfl rfl rfl rfl rfl) ?_
        (ordered_set h ⟨fun _=>hallowed.1,hordered.removed,hordered.value,hordered.done⟩)
        (table_set h hflight rfl rfl) (waiters_set h hflight fun hdone=>⟨hdone,rfl⟩)
      dsimp only
      omega
    · exact h
  · exact h

lemma Sound.remove (f : ℕ) : (s.remove f).Sound := by
  unfold Account.remove
  split
  · rename_i flight hflight
    split
    · rename_i hallowed
      rw [Bool.and_eq_true,Bool.not_eq_true'] at hallowed
      have hordered := h.ordered flight (List.mem_of_getElem? hflight)
      have hcount := countP_set hflight { flight with removed := true }
      have hactive := h.active
      refine ⟨?_,h.gate.congr rfl rfl rfl rfl rfl rfl,ordered_set h ⟨hordered.ended,fun _=>hallowed.1,
        fun result hvalue=>⟨rfl,(hordered.value result hvalue).2⟩,hordered.done⟩,fun key g=>?_,
        waiters_set h hflight fun hdone=>⟨hdone,rfl⟩⟩
      · dsimp only at hcount ⊢
        omega
      · have hnamed : s.table flight.key=some f := (h.table _ _).2 ⟨flight,hflight,rfl,hallowed.2⟩
        dsimp only
        rw [update_apply,List.getElem?_set]
        by_cases heq : f=g
        · subst heq
          rw [if_pos rfl,if_pos (List.getElem?_eq_some_iff.1 hflight).1]
          constructor
          · intro hkey
            split_ifs at hkey with hsame
            obtain ⟨other,hother,rfl,-⟩ := (h.table _ _).1 hkey
            rw [hflight] at hother
            cases hother
            exact absurd rfl hsame
          · rintro ⟨_,hsome,-,hremoved⟩
            cases hsome
            cases hremoved
        · rw [if_neg heq,← h.table]
          by_cases hsame : key=flight.key
          · subst hsame
            rw [if_pos rfl,hnamed]
            exact ⟨(by intro h; cases h),fun h=>absurd (Option.some.inj h) heq⟩
          · rw [if_neg hsame]
    · exact h
  · exact h

lemma Sound.join (hlisted : flight.removed=false) : (s.join f flight).Sound := by
  refine ⟨h.active,h.gate.congr rfl rfl rfl rfl rfl rfl,h.ordered,h.table,fun waiter hmem=>?_⟩
  rcases mem_append.1 hmem with hmem | hmem
  · exact h.waiters waiter hmem
  · rw [mem_singleton.1 hmem]
    exact ⟨hlisted,fun result houtcome=>by cases houtcome⟩

lemma Sound.awaitFlight (key : String) : (s.awaitFlight key).Sound := by
  unfold Account.awaitFlight
  split
  · rename_i f hnamed
    obtain ⟨flight,hflight,-,hlisted⟩ := (h.table _ _).1 hnamed
    rw [hflight]
    exact h.join hlisted
  · rename_i hnew
    split
    · exact h
    rename_i hopen
    refine Sound.join ⟨?_,h.gate.more (Bool.not_eq_true _ ▸ hopen) rfl rfl rfl rfl rfl rfl,?_,?_,?_⟩ rfl
    · have hactive := h.active
      rw [countP_append,hactive]
      rfl
    · intro flight hmem
      rcases mem_append.1 hmem with hmem | hmem
      · exact h.ordered flight hmem
      · rw [mem_singleton.1 hmem]
        exact ⟨(by intro h; cases h),(by intro h; cases h),(by intro _ h; cases h),(by intro h; cases h)⟩
    · intro other g
      dsimp only
      rw [update_apply]
      by_cases hlast : g=s.flights.length
      · subst hlast
        rw [List.getElem?_concat_length]
        constructor
        · intro hother
          split_ifs at hother with hsame
          · exact ⟨_,rfl,hsame.symm,rfl⟩
          · obtain ⟨_,hnone,-⟩ := (h.table _ _).1 hother
            exact absurd (List.getElem?_eq_some_iff.1 hnone).1 (Nat.lt_irrefl _)
        · rintro ⟨_,hsome,rfl,-⟩
          cases hsome
          exact if_pos rfl
      · have hflights : (s.flights ++ [(⟨key,none,false,none,false,none,false⟩ : Flight V E)])[g]? = s.flights[g]? := by
          by_cases hlt : g < s.flights.length
          · exact List.getElem?_append_left hlt
          · rw [List.getElem?_eq_none (by simp; omega),List.getElem?_eq_none (Nat.not_lt.1 hlt)]
        rw [hflights,← h.table]
        by_cases hsame : other=key
        · subst hsame
          rw [if_pos rfl,hnew]
          exact ⟨fun h=>absurd (Option.some.inj h).symm hlast,(by intro h; cases h)⟩
        · rw [if_neg hsame]
    · intro waiter hmem
      obtain ⟨hremoved,hresult⟩ := h.waiters waiter hmem
      refine ⟨hremoved,fun result houtcome=>?_⟩
      obtain ⟨flight,hflight,hrest⟩ := hresult result houtcome
      exact ⟨flight,(List.getElem?_append_left (List.getElem?_eq_some_iff.1 hflight).1).trans hflight,hrest⟩

lemma Sound.resolve (w : ℕ) {outcome : Waiter V E → Option (Outcome V E)}
    (houtcome : ∀ waiter result, outcome waiter=some (.result result) →
      outcome waiter=s.received waiter) : (s.resolve w outcome).Sound := by
  unfold Account.resolve
  split
  · rename_i waiter hwaiter
    split
    · refine ⟨h.active,h.gate.congr rfl rfl rfl rfl rfl rfl,h.ordered,h.table,fun other hmem=>?_⟩
      rcases mem_or_eq_of_mem_set hmem with hmem | rfl
      · exact h.waiters other hmem
      · refine ⟨(h.waiters waiter (List.mem_of_getElem? hwaiter)).1,fun result hresult=>?_⟩
        have hreceived := (houtcome waiter result hresult).symm.trans hresult
        obtain ⟨value,hvalue,heq⟩ := Option.map_eq_some_iff.1 hreceived
        cases heq
        obtain ⟨flight,hflight,hdone⟩ := Option.bind_eq_some_iff.1 hvalue
        split at hdone
        · rename_i hclosed
          exact ⟨flight,hflight,hclosed,hdone⟩
        · cases hdone
    · exact h
  · exact h

lemma Sound.drain : s.drain.Sound := by
  have hgate := h.gate
  have hmade := hgate.made
  have hdrains (channel : Option ℕ) (hchannel : channel.elim (s.active=0) (0 < ·)) :
      ∀ drain ∈ s.drains ++ [channel], true=true ∧ drain.elim (s.active=0) (0 < ·) := by
    intro drain hmem
    rcases mem_append.1 hmem with hmem | hmem
    · exact ⟨rfl,(hgate.drains drain hmem).2⟩
    · exact ⟨rfl,mem_singleton.1 hmem ▸ hchannel⟩
  unfold Account.drain
  split
  · rename_i hzero
    exact ⟨h.active,⟨fun hidle=>⟨rfl,(hgate.idle hidle).2⟩,hmade,hgate.closings,
      fun hpos=>⟨rfl,(hgate.closed hpos).2⟩,hdrains none hzero⟩,h.ordered,h.table,h.waiters⟩
  rename_i hactive
  split
  · rename_i hidle
    rw [hidle] at hmade
    exact ⟨h.active,⟨fun hidle=>⟨rfl,(hgate.idle hidle).2⟩,hgate.made,hgate.closings,
      fun hpos=>⟨rfl,(hgate.closed hpos).2⟩,hdrains (some _) (show 0 < s.made from hmade ▸ Nat.succ_pos _)⟩,h.ordered,h.table,h.waiters⟩
  · rename_i hidle
    rw [Bool.not_eq_true] at hidle
    rw [hidle] at hmade
    exact ⟨h.active,⟨fun _=>⟨rfl,Nat.pos_of_ne_zero hactive⟩,congrArg (· + 1) hmade,hgate.closings,
      fun hpos=>absurd (hgate.closed hpos).2 hactive,
      hdrains (some _) (show 0 < s.made+1 from Nat.succ_pos _)⟩,h.ordered,h.table,h.waiters⟩

lemma Sound.pass (d : ℕ) : (s.pass d).Sound := by
  unfold Account.pass
  split
  · rename_i channel hdrain
    split
    · rename_i hclosed
      obtain ⟨hclosing,hpos⟩ := h.gate.drains _ (List.mem_of_getElem? hdrain)
      refine ⟨h.active,⟨h.gate.idle,h.gate.made,h.gate.closings,h.gate.closed,fun drain hmem=>?_⟩,
        h.ordered,h.table,h.waiters⟩
      rcases mem_or_eq_of_mem_set hmem with hmem | rfl
      · exact h.gate.drains drain hmem
      · exact ⟨hclosing,(h.gate.closed (Nat.lt_of_lt_of_le hpos hclosed)).2⟩
    · exact h
  · exact h

lemma Sound.step (event : Event V E) : (s.step event).Sound := by
  cases event with
  | begins => exact h.begin
  | ends =>
    change (if s.operations=0 then s else _).Sound
    split
    · exact h
    · rename_i hpos
      exact h.ends hpos
  | awaits key => exact h.awaitFlight key
  | returns f result =>
    refine h.onFlight (fun flight hordered _=>?_) f
    refine ⟨?_,rfl,rfl,rfl,fun hdone=>⟨hdone,rfl⟩⟩
    exact ⟨fun _=>rfl,hordered.removed,hordered.value,hordered.done⟩
  | unwinds f => exact h.unwind f
  | takes f deadline =>
    refine h.onFlight (fun flight hordered hallowed=>?_) f
    refine ⟨?_,rfl,rfl,rfl,fun hdone=>⟨hdone,rfl⟩⟩
    rw [Bool.and_eq_true,Option.isNone_iff_eq_none] at hallowed
    refine ⟨hordered.ended,fun _=>Option.isSome_map.trans hallowed.2,fun result hvalue=>?_,hordered.done⟩
    have htaken := (hordered.value result hvalue).2
    rw [hallowed.1] at htaken
    cases htaken
  | expires f deadline =>
    refine h.onFlight (fun flight hordered hallowed=>?_) f
    refine ⟨?_,rfl,rfl,rfl,fun hdone=>⟨hdone,rfl⟩⟩
    refine ⟨hordered.ended,fun _=>rfl,fun result hvalue=>?_,hordered.done⟩
    have htaken := (hordered.value result hvalue).2
    rw [Option.isNone_iff_eq_none.1 hallowed] at htaken
    cases htaken
  | removes f => exact h.remove f
  | publishes f =>
    refine h.onFlight (fun flight hordered hallowed=>?_) f
    rw [Bool.and_eq_true,Option.isNone_iff_eq_none] at hallowed
    have hopen : flight.done=true → False := fun hdone=>by
      have hvalue := hordered.done hdone
      rw [hallowed.2] at hvalue
      cases hvalue
    exact ⟨⟨hordered.ended,hordered.removed,fun result hvalue=>⟨hallowed.1,hvalue⟩,
      fun hdone=>(hopen hdone).elim⟩,rfl,rfl,rfl,fun hdone=>(hopen hdone).elim⟩
  | completes f =>
    refine h.onFlight (fun flight hordered hallowed=>?_) f
    refine ⟨?_,rfl,rfl,rfl,fun _=>⟨rfl,rfl⟩⟩
    rw [Bool.and_eq_true] at hallowed
    exact ⟨hordered.ended,hordered.removed,hordered.value,fun _=>hallowed.1⟩
  | receives w => exact h.resolve w fun _ _ _=>rfl
  | cancels w => exact h.resolve w fun _ _ hresult=>by cases hresult
  | drains => exact h.drain
  | passes d => exact h.pass d
  | closes => exact ⟨h.active,h.gate.congr rfl rfl rfl rfl rfl rfl,h.ordered,h.table,h.waiters⟩

lemma Sound.run (events : List (Event V E)) : (s.run events).Sound := by
  induction events generalizing s with
  | nil => exact h
  | cons event events ih => exact ih (h.step event)

end

structure Quieter (s s' : Account V E) : Prop where
  closing : s'.closing=true
  flights : s'.flights.length=s.flights.length
  operations : s'.operations ≤ s.operations
  passed : none ∈ s.drains → none ∈ s'.drains

lemma Quieter.of_eq (hclosing : s.closing=true) (hclosing' : s'.closing=s.closing)
    (hflights : s'.flights.length=s.flights.length) (hoperations : s'.operations=s.operations)
    (hdrains : s'.drains=s.drains) : Quieter s s' :=
  ⟨hclosing'.trans hclosing,hflights,hoperations.le,fun h=>hdrains ▸ h⟩

lemma Quieter.leave (h : Quieter s s') : Quieter s s'.leave := by
  refine ⟨by rw [leave_closing]; exact h.closing,by rw [leave_flights]; exact h.flights,
    by rw [leave_operations]; exact h.operations,fun hpassed=>?_⟩
  unfold Account.leave
  split
  · exact h.passed hpassed
  · exact h.passed hpassed

lemma Quieter.onFlight (h : s.closing=true) (f : ℕ) (allowed : Flight V E → Bool)
    (next : Flight V E → Flight V E) : Quieter s (s.onFlight f allowed next) := by
  unfold Account.onFlight
  split
  · split
    · exact .of_eq h rfl length_set rfl rfl
    · exact .of_eq h rfl rfl rfl rfl
  · exact .of_eq h rfl rfl rfl rfl

lemma Quieter.step (h : s.closing=true) (event : Event V E) : Quieter s (s.step event) := by
  have hsame : Quieter s s := .of_eq h rfl rfl rfl rfl
  have hrefuses : s.refuses=true := by simp [refuses,h]
  cases event with
  | begins =>
    change Quieter s s.begin
    unfold Account.begin
    rw [if_pos hrefuses]
    exact hsame
  | ends =>
    change Quieter s (if s.operations=0 then s else _)
    split
    · exact hsame
    · exact Quieter.leave ⟨h,rfl,Nat.sub_le _ _,id⟩
  | awaits key =>
    change Quieter s (s.awaitFlight key)
    unfold Account.awaitFlight
    split
    · rename_i f _
      cases s.flights[f]? with
      | none => exact hsame
      | some flight => exact .of_eq h rfl rfl rfl rfl
    · rw [if_pos hrefuses]
      exact hsame
  | returns f result => exact .onFlight h _ _ _
  | unwinds f =>
    change Quieter s (s.unwind f)
    unfold Account.unwind
    split
    · split
      · exact Quieter.leave (.of_eq h rfl length_set rfl rfl)
      · exact hsame
    · exact hsame
  | takes f deadline => exact .onFlight h _ _ _
  | expires f deadline => exact .onFlight h _ _ _
  | removes f =>
    change Quieter s (s.remove f)
    unfold Account.remove
    split
    · split
      · exact .of_eq h rfl length_set rfl rfl
      · exact hsame
    · exact hsame
  | publishes f => exact .onFlight h _ _ _
  | completes f => exact .onFlight h _ _ _
  | receives w =>
    change Quieter s (s.resolve w _)
    unfold Account.resolve
    split
    · split
      · exact .of_eq h rfl rfl rfl rfl
      · exact hsame
    · exact hsame
  | cancels w =>
    change Quieter s (s.resolve w _)
    unfold Account.resolve
    split
    · split
      · exact .of_eq h rfl rfl rfl rfl
      · exact hsame
    · exact hsame
  | drains =>
    change Quieter s s.drain
    unfold Account.drain
    split
    · exact ⟨rfl,rfl,Nat.le_refl _,mem_append_left _⟩
    split
    · exact ⟨rfl,rfl,Nat.le_refl _,mem_append_left _⟩
    · exact ⟨rfl,rfl,Nat.le_refl _,mem_append_left _⟩
  | passes d =>
    change Quieter s (s.pass d)
    unfold Account.pass
    split
    · rename_i hdrain
      split
      · exact ⟨h,rfl,Nat.le_refl _,fun _=>mem_set (List.getElem?_eq_some_iff.1 hdrain).1 _⟩
      · exact hsame
    · exact hsame
  | closes => exact .of_eq h rfl rfl rfl rfl

lemma Quieter.run (h : s.closing=true) (events : List (Event V E)) : Quieter s (s.run events) := by
  induction events generalizing s with
  | nil => exact .of_eq h rfl rfl rfl rfl
  | cons event events ih =>
    have hstep := Quieter.step h event
    have hrest := ih hstep.closing
    exact ⟨hrest.closing,hrest.flights.trans hstep.flights,hrest.operations.trans hstep.operations,
      fun hpassed=>hrest.passed (hstep.passed hpassed)⟩

end Account

end Cinnabar.Authcache
