import Mathlib.Data.Finset.Card
import Mathlib.Data.Fintype.Basic
import Mathlib.Logic.Function.Basic

/-! # Browser sessions of the relay -/

namespace Cinnabar.Webrelay

open Function

def maxSessions : ℕ := 256
def maxPerIP : ℕ := 4

/-- Times are in nanoseconds. -/
def second : ℕ := 1000000000
def idleTTL : ℕ := 10*60*second
def resumeTTL : ℕ := 2*60*second

/-- Keeps each issued token's expiry independent of later rotations. -/
structure ResumeBearer where
  session : ℕ
  expires : ℕ
deriving DecidableEq

/-- One browser's state, where a bearer of `T` is a nonempty `string` and an address is of `A`. -/
structure WebSession (T A : Type) where
  token : Option T := none
  previousToken : Option T := none
  tokenPending : Bool := false
  generation : ℕ := 0
  /-- The connection that owns the current control generation. -/
  controller : Option ℕ := none
  client : A
  /-- The connection that holds `commands`. -/
  commands : Option ℕ := none
  /-- The connections that `attached` counts. -/
  attached : Finset ℕ := ∅
  idleSince : ℕ
  closed : Bool := false
  cancelSignIn : Bool := false
  signedIn : Bool := false
  /-- The connection that plays. -/
  play : Option ℕ := none

/-- How far the handler of one connection has come. A control connection is its controller. -/
inductive Conn (T A : Type) where
  | idle
  /-- `openControl` after `controlSession`, before it locks `commands`. -/
  | found (session : ℕ) (client : A) (token : Option T) (now : ℕ)
  | attached (session : ℕ) (client : A) (token : Option T) (now : ℕ)
  /-- `openControl` failed and has yet to detach. -/
  | refused (session now : ℕ)
  | control (session generation : ℕ) (cancelled : Bool)
  /-- A controller whose connection ended, before and after it detached. -/
  | leaving (session generation : ℕ)
  | left (session generation : ℕ)
  /-- `runPlay` after `playSession`, then counted, then owning the play, then ended. -/
  | playFound (session controller : ℕ)
  | playAttached (session controller : ℕ)
  | playing (session controller : ℕ)
  | playLeft (session : ℕ)
  | ended

namespace Conn

variable {T A : Type}

def controls : Conn T A → Option (ℕ × ℕ)
  | .control session generation _ => some (session,generation)
  | .leaving session generation => some (session,generation)
  | .left session generation => some (session,generation)
  | _ => none

def holds : Conn T A → Option ℕ
  | .attached session _ _ _ => some session
  | .refused session _ => some session
  | .control session _ _ => some session
  | .leaving session _ => some session
  | .playAttached session _ => some session
  | .playing session _ => some session
  | .playLeft session => some session
  | _ => none

end Conn

structure Issue (T : Type) where
  serial : ℕ
  token : T
  session : ℕ
  now : ℕ

/-- The event a welcome or a ping carries. -/
structure ControlEvent (T : Type) where
  resume : Option T
  generation : ℕ
  expiresSeconds : ℕ
deriving DecidableEq

/-- The relay and its connections, with logs of the bearers it issued and those browsers received. -/
structure Relay (T A : Type) where
  clock : ℕ
  /-- Sessions are numbered as they are made. -/
  made : ℕ
  webSessions : ℕ → WebSession T A
  sessions : Finset ℕ
  tokens : T → Option ResumeBearer
  perIP : A → ℕ
  conns : ℕ → Conn T A
  issued : List (Issue T)
  /-- What was sent on each connection, with the number of the bearer it carries. -/
  sent : List (ℕ × ℕ × ControlEvent T)
  delivered : List T
  /-- The newest bearer that each session's browser has received. -/
  received : ℕ → Option (ℕ × T)

inductive AccountOp where
  | signIn
  | signOut
deriving DecidableEq

section
variable {T A : Type} [DecidableEq T] [DecidableEq A]

namespace Relay

/-- `New` -/
def new [Inhabited A] : Relay T A where
  clock := 0
  made := 0
  webSessions := fun _=>{ client := default, idleSince := 0 }
  sessions := ∅
  tokens := fun _=>none
  perIP := fun _=>0
  conns := fun _=>.idle
  issued := []
  sent := []
  delivered := []
  received := fun _=>none

variable (relay : Relay T A)

def setSession (s : ℕ) (session : WebSession T A) : Relay T A :=
  { relay with webSessions := update relay.webSessions s session }

def setConn (k : ℕ) (conn : Conn T A) : Relay T A :=
  { relay with conns := update relay.conns k conn }

/-- The account for an unexpired bearer. -/
def resumeLocked (token : T) (now : ℕ) : Option ℕ :=
  match relay.tokens token with
  | none => none
  | some bearer => if now<bearer.expires then some bearer.session else none

/-- `delete(relay.tokens, token)` -/
def deleteToken (tokens : T → Option ResumeBearer) : Option T → T → Option ResumeBearer
  | none => tokens
  | some token => update tokens token none

/-- Issues the replacement `fresh` while retaining only the supplied bearer at its original expiry. -/
def rotateLocked (s : ℕ) (retain : Option T) (fresh : T) (now : ℕ) :
    Relay T A :=
  let session := relay.webSessions s
  let tokens := if session.token=retain then relay.tokens else deleteToken relay.tokens session.token
  let tokens := if session.previousToken=retain then tokens else deleteToken tokens session.previousToken
  { relay.setSession s { session with
      previousToken := retain
      token := some fresh
      tokenPending := true } with
    tokens := update tokens fresh (some ⟨s,now+resumeTTL⟩)
    issued := ⟨relay.issued.length,fresh,s,now⟩ :: relay.issued }

/-- `newSessionID` draws 32 random bytes, and never the bytes it drew before. -/
def isNew (fresh : T) : Bool := fresh ∉ relay.issued.map Issue.token

/-- Finds or creates an account without waiting for existing session work. -/
def controlSession (k : ℕ) (client : A) (token : Option T) (now : ℕ) :
    Option (Relay T A) :=
  match token with
  | some token =>
    (relay.resumeLocked token now).map fun s=>relay.setConn k (.found s client (some token) now)
  | none =>
    if maxSessions ≤ relay.sessions.card || maxPerIP ≤ relay.perIP client then none
    else
      let s := relay.made
      some ({ relay.setSession s { client := client, idleSince := now } with
        made := s+1
        sessions := insert s relay.sessions
        perIP := update relay.perIP client (relay.perIP client+1) }.setConn k (.found s client none now))

/-- `session.commands.Lock` and `session.attach` of `openControl`. -/
def attachControl (k : ℕ) : Option (Relay T A) :=
  match relay.conns k with
  | .found s client token now =>
    let session := relay.webSessions s
    if session.commands≠none then none
    else if session.closed then some (relay.setConn k .ended)
    else
      some ((relay.setSession s { session with
        commands := some k
        attached := insert k session.attached }).setConn k (.attached s client token now))
  | _ => none

/-- Whether `openControl` fails under the lock. -/
def refuses (s : ℕ) (client : A) (token : Option T) (now : ℕ) : Bool :=
  s ∉ relay.sessions || token.any (fun token=>relay.resumeLocked token now≠some s) ||
    ((relay.webSessions s).client≠client && maxPerIP ≤ relay.perIP client)

/-- Counts the session for `client` in place of its previous address. -/
def moveClient (s : ℕ) (client : A) : Relay T A :=
  let session := relay.webSessions s
  if session.client=client then relay
  else
    let perIP := update relay.perIP session.client (relay.perIP session.client-1)
    { relay.setSession s { session with client := client } with
      perIP := update perIP client (perIP client+1) }

/-- `controller.cancel()` -/
def cancel (k : ℕ) : Relay T A :=
  match relay.conns k with
  | .control s generation _ => relay.setConn k (.control s generation true)
  | _ => relay

/-- The rest of `openControl` under the lock: takes over, or gives up. -/
def takeControl (k : ℕ) (fresh : T) : Option (Relay T A) :=
  match relay.conns k with
  | .attached s client token now =>
    if relay.refuses s client token now then some (relay.setConn k (.refused s now))
    else if !relay.isNew fresh then none
    else
      let relay := relay.moveClient s client
      let relay := (relay.webSessions s).controller.elim relay relay.cancel
      let session := relay.webSessions s
      let generation := session.generation+1
      let relay := (relay.setConn k (.control s generation false)).setSession s { session with
        generation := generation
        controller := some k }
      let relay := relay.rotateLocked s token fresh now
      let session := relay.webSessions s
      some (relay.setSession s { session with
        tokenPending := token≠none
        commands := none })
  | _ => none

/-- The first section of a controller's `detach`. -/
def leave (k : ℕ) : Option (Relay T A) :=
  match relay.conns k with
  | .control s generation _ =>
    let session := relay.webSessions s
    let relay := relay.setConn k (.leaving s generation)
    some (if session.controller=some k then relay.setSession s { session with controller := none }
      else relay)
  | _ => none

/-- `detach` starts the idle clock when the last connection closes. -/
def detachFrom (k s now : ℕ) : Relay T A :=
  let session := relay.webSessions s
  let attached := session.attached.erase k
  relay.setSession s { session with
    attached := attached
    idleSince := if attached = ∅ then now else session.idleSince }

/-- The end of a connection's handler at `now`; a failed `openControl` detaches at its own time. -/
def detach (k now : ℕ) : Option (Relay T A) :=
  match relay.conns k with
  | .refused s opened =>
    let relay := (relay.detachFrom k s opened).setConn k .ended
    some (relay.setSession s { relay.webSessions s with commands := none })
  | .leaving s generation => some ((relay.detachFrom k s now).setConn k (.left s generation))
  | .playLeft s => some ((relay.detachFrom k s now).setConn k .ended)
  | _ => none

/-- Refreshes current capabilities; a retired controller gets no capability to publish. -/
def welcome (k : ℕ) (refresh : Bool) (fresh : T) (now : ℕ) :
    Option (Relay T A) :=
  match relay.conns k with
  | .control s generation false =>
    let session := relay.webSessions s
    if session.controller≠some k then none
    else if refresh && !session.tokenPending && !relay.isNew fresh then none
    else
      let relay := if refresh && !session.tokenPending then
        relay.rotateLocked s session.token fresh now else relay
      let token := (relay.webSessions s).token
      let expires := ((token.bind relay.tokens).map ResumeBearer.expires).getD 0-now
      let serial := ((relay.issued.find? fun issue=>issue.token=token).map Issue.serial).getD 0
      some { relay with
        sent := (k,serial,⟨token,generation,(expires+second-1) / second⟩) :: relay.sent }
  | _ => none

/-- Accepts only the current, unexpired bearer. -/
def acknowledge (k : ℕ) (token : T) (now : ℕ) : Option (Relay T A) :=
  match relay.conns k with
  | .control s _ false =>
    let session := relay.webSessions s
    if session.controller≠some k || some token≠session.token ||
        relay.resumeLocked token now≠some s then none
    else some (relay.setSession s { session with tokenPending := false })
  | _ => none

/-- The session of a fallback bearer, or of an authenticated connection that still controls it. -/
def playedSession (bound : Option ℕ) (resume : T) (now : ℕ) : Option ℕ :=
  match bound with
  | none => relay.resumeLocked resume now
  | some k =>
    ((relay.conns k).controls.map Prod.fst).filter fun s =>
      (relay.webSessions s).controller=some k

/-- Checks a fallback bearer or the authenticated account and its generation. -/
def playSession (p : ℕ) (bound : Option ℕ) (resume : T) (generation now : ℕ) :
    Option (Relay T A) := do
  let s ← relay.playedSession bound resume now
  let controller ← (relay.webSessions s).controller
  match relay.conns controller with
  | .control _ current false =>
    if generation=current then some (relay.setConn p (.playFound s controller)) else none
  | _ => none

/-- Whether the controller of a play still owns an uncancelled context. -/
def isCancelled (k : ℕ) : Bool :=
  match relay.conns k with
  | .control _ _ cancelled => cancelled
  | _ => true

/-- `session.attach` of `runPlay`. -/
def attachPlay (p : ℕ) : Option (Relay T A) :=
  match relay.conns p with
  | .playFound s controller =>
    let session := relay.webSessions s
    if relay.isCancelled controller || session.closed then some (relay.setConn p .ended)
    else
      some ((relay.setSession s { session with attached := insert p session.attached }).setConn p
        (.playAttached s controller))
  | _ => none

def beginPlay (p : ℕ) : Option (Relay T A) :=
  match relay.conns p with
  | .playAttached s controller =>
    let session := relay.webSessions s
    if relay.isCancelled controller || session.closed || session.cancelSignIn ||
        session.play≠none then none
    else
      some ((relay.setSession s { session with play := some p }).setConn p (.playing s controller))
  | _ => none

/-- `endPlay`, or a play that never began. -/
def endPlay (p : ℕ) : Option (Relay T A) :=
  match relay.conns p with
  | .playing s _ =>
    some ((relay.setSession s { relay.webSessions s with play := none }).setConn p (.playLeft s))
  | .playAttached s _ => some (relay.setConn p (.playLeft s))
  | _ => none

/-- Orders account commands with controller takeover so retired readers cannot mutate it. -/
def applyAccount (k : ℕ) (op : AccountOp) : Option (Relay T A) :=
  match relay.conns k with
  | .control s _ false =>
    let session := relay.webSessions s
    if session.commands≠none || session.controller≠some k || session.closed ||
        session.play≠none then none
    else
      match op with
      | .signIn =>
        if session.cancelSignIn || session.signedIn then some relay
        else some (relay.setSession s { session with cancelSignIn := true })
      | .signOut =>
        some (relay.setSession s { session with cancelSignIn := false, signedIn := false })
  | _ => none

/-- `runSignIn` publishes only the latest requested sign-in. -/
def finishSignIn (s : ℕ) (signedIn : Bool) : Option (Relay T A) :=
  let session := relay.webSessions s
  if !session.cancelSignIn || session.closed then none
  else
    some (relay.setSession s { session with
      cancelSignIn := false
      signedIn := session.signedIn || (signedIn && session.play=none) })

/-- `expire` forgets a detached account using the pass's time. -/
def expire (s now : ℕ) : Option (Relay T A) :=
  let session := relay.webSessions s
  if s ∉ relay.sessions || session.commands≠none || session.attached ≠ ∅ ||
      now ≤ session.idleSince+idleTTL then none
  else
    some { relay with
      sessions := relay.sessions.erase s
      tokens := deleteToken (deleteToken relay.tokens session.token) session.previousToken
      perIP := update relay.perIP session.client (relay.perIP session.client-1) }

/-- `session.close` of a forgotten account. -/
def close (s : ℕ) : Option (Relay T A) :=
  if s ∈ relay.sessions || relay.made ≤ s then none
  else
    some (relay.setSession s { relay.webSessions s with
      closed := true
      cancelSignIn := false
      signedIn := false })

/-- A sent event reaches the browser, which keeps the newest bearer. -/
def deliver (serial : ℕ) (event : ControlEvent T) (s : ℕ) :
    Option (Relay T A) :=
  match event.resume with
  | some token =>
    some { relay with
      delivered := token::relay.delivered
      received := update relay.received s (some ((relay.received s).elim (serial,token) fun newest =>
          if newest.1 < serial then (serial,token) else newest)) }
  | none => none

end Relay

/-- One locked section of the relay, one message that reaches its browser, or the clock. -/
inductive Action (T A : Type) where
  | controlSession (k : ℕ) (client : A) (token : Option T) (now : ℕ)
  | attachControl (k : ℕ)
  | takeControl (k : ℕ) (fresh : T)
  | leave (k : ℕ)
  | detach (k now : ℕ)
  | welcome (k : ℕ) (refresh : Bool) (fresh : T) (now : ℕ)
  | acknowledge (k : ℕ) (token : T) (now : ℕ)
  | playSession (p : ℕ) (bound : Option ℕ) (resume : T) (generation now : ℕ)
  | attachPlay (p : ℕ)
  | beginPlay (p : ℕ)
  | endPlay (p : ℕ)
  | applyAccount (k : ℕ) (op : AccountOp)
  | finishSignIn (s : ℕ) (signedIn : Bool)
  | expire (s now : ℕ)
  | close (s : ℕ)
  | deliver (message : ℕ × ℕ × ControlEvent T)
  | tick (elapsed : ℕ)

namespace Action

/-- When the caller read the clock. -/
def now : Action T A → Option ℕ
  | .controlSession _ _ _ now => some now
  | .detach _ now => some now
  | .welcome _ _ _ now => some now
  | .acknowledge _ _ now => some now
  | .playSession _ _ _ _ now => some now
  | .expire _ now => some now
  | _ => none

/-- The controller an action acts for: it gets a bearer, acknowledges one, plays, or changes the
account. -/
def controller (relay : Relay T A) : Action T A → Option ℕ
  | .welcome k _ _ _ => some k
  | .acknowledge k _ _ => some k
  | .beginPlay p =>
    match relay.conns p with
    | .playAttached _ k => some k
    | _ => none
  | .applyAccount k _ => some k
  | _ => none

def run (relay : Relay T A) : Action T A → Option (Relay T A)
  | .controlSession k client token now =>
    match relay.conns k with
    | .idle => relay.controlSession k client token now
    | _ => none
  | .attachControl k => relay.attachControl k
  | .takeControl k fresh => relay.takeControl k fresh
  | .leave k => relay.leave k
  | .detach k now => relay.detach k now
  | .welcome k refresh fresh now => relay.welcome k refresh fresh now
  | .acknowledge k token now => relay.acknowledge k token now
  | .playSession p bound resume generation now =>
    match relay.conns p with
    | .idle => relay.playSession p bound resume generation now
    | _ => none
  | .attachPlay p => relay.attachPlay p
  | .beginPlay p => relay.beginPlay p
  | .endPlay p => relay.endPlay p
  | .applyAccount k op => relay.applyAccount k op
  | .finishSignIn s signedIn => relay.finishSignIn s signedIn
  | .expire s now => relay.expire s now
  | .close s => relay.close s
  | .deliver (k,serial,event) =>
    if (k,serial,event) ∉ relay.sent then none
    else (relay.conns k).controls.bind fun control=>relay.deliver serial event control.1
  | .tick elapsed => some { relay with clock := relay.clock+elapsed }

end Action

/-- A clock is read before the section it is read for. -/
def Relay.step (relay : Relay T A) (a : Action T A) : Option (Relay T A) :=
  if a.now.all (· ≤ relay.clock) then a.run relay else none

inductive Reachable [Inhabited A] (allowed : Relay T A → Action T A → Prop) : Relay T A → Prop where
  | new : Reachable allowed .new
  | step {relay relay' : Relay T A} (a : Action T A) : Reachable allowed relay → allowed relay a →
    relay.step a=some relay' → Reachable allowed relay'

end

end Cinnabar.Webrelay
