import Cinnabar.Webrelay.Sessions

/-! # What a locked section does -/

namespace Cinnabar.Webrelay

open Function

variable {T A : Type} [DecidableEq T] [DecidableEq A]

namespace Relay

variable {relay relay' : Relay T A} {k s : ℕ}

section Fields

variable (relay : Relay T A) (k s j : ℕ) (session : WebSession T A) (conn : Conn T A)

@[simp] lemma setSession_webSessions : (relay.setSession s session).webSessions j =
    if j=s then session else relay.webSessions j := update_apply ..

@[simp] lemma setSession_rest :
    (relay.setSession s session).conns=relay.conns ∧ (relay.setSession s session).sessions=relay.sessions ∧
    (relay.setSession s session).tokens=relay.tokens ∧ (relay.setSession s session).perIP=relay.perIP ∧
    (relay.setSession s session).issued=relay.issued ∧ (relay.setSession s session).made=relay.made ∧
    (relay.setSession s session).clock=relay.clock ∧ (relay.setSession s session).sent=relay.sent ∧
    (relay.setSession s session).delivered=relay.delivered ∧
    (relay.setSession s session).received=relay.received :=
  ⟨rfl,rfl,rfl,rfl,rfl,rfl,rfl,rfl,rfl,rfl⟩

@[simp] lemma setConn_conns : (relay.setConn k conn).conns j = if j=k then conn else relay.conns j := update_apply ..

@[simp] lemma setConn_webSessions : (relay.setConn k conn).webSessions=relay.webSessions := rfl

@[simp] lemma setConn_rest :
    (relay.setConn k conn).sessions=relay.sessions ∧ (relay.setConn k conn).tokens=relay.tokens ∧
    (relay.setConn k conn).perIP=relay.perIP ∧ (relay.setConn k conn).issued=relay.issued ∧
    (relay.setConn k conn).made=relay.made ∧ (relay.setConn k conn).clock=relay.clock ∧
    (relay.setConn k conn).sent=relay.sent ∧ (relay.setConn k conn).delivered=relay.delivered ∧
    (relay.setConn k conn).received=relay.received :=
  ⟨rfl,rfl,rfl,rfl,rfl,rfl,rfl,rfl,rfl⟩

end Fields

def rotatedTokens (relay : Relay T A) (s : ℕ) (retain : Option T) (fresh : T) (now : ℕ) :
    T → Option ResumeBearer := (relay.rotateLocked s retain fresh now).tokens

lemma rotatedTokens_fresh (retain : Option T) (fresh : T) (now : ℕ) :
    relay.rotatedTokens s retain fresh now fresh=some ⟨s,now+resumeTTL⟩ :=
  update_self ..

lemma deleteToken_apply (tokens : T → Option ResumeBearer) (token : Option T) (t : T) :
    deleteToken tokens token t = if token=some t then none else tokens t := by
  unfold deleteToken
  cases token with
  | none => rfl
  | some token =>
    dsimp only
    rw [update_apply]
    by_cases ht : t=token
    · rw [if_pos ht,if_pos (by rw [ht])]
    · rw [if_neg ht,if_neg fun heq=>ht (Option.some.inj heq).symm]

lemma rotatedTokens_of_ne {retain : Option T} {fresh t : T} {now : ℕ} (ht : t≠fresh) :
    relay.rotatedTokens s retain fresh now t =
      if ((relay.webSessions s).token=some t ∨ (relay.webSessions s).previousToken=some t) ∧
        retain≠some t then none else relay.tokens t := by
  unfold rotatedTokens rotateLocked
  dsimp only
  rw [update_of_ne ht]
  by_cases hfirst : (relay.webSessions s).token=retain
  all_goals
    by_cases hsecond : (relay.webSessions s).previousToken=retain
    all_goals simp only [hfirst,hsecond,if_true,if_false,deleteToken_apply]
    all_goals grind

/-- `openControl` has taken the session over for the connection. -/
structure TakesOver (relay relay' : Relay T A) (k s : ℕ) (client : A) (token : Option T)
    (fresh : T) (now : ℕ) : Prop where
  session : relay'.webSessions s = { relay.webSessions s with
    token := some fresh
    previousToken := token
    tokenPending := token≠none
    generation := (relay.webSessions s).generation+1
    controller := some k
    client := client
    commands := none }
  others : ∀ j, j≠s → relay'.webSessions j=relay.webSessions j
  conn : relay'.conns k = .control s ((relay.webSessions s).generation+1) false
  /-- The previous controller is cancelled. -/
  conns : ∀ j, j≠k → relay'.conns j = if (relay.webSessions s).controller=some j then
    (relay.cancel j).conns j else relay.conns j
  tokens : relay'.tokens=relay.rotatedTokens s token fresh now
  perIP : relay'.perIP = (relay.moveClient s client).perIP
  issued : relay'.issued = ⟨relay.issued.length,fresh,s,now⟩ :: relay.issued
  clock : relay'.clock=relay.clock
  made : relay'.made=relay.made
  sessions : relay'.sessions=relay.sessions
  sent : relay'.sent=relay.sent
  delivered : relay'.delivered=relay.delivered
  received : relay'.received=relay.received

lemma cancel_conns (relay : Relay T A) (k j : ℕ) :
    (relay.cancel k).conns j = if j=k then (relay.cancel k).conns k else relay.conns j := by
  unfold cancel
  cases hk : relay.conns k with
  | control s generation cancelled =>
    simp only [setConn_conns]
    split_ifs <;> rfl
  | _ => split_ifs with hj <;> simp [hj]

lemma cancel_eq (relay : Relay T A) (k : ℕ) : relay.cancel k = { relay with conns := (relay.cancel k).conns } := by
  unfold cancel
  cases relay.conns k <;> rfl

/-- Moving a session changes its address and the counts alone. -/
lemma moveClient_eq (relay : Relay T A) (s : ℕ) (client : A) :
    relay.moveClient s client = { relay with
      webSessions := update relay.webSessions s { relay.webSessions s with client := client }
      perIP := (relay.moveClient s client).perIP } := by
  unfold moveClient
  by_cases hclient : (relay.webSessions s).client=client
  · simp only [hclient,if_true]
    have hsame : { relay.webSessions s with client := client } = relay.webSessions s := by
      rw [← hclient]
    rw [hsame,update_eq_self]
  · simp only [hclient,if_false]
    rfl

/-- The session at its new address, with the previous controller cancelled. -/
lemma cancelled_eq (relay : Relay T A) (s : ℕ) (client : A) : ∃ conns : ℕ → Conn T A,
      ((relay.moveClient s client).webSessions s).controller.elim (relay.moveClient s client)
        (relay.moveClient s client).cancel = { relay with
          webSessions := update relay.webSessions s { relay.webSessions s with client := client }
          perIP := (relay.moveClient s client).perIP
          conns := conns } ∧
      ∀ j, conns j = if (relay.webSessions s).controller=some j then (relay.cancel j).conns j
        else relay.conns j := by
  rw [relay.moveClient_eq s client]
  simp only [update_self]
  cases hcontroller : (relay.webSessions s).controller with
  | none => exact ⟨relay.conns,rfl,fun j=>(if_neg (by simp)).symm⟩
  | some old =>
    refine ⟨(relay.cancel old).conns,?_,fun j=>?_⟩
    · rw [Option.elim_some,cancel_eq]
      unfold cancel
      cases relay.conns old <;> rfl
    · rw [cancel_conns]
      by_cases hj : j=old
      · rw [if_pos hj,if_pos (by rw [hj]),hj]
      · rw [if_neg hj,if_neg fun heq=>hj (Option.some.inj heq).symm]

lemma setSession_self (relay : Relay T A) (s : ℕ) : relay.setSession s (relay.webSessions s) = relay := by
  unfold Relay.setSession
  rw [update_eq_self]

lemma leave_cases (h : relay.leave k=some relay') :
    ∃ s generation cancelled, relay.conns k = .control s generation cancelled ∧
      relay' = (relay.setSession s { relay.webSessions s with
        controller := if (relay.webSessions s).controller=some k then none
          else (relay.webSessions s).controller }).setConn k (.leaving s generation) := by
  unfold leave at h
  split at h
  case h_2 => cases h
  case h_1 s generation cancelled hconn =>
    refine ⟨s,generation,cancelled,hconn,?_⟩
    rw [← Option.some.inj h]
    split_ifs
    · rfl
    · conv_lhs => rw [← setSession_self relay s]

lemma takeControl_cases {fresh : T} (h : relay.takeControl k fresh=some relay') :
    ∃ s client token now, relay.conns k = .attached s client token now ∧
      ((relay.refuses s client token now=true ∧ relay'=relay.setConn k (.refused s now)) ∨
        (relay.refuses s client token now=false ∧ relay.isNew fresh=true ∧
          relay.TakesOver relay' k s client token fresh now)) := by
  unfold takeControl at h
  split at h
  case h_2 => cases h
  case h_1 s client token now hconn =>
    refine ⟨s,client,token,now,hconn,?_⟩
    split_ifs at h with hrefused hnew
    · exact .inl ⟨hrefused,(Option.some.inj h).symm⟩
    · refine .inr ⟨by simpa using hrefused,by simpa using hnew,?_⟩
      obtain ⟨conns,hcancelled,hconns⟩ := relay.cancelled_eq s client
      dsimp only at h
      rw [hcancelled] at h
      have hout := Option.some.inj h
      exact {
        session := by
          rw [← hout]
          simp [rotateLocked]
        others := fun j hj=>by
          rw [← hout]
          simp [rotateLocked,hj]
        conn := by
          rw [← hout]
          simp [rotateLocked]
        conns := fun j hj=>by
          rw [← hout,← hconns]
          simp [rotateLocked,hj]
        tokens := by
          rw [← hout]
          simp [rotatedTokens,rotateLocked]
        perIP := by
          rw [← hout]
          rfl
        issued := by
          rw [← hout]
          rfl
        clock := by
          rw [← hout]
          rfl
        made := by
          rw [← hout]
          rfl
        sessions := by
          rw [← hout]
          rfl
        sent := by
          rw [← hout]
          rfl
        delivered := by
          rw [← hout]
          rfl
        received := by
          rw [← hout]
          rfl }

/-- A welcome or a ping has been sent, after a rotation when `rotated` is a new bearer. -/
structure Welcomes (relay relay' : Relay T A) (k s generation : ℕ) (rotated : Option (T × ℕ)) :
    Prop where
  conn : relay.conns k = .control s generation false
  controller : (relay.webSessions s).controller=some k
  isNew : ∀ {new}, rotated=some new → relay.isNew new.1=true ∧ (relay.webSessions s).tokenPending=false
  eq : ∃ event : ControlEvent T, ∃ serial,
    relay' = { rotated.elim relay fun new =>
        relay.rotateLocked s (relay.webSessions s).token new.1 new.2 with
      sent := (k,serial,event) :: relay.sent } ∧
    event.generation=generation ∧ event.resume = (relay'.webSessions s).token ∧
    serial = ((relay'.issued.find? fun issue=>issue.token=event.resume).map Issue.serial).getD 0

lemma welcome_cases {refresh : Bool} {fresh : T} {now : ℕ} (h : relay.welcome k refresh fresh now=some relay') :
    ∃ s generation rotated, relay.Welcomes relay' k s generation rotated ∧
      ∀ new, rotated=some new → new = (fresh,now) := by
  unfold welcome at h
  split at h
  case h_2 => cases h
  case h_1 s generation hconn =>
    dsimp only at h
    split_ifs at h with hcontroller hnew hrefresh
    · refine ⟨s,generation,some (fresh,now),⟨hconn,by simpa using hcontroller,?_,?_⟩,?_⟩
      · intro new heq
        cases heq
        simp only [hrefresh,Bool.true_and,Bool.not_eq_true',Bool.not_eq_false] at hnew
        rw [Bool.and_eq_true,Bool.not_eq_true'] at hrefresh
        exact ⟨hnew,hrefresh.2⟩
      · exact ⟨_,_,(Option.some.inj h).symm,rfl,by rw [← Option.some.inj h], by rw [← Option.some.inj h]⟩
      · rintro new heq
        exact (Option.some.inj heq).symm
    · refine ⟨s,generation,none,⟨hconn,by simpa using hcontroller,?_,?_⟩,?_⟩
      · intro new heq
        cases heq
      · exact ⟨_,_,(Option.some.inj h).symm,rfl,by rw [← Option.some.inj h], by rw [← Option.some.inj h]⟩
      · intro new heq
        cases heq

end Relay

variable {relay relay' : Relay T A}

/-- A control connection opens on a connection that does nothing yet. -/
lemma Action.run_controlSession {k now : ℕ} {client : A} {token : Option T}
    (h : (Action.controlSession k client token now).run relay=some relay') :
    relay.conns k = .idle ∧ relay.controlSession k client token now=some relay' := by
  unfold Action.run at h
  dsimp only at h
  split at h
  · next hconn => exact ⟨hconn,h⟩
  · cases h

lemma Action.run_playSession {p generation now : ℕ} {bound : Option ℕ} {resume : T}
    (h : (Action.playSession p bound resume generation now).run relay=some relay') :
    relay.conns p = .idle ∧ relay.playSession p bound resume generation now=some relay' := by
  unfold Action.run at h
  dsimp only at h
  split at h
  · next hconn => exact ⟨hconn,h⟩
  · cases h

/-- A message reaches the browser of its controller's session. -/
lemma Action.run_deliver {k serial : ℕ} {event : ControlEvent T}
    (h : (Action.deliver (k,serial,event)).run relay=some relay') :
    (k,serial,event) ∈ relay.sent ∧ ∃ s generation, (relay.conns k).controls=some (s,generation) ∧
        relay.deliver serial event s=some relay' := by
  unfold Action.run at h
  dsimp only at h
  split_ifs at h with hsent
  · obtain ⟨control,hcontrol,hrun⟩ := Option.bind_eq_some_iff.1 h
    exact ⟨hsent,control.1,control.2,hcontrol,hrun⟩

lemma Relay.step_run {a : Action T A} (h : relay.step a=some relay') :
    a.run relay=some relay' ∧ ∀ now, a.now=some now → now ≤ relay.clock := by
  unfold Relay.step at h
  split_ifs at h with htime
  refine ⟨h,fun now hnow=>?_⟩
  rw [hnow] at htime
  simpa using htime

end Cinnabar.Webrelay
