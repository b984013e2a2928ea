import Cinnabar.Webrelay.Controllers

/-! # Every section keeps the relay consistent -/

namespace Cinnabar.Webrelay

variable {T A : Type} [DecidableEq T] [DecidableEq A]

namespace Relay

variable {relay relay' : Relay T A} {k s : ℕ}

/-- What holds between sections. -/
structure Ok (relay : Relay T A) : Prop where
  bearers : relay.Bearers
  perAddress : relay.PerAddress
  controllers : relay.Controllers

structure SameBearers (session session' : WebSession T A) : Prop where
  token : session'.token=session.token
  previousToken : session'.previousToken=session.previousToken
  client : session'.client=session.client

lemma SameBearers.refl (session : WebSession T A) : SameBearers session session := ⟨rfl,rfl,rfl⟩

section

variable (h : relay.Ok)
include h

variable {session : WebSession T A}

lemma Ok.moves {conn : Conn T A} (hsame : SameBearers (relay.webSessions s) session)
    (hmoves : relay.Moves ((relay.setSession s session).setConn k conn) k) :
    ((relay.setSession s session).setConn k conn).Ok where
  bearers := by
    refine h.bearers.congr rfl rfl rfl rfl fun j t=>?_
    unfold Owns
    by_cases hj : j=s
    · simp [hj,hsame.token,hsame.previousToken]
    · simp [hj]
  perAddress := by
    refine h.perAddress.congr rfl rfl fun j=>?_
    by_cases hj : j=s
    · simp [hj,hsame.client]
    · simp [hj]
  controllers := h.controllers.moves hmoves

/-- A session changes in what neither its bearers nor its connections depend on. -/
lemma Ok.setSession (hsame : SameBearers (relay.webSessions s) session)
    (hcontroller : session.controller = (relay.webSessions s).controller)
    (hgeneration : session.generation = (relay.webSessions s).generation)
    (hattached : session.attached = (relay.webSessions s).attached) :
    (relay.setSession s session).Ok where
  bearers := by
    refine h.bearers.congr rfl rfl rfl rfl fun j t=>?_
    unfold Owns
    by_cases hj : j=s
    · simp [hj,hsame.token,hsame.previousToken]
    · simp [hj]
  perAddress := by
    refine h.perAddress.congr rfl rfl fun j=>?_
    by_cases hj : j=s
    · simp [hj,hsame.client]
    · simp [hj]
  controllers := by
    refine h.controllers.congr rfl rfl rfl fun j=>?_
    by_cases hj : j=s
    · simp [hj,hcontroller,hgeneration,hattached]
    · simp [hj]

/-- Logs and the clock do not matter. -/
lemma Ok.congr (hwebSessions : relay'.webSessions=relay.webSessions)
    (hsessions : relay'.sessions=relay.sessions) (htokens : relay'.tokens=relay.tokens)
    (hperIP : relay'.perIP=relay.perIP) (hconns : relay'.conns=relay.conns)
    (hissued : relay'.issued=relay.issued) (hmade : relay'.made=relay.made) : relay'.Ok where
  bearers := by
    refine h.bearers.congr htokens hsessions hissued hmade fun j t=>?_
    unfold Owns
    rw [hwebSessions]
  perAddress := h.perAddress.congr hperIP hsessions fun j=>by rw [hwebSessions]
  controllers := h.controllers.congr hconns hmade hsessions fun j=>by simp [hwebSessions]

/-- A connection that neither was nor becomes a controller moves on by itself. -/
lemma Ok.setConn {conn : Conn T A} (hidle : ∀ s generation, relay.conns k ≠ .control s generation false)
    (hconn : ∀ s generation, conn ≠ .control s generation false)
    (hcontrols : conn.controls = (relay.conns k).controls)
    (hholds : ∀ j, (relay.conns k).holds=some j ↔ conn.holds=some j)
    (habout : ∀ j, conn.about=some j → j < relay.made) : (relay.setConn k conn).Ok := by
  have hmoves : relay.Moves ((relay.setSession 0 (relay.webSessions 0)).setConn k conn) k :=
    .of_step h.controllers hidle hconn hcontrols (fun j _=>hholds j) habout rfl rfl
      (fun _ _=>Iff.rfl) (h.controllers.counted.trans (hholds 0))
  have hok := h.moves (.refl _) hmoves
  rw [setSession_self] at hok
  exact hok

lemma Ok.controlSession {client : A} {token : Option T} {now : ℕ}
    (hidle : relay.conns k = .idle) (hrun : relay.controlSession k client token now=some relay') :
    relay'.Ok := by
  unfold Relay.controlSession at hrun
  cases token with
  | some token =>
    obtain ⟨s,hresume,rfl⟩ := Option.map_eq_some_iff.1 hrun
    refine h.setConn (by simp [hidle]) (by simp) (by rw [hidle]; rfl) (by rw [hidle]; exact fun _=>Iff.rfl) fun j hj=>?_
    cases hj
    exact h.bearers.made (h.bearers.resumes hresume).1
  | none =>
    split_ifs at hrun with hfull
    cases hrun
    rw [Bool.or_eq_true,not_or,decide_eq_true_eq,decide_eq_true_eq,not_le,not_le] at hfull
    have hunmade : relay.made ∉ relay.sessions := fun hin=>lt_irrefl _ (h.bearers.made hin)
    constructor
    · refine h.bearers.create rfl rfl rfl rfl (fun t ht=>?_) fun j hj t=>?_
      · unfold Owns at ht
        simp at ht
      · unfold Owns
        simp [hj]
    · exact h.perAddress.create hunmade hfull.2 rfl rfl (by simp) fun j hj=>by simp [hj]
    · exact h.controllers.create client now hidle (fun j=>by simp) rfl rfl (by simp) fun j hj=>by simp [hj]

lemma Ok.attachControl (hrun : relay.attachControl k=some relay') :
    relay'.Ok := by
  unfold Relay.attachControl at hrun
  split at hrun
  case h_2 => cases hrun
  case h_1 s client token now hconn =>
    dsimp only at hrun
    have hs := h.controllers.known (k := k) (s := s) (by rw [hconn]; rfl)
    split_ifs at hrun
    · cases hrun
      exact h.setConn (by simp [hconn]) (by simp) (by rw [hconn]; rfl) (by rw [hconn]; exact
        fun _=>Iff.rfl) fun j hj=>by cases hj
    · cases hrun
      refine h.moves ⟨rfl,rfl,rfl⟩ (.of_step h.controllers (by simp [hconn]) (by simp)
        (by rw [hconn]; rfl) (fun j hj=>?_) (fun j hj=>?_) rfl rfl (fun j hj=>?_) ?_)
      · simp [hconn,Conn.holds,hj.symm]
      · cases hj
        exact hs
      · simp [hj]
      · simp [Conn.holds]

end

/-- What `openControl` rechecks under the lock. -/
lemma refuses_eq_false {client : A} {token : Option T} {now : ℕ} (h : relay.refuses s client token now=false) :
    s ∈ relay.sessions ∧ (∀ t, token=some t → relay.resumeLocked t now=some s) ∧
      ((relay.webSessions s).client=client ∨ relay.perIP client < maxPerIP) := by
  unfold refuses at h
  rw [Bool.or_eq_false_iff,Bool.or_eq_false_iff] at h
  obtain ⟨⟨hlive,htoken⟩,hclient⟩ := h
  refine ⟨by simpa using hlive,?_,?_⟩
  · rintro t rfl
    simpa using htoken
  · rw [Bool.and_eq_false_iff,decide_eq_false_iff_not,decide_eq_false_iff_not,not_not, not_le] at hclient
    exact hclient

lemma Bearers.retains (h : relay.Bearers) {client : A} {token : Option T} {now : ℕ}
    (hrefuses : relay.refuses s client token now=false) :
    ∀ t, token=some t → relay.Owns s t :=
  fun t ht=>(h.resumes ((refuses_eq_false hrefuses).2.1 t ht)).2

section

variable (h : relay.Ok)
include h

lemma Ok.takeControl {fresh : T} (hrun : relay.takeControl k fresh=some relay') :
    relay'.Ok := by
  obtain ⟨s,client,token,now,hconn,⟨-,rfl⟩ | ⟨hrefuses,hnew,htakes⟩⟩ := takeControl_cases hrun
  · refine h.setConn (by simp [hconn]) (by simp) (by rw [hconn]; rfl) (by rw [hconn]; exact fun _=>Iff.rfl) fun j hj=>?_
    cases hj
    exact h.controllers.known (k := k) (by rw [hconn]; rfl)
  · obtain ⟨hs,-,hroom⟩ := refuses_eq_false hrefuses
    constructor
    · refine h.bearers.rotated token hs hnew (h.bearers.retains hrefuses) htakes.tokens htakes.sessions
        htakes.issued htakes.made (fun t=>?_) fun j hj t=>?_
      · unfold Owns
        rw [htakes.session]
      · unfold Owns
        rw [htakes.others j hj]
    · refine h.perAddress.move hs hroom htakes.perIP htakes.sessions ?_ fun j hj=>?_
      · rw [htakes.session]
      · rw [htakes.others j hj]
    · exact h.controllers.takesOver hconn hs htakes

lemma Ok.leave (hrun : relay.leave k=some relay') : relay'.Ok := by
  obtain ⟨s,generation,cancelled,hconn,hcleared⟩ := leave_cases hrun
  have hs := h.controllers.known (k := k) (s := s) (by rw [hconn]; rfl)
  rw [hcleared]
  refine h.moves ⟨rfl,rfl,rfl⟩ ⟨fun j hj=>by simp [hj],by simp [hconn,Conn.controls],
    fun j=>?_,fun j i hj=>?_,fun i=>?_,fun i hi=>?_,rfl,rfl,fun i g hi=>?_,
    fun i j=>?_⟩
  · by_cases hj : j=s
    · simp [hj]
    · simp [hj]
  · by_cases hi : i=s
    · simp [hi]
    · simp [hi]
  · have hsame : (((relay.setSession s { relay.webSessions s with
        controller := if (relay.webSessions s).controller=some k then none
          else (relay.webSessions s).controller }).setConn k (.leaving s generation)).webSessions
            i).attached = (relay.webSessions i).attached := by
      by_cases hi : i=s
      · simp [hi]
      · simp [hi]
    rw [hsame,h.controllers.counted,hconn]
    simp [Conn.holds]
  · simp only [setConn_conns,if_true,Conn.about,Option.some.injEq] at hi
    rw [← hi]
    exact hs
  · simp at hi
  · by_cases hi : i=s
    · rw [hi]
      by_cases hown : (relay.webSessions s).controller=some k
      · simp only [setConn_webSessions,setSession_webSessions,if_true,hown,setConn_conns, hconn]
        refine ⟨fun hj=>(by cases hj),fun hj=>?_⟩
        have hleft := hj.2 (Option.some.inj hj.1).symm
        cases hleft
      · simp only [setConn_webSessions,setSession_webSessions,if_true,hown,if_false]
        refine ⟨fun hj=>⟨hj,fun hjk=>?_⟩,fun hj=>hj.1⟩
        rw [hjk] at hj
        exact absurd hj hown
    · simp only [setConn_webSessions,setSession_webSessions,hi,if_false]
      refine ⟨fun hj=>⟨hj,fun hjk=>?_⟩,fun hj=>hj.1⟩
      rw [hjk] at hj
      have hrun' := (h.controllers.current hj).1
      rw [hconn] at hrun'
      cases hrun'
      exact absurd rfl hi

variable {now : ℕ}

/-- A connection that held an attachment without running gives it back. -/
lemma Ok.detachFrom {conn : Conn T A} (hidle : ∀ s generation, relay.conns k ≠ .control s generation false)
    (hconn : ∀ s generation, conn ≠ .control s generation false)
    (hcontrols : conn.controls = (relay.conns k).controls)
    (hheld : (relay.conns k).holds=some s) (hholds : conn.holds=none)
    (habout : ∀ j, conn.about=some j → j < relay.made) :
    ((relay.detachFrom k s now).setConn k conn).Ok := by
  refine h.moves ⟨rfl,rfl,rfl⟩ (.of_step h.controllers hidle hconn hcontrols (fun j hj=>?_)
    habout rfl rfl (fun j hj=>?_) ?_)
  · simp [hheld,hholds,hj.symm]
  · simp [hj]
  · simp [hholds]

lemma Ok.detach (hrun : relay.detach k now=some relay') :
    relay'.Ok := by
  unfold Relay.detach at hrun
  split at hrun
  case h_1 s opened hconn =>
    cases hrun
    have hdetached : ((relay.detachFrom k s opened).setConn k .ended).Ok := h.detachFrom
      (by simp [hconn]) (by simp) (by rw [hconn]; rfl) (by rw [hconn]; rfl) rfl
      fun j hj=>(nomatch hj)
    exact hdetached.setSession ⟨rfl,rfl,rfl⟩ rfl rfl rfl
  case h_2 s generation hconn =>
    cases hrun
    refine h.detachFrom (by simp [hconn]) (by simp) (by rw [hconn]; rfl) (by rw [hconn]; rfl) rfl fun j hj=>?_
    cases hj
    exact h.controllers.known (k := k) (by rw [hconn]; rfl)
  case h_3 s hconn =>
    cases hrun
    exact h.detachFrom (by simp [hconn]) (by simp) (by rw [hconn]; rfl) (by rw [hconn]; rfl) rfl fun j hj=>(nomatch hj)
  case h_4 => cases hrun

lemma Ok.welcome {refresh : Bool} {fresh : T} (hrun : relay.welcome k refresh fresh now=some relay') : relay'.Ok := by
  obtain ⟨s,generation,rotated,hwelcomes,-⟩ := welcome_cases hrun
  obtain ⟨event,serial,heq,-⟩ := hwelcomes.eq
  have hs := (h.controllers.current hwelcomes.controller).2
  rw [heq]
  cases hrotated : rotated with
  | none => exact h.congr rfl rfl rfl rfl rfl rfl rfl
  | some new =>
    obtain ⟨hnew,-⟩ := hwelcomes.isNew hrotated
    constructor
    · refine h.bearers.rotated (relay.webSessions s).token hs hnew
        (fun t ht=>.inl ht) rfl rfl rfl rfl (fun t=>?_) fun j hj t=>?_
      · unfold Owns
        simp [rotateLocked]
      · unfold Owns
        simp [rotateLocked,hj]
    · refine h.perAddress.congr rfl rfl fun j=>?_
      by_cases hj : j=s
      · simp [rotateLocked,hj]
      · simp [rotateLocked,hj]
    · refine h.controllers.congr rfl rfl rfl fun j=>?_
      by_cases hj : j=s
      · simp [rotateLocked,hj]
      · simp [rotateLocked,hj]

lemma Ok.acknowledge {token : T} (hrun : relay.acknowledge k token now=some relay') : relay'.Ok := by
  unfold Relay.acknowledge at hrun
  split at hrun
  case h_2 => cases hrun
  case h_1 s generation hconn =>
    dsimp only at hrun
    split_ifs at hrun
    cases hrun
    exact h.setSession ⟨rfl,rfl,rfl⟩ rfl rfl rfl

lemma Ok.playSession {bound : Option ℕ} {resume : T} {generation now : ℕ} (hidle : relay.conns k = .idle)
    (hrun : relay.playSession k bound resume generation now=some relay') : relay'.Ok := by
  obtain ⟨s,-,hrun⟩ := Option.bind_eq_some_iff.1 hrun
  obtain ⟨controller,hcontroller,hrun⟩ := Option.bind_eq_some_iff.1 hrun
  split at hrun
  case h_2 => cases hrun
  case h_1 =>
    split_ifs at hrun
    cases hrun
    refine h.setConn (by simp [hidle]) (by simp) (by rw [hidle]; rfl) (by rw [hidle]; exact fun _=>Iff.rfl) fun j hj=>?_
    cases hj
    exact h.bearers.made (h.controllers.current hcontroller).2

lemma Ok.attachPlay (hrun : relay.attachPlay k=some relay') : relay'.Ok := by
  unfold Relay.attachPlay at hrun
  split at hrun
  case h_2 => cases hrun
  case h_1 s controller hconn =>
    dsimp only at hrun
    have hs := h.controllers.known (k := k) (s := s) (by rw [hconn]; rfl)
    split_ifs at hrun
    · cases hrun
      exact h.setConn (by simp [hconn]) (by simp) (by rw [hconn]; rfl) (by rw [hconn]; exact
        fun _=>Iff.rfl) fun j hj=>by cases hj
    · cases hrun
      refine h.moves ⟨rfl,rfl,rfl⟩ (.of_step h.controllers (by simp [hconn]) (by simp)
        (by rw [hconn]; rfl) (fun j hj=>?_) (fun j hj=>?_) rfl rfl (fun j hj=>?_) ?_)
      · simp [hconn,Conn.holds,hj.symm]
      · cases hj
        exact hs
      · simp [hj]
      · simp [Conn.holds]

/-- A play that holds its attachment moves on without giving it back. -/
lemma Ok.plays {conn : Conn T A} {session : WebSession T A} (hsame : SameBearers (relay.webSessions s) session)
    (hcontroller : session.controller = (relay.webSessions s).controller)
    (hgeneration : session.generation = (relay.webSessions s).generation)
    (hattached : session.attached = (relay.webSessions s).attached)
    (hidle : ∀ s generation, relay.conns k ≠ .control s generation false)
    (hconn : ∀ s generation, conn ≠ .control s generation false)
    (hcontrols : conn.controls = (relay.conns k).controls)
    (hheld : (relay.conns k).holds=some s) (hholds : conn.holds=some s)
    (habout : conn.about=some s) : ((relay.setSession s session).setConn k conn).Ok := by
  refine h.moves hsame (.of_step h.controllers hidle hconn hcontrols (fun j hj=>?_)
    (fun j hj=>?_) hgeneration hcontroller (fun j hj=>?_) ?_)
  · rw [hheld,hholds]
  · rw [habout] at hj
    cases hj
    exact h.controllers.known (Conn.about_of_holds hheld)
  · rw [hattached]
  · rw [hattached,h.controllers.counted,hheld,hholds]

lemma Ok.beginPlay (hrun : relay.beginPlay k=some relay') : relay'.Ok := by
  unfold Relay.beginPlay at hrun
  split at hrun
  case h_2 => cases hrun
  case h_1 s controller hconn =>
    dsimp only at hrun
    split_ifs at hrun
    cases hrun
    exact h.plays ⟨rfl,rfl,rfl⟩ rfl rfl rfl (by simp [hconn]) (by simp) (by rw [hconn]; rfl)
      (by rw [hconn]; rfl) rfl rfl

lemma Ok.endPlay (hrun : relay.endPlay k=some relay') : relay'.Ok := by
  unfold Relay.endPlay at hrun
  split at hrun
  case h_1 s controller hconn =>
    cases hrun
    exact h.plays ⟨rfl,rfl,rfl⟩ rfl rfl rfl (by simp [hconn]) (by simp) (by rw [hconn]; rfl)
      (by rw [hconn]; rfl) rfl rfl
  case h_2 s controller hconn =>
    cases hrun
    refine h.setConn (by simp [hconn]) (by simp) (by rw [hconn]; rfl) (by rw [hconn]; exact fun _=>Iff.rfl) fun j hj=>?_
    cases hj
    exact h.controllers.known (k := k) (by rw [hconn]; rfl)
  case h_3 => cases hrun

lemma Ok.applyAccount {op : AccountOp} (hrun : relay.applyAccount k op=some relay') : relay'.Ok := by
  unfold Relay.applyAccount at hrun
  split at hrun
  case h_2 => cases hrun
  case h_1 s generation hconn =>
    cases op with
    | signIn =>
      dsimp only at hrun
      split_ifs at hrun
      · cases hrun
        exact h
      · cases hrun
        exact h.setSession ⟨rfl,rfl,rfl⟩ rfl rfl rfl
    | signOut =>
      dsimp only at hrun
      split_ifs at hrun
      cases hrun
      exact h.setSession ⟨rfl,rfl,rfl⟩ rfl rfl rfl

lemma Ok.finishSignIn {signedIn : Bool} (hrun : relay.finishSignIn s signedIn=some relay') : relay'.Ok := by
  unfold Relay.finishSignIn at hrun
  dsimp only at hrun
  split_ifs at hrun
  cases hrun
  exact h.setSession ⟨rfl,rfl,rfl⟩ rfl rfl rfl

lemma Ok.expire (hrun : relay.expire s now=some relay') :
    relay'.Ok := by
  unfold Relay.expire at hrun
  dsimp only at hrun
  split_ifs at hrun with hkept
  cases hrun
  rw [Bool.or_eq_true,Bool.or_eq_true,Bool.or_eq_true,not_or,not_or,not_or] at hkept
  obtain ⟨⟨⟨hlive,-⟩,hempty⟩,-⟩ := hkept
  have hs : s ∈ relay.sessions := by simpa using hlive
  exact ⟨h.bearers.forget hs rfl rfl rfl rfl fun j t=>Iff.rfl, h.perAddress.forget hs rfl rfl fun j=>rfl,
    h.controllers.forget rfl rfl rfl (by simpa using hempty) rfl⟩

lemma Ok.close (hrun : relay.close s=some relay') : relay'.Ok := by
  unfold Relay.close at hrun
  split_ifs at hrun
  cases hrun
  exact h.setSession ⟨rfl,rfl,rfl⟩ rfl rfl rfl

lemma Ok.deliver {serial : ℕ} {event : ControlEvent T}
    (hrun : relay.deliver serial event s=some relay') : relay'.Ok := by
  unfold Relay.deliver at hrun
  split at hrun
  · cases hrun
    exact h.congr rfl rfl rfl rfl rfl rfl rfl
  · cases hrun

end

lemma ok_new [Inhabited A] : (Relay.new : Relay T A).Ok where
  bearers := ⟨fun hbearer=>(nomatch hbearer),fun hs=>absurd hs (Finset.notMem_empty _),
    List.nodup_nil,fun hs=>absurd hs (Finset.notMem_empty _)⟩
  perAddress := ⟨fun _=>rfl,fun _=>Nat.zero_le _⟩
  controllers := ⟨fun hk=>(nomatch hk),fun hk=>(nomatch hk),fun hk=>(nomatch hk),
    fun hk=>(nomatch hk),⟨fun hk=>absurd hk (Finset.notMem_empty _),fun hk=>(nomatch hk)⟩,
    fun hk=>(nomatch hk)⟩

lemma Ok.step (h : relay.Ok) {a : Action T A} (hstep : relay.step a=some relay') :
    relay'.Ok := by
  replace hstep := (step_run hstep).1
  cases a with
  | controlSession k client token now =>
    obtain ⟨hconn,hrun⟩ := Action.run_controlSession hstep
    exact h.controlSession hconn hrun
  | attachControl k => exact h.attachControl hstep
  | takeControl k fresh => exact h.takeControl hstep
  | leave k => exact h.leave hstep
  | detach k now => exact h.detach hstep
  | welcome k refresh fresh now => exact h.welcome hstep
  | acknowledge k token now => exact h.acknowledge hstep
  | playSession p bound resume generation now =>
    obtain ⟨hconn,hrun⟩ := Action.run_playSession hstep
    exact h.playSession hconn hrun
  | attachPlay p => exact h.attachPlay hstep
  | beginPlay p => exact h.beginPlay hstep
  | endPlay p => exact h.endPlay hstep
  | applyAccount k op => exact h.applyAccount hstep
  | finishSignIn s signedIn => exact h.finishSignIn hstep
  | expire s now => exact h.expire hstep
  | close s => exact h.close hstep
  | deliver message =>
    obtain ⟨-,s,generation,-,hrun⟩ := Action.run_deliver hstep
    exact h.deliver hrun
  | tick elapsed =>
    cases hstep
    exact h.congr rfl rfl rfl rfl rfl rfl rfl

end Relay

lemma Reachable.ok [Inhabited A] {allowed : Relay T A → Action T A → Prop} {relay : Relay T A}
    (h : Reachable allowed relay) : relay.Ok := by
  induction h with
  | new => exact Relay.ok_new
  | step a _ _ hstep ih => exact ih.step hstep

end Cinnabar.Webrelay
