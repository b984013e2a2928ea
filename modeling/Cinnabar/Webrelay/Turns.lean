import Cinnabar.Webrelay.Browser

/-! # Browsers that take turns

Every section keeps what a browser can resume with, when the browsers take turns.
-/

namespace Cinnabar.Webrelay

open Finset

variable {T A : Type} [DecidableEq T] [DecidableEq A]

namespace Relay

variable {relay relay' : Relay T A} {b k s : ℕ} {session : WebSession T A}

variable {conn : Conn T A}

lemma Frame.moves (htoken : session.token = (relay.webSessions s).token)
    (hprevious : session.previousToken = (relay.webSessions s).previousToken)
    (hgeneration : session.generation = (relay.webSessions s).generation)
    (hpending : s=b → session.tokenPending=false → (relay.webSessions s).tokenPending=false ∨
        ∀ t, (relay.webSessions s).token=some t → ∃ n, relay.received s=some (n,t))
    (hattached : s=b → session.attached = ∅ → ((relay.webSessions s).attached = ∅ ∧
      session.idleSince = (relay.webSessions s).idleSince) ∨ relay.clock+resumeTTL ≤ session.idleSince+idleTTL)
    (hclosed : s ∈ relay.sessions → (relay.webSessions s).closed=false → session.closed=false)
    (hcontrols : conn.controls = (relay.conns k).controls)
    (hopening : ∀ {o}, conn.opening=some o → (relay.conns k).opening=some o ∨ (o.2.1≠none ∧ o.2.2 ≤ relay.clock)) :
    Frame b relay ((relay.setSession s session).setConn k conn) where
  clock := le_rfl
  made := rfl
  sessions := rfl
  issued := rfl
  sent := rfl
  delivered := rfl
  received := rfl
  token := fun j=>by
    by_cases hj : j=s
    · simp [hj,htoken]
    · simp [hj]
  previousToken := fun j=>by
    by_cases hj : j=s
    · simp [hj,hprevious]
    · simp [hj]
  generation := fun j=>by
    by_cases hj : j=s
    · simp [hj,hgeneration]
    · simp [hj]
  tokenPending := fun hj=>by
    by_cases hjs : b=s
    · simp only [setConn_webSessions,setSession_webSessions,hjs,if_true] at hj ⊢
      exact hpending hjs.symm hj
    · simp only [setConn_webSessions,setSession_webSessions,hjs,if_false] at hj
      exact .inl hj
  attached := fun hj=>by
    by_cases hjs : b=s
    · simp only [setConn_webSessions,setSession_webSessions,hjs,if_true] at hj ⊢
      exact hattached hjs.symm hj
    · simp only [setConn_webSessions,setSession_webSessions,hjs,if_false] at hj ⊢
      exact .inl ⟨hj,trivial⟩
  closed := fun j hj hopen=>by
    by_cases hjs : j=s
    · simp only [setConn_webSessions,setSession_webSessions,hjs,if_true]
      rw [hjs] at hj hopen
      exact hclosed hj hopen
    · simp only [setConn_webSessions,setSession_webSessions,hjs,if_false]
      exact hopen
  controls := fun j=>by
    by_cases hj : j=k
    · simp [hj,hcontrols]
    · simp [hj]
  opening := fun {j o} hj=>by
    by_cases hjk : j=k
    · simp only [setConn_conns,hjk,if_true] at hj
      rw [hjk]
      exact hopening hj
    · exact .inl (by simpa [hjk] using hj)

lemma setConn_self (relay : Relay T A) (k : ℕ) : relay.setConn k (relay.conns k) = relay := by
  unfold Relay.setConn
  rw [Function.update_eq_self]

/-- What a session keeps besides its bearers. -/
structure SameSession (session session' : WebSession T A) : Prop where
  token : session'.token=session.token
  previousToken : session'.previousToken=session.previousToken
  generation : session'.generation=session.generation
  tokenPending : session'.tokenPending=session.tokenPending
  attached : session'.attached = ∅ → session.attached = ∅
  idleSince : session'.idleSince=session.idleSince

lemma Frame.same (h : SameSession (relay.webSessions s) session)
    (hclosed : s ∈ relay.sessions → (relay.webSessions s).closed=false → session.closed=false)
    (hcontrols : conn.controls = (relay.conns k).controls)
    (hopening : ∀ {o}, conn.opening=some o → (relay.conns k).opening=some o ∨ (o.2.1≠none ∧ o.2.2 ≤ relay.clock)) :
    Frame b relay ((relay.setSession s session).setConn k conn) :=
  .moves h.token h.previousToken h.generation (fun _ hpending=>.inl (h.tokenPending ▸ hpending))
    (fun _ hempty=>.inl ⟨h.attached hempty,h.idleSince⟩) hclosed hcontrols hopening

/-- A section that changes one session alone. -/
lemma Frame.setSession (h : SameSession (relay.webSessions s) session)
    (hclosed : s ∈ relay.sessions → (relay.webSessions s).closed=false → session.closed=false) :
    Frame b relay (relay.setSession s session) := by
  have hframe : Frame b relay ((relay.setSession s session).setConn 0 (relay.conns 0)) := .same h hclosed rfl .inl
  have hself : (relay.setSession s session).setConn 0 (relay.conns 0) =
      relay.setSession s session := setConn_self (relay.setSession s session) 0
  rw [hself] at hframe
  exact hframe

/-- A section that changes one connection alone. -/
lemma Frame.setConn (hcontrols : conn.controls = (relay.conns k).controls)
    (hopening : ∀ {o}, conn.opening=some o → (relay.conns k).opening=some o ∨ (o.2.1≠none ∧ o.2.2 ≤ relay.clock)) :
    Frame b relay (relay.setConn k conn) := by
  have hframe : Frame b relay ((relay.setSession 0 (relay.webSessions 0)).setConn k conn) :=
    .same ⟨rfl,rfl,rfl,rfl,id,rfl⟩ (fun _=>id) hcontrols hopening
  rw [setSession_self] at hframe
  exact hframe

lemma Frame.attachControl (hrun : relay.attachControl k=some relay') : Frame b relay relay' := by
  unfold Relay.attachControl at hrun
  split at hrun
  case h_2 => cases hrun
  case h_1 s client token now hconn =>
    dsimp only at hrun
    split_ifs at hrun
    · cases hrun
      exact .setConn (by rw [hconn]; rfl) fun {o} ho=>by cases ho
    · cases hrun
      exact .same ⟨rfl,rfl,rfl,rfl,fun hempty=>absurd hempty (insert_ne_empty _ _),rfl⟩
        (fun _=>id) (by rw [hconn]; rfl) fun {o} ho=>.inl (by rw [hconn]; exact ho)

lemma Frame.leave (hrun : relay.leave k=some relay') : Frame b relay relay' := by
  obtain ⟨s,generation,cancelled,hconn,hcleared⟩ := Relay.leave_cases hrun
  rw [hcleared]
  exact .same ⟨rfl,rfl,rfl,rfl,id,rfl⟩ (fun _=>id) (by rw [hconn]; rfl) fun {o} ho=>by cases ho

variable {now : ℕ}

/-- A connection gives its attachment back at a time that is not too far back. -/
lemma Frame.detachFrom (hnow : s=b → relay.clock+resumeTTL≤now+idleTTL)
    (hcontrols : conn.controls = (relay.conns k).controls)
    (hopening : ∀ {o}, conn.opening=some o → (relay.conns k).opening=some o ∨ (o.2.1≠none ∧ o.2.2 ≤ relay.clock)) :
    Frame b relay ((relay.detachFrom k s now).setConn k conn) := by
  refine .moves rfl rfl rfl (fun _=>.inl) (fun hs hempty=>.inr ?_) (fun _=>id) hcontrols hopening
  rw [if_pos hempty]
  exact hnow hs

lemma Frame.trans {relay'' : Relay T A} (h : Frame b relay relay') (h' : Frame b relay' relay'')
    (hclock : relay'.clock=relay.clock) : Frame b relay relay'' where
  clock := h.clock.trans h'.clock
  made := h'.made.trans h.made
  sessions := h'.sessions.trans h.sessions
  issued := h'.issued.trans h.issued
  sent := h'.sent.trans h.sent
  delivered := h'.delivered.trans h.delivered
  received := h'.received.trans h.received
  token := fun j=>(h'.token j).trans (h.token j)
  previousToken := fun j=>(h'.previousToken j).trans (h.previousToken j)
  generation := fun j=>(h'.generation j).trans (h.generation j)
  tokenPending := by
    intro hj
    rcases h'.tokenPending hj with hold | hreceived
    · exact h.tokenPending hold
    · rw [h.token,h.received] at hreceived
      exact .inr hreceived
  attached := by
    intro hj
    rcases h'.attached hj with ⟨hold,hsince⟩ | hlate
    · rw [hsince]
      exact h.attached hold
    · rw [hclock] at hlate
      exact .inr hlate
  closed := fun j hj hopen=>h'.closed j (by rw [h.sessions]; exact hj) (h.closed j hj hopen)
  controls := fun j=>(h'.controls j).trans (h.controls j)
  opening := by
    intro j o hj
    rcases h'.opening hj with hold | hnew
    · rcases h.opening hold with hold | hnew
      · exact .inl hold
      · exact .inr ⟨hnew.1,hnew.2.trans h'.clock⟩
    · exact .inr hnew

lemma Frame.detach (hturn : TakesTurns b relay (.detach k now))
    (hrun : relay.detach k now=some relay') : Frame b relay relay' := by
  replace hturn : (relay.conns k).holds=some b → relay.clock+resumeTTL ≤ (relay.conns k).detachTime now+idleTTL := hturn
  unfold Relay.detach at hrun
  split at hrun
  case h_1 s opened hconn =>
    cases hrun
    have hnow : s=b → relay.clock+resumeTTL≤opened+idleTTL := by
      rintro rfl
      rw [hconn] at hturn
      exact hturn rfl
    have hdetached : Frame b relay ((relay.detachFrom k s opened).setConn k .ended) :=
      .detachFrom hnow (by rw [hconn]; rfl) fun {o} ho=>by cases ho
    exact hdetached.trans (.setSession ⟨rfl,rfl,rfl,rfl,id,rfl⟩ fun _=>id) rfl
  case h_2 s generation hconn =>
    cases hrun
    have hnow : s=b → relay.clock+resumeTTL≤now+idleTTL := by
      rintro rfl
      rw [hconn] at hturn
      exact hturn rfl
    exact .detachFrom hnow (by rw [hconn]; rfl) fun {o} ho=>by cases ho
  case h_3 s hconn =>
    cases hrun
    have hnow : s=b → relay.clock+resumeTTL≤now+idleTTL := by
      rintro rfl
      rw [hconn] at hturn
      exact hturn rfl
    exact .detachFrom hnow (by rw [hconn]; rfl) fun {o} ho=>by cases ho
  case h_4 => cases hrun

/-- The browser echoes a bearer it received, and only the current one is accepted. -/
lemma Issues.acknowledge (h : relay.Issues b) (hok : relay.Ok) {token : T}
    (hpresents : Presents b relay (.acknowledge k token now))
    (hrun : relay.acknowledge k token now=some relay') : Frame b relay relay' := by
  unfold Relay.acknowledge at hrun
  split at hrun
  case h_2 => cases hrun
  case h_1 s generation hconn =>
    dsimp only at hrun
    split_ifs at hrun with hrefused
    cases hrun
    rw [Bool.or_eq_true,Bool.or_eq_true,not_or,not_or,decide_eq_true_eq,decide_eq_true_eq,
      decide_eq_true_eq,not_not,not_not,not_not] at hrefused
    obtain ⟨⟨-,htoken⟩,-⟩ := hrefused
    have hreceived : s=b → ∃ n, relay.received s=some (n,token) := by
      rintro rfl
      obtain ⟨i,hi,hitoken,hnewer⟩ := h.delivered (hpresents (by rw [hconn]; rfl))
      obtain ⟨i',hi',hitoken',hsession,hmax⟩ := h.latest htoken.symm
      have hsame := hok.bearers.issue_eq hi' hi (hitoken'.trans hitoken.symm)
      rw [hsame] at hsession hmax
      obtain ⟨n,r,hr,hle⟩ := hnewer hsession
      obtain ⟨⟨i'',hi'',hserial,hr',hsession'⟩,-⟩ := h.received hr
      have hnewest : i''=i := h.unique hi'' hi (le_antisymm (hmax hi'' hsession') (by rw [hserial]; exact hle))
      refine ⟨n,?_⟩
      rw [hr,← hr',hnewest,hitoken]
    have hframe : Frame b relay ((relay.setSession s { relay.webSessions s with
        tokenPending := false }).setConn k (relay.conns k)) := by
      refine .moves rfl rfl rfl (fun hs _=>.inr fun t ht=>?_) (fun _ hempty=>.inl ⟨hempty,rfl⟩) (fun _=>id) rfl .inl
      rw [← htoken] at ht
      cases ht
      exact hreceived hs
    have hself := setConn_self (relay.setSession s { relay.webSessions s with
      tokenPending := false }) k
    rw [(setSession_rest _ _ _).1] at hself
    rw [hself] at hframe
    exact hframe

lemma Frame.playSession {bound : Option ℕ} {resume : T} {generation now : ℕ} (hidle : relay.conns k = .idle)
    (hrun : relay.playSession k bound resume generation now=some relay') :
    Frame b relay relay' := by
  obtain ⟨s,-,hrun⟩ := Option.bind_eq_some_iff.1 hrun
  obtain ⟨controller,-,hrun⟩ := Option.bind_eq_some_iff.1 hrun
  split at hrun
  case h_2 => cases hrun
  case h_1 =>
    split_ifs at hrun
    cases hrun
    exact .setConn (by rw [hidle]; rfl) fun {o} ho=>by cases ho

lemma Frame.attachPlay (hrun : relay.attachPlay k=some relay') : Frame b relay relay' := by
  unfold Relay.attachPlay at hrun
  split at hrun
  case h_2 => cases hrun
  case h_1 s controller hconn =>
    dsimp only at hrun
    split_ifs at hrun
    · cases hrun
      exact .setConn (by rw [hconn]; rfl) fun {o} ho=>by cases ho
    · cases hrun
      exact .same ⟨rfl,rfl,rfl,rfl,fun hempty=>absurd hempty (insert_ne_empty _ _),rfl⟩
        (fun _=>id) (by rw [hconn]; rfl) fun {o} ho=>by cases ho

lemma Frame.beginPlay (hrun : relay.beginPlay k=some relay') : Frame b relay relay' := by
  unfold Relay.beginPlay at hrun
  split at hrun
  case h_2 => cases hrun
  case h_1 s controller hconn =>
    dsimp only at hrun
    split_ifs at hrun
    cases hrun
    exact .same ⟨rfl,rfl,rfl,rfl,id,rfl⟩ (fun _=>id) (by rw [hconn]; rfl) fun {o} ho=>by cases ho

lemma Frame.endPlay (hrun : relay.endPlay k=some relay') : Frame b relay relay' := by
  unfold Relay.endPlay at hrun
  split at hrun
  case h_1 s controller hconn =>
    cases hrun
    exact .same ⟨rfl,rfl,rfl,rfl,id,rfl⟩ (fun _=>id) (by rw [hconn]; rfl) fun {o} ho=>by cases ho
  case h_2 s controller hconn =>
    cases hrun
    exact .setConn (by rw [hconn]; rfl) fun {o} ho=>by cases ho
  case h_3 => cases hrun

lemma Frame.refl (relay : Relay T A) : Frame b relay relay := by
  have hframe : Frame b relay (relay.setSession 0 (relay.webSessions 0)) :=
    .setSession ⟨rfl,rfl,rfl,rfl,id,rfl⟩ fun _=>id
  rw [setSession_self] at hframe
  exact hframe

lemma Frame.applyAccount {op : AccountOp} (hrun : relay.applyAccount k op=some relay') :
    Frame b relay relay' := by
  unfold Relay.applyAccount at hrun
  split at hrun
  case h_2 => cases hrun
  case h_1 s generation hconn =>
    cases op with
    | signIn =>
      dsimp only at hrun
      split_ifs at hrun
      · cases hrun
        exact .refl relay
      · cases hrun
        exact .setSession ⟨rfl,rfl,rfl,rfl,id,rfl⟩ fun _=>id
    | signOut =>
      dsimp only at hrun
      split_ifs at hrun
      cases hrun
      exact .setSession ⟨rfl,rfl,rfl,rfl,id,rfl⟩ fun _=>id

lemma Frame.finishSignIn {signedIn : Bool} (hrun : relay.finishSignIn s signedIn=some relay') :
    Frame b relay relay' := by
  unfold Relay.finishSignIn at hrun
  dsimp only at hrun
  split_ifs at hrun
  cases hrun
  exact .setSession ⟨rfl,rfl,rfl,rfl,id,rfl⟩ fun _=>id

lemma Frame.close (hrun : relay.close s=some relay') : Frame b relay relay' := by
  unfold Relay.close at hrun
  split_ifs at hrun with hlive
  cases hrun
  refine .setSession ⟨rfl,rfl,rfl,rfl,id,rfl⟩ fun hs=>?_
  simp [hs] at hlive

lemma Frame.tick (elapsed : ℕ) : Frame b relay { relay with clock := relay.clock+elapsed } where
  clock := Nat.le_add_right _ _
  made := rfl
  sessions := rfl
  issued := rfl
  sent := rfl
  delivered := rfl
  received := rfl
  token := fun _=>rfl
  previousToken := fun _=>rfl
  generation := fun _=>rfl
  tokenPending := .inl
  attached := fun hempty=>.inl ⟨hempty,rfl⟩
  closed := fun _ _=>id
  controls := fun _=>rfl
  opening := .inl

/-- What holds between sections while browsers take turns. -/
structure Turned (b : ℕ) (relay : Relay T A) : Prop where
  ok : relay.Ok
  issues : relay.Issues b
  messages : relay.Messages b

lemma Issues.received_fresh (h : relay.Issues b)
    (hopening : (relay.conns k).opening=some (b,none,now)) : relay.received b=none := by
  by_contra hsome
  obtain ⟨⟨n,r⟩,hr⟩ := Option.ne_none_iff_exists'.1 hsome
  obtain ⟨⟨i,hi,-,-,hsession⟩,-⟩ := h.received hr
  exact (h.fresh hopening).2.2 hi hsession

lemma Turned.create (h : relay.Turned b) {client : A} (hidle : relay.conns k = .idle)
    (hnow : now ≤ relay.clock) (hrun : relay.controlSession k client none now=some relay') :
    relay'.Issues b ∧ relay'.Messages b := by
  unfold Relay.controlSession at hrun
  split_ifs at hrun
  have hout := Option.some.inj hrun
  have hissued : relay'.issued=relay.issued := by rw [← hout]; rfl
  have hreceived : relay'.received=relay.received := by rw [← hout]; rfl
  have hsessions : relay'.sessions=insert relay.made relay.sessions := by rw [← hout]; rfl
  have hclock : relay'.clock=relay.clock := by rw [← hout]; rfl
  have hself : relay'.webSessions relay.made = { client := client, idleSince := now } := by
    rw [← hout]
    simp
  have hothers : ∀ j, j≠relay.made → relay'.webSessions j=relay.webSessions j := by
    intro j hj
    rw [← hout]
    simp [hj]
  have hconns : ∀ j, relay'.conns j = if j=k then .found relay.made client none now
      else relay.conns j := by
    rw [← hout]
    simp
  have hcontrols : ∀ j, (relay'.conns j).controls = (relay.conns j).controls := by
    intro j
    rw [hconns]
    split_ifs with hj
    · rw [hj,hidle]
      rfl
    · rfl
  have hunmade : b=relay.made → relay.received b=none := by
    intro hb
    by_contra hsome
    obtain ⟨⟨n,r⟩,hr⟩ := Option.ne_none_iff_exists'.1 hsome
    obtain ⟨⟨i,hi,-,-,hsession⟩,-⟩ := h.issues.received hr
    exact absurd (hsession.trans hb) (h.issues.issuedAt hi).2.ne
  have hopening : ∀ {j i t time}, (relay'.conns j).opening=some (i,t,time) → (j=k ∧ i=relay.made ∧ t=none ∧ time=now) ∨
        (j≠k ∧ i≠relay.made ∧ (relay.conns j).opening=some (i,t,time)) := by
    intro j i t time hj
    rw [hconns] at hj
    split_ifs at hj with hjk
    · cases hj
      exact .inl ⟨hjk,rfl,rfl,rfl⟩
    · exact .inr ⟨hjk,(h.ok.controllers.known (Conn.about_of_opening hj)).ne,hj⟩
  have howns : ∀ {i t}, i≠relay.made → (relay'.Owns i t ↔ relay.Owns i t) := by
    intro i t hi
    unfold Owns
    rw [hothers i hi]
  constructor
  · constructor
    · rw [hissued]
      exact h.issues.serial
    · rw [hissued]
      exact h.issues.unique
    · intro i hi
      rw [hissued] at hi
      rw [← hout]
      exact ⟨(h.issues.issuedAt hi).1,(h.issues.issuedAt hi).2.trans (Nat.lt_succ_self _)⟩
    · intro j i t time hj
      rw [hclock]
      rcases hopening hj with ⟨-,-,-,rfl⟩ | ⟨-,-,hold⟩
      · exact hnow
      · exact h.issues.opened hold
    · intro i t ht
      by_cases hi : i=relay.made
      · rw [hi,hself] at ht
        cases ht
      · rw [hothers i hi] at ht
        rw [hissued]
        exact h.issues.latest ht
    · intro n r hr
      rw [hreceived] at hr
      have hi : b≠relay.made := by
        intro hb
        rw [hunmade hb] at hr
        cases hr
      rw [hissued,howns hi,hsessions,mem_insert]
      exact ⟨(h.issues.received hr).1,fun hlive=>(h.issues.received hr).2 (hlive.resolve_left hi)⟩
    · intro t ht
      rw [hissued,hreceived]
      rw [← hout] at ht
      exact h.issues.delivered ht
    · intro t hlive hpending hprevious ht
      by_cases hi : b=relay.made
      · rw [hi,hself] at ht
        cases ht
      · rw [hothers b hi] at hpending hprevious ht
        rw [hsessions,mem_insert] at hlive
        rw [hreceived]
        exact h.issues.acknowledged (hlive.resolve_left hi) hpending hprevious ht
    · intro j i time hj
      rw [hissued]
      rcases hopening hj with ⟨-,rfl,-,-⟩ | ⟨-,hi,hold⟩
      · rw [hself]
        exact ⟨rfl,rfl,fun {i} hi=>(h.issues.issuedAt hi).2.ne⟩
      · rw [hothers i hi]
        exact h.issues.fresh hold
    · intro j j' i time time' hj hj'
      rcases hopening hj with ⟨rfl,rfl,-,-⟩ | ⟨-,hi,hold⟩
      · rcases hopening hj' with ⟨rfl,-,-,-⟩ | ⟨-,hi',-⟩
        · rfl
        · exact absurd rfl hi'
      · rcases hopening hj' with ⟨-,hi',-,-⟩ | ⟨-,-,hold'⟩
        · exact absurd hi' hi
        · exact h.issues.single hold hold'
    · intro j i generation hj
      rw [hcontrols] at hj
      rw [hothers i (h.ok.controllers.known (Conn.about_of_controls hj)).ne]
      exact h.issues.controlled hj
    · intro issue hempty hissue hsession
      rw [hissued] at hissue
      have hi : b≠relay.made := by
        rw [← hsession]
        exact (h.issues.issuedAt hissue).2.ne
      rw [hothers b hi] at hempty ⊢
      exact h.issues.idle hempty hissue hsession
    · intro issue hissue hsession hgone
      rw [hissued] at hissue
      rw [hsessions,mem_insert,not_or] at hgone
      rw [hclock]
      exact h.issues.forgotten hissue hsession hgone.2
    · intro i hlive
      by_cases hi : i=relay.made
      · rw [hi,hself]
      · rw [hsessions,mem_insert] at hlive
        rw [hothers i hi]
        exact h.issues.closed (hlive.resolve_left hi)
  · constructor
    · intro j m e hm
      rw [hissued,hcontrols]
      rw [← hout] at hm
      exact h.messages.sent hm
    · intro j m e t hm hj ht
      rw [hcontrols] at hj
      have hi : b≠relay.made := (h.ok.controllers.known (Conn.about_of_controls hj)).ne
      rw [hothers b hi] at hj
      rw [howns hi,hreceived]
      rw [← hout] at hm
      exact h.messages.current hm hj ht

lemma Turned.expire (h : relay.Turned b) (hnow : now ≤ relay.clock)
    (hrun : relay.expire s now=some relay') : relay'.Issues b ∧ relay'.Messages b := by
  unfold Relay.expire at hrun
  dsimp only at hrun
  split_ifs at hrun with hkept
  cases hrun
  rw [Bool.or_eq_true,Bool.or_eq_true,Bool.or_eq_true,not_or,not_or,not_or] at hkept
  obtain ⟨⟨⟨-,-⟩,hempty⟩,hidle⟩ := hkept
  rw [decide_eq_true_eq,not_le] at hidle
  rw [decide_eq_true_eq,not_not] at hempty
  refine ⟨⟨h.issues.serial,h.issues.unique,h.issues.issuedAt,h.issues.opened,h.issues.latest,
    fun {n r} hr=>?_,h.issues.delivered,fun {t} hj=>?_,h.issues.fresh,h.issues.single,
    h.issues.controlled,h.issues.idle,fun {i} hi hsession hgone=>?_,fun {j} hj=>?_⟩,
    h.messages.sent,h.messages.current⟩
  · exact ⟨(h.issues.received hr).1,fun hj=>(h.issues.received hr).2 (mem_erase.1 hj).2⟩
  · exact h.issues.acknowledged (mem_erase.1 hj).2
  · by_cases hs : b=s
    · rw [← hs] at hempty hidle
      exact ((h.issues.idle hempty hi hsession).trans hidle.le).trans hnow
    · exact h.issues.forgotten hi hsession fun hlive=>hgone (mem_erase.2 ⟨hs,hlive⟩)
  · exact h.issues.closed (mem_erase.1 hj).2

end Relay

end Cinnabar.Webrelay
