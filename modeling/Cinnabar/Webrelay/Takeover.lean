import Cinnabar.Webrelay.Steps
import Mathlib.Logic.Relation

/-! # Taking a session over -/

namespace Cinnabar.Webrelay

variable {T A : Type} [DecidableEq T] [DecidableEq A]

namespace Relay

variable {relay relay' relay'' : Relay T A} {k s : ℕ}

structure SameControls (relay relay' : Relay T A) : Prop where
  made : relay.made ≤ relay'.made
  controls : ∀ j, (relay'.conns j).controls = (relay.conns j).controls
  generation : ∀ j, j < relay.made → (relay'.webSessions j).generation = (relay.webSessions j).generation

lemma SameControls.refl (relay : Relay T A) : SameControls relay relay :=
  ⟨le_rfl,fun _=>rfl,fun _ _=>rfl⟩

lemma SameControls.trans (h : SameControls relay relay') (h' : SameControls relay' relay'') :
    SameControls relay relay'' where
  made := h.made.trans h'.made
  controls := fun j=>(h'.controls j).trans (h.controls j)
  generation := fun j hj=>(h'.generation j (hj.trans_le h.made)).trans (h.generation j hj)

lemma SameControls.setConn {conn : Conn T A} (h : SameControls relay relay')
    (hconn : conn.controls = (relay'.conns k).controls) :
    SameControls relay (relay'.setConn k conn) := by
  refine h.trans ⟨le_rfl,fun j=>?_,fun _ _=>rfl⟩
  rw [setConn_conns]
  split_ifs with hj
  · rw [hj,hconn]
  · rfl

variable {session : WebSession T A}

lemma SameControls.setSession (h : SameControls relay relay')
    (hsession : session.generation = (relay'.webSessions s).generation) :
    SameControls relay (relay'.setSession s session) := by
  refine h.trans ⟨le_rfl,fun _=>rfl,fun j _=>?_⟩
  rw [setSession_webSessions]
  split_ifs with hj
  · rw [hj,hsession]
  · rfl

lemma SameControls.moves {conn : Conn T A} (hsession : session.generation = (relay.webSessions s).generation)
    (hconn : conn.controls = (relay.conns k).controls) :
    SameControls relay ((relay.setSession s session).setConn k conn) :=
  ((SameControls.refl relay).setSession hsession).setConn hconn

/-- Controllers keep their generations, and the new ones have greater ones. -/
structure Grows (relay relay' : Relay T A) : Prop where
  made : relay.made ≤ relay'.made
  keeps : ∀ {j s generation}, (relay.conns j).controls=some (s,generation) →
    (relay'.conns j).controls=some (s,generation)
  generation : ∀ {j}, j < relay.made → (relay.webSessions j).generation ≤ (relay'.webSessions j).generation
  greater : ∀ {j s generation}, s < relay.made → (relay'.conns j).controls=some (s,generation) →
    (relay.conns j).controls=some (s,generation) ∨ (relay.webSessions s).generation<generation

lemma Grows.refl (relay : Relay T A) : Grows relay relay := ⟨le_rfl,id,fun _=>le_rfl,fun _=>.inl⟩

lemma Grows.trans (h : Grows relay relay') (h' : Grows relay' relay'') : Grows relay relay'' where
  made := h.made.trans h'.made
  keeps := fun hj=>h'.keeps (h.keeps hj)
  generation := fun hj=>(h.generation hj).trans (h'.generation (hj.trans_le h.made))
  greater := by
    intro j s generation hs hj
    rcases h'.greater (hs.trans_le h.made) hj with hold | hlt
    · exact h.greater hs hold
    · exact .inr ((h.generation hs).trans_lt hlt)

lemma SameControls.grows (h : SameControls relay relay') : Grows relay relay' where
  made := h.made
  keeps := fun hj=>(h.controls _).trans hj
  generation := fun hj=>(h.generation _ hj).ge
  greater := fun _ hj=>.inl ((h.controls _).symm.trans hj)

lemma Ok.takesOver_grows (h : relay.Ok) {client : A} {token : Option T} {fresh : T} {now : ℕ}
    (hconn : relay.conns k = .attached s client token now)
    (htakes : relay.TakesOver relay' k s client token fresh now) : Grows relay relay' := by
  have hother : ∀ j, j≠k → (relay'.conns j).controls = (relay.conns j).controls := by
    intro j hj
    rw [htakes.conns j hj]
    split_ifs with hold
    · unfold cancel
      rw [(h.controllers.current hold).1]
      simp [Conn.controls]
    · rfl
  refine ⟨htakes.made.ge,fun {j i generation} hj=>?_,fun {j} _=>?_,fun {j i generation} _ hj=>?_⟩
  · rw [hother j]
    · exact hj
    · rintro rfl
      rw [hconn] at hj
      cases hj
  · by_cases hj : j=s
    · rw [hj,htakes.session]
      exact Nat.le_succ _
    · rw [htakes.others j hj]
  · by_cases hjk : j=k
    · rw [hjk,htakes.conn] at hj
      cases hj
      exact .inr (Nat.lt_succ_self _)
    · rw [hother j hjk] at hj
      exact .inl hj

variable {a : Action T A}

lemma Ok.sameControls (h : relay.Ok) (hstep : relay.step a=some relay')
    (htake : ∀ k fresh, a ≠ .takeControl k fresh) : SameControls relay relay' := by
  have hsame := SameControls.refl relay
  replace hstep := (step_run hstep).1
  cases a with
  | controlSession k client token now =>
    obtain ⟨hconn,hrun⟩ := Action.run_controlSession hstep
    unfold Relay.controlSession at hrun
    cases token with
    | some token =>
      obtain ⟨s,-,rfl⟩ := Option.map_eq_some_iff.1 hrun
      exact hsame.setConn (by rw [hconn]; rfl)
    | none =>
      split_ifs at hrun
      cases hrun
      refine SameControls.setConn ⟨Nat.le_succ _,fun _=>rfl,fun j hj=>?_⟩ (by
        change Conn.controls _ = (relay.conns k).controls
        rw [hconn]
        rfl)
      simp [hj.ne]
  | attachControl k =>
    replace hstep : relay.attachControl k=some relay' := hstep
    unfold Relay.attachControl at hstep
    split at hstep
    case h_2 => cases hstep
    case h_1 s client token now hconn =>
      dsimp only at hstep
      split_ifs at hstep
      · cases hstep
        exact hsame.setConn (by rw [hconn]; rfl)
      · cases hstep
        exact .moves rfl (by rw [hconn]; rfl)
  | takeControl k fresh => exact absurd rfl (htake k fresh)
  | leave k =>
    obtain ⟨s,generation,cancelled,hconn,hcleared⟩ := Relay.leave_cases hstep
    rw [hcleared]
    exact .moves rfl (by rw [hconn]; rfl)
  | detach k now =>
    replace hstep : relay.detach k now=some relay' := hstep
    unfold Relay.detach at hstep
    split at hstep
    case h_1 s opened hconn =>
      cases hstep
      have hdetached : SameControls relay ((relay.detachFrom k s opened).setConn k .ended) :=
        .moves rfl (by rw [hconn]; rfl)
      exact hdetached.setSession rfl
    case h_2 s generation hconn =>
      cases hstep
      exact .moves rfl (by rw [hconn]; rfl)
    case h_3 s hconn =>
      cases hstep
      exact .moves rfl (by rw [hconn]; rfl)
    case h_4 => cases hstep
  | welcome k refresh fresh now =>
    obtain ⟨s,generation,rotated,hwelcomes,-⟩ := welcome_cases hstep
    obtain ⟨event,serial,heq,-⟩ := hwelcomes.eq
    rw [heq]
    cases rotated with
    | none => exact ⟨le_rfl,fun _=>rfl,fun _ _=>rfl⟩
    | some new =>
      refine ⟨le_rfl,fun _=>rfl,fun j _=>?_⟩
      by_cases hj : j=s
      · simp [rotateLocked,hj]
      · simp [rotateLocked,hj]
  | acknowledge k token now =>
    replace hstep : relay.acknowledge k token now=some relay' := hstep
    unfold Relay.acknowledge at hstep
    split at hstep
    case h_2 => cases hstep
    case h_1 s generation hconn =>
      dsimp only at hstep
      split_ifs at hstep
      cases hstep
      exact hsame.setSession rfl
  | playSession p bound resume generation now =>
    obtain ⟨hconn,hrun⟩ := Action.run_playSession hstep
    obtain ⟨s,-,hrun⟩ := Option.bind_eq_some_iff.1 hrun
    obtain ⟨controller,-,hrun⟩ := Option.bind_eq_some_iff.1 hrun
    split at hrun
    case h_2 => cases hrun
    case h_1 =>
      split_ifs at hrun
      cases hrun
      exact hsame.setConn (by rw [hconn]; rfl)
  | attachPlay p =>
    replace hstep : relay.attachPlay p=some relay' := hstep
    unfold Relay.attachPlay at hstep
    split at hstep
    case h_2 => cases hstep
    case h_1 s controller hconn =>
      dsimp only at hstep
      split_ifs at hstep
      · cases hstep
        exact hsame.setConn (by rw [hconn]; rfl)
      · cases hstep
        exact .moves rfl (by rw [hconn]; rfl)
  | beginPlay p =>
    replace hstep : relay.beginPlay p=some relay' := hstep
    unfold Relay.beginPlay at hstep
    split at hstep
    case h_2 => cases hstep
    case h_1 s controller hconn =>
      dsimp only at hstep
      split_ifs at hstep
      cases hstep
      exact .moves rfl (by rw [hconn]; rfl)
  | endPlay p =>
    replace hstep : relay.endPlay p=some relay' := hstep
    unfold Relay.endPlay at hstep
    split at hstep
    case h_1 s controller hconn =>
      cases hstep
      exact .moves rfl (by rw [hconn]; rfl)
    case h_2 s controller hconn =>
      cases hstep
      exact hsame.setConn (by rw [hconn]; rfl)
    case h_3 => cases hstep
  | applyAccount k op =>
    replace hstep : relay.applyAccount k op=some relay' := hstep
    unfold Relay.applyAccount at hstep
    split at hstep
    case h_2 => cases hstep
    case h_1 s generation hconn =>
      cases op with
      | signIn =>
        dsimp only at hstep
        split_ifs at hstep
        · cases hstep
          exact hsame
        · cases hstep
          exact hsame.setSession rfl
      | signOut =>
        dsimp only at hstep
        split_ifs at hstep
        cases hstep
        exact hsame.setSession rfl
  | finishSignIn s signedIn =>
    replace hstep : relay.finishSignIn s signedIn=some relay' := hstep
    unfold Relay.finishSignIn at hstep
    dsimp only at hstep
    split_ifs at hstep
    cases hstep
    exact hsame.setSession rfl
  | expire s now =>
    replace hstep : relay.expire s now=some relay' := hstep
    unfold Relay.expire at hstep
    dsimp only at hstep
    split_ifs at hstep
    cases hstep
    exact ⟨le_rfl,fun _=>rfl,fun _ _=>rfl⟩
  | close s =>
    replace hstep : relay.close s=some relay' := hstep
    unfold Relay.close at hstep
    split_ifs at hstep
    cases hstep
    exact hsame.setSession rfl
  | deliver message =>
    obtain ⟨-,s,generation,-,hrun⟩ := Action.run_deliver hstep
    unfold Relay.deliver at hrun
    split at hrun
    · cases hrun
      exact ⟨le_rfl,fun _=>rfl,fun _ _=>rfl⟩
    · cases hrun
  | tick elapsed =>
    cases hstep
    exact ⟨le_rfl,fun _=>rfl,fun _ _=>rfl⟩

lemma Ok.grows (h : relay.Ok) (hstep : relay.step a=some relay') :
    Grows relay relay' := by
  by_cases htake : ∃ k fresh, a = .takeControl k fresh
  · obtain ⟨k,fresh,rfl⟩ := htake
    obtain ⟨s,client,token,now,hconn,⟨-,rfl⟩ | ⟨-,-,htakes⟩⟩ := takeControl_cases (step_run hstep).1
    · exact ((SameControls.refl relay).setConn (by rw [hconn]; rfl)).grows
    · exact h.takesOver_grows hconn htakes
  · exact (h.sameControls hstep fun k fresh heq=>htake ⟨k,fresh,heq⟩).grows

def Later : Relay T A → Relay T A → Prop :=
  Relation.ReflTransGen fun relay relay'=>∃ a : Action T A, relay.step a=some relay'

lemma Ok.later (h : relay.Ok) (hlater : Later relay relay') : relay'.Ok ∧ Grows relay relay' := by
  induction hlater with
  | refl => exact ⟨h,.refl relay⟩
  | tail _ hstep ih =>
    obtain ⟨a,hstep⟩ := hstep
    exact ⟨ih.1.step hstep,ih.2.trans (ih.1.grows hstep)⟩

/-- Whatever acts for a controller acts for one that runs. -/
lemma controller_running (hstep : relay.step a=some relay')
    (ha : a.controller relay=some k) : ∃ s generation, relay.conns k = .control s generation false := by
  replace hstep := (step_run hstep).1
  cases a with
  | welcome j refresh fresh now =>
    cases ha
    obtain ⟨s,generation,rotated,hwelcomes,-⟩ := welcome_cases hstep
    exact ⟨s,generation,hwelcomes.conn⟩
  | acknowledge j token now =>
    cases ha
    replace hstep : relay.acknowledge k token now=some relay' := hstep
    unfold Relay.acknowledge at hstep
    split at hstep
    case h_2 => cases hstep
    case h_1 s generation hconn => exact ⟨s,generation,hconn⟩
  | beginPlay p =>
    replace hstep : relay.beginPlay p=some relay' := hstep
    unfold Relay.beginPlay at hstep
    split at hstep
    case h_2 => cases hstep
    case h_1 s controller hconn =>
      unfold Action.controller at ha
      dsimp only at ha
      rw [hconn] at ha
      cases ha
      dsimp only at hstep
      split_ifs at hstep with hbusy
      rw [Bool.or_eq_true,Bool.or_eq_true,Bool.or_eq_true,not_or,not_or,not_or] at hbusy
      have hrunning := hbusy.1.1.1
      unfold isCancelled at hrunning
      split at hrunning
      · next s' generation cancelled hcontrol =>
        rw [Bool.not_eq_true] at hrunning
        rw [hrunning] at hcontrol
        exact ⟨s',generation,hcontrol⟩
      · exact absurd rfl hrunning
  | applyAccount j op =>
    cases ha
    replace hstep : relay.applyAccount k op=some relay' := hstep
    unfold Relay.applyAccount at hstep
    split at hstep
    case h_2 => cases hstep
    case h_1 s generation hconn => exact ⟨s,generation,hconn⟩
  | _ => cases ha

lemma Ok.replaced (h : relay.Ok) {generation : ℕ} (hk : (relay.conns k).controls=some (s,generation))
    (hold : generation < (relay.webSessions s).generation) (hlater : Later relay relay') (ha : a.controller relay'=some k) : relay'.step a=none := by
  obtain ⟨hok,hgrows⟩ := h.later hlater
  by_contra hsome
  obtain ⟨out,hstep⟩ := Option.ne_none_iff_exists'.1 hsome
  obtain ⟨s',generation',hrunning⟩ := controller_running hstep ha
  have hkept := hgrows.keeps hk
  rw [hrunning] at hkept
  cases hkept
  have hcurrent := (hok.controllers.running hrunning).2
  have hmade := h.controllers.known (Conn.about_of_controls hk)
  exact absurd (hgrows.generation hmade) (by omega)

lemma Ok.increases (h : relay.Ok) {k' generation generation' : ℕ}
    (hk : (relay.conns k).controls=some (s,generation)) (hlater : Later relay relay')
    (hnew : (relay.conns k').controls=none)
    (hk' : (relay'.conns k').controls=some (s,generation')) : generation<generation' := by
  have hmade := h.controllers.known (Conn.about_of_controls hk)
  rcases (h.later hlater).2.greater hmade hk' with hsame | hlt
  · rw [hnew] at hsame
    cases hsame
  · exact (h.controllers.bounded hk).trans_lt hlt

end Relay

end Cinnabar.Webrelay
