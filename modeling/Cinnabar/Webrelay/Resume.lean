import Cinnabar.Webrelay.Turns

/-! # Resuming a session -/

namespace Cinnabar.Webrelay

open Option

variable {T A : Type} [DecidableEq T] [DecidableEq A]

namespace Relay

variable {relay relay' : Relay T A} {b k s : ℕ} {fresh : T}

/-- A takeover changes no other controller's generation, and no other pending call. -/
lemma Turned.takesOver (h : relay.Turned b) {client : A} {token : Option T} {now : ℕ}
    (hconn : relay.conns k = .attached s client token now)
    (hrefuses : relay.refuses s client token now=false)
    (hnewest : s=b → ∀ t, token=some t → ∃ serial, relay.received b=some (serial,t))
    (htakes : relay.TakesOver relay' k s client token fresh now) :
    relay'.Issues b ∧ relay'.Messages b := by
  obtain ⟨hs,-,-⟩ := refuses_eq_false hrefuses
  have hopen : (relay.conns k).opening=some (s,token,now) := by
    rw [hconn]
    rfl
  have hphase : ∀ j, j≠k → (relay'.conns j).controls = (relay.conns j).controls ∧
      (relay'.conns j).opening = (relay.conns j).opening := by
    intro j hj
    rw [htakes.conns j hj]
    split_ifs with hold
    · unfold cancel
      rw [(h.ok.controllers.current hold).1]
      simp [Conn.controls,Conn.opening]
    · exact ⟨rfl,rfl⟩
  have hself : (relay'.conns k).opening=none := by
    rw [htakes.conn]
    rfl
  constructor
  · refine h.issues.rotated h.ok token fresh hs (h.issues.opened hopen)
      (fun hsb {n r} hr=>?_) (fun hempty=>?_) (fun {j time} hj=>?_) (fun {j o} hj=>?_)
      (fun {j i generation} hi hj=>?_) ?_ htakes.others htakes.issued htakes.clock htakes.made
      htakes.sessions htakes.delivered htakes.received
    · cases htoken : token with
      | none =>
        rw [htoken,hsb] at hopen
        rw [h.issues.received_fresh hopen] at hr
        cases hr
      | some t =>
        obtain ⟨serial,ht⟩ := hnewest hsb t htoken
        rw [ht] at hr
        cases hr
        rfl
    · have hcounted : k ∈ (relay.webSessions s).attached := h.ok.controllers.counted.2 (by rw [hconn]; rfl)
      rw [hempty] at hcounted
      exact absurd hcounted (Finset.notMem_empty k)
    · by_cases hjk : j=k
      · rw [hjk,hself] at hj
        cases hj
      · rw [(hphase j hjk).2] at hj
        cases htoken : token with
        | none =>
          rw [htoken] at hopen
          exact hjk (h.issues.single hj hopen)
        | some t =>
          obtain ⟨hnone,hnone',-⟩ := h.issues.fresh hj
          have howns := h.ok.bearers.retains hrefuses t htoken
          unfold Owns at howns
          rw [hnone,hnone'] at howns
          simp at howns
    · by_cases hjk : j=k
      · rw [hjk,hself] at hj
        cases hj
      · exact (hphase j hjk).2.symm.trans hj
    · by_cases hjk : j=k
      · rw [hjk,htakes.conn] at hj
        cases hj
        exact absurd rfl hi
      · exact (hphase j hjk).1.symm.trans hj
    · rw [htakes.session]
      exact ⟨rfl,rfl,fun hpending=>by simpa using hpending,rfl,rfl⟩
  · constructor
    · intro j m e hm
      rw [htakes.sent] at hm
      obtain ⟨i,hi,hspec,hresume,generation,hcontrols⟩ := h.messages.sent hm
      have hjk : j≠k := by
        rintro rfl
        rw [hconn] at hcontrols
        cases hcontrols
      rw [htakes.issued,(hphase j hjk).1]
      exact ⟨i,.tail _ hi,hspec,hresume,generation,hcontrols⟩
    · intro j m e t hm hj ht
      rw [htakes.sent] at hm
      obtain ⟨_,_,-,-,_,hcontrols⟩ := h.messages.sent hm
      have hjk : j≠k := by
        rintro rfl
        rw [hconn] at hcontrols
        cases hcontrols
      rw [(hphase j hjk).1] at hj
      have hi : b≠s := by
        rintro rfl
        have hle := h.ok.controllers.bounded hj
        rw [htakes.session] at hle
        exact absurd hle (Nat.not_succ_le_self _)
      unfold Owns
      rw [htakes.others b hi] at hj ⊢
      rw [htakes.received]
      exact h.messages.current hm hj ht

/-- The number a welcome carries is its bearer's. -/
lemma Issues.serial_eq (h : relay.Issues b) (hok : relay.Ok) {t : T} (ht : (relay.webSessions s).token=some t) :
    ∃ i ∈ relay.issued, i.token=t ∧ i.session=s ∧
      ((relay.issued.find? fun issue=>issue.token=some t).map Issue.serial).getD 0 =
        i.serial := by
  obtain ⟨i,hi,htoken,hsession,-⟩ := h.latest ht
  refine ⟨i,hi,htoken,hsession,?_⟩
  cases hfind : relay.issued.find? fun issue=>issue.token=some t with
  | none =>
    rw [List.find?_eq_none] at hfind
    exact absurd (by simp [htoken]) (hfind i hi)
  | some found =>
    have hfound := List.find?_some hfind
    have hsame := hok.bearers.issue_eq (List.mem_of_find?_eq_some hfind) hi (by rw [htoken]; simpa using hfound)
    rw [hsame]
    rfl

variable {event : ControlEvent T}

/-- A welcome carries the current bearer to its controller. -/
lemma Turned.send (h : relay.Turned b) {generation serial : ℕ} (hconn : relay.conns k = .control s generation false)
    (hresume : event.resume = (relay.webSessions s).token)
    (hserial : serial = ((relay.issued.find? fun issue=>issue.token=event.resume).map Issue.serial).getD 0) :
    ({ relay with sent := (k,serial,event) :: relay.sent } : Relay T A).Messages b := by
  have hcontrols : (relay.conns k).controls=some (s,generation) := by
    rw [hconn]
    rfl
  obtain ⟨t,ht⟩ := ne_none_iff_exists'.1 (h.issues.controlled hcontrols)
  obtain ⟨i,hi,htoken,hsession,hfind⟩ := h.issues.serial_eq h.ok ht
  rw [hresume,ht] at hserial
  constructor
  · intro j m e hm
    rcases List.mem_cons.1 hm with heq | hm
    · cases heq
      refine ⟨i,hi,(hserial.trans hfind).symm,?_,generation,?_⟩
      · rw [hresume,ht,htoken]
      · rw [hsession]
        exact hcontrols
    · exact h.messages.sent hm
  · intro j m e t' hm hj ht'
    rcases List.mem_cons.1 hm with heq | hm
    · cases heq
      have hboth := hcontrols.symm.trans hj
      cases hboth
      exact .inl (.inl (hresume.symm.trans ht'))
    · exact h.messages.current hm hj ht'

/-- A ping rotates only after the browser has received the current bearer. -/
lemma Turned.rotates (h : relay.Turned b) {generation now : ℕ}
    (hconn : relay.conns k = .control s generation false) (hnow : now ≤ relay.clock)
    (hnew : relay.isNew fresh=true) (hpending : (relay.webSessions s).tokenPending=false) :
    (relay.rotateLocked s (relay.webSessions s).token fresh now).Issues b ∧
      (relay.rotateLocked s (relay.webSessions s).token fresh now).Messages b := by
  have hcontrols : (relay.conns k).controls=some (s,generation) := by
    rw [hconn]
    rfl
  have hs := (h.ok.controllers.current (h.ok.controllers.running hconn).1).2
  obtain ⟨t,ht⟩ := ne_none_iff_exists'.1 (h.issues.controlled hcontrols)
  have hacknowledged : s=b → ∀ {r}, (relay.webSessions s).previousToken=some r → ∃ n, relay.received s=some (n,t) := by
    rintro rfl r hr
    exact h.issues.acknowledged hs hpending (by rw [hr]; exact some_ne_none r) ht
  have hothers : ∀ j, j≠s → (relay.rotateLocked s (relay.webSessions s).token fresh
      now).webSessions j=relay.webSessions j := fun j hj=>by simp [rotateLocked,hj]
  constructor
  · refine h.issues.rotated h.ok (relay.webSessions s).token fresh hs hnow
      (fun hsb {n r} hr=>?_) (fun hempty=>?_) (fun {j time} hj=>?_) (fun {j o} hj=>hj)
      (fun {j i generation} _ hj=>hj) ?_ hothers rfl rfl rfl rfl rfl rfl
    · subst hsb
      rcases (h.issues.received hr).2 hs with howns | howns
      · exact howns
      · obtain ⟨n',hr'⟩ := hacknowledged rfl howns
        rw [hr] at hr'
        cases hr'
        exact ht
    · have hcounted : k ∈ (relay.webSessions s).attached := h.ok.controllers.counted.2 (by rw [hconn]; rfl)
      rw [hempty] at hcounted
      exact absurd hcounted (Finset.notMem_empty k)
    · exact absurd (h.issues.fresh (k := j) hj).1 (by rw [ht]; exact some_ne_none t)
    · simp [rotateLocked]
  · constructor
    · intro j m e hm
      obtain ⟨i,hi,hspec⟩ := h.messages.sent hm
      exact ⟨i,.tail _ hi,hspec⟩
    · intro j m e t' hm hj ht'
      by_cases his : s=b
      · subst his
        have hold : (relay.conns j).controls=some (s,(relay.webSessions s).generation) := by
          have hgeneration : ((relay.rotateLocked s (relay.webSessions s).token fresh
              now).webSessions s).generation = (relay.webSessions s).generation := by
            simp [rotateLocked]
          rw [hgeneration] at hj
          exact hj
        rcases h.messages.current hm hold ht' with (howns | howns) | hnewer
        · refine .inl (.inr ?_)
          simp [rotateLocked,howns]
        · -- an older bearer than the one the browser has acknowledged
          obtain ⟨n,hr⟩ := hacknowledged rfl howns
          obtain ⟨issue,hissue,hserial,hresume,generation',hsent⟩ := h.messages.sent hm
          obtain ⟨⟨newest,hnewest,hn,htoken,hsession⟩,-⟩ := h.issues.received hr
          obtain ⟨last,hlast,hlasttoken,-,hmax⟩ := h.issues.latest ht
          have hsame := h.ok.bearers.issue_eq hnewest hlast (htoken.trans hlasttoken.symm)
          rw [hold] at hsent
          cases hsent
          refine .inr ⟨n,t,hr,?_⟩
          rw [← hserial,← hn,hsame]
          exact hmax hissue rfl
        · exact .inr hnewer
      · unfold Owns
        rw [hothers b fun hb=>his hb.symm] at hj ⊢
        exact h.messages.current hm hj ht'

lemma Turned.welcome (h : relay.Turned b) {refresh : Bool} {now : ℕ}
    (hnow : now ≤ relay.clock) (hrun : relay.welcome k refresh fresh now=some relay') :
    relay'.Issues b ∧ relay'.Messages b := by
  have hok' := h.ok.welcome hrun
  obtain ⟨s,generation,rotated,hwelcomes,hnew⟩ := welcome_cases hrun
  obtain ⟨event,serial,heq,-,hresume,hserial⟩ := hwelcomes.eq
  cases hrotated : rotated with
  | none =>
    rw [hrotated,elim_none] at heq
    subst heq
    refine ⟨⟨h.issues.serial,h.issues.unique,h.issues.issuedAt,h.issues.opened,h.issues.latest,
      h.issues.received,h.issues.delivered,h.issues.acknowledged,h.issues.fresh,h.issues.single,
      h.issues.controlled,h.issues.idle,h.issues.forgotten,h.issues.closed⟩,
      h.send hwelcomes.conn hresume hserial⟩
  | some new =>
    have hnow' : new.2 ≤ relay.clock := by
      rw [hnew new hrotated]
      exact hnow
    obtain ⟨hisNew,hpending⟩ := hwelcomes.isNew hrotated
    obtain ⟨hissues,hmessages⟩ := h.rotates hwelcomes.conn hnow' hisNew hpending
    rw [hrotated,elim_some] at heq
    have hturned : (relay.rotateLocked s (relay.webSessions s).token new.1 new.2).Turned b := by
      refine ⟨?_,hissues,hmessages⟩
      have hsame := hok'
      rw [heq] at hsame
      exact hsame.congr rfl rfl rfl rfl rfl rfl rfl
    subst heq
    refine ⟨⟨hissues.serial,hissues.unique,hissues.issuedAt,hissues.opened,hissues.latest,
      hissues.received,hissues.delivered,hissues.acknowledged,hissues.fresh,hissues.single,
      hissues.controlled,hissues.idle,hissues.forgotten,hissues.closed⟩,?_⟩
    exact hturned.send hwelcomes.conn hresume hserial

/-- What a browser has received after `issue` reached the browser of its session. -/
structure Receives (b : ℕ) (relay relay' : Relay T A) (issue : Issue T) : Prop where
  grows : ∀ {n r}, relay.received b=some (n,r) → ∃ n' r', relay'.received b=some (n',r') ∧ n≤n'
  newest : ∀ {n r}, relay'.received b=some (n,r) → relay.received b=some (n,r) ∨
    (n=issue.serial ∧ r=issue.token ∧ issue.session=b ∧ relay.Owns b issue.token)
  reached : issue.session=b → ∃ n r, relay'.received b=some (n,r) ∧ issue.serial≤n

lemma receives {issue : Issue T} (hresume : event.resume=some issue.token)
    (howns : issue.session=b → relay.Owns b issue.token ∨ ∃ n r, relay.received b=some (n,r) ∧ issue.serial≤n)
    (hrun : relay.deliver issue.serial event issue.session=some relay') :
    Receives b relay relay' issue := by
  unfold Relay.deliver at hrun
  rw [hresume] at hrun
  have hout := Option.some.inj hrun
  by_cases hb : issue.session=b
  · have hself : relay'.received b=some ((relay.received b).elim (issue.serial,issue.token)
        fun newest=>if newest.1 < issue.serial then (issue.serial,issue.token) else newest) := by
      rw [← hout,hb]
      exact Function.update_self ..
    cases hreceived : relay.received b with
    | none =>
      rw [hreceived,elim_none] at hself
      refine ⟨fun hr=>?_,fun hr=>?_,fun _=>⟨_,_,hself,le_rfl⟩⟩
      · rw [hreceived] at hr
        cases hr
      · rw [hself] at hr
        cases hr
        refine .inr ⟨rfl,rfl,hb,(howns hb).resolve_right ?_⟩
        rintro ⟨n,r,hr,-⟩
        rw [hreceived] at hr
        cases hr
    | some newest =>
      obtain ⟨n,r⟩ := newest
      rw [hreceived,elim_some] at hself
      by_cases hlt : n < issue.serial
      · rw [if_pos hlt] at hself
        refine ⟨fun hr=>?_,fun hr=>?_,fun _=>⟨_,_,hself,le_rfl⟩⟩
        · rw [hreceived] at hr
          cases hr
          exact ⟨_,_,hself,hlt.le⟩
        · rw [hself] at hr
          cases hr
          refine .inr ⟨rfl,rfl,hb,(howns hb).resolve_right ?_⟩
          rintro ⟨n',r',hr,hle⟩
          rw [hreceived] at hr
          cases hr
          exact absurd hle (not_le.2 hlt)
      · rw [if_neg hlt] at hself
        have hsame : relay'.received b=relay.received b := hself.trans hreceived.symm
        refine ⟨fun {n' r'} hr=>⟨n',r',hsame.trans hr,le_rfl⟩,fun hr=>.inl ?_, fun _=>⟨n,r,hself,not_lt.1 hlt⟩⟩
        rw [← hsame]
        exact hr
  · have hsame : relay'.received b=relay.received b := by
      rw [← hout]
      exact Function.update_of_ne (fun heq=>hb heq.symm) ..
    refine ⟨fun {n r} hr=>⟨n,r,hsame.trans hr,le_rfl⟩,fun hr=>.inl ?_,fun heq=>absurd heq hb⟩
    rw [← hsame]
    exact hr

/-- A message of the session's last controller reaches its browser. -/
lemma Turned.deliver (h : relay.Turned b) {serial generation : ℕ} (hsent : (k,serial,event) ∈ relay.sent)
    (hcontrols : (relay.conns k).controls=some (s,generation))
    (hlast : s=b → generation = (relay.webSessions b).generation)
    (hrun : relay.deliver serial event s=some relay') : relay'.Issues b ∧ relay'.Messages b := by
  obtain ⟨i,hi,hserial,hresume,generation',hsession⟩ := h.messages.sent hsent
  rw [hcontrols] at hsession
  cases hsession
  subst hserial
  have hreceives : Receives b relay relay' i := receives hresume (fun hb=>by
    refine h.messages.current hsent ?_ hresume
    rw [hcontrols,hlast hb,hb]) hrun
  unfold Relay.deliver at hrun
  rw [hresume] at hrun
  have hout := Option.some.inj hrun
  have hsame : relay'.webSessions=relay.webSessions ∧ relay'.sessions=relay.sessions ∧
      relay'.conns=relay.conns ∧ relay'.clock=relay.clock ∧ relay'.made=relay.made ∧
      relay'.sent=relay.sent ∧ relay'.delivered=i.token::relay.delivered ∧
      relay'.issued=relay.issued := by
    rw [← hout]
    exact ⟨rfl,rfl,rfl,rfl,rfl,rfl,rfl,rfl⟩
  obtain ⟨hwebSessions,hsessions,hconns,hclock,hmade,hsents,hdelivered,hissued⟩ := hsame
  constructor
  · constructor
    · rw [hissued]
      exact h.issues.serial
    · rw [hissued]
      exact h.issues.unique
    · rw [hissued,hclock,hmade]
      exact h.issues.issuedAt
    · rw [hconns,hclock]
      exact h.issues.opened
    · rw [hwebSessions,hissued]
      exact h.issues.latest
    · intro n r hr
      unfold Owns
      rw [hissued,hsessions,hwebSessions]
      rcases hreceives.newest hr with hold | ⟨rfl,rfl,hb,howns⟩
      · exact h.issues.received hold
      · exact ⟨⟨i,hi,rfl,rfl,hb⟩,fun _=>howns⟩
    · intro t ht
      rw [hdelivered,List.mem_cons] at ht
      rw [hissued]
      rcases ht with rfl | ht
      · exact ⟨i,hi,rfl,hreceives.reached⟩
      · obtain ⟨i',hi',htoken,hnewer⟩ := h.issues.delivered ht
        refine ⟨i',hi',htoken,fun hb=>?_⟩
        obtain ⟨n,r,hr,hle⟩ := hnewer hb
        obtain ⟨n',r',hr',hle'⟩ := hreceives.grows hr
        exact ⟨n',r',hr',hle.trans hle'⟩
    · intro t hb hpending hprevious ht
      rw [hsessions] at hb
      rw [hwebSessions] at hpending hprevious ht
      obtain ⟨n,hr⟩ := h.issues.acknowledged hb hpending hprevious ht
      obtain ⟨n',r',hr',hle⟩ := hreceives.grows hr
      refine ⟨n',?_⟩
      rcases hreceives.newest hr' with hold | ⟨rfl,rfl,hsession,-⟩
      · rw [hr] at hold
        cases hold
        exact hr'
      · -- nothing is newer than the current bearer
        obtain ⟨last,hlast',hlasttoken,-,hmax⟩ := h.issues.latest ht
        obtain ⟨⟨i',hi',hn,htoken,-⟩,-⟩ := h.issues.received hr
        have hcurrent := h.ok.bearers.issue_eq hi' hlast' (htoken.trans hlasttoken.symm)
        have heq : i=last := h.issues.unique hi hlast' (le_antisymm (hmax hi hsession) (by
          rw [← hcurrent,hn]
          exact hle))
        rw [hr',heq,hlasttoken]
    · rw [hconns,hwebSessions,hissued]
      exact h.issues.fresh
    · rw [hconns]
      exact h.issues.single
    · rw [hconns,hwebSessions]
      exact h.issues.controlled
    · rw [hwebSessions,hissued]
      exact h.issues.idle
    · rw [hissued,hsessions,hclock]
      exact h.issues.forgotten
    · rw [hsessions,hwebSessions]
      exact h.issues.closed
  · constructor
    · rw [hsents,hissued,hconns]
      exact h.messages.sent
    · intro j m e t hm hj ht
      rw [hsents] at hm
      rw [hconns,hwebSessions] at hj
      unfold Owns
      rw [hwebSessions]
      rcases h.messages.current hm hj ht with howns | ⟨n,r,hr,hle⟩
      · exact .inl howns
      · obtain ⟨n',r',hr',hle'⟩ := hreceives.grows hr
        exact .inr ⟨n',r',hr',hle.trans hle'⟩

lemma Turned.frame (h : relay.Turned b) (hok : relay'.Ok) (hframe : Frame b relay relay') :
    relay'.Turned b := ⟨hok,h.issues.frame hframe,h.messages.frame hframe⟩

lemma Turned.step (h : relay.Turned b) {a : Action T A} (hturn : InTurn b relay a)
    (hstep : relay.step a=some relay') : relay'.Turned b := by
  have hok := h.ok.step hstep
  obtain ⟨hrun,htime⟩ := step_run hstep
  cases a with
  | controlSession k client token now =>
    obtain ⟨hconn,hrun⟩ := Action.run_controlSession hrun
    cases token with
    | none =>
      obtain ⟨hissues,hmessages⟩ := h.create hconn (htime now rfl) hrun
      exact ⟨hok,hissues,hmessages⟩
    | some t =>
      obtain ⟨s,-,rfl⟩ := map_eq_some_iff.1 hrun
      refine h.frame hok (.setConn (by rw [hconn]; rfl) fun {o} ho=>.inr ?_)
      cases ho
      exact ⟨some_ne_none t,htime now rfl⟩
  | attachControl k => exact h.frame hok (.attachControl hrun)
  | takeControl k fresh =>
    obtain ⟨s,client,token,now,hconn,⟨-,rfl⟩ | ⟨hrefuses,-,htakes⟩⟩ := takeControl_cases hrun
    · exact h.frame hok (.setConn (by rw [hconn]; rfl) fun {o} ho=>by cases ho)
    · obtain ⟨hissues,hmessages⟩ := h.takesOver hconn hrefuses (fun hsb t ht=>by
        subst ht
        have hturn' : ResumesNewest b relay (relay.conns k) := hturn.2
        rw [hconn] at hturn'
        obtain ⟨newest,hnewest,heq⟩ := map_eq_some_iff.1 (hturn' hsb hrefuses)
        exact ⟨newest.1,by rw [hnewest,← heq]⟩) htakes
      exact ⟨hok,hissues,hmessages⟩
  | leave k => exact h.frame hok (.leave hrun)
  | detach k now => exact h.frame hok (.detach hturn.2 hrun)
  | welcome k refresh fresh now =>
    obtain ⟨hissues,hmessages⟩ := h.welcome (htime now rfl) hrun
    exact ⟨hok,hissues,hmessages⟩
  | acknowledge k token now => exact h.frame hok (h.issues.acknowledge h.ok hturn.1 hrun)
  | playSession p bound resume generation now =>
    obtain ⟨hconn,hrun⟩ := Action.run_playSession hrun
    exact h.frame hok (.playSession hconn hrun)
  | attachPlay p => exact h.frame hok (.attachPlay hrun)
  | beginPlay p => exact h.frame hok (.beginPlay hrun)
  | endPlay p => exact h.frame hok (.endPlay hrun)
  | applyAccount k op => exact h.frame hok (.applyAccount hrun)
  | finishSignIn s signedIn => exact h.frame hok (.finishSignIn hrun)
  | expire s now =>
    obtain ⟨hissues,hmessages⟩ := h.expire (htime now rfl) hrun
    exact ⟨hok,hissues,hmessages⟩
  | close s => exact h.frame hok (.close hrun)
  | deliver message =>
    obtain ⟨k,serial,event⟩ := message
    obtain ⟨hsent,s,generation,hcontrols,hrun⟩ := Action.run_deliver hrun
    have hturn' : LastController b relay (relay.conns k).controls := hturn.2
    rw [hcontrols] at hturn'
    obtain ⟨hissues,hmessages⟩ := h.deliver hsent hcontrols hturn' hrun
    exact ⟨hok,hissues,hmessages⟩
  | tick elapsed =>
    cases hrun
    exact h.frame hok (.tick elapsed)

end Relay

end Cinnabar.Webrelay
