import Cinnabar.Webrelay.Takeover

/-! # What a browser can resume with -/

namespace Cinnabar.Webrelay

open List

variable {T A : Type} [DecidableEq T] [DecidableEq A]

/-- The session, the bearer and the time of an `openControl` that has yet to take effect. -/
def Conn.opening : Conn T A → Option (ℕ × Option T × ℕ)
  | .found session _ token now => some (session,token,now)
  | .attached session _ token now => some (session,token,now)
  | _ => none

lemma Conn.about_of_opening {conn : Conn T A} {s now : ℕ} {token : Option T}
    (h : conn.opening=some (s,token,now)) : conn.about=some s := by
  cases conn <;> cases h <;> rfl

def Conn.detachTime (now : ℕ) : Conn T A → ℕ
  | .refused _ opened => opened
  | _ => now

def Relay.newest (relay : Relay T A) (s : ℕ) : Option T := (relay.received s).map Prod.snd

/-- The browser of session `b` presents the newest bearer it has received, and echoes bearers it
received. -/
def Presents (b : ℕ) (relay : Relay T A) : Action T A → Prop
  | .controlSession _ _ (some t) _ =>
    (∃ i ∈ relay.issued, i.token=t ∧ i.session=b) → relay.newest b=some t
  | .acknowledge k t _ => (relay.conns k).controls.map Prod.fst=some b → t ∈ relay.delivered
  | _ => True

/-- A resume of `b` that takes effect presents the newest bearer even then. -/
def ResumesNewest (b : ℕ) (relay : Relay T A) : Conn T A → Prop
  | .attached s client (some t) now =>
    s=b → relay.refuses s client (some t) now=false → relay.newest b=some t
  | _ => True

/-- The controller is the last one of `b`, or another session's. -/
def LastController (b : ℕ) (relay : Relay T A) : Option (ℕ × ℕ) → Prop
  | some (s,generation) => s=b → generation = (relay.webSessions b).generation
  | none => True

/-- What is asked beyond that: the resumes of the browser take effect in turn, it takes nothing from
a controller that was replaced, and no end of its connections is dated more than
`idleTTL - resumeTTL` back. -/
def TakesTurns (b : ℕ) (relay : Relay T A) : Action T A → Prop
  | .takeControl k _ => ResumesNewest b relay (relay.conns k)
  | .deliver (k,_,_) => LastController b relay (relay.conns k).controls
  | .detach k now => (relay.conns k).holds=some b → relay.clock+resumeTTL ≤ (relay.conns k).detachTime now+idleTTL
  | _ => True

def InTurn (b : ℕ) (relay : Relay T A) (a : Action T A) : Prop :=
  Presents b relay a ∧ TakesTurns b relay a

namespace Relay

variable {relay relay' : Relay T A} {b k s : ℕ}

/-- What the issued bearers say of the sessions, and the received ones of session `b`. -/
structure Issues (b : ℕ) (relay : Relay T A) : Prop where
  serial : ∀ {i}, i ∈ relay.issued → i.serial < relay.issued.length
  unique : ∀ {i i'}, i ∈ relay.issued → i' ∈ relay.issued → i.serial=i'.serial → i=i'
  issuedAt : ∀ {i}, i ∈ relay.issued → i.now ≤ relay.clock ∧ i.session < relay.made
  opened : ∀ {k s t now}, (relay.conns k).opening=some (s,t,now) → now ≤ relay.clock
  /-- The current bearer is the last one issued. -/
  latest : ∀ {s t}, (relay.webSessions s).token=some t → ∃ i ∈ relay.issued, i.token=t ∧ i.session=s ∧
      ∀ {i'}, i' ∈ relay.issued → i'.session=s → i'.serial ≤ i.serial
  received : ∀ {n r}, relay.received b=some (n,r) →
    (∃ i ∈ relay.issued, i.serial=n ∧ i.token=r ∧ i.session=b) ∧ (b ∈ relay.sessions → relay.Owns b r)
  delivered : ∀ {t}, t ∈ relay.delivered → ∃ i ∈ relay.issued, i.token=t ∧
    (i.session=b → ∃ n r, relay.received b=some (n,r) ∧ i.serial≤n)
  /-- An acknowledged bearer has been received. -/
  acknowledged : ∀ {t}, b ∈ relay.sessions → (relay.webSessions b).tokenPending=false →
    (relay.webSessions b).previousToken≠none → (relay.webSessions b).token=some t →
    ∃ n, relay.received b=some (n,t)
  fresh : ∀ {k s now}, (relay.conns k).opening=some (s,none,now) →
    (relay.webSessions s).token=none ∧ (relay.webSessions s).previousToken=none ∧ ∀ {i}, i ∈ relay.issued → i.session≠s
  single : ∀ {k k' s now now'}, (relay.conns k).opening=some (s,none,now) →
    (relay.conns k').opening=some (s,none,now') → k=k'
  controlled : ∀ {k s generation}, (relay.conns k).controls=some (s,generation) → (relay.webSessions s).token≠none
  /-- A session is idle no longer than its bearers are valid. -/
  idle : ∀ {i}, (relay.webSessions b).attached = ∅ → i ∈ relay.issued → i.session=b →
    i.now+resumeTTL ≤ (relay.webSessions b).idleSince+idleTTL
  forgotten : ∀ {i}, i ∈ relay.issued → i.session=b → b ∉ relay.sessions → i.now+resumeTTL ≤ relay.clock
  closed : ∀ {s}, s ∈ relay.sessions → (relay.webSessions s).closed=false

structure Messages (b : ℕ) (relay : Relay T A) : Prop where
  sent : ∀ {k m e}, (k,m,e) ∈ relay.sent → ∃ i ∈ relay.issued, i.serial=m ∧
    e.resume=some i.token ∧ ∃ generation, (relay.conns k).controls=some (i.session,generation)
  /-- The current controller's events carry the session's bearers, or older ones. -/
  current : ∀ {k m e t}, (k,m,e) ∈ relay.sent →
    (relay.conns k).controls=some (b,(relay.webSessions b).generation) → e.resume=some t →
    relay.Owns b t ∨ ∃ n r, relay.received b=some (n,r) ∧ m≤n

/-- What every section but a rotation keeps. -/
structure Frame (b : ℕ) (relay relay' : Relay T A) : Prop where
  clock : relay.clock ≤ relay'.clock
  made : relay'.made=relay.made
  sessions : relay'.sessions=relay.sessions
  issued : relay'.issued=relay.issued
  sent : relay'.sent=relay.sent
  delivered : relay'.delivered=relay.delivered
  received : relay'.received=relay.received
  token : ∀ j, (relay'.webSessions j).token = (relay.webSessions j).token
  previousToken : ∀ j, (relay'.webSessions j).previousToken = (relay.webSessions j).previousToken
  generation : ∀ j, (relay'.webSessions j).generation = (relay.webSessions j).generation
  tokenPending : (relay'.webSessions b).tokenPending=false → (relay.webSessions b).tokenPending=false ∨
      ∀ t, (relay.webSessions b).token=some t → ∃ n, relay.received b=some (n,t)
  attached : (relay'.webSessions b).attached = ∅ → ((relay.webSessions b).attached = ∅ ∧
        (relay'.webSessions b).idleSince = (relay.webSessions b).idleSince) ∨
      relay.clock+resumeTTL ≤ (relay'.webSessions b).idleSince+idleTTL
  closed : ∀ j, j ∈ relay.sessions → (relay.webSessions j).closed=false → (relay'.webSessions j).closed=false
  controls : ∀ j, (relay'.conns j).controls = (relay.conns j).controls
  /-- Only a resume may open. -/
  opening : ∀ {j o}, (relay'.conns j).opening=some o → (relay.conns j).opening=some o ∨
    (o.2.1≠none ∧ o.2.2 ≤ relay'.clock)

/-- A session that has just been made was opening before. -/
lemma Frame.fresh (h : Frame b relay relay') {now : ℕ} (hk : (relay'.conns k).opening=some (s,none,now)) :
    (relay.conns k).opening=some (s,none,now) :=
  (h.opening hk).resolve_right fun hnew=>hnew.1 rfl

lemma Frame.owns (h : Frame b relay relay') (s : ℕ) (t : T) : relay'.Owns s t ↔ relay.Owns s t := by
  unfold Owns
  rw [h.token,h.previousToken]

lemma Issues.frame (h : relay.Issues b) (hframe : Frame b relay relay') : relay'.Issues b where
  serial := by
    rw [hframe.issued]
    exact h.serial
  unique := by
    rw [hframe.issued]
    exact h.unique
  issuedAt := by
    intro i hi
    rw [hframe.issued] at hi
    rw [hframe.made]
    exact ⟨(h.issuedAt hi).1.trans hframe.clock,(h.issuedAt hi).2⟩
  opened := by
    intro k s t now hk
    rcases hframe.opening hk with hold | hnew
    · exact (h.opened hold).trans hframe.clock
    · exact hnew.2
  latest := by
    intro s t ht
    rw [hframe.token] at ht
    rw [hframe.issued]
    exact h.latest ht
  received := by
    intro n r hr
    rw [hframe.received] at hr
    rw [hframe.issued,hframe.sessions,hframe.owns]
    exact h.received hr
  delivered := by
    intro t ht
    rw [hframe.delivered] at ht
    rw [hframe.issued,hframe.received]
    exact h.delivered ht
  acknowledged := by
    intro t hs hpending hprevious ht
    rw [hframe.sessions] at hs
    rw [hframe.previousToken] at hprevious
    rw [hframe.token] at ht
    rw [hframe.received]
    rcases hframe.tokenPending hpending with hold | hreceived
    · exact h.acknowledged hs hold hprevious ht
    · exact hreceived t ht
  fresh := by
    intro k s now hk
    rw [hframe.token,hframe.previousToken,hframe.issued]
    exact h.fresh (hframe.fresh hk)
  single := fun hk hk'=>h.single (hframe.fresh hk) (hframe.fresh hk')
  controlled := by
    intro k s generation hk
    rw [hframe.controls] at hk
    rw [hframe.token]
    exact h.controlled hk
  idle := by
    intro i hempty hi hs
    rw [hframe.issued] at hi
    rcases hframe.attached hempty with ⟨hold,hsince⟩ | hlate
    · rw [hsince]
      exact h.idle hold hi hs
    · exact (Nat.add_le_add_right (h.issuedAt hi).1 _).trans hlate
  forgotten := by
    intro i hi hs hgone
    rw [hframe.issued] at hi
    rw [hframe.sessions] at hgone
    exact (h.forgotten hi hs hgone).trans hframe.clock
  closed := by
    intro s hs
    rw [hframe.sessions] at hs
    exact hframe.closed s hs (h.closed hs)

lemma Messages.frame (h : relay.Messages b) (hframe : Frame b relay relay') : relay'.Messages b where
  sent := by
    intro k m e hm
    rw [hframe.sent] at hm
    rw [hframe.issued,hframe.controls]
    exact h.sent hm
  current := by
    intro k m e t hm hk ht
    rw [hframe.sent] at hm
    rw [hframe.controls,hframe.generation] at hk
    rw [hframe.owns,hframe.received]
    exact h.current hm hk ht

lemma Bearers.issue_eq (h : relay.Bearers) {i i' : Issue T} (hi : i ∈ relay.issued)
    (hi' : i' ∈ relay.issued) (heq : i.token=i'.token) : i=i' :=
  inj_on_of_nodup_map h.once hi hi' heq

lemma Issues.rotated (h : relay.Issues b) (hok : relay.Ok) (retain : Option T) (fresh : T) {now : ℕ}
    (hs : s ∈ relay.sessions) (hnow : now ≤ relay.clock)
    (hretain : s=b → ∀ {n r}, relay.received b=some (n,r) → retain=some r)
    (hattached : (relay.webSessions s).attached ≠ ∅)
    (hopening : ∀ {j now}, (relay'.conns j).opening≠some (s,none,now))
    (hopens : ∀ {j o}, (relay'.conns j).opening=some o → (relay.conns j).opening=some o)
    (hcontrols : ∀ {j i generation}, i≠s → (relay'.conns j).controls=some (i,generation) →
      (relay.conns j).controls=some (i,generation))
    (hself : (relay'.webSessions s).token=some fresh ∧ (relay'.webSessions s).previousToken=retain ∧
      ((relay'.webSessions s).tokenPending=false → retain=none) ∧
      (relay'.webSessions s).attached = (relay.webSessions s).attached ∧
      (relay'.webSessions s).closed = (relay.webSessions s).closed)
    (hothers : ∀ j, j≠s → relay'.webSessions j=relay.webSessions j)
    (hissued : relay'.issued = ⟨relay.issued.length,fresh,s,now⟩ :: relay.issued)
    (hclock : relay'.clock=relay.clock) (hmade : relay'.made=relay.made)
    (hsessions : relay'.sessions=relay.sessions) (hdelivered : relay'.delivered=relay.delivered)
    (hreceived : relay'.received=relay.received) : relay'.Issues b := by
  obtain ⟨htoken,hprevious,hpending,hattached',hclosed⟩ := hself
  constructor
  · intro i hi
    rw [hissued,mem_cons] at hi
    rw [hissued,length_cons]
    rcases hi with rfl | hi
    · exact Nat.lt_succ_self _
    · exact (h.serial hi).trans (Nat.lt_succ_self _)
  · intro i i' hi hi' heq
    rw [hissued,mem_cons] at hi hi'
    rcases hi with rfl | hi
    · rcases hi' with rfl | hi'
      · rfl
      · exact absurd heq (h.serial hi').ne'
    · rcases hi' with rfl | hi'
      · exact absurd heq (h.serial hi).ne
      · exact h.unique hi hi' heq
  · intro i hi
    rw [hissued,mem_cons] at hi
    rw [hclock,hmade]
    rcases hi with rfl | hi
    · exact ⟨hnow,hok.bearers.made hs⟩
    · exact h.issuedAt hi
  · intro j i t now hj
    rw [hclock]
    exact h.opened (hopens hj)
  · intro j t ht
    rw [hissued]
    by_cases hj : j=s
    · rw [hj,htoken] at ht
      cases ht
      refine ⟨_,.head _,rfl,hj.symm,fun {i'} hi' _=>?_⟩
      rcases mem_cons.1 hi' with rfl | hi'
      · exact le_rfl
      · exact (h.serial hi').le
    · rw [hothers j hj] at ht
      obtain ⟨i,hi,hspec,hsession,hmax⟩ := h.latest ht
      refine ⟨i,.tail _ hi,hspec,hsession,fun {i'} hi' hsession'=>?_⟩
      rcases mem_cons.1 hi' with rfl | hi'
      · exact absurd hsession'.symm hj
      · exact hmax hi' hsession'
  · intro n r hr
    rw [hreceived] at hr
    obtain ⟨⟨i,hi,hspec⟩,howns⟩ := h.received hr
    refine ⟨⟨i,by rw [hissued]; exact .tail _ hi,hspec⟩,fun hj=>?_⟩
    unfold Owns
    by_cases hjs : b=s
    · rw [hjs]
      exact .inr (hprevious.trans (hretain hjs.symm hr))
    · rw [hothers b hjs]
      rw [hsessions] at hj
      exact howns hj
  · intro t ht
    rw [hdelivered] at ht
    obtain ⟨i,hi,hspec⟩ := h.delivered ht
    rw [hissued,hreceived]
    exact ⟨i,.tail _ hi,hspec⟩
  · intro t hj hfalse hsome ht
    by_cases hjs : b=s
    · rw [hjs] at hfalse hsome
      exact absurd (hprevious.trans (hpending hfalse)) hsome
    · rw [hothers b hjs] at hfalse hsome ht
      rw [hsessions] at hj
      rw [hreceived]
      exact h.acknowledged hj hfalse hsome ht
  · intro j i now hj
    have hi : i≠s := by
      rintro rfl
      exact hopening hj
    obtain ⟨hnone,hnone',hissue⟩ := h.fresh (hopens hj)
    rw [hothers i hi,hissued]
    refine ⟨hnone,hnone',fun {i'} hi'=>?_⟩
    rcases mem_cons.1 hi' with rfl | hi'
    · exact hi.symm
    · exact hissue hi'
  · exact fun hj hj'=>h.single (hopens hj) (hopens hj')
  · intro j i generation hj
    by_cases hi : i=s
    · rw [hi,htoken]
      exact Option.some_ne_none _
    · rw [hothers i hi]
      exact h.controlled (hcontrols hi hj)
  · intro i hempty hi hsession
    by_cases hj : b=s
    · rw [hj,hattached'] at hempty
      exact absurd hempty hattached
    · rw [hothers b hj] at hempty ⊢
      rw [hissued,mem_cons] at hi
      rcases hi with rfl | hi
      · exact absurd hsession.symm hj
      · exact h.idle hempty hi hsession
  · intro i hi hsession hgone
    rw [hissued,mem_cons] at hi
    rw [hsessions] at hgone
    rw [hclock]
    rcases hi with rfl | hi
    · rw [← hsession] at hgone
      exact absurd hs hgone
    · exact h.forgotten hi hsession hgone
  · intro j hj
    rw [hsessions] at hj
    by_cases hjs : j=s
    · rw [hjs,hclosed]
      exact h.closed hs
    · rw [hothers j hjs]
      exact h.closed hj

/-- The newest bearer that the browser of `b` has received resumes the session until its expiry,
from its own address or one with room. -/
def Resumable (b : ℕ) (relay : Relay T A) : Prop :=
  ∀ {n i}, relay.received b=some (n,i.token) → i ∈ relay.issued → relay.clock < i.now+resumeTTL →
    relay.resumeLocked i.token relay.clock=some b ∧ (relay.webSessions b).closed=false ∧
      ∀ {client}, ((relay.webSessions b).client=client ∨ relay.perIP client < maxPerIP) →
        relay.refuses b client (some i.token) relay.clock=false

lemma Issues.resumable (h : relay.Issues b) (hok : relay.Ok) : relay.Resumable b := by
  intro n i hreceived hi hvalid
  obtain ⟨⟨i',hi',-,htoken,hsession⟩,howns⟩ := h.received hreceived
  have hsame := hok.bearers.issue_eq hi' hi htoken
  rw [hsame] at hsession
  have hs : b ∈ relay.sessions := by
    by_contra hgone
    exact absurd (h.forgotten hi hsession hgone) (not_le.2 hvalid)
  obtain ⟨bearer,hbearer,hbound⟩ := hok.bearers.live hs (howns hs)
  obtain ⟨-,-,issue,hissue,hsametoken,-,hexpires⟩ := hok.bearers.mapped hbearer
  have hissue' := hok.bearers.issue_eq hissue hi hsametoken
  rw [hissue'] at hexpires
  have hresume : relay.resumeLocked i.token relay.clock=some b := by
    unfold resumeLocked
    rw [hbearer]
    dsimp only
    rw [hexpires,if_pos hvalid,hbound]
  refine ⟨hresume,h.closed hs,fun {client} hclient=>?_⟩
  unfold refuses
  rw [Option.any_some,hresume]
  rcases hclient with hclient | hclient
  · simp [hs,hclient]
  · simp [hs,hclient]

end Relay

end Cinnabar.Webrelay
