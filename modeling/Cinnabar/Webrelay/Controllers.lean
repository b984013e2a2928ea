import Cinnabar.Webrelay.Bearers

/-! # The controllers of a session -/

namespace Cinnabar.Webrelay

variable {T A : Type} [DecidableEq T] [DecidableEq A]

def Conn.about : Conn T A → Option ℕ
  | .idle => none
  | .found session _ _ _ => some session
  | .attached session _ _ _ => some session
  | .refused session _ => some session
  | .control session _ _ => some session
  | .leaving session _ => some session
  | .left session _ => some session
  | .playFound session _ => some session
  | .playAttached session _ => some session
  | .playing session _ => some session
  | .playLeft session => some session
  | .ended => none

lemma Conn.about_of_holds {conn : Conn T A} {s : ℕ} (h : conn.holds=some s) : conn.about=some s := by
  cases conn <;> first | exact h | cases h

lemma Conn.about_of_controls {conn : Conn T A} {s generation : ℕ}
    (h : conn.controls=some (s,generation)) : conn.about=some s := by
  cases conn <;> cases h <;> rfl

namespace Relay

variable {relay relay' : Relay T A} {k s : ℕ}

structure Controllers (relay : Relay T A) : Prop where
  current : ∀ {s k}, (relay.webSessions s).controller=some k →
    relay.conns k = .control s (relay.webSessions s).generation false ∧ s ∈ relay.sessions
  running : ∀ {k s generation}, relay.conns k = .control s generation false →
    (relay.webSessions s).controller=some k ∧ generation = (relay.webSessions s).generation
  bounded : ∀ {k s generation}, (relay.conns k).controls=some (s,generation) →
    generation ≤ (relay.webSessions s).generation
  distinct : ∀ {k k' s generation}, (relay.conns k).controls=some (s,generation) →
    (relay.conns k').controls=some (s,generation) → k=k'
  counted : ∀ {k s}, k ∈ (relay.webSessions s).attached ↔ (relay.conns k).holds=some s
  known : ∀ {k s}, (relay.conns k).about=some s → s < relay.made

lemma Controllers.congr (h : relay.Controllers) (hconns : relay'.conns=relay.conns)
    (hmade : relay'.made=relay.made) (hsessions : relay'.sessions=relay.sessions)
    (hsession : ∀ s, (relay'.webSessions s).controller = (relay.webSessions s).controller ∧
      (relay'.webSessions s).generation = (relay.webSessions s).generation ∧
      (relay'.webSessions s).attached = (relay.webSessions s).attached) : relay'.Controllers where
  current := by
    intro s k hk
    rw [(hsession s).1] at hk
    rw [hconns,(hsession s).2.1,hsessions]
    exact h.current hk
  running := by
    intro k s generation hk
    rw [hconns] at hk
    rw [(hsession s).1,(hsession s).2.1]
    exact h.running hk
  bounded := by
    intro k s generation hk
    rw [hconns] at hk
    rw [(hsession s).2.1]
    exact h.bounded hk
  distinct := by
    rw [hconns]
    exact h.distinct
  counted := by
    intro k s
    rw [hconns,(hsession s).2.2]
    exact h.counted
  known := by
    rw [hconns,hmade]
    exact h.known

structure Moves (relay relay' : Relay T A) (k : ℕ) : Prop where
  conns : ∀ j, j≠k → relay'.conns j=relay.conns j
  controls : (relay'.conns k).controls = (relay.conns k).controls
  generation : ∀ s, (relay'.webSessions s).generation = (relay.webSessions s).generation
  attached : ∀ j s, j≠k → (j ∈ (relay'.webSessions s).attached ↔ j ∈ (relay.webSessions s).attached)
  held : ∀ s, k ∈ (relay'.webSessions s).attached ↔ (relay'.conns k).holds=some s
  about : ∀ s, (relay'.conns k).about=some s → s < relay'.made
  sessions : relay'.sessions=relay.sessions
  made : relay'.made=relay.made
  /-- The controller may leave. -/
  running : ∀ s generation, relay'.conns k = .control s generation false → relay.conns k = .control s generation false ∧
      (relay'.webSessions s).controller = (relay.webSessions s).controller
  controller : ∀ s j, (relay'.webSessions s).controller=some j ↔
    (relay.webSessions s).controller=some j ∧ (j=k → relay'.conns k=relay.conns k)

section

variable (h : relay.Controllers)
include h

lemma Controllers.moves (hmoves : relay.Moves relay' k) : relay'.Controllers where
  current := by
    intro s j hj
    obtain ⟨hold,hsame⟩ := (hmoves.controller s j).1 hj
    rw [hmoves.generation,hmoves.sessions]
    by_cases hjk : j=k
    · rw [hjk,hsame hjk,← hjk]
      exact h.current hold
    · rw [hmoves.conns j hjk]
      exact h.current hold
  running := by
    intro j s generation hj
    rw [hmoves.generation]
    by_cases hjk : j=k
    · rw [hjk] at hj ⊢
      obtain ⟨hold,hsame⟩ := hmoves.running s generation hj
      rw [hsame]
      exact h.running hold
    · rw [hmoves.conns j hjk] at hj
      obtain ⟨hold,hgeneration⟩ := h.running hj
      exact ⟨(hmoves.controller s j).2 ⟨hold,fun heq=>absurd heq hjk⟩,hgeneration⟩
  bounded := by
    intro j s generation hj
    rw [hmoves.generation]
    by_cases hjk : j=k
    · rw [hjk,hmoves.controls] at hj
      exact h.bounded hj
    · rw [hmoves.conns j hjk] at hj
      exact h.bounded hj
  distinct := by
    intro j j' s generation hj hj'
    have hsame : ∀ i, (relay'.conns i).controls = (relay.conns i).controls := by
      intro i
      by_cases hi : i=k
      · rw [hi,hmoves.controls]
      · rw [hmoves.conns i hi]
    rw [hsame] at hj hj'
    exact h.distinct hj hj'
  counted := by
    intro j s
    by_cases hjk : j=k
    · rw [hjk]
      exact hmoves.held s
    · rw [hmoves.attached j s hjk,hmoves.conns j hjk]
      exact h.counted
  known := by
    intro j s hj
    by_cases hjk : j=k
    · rw [hjk] at hj
      exact hmoves.about s hj
    · rw [hmoves.conns j hjk] at hj
      rw [hmoves.made]
      exact h.known hj

lemma Moves.of_step {conn : Conn T A} {session : WebSession T A} (hidle : ∀ s generation, relay.conns k ≠ .control s generation false)
    (hconn : ∀ s generation, conn ≠ .control s generation false)
    (hcontrols : conn.controls = (relay.conns k).controls)
    (hholds : ∀ j, j≠s → ((relay.conns k).holds=some j ↔ conn.holds=some j))
    (habout : ∀ j, conn.about=some j → j < relay.made)
    (hgeneration : session.generation = (relay.webSessions s).generation)
    (hcontroller : session.controller = (relay.webSessions s).controller)
    (hattached : ∀ j, j≠k → (j ∈ session.attached ↔ j ∈ (relay.webSessions s).attached))
    (hheld : k ∈ session.attached ↔ conn.holds=some s) :
    relay.Moves ((relay.setSession s session).setConn k conn) k where
  conns := fun j hj=>by simp [hj]
  controls := by simpa using hcontrols
  generation := by
    intro j
    by_cases hj : j=s
    · simp [hj,hgeneration]
    · simp [hj]
  attached := by
    intro j i hj
    by_cases hi : i=s
    · simpa [hi] using hattached j hj
    · simp [hi]
  held := by
    intro i
    by_cases hi : i=s
    · simpa [hi] using hheld
    · simp [hi,h.counted,hholds i hi]
  about := by simpa using habout
  sessions := rfl
  made := rfl
  running := by
    intro i generation hi
    exact absurd (by simpa using hi) (hconn i generation)
  controller := by
    intro i j
    have hsame : ((relay.setSession s session).webSessions i).controller = (relay.webSessions i).controller := by
      by_cases hi : i=s
      · simp [hi,hcontroller]
      · simp [hi]
    simp only [setConn_webSessions,hsame]
    refine ⟨fun hj=>⟨hj,fun hjk=>?_⟩,fun hj=>hj.1⟩
    rw [hjk] at hj
    exact absurd (h.current hj).1 (hidle _ _)

lemma Controllers.takesOver {client : A} {token : Option T} {fresh : T}
    {now : ℕ} (hconn : relay.conns k = .attached s client token now) (hs : s ∈ relay.sessions)
    (htakes : relay.TakesOver relay' k s client token fresh now) : relay'.Controllers := by
  have hgeneration : (relay'.webSessions s).generation = (relay.webSessions s).generation+1 := by
    rw [htakes.session]
  have hcontroller : (relay'.webSessions s).controller=some k := by
    rw [htakes.session]
  -- cancelling the previous controller changes nothing else
  have hphase : ∀ j, j≠k → (relay'.conns j).controls = (relay.conns j).controls ∧
      (relay'.conns j).holds = (relay.conns j).holds ∧
      (relay'.conns j).about = (relay.conns j).about := by
    intro j hj
    rw [htakes.conns j hj]
    split_ifs with hold
    · unfold cancel
      rw [(h.current hold).1]
      simp [Conn.controls,Conn.holds,Conn.about]
    · exact ⟨rfl,rfl,rfl⟩
  have hnew : (relay'.conns k).controls=some (s,(relay.webSessions s).generation+1) := by
    rw [htakes.conn]
    rfl
  have hother : ∀ {i}, i≠s → relay'.webSessions i=relay.webSessions i := fun {i} hi=>htakes.others i hi
  have hrunning : ∀ {j i generation}, j≠k → relay'.conns j = .control i generation false →
      relay.conns j = .control i generation false ∧
        (relay.webSessions s).controller≠some j := by
    intro j i generation hj hrun
    rw [htakes.conns j hj] at hrun
    split_ifs at hrun with hold
    · unfold cancel at hrun
      rw [(h.current hold).1] at hrun
      simp at hrun
    · exact ⟨hrun,hold⟩
  constructor
  · intro i j hj
    by_cases hi : i=s
    · rw [hi] at hj ⊢
      rw [hcontroller] at hj
      cases hj
      rw [hgeneration,htakes.sessions]
      exact ⟨htakes.conn,hs⟩
    · rw [hother hi] at hj ⊢
      obtain ⟨hrun,hlive⟩ := h.current hj
      have hjk : j≠k := by
        rintro rfl
        rw [hconn] at hrun
        cases hrun
      rw [htakes.sessions,htakes.conns j hjk,if_neg ?_]
      · exact ⟨hrun,hlive⟩
      · intro hold
        have hsame := (h.current hold).1
        rw [hrun] at hsame
        cases hsame
        exact hi rfl
  · intro j i generation hj
    by_cases hjk : j=k
    · rw [hjk,htakes.conn] at hj
      cases hj
      rw [hjk]
      exact ⟨hcontroller,hgeneration.symm⟩
    · obtain ⟨hrun,hold⟩ := hrunning hjk hj
      obtain ⟨howner,hgen⟩ := h.running hrun
      have hi : i≠s := by
        rintro rfl
        exact hold howner
      rw [hother hi]
      exact ⟨howner,hgen⟩
  · intro j i generation hj
    by_cases hjk : j=k
    · rw [hjk,hnew] at hj
      cases hj
      exact hgeneration.ge
    · rw [(hphase j hjk).1] at hj
      have hle := h.bounded hj
      by_cases hi : i=s
      · rw [hi] at hle ⊢
        rw [hgeneration]
        exact hle.trans (Nat.le_succ _)
      · rw [hother hi]
        exact hle
  · intro j j' i generation hj hj'
    have hpast : ∀ {j}, j≠k → (relay'.conns j).controls=some (s,generation) →
        generation ≠ (relay.webSessions s).generation+1 := by
      intro j hjk hcontrols
      rw [(hphase j hjk).1] at hcontrols
      exact (Nat.lt_succ_of_le (h.bounded hcontrols)).ne
    by_cases hjk : j=k
    · rw [hjk] at hj ⊢
      by_cases hjk' : j'=k
      · exact hjk'.symm
      · rw [hnew] at hj
        cases hj
        exact absurd rfl (hpast hjk' hj')
    · by_cases hjk' : j'=k
      · rw [hjk',hnew] at hj'
        cases hj'
        exact absurd rfl (hpast hjk hj)
      · rw [(hphase j hjk).1] at hj
        rw [(hphase j' hjk').1] at hj'
        exact h.distinct hj hj'
  · intro j i
    have hattached : (relay'.webSessions i).attached = (relay.webSessions i).attached := by
      by_cases hi : i=s
      · rw [hi,htakes.session]
      · rw [hother hi]
    rw [hattached,h.counted]
    by_cases hjk : j=k
    · rw [hjk,hconn,htakes.conn]
      rfl
    · rw [(hphase j hjk).2.1]
  · intro j i hj
    rw [htakes.made]
    by_cases hjk : j=k
    · rw [hjk,htakes.conn] at hj
      cases hj
      exact h.known (k := k) (by rw [hconn]; rfl)
    · rw [(hphase j hjk).2.2] at hj
      exact h.known hj

lemma Controllers.forget (hconns : relay'.conns=relay.conns)
    (hmade : relay'.made=relay.made) (hsessions : relay'.sessions=relay.sessions.erase s)
    (hempty : (relay.webSessions s).attached = ∅)
    (hsame : relay'.webSessions=relay.webSessions) : relay'.Controllers where
  current := by
    intro i k hk
    rw [hsame] at hk ⊢
    obtain ⟨hrun,hlive⟩ := h.current hk
    rw [hconns,hsessions,Finset.mem_erase]
    refine ⟨hrun,fun hi=>?_,hlive⟩
    have hcounted : k ∈ (relay.webSessions i).attached := h.counted.2 (by rw [hrun]; rfl)
    rw [hi,hempty] at hcounted
    exact absurd hcounted (Finset.notMem_empty k)
  running := by
    rw [hconns,hsame]
    exact h.running
  bounded := by
    rw [hconns,hsame]
    exact h.bounded
  distinct := by
    rw [hconns]
    exact h.distinct
  counted := by
    rw [hconns,hsame]
    exact h.counted
  known := by
    rw [hconns,hmade]
    exact h.known

/-- A new session, which no connection was about before. -/
lemma Controllers.create (client : A) (now : ℕ) (hidle : relay.conns k = .idle)
    (hconns : ∀ j, relay'.conns j = if j=k then .found relay.made client none now
      else relay.conns j)
    (hmade : relay'.made=relay.made+1)
    (hsessions : relay'.sessions=insert relay.made relay.sessions)
    (hself : relay'.webSessions relay.made = { client := client, idleSince := now })
    (hothers : ∀ j, j≠relay.made → relay'.webSessions j=relay.webSessions j) :
    relay'.Controllers := by
  have hother : ∀ {j i}, (relay.conns j).about=some i → i≠relay.made := fun hj=>(h.known hj).ne
  have hphase : ∀ {j}, (relay'.conns j).controls = (relay.conns j).controls ∧
      (relay'.conns j).holds = (relay.conns j).holds := by
    intro j
    rw [hconns]
    split_ifs with hj
    · rw [hj,hidle]
      exact ⟨rfl,rfl⟩
    · exact ⟨rfl,rfl⟩
  have hrunning : ∀ {j i generation}, relay'.conns j = .control i generation false ↔
      relay.conns j = .control i generation false := by
    intro j i generation
    rw [hconns]
    split_ifs with hj
    · rw [hj,hidle]
      simp
    · rfl
  constructor
  · intro i j hj
    by_cases hi : i=relay.made
    · rw [hi,hself] at hj
      cases hj
    · rw [hothers i hi] at hj ⊢
      rw [hsessions]
      exact ⟨hrunning.2 (h.current hj).1,Finset.mem_insert_of_mem (h.current hj).2⟩
  · intro j i generation hj
    rw [hrunning] at hj
    rw [hothers i (hother (j := j) (by rw [hj]; rfl))]
    exact h.running hj
  · intro j i generation hj
    rw [hphase.1] at hj
    rw [hothers i (hother (Conn.about_of_controls hj))]
    exact h.bounded hj
  · intro j j' i generation hj hj'
    rw [hphase.1] at hj hj'
    exact h.distinct hj hj'
  · intro j i
    rw [hphase.2]
    by_cases hi : i=relay.made
    · rw [hi,hself]
      refine ⟨fun hj=>absurd hj (Finset.notMem_empty j),fun hj=>?_⟩
      exact absurd rfl (hother (Conn.about_of_holds hj))
    · rw [hothers i hi]
      exact h.counted
  · intro j i hj
    rw [hmade]
    rw [hconns] at hj
    split_ifs at hj
    · cases hj
      exact Nat.lt_succ_self _
    · exact (h.known hj).trans (Nat.lt_succ_self _)

end

end Relay

end Cinnabar.Webrelay
