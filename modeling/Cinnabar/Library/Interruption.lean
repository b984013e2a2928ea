import Mathlib.Data.List.Basic

/-! # Rules for programs with state and faults -/

namespace Cinnabar

universe u

variable {ε σ α β : Type u}

/-- A value and state meeting `Q`, or a fault and state meeting `E`. -/
def Meets (m : EStateM ε σ α) (s : σ) (Q : α → σ → Prop) (E : ε → σ → Prop) : Prop :=
  match m s with
  | .ok a t => Q a t
  | .error e t => E e t

namespace Meets

variable {m : EStateM ε σ α} {f : α → EStateM ε σ β} {s t : σ} {Q Q' : α → σ → Prop}
  {E E' : ε → σ → Prop}

lemma bind {Q : β → σ → Prop} (h : Meets m s (fun a t=>Meets (f a) t Q E) E) : Meets (m >>= f) s Q E := by
  change Meets (EStateM.bind m f) s Q E
  unfold Meets EStateM.bind at *
  cases hm : m s with
  | ok a t => simpa only [hm] using h
  | error e t => simpa only [hm] using h

section

variable (h : Meets m s Q E)
include h

lemma mono (hQ : ∀ a t, Q a t → Q' a t) (hE : ∀ e t, E e t → E' e t) :
    Meets m s Q' E' := by
  unfold Meets at *
  cases hm : m s with
  | ok a t =>
    simp only [hm] at h
    exact hQ a t h
  | error e t =>
    simp only [hm] at h
    exact hE e t h

lemma and (h' : Meets m s Q' E') : Meets m s (fun a t=>Q a t ∧ Q' a t) fun e t=>E e t ∧ E' e t := by
  unfold Meets at *
  cases hm : m s with
  | ok a t =>
    simp only [hm] at h h'
    exact ⟨h,h'⟩
  | error e t =>
    simp only [hm] at h h'
    exact ⟨h,h'⟩

lemma of_ok {a : α} (hm : m s = .ok a t) : Q a t := by
  unfold Meets at h
  rw [hm] at h
  exact h

lemma of_error {e : ε} (hm : m s = .error e t) : E e t := by
  unfold Meets at h
  rw [hm] at h
  exact h

end

lemma pure {a : α} (h : Q a s) : Meets (Pure.pure a : EStateM ε σ α) s Q E := h

lemma throw {e : ε} (h : E e s) : Meets (MonadExcept.throw e : EStateM ε σ α) s Q E := h

lemma get {Q : σ → σ → Prop} (h : Q s s) : Meets (MonadState.get : EStateM ε σ σ) s Q E := h

lemma set {Q : PUnit → σ → Prop} (h : Q ⟨⟩ t) : Meets (MonadStateOf.set t : EStateM ε σ PUnit) s Q E := h

lemma modified {Q : PUnit → σ → Prop} {g : σ → σ} (h : Q ⟨⟩ (g s)) : Meets (modify g : EStateM ε σ PUnit) s Q E := h

lemma ite {c : Prop} [Decidable c] {m' : EStateM ε σ α} (h : c → Meets m s Q E)
    (h' : ¬c → Meets m' s Q E) : Meets (if c then m else m') s Q E := by
  by_cases hc : c
  · rw [if_pos hc]
    exact h hc
  · rw [if_neg hc]
    exact h' hc

end Meets

end Cinnabar

/-! # Programs that may be cut off

A program works on a state by changes, each done at once or not at all.  It can be
cut off before any of them, and any of them can fail; a program may go on after a
failure, never after a cut.  `Survives s m Q C` bounds every outcome of `m` from `s`:
`Q` where it ends, `C` where it stops short.  `Completes s m Q` says that `m` ends
in `Q` where nothing is cut and nothing fails.
-/

namespace Cinnabar

universe u

/-- How a program stops short: cut off from outside, or with an error of its own. -/
inductive Halt (ε : Type u) where
  | cut
  | error (error : ε)
deriving DecidableEq

/-- A state, the changes left before the cut, and which of the next changes fail. -/
structure Machine (σ : Type u) where
  state : σ
  cutAfter : Option ℕ := none
  failures : List Bool := []

abbrev Steps (ε σ : Type u) := EStateM (Halt ε) (Machine σ)

variable {ε σ α β : Type u}

def perform (failure : ε) (change : σ → Except ε σ) : Steps ε σ PUnit := fun machine =>
  match machine.cutAfter with
  | some 0 => .error .cut machine
  | budget =>
    let spent := { machine with
      cutAfter := budget.map Nat.pred
      failures := machine.failures.tail }
    if machine.failures.headD false then .error (.error failure) spent
    else
      match change machine.state with
      | .ok state => .ok ⟨⟩ { spent with state := state }
      | .error error => .error (.error error) spent

/-- What a program would fail with, as a value; a cut stays a cut. -/
def attempt (m : Steps ε σ α) : Steps ε σ (Except ε α) := fun machine =>
  match m machine with
  | .ok a after => .ok (.ok a) after
  | .error .cut after => .error .cut after
  | .error (.error error) after => .ok (.error error) after

def inspect (f : σ → α) : Steps ε σ α := fun machine=>.ok (f machine.state) machine

def halt (error : ε) : Steps ε σ α := throw (.error error)

/-- The state a program leaves, however it stops. -/
def stateAfter (m : Steps ε σ α) (machine : Machine σ) : σ :=
  match m machine with
  | .ok _ after => after.state
  | .error _ after => after.state

/-- Whatever is cut and whatever fails, `m` ends in `Q` or stops short in `C`. -/
def Survives (s : σ) (m : Steps ε σ α) (Q : α → σ → Prop) (C : Halt ε → σ → Prop) : Prop :=
  ∀ machine : Machine σ, machine.state=s →
    Meets m machine (fun a after=>Q a after.state) fun stop after=>C stop after.state

namespace Survives

variable {s : σ} {m : Steps ε σ α} {f : α → Steps ε σ β} {Q Q' : α → σ → Prop}
  {C C' : Halt ε → σ → Prop}

lemma pure {a : α} (h : Q a s) : Survives s (Pure.pure a : Steps ε σ α) Q C := by
  rintro machine rfl
  exact .pure h

lemma halt {error : ε} (h : C (.error error) s) : Survives s (Cinnabar.halt error : Steps ε σ α) Q C := by
  rintro machine rfl
  exact .throw h

lemma inspect {g : σ → α} (h : Q (g s) s) : Survives s (Cinnabar.inspect g : Steps ε σ α) Q C := by
  rintro machine rfl
  exact h

lemma bind {Q : β → σ → Prop} (h : Survives s m (fun a t=>Survives t (f a) Q C) C) : Survives s (m >>= f) Q C := by
  intro machine hmachine
  refine .bind ((h machine hmachine).mono (fun a after ha=>?_) fun _ _=>id)
  exact ha after rfl

lemma mono (h : Survives s m Q C) (hQ : ∀ a t, Q a t → Q' a t) (hC : ∀ stop t, C stop t → C' stop t) :
    Survives s m Q' C' := by
  intro machine hmachine
  exact (h machine hmachine).mono (fun a after=>hQ a after.state) fun stop after=>hC stop after.state

lemma ite {c : Prop} [Decidable c] {m' : Steps ε σ α} (h : c → Survives s m Q C)
    (h' : ¬c → Survives s m' Q C) : Survives s (if c then m else m') Q C := by
  intro machine hmachine
  exact .ite (fun hc=>h hc machine hmachine) fun hc=>h' hc machine hmachine

variable {change : σ → Except ε σ}

lemma perform_cases {failure : ε} {Q : PUnit → σ → Prop} (hcut : C .cut s) (hfail : C (.error failure) s)
    (herror : ∀ error, change s = .error error → C (.error error) s)
    (hQ : ∀ t, change s = .ok t → Q ⟨⟩ t) : Survives s (Cinnabar.perform failure change) Q C := by
  rintro machine rfl
  unfold Meets Cinnabar.perform
  split
  · rename_i houtcome
    split at houtcome
    · cases houtcome
    · split at houtcome
      · cases houtcome
      · split at houtcome
        · rename_i t hchange
          cases houtcome
          exact hQ t hchange
        · cases houtcome
  · rename_i houtcome
    split at houtcome
    · cases houtcome
      exact hcut
    · split at houtcome
      · cases houtcome
        exact hfail
      · split at houtcome
        · cases houtcome
        · rename_i error hchange
          cases houtcome
          exact herror error hchange

/-- A change is done, or leaves the state as it was. -/
lemma perform {failure : ε} {Q : PUnit → σ → Prop} (hC : ∀ stop, C stop s) (hQ : ∀ t, change s = .ok t → Q ⟨⟩ t) :
    Survives s (Cinnabar.perform failure change) Q C :=
  .perform_cases (hC _) (hC _) (fun _ _=>hC _) hQ

lemma attempt {Q : Except ε α → σ → Prop} (h : Survives s m (fun a t=>Q (.ok a) t) fun stop t =>
      match stop with
      | .cut => C .cut t
      | .error error => Q (.error error) t) : Survives s (Cinnabar.attempt m) Q C := by
  intro machine hmachine
  have hm := h machine hmachine
  unfold Meets Cinnabar.attempt at *
  cases houtcome : m machine with
  | ok a after =>
    rw [houtcome] at hm
    exact hm
  | error stop after =>
    rw [houtcome] at hm
    cases stop with
    | cut => exact hm
    | error error => exact hm

lemma stateAfter {P : σ → Prop} {machine : Machine σ} (h : Survives machine.state m (fun _ t=>P t) fun _ t=>P t) :
    P (Cinnabar.stateAfter m machine) := by
  have hm := h machine rfl
  unfold Meets Cinnabar.stateAfter at *
  cases houtcome : m machine with
  | ok a after =>
    rw [houtcome] at hm
    exact hm
  | error stop after =>
    rw [houtcome] at hm
    exact hm

end Survives

/-- Left to itself, `m` ends in `Q`. -/
def Completes (s : σ) (m : Steps ε σ α) (Q : α → σ → Prop) : Prop :=
  ∃ a t, m ⟨s,none,[]⟩ = .ok a ⟨t,none,[]⟩ ∧ Q a t

namespace Completes

variable {s t : σ} {m : Steps ε σ α} {f : α → Steps ε σ β} {Q Q' : α → σ → Prop}

lemma pure {a : α} (h : Q a s) : Completes s (Pure.pure a : Steps ε σ α) Q := ⟨a,s,rfl,h⟩

lemma inspect {g : σ → α} (h : Q (g s) s) : Completes s (Cinnabar.inspect g : Steps ε σ α) Q :=
  ⟨g s,s,rfl,h⟩

lemma bind {Q : β → σ → Prop} (h : Completes s m fun a t=>Completes t (f a) Q) : Completes s (m >>= f) Q := by
  obtain ⟨a,t,hm,b,u,hf,hQ⟩ := h
  refine ⟨b,u,?_,hQ⟩
  change EStateM.bind m f _=_
  unfold EStateM.bind
  rw [hm]
  exact hf

lemma mono (h : Completes s m Q) (hQ : ∀ a t, Q a t → Q' a t) : Completes s m Q' := by
  obtain ⟨a,t,hm,ha⟩ := h
  exact ⟨a,t,hm,hQ a t ha⟩

variable {change : σ → Except ε σ}

lemma perform {failure : ε} {Q : PUnit → σ → Prop} (hchange : change s = .ok t) (hQ : Q ⟨⟩ t) :
    Completes s (Cinnabar.perform failure change) Q := by
  refine ⟨⟨⟩,t,?_,hQ⟩
  unfold Cinnabar.perform
  simp [hchange]

lemma attempt {Q : Except ε α → σ → Prop} (h : Completes s m fun a t=>Q (.ok a) t) :
    Completes s (Cinnabar.attempt m) Q := by
  obtain ⟨a,t,hm,hQ⟩ := h
  refine ⟨.ok a,t,?_,hQ⟩
  unfold Cinnabar.attempt
  rw [hm]

lemma refused {failure error : ε} {Q : Except ε PUnit → σ → Prop}
    (hchange : change s = .error error) (hQ : Q (.error error) s) :
    Completes s (Cinnabar.attempt (Cinnabar.perform failure change)) Q := by
  refine ⟨.error error,s,?_,hQ⟩
  unfold Cinnabar.attempt Cinnabar.perform
  simp [hchange]

end Completes

end Cinnabar
