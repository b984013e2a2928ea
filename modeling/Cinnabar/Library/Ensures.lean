import Mathlib.Data.List.Basic

/-! # Rules for fallible steps -/

namespace Cinnabar

open List

universe u v

variable {ε : Type u} {α β : Type v}

/-- A result meeting `Q`, or a fault meeting `E`. -/
def Ensures (E : ε → Prop) (Q : α → Prop) : Except ε α → Prop
  | .ok a => Q a
  | .error e => E e

@[simp] lemma except_ok_bind (a : α) (f : α → Except ε β) : ((Except.ok a : Except ε α) >>= f) = f a := rfl

@[simp] lemma except_pure_bind (a : α) (f : α → Except ε β) : ((pure a : Except ε α) >>= f) = f a := rfl

@[simp] lemma except_error_bind (e : ε) (f : α → Except ε β) : ((Except.error e : Except ε α) >>= f) = .error e := rfl

variable {l : List α} {z : β}

/-- Induction along a list: an invariant of what is behind and a property of what is ahead. -/
lemma along {I C : List α → β → Prop} (hnil : ∀ b, I l b → C [] b) (hcons : ∀ pre a post b, l=pre++a::post → I pre b →
      (∀ b', I (pre ++ [a]) b' → C post b') → C (a::post) b) (h₀ : I [] z) : C l z := by
  suffices h : ∀ (post pre : List α) (b : β), l=pre++post → I pre b → C post b from
    h l [] z rfl h₀
  intro post
  induction post with
  | nil =>
    intro pre b hl hb
    rw [append_nil] at hl
    subst hl
    exact hnil b hb
  | cons a post ih =>
    intro pre b hl hb
    exact hcons pre a post b hl hb fun b'=>ih (pre ++ [a]) b' (by simpa using hl)

namespace Ensures

variable {E : ε → Prop} {P Q : α → Prop}

@[simp] lemma ok_iff (a : α) : Ensures E Q (.ok a) ↔ Q a := Iff.rfl

@[simp] lemma pure_iff (a : α) : Ensures E Q (pure a : Except ε α) ↔ Q a := Iff.rfl

@[simp] lemma error_iff (e : ε) : Ensures E Q (.error e) ↔ E e := Iff.rfl

@[simp] lemma throw_iff (e : ε) : Ensures E Q (throw e : Except ε α) ↔ E e := Iff.rfl

variable {m : Except ε α}

lemma mono (h : Ensures E P m) (hPQ : ∀ a, P a → Q a) : Ensures E Q m := by
  cases m with
  | ok a => exact hPQ a h
  | error e => exact h

lemma of_never (h : Ensures (fun _=>False) Q m) : Ensures E Q m := by
  cases m with
  | ok a => exact h
  | error e => exact h.elim

lemma and (hP : Ensures E P m) (hQ : Ensures E Q m) : Ensures E (fun a=>P a ∧ Q a) m := by
  cases m with
  | ok a => exact ⟨hP,hQ⟩
  | error e => exact hP

/-- A computation whose faults are excluded returns. -/
lemma exists_ok (h : Ensures E Q m) (hE : ∀ e, ¬E e) : ∃ a, m = .ok a ∧ Q a := by
  cases m with
  | ok a => exact ⟨a,rfl,h⟩
  | error e => exact absurd h (hE e)

lemma bind {f : α → Except ε β} {R : β → Prop} (h : Ensures E P m)
    (hf : ∀ a, P a → Ensures E R (f a)) : Ensures E R (m >>= f) := by
  cases m with
  | ok a => exact hf a h
  | error e => exact h

variable {f : β → α → Except ε β}

/-- The invariant rule of a loop: `I` relates the items already visited to the state. -/
lemma foldlM {I : List α → β → Prop} {l : List α} {z : β} (h₀ : I [] z)
    (hf : ∀ pre a post b, l=pre++a::post → I pre b → Ensures E (I (pre ++ [a])) (f b a)) :
    Ensures E (I l) (l.foldlM f z) := by
  refine along (C := fun post b=>Ensures E (I l) (post.foldlM f b)) (fun _ hb=>hb) (fun pre a post b hl hb ih=>?_) h₀
  exact Ensures.bind (hf pre a post b hl hb) ih

/-- The invariant rule when the invariant does not mention the visited items. -/
lemma foldlM_const {I : β → Prop} {l : List α} {z : β} (h₀ : I z) (hf : ∀ a ∈ l, ∀ b, I b → Ensures E I (f b a)) :
    Ensures E I (l.foldlM f z) := by
  refine foldlM (I := fun _ b=>I b) h₀ ?_
  intro pre a post b hl hb
  exact hf a (by simp [hl]) b hb

end Ensures

variable {I : List α → β → Prop}

/-- The invariant rule of a pure loop. -/
lemma foldl_invariant {f : β → α → β} (h₀ : I [] z)
    (hf : ∀ pre a post b, l=pre++a::post → I pre b → I (pre ++ [a]) (f b a)) :
    I l (l.foldl f z) := by
  refine along (C := fun post b=>I l (post.foldl f b)) (fun _ hb=>hb) (fun pre a post b hl hb ih=>?_) h₀
  exact ih (f b a) (hf pre a post b hl hb)

variable {f : β → α → Option β}

/-- A loop none of whose steps fails is the pure loop. -/
lemma foldlM_eq_some {g : β → α → β} (h₀ : I [] z) (hf : ∀ pre a post b, l=pre++a::post → I pre b →
      f b a=some (g b a) ∧ I (pre ++ [a]) (g b a)) :
    l.foldlM f z=some (l.foldl g z) ∧ I l (l.foldl g z) := by
  refine along (C := fun post b=>post.foldlM f b=some (post.foldl g b) ∧ I l (post.foldl g b))
    (fun _ hb=>⟨rfl,hb⟩) (fun pre a post b hl hb ih=>?_) h₀
  obtain ⟨hstep,hnext⟩ := hf pre a post b hl hb
  rw [foldlM_cons,hstep,foldl_cons]
  exact ih (g b a) hnext

/-- A loop none of whose steps fails keeps its invariant. -/
lemma foldlM_exists_some (h₀ : I [] z) (hf : ∀ pre a post b, l=pre++a::post → I pre b →
      ∃ b', f b a=some b' ∧ I (pre ++ [a]) b') :
    ∃ b, l.foldlM f z=some b ∧ I l b := by
  refine along (C := fun post b=>∃ b', post.foldlM f b=some b' ∧ I l b')
    (fun b hb=>⟨b,rfl,hb⟩) (fun pre a post b hl hb ih=>?_) h₀
  obtain ⟨b',hstep,hnext⟩ := hf pre a post b hl hb
  rw [foldlM_cons,hstep]
  exact ih b' hnext

/-- What one item of a pure loop establishes and no other item undoes holds at its end. -/
lemma foldl_reaches {f : β → α → β} {I P : β → Prop} (h₀ : I z)
    (hI : ∀ b a, I b → I (f b a)) (hP : ∀ b a, I b → P b → P (f b a)) {a : α} (ha : a ∈ l)
    (hreach : ∀ b, I b → P (f b a)) : P (l.foldl f z) := by
  have hkeep : ∀ (l : List α) (b : β), I b → P b → P (l.foldl f b) := by
    intro l
    induction l with
    | nil => exact fun b _ hb=>hb
    | cons a l ih => exact fun b hb hPb=>ih (f b a) (hI b a hb) (hP b a hb hPb)
  induction l generalizing z with
  | nil => exact absurd ha not_mem_nil
  | cons x l ih =>
    rcases mem_cons.1 ha with rfl | ha
    · exact hkeep l _ (hI _ _ h₀) (hreach _ h₀)
    · exact ih (hI _ _ h₀) ha

end Cinnabar
