import Mathlib

/-! # A set of numbers as runs

A set of numbers kept as its maximal runs, by start.
-/

namespace Cinnabar

open Function

/-- Runs by start: `ends a = some b` is the run from `a` through `b`. -/
structure Runs where
  ends : ℕ → Option ℕ

namespace Runs

def empty : Runs := ⟨fun _=>none⟩

section

variable (r : Runs)

/-- The run with the greatest start at or before `n`. -/
def last (n : ℕ) : Option (ℕ × ℕ) :=
  let start := Nat.findGreatest (fun a=>(r.ends a).isSome) n
  (r.ends start).map fun finish=>(start,finish)

/-- The last number of the run `n` lies in, or the number before `n`. -/
def through (n : ℕ) : ℕ :=
  match r.last n with
  | some run => if n ≤ run.2 then run.2 else n-1
  | none => n-1

def remove (start : ℕ) : Runs := ⟨update r.ends start none⟩

section

variable (run : ℕ × ℕ)

def insert : Runs := ⟨update r.ends run.1 (some run.2)⟩

/-- Joins a run with the one ending just before it. -/
def mergeBefore : (ℕ × ℕ) × Runs :=
  match (if run.1=0 then none else r.last (run.1-1)) with
  | some before =>
    if run.1≤before.2+1 then ((before.1,max run.2 before.2),r.remove before.1) else (run,r)
  | none => (run,r)

/-- Joins a run with the one starting just after it. -/
def mergeAfter : (ℕ × ℕ) × Runs :=
  match r.ends (run.2+1) with
  | some finish => ((run.1,finish),r.remove (run.2+1))
  | none => (run,r)

def merge : (ℕ × ℕ) × Runs :=
  let joined := r.mergeBefore run
  joined.2.mergeAfter joined.1

end

/-- Some run has the number. -/
def Covers (n : ℕ) : Prop := ∃ a b, r.ends a=some b ∧ a≤n ∧ n≤b

end

/-- Runs are not empty, and no two touch. -/
structure Apart (r : Runs) : Prop where
  le : ∀ {a b}, r.ends a=some b → a≤b
  gap : ∀ {a b a' b'}, r.ends a=some b → r.ends a'=some b' → a<a' → b+1<a'

variable {r : Runs} {run : ℕ × ℕ} {n : ℕ}

lemma apart_empty : empty.Apart := ⟨fun h=>absurd h (by simp [empty]), fun h=>absurd h (by simp [empty])⟩

lemma not_covers_empty : ¬empty.Covers n := by
  rintro ⟨a,b,h,-,-⟩
  cases h

lemma last_eq_some {a b : ℕ} (h : r.last n=some (a,b)) :
    r.ends a=some b ∧ a≤n ∧ ∀ a' b', r.ends a'=some b' → a'≤n → a'≤a := by
  unfold last at h
  obtain ⟨finish,hfinish,heq⟩ := Option.map_eq_some_iff.1 h
  cases heq
  refine ⟨hfinish,Nat.findGreatest_le n,fun a' b' h' hle=>?_⟩
  exact Nat.le_findGreatest hle (by rw [h']; rfl)

lemma last_eq_none (h : r.last n=none) {a b : ℕ} (hab : r.ends a=some b) : n<a := by
  unfold last at h
  by_contra hle
  have hsome := Nat.findGreatest_spec (P := fun a=>(r.ends a).isSome) (not_lt.1 hle) (by rw [hab]; rfl)
  rw [Option.map_eq_none_iff] at h
  rw [h] at hsome
  cases hsome

lemma Apart.through_of_covers (h : r.Apart) {a b : ℕ} (hab : r.ends a=some b) (ha : a≤n)
    (hb : n≤b) : r.through n=b := by
  unfold through
  cases hlast : r.last n with
  | none => exact absurd ha (not_le.2 (last_eq_none hlast hab))
  | some run =>
    obtain ⟨a',b'⟩ := run
    obtain ⟨hrun,hle,hmax⟩ := last_eq_some hlast
    have haa : a≤a' := hmax a b hab ha
    have heq : a=a' := by
      rcases haa.lt_or_eq with hlt | heq
      · have := h.gap hab hrun hlt
        omega
      · exact heq
    subst heq
    rw [hab] at hrun
    cases hrun
    exact if_pos hb

lemma through_of_not_covers (h : ¬r.Covers n) : r.through n=n-1 := by
  unfold through
  cases hlast : r.last n with
  | none => rfl
  | some run =>
    obtain ⟨hrun,hle,-⟩ := last_eq_some hlast
    exact if_neg fun hb=>h ⟨run.1,run.2,hrun,hle,hb⟩

/-- Everything from a number through the end of its run is there, and what follows is not. -/
lemma Apart.through_spec (h : r.Apart) (hn : r.Covers n) :
    n ≤ r.through n ∧ (∀ m, n ≤ m → m ≤ r.through n → r.Covers m) ∧
      ¬r.Covers (r.through n+1) := by
  obtain ⟨a,b,hab,ha,hb⟩ := hn
  rw [h.through_of_covers hab ha hb]
  refine ⟨hb,fun m hnm hmb=>⟨a,b,hab,ha.trans hnm,hmb⟩,?_⟩
  rintro ⟨a',b',hab',ha',hb'⟩
  rcases lt_trichotomy a a' with hlt | rfl | hlt
  · have := h.gap hab hab' hlt
    omega
  · rw [hab] at hab'
    cases hab'
    omega
  · have := h.gap hab' hab hlt
    omega

lemma covers_of_le_through (hn : 0<n) (hle : n ≤ r.through n) : r.Covers n := by
  by_contra hcovers
  rw [through_of_not_covers hcovers] at hle
  omega

lemma Apart.covers_iff (h : r.Apart) (hn : 0<n) : r.Covers n ↔ n ≤ r.through n :=
  ⟨fun hcovers=>(h.through_spec hcovers).1,covers_of_le_through hn⟩

lemma ends_remove {start a b : ℕ} : (r.remove start).ends a=some b ↔ a≠start ∧ r.ends a=some b := by
  unfold remove
  dsimp only
  rw [update_apply]
  split_ifs with h
  · simp [h]
  · simp [h]

lemma ends_insert {a b : ℕ} : (r.insert run).ends a=some b ↔ (a=run.1 ∧ b=run.2) ∨ (a≠run.1 ∧ r.ends a=some b) := by
  unfold insert
  dsimp only
  rw [update_apply]
  split_ifs with h
  · simp [h,eq_comm]
  · simp [h]

lemma covers_insert {m : ℕ} (h : (r.insert run).Covers m) : (run.1 ≤ m ∧ m ≤ run.2) ∨ r.Covers m := by
  obtain ⟨a,b,hab,ha,hb⟩ := h
  rcases ends_insert.1 hab with ⟨rfl,rfl⟩ | ⟨-,hab⟩
  · exact .inl ⟨ha,hb⟩
  · exact .inr ⟨a,b,hab,ha,hb⟩

/-- Joining covers nothing new. -/
lemma covers_merge {m : ℕ} (h : ((r.merge run).1.1 ≤ m ∧ m ≤ (r.merge run).1.2) ∨
    (r.merge run).2.Covers m) : (run.1 ≤ m ∧ m ≤ run.2) ∨ r.Covers m := by
  have hbefore : ((r.mergeBefore run).1.1 ≤ m ∧ m ≤ (r.mergeBefore run).1.2) ∨
      (r.mergeBefore run).2.Covers m → (run.1 ≤ m ∧ m ≤ run.2) ∨ r.Covers m := by
    unfold Runs.mergeBefore
    by_cases hzero : run.1=0
    · rw [if_pos hzero]
      exact id
    · rw [if_neg hzero]
      cases hlast : r.last (run.1-1) with
      | none => exact id
      | some before =>
        obtain ⟨start,finish⟩ := before
        obtain ⟨hends,-,-⟩ := last_eq_some hlast
        dsimp only
        split_ifs with htouch
        · rintro (hm | ⟨a,b,hab,ha,hb⟩)
          · dsimp only at hm
            by_cases hlow : m≤finish
            · exact .inr ⟨start,finish,hends,hm.1,hlow⟩
            · exact .inl ⟨by omega,by omega⟩
          · exact .inr ⟨a,b,(ends_remove.1 hab).2,ha,hb⟩
        · exact id
  refine hbefore ?_
  unfold merge Runs.mergeAfter at h
  dsimp only at h
  generalize r.mergeBefore run=out at h ⊢
  cases hafter : out.2.ends (out.1.2+1) with
  | none =>
    rw [hafter] at h
    exact h
  | some last =>
    rw [hafter] at h
    rcases h with hm | ⟨a,b,hab,ha,hb⟩
    · by_cases hlow : m≤out.1.2
      · exact .inl ⟨hm.1,hlow⟩
      · exact .inr ⟨out.1.2+1,last,hafter,by omega,hm.2⟩
    · exact .inr ⟨a,b,(ends_remove.1 hab).2,ha,hb⟩

structure Joined (r : Runs) (run joined : ℕ × ℕ) (rest : Runs) : Prop where
  sub : ∀ {a b}, rest.ends a=some b → r.ends a=some b
  le : joined.1≤joined.2
  before : ∀ {a b}, rest.ends a=some b → a<joined.1 → b+1<joined.1
  after : ∀ {a b}, rest.ends a=some b → joined.1≤a → joined.2+1<a
  covers : ∀ m, (joined.1 ≤ m ∧ m≤joined.2) ∨ rest.Covers m ↔ (run.1 ≤ m ∧ m ≤ run.2) ∨ r.Covers m

/-- A run none of whose numbers is covered lies between the others. -/
lemma beside (hrun : run.1 ≤ run.2) (hnew : ∀ m, run.1 ≤ m → m ≤ run.2 → ¬r.Covers m)
    (h : r.Apart) {a b : ℕ} (hab : r.ends a=some b) : b < run.1 ∨ run.2<a := by
  by_contra hmeet
  rw [not_or,not_lt,not_lt] at hmeet
  have hle := h.le hab
  exact hnew (max a run.1) (le_max_right _ _) (max_le hmeet.2 hrun) ⟨a,b,hab,le_max_left _ _,max_le hle hmeet.1⟩

lemma Apart.mergeBefore (h : r.Apart) (hrun : run.1 ≤ run.2) (hnew : ∀ m, run.1 ≤ m → m ≤ run.2 → ¬r.Covers m) :
    (∀ {a b}, (r.mergeBefore run).2.ends a=some b → r.ends a=some b ∧ (b+1 < (r.mergeBefore run).1.1 ∨ run.2<a)) ∧
      (r.mergeBefore run).1.1 ≤ run.1 ∧ (r.mergeBefore run).1.2=run.2 ∧
      ∀ m, ((r.mergeBefore run).1.1 ≤ m ∧ m ≤ run.2) ∨ (r.mergeBefore run).2.Covers m ↔
        (run.1 ≤ m ∧ m ≤ run.2) ∨ r.Covers m := by
  have hbeside := @beside r run hrun hnew h
  have hkept : (∀ {a b}, r.ends a=some b → b < run.1 → b+1 < run.1) →
      (∀ {a b}, r.ends a=some b → r.ends a=some b ∧ (b+1 < run.1 ∨ run.2<a)) ∧
        run.1 ≤ run.1 ∧ run.2=run.2 ∧ ∀ m, (run.1 ≤ m ∧ m ≤ run.2) ∨ r.Covers m ↔
          (run.1 ≤ m ∧ m ≤ run.2) ∨ r.Covers m := by
    intro hclear
    exact ⟨fun hab=>⟨hab,(hbeside hab).imp (hclear hab) id⟩,le_refl _,rfl,fun m=>Iff.rfl⟩
  unfold Runs.mergeBefore
  by_cases hzero : run.1=0
  · rw [if_pos hzero]
    exact hkept fun _ hlt=>by omega
  · rw [if_neg hzero]
    cases hlast : r.last (run.1-1) with
    | none =>
      refine hkept fun hab hlt=>?_
      have := last_eq_none hlast hab
      have := h.le hab
      omega
    | some before =>
      obtain ⟨start,finish⟩ := before
      obtain ⟨hends,hstart,hmax⟩ := last_eq_some hlast
      have hfinish : finish < run.1 := (hbeside hends).resolve_right (by omega)
      dsimp only
      split_ifs with htouch
      · dsimp only
        refine ⟨fun {a b} hab=>?_,by omega,by omega,fun m=>?_⟩
        · obtain ⟨hne,hab⟩ := ends_remove.1 hab
          refine ⟨hab,?_⟩
          rcases hbeside hab with hlt | hlt
          · have hab' := h.le hab
            have hstart' := hmax a b hab (by omega)
            exact .inl (h.gap hab hends (by omega))
          · exact .inr hlt
        · constructor
          · rintro (hm | ⟨a,b,hab,ha,hb⟩)
            · by_cases hlow : run.1 ≤ m
              · exact .inl ⟨hlow,hm.2⟩
              · exact .inr ⟨start,finish,hends,hm.1,by omega⟩
            · exact .inr ⟨a,b,(ends_remove.1 hab).2,ha,hb⟩
          · rintro (hm | ⟨a,b,hab,ha,hb⟩)
            · exact .inl ⟨by omega,hm.2⟩
            · by_cases hsame : a=start
              · subst hsame
                rw [hends] at hab
                cases hab
                exact .inl ⟨ha,by omega⟩
              · exact .inr ⟨a,b,ends_remove.2 ⟨hsame,hab⟩,ha,hb⟩
      · refine hkept fun {a b} hab hlt=>?_
        have hab' := h.le hab
        have hstart' := hmax a b hab (by omega)
        rcases hstart'.lt_or_eq with hlt' | rfl
        · have := h.gap hab hends hlt'
          omega
        · rw [hends] at hab
          cases hab
          omega

lemma Apart.joined (h : r.Apart) (hrun : run.1 ≤ run.2) (hnew : ∀ m, run.1 ≤ m → m ≤ run.2 → ¬r.Covers m) :
    Joined r run (r.merge run).1 (r.merge run).2 := by
  obtain ⟨hkept,hstart,hfinish,hcovers⟩ := h.mergeBefore hrun hnew
  unfold merge Runs.mergeAfter
  generalize r.mergeBefore run=out at hkept hstart hfinish hcovers
  obtain ⟨⟨start,finish⟩,rest⟩ := out
  dsimp only at hkept hstart hfinish hcovers ⊢
  subst hfinish
  cases hafter : rest.ends (run.2+1) with
  | none =>
    dsimp only
    refine ⟨fun hab=>(hkept hab).1,by omega,fun hab hlt=>?_,fun {a b} hab hle=>?_,hcovers⟩
    · exact (hkept hab).2.resolve_right fun hlt'=>by omega
    · have hab' := h.le (hkept hab).1
      have hlt := (hkept hab).2.resolve_left fun hlt=>by omega
      have hne : a≠run.2+1 := by
        rintro rfl
        rw [hafter] at hab
        cases hab
      omega
  | some last =>
    dsimp only
    have hlast := h.le (hkept hafter).1
    refine ⟨fun hab=>(hkept (ends_remove.1 hab).2).1,by omega,fun hab hlt=>?_, fun {a b} hab hle=>?_,fun m=>?_⟩
    · exact (hkept (ends_remove.1 hab).2).2.resolve_right fun hlt'=>by omega
    · obtain ⟨hne,hab⟩ := ends_remove.1 hab
      have hab' := h.le (hkept hab).1
      have hlt := (hkept hab).2.resolve_left fun hlt=>by omega
      exact h.gap (hkept hafter).1 (hkept hab).1 (by omega)
    · rw [← hcovers m]
      constructor
      · rintro (hm | ⟨a,b,hab,ha,hb⟩)
        · by_cases hlow : m ≤ run.2
          · exact .inl ⟨hm.1,hlow⟩
          · exact .inr ⟨run.2+1,last,hafter,by omega,hm.2⟩
        · exact .inr ⟨a,b,(ends_remove.1 hab).2,ha,hb⟩
      · rintro (hm | ⟨a,b,hab,ha,hb⟩)
        · exact .inl ⟨hm.1,by omega⟩
        · by_cases hsame : a=run.2+1
          · subst hsame
            rw [hafter] at hab
            cases hab
            exact .inl ⟨by omega,hb⟩
          · exact .inr ⟨a,b,ends_remove.2 ⟨hsame,hab⟩,ha,hb⟩

end Runs

end Cinnabar
