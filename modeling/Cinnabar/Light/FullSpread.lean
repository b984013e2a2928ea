import Cinnabar.Light.FullColumn

/-! # Spreading through the buckets -/

namespace Cinnabar.Light

open Function (update update_of_ne update_self)
open List

open LightBounds Relaxation

namespace FullSolveScratch

def setValues (full : FullSolveScratch) (c : LightChannel) (values : ℕ → ℕ) : FullSolveScratch :=
  match c with
  | .block => { full with block := values }
  | .sky => { full with sky := values }

variable (full : FullSolveScratch)

@[simp] lemma values_setValues (c : LightChannel) (values : ℕ → ℕ) : (full.setValues c values).values c=values := by
  cases c <;> rfl

lemma values_setValues_ne {c c' : LightChannel} (values : ℕ → ℕ)
    (h : c'≠c) : (full.setValues c values).values c'=full.values c' := by
  cases c <;> cases c' <;> first | rfl | exact absurd rfl h

@[simp] lemma filter_setValues (c : LightChannel) (values : ℕ → ℕ) : (full.setValues c values).filter=full.filter := by
  cases c <;> rfl

@[simp] lemma direct_setValues (c : LightChannel) (values : ℕ → ℕ) : (full.setValues c values).direct=full.direct := by
  cases c <;> rfl

end FullSolveScratch

namespace LightBounds

/-- Every in-bounds padded index is a `u32`. -/
def PaddedFits (b : LightBounds) : Prop := b.pad b.max≤u32Max

variable {b : LightBounds}

lemma pad_le_max {p : BlockPos} (h : b.Contains p) : b.pad p≤b.pad b.max := by
  unfold pad
  gcongr <;> omega

lemma PaddedFits.asU32 (hfit : b.PaddedFits) {p : BlockPos} (h : b.Contains p) : asU32 (b.pad p) = b.pad p :=
  asU32_of_le ((pad_le_max h).trans hfit)

end LightBounds

namespace SolveInput

variable {input : SolveInput} {full : FullSolveScratch} {c : LightChannel}

/-- The cell gives the neighbour in direction `d` no more than it has. -/
abbrev Gives (input : SolveInput) (values : ℕ → ℕ) (p : BlockPos) (d : Fin 6) : Prop :=
  values (input.pad p) - max (input.scene.filterAt (p.step (neighbours d))) 1 ≤
    values (input.pad (p.step (neighbours d)))

/-- The grids stay sound, and every known cell is queued at its level or gives nothing more.
`todo` names the neighbours still to visit. -/
structure GridSpread (input : SolveInput) (full : FullSolveScratch) (c : LightChannel)
    (todo : BlockPos → Fin 6 → Prop) (st : Spread) : Prop where
  grid : input.GridInv (full.setValues c st.values)
  entries : ∀ level, ∀ cell ∈ st.buckets level, ∃ p, input.scene.Inside p ∧ cell=input.pad p
  settled : ∀ p, input.scene.Inside p →
    2 ≤ st.values (input.pad p) ∧ input.pad p ∈ st.buckets (st.values (input.pad p)) ∨
      ∀ d, input.scene.Inside (p.step (neighbours d)) → todo p d ∨ input.Gives st.values p d

namespace GridInv

variable {values : ℕ → ℕ} (h : input.GridInv (full.setValues c values))
include h

lemma values_le {p : BlockPos} (hp : input.scene.Inside p) : values (input.pad p) ≤ 15 := by
  simpa using h.le p hp c

lemma filter_read : input.FilterRead full.filter := by simpa using h.filter

/-- The level is the rank with the provenance forgotten. -/
lemma min_gridField {p : BlockPos} (hp : input.scene.Inside p) :
    min (input.gridField (full.setValues c values) (p,c)) 15=values (input.pad p) := by
  have hle := h.values_le hp
  rw [gridField_of_inside hp]
  split_ifs with hd
  · obtain ⟨rfl,hd⟩ := hd
    have hl := h.direct_level p hp hd
    change values (input.pad p) = 15 at hl
    rw [hl]
    rfl
  · rw [FullSolveScratch.values_setValues]
    omega

section
variable {p : BlockPos} {d : Fin 6} (hp : input.scene.Inside p)
  (hq : input.scene.Inside (p.step (neighbours d))) (hraise : ¬input.Gives values p d)
include hp hq hraise

lemma not_direct : ¬(c = .sky ∧ full.direct (input.pad (p.step (neighbours d))) = true) := by
  rintro ⟨rfl,hd⟩
  have hl := h.direct_level _ hq (by simpa using hd)
  change values (input.pad (p.step (neighbours d))) = 15 at hl
  have := h.values_le hp
  exact hraise (by omega)

lemma gridField_raised (cell : LightCell) : input.gridField (full.setValues c (update values
      (input.pad (p.step (neighbours d)))
      (values (input.pad p) - max (input.scene.filterAt (p.step (neighbours d))) 1))) cell =
      if cell = (p.step (neighbours d),c) then
        values (input.pad p) - max (input.scene.filterAt (p.step (neighbours d))) 1
      else input.gridField (full.setValues c values) cell := by
  obtain ⟨q,c'⟩ := cell
  by_cases hqin : input.scene.Inside q
  · simp only [gridField_of_inside hqin,FullSolveScratch.direct_setValues,Prod.mk.injEq]
    by_cases hc : c'=c
    · subst hc
      simp only [FullSolveScratch.values_setValues,and_true]
      by_cases heq : q=p.step (neighbours d)
      · subst heq
        rw [if_neg (h.not_direct hp hq hraise),if_pos rfl,update_self]
      · have hne : input.pad q≠input.pad (p.step (neighbours d)) := fun he=>heq (pad_inj hqin.1.around hq.1.around he)
        rw [if_neg heq,update_of_ne hne]
    · simp only [FullSolveScratch.values_setValues_ne _ _ hc,hc,and_false,if_false]
  · rw [if_neg]
    · simp [gridField,hqin]
    · rintro ⟨⟩
      exact hqin hq

lemma le_gridField_raised (cell : LightCell) : input.gridField (full.setValues c values) cell ≤
      input.gridField (full.setValues c (update values (input.pad (p.step (neighbours d)))
        (values (input.pad p) - max (input.scene.filterAt (p.step (neighbours d))) 1))) cell := by
  rw [h.gridField_raised hp hq hraise]
  split_ifs with hc
  · rw [hc,gridField_of_inside hq,FullSolveScratch.direct_setValues,
      if_neg (h.not_direct hp hq hraise),FullSolveScratch.values_setValues]
    exact (Nat.lt_of_not_le hraise).le
  · exact le_rfl

lemma raised : input.GridInv (full.setValues c (update values (input.pad (p.step (neighbours d)))
    (values (input.pad p) - max (input.scene.filterAt (p.step (neighbours d))) 1))) where
  filter := by simpa using h.filter_read
  le p' hp' c' := by
    by_cases hc : c'=c
    · subst hc
      rw [FullSolveScratch.values_setValues]
      by_cases he : input.pad p'=input.pad (p.step (neighbours d))
      · have := h.values_le hp
        rw [he,update_self]
        omega
      · rw [update_of_ne he]
        exact h.values_le hp'
    · have := h.le p' hp' c'
      rwa [FullSolveScratch.values_setValues_ne _ _ hc] at this ⊢
  direct_inside p' hp' hd := h.direct_inside p' hp' (by simpa using hd)
  direct_level p' hp' hd := by
    have hd' : full.direct (input.pad p') = true := by simpa using hd
    have hl := h.direct_level p' hp' (by simpa using hd')
    cases c with
    | block => exact hl
    | sky =>
      change update values _ _ (input.pad p') = 15
      rw [update_of_ne]
      · exact hl
      · intro he
        obtain rfl := pad_inj hp'.1.around hq.1.around he
        exact h.not_direct hp hq hraise ⟨rfl,hd'⟩
  sound := by
    refine h.sound.step fun cell=>?_
    rw [h.gridField_raised hp hq hraise]
    split_ifs with hc
    · subst hc
      refine .inr (.inr ⟨(p,c),?_⟩)
      have hback : (p.step (neighbours d)).step (neighbours (opposite d)) = p := step_opposite p d
      have hflow := Scene.le_flow (c := c) (d := opposite d) hq (hback.symm ▸ hp)
        (input.gridField (full.setValues c values) (p,c))
      rw [hback] at hflow
      exact (le_carried (h.min_gridField hp).ge).trans hflow
    · exact .inl le_rfl
  base_le p' hp' c' := (h.base_le p' hp' c').trans (h.le_gridField_raised hp hq hraise _)
  halo_le p' hp' c' d' := (h.halo_le p' hp' c' d').trans (h.le_gridField_raised hp hq hraise _)
  down p' hp' d' hq' hdown := by
    rw [h.gridField_raised hp hq hraise] at hdown
    split_ifs at hdown with hc
    · obtain ⟨-,-,-,h16,-⟩ := Scene.carried_eq_direct hdown
      have := h.values_le hp
      unfold directRank at h16
      omega
    · simpa using h.down p' hp' d' hq' hdown

end

end GridInv

namespace GridSpread

variable {todo todo' : BlockPos → Fin 6 → Prop} {st : Spread}

lemma congr (h : input.GridSpread full c todo st) (st' : Spread) (hv : st'.values=st.values)
    (hb : st'.buckets=st.buckets) : input.GridSpread full c todo st' :=
  ⟨hv ▸ h.grid,hb ▸ h.entries,by rw [hv,hb]; exact h.settled⟩

lemma mono (h : input.GridSpread full c todo st) (htodo : ∀ p, input.scene.Inside p → ∀ d, todo p d →
      input.scene.Inside (p.step (neighbours d)) → todo' p d ∨ input.Gives st.values p d) :
    input.GridSpread full c todo' st := by
  refine ⟨h.grid,h.entries,fun p hp=>(h.settled p hp).imp id fun hs d hq=>?_⟩
  rcases hs d hq with ht | hg
  · exact htodo p hp d ht hq
  · exact .inr hg

lemma gives_of_dim {values : ℕ → ℕ} {p : BlockPos} (h : values (input.pad p) ≤ 1) (d : Fin 6) :
    input.Gives values p d := by
  omega

lemma push_buckets (st : Spread) (hfit : input.bounds.PaddedFits) (level : ℕ) {p : BlockPos}
    (hp : input.scene.Inside p) : (st.push level (input.pad p)).buckets =
      update st.buckets level (input.pad p::st.buckets level) := by
  simp only [Spread.push]
  rw [hfit.asU32 hp.1]

lemma mem_push {level level' cell cell' : ℕ} {buckets : ℕ → List ℕ} (h : cell' ∈ buckets level') :
    cell' ∈ update buckets level (cell::buckets level) level' := by
  by_cases hl : level'=level
  · subst hl
    rw [update_self]
    exact .tail _ h
  · rwa [update_of_ne hl]

lemma of_mem_push {level level' cell cell' : ℕ} {buckets : ℕ → List ℕ}
    (h : cell' ∈ update buckets level (cell::buckets level) level') :
    level'=level ∧ cell'=cell ∨ cell' ∈ buckets level' := by
  by_cases hl : level'=level
  · subst hl
    rw [update_self] at h
    exact (mem_cons.1 h).imp (fun he=>⟨rfl,he⟩) id
  · rw [update_of_ne hl] at h
    exact .inr h

/-- Queueing a lit cell. -/
lemma push (h : input.GridSpread full c todo st) (hfit : input.bounds.PaddedFits) {p : BlockPos}
    (hp : input.scene.Inside p) (hlit : 2 ≤ st.values (input.pad p))
    (htodo : ∀ p', input.scene.Inside p' → ∀ d, todo p' d → p'=p ∨ todo' p' d) :
    input.GridSpread full c todo' (st.push (st.values (input.pad p)) (input.pad p)) := by
  have hb := push_buckets st hfit (st.values (input.pad p)) hp
  refine ⟨h.grid,fun level cell hmem=>?_,fun p' hp'=>?_⟩
  · rw [hb] at hmem
    rcases of_mem_push hmem with ⟨-,rfl⟩ | hold
    · exact ⟨p,hp,rfl⟩
    · exact h.entries level cell hold
  · rw [hb]
    by_cases hpp : p'=p
    · subst hpp
      refine .inl ⟨hlit,?_⟩
      change _ ∈ update st.buckets _ _ (st.values _)
      rw [update_self]
      exact .head _
    · rcases h.settled p' hp' with ⟨h2,hmem⟩ | hs
      · exact .inl ⟨h2,mem_push hmem⟩
      · refine .inr fun d hq=>(hs d hq).imp (fun ht=>?_) id
        exact (htodo p' hp' d ht).resolve_left hpp

section
variable {p : BlockPos} {d : Fin 6} (h : input.GridSpread full c todo st)
  (hp : input.scene.Inside p) (hq : input.scene.Inside (p.step (neighbours d)))
  (hraise : ¬input.Gives st.values p d)
include h hp hq hraise

/-- Raising a neighbour leaves its own obligations open until it is queued, and meets one of the
popped cell's. -/
lemma raised_values :
    let candidate := st.values (input.pad p) - max (input.scene.filterAt (p.step (neighbours d))) 1
    let values := update st.values (input.pad (p.step (neighbours d))) candidate
    input.GridSpread full c (fun p' d'=>p'=p.step (neighbours d) ∨ todo p' d' ∧ ¬(p'=p ∧ d'=d))
      { st with values := values } := by
  intro candidate values
  have hne : ∀ p', input.scene.Inside p' → p'≠p.step (neighbours d) →
      values (input.pad p') = st.values (input.pad p') := by
    intro p' hp' hpp
    exact update_of_ne (fun he=>hpp (pad_inj hp'.1.around hq.1.around he)) _ _
  have hself : values (input.pad (p.step (neighbours d))) = candidate := update_self ..
  have hgrow : ∀ p', input.scene.Inside p' → st.values (input.pad p') ≤ values (input.pad p') := by
    intro p' hp'
    by_cases hpp : p'=p.step (neighbours d)
    · rw [hpp,hself]
      exact (Nat.lt_of_not_le hraise).le
    · rw [hne p' hp' hpp]
  refine ⟨h.grid.raised hp hq hraise,h.entries,fun p' hp'=>?_⟩
  by_cases hpp : p'=p.step (neighbours d)
  · exact .inr fun d' _=>.inl (.inl hpp)
  · change 2≤values (input.pad p') ∧ input.pad p' ∈ st.buckets (values (input.pad p')) ∨
      ∀ d', _ → _ ∨ input.Gives values p' d'
    rw [hne p' hp' hpp]
    refine (h.settled p' hp').imp id fun hs d' hq'=>?_
    by_cases hpd : p'=p ∧ d'=d
    · obtain ⟨rfl,rfl⟩ := hpd
      refine .inr ?_
      rw [Gives,hne p' hp' hpp,hself]
    · rcases hs d' hq' with ht | hg
      · exact .inl (.inr ⟨ht,hpd⟩)
      · refine .inr ?_
        rw [Gives,hne p' hp' hpp]
        exact hg.trans (hgrow _ hq')

end

end GridSpread

section
variable {st : Spread} {limits : SolverLimits} {p : BlockPos} {level : ℕ}

lemma next_eq (hp : input.scene.Inside p) (d : Fin 6) :
    (Grid.new input.bounds).next (input.pad p) d=input.pad (p.step (neighbours d)) :=
  next_pad hp.1 d

def KeepsAbove (level : ℕ) (st st' : Spread) : Prop :=
  ∀ l, level≤l → st'.buckets l=st.buckets l

lemma spreadNext_ensures (hfit : input.bounds.PaddedFits) {pre : List (Fin 6)} {d : Fin 6}
    (h : input.GridSpread full c (todoFrom p pre) st) (hp : input.scene.Inside p)
    (hlevel : st.values (input.pad p) = level) :
    Ensures (Halt.Exceeds limits) (fun st' =>
      input.GridSpread full c (todoFrom p (pre ++ [d])) st' ∧ st'.values (input.pad p) = level ∧
        KeepsAbove level st st')
      (spreadNext (Grid.new input.bounds) limits full.filter level (input.pad p) st d) := by
  have hfilter := h.grid.filter_read
  simp only [spreadNext,next_eq hp]
  by_cases hq : input.scene.Inside (p.step (neighbours d))
  · have hopen := hfilter (p.step (neighbours d)) hq.1.around
    rw [if_pos hq] at hopen
    rw [if_neg ((hfilter.ne_blocked hq.1.around).2 hq),hopen]
    by_cases hraise : input.Gives st.values p d
    · rw [if_neg (by rw [← hlevel]; exact Nat.not_lt.2 hraise),Ensures.ok_iff]
      refine ⟨h.mono ?_,hlevel,fun _ _=>rfl⟩
      rintro p' - d' ⟨rfl,hd'⟩ -
      by_cases hdd : d'=d
      · exact .inr (hdd ▸ hraise)
      · exact .inl ⟨rfl,by simp [hd',hdd]⟩
    · have hlt : level-max (input.scene.filterAt (p.step (neighbours d))) 1 >
          st.values (input.pad (p.step (neighbours d))) := by
        rw [← hlevel]
        exact Nat.lt_of_not_le hraise
      have hraised := h.raised_values hp hq hraise
      simp only [hlevel] at hraised
      have hkeep : update st.values (input.pad (p.step (neighbours d)))
          (level-max (input.scene.filterAt (p.step (neighbours d))) 1) (input.pad p) = level := by
        rw [update_of_ne,hlevel]
        exact fun he=>step_ne p d (pad_inj hq.1.around hp.1.around he.symm)
      split_ifs with hlit
      · refine Ensures.bind (enqueueCounted_ensures 1) fun total _=>?_
        have hpush : input.GridSpread full c (todoFrom p (pre ++ [d])) _ := (hraised.congr { st with
          values := update st.values (input.pad (p.step (neighbours d)))
            (level-max (input.scene.filterAt (p.step (neighbours d))) 1)
          queuedTotal := total } rfl rfl).push hfit hq (by simp only [update_self]; omega) ?_
        · simp only [update_self] at hpush
          refine ⟨hpush.congr _ rfl rfl,hkeep,fun l hl=>?_⟩
          exact update_of_ne (by omega) _ _
        · rintro p' - d' (rfl | ⟨⟨rfl,hd'⟩,hpd⟩)
          · exact .inl rfl
          · exact .inr ⟨rfl,by simp_all⟩
      · refine ⟨hraised.mono ?_,hkeep,fun _ _=>rfl⟩
        rintro p' - d' (rfl | ⟨⟨rfl,hd'⟩,hpd⟩) -
        · exact .inr (GridSpread.gives_of_dim (by simpa using hlit) d')
        · exact .inl ⟨rfl,by simp_all⟩
  · have hblocked := hfilter (p.step (neighbours d)) (hp.1.around_step d)
    rw [if_neg hq] at hblocked
    rw [if_pos hblocked,Ensures.ok_iff]
    refine ⟨h.mono ?_,hlevel,fun _ _=>rfl⟩
    rintro p' - d' ⟨rfl,hd'⟩ hq'
    refine .inl ⟨rfl,?_⟩
    have hne : d'≠d := fun he=>hq (he ▸ hq')
    simp [hd',hne]

/-- Popping a cell opens its obligations, unless it has risen since it was queued. -/
lemma GridSpread.popped {cell : ℕ} {rest : List ℕ}
    (h : input.GridSpread full c (fun _ _=>False) st) (hb : st.buckets level=cell::rest) :
    ∃ p, input.scene.Inside p ∧ cell=input.pad p ∧
      input.GridSpread full c (fun p' _=>p'=p ∧ st.values (input.pad p) = level)
        { st with buckets := update st.buckets level rest, pending := st.pending-1 } := by
  obtain ⟨p,hp,rfl⟩ := h.entries level cell (by rw [hb]; exact .head _)
  refine ⟨p,hp,rfl,h.grid,fun l cell hmem=>?_,fun p' hp'=>?_⟩
  · by_cases hl : l=level
    · subst hl
      simp only [update_self] at hmem
      exact h.entries l cell (by rw [hb]; exact .tail _ hmem)
    · simp only [update_of_ne hl] at hmem
      exact h.entries l cell hmem
  · rcases h.settled p' hp' with ⟨h2,hmem⟩ | hs
    · by_cases hl : st.values (input.pad p') = level
      · rw [hl,hb] at hmem
        rcases mem_cons.1 hmem with he | hmem
        · obtain rfl := pad_inj hp'.1.around hp.1.around he
          exact .inr fun d _=>.inl ⟨rfl,hl⟩
        · refine .inl ⟨h2,?_⟩
          simp only [hl,update_self]
          exact hmem
      · refine .inl ⟨h2,?_⟩
        simp only [update_of_ne hl]
        exact hmem
    · exact .inr fun d hq=>(hs d hq).imp False.elim id

lemma spreadCell_ensures (hfit : input.bounds.PaddedFits) {cell : ℕ} {st' : Spread}
    (h : input.GridSpread full c (fun _ _=>False) st) (hpop : st.pop level=some (cell,st')) :
    Ensures (Halt.Exceeds limits) (fun st'' =>
      input.GridSpread full c (fun _ _=>False) st'' ∧ KeepsAbove (level+1) st st'' ∧
        (st''.buckets level).length < (st.buckets level).length)
      (spreadCell (Grid.new input.bounds) limits full.filter level cell st') := by
  rw [Spread.pop] at hpop
  cases hb : st.buckets level with
  | nil => simp [hb] at hpop
  | cons head rest =>
    simp only [hb,Option.some.injEq,Prod.mk.injEq] at hpop
    obtain ⟨rfl,rfl⟩ := hpop
    obtain ⟨p,hp,rfl,hpopped⟩ := h.popped hb
    have hkeep : KeepsAbove (level+1) st { st with
        buckets := update st.buckets level rest, pending := st.pending-1 } :=
      fun l hl=>update_of_ne (by omega) _ _
    unfold spreadCell
    by_cases hlevel : st.values (input.pad p) = level
    · rw [if_neg (not_not.2 hlevel)]
      refine (Ensures.foldlM (I := fun pre st'' =>
        input.GridSpread full c (todoFrom p pre) st'' ∧ st''.values (input.pad p) = level ∧
          KeepsAbove level { st with
            buckets := update st.buckets level rest, pending := st.pending-1 } st'')
        ?_ ?_).mono ?_
      · refine ⟨(hpopped.mono ?_).congr _ rfl rfl,hlevel,fun _ _=>rfl⟩
        rintro p' - d ⟨rfl,-⟩ -
        exact .inl ⟨rfl,not_mem_nil⟩
      · rintro pre d post st'' - ⟨h₁,hl₁,hk₁⟩
        refine (spreadNext_ensures hfit h₁ hp hl₁).mono fun st₂ ⟨h₂,hl₂,hk₂⟩=>⟨h₂,hl₂,?_⟩
        exact fun l hl=>(hk₂ l hl).trans (hk₁ l hl)
      · rintro st'' ⟨h₁,-,hk₁⟩
        refine ⟨h₁.mono ?_,fun l hl=>(hk₁ l (by omega)).trans (hkeep l hl),?_⟩
        · rintro p' - d ⟨rfl,hd⟩ -
          exact absurd (by simp [directions]) hd
        · rw [hk₁ level le_rfl]
          simp
    · rw [if_pos hlevel,Ensures.ok_iff]
      refine ⟨hpopped.mono ?_,hkeep,by simp⟩
      rintro p' - d ⟨-,hl⟩ -
      exact absurd hl hlevel

end

lemma seedCell_ensures {limits : SolverLimits} (hfit : input.bounds.PaddedFits) {seen : List ℕ} {cell : ℕ} {st : Spread}
    (h : input.GridSpread full c (fun p _=>input.pad p ∉ seen) st)
    (hcell : cell ∈ (Grid.new input.bounds).cells) :
    Ensures (Halt.Exceeds limits) (input.GridSpread full c fun p _=>input.pad p ∉ seen ++ [cell])
      (seedCell (Grid.new input.bounds) limits full.filter st cell) := by
  obtain ⟨p,hp,rfl⟩ := mem_cells.1 hcell
  have hfilter := h.grid.filter_read
  have htodo : ∀ p', input.scene.Inside p' → p'≠p → input.pad p' ∉ seen → input.pad p' ∉ seen ++ [input.pad p] := by
    intro p' hp' hne hs
    have : input.pad p'≠input.pad p := fun he=>hne (pad_inj hp'.1.around hp.around he)
    simp [hs,this]
  simp only [seedCell]
  split_ifs with hseed
  · obtain ⟨hlit,hopen,-⟩ := hseed
    have hin := (hfilter.ne_blocked hp.around).1 hopen
    refine Ensures.bind (enqueueCounted_ensures 1) fun total _=>?_
    refine (h.congr { st with queuedTotal := total } rfl rfl).push hfit hin hlit ?_
    intro p' hp' d hs
    by_cases hne : p'=p
    · exact .inl hne
    · exact .inr (htodo p' hp' hne hs)
  · refine h.mono fun p' hp' d hs hq=>?_
    by_cases hne : p'=p
    · subst hne
      refine .inr ?_
      by_contra hraise
      refine hseed ⟨?_,(hfilter.ne_blocked hp.around).2 hp',?_⟩
      · by_contra hdim
        exact hraise (GridSpread.gives_of_dim (Nat.not_lt.1 hdim) d)
      · refine any_eq_true.2 ⟨d,by simp [directions],?_⟩
        have hopen := hfilter (p'.step (neighbours d)) hq.1.around
        rw [if_pos hq] at hopen
        simp only [next_eq hp',hopen,decide_eq_true_eq]
        refine ⟨?_,Nat.lt_of_not_le hraise⟩
        rw [← hopen]
        exact (hfilter.ne_blocked hq.1.around).2 hq
    · exact .inl (htodo p' hp' hne hs)

/-- The levels come in falling order. -/
lemma spreadLevels_split {level : ℕ} {pre post : List ℕ} (h : spreadLevels=pre++level::post) : ∀ l ∈ pre, level<l := by
  have hsorted : spreadLevels.Pairwise (· > ·) := by decide
  rw [h] at hsorted
  exact fun l hl=>(pairwise_append.1 hsorted).2.2 l hl level (.head _)

lemma spread_ensures {limits : SolverLimits} (hfit : input.bounds.PaddedFits)
    (h : input.GridInv full) (c : LightChannel) (buckets : ℕ → List ℕ) (total : ℕ)
    (stats : LightSolveStats) :
    Ensures (Halt.Exceeds limits) (fun st=>input.GridInv (full.setValues c st.values) ∧
        ∀ p, input.scene.Inside p → ∀ d, input.scene.Inside (p.step (neighbours d)) → input.Gives st.values p d)
      (spread (Grid.new input.bounds) limits full.filter (full.values c) buckets total stats) := by
  refine Ensures.bind (Ensures.foldlM (I := fun seen =>
    input.GridSpread full c fun p _=>input.pad p ∉ seen) ?_ ?_) fun st₁ h₁=>?_
  · refine ⟨?_,fun level cell hmem=>absurd hmem (by simp),fun p _=>.inr fun d _=>.inl ?_⟩
    · cases c <;> exact h
    · exact not_mem_nil
  · intro pre cell post st hl hst
    exact seedCell_ensures hfit hst (by rw [hl]; simp)
  have hseeded : input.GridSpread full c (fun _ _=>False) st₁ := by
    refine h₁.mono fun p hp d hs _=>absurd (mem_cells.2 ⟨p,hp.1,rfl⟩) hs
  refine (Ensures.foldlM (I := fun levels st =>
    input.GridSpread full c (fun _ _=>False) st ∧ ∀ l ∈ levels, st.buckets l = []) ?_ ?_).mono ?_
  · exact ⟨hseeded.congr _ rfl rfl,fun l hl=>absurd hl not_mem_nil⟩
  · rintro pre level post st hl ⟨hst,hempty⟩
    refine (drain_ensures (I := fun st'=>input.GridSpread full c (fun _ _=>False) st' ∧
      ∀ l ∈ pre, st'.buckets l = []) (fun st'=>(st'.buckets level).length) ?_ ?_
      ⟨hst,hempty⟩ le_rfl).mono ?_
    · intro st' next _ hpop
      rw [Spread.pop] at hpop
      cases hb : st'.buckets level with
      | nil => simp [hb] at hpop
      | cons _ _ => simp
    · rintro st' cell rest ⟨hst',hempty'⟩ hpop
      refine (spreadCell_ensures hfit hst' hpop).mono fun st'' ⟨h₂,hkeep,hlt⟩=>⟨⟨h₂,?_⟩,hlt⟩
      intro l hl'
      rw [hkeep l (spreadLevels_split hl l hl'),hempty' l hl']
    · rintro st' ⟨⟨hst',hempty'⟩,hnone⟩
      refine ⟨hst',fun l hl'=>?_⟩
      rcases mem_append.1 hl' with hl' | hl'
      · exact hempty' l hl'
      · rw [mem_singleton.1 hl']
        rw [Spread.pop] at hnone
        cases hb : st'.buckets level with
        | nil => rfl
        | cons _ _ => simp [hb] at hnone
  · rintro st ⟨hst,hempty⟩
    refine ⟨hst.grid,fun p hp d hq=>?_⟩
    rcases hst.settled p hp with ⟨h2,hmem⟩ | hs
    · have h15 := hst.grid.values_le hp
      rw [hempty _ (by simp only [spreadLevels,mem_cons]; omega)] at hmem
      exact absurd hmem not_mem_nil
    · exact (hs d hq).resolve_left id

end SolveInput

end Cinnabar.Light
