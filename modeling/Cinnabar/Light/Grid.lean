import Cinnabar.Light.Types

/-! # The dense order of a solve region -/

namespace Cinnabar.Light

open List

/-- Two digits below the radix are determined by the number they write. -/
lemma digits_inj {m a a' r r' : ℕ} (hr : r < m) (hr' : r' < m) (h : a*m+r=a'*m+r') : a=a' ∧ r=r' := by
  have hm : 0 < m := by omega
  have ha : (a*m+r) / m=a := by
    rw [Nat.mul_comm,Nat.mul_add_div hm,Nat.div_eq_of_lt hr,Nat.add_zero]
  have ha' : (a'*m+r') / m=a' := by
    rw [Nat.mul_comm,Nat.mul_add_div hm,Nat.div_eq_of_lt hr',Nat.add_zero]
  have haa : a=a' := by rw [← ha,h,ha']
  subst haa
  exact ⟨rfl,by omega⟩

private lemma digits_lt {m n a r : ℕ} (ha : a<n) (hr : r < m) : a*m+r<n*m := by
  have h : (a+1) * m≤n*m := Nat.mul_le_mul_right m ha
  rw [Nat.add_mul,Nat.one_mul] at h
  omega

namespace LightBounds

variable (b : LightBounds)

def cells : ℕ := b.xLen*b.yLen*b.zLen

/-- Offsets of a position from the minimum corner. -/
def dx (p : BlockPos) : ℕ := (p.x-b.min.x).toNat
def dy (p : BlockPos) : ℕ := (p.y-b.min.y).toNat
def dz (p : BlockPos) : ℕ := (p.z-b.min.z).toNat

/-- The dense index `light_dense_index` computes inside the bounds. -/
def denseIndex (p : BlockPos) : ℕ := (b.dx p*b.yLen+b.dy p) * b.zLen+b.dz p

variable {b}

variable {p : BlockPos}

lemma dx_lt (h : b.Contains p) : b.dx p<b.xLen := by
  unfold dx xLen
  omega

lemma dy_lt (h : b.Contains p) : b.dy p<b.yLen := by
  unfold dy yLen
  omega

lemma dz_lt (h : b.Contains p) : b.dz p<b.zLen := by
  unfold dz zLen
  omega

lemma pos_ext {p q : BlockPos} (hp : b.Contains p) (hq : b.Contains q) (hx : b.dx p=b.dx q)
    (hy : b.dy p=b.dy q) (hz : b.dz p=b.dz q) : p=q := by
  obtain ⟨px,-,py,-,pz,-⟩ := hp
  obtain ⟨qx,-,qy,-,qz,-⟩ := hq
  unfold dx at hx
  unfold dy at hy
  unfold dz at hz
  cases p; cases q
  simp only [BlockPos.mk.injEq] at *
  omega

lemma contains_iff : b.contains p=true ↔ b.Contains p := by
  simp [contains]

lemma contains_min : b.Contains b.min :=
  ⟨le_rfl,b.x_le,le_rfl,b.y_le,le_rfl,b.z_le⟩

lemma contains_max : b.Contains b.max :=
  ⟨b.x_le,le_rfl,b.y_le,le_rfl,b.z_le,le_rfl⟩

lemma Contains.representable (h : b.Contains p) : p.Representable := by
  obtain ⟨h1,h2,h3,h4,h5,h6⟩ := h
  have hmin := b.min_rep
  have hmax := b.max_rep
  exact ⟨⟨hmin.x.1.trans h1,h2.trans hmax.x.2⟩,⟨hmin.y.1.trans h3,h4.trans hmax.y.2⟩,
    ⟨hmin.z.1.trans h5,h6.trans hmax.z.2⟩⟩

lemma denseIndex_lt (h : b.Contains p) : b.denseIndex p<b.cells :=
  digits_lt (digits_lt (dx_lt h) (dy_lt h)) (dz_lt h)

lemma denseIndex_inj {p q : BlockPos} (hp : b.Contains p) (hq : b.Contains q)
    (h : b.denseIndex p=b.denseIndex q) : p=q := by
  obtain ⟨hxy,hz⟩ := digits_inj (dz_lt hp) (dz_lt hq) h
  obtain ⟨hx,hy⟩ := digits_inj (dy_lt hp) (dy_lt hq) hxy
  exact pos_ext hp hq hx hy hz

lemma cells_of_volume {v : ℕ} (h : b.volume=some v) : v=b.cells ∧ b.cells≤usizeMax := by
  unfold volume at h
  split_ifs at h with hv
  cases h
  unfold cells usizeMax
  omega

lemma lightDenseIndex_of_contains (hv : b.cells≤usizeMax) (h : b.Contains p) :
    lightDenseIndex b b.yLen b.zLen p=some (b.denseIndex p) := by
  have hi := denseIndex_lt h
  have hxy : b.dx p*b.yLen+b.dy p ≤ (b.dx p*b.yLen+b.dy p) * b.zLen :=
    Nat.le_mul_of_pos_right _ (Nat.zero_lt_of_lt (dz_lt h))
  have hd : b.denseIndex p = (b.dx p*b.yLen+b.dy p) * b.zLen+b.dz p := rfl
  simp only [lightDenseIndex,contains_iff.2 h,if_true,Option.bind_eq_bind,checkedMulUsize, checkedAddUsize]
  change Option.bind (if b.dx p*b.yLen≤usizeMax then some (b.dx p*b.yLen) else none) _=_
  rw [if_pos (by omega)]
  change Option.bind (if b.dx p*b.yLen+b.dy p≤usizeMax then
    some (b.dx p*b.yLen+b.dy p) else none) _=_
  rw [if_pos (by omega)]
  change Option.bind (if (b.dx p*b.yLen+b.dy p) * b.zLen≤usizeMax then
    some ((b.dx p*b.yLen+b.dy p) * b.zLen) else none) _=_
  rw [if_pos (by omega)]
  change (if (b.dx p*b.yLen+b.dy p) * b.zLen+b.dz p≤usizeMax then
    some ((b.dx p*b.yLen+b.dy p) * b.zLen+b.dz p) else none) = _
  rw [if_pos (by omega),hd]

lemma lightDenseIndex_of_not_contains (h : ¬b.Contains p) : lightDenseIndex b b.yLen b.zLen p=none := by
  have hc : b.contains p=false := by simpa [contains] using h
  simp [lightDenseIndex,hc]

/-- One step of the dense walk stays inside and advances the index by one. -/
lemma nextPosition_some {p q : BlockPos} (hp : b.Contains p) (h : b.nextPosition false p=some q) :
    b.Contains q ∧ b.denseIndex q=b.denseIndex p+1 := by
  obtain ⟨h1,h2,h3,h4,h5,h6⟩ := hp
  simp only [nextPosition,Bool.false_and,Bool.false_eq_true,if_false] at h
  split_ifs at h with hz hy hx
  · cases h
    refine ⟨⟨h1,h2,h3,h4,by simp only; omega,by simp only; omega⟩,?_⟩
    have hdz : b.dz ⟨p.x,p.y,p.z+1⟩ = b.dz p+1 := by simp only [dz]; omega
    have hdy : b.dy ⟨p.x,p.y,p.z+1⟩ = b.dy p := rfl
    have hdx : b.dx ⟨p.x,p.y,p.z+1⟩ = b.dx p := rfl
    rw [denseIndex,hdz,hdy,hdx,denseIndex,Nat.add_assoc]
  · cases h
    refine ⟨⟨h1,h2,by simp only; omega,by simp only; omega,le_rfl,b.z_le⟩,?_⟩
    have hdz : b.dz ⟨p.x,p.y+1,b.min.z⟩ = 0 := by simp [dz]
    have hdz' : b.dz p+1=b.zLen := by simp only [dz,zLen]; omega
    have hdy : b.dy ⟨p.x,p.y+1,b.min.z⟩ = b.dy p+1 := by simp only [dy]; omega
    have hdx : b.dx ⟨p.x,p.y+1,b.min.z⟩ = b.dx p := rfl
    rw [denseIndex,hdz,hdy,hdx,denseIndex,← Nat.add_assoc,Nat.add_mul,Nat.one_mul]
    omega
  · cases h
    refine ⟨⟨by simp only; omega,by simp only; omega,le_rfl,b.y_le,le_rfl,b.z_le⟩,?_⟩
    have hdz : b.dz ⟨p.x+1,b.min.y,b.min.z⟩ = 0 := by simp [dz]
    have hdz' : b.dz p+1=b.zLen := by simp only [dz,zLen]; omega
    have hdy : b.dy ⟨p.x+1,b.min.y,b.min.z⟩ = 0 := by simp [dy]
    have hdy' : b.dy p+1=b.yLen := by simp only [dy,yLen]; omega
    have hdx : b.dx ⟨p.x+1,b.min.y,b.min.z⟩ = b.dx p+1 := by simp only [dx]; omega
    have hrow : (b.dx p+1) * b.yLen=b.dx p*b.yLen+b.dy p+1 := by
      rw [Nat.add_mul,Nat.one_mul]
      omega
    rw [denseIndex,hdz,hdy,hdx,denseIndex,Nat.add_zero,Nat.add_zero,hrow,Nat.add_mul, Nat.one_mul]
    omega

/-- The walk only ends at the last cell. -/
lemma nextPosition_none {s : Bool} (hp : b.Contains p) (h : b.nextPosition s p=none) : b.denseIndex p+1=b.cells := by
  simp only [nextPosition] at h
  split_ifs at h with hz hy hx
  have hdz : b.dz p+1=b.zLen := by simp only [dz,zLen]; omega
  have hdy : b.dy p+1=b.yLen := by simp only [dy,yLen]; omega
  have hdx : b.dx p+1=b.xLen := by simp only [dx,xLen]; omega
  rw [cells,denseIndex,← hdz,← hdy,← hdx]
  ring

/-- The `k`-th cell visited from `p` has dense index `k` past that of `p`. -/
lemma walk_getElem? {n k : ℕ} (hp : b.Contains p) (hn : b.denseIndex p+n≤b.cells) (hk : k<n) :
    ∃ q, (b.walk false n (some p))[k]? = some q ∧ b.Contains q ∧
      b.denseIndex q=b.denseIndex p+k := by
  induction n generalizing k p with
  | zero => omega
  | succ n ih =>
    cases k with
    | zero => exact ⟨p,by simp [walk],hp,rfl⟩
    | succ k =>
      cases hq : b.nextPosition false p with
      | none =>
        have := nextPosition_none hp hq
        omega
      | some q =>
        obtain ⟨hqc,hqi⟩ := nextPosition_some hp hq
        obtain ⟨r,hr,hrc,hri⟩ := ih hqc (by omega) (show k<n by omega)
        refine ⟨r,?_,hrc,by omega⟩
        simpa [walk,hq] using hr

lemma denseIndex_min : b.denseIndex b.min=0 := by
  simp [denseIndex,dx,dy,dz]

lemma positions_getElem? {k : ℕ} (hk : k<b.cells) :
    ∃ q, b.positions[k]? = some q ∧ b.Contains q ∧ b.denseIndex q=k := by
  obtain ⟨q,h1,h2,h3⟩ := walk_getElem? (n := b.cells) b.contains_min (by rw [denseIndex_min]; omega) hk
  exact ⟨q,h1,h2,by rw [h3,denseIndex_min]; omega⟩

lemma walk_length_le (s : Bool) (n : ℕ) (p : Option BlockPos) : (b.walk s n p).length≤n := by
  induction n generalizing p with
  | zero => simp [walk]
  | succ n ih =>
    cases p with
    | none => simp [walk]
    | some p =>
      have := ih (b.nextPosition s p)
      simp only [walk,length_cons]
      omega

lemma positions_length : b.positions.length=b.cells := by
  apply Nat.le_antisymm (walk_length_le _ _ _)
  refine Nat.le_of_not_lt fun hlt=>?_
  obtain ⟨q,hq,-⟩ := positions_getElem? hlt
  simp [positions] at hq

lemma positions_getElem?_denseIndex (hp : b.Contains p) : b.positions[b.denseIndex p]? = some p := by
  obtain ⟨q,hq,hqc,hqi⟩ := positions_getElem? (denseIndex_lt hp)
  rw [hq,denseIndex_inj hqc hp hqi]

lemma mem_positions : p ∈ b.positions ↔ b.Contains p := by
  constructor
  · intro h
    obtain ⟨k,hk,rfl⟩ := getElem_of_mem h
    obtain ⟨q,hq,hqc,-⟩ := positions_getElem? (b := b) (k := k) (by rw [← positions_length]; exact hk)
    rw [List.getElem?_eq_getElem hk] at hq
    cases hq
    exact hqc
  · intro h
    exact List.mem_of_getElem? (positions_getElem?_denseIndex h)

/-- In a split of the enumerated cells, the current one carries its dense index, which counts
the cells before it. -/
lemma zipIdx_split {pre post : List (BlockPos × ℕ)} {i : ℕ} (h : b.positions.zipIdx=pre ++ (p,i) :: post) :
    b.Contains p ∧ i=b.denseIndex p ∧ pre.length=b.denseIndex p := by
  have hlen : pre.length<b.cells := by
    have := congrArg List.length h
    rw [length_zipIdx,positions_length] at this
    simp at this
    omega
  obtain ⟨q,hq,hqc,hqi⟩ := positions_getElem? hlen
  have hget : b.positions.zipIdx[pre.length]? = some (p,i) := by
    rw [h]
    simp
  rw [List.getElem?_zipIdx,hq] at hget
  simp only [Option.map_some,Nat.zero_add,Option.some.injEq,Prod.mk.injEq] at hget
  obtain ⟨rfl,rfl⟩ := hget
  exact ⟨hqc,hqi.symm,hqi.symm⟩

/-- The rule of a loop over the enumerated cells: `I n` holds once the first `n` are visited. -/
lemma ensures_forEach {ε β : Type} {E : ε → Prop} {f : β → BlockPos × ℕ → Except ε β}
    {I : ℕ → β → Prop} {init : β} (h₀ : I 0 init)
    (hf : ∀ p, b.Contains p → ∀ st, I (b.denseIndex p) st →
      Ensures E (I (b.denseIndex p+1)) (f st (p,b.denseIndex p))) :
    Ensures E (I b.cells) (b.positions.zipIdx.foldlM f init) := by
  have hfold : Ensures E (I b.positions.zipIdx.length) (b.positions.zipIdx.foldlM f init) := by
    refine Ensures.foldlM (I := fun pre st=>I pre.length st) h₀ ?_
    rintro pre ⟨p,i⟩ post st hl hst
    obtain ⟨hc,rfl,hpre⟩ := zipIdx_split hl
    rw [hpre] at hst
    simpa [hpre] using hf p hc st hst
  rwa [length_zipIdx,positions_length] at hfold

lemma visited_succ {p q : BlockPos} (hp : b.Contains p) (hq : b.Contains q) :
    b.denseIndex q<b.denseIndex p+1 ↔ q=p ∨ b.denseIndex q<b.denseIndex p := by
  constructor
  · intro h
    by_cases he : b.denseIndex q=b.denseIndex p
    · exact .inl (denseIndex_inj hq hp he)
    · exact .inr (by omega)
  · rintro (rfl | h)
    · omega
    · omega

lemma denseIndex_cast (h : b.Contains p) : (b.denseIndex p : ℤ) =
      ((p.x-b.min.x) * b.yLen + (p.y-b.min.y)) * b.zLen + (p.z-b.min.z) := by
  have hx : (b.dx p : ℤ) = p.x-b.min.x := by simp only [dx]; omega
  have hy : (b.dy p : ℤ) = p.y-b.min.y := by simp only [dy]; omega
  have hz : (b.dz p : ℤ) = p.z-b.min.z := by simp only [dz]; omega
  rw [denseIndex]
  push_cast
  rw [hx,hy,hz]

lemma denseIndex_step {offset : Offset} (hp : b.Contains p) (hq : b.Contains (p.step offset)) :
    (b.denseIndex (p.step offset) : ℤ) =
      b.denseIndex p+offset.1 * (b.yLen*b.zLen : ℕ) + offset.2.1*b.zLen+offset.2.2 := by
  rw [denseIndex_cast hp,denseIndex_cast hq]
  simp only [BlockPos.step]
  push_cast
  ring

def OnFace (p : BlockPos) : Prop :=
  p.x=b.min.x ∨ p.x=b.max.x ∨ p.y=b.min.y ∨ p.y=b.max.y ∨ p.z=b.min.z ∨ p.z=b.max.z

lemma Contains.step {p : BlockPos} (hp : b.Contains p) (hface : ¬b.OnFace p) (d : Fin 6) :
    b.Contains (p.step (neighbours d)) := by
  simp only [OnFace,not_or] at hface
  match d with
  | 0 | 1 | 2 | 3 | 4 | 5 =>
    simp only [neighbours,BlockPos.step,Matrix.cons_val,Contains]
    omega

lemma nextPosition_surface {p r : BlockPos} (hp : b.Contains p) (h : b.nextPosition true p=some r) :
    b.Contains r ∧ b.denseIndex p<b.denseIndex r ∧ ∀ q, b.Contains q → b.OnFace q → b.denseIndex p<b.denseIndex q →
        b.denseIndex r≤b.denseIndex q := by
  by_cases hdense : b.nextPosition false p=some r
  · obtain ⟨hr,hi⟩ := nextPosition_some hp hdense
    exact ⟨hr,by omega,fun q _ _ hq=>by omega⟩
  -- Otherwise the step jumped to the far end of a row inside the two outer axes.
  simp only [nextPosition,Bool.false_and,Bool.false_eq_true,if_false] at h hdense
  split_ifs at h hdense with hz hrow hy hx <;> try (exact absurd h hdense)
  cases h
  simp only [Bool.true_and,Bool.and_eq_true,bne_iff_ne,ne_eq] at hrow
  have hrc : b.Contains ⟨p.x,p.y,b.max.z⟩ := ⟨hp.1,hp.2.1,hp.2.2.1,hp.2.2.2.1,b.z_le,le_rfl⟩
  have hdx : b.dx ⟨p.x,p.y,b.max.z⟩ = b.dx p := rfl
  have hdy : b.dy ⟨p.x,p.y,b.max.z⟩ = b.dy p := rfl
  have hdz : b.dz p<b.dz ⟨p.x,p.y,b.max.z⟩ := by
    simp only [dz]
    omega
  refine ⟨hrc,by rw [denseIndex,denseIndex,hdx,hdy]; omega,fun q hq hface hpq=>?_⟩
  by_contra hlt
  have hrow : b.dx q*b.yLen+b.dy q=b.dx p*b.yLen+b.dy p := by
    have hm : 0<b.zLen := Nat.zero_lt_of_lt (dz_lt hp)
    have h1 := Nat.div_le_div_right (c := b.zLen) hpq.le
    have h2 := Nat.div_le_div_right (c := b.zLen) (Nat.le_of_not_le hlt)
    have row : ∀ {c : BlockPos}, b.Contains c → b.denseIndex c/b.zLen=b.dx c*b.yLen+b.dy c := by
      intro c hc
      rw [denseIndex,Nat.mul_comm,Nat.mul_add_div hm,Nat.div_eq_of_lt (dz_lt hc),Nat.add_zero]
    rw [row hp,row hq] at h1
    rw [row hq,row hrc,hdx,hdy] at h2
    omega
  obtain ⟨hqx,hqy⟩ := digits_inj (dy_lt hq) (dy_lt hp) hrow
  have hqz : b.dz p<b.dz q := by
    simp only [denseIndex,hrow] at hpq
    omega
  have hqz' : b.dz q<b.dz ⟨p.x,p.y,b.max.z⟩ := by
    simp only [denseIndex,hrow,hdx,hdy] at hlt
    omega
  simp only [dx] at hqx
  simp only [dy] at hqy
  simp only [dz] at hqz hqz'
  rcases hface with hf | hf | hf | hf | hf | hf <;> omega

lemma mem_walk_surface {n : ℕ} {p q : BlockPos} (hp : b.Contains p) (hq : b.Contains q)
    (hface : b.OnFace q) (hle : b.denseIndex p≤b.denseIndex q)
    (hn : b.denseIndex q<b.denseIndex p+n) : q ∈ b.walk true n (some p) := by
  induction n generalizing p with
  | zero => omega
  | succ n ih =>
    by_cases he : p=q
    · subst he
      simp [walk]
    have hlt : b.denseIndex p<b.denseIndex q := lt_of_le_of_ne hle fun h=>he (denseIndex_inj hp hq h)
    cases hr : b.nextPosition true p with
    | none =>
      have h1 := nextPosition_none hp hr
      have h2 := denseIndex_lt hq
      omega
    | some r =>
      obtain ⟨hrc,hpr,hskip⟩ := nextPosition_surface hp hr
      rw [walk,hr]
      exact .tail _ (ih hrc (hskip q hq hface hlt) (by omega))

lemma contains_of_mem_walk {n : ℕ} {p q : BlockPos} (hp : b.Contains p)
    (h : q ∈ b.walk true n (some p)) : b.Contains q := by
  induction n generalizing p with
  | zero => cases h
  | succ n ih =>
    rcases mem_cons.1 h with rfl | h
    · exact hp
    · cases hr : b.nextPosition true p with
      | none =>
        rw [hr] at h
        cases n <;> cases h
      | some r =>
        rw [hr] at h
        exact ih (nextPosition_surface hp hr).1 h

lemma contains_of_mem_surface {q : BlockPos} (h : q ∈ b.surfacePositions) : b.Contains q :=
  contains_of_mem_walk b.contains_min h

lemma mem_surface {q : BlockPos} (hq : b.Contains q) (hface : b.OnFace q) : q ∈ b.surfacePositions :=
  mem_walk_surface b.contains_min hq hface (by rw [denseIndex_min]; omega)
    (by rw [denseIndex_min,Nat.zero_add]; exact denseIndex_lt hq)

end LightBounds

end Cinnabar.Light
