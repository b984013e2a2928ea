import Cinnabar.Light.Grid

/-! # Dense solve buffers and the packed result -/

namespace Cinnabar.Light

open LightBounds List Function

/-- Per-cell membership over the bounds, by dense index. -/
structure DensePositionSet where
  bounds : LightBounds
  yLen : ℕ
  zLen : ℕ
  present : ℕ → Bool

namespace DensePositionSet

def new (bounds : LightBounds) : DensePositionSet :=
  ⟨bounds,bounds.yLen,bounds.zLen,fun _=>false⟩

section

variable (s : DensePositionSet)

def containsAtIndex (index : ℕ) : Bool := s.present index

def insertAtIndex (index : ℕ) : DensePositionSet :=
  { s with present := update s.present index true }

def contains (p : BlockPos) : Bool :=
  match lightDenseIndex s.bounds s.yLen s.zLen p with
  | some index => s.containsAtIndex index
  | none => false

def insert (p : BlockPos) : Except Halt DensePositionSet :=
  match lightDenseIndex s.bounds s.yLen s.zLen p with
  | some index => .ok (s.insertAtIndex index)
  | none => .error .panicked

@[simp] lemma containsAtIndex_new (b : LightBounds) (i : ℕ) : (new b).containsAtIndex i=false := rfl

@[simp] lemma containsAtIndex_insertAtIndex (i j : ℕ) :
    (s.insertAtIndex i).containsAtIndex j = (decide (j=i) || s.containsAtIndex j) := by
  unfold insertAtIndex containsAtIndex
  by_cases h : j=i <;> simp [h]

end

/-- The set's own copies of the bounds and strides are those of `b`. -/
structure Over (s : DensePositionSet) (b : LightBounds) : Prop where
  bounds : s.bounds=b
  yLen : s.yLen=b.yLen
  zLen : s.zLen=b.zLen

lemma over_new (b : LightBounds) : (new b).Over b := ⟨rfl,rfl,rfl⟩

lemma Over.insertAtIndex {s : DensePositionSet} {b : LightBounds} (h : s.Over b) (i : ℕ) :
    (s.insertAtIndex i).Over b := ⟨h.1,h.2,h.3⟩

section
variable {s : DensePositionSet} {b : LightBounds} (h : s.Over b) (hv : b.cells≤usizeMax)
include h hv

lemma Over.contains_eq {p : BlockPos} (hp : b.Contains p) : s.contains p=s.containsAtIndex (b.denseIndex p) := by
  rw [contains,h.bounds,h.yLen,h.zLen,lightDenseIndex_of_contains hv hp]

lemma Over.insert_eq {p : BlockPos} (hp : b.Contains p) : s.insert p = .ok (s.insertAtIndex (b.denseIndex p)) := by
  rw [insert,h.bounds,h.yLen,h.zLen,lightDenseIndex_of_contains hv hp]

end

end DensePositionSet

/-- Dense levels of the current solve, with the cells that belong in the result. -/
structure MutableOutput where
  bounds : LightBounds
  generation : ℕ
  yLen : ℕ
  zLen : ℕ
  values : ℕ → LightChannel → ℕ
  known : ℕ → Bool

/-- Generation-tagged sparse result for every intersected sub-chunk. -/
structure LightSolveOutput where
  dimension : ℤ
  bounds : LightBounds
  subChunks : SubChunkKey → Option SubChunkLight
  directSky : DensePositionSet
  stats : LightSolveStats

namespace LightSolveOutput

def lightAt (o : LightSolveOutput) (p : BlockPos) (c : LightChannel) : ℕ :=
  if o.bounds.contains p then
    let (key,x,y,z) := splitPosition o.dimension p
    ((o.subChunks key).bind fun light=>light.get c x y z).getD 0
  else 0

def hasDirectSkyProvenance (o : LightSolveOutput) (dimension : ℤ) (p : BlockPos) : Bool :=
  decide (dimension=o.dimension) && o.bounds.contains p && o.directSky.contains p

end LightSolveOutput

/-- The integers `lo..=hi`. -/
def intRange (lo hi : ℤ) : List ℤ := (List.range (hi-lo+1).toNat).map (fun (i : ℕ)=>lo+i)

lemma mem_intRange {lo hi a : ℤ} : a ∈ intRange lo hi ↔ lo≤a ∧ a≤hi := by
  simp only [intRange,mem_map,mem_range]
  constructor
  · omega
  · rintro ⟨h1,h2⟩
    exact ⟨(a-lo).toNat,by omega,by omega⟩

namespace MutableOutput

/-- Clears retained dense buffers before a new bounded solve. -/
def new (bounds : LightBounds) (generation : ℕ) : MutableOutput :=
  ⟨bounds,generation,bounds.yLen,bounds.zLen,fun _ _=>0,fun _=>false⟩

def index (o : MutableOutput) (p : BlockPos) : Option ℕ :=
  lightDenseIndex o.bounds o.yLen o.zLen p

/-- The neighbour one step along `neighbours direction` of an in-bounds cell, with its dense
index; `none` when that step leaves the bounds. -/
def neighbour (o : MutableOutput) (p : BlockPos) (index : ℕ) (direction : Fin 6) :
    Option (BlockPos × ℕ) :=
  let xStride := o.yLen*o.zLen
  match direction with
  | 0 => if o.bounds.min.x<p.x then some (⟨p.x-1,p.y,p.z⟩,index-xStride) else none
  | 1 => if p.x<o.bounds.max.x then some (⟨p.x+1,p.y,p.z⟩,index+xStride) else none
  | 2 => if o.bounds.min.y<p.y then some (⟨p.x,p.y-1,p.z⟩,index-o.zLen) else none
  | 3 => if p.y<o.bounds.max.y then some (⟨p.x,p.y+1,p.z⟩,index+o.zLen) else none
  | 4 => if o.bounds.min.z<p.z then some (⟨p.x,p.y,p.z-1⟩,index-1) else none
  | 5 => if p.z<o.bounds.max.z then some (⟨p.x,p.y,p.z+1⟩,index+1) else none

def getAtIndex (o : MutableOutput) (index : ℕ) (c : LightChannel) : ℕ := o.values index c

/-- Writes a validated cell and records that it belongs in the final output. -/
def setAtIndex (o : MutableOutput) (index : ℕ) (c : LightChannel) (value : ℕ) : MutableOutput :=
  { o with
    values := fun i c'=>if i=index ∧ c'=c then value else o.values i c'
    known := update o.known index true }

@[simp] lemma getAtIndex_new (b : LightBounds) (g i : ℕ) (c : LightChannel) : (new b g).getAtIndex i c=0 := rfl

lemma getAtIndex_setAtIndex (o : MutableOutput) (i j : ℕ) (c c' : LightChannel) (v : ℕ) :
    (o.setAtIndex i c v).getAtIndex j c' = if j=i ∧ c'=c then v else o.getAtIndex j c' := rfl

@[simp] lemma known_setAtIndex (o : MutableOutput) (i j : ℕ) (c : LightChannel) (v : ℕ) :
    (o.setAtIndex i c v).known j = (decide (j=i) || o.known j) := by
  unfold setAtIndex
  by_cases h : j=i <;> simp [h]

/-- The output's own copies of the bounds and strides are those of `b`. -/
structure Over (o : MutableOutput) (b : LightBounds) : Prop where
  bounds : o.bounds=b
  yLen : o.yLen=b.yLen
  zLen : o.zLen=b.zLen

lemma over_new (b : LightBounds) (g : ℕ) : (new b g).Over b := ⟨rfl,rfl,rfl⟩

lemma Over.setAtIndex {o : MutableOutput} {b : LightBounds} (h : o.Over b) (i : ℕ)
    (c : LightChannel) (v : ℕ) : (o.setAtIndex i c v).Over b := ⟨h.1,h.2,h.3⟩

variable {p : BlockPos} {o : MutableOutput} {b : LightBounds}

lemma index_eq (h : o.Over b) (hv : b.cells≤usizeMax) (hp : b.Contains p) : o.index p=some (b.denseIndex p) := by
  rw [index,h.bounds,h.yLen,h.zLen,lightDenseIndex_of_contains hv hp]

lemma index_of_not_contains (h : o.Over b) (hp : ¬b.Contains p) : o.index p=none := by
  rw [index,h.bounds,h.yLen,h.zLen,lightDenseIndex_of_not_contains hp]

lemma neighbour_of_contains (h : o.Over b) {d : Fin 6} (hp : b.Contains p) (hq : b.Contains (p.step (neighbours d))) :
    o.neighbour p (b.denseIndex p) d =
      some (p.step (neighbours d),b.denseIndex (p.step (neighbours d))) := by
  have hstep := denseIndex_step hp hq
  obtain ⟨h1,h2,h3,h4,h5,h6⟩ := hq
  simp only [neighbour,h.bounds,h.yLen,h.zLen]
  match d with
  | 0 | 1 | 2 | 3 | 4 | 5 =>
    simp only [neighbours,BlockPos.step,Matrix.cons_val] at h1 h2 h3 h4 h5 h6 hstep ⊢
    rw [if_pos (by omega)]
    rw [Option.some.injEq,Prod.mk.injEq,BlockPos.mk.injEq]
    omega

lemma neighbour_of_not_contains (h : o.Over b)
    {d : Fin 6} (hp : b.Contains p) (hq : ¬b.Contains (p.step (neighbours d))) :
    o.neighbour p (b.denseIndex p) d=none := by
  simp only [neighbour,h.bounds,h.yLen,h.zLen]
  match d with
  | 0 | 1 | 2 | 3 | 4 | 5 =>
    simp only [neighbours,BlockPos.step,Matrix.cons_val,Contains] at hq ⊢
    rw [if_neg (by omega)]

/-- Channel bytes of the section being packed. -/
structure Packing where
  block : ℕ → ℕ := fun _=>0
  sky : ℕ → ℕ := fun _=>0
  anyKnown : Bool := false

/-- Corner of a section and the clipped corners of its overlap with the bounds. -/
def sectionOrigin (key : SubChunkKey) : BlockPos := ⟨key.x*16,key.y*16,key.z*16⟩

def clipMin (b : LightBounds) (key : SubChunkKey) : BlockPos :=
  let origin := sectionOrigin key
  ⟨Max.max b.min.x origin.x,Max.max b.min.y origin.y,Max.max b.min.z origin.z⟩

def clipMax (b : LightBounds) (key : SubChunkKey) : BlockPos :=
  let origin := sectionOrigin key
  ⟨Min.min b.max.x (origin.x+15),Min.min b.max.y (origin.y+15), Min.min b.max.z (origin.z+15)⟩

def sectionCells (b : LightBounds) (key : SubChunkKey) : List BlockPos :=
  let lo := clipMin b key
  let hi := clipMax b key
  (intRange lo.x hi.x).flatMap fun x=>(intRange lo.y hi.y).flatMap fun y =>
    (intRange lo.z hi.z).map fun z=>⟨x,y,z⟩

def packCell (o : MutableOutput) (key : SubChunkKey) (acc : Packing) (p : BlockPos) :
    Except Halt Packing :=
  match o.index ⟨p.x,p.y,(clipMin o.bounds key).z⟩ with
  | none => .error .panicked
  | some start =>
    let index := start + (p.z - (clipMin o.bounds key).z).toNat
    if o.known index then
      let origin := sectionOrigin key
      let localX := (p.x-origin.x).toNat
      let localY := (p.y-origin.y).toNat
      let localZ := (p.z-origin.z).toNat
      let shift := (localY &&& 1) * 4
      let packed := packedIndex localX localY localZ
      .ok ⟨update acc.block packed (acc.block packed ||| o.values index .block <<< shift),
        update acc.sky packed (acc.sky packed ||| o.values index .sky <<< shift),true⟩
    else .ok acc

def packSection (o : MutableOutput) (key : SubChunkKey) : Except Halt (Option SubChunkLight) := do
  let acc ← (sectionCells o.bounds key).foldlM (o.packCell key) {}
  return if acc.anyKnown then some (.fromPacked acc.block acc.sky o.generation) else none

def sectionKeys (b : LightBounds) : List SubChunkKey :=
  let min := (splitPosition b.dimension b.min).1
  let max := (splitPosition b.dimension b.max).1
  (intRange min.x max.x).flatMap fun x=>(intRange min.y max.y).flatMap fun y =>
    (intRange min.z max.z).map fun z=>⟨b.dimension,x,y,z⟩

/-- Copies completed light into independently owned sub-chunk results. -/
def freeze (o : MutableOutput) (directSky : DensePositionSet) (stats : LightSolveStats) :
    Except Halt LightSolveOutput := do
  let subChunks ← (sectionKeys o.bounds).foldlM (fun subChunks key=>do
    match ← o.packSection key with
    | some light => return update subChunks key (some light)
    | none => return subChunks) (fun _=>none)
  return ⟨o.bounds.dimension,o.bounds,subChunks,directSky,stats⟩

lemma mem_sectionCells {key : SubChunkKey} : p ∈ sectionCells b key ↔ b.Contains p ∧ key.x*16≤p.x ∧ p.x≤key.x*16+15 ∧
      key.y*16≤p.y ∧ p.y≤key.y*16+15 ∧ key.z*16≤p.z ∧ p.z≤key.z*16+15 := by
  simp only [sectionCells,mem_flatMap,mem_map,mem_intRange,clipMin,clipMax, sectionOrigin,Contains]
  constructor
  · rintro ⟨x,hx,y,hy,z,hz,rfl⟩
    simp only
    omega
  · intro h
    exact ⟨p.x,by omega,p.y,by omega,p.z,by omega,rfl⟩

def cellIndex (key : SubChunkKey) (p : BlockPos) : ℕ :=
  sectionIndex (p.x - key.x*16).toNat (p.y - key.y*16).toNat (p.z - key.z*16).toNat

lemma cellIndex_inj {key : SubChunkKey} {p q : BlockPos} (hp : p ∈ sectionCells b key) (hq : q ∈ sectionCells b key)
    (h : cellIndex key p=cellIndex key q) : p=q := by
  rw [mem_sectionCells] at hp hq
  obtain ⟨hx,hy,hz⟩ := sectionIndex_inj (by omega) (by omega) (by omega) (by omega) h
  cases p; cases q
  simp only [BlockPos.mk.injEq] at *
  omega

def Packing.bytes (acc : Packing) : LightChannel → ℕ → ℕ
  | .block => acc.block
  | .sky => acc.sky

/-- What a packing holds once the cells in `seen` are packed. -/
structure PackedCells (o : MutableOutput) (b : LightBounds) (key : SubChunkKey)
    (seen : List BlockPos) (acc : Packing) : Prop where
  nibble_eq : ∀ c, ∀ q ∈ sectionCells b key, LightNibbleStorage.nibble (acc.bytes c) (cellIndex key q) =
      if o.known (b.denseIndex q) = true ∧ q ∈ seen then o.values (b.denseIndex q) c else 0
  anyKnown : acc.anyKnown=true ↔ ∃ q ∈ seen, o.known (b.denseIndex q) = true

section
variable {o : MutableOutput} {b : LightBounds} {key : SubChunkKey} (h : o.Over b)
  (hv : b.cells≤usizeMax) (hval : ∀ i c, o.values i c≤15)
include h hv hval

omit hval in
lemma packCell_eq {acc : Packing} {p : BlockPos} (hp : p ∈ sectionCells b key) :
    o.packCell key acc p = .ok (if o.known (b.denseIndex p) then
      ⟨LightNibbleStorage.writeNibble acc.block (cellIndex key p) (o.values (b.denseIndex p) .block),
        LightNibbleStorage.writeNibble acc.sky (cellIndex key p) (o.values (b.denseIndex p) .sky),
        true⟩ else acc) := by
  have hb := h.bounds
  obtain ⟨hc,hx,hx',hy,hy',hz,hz'⟩ := mem_sectionCells.1 hp
  have hrow : b.Contains ⟨p.x,p.y,(clipMin b key).z⟩ := by
    obtain ⟨h1,h2,h3,h4,h5,h6⟩ := hc
    simp only [clipMin,sectionOrigin,Contains]
    omega
  have hstart : b.denseIndex ⟨p.x,p.y,(clipMin b key).z⟩ + (p.z - (clipMin b key).z).toNat =
      b.denseIndex p := by
    obtain ⟨h1,h2,h3,h4,h5,h6⟩ := hc
    have hdz : b.dz ⟨p.x,p.y,(clipMin b key).z⟩ + (p.z - (clipMin b key).z).toNat=b.dz p := by
      simp only [clipMin,sectionOrigin,dz]
      omega
    rw [denseIndex,denseIndex,← hdz,Nat.add_assoc]
    rfl
  have hpk : packedIndex (p.x - key.x*16).toNat (p.y - key.y*16).toNat
      (p.z - key.z*16).toNat=cellIndex key p/2 := packedIndex_eq (by omega) (by omega)
  have hpar : cellIndex key p &&& 1 = (p.y - key.y*16).toNat &&& 1 := sectionIndex_parity (by omega) (by omega)
  simp only [packCell,hb,index_eq h hv hrow,hstart,sectionOrigin,hpk,← hpar, LightNibbleStorage.writeNibble]
  split_ifs <;> rfl

lemma packedCells_step {seen : List BlockPos} {acc : Packing} {p : BlockPos}
    (hp : p ∈ sectionCells b key) (hacc : PackedCells o b key seen acc) :
    Ensures (fun _=>False) (PackedCells o b key (seen ++ [p])) (o.packCell key acc p) := by
  rw [packCell_eq h hv hp,Ensures.ok_iff]
  split_ifs with hk
  · have hwrite : ∀ c, Packing.bytes ⟨LightNibbleStorage.writeNibble acc.block (cellIndex key p)
        (o.values (b.denseIndex p) .block),LightNibbleStorage.writeNibble acc.sky
        (cellIndex key p) (o.values (b.denseIndex p) .sky),true⟩ c =
        LightNibbleStorage.writeNibble (acc.bytes c) (cellIndex key p)
          (o.values (b.denseIndex p) c) := by
      rintro (_ | _) <;> rfl
    refine ⟨fun c q hq=>?_,by simp [hk]⟩
    rw [hwrite]
    by_cases hqp : q=p
    · subst hqp
      rw [LightNibbleStorage.nibble_writeNibble_self (hval _ _)]
      · simp [hk]
      · rw [hacc.nibble_eq c q hq]
        split_ifs <;> simp
    · rw [LightNibbleStorage.nibble_writeNibble_ne (hval _ _)
        fun he=>hqp (cellIndex_inj hq hp he),hacc.nibble_eq c q hq]
      simp [hqp]
  · refine ⟨fun c q hq=>?_,?_⟩
    · rw [hacc.nibble_eq c q hq]
      by_cases hqp : q=p
      · subst hqp
        simp [hk]
      · simp [hqp]
    · rw [hacc.anyKnown]
      simp [or_and_right,exists_or,hk]

lemma packSection_spec : Ensures (fun _=>False) (fun light =>
    ∀ q ∈ sectionCells b key, ∀ c, (light.bind fun light=>light.get c (q.x - key.x*16).toNat (q.y - key.y*16).toNat
        (q.z - key.z*16).toNat).getD 0 =
      if o.known (b.denseIndex q) = true then o.values (b.denseIndex q) c else 0)
    (o.packSection key) := by
  have hfold : Ensures (fun _=>False) (PackedCells o b key (sectionCells b key))
      ((sectionCells o.bounds key).foldlM (o.packCell key) {}) := by
    rw [h.bounds]
    refine Ensures.foldlM ⟨fun c q hq=>?_,by simp⟩ fun pre p post acc hl hacc=>?_
    · cases c <;> simp [Packing.bytes,LightNibbleStorage.nibble]
    · exact packedCells_step h hv hval (by rw [hl]; simp) hacc
  refine Ensures.bind hfold fun acc hacc=>?_
  intro q hq c
  obtain ⟨hc,hx,hx',hy,hy',hz,hz'⟩ := mem_sectionCells.1 hq
  have hn := hacc.nibble_eq c q hq
  simp only [hq,and_true] at hn
  by_cases hany : acc.anyKnown=true
  · have hlocal : ¬((q.x - key.x*16).toNat≥16 ∨ (q.y - key.y*16).toNat≥16 ∨ (q.z - key.z*16).toNat≥16) := by omega
    have hlt : sectionIndex (q.x - key.x*16).toNat (q.y - key.y*16).toNat (q.z - key.z*16).toNat<2*packedLightBytes :=
      sectionIndex_lt (by omega) (by omega) (by omega)
    have hch : (SubChunkLight.fromPacked acc.block acc.sky o.generation).channel c = .fromPacked (acc.bytes c) := by
      cases c <;> simp only [SubChunkLight.channel,SubChunkLight.fromPacked,Packing.bytes]
    rw [if_pos hany,Option.bind_some,SubChunkLight.get,if_neg hlocal,hch,
      LightNibbleStorage.get_fromPacked _ hlt,Option.getD_some]
    exact hn
  · have hk : ¬o.known (b.denseIndex q) = true := fun hk =>
      hany (hacc.anyKnown.2 ⟨q,hq,hk⟩)
    rw [if_neg hany,if_neg hk]
    rfl

end

lemma mem_sectionKeys (hp : b.Contains p) : (splitPosition b.dimension p).1 ∈ sectionKeys b := by
  simp only [sectionKeys,splitPosition,mem_flatMap,mem_map,mem_intRange]
  exact ⟨p.x/16,by omega,p.y/16,by omega,p.z/16,by omega,rfl⟩

/-- The packed result reads as the dense buffers. -/
lemma freeze_spec (h : o.Over b) (hv : b.cells≤usizeMax)
    (hval : ∀ i c, o.values i c≤15) {directSky : DensePositionSet} (hd : directSky.Over b)
    (stats : LightSolveStats) : Ensures (fun _=>False) (fun out =>
      out.dimension=b.dimension ∧ out.stats=stats ∧ ∀ p, b.Contains p → (∀ c, out.lightAt p c =
          if o.known (b.denseIndex p) = true then o.values (b.denseIndex p) c else 0) ∧
        out.hasDirectSkyProvenance b.dimension p=directSky.containsAtIndex (b.denseIndex p))
    (o.freeze directSky stats) := by
  let reads (key : SubChunkKey) (light : Option SubChunkLight) : Prop := ∀ q ∈ sectionCells b key, ∀ c,
      (light.bind fun light=>light.get c (q.x - key.x*16).toNat (q.y - key.y*16).toNat (q.z - key.z*16).toNat).getD 0 =
      if o.known (b.denseIndex q) = true then o.values (b.denseIndex q) c else 0
  have hfold : Ensures (fun _=>False) (fun subChunks : SubChunkKey → Option SubChunkLight =>
      ∀ key ∈ sectionKeys b, reads key (subChunks key))
      ((sectionKeys o.bounds).foldlM (fun subChunks key=>do
        match ← o.packSection key with
        | some light => return update subChunks key (some light)
        | none => return subChunks) (fun _=>none)) := by
    rw [h.bounds]
    refine (Ensures.foldlM (I := fun pre subChunks =>
      (∀ key ∈ pre, reads key (subChunks key)) ∧ ∀ key, subChunks key≠none → reads key (subChunks key))
      ⟨fun _ h=>absurd h not_mem_nil,fun _ h=>absurd rfl h⟩
      fun pre key post subChunks _ hI=>?_).mono fun _ hI=>hI.1
    refine Ensures.bind (packSection_spec h hv hval) fun light hlight=>?_
    have hkeep : ∀ k, reads k (update subChunks key light k) ∨ update subChunks key light k=subChunks k ∧ k≠key := by
      intro k
      by_cases hk : k=key
      · subst hk
        rw [update_self]
        exact .inl hlight
      · exact .inr ⟨update_of_ne hk _ _,hk⟩
    cases light with
    | some light =>
      refine ⟨fun k hk=>?_,fun k hk=>?_⟩
      · rcases hkeep k with hr | ⟨he,hne⟩
        · exact hr
        · rw [he]
          exact hI.1 k (by simpa [hne] using hk)
      · rcases hkeep k with hr | ⟨he,hne⟩
        · exact hr
        · rw [he] at hk ⊢
          exact hI.2 k hk
    | none =>
      refine ⟨fun k hk=>?_,hI.2⟩
      rcases mem_append.1 hk with hk | hk
      · exact hI.1 k hk
      · rw [mem_singleton.1 hk]
        by_cases hs : subChunks key=none
        · rw [hs]
          exact hlight
        · exact hI.2 key hs
  refine Ensures.bind hfold fun subChunks hread=>?_
  rw [Ensures.pure_iff,h.bounds]
  refine ⟨rfl,rfl,fun p hp=>⟨fun c=>?_,?_⟩⟩
  · have hcell : p ∈ sectionCells b (splitPosition b.dimension p).1 := by
      rw [mem_sectionCells]
      simp only [splitPosition]
      omega
    have hr := hread _ (mem_sectionKeys hp) p hcell c
    have hx : (p.x-p.x/16*16).toNat = (p.x % 16).toNat := by omega
    have hy : (p.y-p.y/16*16).toNat = (p.y % 16).toNat := by omega
    have hz : (p.z-p.z/16*16).toNat = (p.z % 16).toNat := by omega
    simp only [splitPosition,hx,hy,hz] at hr
    rw [LightSolveOutput.lightAt,if_pos (contains_iff.2 hp)]
    exact hr
  · simp [LightSolveOutput.hasDirectSkyProvenance,contains_iff.2 hp,hd.contains_eq hv hp]

end MutableOutput

end Cinnabar.Light
