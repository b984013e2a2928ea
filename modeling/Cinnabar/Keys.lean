import Mathlib

/-! # Machine integers, block positions and chunk keys -/

namespace Cinnabar

def i32Min : ℤ := -2147483648
def i32Max : ℤ := 2147483647
def u32Max : ℕ := 4294967295
def usizeMax : ℕ := 18446744073709551615

/-- A value an `i32` can hold. -/
abbrev InI32 (v : ℤ) : Prop := i32Min≤v ∧ v ≤ i32Max

/-- `i32::checked_add`. -/
def checkedAdd (a b : ℤ) : Option ℤ := if InI32 (a+b) then some (a+b) else none

/-- `usize::checked_mul` and `usize::checked_add` on a 64-bit target. -/
def checkedMulUsize (a b : ℕ) : Option ℕ := if a*b≤usizeMax then some (a*b) else none
def checkedAddUsize (a b : ℕ) : Option ℕ := if a+b≤usizeMax then some (a+b) else none

/-- `value as u32` -/
def asU32 (value : ℕ) : ℕ := value % (u32Max+1)

lemma asU32_of_le {value : ℕ} (h : value≤u32Max) : asU32 value=value :=
  Nat.mod_eq_of_lt (Nat.lt_succ_of_le h)

structure ChunkKey where
  dimension : ℤ
  x : ℤ
  z : ℤ
deriving DecidableEq

structure SubChunkKey where
  dimension : ℤ
  x : ℤ
  y : ℤ
  z : ℤ
deriving DecidableEq

def SubChunkKey.fromChunk (chunk : ChunkKey) (y : ℤ) : SubChunkKey :=
  ⟨chunk.dimension,chunk.x,y,chunk.z⟩

variable (key : SubChunkKey)

def SubChunkKey.chunk : ChunkKey := ⟨key.dimension,key.x,key.z⟩

@[simp] lemma SubChunkKey.fromChunk_chunk : SubChunkKey.fromChunk key.chunk key.y=key := rfl

/-- Rust's derived order: dimension, then `x`, `y` and `z`. -/
instance : LinearOrder SubChunkKey :=
  LinearOrder.lift' (fun key=>toLex (key.dimension,toLex (key.x,toLex (key.y,key.z)))) (by
    intro a b h
    cases a
    cases b
    simpa [Prod.ext_iff] using h)

/-- A key whose coordinates are all `i32` values. -/
def SubChunkKey.Representable : Prop :=
  InI32 key.dimension ∧ InI32 key.x ∧ InI32 key.y ∧ InI32 key.z

instance (key : SubChunkKey) : Decidable key.Representable :=
  inferInstanceAs (Decidable (_ ∧ _))

structure BlockPos where
  x : ℤ
  y : ℤ
  z : ℤ
deriving DecidableEq

/-- A step between cells, as `[i32; 3]`. -/
abbrev Offset := ℤ × ℤ × ℤ

def BlockPos.checkedOffset (p : BlockPos) (offset : Offset) : Option BlockPos := do
  return ⟨← checkedAdd p.x offset.1,← checkedAdd p.y offset.2.1,← checkedAdd p.z offset.2.2⟩

def BlockPos.step (p : BlockPos) (offset : Offset) : BlockPos :=
  ⟨p.x+offset.1,p.y+offset.2.1,p.z+offset.2.2⟩

/-- A position whose coordinates are all `i32` values. -/
structure BlockPos.Representable (p : BlockPos) : Prop where
  x : InI32 p.x
  y : InI32 p.y
  z : InI32 p.z

lemma checkedAdd_eq_some {a b c : ℤ} : checkedAdd a b=some c ↔ c=a+b ∧ InI32 c := by
  unfold checkedAdd
  split_ifs with h
  · constructor
    · rintro ⟨⟩
      exact ⟨rfl,h⟩
    · rintro ⟨rfl,-⟩
      rfl
  · constructor
    · rintro ⟨⟩
    · rintro ⟨rfl,hc⟩
      exact absurd hc h

lemma BlockPos.checkedOffset_eq_some {p q : BlockPos} {offset : Offset} :
    p.checkedOffset offset=some q ↔ q=p.step offset ∧ q.Representable := by
  simp only [checkedOffset,Option.bind_eq_bind,Option.pure_def,Option.bind_eq_some_iff,
    checkedAdd_eq_some,Option.some.injEq,step]
  constructor
  · rintro ⟨x,⟨rfl,hx⟩,y,⟨rfl,hy⟩,z,⟨rfl,hz⟩,rfl⟩
    exact ⟨rfl,hx,hy,hz⟩
  · rintro ⟨rfl,hx,hy,hz⟩
    exact ⟨_,⟨rfl,hx⟩,_,⟨rfl,hy⟩,_,⟨rfl,hz⟩,rfl⟩

lemma BlockPos.checkedOffset_of_representable {p : BlockPos} {offset : Offset}
    (h : (p.step offset).Representable) : p.checkedOffset offset=some (p.step offset) :=
  checkedOffset_eq_some.2 ⟨rfl,h⟩

end Cinnabar
