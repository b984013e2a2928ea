import Cinnabar.Keys
import Cinnabar.Library.Ensures

/-! # Inputs of the light solver: block samples, profiles, bounds and limits -/

namespace Cinnabar.Light

inductive LightChannel
  | block
  | sky
deriving DecidableEq

/-- Both channels, in the order every loop visits them. -/
def channels : List LightChannel := [.block,.sky]

/-- Emission and filter of one resident block state, both checked nibbles. -/
structure LightProperties where
  emission : ℕ
  filter : ℕ
  emission_le : emission≤15
  filter_le : filter≤15
deriving DecidableEq

inductive LightBlockSample
  | unknown
  | knownAir
  | resident (properties : LightProperties)
deriving DecidableEq

namespace LightBlockSample

def filter : LightBlockSample → Option ℕ
  | unknown => none
  | knownAir => some 0
  | resident properties => some properties.filter

def emission : LightBlockSample → ℕ
  | resident properties => properties.emission
  | _ => 0

lemma emission_le (s : LightBlockSample) : s.emission≤15 := by
  cases s with
  | resident properties => exact properties.emission_le
  | _ => simp [emission]

lemma filter_le {s : LightBlockSample} {f : ℕ} (h : s.filter=some f) : f≤15 := by
  cases s with
  | unknown => cases h
  | knownAir => cases h; simp
  | resident properties => cases h; exact properties.filter_le

end LightBlockSample

/-- Index `x << 8 | z << 4 | y` of a cell of one section. -/
def sectionIndex (x y z : ℕ) : ℕ := x <<< 8 ||| z <<< 4 ||| y

/-- The block source. The two proofs are its documented contract: `isKnown` and a whole-section
read answer as `sample` does. -/
structure LightBlockAccess where
  sample : BlockPos → LightBlockSample
  isKnown : BlockPos → Bool
  skySeed : BlockPos → ℕ
  /-- `none` where the source has no whole-section read. -/
  sampleSection : SubChunkKey → Option (ℕ → LightBlockSample)
  isKnown_eq : ∀ p, isKnown p = (sample p).filter.isSome
  sampleSection_eq : ∀ key out, sampleSection key=some out → ∀ x y z : ℕ, x<16 → y<16 →
    z<16 → out (sectionIndex x y z) = sample ⟨key.x*16+x,key.y*16+y,key.z*16+z⟩

/-- Dimension profile selected by the caller rather than inferred from blocks. -/
inductive DimensionLightProfile
  | overworld (directSkyDown : Bool)
  | nether
  | theEnd
deriving DecidableEq

namespace DimensionLightProfile

def allowsSky : DimensionLightProfile → Bool
  | overworld _ => true
  | _ => false

def directSkyDown : DimensionLightProfile → Bool
  | overworld direct => direct
  | _ => false

end DimensionLightProfile

/-- Generation-qualified light of one halo cell; a trusted level is a valid nibble. -/
inductive BoundaryLightSample
  | unknown
  | untrusted
  | trusted (level : ℕ) (directSky : Bool) (level_le : level≤15)

def BoundaryLightSample.trustedParts : BoundaryLightSample → Option (ℕ × Bool)
  | trusted level directSky _ => some (level,directSky)
  | _ => none

lemma BoundaryLightSample.trustedParts_le {s : BoundaryLightSample} {level : ℕ} {direct : Bool}
    (h : s.trustedParts=some (level,direct)) : level≤15 := by
  cases s with
  | trusted l d hl => cases h; exact hl
  | _ => cases h

/-- Read-only old-light contract, implemented by store snapshots and solve output. -/
structure LightReadAccess where
  readLight : ℤ → BlockPos → LightChannel → ℕ
  hasDirectSkyProvenance : ℤ → BlockPos → Bool
  boundaryLight : ℤ → BlockPos → LightChannel → BoundaryLightSample

def emptyLight : LightReadAccess where
  readLight _ _ _ := 0
  hasDirectSkyProvenance _ _ := false
  boundaryLight _ _ _ := .unknown

structure SolverLimits where
  maxVoxels : ℕ
  maxQueueEntries : ℕ
deriving DecidableEq

inductive LightSolveError
  | invalidBounds
  | voxelLimitExceeded (requested max : ℕ)
  | queueLimitExceeded (max : ℕ)
  | lightValueOutOfRange (value : ℕ)
deriving DecidableEq

/-- How a solve stops without a result: a returned error, a failed assertion, or (never reached)
a loop of the model running out of fuel. -/
inductive Halt
  | error (e : LightSolveError)
  | panicked
  | unfinished
deriving DecidableEq

def Halt.IsLimit : Halt → Prop
  | .error (.voxelLimitExceeded _ _) => True
  | .error (.queueLimitExceeded _) => True
  | _ => False

/-- Queue-work counters used by deterministic and live budget checks. -/
structure LightSolveStats where
  darkenSeeded : ℕ := 0
  darkenDequeued : ℕ := 0
  increaseDequeued : ℕ := 0
  queuePeak : ℕ := 0
deriving DecidableEq

structure LightBounds where
  dimension : ℤ
  min : BlockPos
  max : BlockPos
  min_rep : min.Representable
  max_rep : max.Representable
  x_le : min.x ≤ max.x
  y_le : min.y ≤ max.y
  z_le : min.z ≤ max.z

namespace LightBounds

variable (b : LightBounds)

def new (dimension : ℤ) (min max : BlockPos) (hmin : min.Representable)
    (hmax : max.Representable) : Except LightSolveError LightBounds :=
  if h : min.x ≤ max.x ∧ min.y ≤ max.y ∧ min.z ≤ max.z then
    .ok ⟨dimension,min,max,hmin,hmax,h.1,h.2.1,h.2.2⟩
  else .error .invalidBounds

abbrev Contains (p : BlockPos) : Prop :=
  b.min.x≤p.x ∧ p.x≤b.max.x ∧ b.min.y≤p.y ∧ p.y≤b.max.y ∧ b.min.z≤p.z ∧ p.z≤b.max.z

def contains (p : BlockPos) : Bool := decide (b.Contains p)

/-- `light_axis_len` of each axis. -/
def xLen : ℕ := (b.max.x-b.min.x+1).toNat
def yLen : ℕ := (b.max.y-b.min.y+1).toNat
def zLen : ℕ := (b.max.z-b.min.z+1).toNat

/-- `i64` products that overflow give no volume. -/
def volume : Option ℕ :=
  if b.xLen*b.yLen≤9223372036854775807 ∧ b.xLen*b.yLen*b.zLen≤9223372036854775807 then
    some (b.xLen*b.yLen*b.zLen)
  else none

/-- The cell visited after `current` in dense order; rows inside the two outer axes skip to their
far end when only the faces are walked. -/
def nextPosition (surfaceOnly : Bool) (current : BlockPos) : Option BlockPos :=
  let interiorRow := surfaceOnly && current.x != b.min.x && current.x != b.max.x &&
    current.y != b.min.y && current.y != b.max.y
  if current.z<b.max.z then
    some ⟨current.x,current.y,if interiorRow then b.max.z else current.z+1⟩
  else if current.y<b.max.y then some ⟨current.x,current.y+1,b.min.z⟩
  else if current.x<b.max.x then some ⟨current.x+1,b.min.y,b.min.z⟩
  else none

def walk (surfaceOnly : Bool) : ℕ → Option BlockPos → List BlockPos
  | 0, _ => []
  | _+1, none => []
  | n+1, some p => p::walk surfaceOnly n (b.nextPosition surfaceOnly p)

/-- Every cell in dense order: `x` outermost, then `y`, then `z`. -/
def positions : List BlockPos := b.walk false (b.xLen*b.yLen*b.zLen) (some b.min)

/-- The cells on the bounds' six faces, in the same dense order. -/
def surfacePositions : List BlockPos := b.walk true (b.xLen*b.yLen*b.zLen) (some b.min)

end LightBounds

/-- `light_dense_index`: `none` outside the bounds or where the index overflows. -/
def lightDenseIndex (b : LightBounds) (yLen zLen : ℕ) (p : BlockPos) : Option ℕ :=
  if b.contains p then do
    let x := (p.x-b.min.x).toNat
    let y := (p.y-b.min.y).toNat
    let z := (p.z-b.min.z).toNat
    checkedAddUsize (← checkedMulUsize (← checkedAddUsize (← checkedMulUsize x yLen) y) zLen) z
  else none

instance neZeroDirections : NeZero 6 := ⟨by decide⟩

def neighbours : Fin 6 → Offset :=
  ![(-1,0,0),(1,0,0),(0,-1,0),(0,1,0),(0,0,-1),(0,0,1)]

/-- Directions in the order every loop visits them. -/
def directions : List (Fin 6) := List.finRange 6

/-- `split_position`: the section holding a position and its local coordinates. -/
def splitPosition (dimension : ℤ) (p : BlockPos) : SubChunkKey × ℕ × ℕ × ℕ :=
  (⟨dimension,p.x/16,p.y/16,p.z/16⟩,(p.x % 16).toNat,(p.y % 16).toNat,(p.z % 16).toNat)

end Cinnabar.Light

/-! # Packed nibble light of one sub-chunk

Two samples share a byte, the even index in its low half.  A byte array is read
back nibble by nibble, whichever of the two representations holds it.
-/

namespace Cinnabar.Light

open Function Nat

def packedLightBytes : ℕ := 2048

inductive LightNibbleStorage
  | uniform (value : ℕ)
  | packed (bytes : ℕ → ℕ)

namespace LightNibbleStorage

variable (bytes : ℕ → ℕ)

def fromPacked : LightNibbleStorage :=
  let first := bytes 0 &&& 0x0f
  let repeated := first ||| first <<< 4
  if ∀ i<packedLightBytes, bytes i=repeated then uniform first else packed bytes

def nibble (index : ℕ) : ℕ :=
  if index &&& 1=0 then bytes (index/2) &&& 0x0f else bytes (index/2) >>> 4

def get (s : LightNibbleStorage) (index : ℕ) : Option ℕ :=
  if index≥2*packedLightBytes then none
  else match s with
    | uniform value => some value
    | packed bytes => some (nibble bytes index)

lemma get_fromPacked {index : ℕ} (h : index<2*packedLightBytes) :
    (fromPacked bytes).get index=some (nibble bytes index) := by
  simp only [fromPacked]
  split_ifs with hu
  · have hbyte := hu (index/2) (by omega)
    have hf : bytes 0 &&& 0x0f<2^4 := and_lt_two_pow _ (by norm_num)
    simp only [get,if_neg (not_le.2 h),nibble,hbyte,Option.some.injEq]
    set f := bytes 0 &&& 0x0f
    split_ifs
    · interval_cases f <;> rfl
    · interval_cases f <;> rfl
  · simp [get,not_le.2 h]

/-- `bytes[index / 2] |= value << shift`, with the shift of the index's parity. -/
def writeNibble (index value : ℕ) : ℕ → ℕ :=
  update bytes (index/2) (bytes (index/2) ||| value <<< ((index &&& 1) * 4))

lemma nibble_writeNibble_ne {bytes : ℕ → ℕ} {i j v : ℕ} (hv : v≤15) (h : j≠i) :
    nibble (writeNibble bytes i v) j=nibble bytes j := by
  unfold nibble writeNibble
  by_cases hij : j/2=i/2
  · rw [hij,update_self]
    rcases mod_two_eq_zero_or_one i with hi | hi
    · have hj : j % 2=1 := by omega
      have h4 : v >>> 4=0 := shiftRight_eq_zero _ _ (by omega)
      simp [hi,hj,shiftRight_or_distrib,h4]
    · have hj : j % 2=0 := by omega
      have h4 : v <<< 4 &&& 15=0 := by interval_cases v <;> rfl
      simp [hi,hj,and_or_distrib_right,h4]
  · rw [update_of_ne hij]

lemma nibble_writeNibble_self {bytes : ℕ → ℕ} {i v : ℕ} (hv : v≤15)
    (h : nibble bytes i=0 ∨ nibble bytes i=v) : nibble (writeNibble bytes i v) i=v := by
  unfold nibble writeNibble at *
  rw [update_self]
  simp only [and_one_is_mod] at *
  rcases mod_two_eq_zero_or_one i with hi | hi
  · simp only [hi,if_true,Nat.zero_mul,shiftLeft_zero,and_or_distrib_right] at *
    have hv' : v &&& 15=v := by interval_cases v <;> rfl
    rcases h with h | h <;> rw [h,hv'] <;> simp
  · simp only [hi,one_ne_zero,if_false,Nat.one_mul,shiftRight_or_distrib] at *
    have hv' : v <<< 4 >>> 4=v := by interval_cases v <;> rfl
    rcases h with h | h <;> rw [h,hv'] <;> simp

end LightNibbleStorage

structure SubChunkLight where
  block : LightNibbleStorage
  sky : LightNibbleStorage
  generation : ℕ

namespace SubChunkLight

def fromPacked (block sky : ℕ → ℕ) (generation : ℕ) : SubChunkLight :=
  ⟨.fromPacked block,.fromPacked sky,generation⟩

variable (light : SubChunkLight)

def channel : LightChannel → LightNibbleStorage
  | .block => light.block
  | .sky => light.sky

/-- Reads one local coordinate from a channel. -/
def get (c : LightChannel) (x y z : ℕ) : Option ℕ :=
  if x≥16 ∨ y≥16 ∨ z≥16 then none
  else (light.channel c).get (sectionIndex x y z)

end SubChunkLight

variable {x y z : ℕ}

lemma sectionIndex_eq (hy : y<16) (hz : z<16) : sectionIndex x y z=x*256+z*16+y := by
  unfold sectionIndex
  have h1 : x <<< 8 ||| z <<< 4=x <<< 8+z <<< 4 := by
    rw [shiftLeft_add_eq_or_of_lt (by rw [shiftLeft_eq]; omega)]
  have h2 : x <<< 8+z <<< 4 = (x*16+z) <<< 4 := by
    omega
  rw [h1,h2,← shiftLeft_add_eq_or_of_lt (by omega),shiftLeft_eq]
  omega

/-- The byte and the half of it that hold a section cell, as the packing loop computes them. -/
def packedIndex (x y z : ℕ) : ℕ := x <<< 7 ||| y >>> 1 ||| z <<< 3

lemma packedIndex_eq (hy : y<16) (hz : z<16) : packedIndex x y z=sectionIndex x y z/2 := by
  have h1 : y >>> 1<2^3 := by rw [shiftRight_eq_div_pow]; omega
  have h2 : x <<< 7 ||| y >>> 1 ||| z <<< 3 = (x <<< 7 ||| z <<< 3) ||| y >>> 1 := by
    rw [Nat.or_assoc,Nat.or_comm (y >>> 1),← Nat.or_assoc]
  have h3 : x <<< 7 ||| z <<< 3 = (x*16+z) <<< 3 := by
    rw [← shiftLeft_add_eq_or_of_lt (by rw [shiftLeft_eq]; omega)]
    omega
  rw [packedIndex,h2,h3,← shiftLeft_add_eq_or_of_lt h1,sectionIndex_eq hy hz, shiftLeft_eq,shiftRight_eq_div_pow]
  omega

lemma sectionIndex_parity (hy : y<16) (hz : z<16) : sectionIndex x y z &&& 1=y &&& 1 := by
  rw [sectionIndex_eq hy hz,and_one_is_mod,and_one_is_mod]
  omega

lemma sectionIndex_lt (hx : x<16) (hy : y<16) (hz : z<16) : sectionIndex x y z<4096 := by
  rw [sectionIndex_eq hy hz]
  omega

lemma sectionIndex_inj {x y z x' y' z' : ℕ} (hy : y<16) (hz : z<16) (hy' : y'<16)
    (hz' : z'<16) (h : sectionIndex x y z=sectionIndex x' y' z') :
    x=x' ∧ y=y' ∧ z=z' := by
  rw [sectionIndex_eq hy hz,sectionIndex_eq hy' hz'] at h
  omega

end Cinnabar.Light
