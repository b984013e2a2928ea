import Mathlib

/-! # Column summaries and their byte planes -/

namespace Cinnabar.FarTerrain

def columnCells : ℕ := 256

/-- Heights are `i16` words. -/
structure SurfaceCell where
  height : BitVec 16
  rgb : Vector (BitVec 8) 3
  waterDepth : BitVec 8

/-- The surface cells of a column. -/
abbrev ColumnSummary : Type := Vector SurfaceCell columnCells

abbrev Planes : Type := Vector (BitVec 8) (6*columnCells)

def zigzag (delta : BitVec 16) : BitVec 16 := delta <<< 1 ^^^ delta.sshiftRight 15

def unzigzag (zigzag : BitVec 16) : BitVec 16 := zigzag >>> 1 ^^^ -(zigzag &&& 1)

/-- The height the loop of `planes` carries to a cell. -/
def previous (summary : ColumnSummary) : ℕ → BitVec 16
  | 0 => 0
  | index+1 => (summary[index]?.map SurfaceCell.height).getD 0

def planeByte (summary : ColumnSummary) (plane : ℕ) (index : Fin columnCells) : BitVec 8 :=
  let cell := summary[index]
  let word := zigzag (cell.height-previous summary index)
  match plane with
  | 0 => word.setWidth 8
  | 1 => (word >>> 8).setWidth 8
  | 2 => cell.rgb[0]
  | 3 => cell.rgb[1]
  | 4 => cell.rgb[2]
  | _ => cell.waterDepth

def planes (summary : ColumnSummary) : Planes :=
  .ofFn fun place =>
    planeByte summary (place/columnCells) ⟨place%columnCells,Nat.mod_lt _ (by decide)⟩

def byteAt (planes : Planes) (plane index : ℕ) : BitVec 8 := planes[plane*columnCells+index]?.getD 0

def heightWord (planes : Planes) (index : ℕ) : BitVec 16 :=
  (byteAt planes 0 index).setWidth 16 ||| (byteAt planes 1 index).setWidth 16 <<< 8

/-- The height the loop of `from_planes` carries to a cell. -/
def heightTo (planes : Planes) : ℕ → BitVec 16
  | 0 => 0
  | index+1 => heightTo planes index+unzigzag (heightWord planes index)

def fromPlanes (planes : Planes) : ColumnSummary :=
  .ofFn fun index=>{
    height := heightTo planes (index+1)
    rgb := .ofFn fun channel=>byteAt planes (2+channel) index
    waterDepth := byteAt planes 5 index }

/-- A bit in every place of a word. -/
def spread (bit : Bool) : BitVec 16 := if bit then .allOnes 16 else 0

lemma getLsbD_spread (bit : Bool) (i : ℕ) : (spread bit).getLsbD i=(decide (i<16) && bit) := by
  cases bit
  · rw [Bool.and_false]
    exact BitVec.getLsbD_zero
  · rw [Bool.and_true]
    exact BitVec.getLsbD_allOnes

lemma neg_and_one (word : BitVec 16) : -(word &&& 1)=spread (word.getLsbD 0) := by
  change -(word &&& 1#16)=_
  rw [BitVec.and_one_eq_setWidth_ofBool_getLsbD]
  cases word.getLsbD 0
  · rfl
  · rfl

lemma sshiftRight_top (delta : BitVec 16) : delta.sshiftRight 15=spread (delta.getLsbD 15) := by
  refine BitVec.eq_of_getLsbD_eq fun i hi=>?_
  rw [getLsbD_spread,BitVec.getLsbD_sshiftRight,BitVec.msb_eq_getLsbD_last]
  grind

lemma unzigzag_zigzag (delta : BitVec 16) : unzigzag (zigzag delta)=delta := by
  rw [unzigzag,neg_and_one,zigzag,sshiftRight_top]
  refine BitVec.eq_of_getLsbD_eq fun i hi=>?_
  simp only [BitVec.getLsbD_xor,BitVec.getLsbD_ushiftRight,BitVec.getLsbD_shiftLeft,getLsbD_spread]
  obtain rfl | hlt : i=15 ∨ i<15 := by omega
  · simp
  · grind

lemma zigzag_unzigzag (word : BitVec 16) : zigzag (unzigzag word)=word := by
  rw [zigzag,sshiftRight_top,unzigzag,neg_and_one]
  refine BitVec.eq_of_getLsbD_eq fun i hi=>?_
  simp only [BitVec.getLsbD_xor,BitVec.getLsbD_ushiftRight,BitVec.getLsbD_shiftLeft,getLsbD_spread]
  cases i with
  | zero => simp
  | succ i => grind

lemma byteAt_planes (summary : ColumnSummary) {plane : ℕ} (hlt : plane<6) (index : Fin columnCells) :
    byteAt (planes summary) plane index=planeByte summary plane index := by
  have hcells : index.val<256 := index.isLt
  have hplace : plane*columnCells+index.val<6*columnCells := by
    unfold columnCells
    omega
  unfold byteAt planes
  rw [Vector.getElem?_ofFn,dif_pos hplace,Option.getD_some]
  have hplane : (plane*columnCells+index.val)/columnCells=plane := by
    unfold columnCells
    omega
  have hindex : (plane*columnCells+index.val)%columnCells=index.val := by
    unfold columnCells
    omega
  simp only [hplane,hindex]

lemma setWidth_word (low high : BitVec 8) : (low.setWidth 16 ||| high.setWidth 16 <<< 8).setWidth 8=low ∧
      ((low.setWidth 16 ||| high.setWidth 16 <<< 8) >>> 8).setWidth 8=high := by
  constructor
  · refine BitVec.eq_of_getLsbD_eq fun i hi=>?_
    simp only [BitVec.getLsbD_setWidth,BitVec.getLsbD_or,BitVec.getLsbD_shiftLeft]
    grind
  · refine BitVec.eq_of_getLsbD_eq fun i hi=>?_
    simp only [BitVec.getLsbD_setWidth,BitVec.getLsbD_or,BitVec.getLsbD_shiftLeft,BitVec.getLsbD_ushiftRight]
    grind

lemma word_setWidth (word : BitVec 16) :
    (word.setWidth 8).setWidth 16 ||| ((word >>> 8).setWidth 8).setWidth 16 <<< 8=word := by
  refine BitVec.eq_of_getLsbD_eq fun i hi=>?_
  simp only [BitVec.getLsbD_setWidth,BitVec.getLsbD_or,BitVec.getLsbD_shiftLeft,BitVec.getLsbD_ushiftRight]
  grind

lemma previous_succ (summary : ColumnSummary) (index : Fin columnCells) :
    previous summary (index+1)=summary[index].height := by
  rw [previous,Vector.getElem?_eq_getElem index.isLt]
  rfl

lemma heightTo_planes (summary : ColumnSummary) {index : ℕ} (hle : index ≤ columnCells) :
    heightTo (planes summary) index=previous summary index := by
  induction index with
  | zero => rfl
  | succ index ih =>
    have hword : heightWord (planes summary) index= zigzag (summary[index].height-previous summary index) := by
      have hbyte {plane : ℕ} (hlt : plane<6) := byteAt_planes summary hlt ⟨index,hle⟩
      dsimp only at hbyte
      rw [heightWord,hbyte (by decide),hbyte (by decide)]
      exact word_setWidth _
    rw [heightTo,ih (Nat.le_of_succ_le hle),hword,unzigzag_zigzag,previous_succ summary ⟨index,hle⟩, BitVec.add_comm]
    exact BitVec.sub_add_cancel _ _

lemma fromPlanes_planes (summary : ColumnSummary) : fromPlanes (planes summary)=summary := by
  refine Vector.ext fun index hindex=>?_
  rw [fromPlanes,Vector.getElem_ofFn,heightTo_planes summary hindex]
  dsimp only
  have hbyte {plane : ℕ} (hlt : plane<6) := byteAt_planes summary hlt ⟨index,hindex⟩
  dsimp only at hbyte
  rw [previous_succ summary ⟨index,hindex⟩,hbyte (by decide)]
  have hrgb : Vector.ofFn (fun channel : Fin 3=>byteAt (planes summary) (2+channel) index)= summary[index].rgb := by
    refine Vector.ext fun channel hchannel=>?_
    rw [Vector.getElem_ofFn,hbyte (by omega)]
    interval_cases channel <;> rfl
  rw [hrgb]
  rfl

lemma planes_ext {block other : Planes} (h : ∀ (plane : Fin 6) (index : Fin columnCells),
    byteAt block plane index=byteAt other plane index) : block=other := by
  refine Vector.ext fun place hplace=>?_
  have hplane : place/columnCells<6 := Nat.div_lt_of_lt_mul (by rwa [Nat.mul_comm])
  have hsame := h ⟨place/columnCells,hplane⟩ ⟨place%columnCells,Nat.mod_lt _ (by decide)⟩
  unfold byteAt at hsame
  dsimp only at hsame
  rwa [Nat.div_add_mod',Vector.getElem?_eq_getElem hplace,Vector.getElem?_eq_getElem hplace] at hsame

lemma previous_fromPlanes (planes : Planes) {index : ℕ} (hle : index ≤ columnCells) :
    previous (fromPlanes planes) index=heightTo planes index := by
  cases index with
  | zero => rfl
  | succ index =>
    rw [previous_succ _ ⟨index,hle⟩]
    exact congrArg SurfaceCell.height (Vector.getElem_ofFn hle)

lemma planes_fromPlanes (block : Planes) : planes (fromPlanes block)=block := by
  refine planes_ext fun plane index=>?_
  have hcell : (fromPlanes block)[index]=⟨heightTo block (index+1),
      .ofFn fun channel=>byteAt block (2+channel) index,byteAt block 5 index⟩ :=
    Vector.getElem_ofFn index.isLt
  have hword : zigzag (heightTo block (index+1)-previous (fromPlanes block) index)=heightWord block index := by
    rw [previous_fromPlanes block index.isLt.le,heightTo,BitVec.add_comm,BitVec.add_sub_cancel,zigzag_unzigzag]
  rw [byteAt_planes _ plane.isLt]
  unfold planeByte
  dsimp only
  rw [hcell]
  dsimp only
  rw [hword]
  have hsplit := setWidth_word (byteAt block 0 index) (byteAt block 1 index)
  obtain ⟨plane,hlt⟩ := plane
  interval_cases plane
  · exact hsplit.1
  · exact hsplit.2
  all_goals rfl

end Cinnabar.FarTerrain
