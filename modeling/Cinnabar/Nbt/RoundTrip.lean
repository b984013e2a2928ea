import Cinnabar.Nbt.Parse

/-! # The round trip of network NBT -/

namespace Cinnabar.Nbt

open Reader

section Integers

variable {w : ℕ}

lemma sshiftRight_sign (value : BitVec w) (i : ℕ) :
    (value.sshiftRight (w-1)).getLsbD i = (decide (i<w) && value.msb) := by
  rw [BitVec.getLsbD_sshiftRight,BitVec.msb_eq_getLsbD_last]
  by_cases hi : i<w
  · by_cases hzero : i=0
    · subst hzero
      simp [hi,Nat.pos_iff_ne_zero.1 hi]
    · have hge : ¬ w-1+i<w := by omega
      simp [hi,hge]
  · simp [hi,Nat.not_lt.1 hi]

lemma neg_and_one (value : BitVec w) (i : ℕ) : (-(value &&& 1#w)).getLsbD i = (decide (i<w) && value.getLsbD 0) := by
  cases hbit : value.getLsbD 0 with
  | false =>
    have hzero : value &&& 1#w=0#w := by
      apply BitVec.eq_of_getLsbD_eq
      intro j hj
      by_cases hj : j=0
      · subst hj
        simp [hbit]
      · simp [hj]
    rw [hzero]
    simp
  | true =>
    have hone : value &&& 1#w=1#w := by
      apply BitVec.eq_of_getLsbD_eq
      intro j hj
      by_cases hj : j=0
      · subst hj
        simp [hbit]
      · simp [hj]
    rw [hone,BitVec.neg_one_eq_allOnes]
    simp

lemma unzigzag_zigzag (value : BitVec w) (hw : 1<w) : unzigzag (zigzag value) = value := by
  apply BitVec.eq_of_getLsbD_eq
  intro i hi
  have hsign : (zigzag value).getLsbD 0=value.msb := by
    rw [zigzag,BitVec.getLsbD_xor,sshiftRight_sign]
    simp
    omega
  rw [unzigzag,BitVec.getLsbD_xor,neg_and_one,hsign,BitVec.getLsbD_ushiftRight,
    zigzag,BitVec.getLsbD_xor,sshiftRight_sign,BitVec.getLsbD_shiftLeft]
  by_cases hlast : 1+i<w
  · simp [hi,hlast]
  · have hi' : i=w-1 := by omega
    subst hi'
    simp [hi,hlast,BitVec.msb_eq_getLsbD_last]

end Integers

section Framing

variable {nested : UInt8 → Reader NbtValue} {limit : ℕ}

lemma readByte_takes (byte : UInt8) : readByte.Takes [byte] byte := fun _=>rfl

lemma readByte_eq_some {input rest : Bytes} {byte : UInt8} : readByte input=some (byte,rest) ↔ input=byte::rest := by
  cases input with
  | nil => exact iff_of_false (fun h=>by cases h) (List.cons_ne_nil _ _).symm
  | cons first input =>
    rw [readByte,Option.some.injEq,Prod.mk.injEq,List.cons.injEq]

lemma framed_readByte : readByte.Framed := fun _ _ byte h =>
  ⟨[byte],readByte_eq_some.1 h,readByte_takes byte⟩

lemma consumes_readByte : readByte.Consumes := fun _ _ _ h=>by
  rw [readByte_eq_some.1 h]
  exact Nat.lt_succ_self _

lemma framed_varU64 (maxBytes : ℕ) : (varU64 maxBytes).Framed := by
  cases maxBytes with
  | zero => exact fun _ _ _ h=>by cases h
  | succ maxBytes => exact Leb.framed_read.bind fun _=>Framed.pure

lemma framed_zigzagI32 : zigzagI32.Framed := (framed_varU64 5).bind fun _=>Framed.pure

lemma framed_zigzagI64 : zigzagI64.Framed := (framed_varU64 10).bind fun _=>Framed.pure

lemma framed_readLength : readLength.Framed := by
  refine framed_zigzagI32.bind fun value=>?_
  split
  · exact Framed.pure
  · exact Framed.failure

lemma framed_takeStr (length : ℕ) : (takeStr length).Framed := by
  refine (Framed.take length).bind fun bytes=>?_
  split
  · exact Framed.pure
  · exact Framed.failure

lemma framed_readString : readString.Framed := (framed_varU64 5).bind framed_takeStr

lemma framed_readLe (width : ℕ) : (readLe width).Framed :=
  (Framed.take width).bind fun _=>Framed.pure

lemma framed_readEntryTail (h : ∀ tag, (nested tag).Framed) (tag : UInt8) : (if tag=0 then pure none else do
      let name ← readString
      let value ← nested tag
      pure (some (name,value)) : Reader (Option (Str × NbtValue))).Framed := by
  split
  · exact Framed.pure
  · exact framed_readString.bind fun _=>(h tag).bind fun _=>Framed.pure

section

variable (h : ∀ tag, (nested tag).Framed)
include h

lemma framed_readEntry : (readEntry nested).Framed :=
  framed_readByte.bind (framed_readEntryTail h)

lemma consumes_readEntry : (readEntry nested).Consumes :=
  consumes_readByte.bind (framed_readEntryTail h)

lemma framed_readCompound : (readCompound nested).Framed :=
  (Framed.many (framed_readEntry h) (consumes_readEntry h)).bind fun _=>Framed.pure

end

lemma framed_readArray {α : Type} {item : Reader α} (h : item.Framed) : (readArray limit item).Framed := by
  refine framed_readLength.bind fun length=>?_
  split
  · exact Framed.failure
  · exact h.times length

lemma framed_readTag {nested : Option (UInt8 → Reader NbtValue)}
    (h : ∀ value ∈ nested, ∀ tag, (value tag).Framed) (tag : ℕ) :
    (readTag limit nested tag).Framed := by
  unfold readTag
  split
  · exact framed_readByte.bind fun _=>Framed.pure
  · exact (framed_readLe 2).bind fun _=>Framed.pure
  · exact framed_zigzagI32.bind fun _=>Framed.pure
  · exact framed_zigzagI64.bind fun _=>Framed.pure
  · exact (framed_readLe 4).bind fun _=>Framed.pure
  · exact (framed_readLe 8).bind fun _=>Framed.pure
  · exact framed_readLength.bind fun length=>(Framed.take length).bind fun _=>Framed.pure
  · exact framed_readString.bind fun _=>Framed.pure
  · cases nested with
    | none => exact Framed.failure
    | some value =>
      exact framed_readByte.bind fun element =>
        (framed_readArray (h value rfl element)).bind fun _=>Framed.pure
  · cases nested with
    | none => exact Framed.failure
    | some value => exact (framed_readCompound (h value rfl)).bind fun _=>Framed.pure
  · exact (framed_readArray framed_zigzagI32).bind fun _=>Framed.pure
  · exact (framed_readArray framed_zigzagI64).bind fun _=>Framed.pure
  · exact Framed.failure

lemma framed_valueWithin (limit room : ℕ) (tag : UInt8) : (valueWithin limit room tag).Framed := by
  induction room generalizing tag with
  | zero => exact framed_readTag (fun _ hmem=>by cases hmem) tag.toNat
  | succ room ih =>
    refine framed_readTag (fun value hmem=>?_) tag.toNat
    cases hmem
    exact ih

end Framing

section Fields

variable {n : ℕ}

lemma varU64_takes {bytes : Bytes} {maxBytes : ℕ} (h : Leb.Holds bytes n)
    (hlength : bytes.length ≤ maxBytes+1) (hn : n<2^64) :
    (varU64 (maxBytes+1)).Takes bytes n := by
  have hlt : n < (127+1) * 128^maxBytes := by
    calc n<128^bytes.length := h.lt
      _≤128 ^ (maxBytes+1) := Nat.pow_le_pow_right (by decide) hlength
      _ = (127+1) * 128^maxBytes := Nat.pow_succ'
  refine (Leb.read_takes h hlength hlt).bind_pure fun rest=>?_
  rw [Nat.mod_eq_of_lt hn]
  rfl

lemma varU64_write {maxBytes : ℕ} (h : n<128 ^ (maxBytes+1)) (hn : n<2^64) :
    (varU64 (maxBytes+1)).Takes (writeVarU64 n) n :=
  varU64_takes (Leb.holds_write (hn.trans (by decide))) (Leb.length_write_of_lt h) hn

lemma zigzagI32_takes (value : Int32) : zigzagI32.Takes (writeVarU64 (zigzag32 value)) value := by
  have hlt : zigzag32 value<2^32 := BitVec.isLt _
  refine (varU64_write (hlt.trans (by decide)) (hlt.trans (by decide))).bind_pure fun rest=>?_
  rw [zigzag32,BitVec.ofNat_toNat,BitVec.setWidth_eq,unzigzag_zigzag _ (by decide)]
  rfl

lemma zigzagI64_takes (value : Int64) : zigzagI64.Takes (writeVarU64 (zigzag64 value)) value := by
  have hlt : zigzag64 value<2^64 := BitVec.isLt _
  refine (varU64_write (hlt.trans (by decide)) hlt).bind_pure fun rest=>?_
  rw [zigzag64,BitVec.ofNat_toNat,BitVec.setWidth_eq,unzigzag_zigzag _ (by decide)]
  rfl

lemma readLength_takes (h : n<2^31) : readLength.Takes (writeVarU64 (zigzag32 (lengthI32 n))) n := by
  have hint : (lengthI32 n).toInt=n := Int32.toInt_ofNat_of_lt h
  refine (zigzagI32_takes _).bind_pure fun rest=>?_
  rw [hint,if_pos (Int.natCast_nonneg n),Int.toNat_natCast]
  rfl

lemma toStr_bytes (text : Str) : toStr text.bytes=some text := dif_pos text.property

lemma takeStr_takes (text : Str) : (takeStr text.bytes.length).Takes text.bytes text := by
  refine Takes.take.bind_pure fun rest=>?_
  rw [toStr_bytes]
  rfl

lemma readString_takes {text : Str} (h : text.bytes.length<2^35) : readString.Takes (writeString text) text :=
  (varU64_write h (h.trans (by decide))).bind (takeStr_takes text)

lemma readLe_takes {width : ℕ} (h : n<256^width) : (readLe width).Takes (toLe width n) n := by
  have htake : (take (toLe width n).length).Takes (toLe width n) (toLe width n) := Takes.take
  rw [length_toLe] at htake
  refine htake.bind_pure fun rest=>?_
  rw [fromLe_toLe h]
  rfl

end Fields

section Maps

variable {key name : Str} {value : NbtValue} {entries others : Entries}

lemma insert_last (h : ∀ entry ∈ entries, entry.1<key) : insert key value entries=entries ++ [(key,value)] := by
  induction entries with
  | nil => rfl
  | cons entry entries ih =>
    obtain ⟨hlt,hrest⟩ := List.forall_mem_cons.1 h
    rw [insert,if_neg hlt.ne',if_neg hlt.asymm,ih hrest,List.cons_append]

/-- Entries in the order of their names are kept as they are. -/
lemma foldl_insert (hsorted : others.Pairwise fun entry other=>entry.1<other.1)
    (h : ∀ entry ∈ entries, ∀ other ∈ others, entry.1<other.1) :
    others.foldl (fun entries entry=>insert entry.1 entry.2 entries) entries =
      entries++others := by
  induction others generalizing entries with
  | nil => exact (List.append_nil _).symm
  | cons other others ih =>
    obtain ⟨hfirst,hrest⟩ := List.pairwise_cons.1 hsorted
    rw [List.foldl_cons,insert_last fun entry hmem=>h entry hmem other (.head _),
      ih hrest,List.append_assoc,List.singleton_append]
    intro entry hmem last hlast
    rcases List.mem_append.1 hmem with hmem | hmem
    · exact h entry hmem last (.tail _ hlast)
    · rw [List.mem_singleton] at hmem
      rw [hmem]
      exact hfirst last hlast

end Maps

section Trees

/-- Every compound is in the order of its names, each of which comes once. -/
inductive Ordered : NbtValue → Prop where
  | scalar {value : NbtValue} : value.isContainer=false → Ordered value
  | list {items : List NbtValue} : (∀ item ∈ items, Ordered item) → Ordered (.list items)
  | compound {entries : Entries} : (entries.Pairwise fun entry other=>entry.1<other.1) →
    (∀ entry ∈ entries, Ordered entry.2) → Ordered (.compound entries)

/-- Every length fits the field that the decoder reads it from. -/
inductive Sized : NbtValue → Prop where
  | byte {value : Int8} : Sized (.byte value)
  | short {value : Int16} : Sized (.short value)
  | int {value : Int32} : Sized (.int value)
  | long {value : Int64} : Sized (.long value)
  | float {bits : UInt32} : Sized (.float bits)
  | double {bits : UInt64} : Sized (.double bits)
  | byteArray {bytes : Bytes} : bytes.length<2^31 → Sized (.byteArray bytes)
  | string {text : Str} : text.bytes.length<2^35 → Sized (.string text)
  | list {items : List NbtValue} : items.length<2^31 → (∀ item ∈ items, Sized item) → Sized (.list items)
  | compound {entries : Entries} : (∀ entry ∈ entries, entry.1.bytes.length<2^35) →
    (∀ entry ∈ entries, Sized entry.2) → Sized (.compound entries)
  | intArray {items : List Int32} : items.length<2^31 → Sized (.intArray items)
  | longArray {items : List Int64} : items.length<2^31 → Sized (.longArray items)

def entryBytes (entry : Str × NbtValue) : Bytes :=
  [entry.2.tag] ++ (writeString entry.1++writePayload entry.2)

lemma writeItems_eq (items : List NbtValue) : writeItems items = (items.map writePayload).flatten := by
  induction items with
  | nil => rw [writeItems,List.map_nil,List.flatten_nil]
  | cons item items ih => rw [writeItems,ih,List.map_cons,List.flatten_cons]

lemma writeEntries_eq (entries : Entries) : writeEntries entries = (entries.map entryBytes).flatten ++ [0] := by
  induction entries with
  | nil => rw [writeEntries,List.map_nil,List.flatten_nil,List.nil_append]
  | cons entry entries ih =>
    rw [writeEntries,ih,List.map_cons,List.flatten_cons,entryBytes]
    simp only [List.append_assoc]

variable {value : NbtValue} {items : List NbtValue} {entries : Entries} {depth room limit : ℕ}

lemma tag_ne_zero (value : NbtValue) : value.tag≠0 := by
  cases value <;> exact of_decide_eq_true rfl

lemma validateItems_ok (h : validateItems depth items = .ok ()) :
    ∀ item ∈ items, validateEncoding depth item = .ok () := by
  induction items with
  | nil => exact fun _ hmem=>absurd hmem List.not_mem_nil
  | cons item items ih =>
    rw [validateItems] at h
    split at h
    · rename_i hitem
      exact List.forall_mem_cons.2 ⟨hitem,ih h⟩
    · cases h

lemma validateEntries_ok (h : validateEntries depth entries = .ok ()) :
    ∀ entry ∈ entries, validateEncoding depth entry.2 = .ok () := by
  induction entries with
  | nil => exact fun _ hmem=>absurd hmem List.not_mem_nil
  | cons entry entries ih =>
    rw [validateEntries] at h
    split at h
    · rename_i hentry
      exact List.forall_mem_cons.2 ⟨hentry,ih h⟩
    · cases h

lemma tag_of_mem (h : mixedTags items=false) : ∀ item ∈ items, item.tag=listTag items := by
  cases items with
  | nil => exact fun _ hmem=>absurd hmem List.not_mem_nil
  | cons first items =>
    intro item hmem
    have hall := List.any_eq_false.1 h item hmem
    simpa [listTag] using hall

lemma writePayload_pos (value : NbtValue) : 0 < (writePayload value).length := by
  have hvar : ∀ n, 0 < (writeVarU64 n).length := Leb.length_write_pos 9
  cases value with
  | compound entries =>
    rw [writePayload,writeEntries_eq,List.length_append]
    exact Nat.succ_pos _
  | string text =>
    rw [writePayload,writeString,List.length_append]
    exact Nat.add_pos_left (hvar _) _
  | int => exact hvar _
  | long => exact hvar _
  | _ =>
    rw [writePayload]
    first
      | exact Nat.succ_pos _
      | (rw [List.length_append]; exact Nat.add_pos_left (hvar _) _)

lemma exceedsDepth_of_ok (h : validateEncoding depth value = .ok ()) : exceedsDepth depth value=false := by
  cases hexceeds : exceedsDepth depth value with
  | false => rfl
  | true =>
    cases value <;> simp [validateEncoding,hexceeds] at h

lemma length_le_flatten {α : Type} {write : α → Bytes} {items : List α}
    (hpos : ∀ item, 0 < (write item).length) : items.length ≤ (items.map write).flatten.length := by
  induction items with
  | nil => exact le_rfl
  | cons item items ih =>
    have hitem := hpos item
    rw [List.map_cons,List.flatten_cons,List.length_append,List.length_cons]
    omega

lemma readArray_takes {α : Type} {p : Reader α} {write : α → Bytes} {items : List α}
    (h : ∀ item ∈ items, p.Takes (write item) item) (hpos : ∀ item, 0 < (write item).length)
    (hlength : items.length<2^31) (hlimit : (items.map write).flatten.length≤limit) :
    (readArray limit p).Takes
      (writeVarU64 (zigzag32 (lengthI32 items.length)) ++ (items.map write).flatten) items := by
  refine (readLength_takes hlength).bind ?_
  rw [if_neg (Nat.not_lt.2 ((length_le_flatten hpos).trans hlimit))]
  have htimes := Takes.times id h
  rwa [List.map_id] at htimes

lemma readEntry_takes {entry : Str × NbtValue} {nested : UInt8 → Reader NbtValue} (hname : entry.1.bytes.length<2^35)
    (h : (nested entry.2.tag).Takes (writePayload entry.2) entry.2) :
    (readEntry nested).Takes (entryBytes entry) (some entry) := by
  refine (readByte_takes entry.2.tag).bind ?_
  rw [if_neg (tag_ne_zero entry.2)]
  exact (readString_takes hname).bind (h.bind_pure fun _=>rfl)

lemma readCompound_takes {nested : UInt8 → Reader NbtValue} (hnames : ∀ entry ∈ entries, entry.1.bytes.length<2^35)
    (hsorted : entries.Pairwise fun entry other=>entry.1<other.1)
    (h : ∀ entry ∈ entries, (nested entry.2.tag).Takes (writePayload entry.2) entry.2)
    (hframed : ∀ tag, (nested tag).Framed) :
    (readCompound nested).Takes (writeEntries entries) entries := by
  rw [writeEntries_eq]
  have hmany : (many (readEntry nested)).Takes ((entries.map entryBytes).flatten ++ [0]) entries :=
    Takes.many (consumes_readEntry hframed) (fun _=>rfl) fun entry hmem =>
      readEntry_takes (hnames entry hmem) (h entry hmem)
  refine hmany.bind_pure fun rest=>?_
  rw [foldl_insert hsorted fun _ hmem=>absurd hmem List.not_mem_nil]
  rfl

lemma length_le_flatten_of_mem {α : Type} {write : α → Bytes} {items : List α} {item : α}
    (hmem : item ∈ items) : (write item).length ≤ (items.map write).flatten.length := by
  rw [List.length_flatten,List.map_map]
  exact List.le_sum_of_mem (List.mem_map_of_mem hmem)

lemma length_writePayload_le {entry : Str × NbtValue} (hmem : entry ∈ entries) :
    (writePayload entry.2).length ≤ (writeEntries entries).length := by
  have hentry := @length_le_flatten_of_mem _ entryBytes _ _ hmem
  rw [entryBytes,List.length_append,List.length_append] at hentry
  rw [writeEntries_eq,List.length_append]
  omega

/-- A tree that encodes at some depth is read back by a reader with the levels left. -/
lemma valueWithin_takes (hroom : depth+room=maxNbtDepth+1)
    (hvalid : validateEncoding depth value = .ok ()) (hsized : Sized value)
    (hordered : Ordered value) (hlimit : (writePayload value).length≤limit) :
    (valueWithin limit room value.tag).Takes (writePayload value) value := by
  induction room generalizing depth value with
  | zero =>
    have hexceeds := exceedsDepth_of_ok hvalid
    have hdepth : maxNbtDepth<depth := by omega
    rw [exceedsDepth,decide_eq_true hdepth] at hexceeds
    cases hexceeds
  | succ room ih =>
    have hnext : depth+1+room=maxNbtDepth+1 := by omega
    cases hsized with
    | @byte value =>
      refine (readByte_takes value.toUInt8).bind_pure fun rest=>?_
      rfl
    | @short value =>
      refine (readLe_takes value.toUInt16.toNat_lt).bind_pure fun rest=>?_
      rw [UInt16.ofNat_toNat]
      rfl
    | @int value => exact (zigzagI32_takes value).bind_pure fun rest=>rfl
    | @long value => exact (zigzagI64_takes value).bind_pure fun rest=>rfl
    | @float bits =>
      refine (readLe_takes bits.toNat_lt).bind_pure fun rest=>?_
      rw [UInt32.ofNat_toNat]
      rfl
    | @double bits =>
      refine (readLe_takes bits.toNat_lt).bind_pure fun rest=>?_
      rw [UInt64.ofNat_toNat]
      rfl
    | byteArray hlength => exact (readLength_takes hlength).bind (Takes.take.bind_pure fun _=>rfl)
    | string hlength => exact (readString_takes hlength).bind_pure fun _=>rfl
    | @list items hlength hitems =>
      have hdeep := exceedsDepth_of_ok hvalid
      rw [validateEncoding,hdeep,if_neg Bool.false_ne_true] at hvalid
      split at hvalid
      case isTrue => cases hvalid
      rename_i hmixed
      cases hordered with
      | scalar h => cases h
      | list horderedItems =>
      rw [writePayload,writeItems_eq,List.length_append,List.length_append] at hlimit
      have hflatten : (items.map writePayload).flatten.length≤limit := by omega
      have hread : ∀ item ∈ items, (valueWithin limit room (listTag items)).Takes (writePayload item) item := by
        intro item hmem
        have hitem := @length_le_flatten_of_mem _ writePayload _ _ hmem
        have htakes := ih hnext (validateItems_ok hvalid item hmem) (hitems item hmem)
          (horderedItems item hmem) (hitem.trans hflatten)
        rwa [tag_of_mem (Bool.eq_false_iff.2 hmixed) item hmem] at htakes
      have harray := readArray_takes hread writePayload_pos hlength hflatten
      rw [writePayload,writeItems_eq]
      exact (readByte_takes _).bind (harray.bind_pure fun _=>rfl)
    | @compound entries hnames hvalues =>
      have hdeep := exceedsDepth_of_ok hvalid
      rw [validateEncoding,hdeep,if_neg Bool.false_ne_true] at hvalid
      cases hordered with
      | scalar h => cases h
      | compound hsorted horderedValues =>
      have hread : ∀ entry ∈ entries, (valueWithin limit room entry.2.tag).Takes (writePayload entry.2) entry.2 := by
        intro entry hmem
        refine ih hnext (validateEntries_ok hvalid entry hmem) (hvalues entry hmem)
          (horderedValues entry hmem) ((length_writePayload_le hmem).trans hlimit)
      exact (readCompound_takes hnames hsorted hread (framed_valueWithin limit room)).bind_pure fun _=>rfl
    | intArray hlength =>
      rw [writePayload,List.length_append] at hlimit
      refine (readArray_takes (fun item _=>zigzagI32_takes item)
        (fun item=>Leb.length_write_pos 9 _) hlength (by omega)).bind_pure fun _=>rfl
    | longArray hlength =>
      rw [writePayload,List.length_append] at hlimit
      refine (readArray_takes (fun item _=>zigzagI64_takes item)
        (fun item=>Leb.length_write_pos 9 _) hlength (by omega)).bind_pure fun _=>rfl

end Trees

section Roots

/-- An owned compound: its names are in order, at every level. -/
structure NbtCompound where
  entries : Entries
  ordered : Ordered (.compound entries)

lemma readRoot_takes {root : NbtCompound} {bytes : Bytes} {limit : ℕ}
    (hencode : encodeRoot root.entries = .ok bytes) (hsized : Sized (.compound root.entries))
    (hlimit : bytes.length≤limit) : (readRoot limit).Takes bytes root.entries := by
  unfold encodeRoot at hencode
  split at hencode
  case h_2 => cases hencode
  rename_i hvalid
  cases hencode
  cases hsized with | compound hnames hvalues =>
  cases root.ordered with
  | scalar h => cases h
  | compound hsorted hordered =>
  rw [List.length_append,List.length_append] at hlimit
  refine (readByte_takes 10).bind ?_
  refine readCompound_takes hnames hsorted (fun entry hmem=>?_) (framed_valueWithin limit _)
  exact valueWithin_takes (by decide) (validateEntries_ok hvalid entry hmem) (hvalues entry hmem)
    (hordered entry hmem) ((length_writePayload_le hmem).trans (by omega))

/-- A root that encodes parses back to itself, and the parser leaves nothing of its bytes. -/
theorem nbt_tree_round_trip (root : NbtCompound) (bytes : Bytes)
    (hencode : encodeRoot root.entries = .ok bytes) (hsized : Sized (.compound root.entries)) :
    parse bytes = some root.entries ∧ readRoot bytes.length bytes = some (root.entries,[]) := by
  have hread := (readRoot_takes hencode hsized le_rfl).apply
  exact ⟨by rw [parse,hread]; rfl,hread⟩

theorem nbt_tree_round_trip_small :
    let root : Entries := [(⟨[97],by decide⟩,.list [.int (-1),.int 300]),(⟨[98],by decide⟩,.list [])]
    ∃ bytes, encodeRoot root = .ok bytes ∧ parse bytes = some root ∧
      readRoot bytes.length bytes = some (root,[]) := by
  intro root
  have hordered : Ordered (.compound root) := by
    refine .compound (by decide) fun entry hmem => ?_
    simp only [root,List.mem_cons,List.not_mem_nil,or_false] at hmem
    rcases hmem with rfl | rfl
    · refine .list fun item hmem => .scalar ?_
      simp only [List.mem_cons,List.not_mem_nil,or_false] at hmem
      rcases hmem with rfl | rfl <;> rfl
    · exact .list fun _ hmem => absurd hmem List.not_mem_nil
  have hsized : Sized (.compound root) := by
    refine .compound (by decide) fun entry hmem => ?_
    simp only [root,List.mem_cons,List.not_mem_nil,or_false] at hmem
    rcases hmem with rfl | rfl
    · refine .list (by decide) fun item hmem => ?_
      simp only [List.mem_cons,List.not_mem_nil,or_false] at hmem
      rcases hmem with rfl | rfl
      · exact .int
      · exact .int
    · exact .list (by decide) fun _ hmem => absurd hmem List.not_mem_nil
  exact ⟨_,rfl,nbt_tree_round_trip ⟨root,hordered⟩ _ rfl hsized⟩

end Roots

end Cinnabar.Nbt
