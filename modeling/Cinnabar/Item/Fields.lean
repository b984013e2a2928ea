import Cinnabar.Item.NbtWalk

/-! # Entries and their bytes -/

namespace Cinnabar.Item

open Reader

variable {walk : Reader Unit} {payload : UInt8 → Reader Unit} {entry : Entry}
  {entries : List Entry} {input rest used name : Bytes} {n width : ℕ}

section Numbers

lemma readU8_takes (byte : UInt8) : readU8.Takes [byte] byte := fun _=>rfl

lemma readU8_eq_some {byte : UInt8} (h : readU8 input=some (byte,rest)) : input=byte::rest := by
  cases input with
  | nil => cases h
  | cons first input =>
    cases h
    rfl

lemma framed_readU8 : readU8.Framed := fun _ _ byte h =>
  ⟨[byte],readU8_eq_some h,readU8_takes byte⟩

lemma consumes_readU8 : readU8.Consumes := fun _ _ _ h=>by
  rw [readU8_eq_some h]
  exact Nat.lt_succ_self _

lemma framed_readLe : (readLe width).Framed := (Framed.take width).bind fun _=>Framed.pure

lemma readLe_takes (h : n<256^width) : (readLe width).Takes (toLe width n) n := by
  have htake : (take width).Takes (toLe width n) (toLe width n) := by
    have htake : (take (toLe width n).length).Takes (toLe width n) (toLe width n) := Takes.take
    rwa [length_toLe] at htake
  refine htake.bind_pure fun rest=>?_
  rw [fromLe_toLe h]
  rfl

lemma take_eq_some (h : take n input=some (used,rest)) : input=used++rest ∧ used.length=n := by
  have hlength := length_of_take h
  unfold take at h
  split at h
  · cases h
    exact ⟨(List.take_append_drop n input).symm,hlength⟩
  · cases h

lemma readLe_eq_some (h : readLe width input=some (n,rest)) : input=toLe width n++rest ∧ n<256^width := by
  obtain ⟨bytes,middle,htake,hpure⟩ := bind_eq_some.1 h
  cases hpure
  obtain ⟨rfl,rfl⟩ := take_eq_some htake
  rw [toLe_fromLe]
  exact ⟨rfl,fromLe_lt bytes⟩

lemma framed_readCount : readCount.Framed := by
  refine framed_readLe.bind fun value=>?_
  split
  · exact Framed.pure
  · exact Framed.failure

lemma readCount_takes (h : n<2^31) : readCount.Takes (toLe 4 n) n := by
  refine (readLe_takes (h.trans (by decide))).bind_pure fun rest=>?_
  rw [if_pos h]
  rfl

lemma framed_readName : readName.Framed := framed_readLe.bind fun _=>Framed.take _

lemma readName_takes (h : name.length<2^16) :
    readName.Takes (toLe 2 name.length++name) name := (readLe_takes h).bind Takes.take

lemma readName_eq_some (h : readName input=some (name,rest)) :
    input=toLe 2 name.length++name++rest ∧ name.length<2^16 := by
  obtain ⟨length,middle,hlength,htake⟩ := bind_eq_some.1 h
  obtain ⟨rfl,hlt⟩ := readLe_eq_some hlength
  obtain ⟨rfl,rfl⟩ := take_eq_some htake
  exact ⟨(List.append_assoc _ _ _).symm,hlt⟩

lemma framed_skip : (skip n).Framed := (Framed.take n).bind fun _=>Framed.pure

lemma skip_takes : (skip used.length).Takes used () := Takes.take.bind_pure fun _=>rfl

end Numbers

section Walks

lemma taking_takes (h : walk.Takes used ()) : (taking walk).Takes used used := by
  intro rest
  unfold taking
  rw [h rest,Option.map_some,List.length_append,Nat.add_sub_cancel,List.take_left]

lemma taking_eq_some (hframed : walk.Framed) (h : taking walk input=some (used,rest)) :
    input=used++rest ∧ walk.Takes used () := by
  obtain ⟨⟨⟨⟩,last⟩,hwalk,hread⟩ := Option.map_eq_some_iff.1 h
  obtain ⟨bytes,rfl,htakes⟩ := hframed hwalk
  rw [List.length_append,Nat.add_sub_cancel,List.take_left] at hread
  cases hread
  exact ⟨rfl,htakes⟩

lemma framed_taking (h : walk.Framed) : (taking walk).Framed := fun _ _ used hread =>
  have ⟨hinput,htakes⟩ := taking_eq_some h hread
  ⟨used,hinput,taking_takes htakes⟩

def Entry.bytes (entry : Entry) : Bytes :=
  [entry.tag] ++ ((toLe 2 entry.name.length++entry.name) ++ entry.payload)

structure Entry.Formed (payload : UInt8 → Reader Unit) (entry : Entry) : Prop where
  tag : entry.tag≠0
  name : entry.name.length<2^16
  walked : (payload entry.tag).Takes entry.payload ()

lemma framed_readEntry (h : ∀ tag, (payload tag).Framed) : (readEntry payload).Framed := by
  refine framed_readU8.bind fun tag=>?_
  split
  · exact Framed.pure
  · exact framed_readName.bind fun name=>(framed_taking (h tag)).bind fun _=>Framed.pure

lemma consumes_readEntry (h : ∀ tag, (payload tag).Framed) : (readEntry payload).Consumes := by
  refine consumes_readU8.bind fun tag=>?_
  split
  · exact Framed.pure
  · exact framed_readName.bind fun name=>(framed_taking (h tag)).bind fun _=>Framed.pure

lemma readEntry_takes_end : (readEntry payload).Takes [0] none := fun _=>rfl

lemma readEntry_takes (h : entry.Formed payload) : (readEntry payload).Takes entry.bytes (some entry) := by
  refine (readU8_takes entry.tag).bind ?_
  rw [if_neg h.tag]
  exact (readName_takes h.name).bind ((taking_takes h.walked).bind_pure fun _=>rfl)

lemma readEntry_eq_some {read : Option Entry} (hframed : ∀ tag, (payload tag).Framed)
    (h : readEntry payload input=some (read,rest)) :
    input=read.elim [0] Entry.bytes++rest ∧ ∀ entry, read=some entry →
      entry.Formed payload := by
  obtain ⟨tag,middle,htag,hread⟩ := bind_eq_some.1 h
  rw [readU8_eq_some htag]
  split at hread
  · rename_i hzero
    cases hread
    exact ⟨congrArg (· :: _) hzero,fun _ h=>by cases h⟩
  · rename_i hne
    obtain ⟨name,middle,hname,hread⟩ := bind_eq_some.1 hread
    obtain ⟨bytes,last,hbytes,hpure⟩ := bind_eq_some.1 hread
    cases hpure
    obtain ⟨rfl,hlength⟩ := readName_eq_some hname
    obtain ⟨rfl,htakes⟩ := taking_eq_some (hframed tag) hbytes
    refine ⟨?_,?_⟩
    · simp only [Option.elim_some,Entry.bytes,List.append_assoc,List.cons_append, List.nil_append]
    · rintro entry ⟨⟩
      exact ⟨hne,hlength,htakes⟩

lemma framed_skipList {room : ℕ} (h : ∀ tag, (payload tag).Framed) : (skipList room payload).Framed := by
  refine framed_readU8.bind fun element=>framed_readCount.bind fun count=>?_
  split
  · exact Framed.failure
  · cases elementWidth element with
    | none => exact ((h element).times count).bind fun _=>Framed.pure
    | some width => exact framed_skip

lemma framed_skipWithin (room : ℕ) (tag : UInt8) : (skipWithin room tag).Framed := by
  induction room generalizing tag with
  | zero => exact Framed.failure
  | succ room ih =>
    unfold skipWithin skipTag
    split
    · exact framed_skip
    · exact framed_skip
    · exact framed_skip
    · exact framed_skip
    · exact framed_skip
    · exact framed_skip
    · exact framed_readCount.bind fun _=>framed_skip
    · exact framed_readName.bind fun _=>Framed.pure
    · exact framed_skipList ih
    · exact (Framed.many (framed_readEntry ih) (consumes_readEntry ih)).bind fun _=>Framed.pure
    · exact framed_readCount.bind fun _=>framed_skip
    · exact framed_readCount.bind fun _=>framed_skip
    · exact Framed.failure

end Walks

section Bodies

def body (entries : List Entry) : Bytes := (entries.map Entry.bytes).flatten ++ [0]

lemma body_cons : body (entry::entries) = entry.bytes++body entries := by
  unfold body
  rw [List.map_cons,List.flatten_cons,List.append_assoc]

lemma writeString_eq (h : name.length<2^16) : writeString name=some (toLe 2 name.length++name) := if_pos h

lemma writeEntries_eq (h : ∀ entry ∈ entries, entry.name.length<2^16) : writeEntries entries=some (body entries) := by
  induction entries with
  | nil => rfl
  | cons entry entries ih =>
    rw [writeEntries,writeString_eq (h entry (.head _)), ih fun other hmem=>h other (.tail _ hmem),body_cons]
    simp [Entry.bytes]

lemma entries_takes (hframed : ∀ tag, (payload tag).Framed) (h : ∀ entry ∈ entries, entry.Formed payload) :
    (many (readEntry payload)).Takes (body entries) entries :=
  Takes.many (consumes_readEntry hframed) readEntry_takes_end fun entry hmem =>
    readEntry_takes (h entry hmem)

lemma entries_eq_some (hframed : ∀ tag, (payload tag).Framed) (h : many (readEntry payload) input=some (entries,rest)) :
    input=body entries++rest ∧ ∀ entry ∈ entries, entry.Formed payload := by
  have hprints : (readEntry payload).Prints fun read=>read.elim [0] Entry.bytes :=
    fun _ _ _ hread=>(readEntry_eq_some hframed hread).1
  exact ⟨hprints.many h,forall_mem_many (fun _ _ _ hread =>
    (readEntry_eq_some hframed hread).2 _ rfl) h⟩

/-- An entry of the root or display compound. -/
def Kept (entry : Entry) : Prop := entry.Formed fun tag=>skipLePayload tag 1

lemma readEntries_takes (h : ∀ entry ∈ entries, Kept entry) : readEntries.Takes (body entries) entries :=
  entries_takes (fun tag=>framed_skipWithin _ tag) h

lemma readEntries_eq_some (h : readEntries input=some (entries,rest)) :
    input=body entries++rest ∧ ∀ entry ∈ entries, Kept entry :=
  entries_eq_some (fun tag=>framed_skipWithin _ tag) h

end Bodies

end Cinnabar.Item

/-! # Looking up entries

A walk that may nest deeper passes over no less, so a reader that starts a level
higher finds the entries the splitter found.  Looking a tag up in the bytes of a
compound is looking it up in its entries.
-/

namespace Cinnabar.Item

open Reader

variable {entry : Entry} {entries fields : List Entry} {rest name wanted : Bytes} {tag : UInt8}

section Depth

lemma extends_taking {walk walk' : Reader Unit} (h : walk.Extends walk') : (taking walk).Extends (taking walk') := by
  intro input rest bytes hread
  obtain ⟨read,hwalk,hmap⟩ := Option.map_eq_some_iff.1 hread
  exact Option.map_eq_some_iff.2 ⟨read,h hwalk,hmap⟩

variable {payload payload' : UInt8 → Reader Unit}

lemma extends_readEntry (h : ∀ tag, (payload tag).Extends (payload' tag)) :
    (readEntry payload).Extends (readEntry payload') := by
  refine Extends.refl.bind fun tag=>?_
  split
  · exact Extends.refl
  · exact Extends.refl.bind fun _=>(extends_taking (h tag)).bind fun _=>Extends.refl

lemma extends_skipTag {room : ℕ} (h : ∀ tag, (payload tag).Extends (payload' tag)) (tag : ℕ) :
    (skipTag room payload tag).Extends (skipTag (room+1) payload' tag) := by
  unfold skipTag
  split
  · exact Extends.refl
  · exact Extends.refl
  · exact Extends.refl
  · exact Extends.refl
  · exact Extends.refl
  · exact Extends.refl
  · exact Extends.refl
  · exact Extends.refl
  · refine Extends.refl.bind fun element=>Extends.refl.bind fun count=>?_
    split
    · exact Extends.failure
    · rw [if_neg (fun hroom=>Nat.succ_ne_zero room hroom.2)]
      cases elementWidth element with
      | none => exact ((h element).times count).bind fun _=>Extends.refl
      | some width => exact Extends.refl
  · exact (extends_readEntry h).many.bind fun _=>Extends.refl
  · exact Extends.refl
  · exact Extends.refl
  · exact Extends.failure

lemma extends_skipWithin (room : ℕ) (tag : UInt8) : (skipWithin room tag).Extends (skipWithin (room+1) tag) := by
  induction room generalizing tag with
  | zero => exact Extends.failure
  | succ room ih => exact extends_skipTag ih tag.toNat

lemma Entry.Formed.mono (h : entry.Formed payload)
    (hextends : ∀ tag, (payload tag).Extends (payload' tag)) : entry.Formed payload' :=
  ⟨h.tag,h.name,h.walked.extends (hextends _)⟩

/-- An entry of a compound within the root compound. -/
def Nested (entry : Entry) : Prop := entry.Formed fun tag=>skipLePayload tag 2

lemma Nested.kept (h : Nested entry) : Kept entry := h.mono fun tag=>extends_skipWithin _ tag

end Depth

section Payloads

lemma skip_takes_length {n : ℕ} {used : Bytes} (h : (skip n).Takes used ()) : used.length=n := by
  obtain ⟨bytes,middle,htake,hpure⟩ := bind_eq_some.1 h.apply
  cases hpure
  obtain ⟨hused,hlength⟩ := take_eq_some htake
  rw [hused,List.append_nil,hlength]

lemma kept_compound (htag : entry.tag=tagCompound) (hname : entry.name.length<2^16)
    (hpayload : entry.payload=body fields) (h : ∀ field ∈ fields, Nested field) :
    Kept entry := by
  refine ⟨by rw [htag]; decide,hname,?_⟩
  rw [htag,hpayload]
  exact (entries_takes (fun tag=>framed_skipWithin _ tag) h).bind_pure fun _=>rfl

end Payloads

section Lookup

end Lookup

end Cinnabar.Item
