import Cinnabar.Nbt.RoundTrip
import Cinnabar.Nbt.Scan

/-! # The scanner and the parser agree

What the scanner passes over the parser reads, off the same bytes.
-/

namespace Cinnabar.Nbt

open Reader

variable {s s' s'' : ScanState} {bytes others : Bytes} {n : ℕ}

def Passes (s s' : ScanState) (bytes : Bytes) : Prop :=
  s.rest=bytes++s'.rest ∧ s'.position=s.position+bytes.length

section Fields

lemma Passes.trans (h : Passes s s' bytes) (h' : Passes s' s'' others) : Passes s s'' (bytes++others) :=
  ⟨by rw [h.1,h'.1,List.append_assoc],by rw [h'.2,h.2,List.length_append,Nat.add_assoc]⟩

lemma scan_bind {α β : Type} {p : Scanner α} {f : α → Scanner β} {result : β} : (p >>= f) s=some (result,s'') ↔
      ∃ value s', p s=some (value,s') ∧ f value s'=some (result,s'') := by
  have hbind : (p >>= f) s = (p s).bind fun read=>f read.1 read.2 := rfl
  rw [hbind,Option.bind_eq_some_iff]
  exact ⟨fun ⟨⟨value,s'⟩,h,h'⟩=>⟨value,s',h,h'⟩, fun ⟨value,s',h,h'⟩=>⟨(value,s'),h,h'⟩⟩

lemma field_passes {α : Type} {p : Reader α} {value : α} (hp : p.Framed)
    (h : field p s=some (value,s')) : ∃ bytes, Passes s s' bytes ∧ p.Takes bytes value := by
  unfold field at h
  split at h
  · rename_i value rest hread
    dsimp only at h
    split at h
    · cases h
    · cases h
      obtain ⟨bytes,hrest,htakes⟩ := hp hread
      refine ⟨bytes,⟨hrest,?_⟩,htakes⟩
      rw [hrest,List.length_append,Nat.add_sub_cancel]
  · cases h

lemma visitTag_passes (h : visitTag s=some ((),s')) : Passes s s' [] := by
  unfold visitTag at h
  split at h
  · cases h
  · cases h
    exact ⟨rfl,rfl⟩

/-- A varint within the scanner's bound is one the cursor reads. -/
lemma readVarU32_passes (h : readVarU32 s=some (n,s')) :
    ∃ bytes, Passes s s' bytes ∧ (varU64 5).Takes bytes n ∧ 0<bytes.length := by
  obtain ⟨bytes,hpasses,htakes⟩ := field_passes Leb.framed_read h
  obtain ⟨held,heq,hholds,hlength,hlt⟩ := Leb.read_eq_some.1 htakes.apply
  rw [List.append_nil] at heq
  subst heq
  exact ⟨bytes,hpasses,varU64_takes hholds hlength (hlt.trans (by decide)), List.length_pos_of_ne_nil hholds.ne_nil⟩

lemma readZigzagI32_passes {value : Int32} (h : readZigzagI32 s=some (value,s')) :
    ∃ bytes, Passes s s' bytes ∧ zigzagI32.Takes bytes value ∧ 0<bytes.length := by
  obtain ⟨n,s'',hvar,hpure⟩ := scan_bind.1 h
  cases hpure
  obtain ⟨bytes,hpasses,htakes,hpos⟩ := readVarU32_passes hvar
  exact ⟨bytes,hpasses,htakes.bind_pure fun _=>rfl,hpos⟩

lemma skipZigzagI32_passes (h : skipZigzagI32 s=some ((),s')) :
    ∃ bytes value, Passes s s' bytes ∧ zigzagI32.Takes bytes value ∧ 0<bytes.length := by
  obtain ⟨value,s'',hread,hpure⟩ := scan_bind.1 h
  cases hpure
  obtain ⟨bytes,hpasses,htakes,hpos⟩ := readZigzagI32_passes hread
  exact ⟨bytes,value,hpasses,htakes,hpos⟩

lemma skipZigzagI64_passes (h : skipZigzagI64 s=some ((),s')) :
    ∃ bytes value, Passes s s' bytes ∧ zigzagI64.Takes bytes value ∧ 0<bytes.length := by
  obtain ⟨n,s'',hread,hpure⟩ := scan_bind.1 h
  cases hpure
  obtain ⟨bytes,hpasses,htakes⟩ := field_passes Leb.framed_read hread
  obtain ⟨held,heq,hholds,hlength,hlt⟩ := Leb.read_eq_some.1 htakes.apply
  rw [List.append_nil] at heq
  subst heq
  exact ⟨bytes,_,hpasses, (varU64_takes hholds hlength (hlt.trans_le (by decide))).bind_pure fun _=>rfl,
    List.length_pos_of_ne_nil hholds.ne_nil⟩

lemma readCollectionLength_passes (h : readCollectionLength s=some (n,s')) :
    ∃ bytes, Passes s s' bytes ∧ readLength.Takes bytes n ∧ 0<bytes.length := by
  obtain ⟨value,s'',hread,hrest⟩ := scan_bind.1 h
  split at hrest
  · cases hrest
  · rename_i hnonneg
    cases hrest
    obtain ⟨bytes,hpasses,htakes,hpos⟩ := readZigzagI32_passes hread
    refine ⟨bytes,hpasses,htakes.bind_pure fun _=>?_,hpos⟩
    rw [if_pos (Int.not_lt.1 hnonneg)]
    rfl

lemma scanString_passes {text : Str} (h : scanString s=some (text,s')) :
    ∃ bytes, Passes s s' bytes ∧ readString.Takes bytes text ∧ 0<bytes.length := by
  obtain ⟨length,s'',hlength,hrest⟩ := scan_bind.1 h
  split at hrest
  · cases hrest
  · obtain ⟨bytes,hpasses,htakes,hpos⟩ := readVarU32_passes hlength
    obtain ⟨others,hothers,hstr⟩ := field_passes (framed_takeStr length) hrest
    refine ⟨bytes++others,hpasses.trans hothers,htakes.bind hstr,?_⟩
    rw [List.length_append]
    exact Nat.add_pos_left hpos _

lemma skip_passes (h : skip n s=some ((),s')) :
    ∃ bytes, Passes s s' bytes ∧ (take n).Takes bytes bytes ∧ bytes.length=n := by
  obtain ⟨value,s'',hread,hpure⟩ := scan_bind.1 h
  cases hpure
  obtain ⟨bytes,hpasses,htakes⟩ := field_passes (Framed.take n) hread
  obtain ⟨rfl,hlength⟩ : value=bytes ∧ bytes.length=n := by
    have happly := htakes.apply
    unfold take at happly
    split at happly
    · rename_i hle
      rw [Option.some.injEq,Prod.mk.injEq,List.drop_eq_nil_iff] at happly
      have hlength : bytes.length=n := le_antisymm happly.2 hle
      rw [← hlength,List.take_length] at happly
      exact ⟨happly.1.symm,hlength⟩
    · cases happly
  exact ⟨value,hpasses,htakes,hlength⟩

end Fields

section Repetition

variable {α : Type}

lemma repeatScan_passes {step : Scanner Unit} {P : Bytes → α → Prop}
    (hstep : ∀ s s', step s=some ((),s') → ∃ bytes value, Passes s s' bytes ∧ P bytes value)
    (h : repeatScan step n s=some ((),s')) : ∃ items : List (Bytes × α), items.length=n ∧
      Passes s s' (items.map Prod.fst).flatten ∧ ∀ item ∈ items, P item.1 item.2 := by
  induction n generalizing s with
  | zero =>
    cases h
    exact ⟨[],rfl,⟨rfl,rfl⟩,fun _ hmem=>absurd hmem List.not_mem_nil⟩
  | succ n ih =>
    obtain ⟨⟨⟩,middle,hfirst,hrest⟩ := scan_bind.1 h
    obtain ⟨bytes,value,hpasses,hvalue⟩ := hstep s middle hfirst
    obtain ⟨items,hlength,hitems,hforall⟩ := ih hrest
    refine ⟨(bytes,value) :: items,congrArg (· + 1) hlength,?_, List.forall_mem_cons.2 ⟨hvalue,hforall⟩⟩
    exact hpasses.trans hitems

lemma checkCollectionLimit_passes (h : checkCollectionLimit n s=some ((),s')) : s=s' := by
  unfold checkCollectionLimit at h
  split at h
  · cases h
    rfl
  · cases h

lemma array_takes {p : Reader α} {items : List (Bytes × α)} {limit : ℕ} (hlength : readLength.Takes bytes items.length)
    (hitems : ∀ item ∈ items, p.Takes item.1 item.2) (hpos : ∀ item ∈ items, 0 < item.1.length)
    (hlimit : (items.map Prod.fst).flatten.length≤limit) :
    (readArray limit p).Takes (bytes ++ (items.map Prod.fst).flatten) (items.map Prod.snd) := by
  refine hlength.bind ?_
  have hle : items.length ≤ (items.map Prod.fst).flatten.length := by
    clear hlength hlimit hitems
    induction items with
    | nil => exact le_rfl
    | cons item items ih =>
      obtain ⟨hitem,hrest⟩ := List.forall_mem_cons.1 hpos
      have hitems := ih hrest
      rw [List.map_cons,List.flatten_cons,List.length_append,List.length_cons]
      omega
  rw [if_neg (Nat.not_lt.2 (hle.trans hlimit))]
  exact Takes.times Prod.snd hitems

lemma scanArray_passes {p : Reader α} {step : Scanner Unit}
    (hstep : ∀ s s', step s=some ((),s') → ∃ bytes value, Passes s s' bytes ∧ p.Takes bytes value ∧ 0<bytes.length)
    (h : scanArray step s=some ((),s')) : ∃ bytes values, Passes s s' bytes ∧
      0<bytes.length ∧ ∀ limit, bytes.length≤limit → (readArray limit p).Takes bytes values := by
  obtain ⟨length,middle,hlength,hrest⟩ := scan_bind.1 h
  obtain ⟨⟨⟩,checked,hcheck,hrepeat⟩ := scan_bind.1 hrest
  cases checkCollectionLimit_passes hcheck
  obtain ⟨bytes,hpasses,htakes,hpos⟩ := readCollectionLength_passes hlength
  obtain ⟨items,rfl,hitems,hforall⟩ := repeatScan_passes hstep hrepeat
  refine ⟨bytes ++ (items.map Prod.fst).flatten,items.map Prod.snd,hpasses.trans hitems,?_, fun limit hlimit=>?_⟩
  · rw [List.length_append]
    exact Nat.add_pos_left hpos _
  · rw [List.length_append] at hlimit
    exact array_takes htakes (fun item hmem=>(hforall item hmem).1) (fun item hmem=>(hforall item hmem).2) (by omega)

end Repetition

section Payloads

def Parses (value : ℕ → Reader NbtValue) (bytes : Bytes) (tree : NbtValue) : Prop :=
  0<bytes.length ∧ ∀ limit, bytes.length≤limit → (value limit).Takes bytes tree

variable {nested : UInt8 → Scanner Unit} {value : ℕ → UInt8 → Reader NbtValue}

def Agrees (nested : UInt8 → Scanner Unit) (value : ℕ → UInt8 → Reader NbtValue) : Prop :=
  ∀ tag s s', nested tag s=some ((),s') →
    ∃ bytes tree, Passes s s' bytes ∧ Parses (fun limit=>value limit tag) bytes tree

lemma checkElements_passes {element : UInt8} (h : checkElements element n s=some ((),s')) : s=s' := by
  unfold checkElements at h
  split at h
  · cases h
    rfl
  split at h
  · cases h
  cases hsize : minimumPayloadSize element.toNat with
  | none =>
    rw [hsize] at h
    cases h
  | some size =>
    rw [hsize] at h
    exact checkCollectionLimit_passes h

lemma scanList_passes (hnested : Agrees nested value) (h : scanList nested s=some ((),s')) :
    ∃ bytes tree, Passes s s' bytes ∧
      Parses (fun limit=>readList limit (some (value limit))) bytes tree := by
  obtain ⟨element,middle,helement,hrest⟩ := scan_bind.1 h
  obtain ⟨length,counted,hlength,hrest⟩ := scan_bind.1 hrest
  obtain ⟨⟨⟩,checked,hcheck,hrepeat⟩ := scan_bind.1 hrest
  cases checkElements_passes hcheck
  obtain ⟨first,hfirst,htag⟩ := field_passes framed_readByte helement
  obtain ⟨bytes,hpasses,htakes,-⟩ := readCollectionLength_passes hlength
  obtain ⟨items,rfl,hitems,hforall⟩ := repeatScan_passes
    (P := Parses fun limit=>value limit element) (fun s s' hstep=>by
      obtain ⟨⟨⟩,visited,hvisit,hpayload⟩ := scan_bind.1 hstep
      obtain ⟨bytes,tree,hpasses,hparses⟩ := hnested element visited s' hpayload
      exact ⟨bytes,tree,(visitTag_passes hvisit).trans hpasses,hparses⟩) hrepeat
  refine ⟨first ++ (bytes ++ (items.map Prod.fst).flatten),.list (items.map Prod.snd),
    hfirst.trans (hpasses.trans hitems),?_,fun limit hlimit=>?_⟩
  · rw [← List.append_assoc,List.length_append,List.length_append]
    have happly := readByte_eq_some.1 htag.apply
    rw [happly]
    exact Nat.add_pos_left (Nat.add_pos_left Nat.one_pos _) _
  · rw [List.length_append,List.length_append] at hlimit
    have hflatten : (items.map Prod.fst).flatten.length≤limit := by omega
    refine htag.bind ((array_takes htakes (fun item hmem=>?_)
      (fun item hmem=>(hforall item hmem).1) hflatten).bind_pure fun _=>rfl)
    exact (hforall item hmem).2 limit ((length_le_flatten_of_mem hmem).trans hflatten)

def ParsesEntry (value : ℕ → UInt8 → Reader NbtValue) (bytes : Bytes) (entry : Str × NbtValue) :
    Prop :=
  ∀ limit, bytes.length≤limit → (readEntry (value limit)).Takes bytes (some entry)

lemma entry_passes {tag : UInt8} {name : Str} {tree : NbtValue} {first middle last : Bytes}
    (htag : readByte.Takes first tag) (hne : tag≠0) (hname : readString.Takes middle name)
    (hparses : Parses (fun limit=>value limit tag) last tree) :
    ParsesEntry value (first ++ (middle++last)) (name,tree) := by
  intro limit hlimit
  rw [List.length_append,List.length_append] at hlimit
  refine htag.bind ?_
  rw [if_neg hne]
  exact hname.bind ((hparses.2 limit (by omega)).bind_pure fun _=>rfl)

/-- The compound of entries in the order they are read. -/
def collect (entries : Entries) : Entries :=
  entries.foldl (fun entries entry=>insert entry.1 entry.2 entries) []

lemma compound_takes (value : ℕ → UInt8 → Reader NbtValue) {items : List (Bytes × (Str × NbtValue))} {limit : ℕ}
    (hframed : ∀ tag, (value limit tag).Framed)
    (h : ∀ item ∈ items, ParsesEntry value item.1 item.2)
    (hlimit : (items.map Prod.fst).flatten.length≤limit) :
    (readCompound (value limit)).Takes ((items.map Prod.fst).flatten ++ [0])
      (collect (items.map Prod.snd)) := by
  refine (Takes.many_map (f := Prod.snd) (consumes_readEntry hframed) (fun _=>rfl)
    fun item hmem=>?_).bind_pure fun _=>rfl
  exact h item hmem limit ((length_le_flatten_of_mem hmem).trans hlimit)

lemma scanEntriesWithin_passes (hnested : Agrees nested value) {fuel : ℕ}
    (h : scanEntriesWithin nested fuel s=some ((),s')) :
    ∃ items : List (Bytes × (Str × NbtValue)), Passes s s' ((items.map Prod.fst).flatten ++ [0]) ∧
      ∀ item ∈ items, ParsesEntry value item.1 item.2 := by
  induction fuel generalizing s with
  | zero => cases h
  | succ fuel ih =>
    obtain ⟨tag,middle,htag,hrest⟩ := scan_bind.1 h
    obtain ⟨first,hfirst,htakes⟩ := field_passes framed_readByte htag
    have hbyte : first = [tag] := readByte_eq_some.1 htakes.apply
    split at hrest
    · rename_i hzero
      cases hrest
      rw [hbyte,hzero] at hfirst
      exact ⟨[],hfirst,fun _ hmem=>absurd hmem List.not_mem_nil⟩
    · rename_i hne
      obtain ⟨⟨⟩,visited,hvisit,hrest⟩ := scan_bind.1 hrest
      obtain ⟨name,named,hname,hrest⟩ := scan_bind.1 hrest
      obtain ⟨⟨⟩,last,hpayload,hrest⟩ := scan_bind.1 hrest
      obtain ⟨nameBytes,hnamePasses,hnameTakes,-⟩ := scanString_passes hname
      obtain ⟨bytes,tree,hpasses,hparses⟩ := hnested tag named last hpayload
      obtain ⟨items,hitems,hforall⟩ := ih hrest
      refine ⟨(first ++ (nameBytes++bytes),(name,tree)) :: items,?_,
        List.forall_mem_cons.2 ⟨entry_passes htakes hne hnameTakes hparses,hforall⟩⟩
      rw [List.map_cons,List.flatten_cons,List.append_assoc]
      exact ((hfirst.trans ((visitTag_passes hvisit).trans (hnamePasses.trans hpasses)))).trans hitems

lemma readLe_takes_of_take (h : (take n).Takes bytes bytes) :
    (readLe n).Takes bytes (fromLe bytes) := h.bind_pure fun _=>rfl

lemma scanTag_passes (value : ℕ → UInt8 → Reader NbtValue) {scan : Option (UInt8 → Scanner Unit)} {tag : ℕ}
    (hnested : ∀ nested ∈ scan, Agrees nested value)
    (hframed : ∀ limit tag, (value limit tag).Framed)
    (h : scanTag scan tag s=some ((),s')) : ∃ bytes tree, Passes s s' bytes ∧
      Parses (fun limit=>readTag limit (some (value limit)) tag) bytes tree := by
  unfold scanTag at h
  split at h
  · obtain ⟨bytes,hpasses,-,hlength⟩ := skip_passes h
    obtain ⟨byte,rfl⟩ := List.length_eq_one_iff.1 hlength
    exact ⟨[byte],.byte byte.toInt8,hpasses,Nat.one_pos,fun _ _ =>
      (readByte_takes byte).bind_pure fun _=>rfl⟩
  · obtain ⟨bytes,hpasses,htakes,hlength⟩ := skip_passes h
    exact ⟨bytes,.short _,hpasses,by omega,fun _ _ =>
      (readLe_takes_of_take htakes).bind_pure fun _=>rfl⟩
  · obtain ⟨bytes,value,hpasses,htakes,hpos⟩ := skipZigzagI32_passes h
    exact ⟨bytes,.int value,hpasses,hpos,fun _ _=>htakes.bind_pure fun _=>rfl⟩
  · obtain ⟨bytes,value,hpasses,htakes,hpos⟩ := skipZigzagI64_passes h
    exact ⟨bytes,.long value,hpasses,hpos,fun _ _=>htakes.bind_pure fun _=>rfl⟩
  · obtain ⟨bytes,hpasses,htakes,hlength⟩ := skip_passes h
    exact ⟨bytes,.float _,hpasses,by omega,fun _ _ =>
      (readLe_takes_of_take htakes).bind_pure fun _=>rfl⟩
  · obtain ⟨bytes,hpasses,htakes,hlength⟩ := skip_passes h
    exact ⟨bytes,.double _,hpasses,by omega,fun _ _ =>
      (readLe_takes_of_take htakes).bind_pure fun _=>rfl⟩
  · obtain ⟨length,middle,hlength,hskip⟩ := scan_bind.1 h
    obtain ⟨bytes,hpasses,htakes,hpos⟩ := readCollectionLength_passes hlength
    obtain ⟨others,hothers,htake,-⟩ := skip_passes hskip
    refine ⟨bytes++others,.byteArray others,hpasses.trans hothers,?_,fun _ _ =>
      htakes.bind (htake.bind_pure fun _=>rfl)⟩
    rw [List.length_append]
    exact Nat.add_pos_left hpos _
  · obtain ⟨text,middle,htext,hpure⟩ := scan_bind.1 h
    cases hpure
    obtain ⟨bytes,hpasses,htakes,hpos⟩ := scanString_passes htext
    exact ⟨bytes,.string text,hpasses,hpos,fun _ _=>htakes.bind_pure fun _=>rfl⟩
  · cases scan with
    | none => cases h
    | some nested => exact scanList_passes (hnested nested rfl) h
  · cases scan with
    | none => cases h
    | some nested =>
      obtain ⟨items,hpasses,hforall⟩ := scanEntriesWithin_passes (hnested nested rfl) h
      refine ⟨_,.compound (collect (items.map Prod.snd)),hpasses,?_,fun limit hlimit=>?_⟩
      · rw [List.length_append]
        exact Nat.succ_pos _
      · rw [List.length_append] at hlimit
        exact (compound_takes value (hframed limit) hforall (by omega)).bind_pure fun _=>rfl
  · obtain ⟨bytes,values,hpasses,hpos,htakes⟩ := scanArray_passes (fun _ _=>skipZigzagI32_passes) h
    exact ⟨bytes,.intArray values,hpasses,hpos,fun limit hlimit =>
      (htakes limit hlimit).bind_pure fun _=>rfl⟩
  · obtain ⟨bytes,values,hpasses,hpos,htakes⟩ := scanArray_passes (fun _ _=>skipZigzagI64_passes) h
    exact ⟨bytes,.longArray values,hpasses,hpos,fun limit hlimit =>
      (htakes limit hlimit).bind_pure fun _=>rfl⟩
  · cases h

/-- The parser reads what the scanner passes over, with one level to spare. -/
lemma agrees_scanWithin (room : ℕ) : Agrees (scanWithin room) fun limit=>valueWithin limit (room+1) := by
  induction room with
  | zero =>
    intro tag s s' h
    exact scanTag_passes (fun limit=>valueWithin limit 0) (fun _ hmem=>by cases hmem)
      (fun limit=>framed_valueWithin limit 0) h
  | succ room ih =>
    intro tag s s' h
    refine scanTag_passes (fun limit=>valueWithin limit (room+1))
      (fun nested hmem=>?_) (fun limit=>framed_valueWithin limit (room+1)) h
    cases hmem
    exact ih

end Payloads

section Roots

variable (key : Str)

/-- The values of a name, in the order they are read. -/
def valuesOf (entries : Entries) : List NbtValue :=
  (entries.filter fun entry=>entry.1=key).map Prod.snd

lemma valuesOf_append (entries others : Entries) :
    valuesOf key (entries++others) = valuesOf key entries++valuesOf key others := by
  unfold valuesOf
  rw [List.filter_append,List.map_append]

lemma get_insert (key name : Str) (value : NbtValue) (entries : Entries) : get key (insert name value entries) =
      if name=key then some value else get key entries := by
  induction entries with
  | nil =>
    by_cases h : name=key
    · simp [insert,get,h]
    · simp [insert,get,h]
  | cons entry entries ih =>
    unfold get at ih ⊢
    rw [insert]
    by_cases hname : name=entry.1
    · subst hname
      by_cases h : entry.1=key
      · simp [h]
      · simp [h]
    · rw [if_neg hname]
      split
      · by_cases h : name=key
        · simp [h]
        · simp [h]
      · by_cases h : entry.1=key
        · have hne : name≠key := fun hkey=>hname (hkey.trans h.symm)
          simp [h,hne]
        · rw [List.find?_cons_of_neg (by simpa using h),ih, List.find?_cons_of_neg (by simpa using h)]

lemma get_collect (entries : Entries) : get key (collect entries) = (valuesOf key entries).getLast? := by
  induction entries using List.reverseRecOn with
  | nil => rfl
  | append_singleton entries entry ih =>
    have hcollect : collect (entries ++ [entry]) = insert entry.1 entry.2 (collect entries) := by
      unfold collect
      rw [List.foldl_append]
      rfl
    rw [hcollect,get_insert,ih,valuesOf_append]
    by_cases h : entry.1=key
    · simp [valuesOf,h]
    · simp [valuesOf,h]

variable {α : Type}

def Tracks {α : Type} (key : Str) (wrap : α → NbtValue) (known found : Option α)
    (entries : Entries) : Prop :=
  known.toList.map wrap++valuesOf key entries=found.toList.map wrap

lemma Tracks.trans {key : Str} {wrap : α → NbtValue} {a b c : Option α}
    {entries others : Entries} (h : Tracks key wrap a b entries)
    (h' : Tracks key wrap b c others) : Tracks key wrap a c (entries++others) := by
  unfold Tracks at *
  rw [valuesOf_append,← List.append_assoc,h,h']

lemma tracks_other {key name : Str} {wrap : α → NbtValue} {known : Option α}
    {value : NbtValue} (h : name≠key) : Tracks key wrap known known [(name,value)] := by
  unfold Tracks valuesOf
  simp [h]

lemma tracks_none (wrap : α → NbtValue) (known : Option α) : Tracks key wrap known known [] := by
  unfold Tracks valuesOf
  simp

structure Follows (fields fields' : RootFields) (entries : Entries) : Prop where
  clean : fields.semanticError=none
  id : Tracks idName .string fields.id fields'.id entries
  x : Tracks xName .int fields.x fields'.x entries
  y : Tracks yName .int fields.y fields'.y entries
  z : Tracks zName .int fields.z fields'.z entries

lemma Follows.trans {a b c : RootFields} {entries others : Entries} (h : Follows a b entries)
    (h' : Follows b c others) : Follows a c (entries++others) :=
  ⟨h.clean,h.id.trans h'.id,h.x.trans h'.x,h.y.trans h'.y,h.z.trans h'.z⟩

lemma follows_other {fields : RootFields} {name : Str} {value : NbtValue}
    (hclean : fields.semanticError=none) (hid : name≠idName) (hx : name≠xName)
    (hy : name≠yName) (hz : name≠zName) : Follows fields fields [(name,value)] :=
  ⟨hclean,tracks_other hid,tracks_other hx,tracks_other hy,tracks_other hz⟩

abbrev rootValue (limit : ℕ) : UInt8 → Reader NbtValue := valueWithin limit maxNbtDepth

variable {tag : UInt8}

lemma scanPayload_passes (h : scanPayload tag 1 s=some ((),s')) :
    ∃ bytes tree, Passes s s' bytes ∧ Parses (fun limit=>rootValue limit tag) bytes tree :=
  agrees_scanWithin (maxNbtDepth-1) tag s s' h

lemma refuse_ne_none (fields : RootFields) (error : SemanticError) :
    (fields.refuse error).semanticError≠none := Option.some_ne_none _

variable {fields fields' : RootFields}

lemma scanRootField_passes {name : String} {expected tag : UInt8} {value : Scanner α}
    {p : Reader α} {wrap : α → NbtValue} {known : Option α} {set : α → RootFields → RootFields}
    (hvalue : ∀ s s' v, value s=some (v,s') → ∃ bytes, Passes s s' bytes ∧ p.Takes bytes v ∧ 0<bytes.length)
    (hwrap : ∀ limit bytes v, p.Takes bytes v → (rootValue limit expected).Takes bytes (wrap v))
    (h : scanRootField name expected value known set tag fields s=some (fields',s')) :
    ∃ bytes tree, Passes s s' bytes ∧ Parses (fun limit=>rootValue limit tag) bytes tree ∧
      (fields'.semanticError=none → known=none ∧ ∃ v, tree=wrap v ∧ fields'=set v fields) := by
  unfold scanRootField at h
  split at h
  · obtain ⟨⟨⟩,middle,hpayload,hpure⟩ := scan_bind.1 h
    cases hpure
    obtain ⟨bytes,tree,hpasses,hparses⟩ := scanPayload_passes hpayload
    exact ⟨bytes,tree,hpasses,hparses,fun hclean=>absurd hclean (refuse_ne_none _ _)⟩
  · rename_i htag
    rw [not_not] at htag
    obtain ⟨v,middle,hread,hpure⟩ := scan_bind.1 h
    obtain ⟨bytes,hpasses,htakes,hpos⟩ := hvalue _ _ _ hread
    rw [htag]
    cases hpure
    refine ⟨bytes,wrap v,hpasses,⟨hpos,fun limit _=>hwrap limit bytes v htakes⟩,?_⟩
    cases known with
    | some other => exact fun hclean=>absurd hclean (refuse_ne_none _ _)
    | none => exact fun _=>⟨rfl,v,rfl,rfl⟩

lemma scanRootByteCandidate_passes {candidate found : RootByteCandidate}
    (h : scanRootByteCandidate candidate tag s=some (found,s')) :
    ∃ bytes tree, Passes s s' bytes ∧ Parses (fun limit=>rootValue limit tag) bytes tree := by
  unfold scanRootByteCandidate at h
  split at h
  · rename_i htag
    obtain ⟨byte,middle,hread,hpure⟩ := scan_bind.1 h
    cases hpure
    obtain ⟨bytes,hpasses,htakes⟩ := field_passes framed_readByte hread
    rw [htag]
    refine ⟨bytes,.byte byte.toInt8,hpasses,?_,fun _ _=>htakes.bind_pure fun _=>rfl⟩
    rw [readByte_eq_some.1 htakes.apply]
    exact Nat.one_pos
  · obtain ⟨⟨⟩,middle,hpayload,hpure⟩ := scan_bind.1 h
    cases hpure
    exact scanPayload_passes hpayload

lemma tracks_first {key : Str} {wrap : α → NbtValue} (v : α) : Tracks key wrap none (some v) [(key,wrap v)] := by
  unfold Tracks valuesOf
  simp

lemma scanRootEntry_passes {name : Str} (h : scanRootEntry tag name fields s=some (fields',s')) :
    ∃ bytes tree, Passes s s' bytes ∧ Parses (fun limit=>rootValue limit tag) bytes tree ∧
      (fields'.semanticError=none → Follows fields fields' [(name,tree)]) := by
  have hstring : ∀ limit bytes (text : Str), readString.Takes bytes text →
      (rootValue limit 8).Takes bytes (.string text) := fun _ _ _ h=>h.bind_pure fun _=>rfl
  have hint : ∀ limit bytes value, zigzagI32.Takes bytes value →
      (rootValue limit 3).Takes bytes (.int value) := fun _ _ _ h=>h.bind_pure fun _=>rfl
  unfold scanRootEntry at h
  split at h
  · rename_i hname
    subst hname
    obtain ⟨bytes,tree,hpasses,hparses,hclean⟩ := scanRootField_passes (fun _ _ _=>scanString_passes) hstring h
    refine ⟨bytes,tree,hpasses,hparses,fun herror=>?_⟩
    obtain ⟨hknown,id,rfl,rfl⟩ := hclean herror
    refine ⟨herror,?_,tracks_other (by decide),tracks_other (by decide),tracks_other (by decide)⟩
    rw [hknown]
    exact tracks_first id
  rename_i hid
  split at h
  · rename_i hname
    subst hname
    obtain ⟨bytes,tree,hpasses,hparses,hclean⟩ := scanRootField_passes (fun _ _ _=>readZigzagI32_passes) hint h
    refine ⟨bytes,tree,hpasses,hparses,fun herror=>?_⟩
    obtain ⟨hknown,x,rfl,rfl⟩ := hclean herror
    refine ⟨herror,tracks_other (by decide),?_,tracks_other (by decide),tracks_other (by decide)⟩
    rw [hknown]
    exact tracks_first x
  rename_i hx
  split at h
  · rename_i hname
    subst hname
    obtain ⟨bytes,tree,hpasses,hparses,hclean⟩ := scanRootField_passes (fun _ _ _=>readZigzagI32_passes) hint h
    refine ⟨bytes,tree,hpasses,hparses,fun herror=>?_⟩
    obtain ⟨hknown,y,rfl,rfl⟩ := hclean herror
    refine ⟨herror,tracks_other (by decide),tracks_other (by decide),?_,tracks_other (by decide)⟩
    rw [hknown]
    exact tracks_first y
  rename_i hy
  split at h
  · rename_i hname
    subst hname
    obtain ⟨bytes,tree,hpasses,hparses,hclean⟩ := scanRootField_passes (fun _ _ _=>readZigzagI32_passes) hint h
    refine ⟨bytes,tree,hpasses,hparses,fun herror=>?_⟩
    obtain ⟨hknown,z,rfl,rfl⟩ := hclean herror
    refine ⟨herror,tracks_other (by decide),tracks_other (by decide),tracks_other (by decide),?_⟩
    rw [hknown]
    exact tracks_first z
  rename_i hz
  split at h
  · obtain ⟨candidate,middle,hread,hpure⟩ := scan_bind.1 h
    cases hpure
    obtain ⟨bytes,tree,hpasses,hparses⟩ := scanRootByteCandidate_passes hread
    exact ⟨bytes,tree,hpasses,hparses,fun herror =>
      ⟨herror,tracks_other hid,tracks_other hx,tracks_other hy,tracks_other hz⟩⟩
  split at h
  · obtain ⟨candidate,middle,hread,hpure⟩ := scan_bind.1 h
    cases hpure
    obtain ⟨bytes,tree,hpasses,hparses⟩ := scanRootByteCandidate_passes hread
    exact ⟨bytes,tree,hpasses,hparses,fun herror =>
      ⟨herror,tracks_other hid,tracks_other hx,tracks_other hy,tracks_other hz⟩⟩
  · obtain ⟨⟨⟩,middle,hpayload,hpure⟩ := scan_bind.1 h
    cases hpure
    obtain ⟨bytes,tree,hpasses,hparses⟩ := scanPayload_passes hpayload
    exact ⟨bytes,tree,hpasses,hparses,fun herror=>follows_other herror hid hx hy hz⟩

lemma scanRootWithin_passes {fuel : ℕ} (h : scanRootWithin fuel fields s=some (fields',s')) :
    ∃ items : List (Bytes × (Str × NbtValue)), Passes s s' ((items.map Prod.fst).flatten ++ [0]) ∧
      (∀ item ∈ items, ParsesEntry rootValue item.1 item.2) ∧
      (fields'.semanticError=none → Follows fields fields' (items.map Prod.snd)) := by
  induction fuel generalizing s fields with
  | zero => cases h
  | succ fuel ih =>
    obtain ⟨tag,middle,htag,hrest⟩ := scan_bind.1 h
    obtain ⟨first,hfirst,htakes⟩ := field_passes framed_readByte htag
    have hbyte : first = [tag] := readByte_eq_some.1 htakes.apply
    split at hrest
    · rename_i hzero
      cases hrest
      rw [hbyte,hzero] at hfirst
      exact ⟨[],hfirst,fun _ hmem=>absurd hmem List.not_mem_nil,fun herror =>
        ⟨herror,tracks_none _ _ _,tracks_none _ _ _,tracks_none _ _ _,tracks_none _ _ _⟩⟩
    · rename_i hne
      obtain ⟨⟨⟩,visited,hvisit,hrest⟩ := scan_bind.1 hrest
      obtain ⟨name,named,hname,hrest⟩ := scan_bind.1 hrest
      obtain ⟨found,last,hentry,hrest⟩ := scan_bind.1 hrest
      obtain ⟨nameBytes,hnamePasses,hnameTakes,-⟩ := scanString_passes hname
      obtain ⟨bytes,tree,hpasses,hparses,hfollows⟩ := scanRootEntry_passes hentry
      obtain ⟨items,hitems,hforall,hall⟩ := ih hrest
      refine ⟨(first ++ (nameBytes++bytes),(name,tree)) :: items,?_,
        List.forall_mem_cons.2 ⟨entry_passes htakes hne hnameTakes hparses,hforall⟩,fun herror=>?_⟩
      · rw [List.map_cons,List.flatten_cons,List.append_assoc]
        exact ((hfirst.trans ((visitTag_passes hvisit).trans (hnamePasses.trans hpasses)))).trans hitems
      · have hrestFollows := hall herror
        exact (hfollows hrestFollows.clean).trans hrestFollows

end Roots

section Prefixes

variable {input : Bytes} {nbt : BlockEntityNbt} {consumed : ℕ} {error : Option SemanticError}

structure Reports (root : Entries) (nbt : BlockEntityNbt) : Prop where
  id : get idName root=nbt.id.map .string
  x : get xName root=nbt.embeddedPosition.map fun position=>.int position.1
  y : get yName root=nbt.embeddedPosition.map fun position=>.int position.2.1
  z : get zName root=nbt.embeddedPosition.map fun position=>.int position.2.2

lemma Tracks.get_eq {α : Type} {key : Str} {wrap : α → NbtValue} {found : Option α}
    {entries : Entries} (h : Tracks key wrap none found entries) :
    get key (collect entries) = found.map wrap := by
  unfold Tracks at h
  rw [Option.toList_none,List.map_nil,List.nil_append] at h
  rw [get_collect,h]
  cases found <;> rfl

lemma reports_of_follows {fields : RootFields} {entries : Entries}
    {position : Option (Int32 × Int32 × Int32)} {embedded : RootFields}
    (hembed : embedPosition fields = (embedded,position))
    (hclean : embedded.semanticError=none)
    (h : fields.semanticError=none → Follows .empty fields entries) (hid : nbt.id=embedded.id)
    (hposition : nbt.embeddedPosition=position) : Reports (collect entries) nbt := by
  unfold embedPosition at hembed
  split at hembed
  · rename_i hx hy hz
    cases hembed
    have hfollows := h hclean
    refine ⟨by rw [hid]; exact hfollows.id.get_eq,?_,?_,?_⟩
    · rw [hposition,hfollows.x.get_eq,hx]
      rfl
    · rw [hposition,hfollows.y.get_eq,hy]
      rfl
    · rw [hposition,hfollows.z.get_eq,hz]
      rfl
  · rename_i x y z hx hy hz
    cases hembed
    have hfollows := h hclean
    refine ⟨by rw [hid]; exact hfollows.id.get_eq,?_,?_,?_⟩
    · rw [hposition,hfollows.x.get_eq,hx]
      rfl
    · rw [hposition,hfollows.y.get_eq,hy]
      rfl
    · rw [hposition,hfollows.z.get_eq,hz]
      rfl
  · cases hembed
    exact absurd hclean (refuse_ne_none _ _)

/-- What a scan takes off its input, and what the parser makes of a root compound there. -/
lemma scanPrefix_passes (h : scanPrefix input=some (nbt,consumed,error)) :
    ∃ bytes rest, input=bytes++rest ∧ bytes.length=consumed ∧ 0 < consumed ∧ nbt.bytes=bytes ∧
      (input.head? = some 10 → ∃ root, (readRoot bytes.length).Takes bytes root ∧ (error=none → Reports root nbt)) ∧
      (input.head? ≠ some 10 → error≠none) := by
  unfold scanPrefix at h
  split at h
  case h_2 => cases h
  rename_i fields position state hscan
  cases h
  obtain ⟨root,middle,hroot,hrest⟩ := scan_bind.1 hscan
  obtain ⟨name,named,hname,hvalue⟩ := scan_bind.1 hrest
  obtain ⟨⟨⟩,visited,hvisit,hvalue⟩ := scan_bind.1 hvalue
  obtain ⟨first,hfirst,htag⟩ := field_passes framed_readByte hroot
  have hbyte : first = [root] := readByte_eq_some.1 htag.apply
  obtain ⟨nameBytes,hnamePasses,hnameTakes,-⟩ := scanString_passes hname
  have hhead := hfirst.trans (hnamePasses.trans (visitTag_passes hvisit))
  have hinput : input.head? = some root := by
    have hrest := hhead.1
    rw [hbyte] at hrest
    exact congrArg List.head? hrest
  have htaken : ∀ {bytes}, Passes ⟨input,0,0⟩ state bytes → input=bytes++state.rest ∧ bytes.length=state.position ∧
        input.take state.position=bytes := by
    intro bytes hpasses
    have hposition : state.position=bytes.length := hpasses.2.trans (Nat.zero_add _)
    have hrest : input=bytes++state.rest := hpasses.1
    refine ⟨hrest,hposition.symm,?_⟩
    rw [hposition,hrest,List.take_left]
  have hpos : ∀ {bytes}, Passes ⟨input,0,0⟩ state (first++bytes) → 0 < state.position := by
    intro bytes hpasses
    rw [← (htaken hpasses).2.1,hbyte,List.length_append]
    exact Nat.add_pos_left Nat.one_pos _
  split at hvalue
  · rename_i hne
    obtain ⟨⟨⟩,last,hpayload,hpure⟩ := scan_bind.1 hvalue
    cases hpure
    obtain ⟨bytes,tree,hpasses,-⟩ := agrees_scanWithin _ _ _ _ hpayload
    have hall := hhead.trans hpasses
    rw [List.append_assoc] at hall
    obtain ⟨hrest,hlength,htake⟩ := htaken hall
    exact ⟨_,_,hrest,hlength,hpos hall,htake, fun hten=>absurd (Option.some.inj (hinput.symm.trans hten)) hne,
      fun _=>refuse_ne_none _ _⟩
  · rename_i hten
    rw [not_not] at hten
    obtain ⟨scanned,last,hscanned,hpure⟩ := scan_bind.1 hvalue
    cases hembed : embedPosition scanned with
    | mk embedded found =>
    rw [hembed] at hpure
    cases hpure
    obtain ⟨items,hpasses,hforall,hfollows⟩ := scanRootWithin_passes hscanned
    have hall := hhead.trans hpasses
    rw [List.append_assoc] at hall
    obtain ⟨hrest,hlength,htake⟩ := htaken hall
    refine ⟨_,_,hrest,hlength,hpos hall,htake,fun _=>?_,fun hne=>absurd (by
      rw [hinput,hten]) hne⟩
    refine ⟨collect (items.map Prod.snd),?_,fun herror =>
      reports_of_follows hembed herror hfollows rfl rfl⟩
    rw [List.append_nil]
    refine htag.bind ?_
    rw [if_neg (not_not.2 hten)]
    refine hnameTakes.bind ?_
    exact compound_takes rootValue (fun tag=>framed_valueWithin _ _ tag) hforall (by
      simp only [List.length_append]
      omega)

/-- An accepted scan takes at least one byte and no more than there are. -/
lemma scanPrefix_consumes (h : scanPrefix input=some (nbt,consumed,error)) :
    0 < consumed ∧ consumed ≤ input.length := by
  obtain ⟨bytes,rest,rfl,rfl,hpos,-⟩ := scanPrefix_passes h
  rw [List.length_append]
  exact ⟨hpos,Nat.le_add_right _ _⟩

/-- A byte of fuel for each byte of the payload is enough. -/
lemma decodeScopedWithin_isSome (scope : BlockEntityScope) (maxEntities : ℕ) {fuel : ℕ}
    (decoded : Decoded) (hfuel : input.length≤fuel) :
    (decodeScopedWithin scope maxEntities fuel input decoded).isSome=true := by
  induction fuel generalizing input decoded with
  | zero =>
    rw [List.length_eq_zero_iff.1 (Nat.le_zero.1 hfuel),decodeScopedWithin]
    rfl
  | succ fuel ih =>
    cases input with
    | nil =>
      rfl
    | cons tag rest =>
      have hrest : rest.length≤fuel := Nat.le_of_succ_le_succ hfuel
      rw [decodeScopedWithin]
      split
      · rfl
      split
      · exact ih decoded hrest
      split
      · rfl
      · rename_i nbt used semanticError hscan
        have hused := (scanPrefix_consumes hscan).1
        refine ih _ ?_
        rw [List.length_drop,List.length_cons]
        omega

/-- The two readers of network NBT agree, and splitting a payload into block entities ends. -/
theorem nbt_readers_agree : (∀ input nbt consumed, decodePrefix input = some (nbt,consumed) →
      0 < consumed ∧ consumed ≤ input.length ∧ nbt.bytes = input.take consumed ∧
      ∃ root, parse (input.take consumed) = some root ∧
        readRoot (input.take consumed).length (input.take consumed) = some (root,[]) ∧
        Reports root nbt) ∧
    (∀ input nbt consumed error, scanPrefix input = some (nbt,consumed,error) → 0 < consumed ∧ consumed ≤ input.length ∧
      (input.head? = some 10 → (parse (input.take consumed)).isSome = true)) ∧
    ∀ scope payload maxEntities, (decodeScopedEntities scope payload maxEntities).isSome = true := by
  have htake : ∀ {input nbt consumed error}, scanPrefix input = some (nbt,consumed,error) →
      input.head? = some 10 → nbt.bytes = input.take consumed ∧
      ∃ root, readRoot (input.take consumed).length (input.take consumed) = some (root,[]) ∧
        (error=none → Reports root nbt) := by
    intro input nbt consumed error h hten
    obtain ⟨bytes,rest,rfl,rfl,-,hbytes,hroot,-⟩ := scanPrefix_passes h
    obtain ⟨root,htakes,hreports⟩ := hroot hten
    rw [List.take_left]
    exact ⟨hbytes,root,htakes.apply,hreports⟩
  refine ⟨?_,?_,?_⟩
  · intro input nbt consumed h
    unfold decodePrefix at h
    split at h
    case h_2 => cases h
    rename_i hscan
    cases h
    obtain ⟨-,-,-,-,-,-,-,hroot⟩ := scanPrefix_passes hscan
    have hten : input.head? = some 10 := by
      by_contra hne
      exact hroot hne rfl
    obtain ⟨hbytes,root,hread,hreports⟩ := htake hscan hten
    obtain ⟨hpos,hle⟩ := scanPrefix_consumes hscan
    refine ⟨hpos,hle,hbytes,root,?_,hread,hreports rfl⟩
    rw [parse,hread]
    rfl
  · intro input nbt consumed error h
    obtain ⟨hpos,hle⟩ := scanPrefix_consumes h
    refine ⟨hpos,hle,fun hten => ?_⟩
    obtain ⟨-,root,hread,-⟩ := htake h hten
    rw [parse,hread]
    rfl
  · exact fun scope payload maxEntities =>
      decodeScopedWithin_isSome scope maxEntities _ le_rfl

end Prefixes

end Cinnabar.Nbt
