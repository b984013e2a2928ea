import Cinnabar.Item.Entered

/-! # The values an edit writes -/

namespace Cinnabar.Item

open Reader List

variable {fields : List Entry} {name : Bytes}

section Numbers

lemma skip_toLe_takes (width n : ℕ) : (skip width).Takes (toLe width n) () := by
  have htakes : (skip (toLe width n).length).Takes (toLe width n) () := skip_takes
  rwa [length_toLe] at htakes

lemma kept_int (hname : name.length<2^16) (value : Int32) :
    ∀ new, intValue value=some new → Kept (entered name new) := by
  rintro new ⟨⟩
  exact ⟨show tagInt≠0 by decide,hname,skip_toLe_takes 4 _⟩

end Numbers

section Texts

def textValue (text : String) : UInt8 × Bytes :=
  (tagString,toLe 2 (utf8 text).length++utf8 text)

variable {text : String}

lemma nested_text (hname : name.length<2^16) (h : (utf8 text).length<2^16) : Nested (entered name (textValue text)) :=
  ⟨show tagString≠0 by decide,hname,(readName_takes h).bind_pure fun _=>rfl⟩

end Texts

section Enchantments

variable {enchantments : List (Int16 × Int16)} (enchantment : Int16 × Int16)

def enchantmentBytes : Bytes :=
  body [shortEntry idName enchantment.1,shortEntry lvlName enchantment.2]

/-- The payload of an `ench` list. -/
def listBytes (enchantments : List (Int16 × Int16)) : Bytes :=
  [tagCompound] ++ (toLe 4 enchantments.length ++ (enchantments.map enchantmentBytes).flatten)

variable {payload : UInt8 → Reader Unit}

lemma formed_short {n : ℕ} (hname : name.length<2^16) (hpayload : (payload tagShort).Takes (toLe 2 n) ()) :
    Entry.Formed payload ⟨tagShort,name,toLe 2 n⟩ :=
  ⟨show tagShort≠0 by decide,hname,hpayload⟩

lemma formed_enchantment (hpayload : ∀ n, (payload tagShort).Takes (toLe 2 n) ()) (enchantment : Int16 × Int16) :
    ∀ entry ∈ [shortEntry idName enchantment.1,shortEntry lvlName enchantment.2],
      entry.Formed payload := by
  intro entry hmem
  rcases mem_cons.1 hmem with rfl | hmem
  · exact formed_short (by decide) (hpayload _)
  · cases mem_singleton.1 hmem
    exact formed_short (by decide) (hpayload _)

lemma mapM_eq_map {α β : Type} {f : α → Option β} {g : α → β} {values : List α}
    (h : ∀ value, f value=some (g value)) : values.mapM f=some (values.map g) := by
  induction values with
  | nil => rfl
  | cons value values ih =>
    rw [mapM_cons,h,ih]
    rfl

lemma enchantmentList_eq (h : enchantments.length<2^31) :
    enchantmentList enchantments=some (listBytes enchantments) := by
  have hcompounds : enchantments.mapM (fun enchantment=>writeEntries
      [shortEntry idName enchantment.1,shortEntry lvlName enchantment.2]) =
        some (enchantments.map enchantmentBytes) := mapM_eq_map fun enchantment =>
    writeEntries_eq fun entry hmem =>
      (@formed_enchantment (fun _=>skip 2) (skip_toLe_takes 2) enchantment entry hmem).name
  unfold enchantmentList
  rw [if_pos h,hcompounds]
  rfl

lemma kept_enchantments (h : enchantments.length<2^31) : Kept (entered enchName (tagList,listBytes enchantments)) := by
  refine ⟨show tagList≠0 by decide,show enchName.length<2^16 by decide,?_⟩
  have hcompound : ∀ enchantment : Int16 × Int16,
      (skipWithin 511 tagCompound).Takes (enchantmentBytes enchantment) () := fun enchantment =>
    (entries_takes (fun tag=>framed_skipWithin 510 tag) (formed_enchantment
      (fun n=>skip_toLe_takes 2 n) enchantment)).bind_pure fun _=>rfl
  have htimes := Takes.times (fun _=>()) fun enchantment (_ : enchantment ∈ enchantments) =>
    hcompound enchantment
  refine (readU8_takes tagCompound).bind ((readCount_takes h).bind ?_)
  rw [if_neg fun hand=>absurd hand.2 (by decide)]
  exact htimes.bind_pure fun _=>rfl

end Enchantments

end Cinnabar.Item

/-! # The entries an edit leaves

An edit of user data with unique names sets the entries of the tags it names, in
the root compound and in the display compound, and writes them as a split
envelope.
-/

namespace Cinnabar.Item

open Reader

variable {edit : ItemNbtEdit} {entries entries' fields : List Entry} {root trailer out : Bytes}
  {name key : Bytes}

namespace ItemNbtEdit

variable (edit : ItemNbtEdit)

def askedDamage : Option (Option (UInt8 × Bytes)) := edit.damage.map intValue

def askedCost : Option (Option (UInt8 × Bytes)) := edit.repairCost.map intValue

/-- The list a count can hold: a longer one is removed. -/
def storedList : Option (List (Int16 × Int16)) := edit.enchantments.map fun enchantments =>
  if enchantments.length<2^31 then enchantments else []

def askedList : Option (Option (UInt8 × Bytes)) := edit.storedList.map fun enchantments =>
  if enchantments.isEmpty then none else some (tagList,listBytes enchantments)

def askedName : Option (Option (UInt8 × Bytes)) := edit.customName.map (Option.map textValue)

def askedFiltered : Option (Option (UInt8 × Bytes)) := edit.filteredName.map (Option.map textValue)

def editFields (fields : List Entry) : List Entry :=
  setWhen filteredNameName edit.askedFiltered (setWhen nameName edit.askedName fields)

structure Fits : Prop where
  name : ∀ text, edit.customName=some (some text) → (utf8 text).length<2^16
  filtered : ∀ text, edit.filteredName=some (some text) → (utf8 text).length<2^16

def Displays : Prop := ¬(edit.customName.isNone && edit.filteredCustomName.isNone) = true

end ItemNbtEdit

section Root

lemma length_storedList {enchantments : List (Int16 × Int16)}
    (h : edit.storedList=some enchantments) : enchantments.length<2^31 := by
  obtain ⟨list,-,rfl⟩ := Option.map_eq_some_iff.1 h
  split
  · assumption
  · exact Nat.two_pow_pos 31

lemma listValue_eq (enchantments : List (Int16 × Int16)) :
    (if enchantments.isEmpty then none else enchantmentList enchantments).map (fun payload=>(tagList,payload)) =
      if (if enchantments.length<2^31 then enchantments else []).isEmpty then none
      else some (tagList,
        listBytes (if enchantments.length<2^31 then enchantments else [])) := by
  by_cases hlength : enchantments.length<2^31
  · split
    · rfl
    · rw [enchantmentList_eq hlength]
      rfl
  · have hnone : enchantmentList enchantments=none := by
      unfold enchantmentList
      rw [if_neg hlength]
      rfl
    rw [if_neg hlength,hnone]
    split <;> rfl

lemma editRoot_eq : edit.editRoot entries=setWhen enchName edit.askedList
      (setWhen repairCostName edit.askedCost (setWhen damageName edit.askedDamage entries)) := by
  obtain ⟨damage,cost,enchantments,names,filtered⟩ := edit
  cases enchantments with
  | none => cases damage <;> cases cost <;> rfl
  | some list =>
    unfold ItemNbtEdit.editRoot
    dsimp only [Option.elim_some]
    rw [listValue_eq]
    cases damage <;> cases cost <;> rfl

lemma UniqueNames.editRoot (h : UniqueNames entries) : UniqueNames (edit.editRoot entries) := by
  rw [editRoot_eq]
  exact h.setWhen.setWhen.setWhen

lemma kept_editRoot (h : ∀ entry ∈ entries, Kept entry) : ∀ entry ∈ edit.editRoot entries, Kept entry := by
  rw [editRoot_eq]
  have hint : ∀ {name : Bytes} {asked : Option Int32}, name.length<2^16 →
      ∀ new, asked.map intValue=some (some new) → Kept (entered name new) := by
    intro name asked hname new hasked
    obtain ⟨value,-,hvalue⟩ := Option.map_eq_some_iff.1 hasked
    exact kept_int hname value new hvalue
  refine forall_setWhen (forall_setWhen (forall_setWhen h (hint (by decide))) (hint (by decide))) ?_
  intro new hasked
  obtain ⟨list,hlist,hvalue⟩ := Option.map_eq_some_iff.1 hasked
  split at hvalue
  · cases hvalue
  · cases hvalue
    exact kept_enchantments (length_storedList hlist)

lemma named_editRoot_display : named displayName (edit.editRoot entries) = named displayName entries := by
  rw [editRoot_eq,named_setWhen_other (by decide),named_setWhen_other (by decide), named_setWhen_other (by decide)]

end Root

section Display

variable {value : Option (Option String)}

lemma setDisplayString_eq {display : List Entry} (h : ∀ text, value=some (some text) → (utf8 text).length<2^16) :
    setDisplayString key value display =
      some (setWhen key (value.map (Option.map textValue)) display) := by
  match value with
  | none => rfl
  | some none => rfl
  | some (some text) =>
    unfold setDisplayString
    dsimp only
    rw [writeString_eq (h text rfl)]
    rfl

def compoundValue (fields : List Entry) : Option (UInt8 × Bytes) :=
  if fields.isEmpty then none else some (tagCompound,body fields)

lemma compoundPayload_eq (h : ∀ field ∈ fields, field.name.length<2^16) :
    ∃ payload, compoundPayload fields=some payload ∧
      (payload.map fun payload=>(tagCompound,payload)) = compoundValue fields := by
  unfold compoundPayload compoundValue
  split
  · exact ⟨none,rfl,rfl⟩
  · rw [writeEntries_eq h]
    exact ⟨some (body fields),rfl,rfl⟩

lemma editDisplay_eq (hdisplays : edit.Displays) (hfits : edit.Fits) (hfields : displayFields entries=some fields)
    (hnames : ∀ field ∈ edit.editFields fields, field.name.length<2^16) :
    edit.editDisplay entries =
      some (setEntry displayName (compoundValue (edit.editFields fields)) entries) := by
  obtain ⟨payload,hpayload,hvalue⟩ := compoundPayload_eq hnames
  unfold ItemNbtEdit.editFields ItemNbtEdit.askedName ItemNbtEdit.askedFiltered at *
  unfold ItemNbtEdit.editDisplay
  simp only [if_neg hdisplays,hfields,Option.bind_eq_bind,Option.bind_some,
    setDisplayString_eq hfits.name,setDisplayString_eq hfits.filtered,hpayload,hvalue]

end Display

end Cinnabar.Item
