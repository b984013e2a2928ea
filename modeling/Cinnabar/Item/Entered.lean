import Cinnabar.Item.Fields

/-! # User data and its entries -/

namespace Cinnabar.Item

open Reader List

variable {extra root trailer wanted key : Bytes} {entry : Entry} {entries fields : List Entry}
  {tag : UInt8}

section Splitting

def rootBytes (root : Bytes) (entries : List Entry) (trailer : Bytes) : Bytes :=
  [tagCompound] ++ ((toLe 2 root.length++root) ++ (body entries++trailer))

def envelope (root : Bytes) (entries : List Entry) (trailer : Bytes) : Bytes :=
  toLe 2 0xffff ++ ([1] ++ rootBytes root entries trailer)

inductive Splits : Bytes → Bytes → List Entry → Bytes → Prop
  | compound {root : Bytes} {entries : List Entry} (trailer : Bytes)
      (hroot : root.length<2^16) (hkept : ∀ entry ∈ entries, Kept entry) :
      Splits (envelope root entries trailer) root entries trailer
  | plain (trailer : Bytes) : Splits (toLe 2 0++trailer) [] [] trailer
  | empty : Splits [] [] [] (List.replicate 8 0)

lemma readU16Le_marker {marker : ℕ} (h : marker<2^16) (rest : Bytes) :
    readU16Le (if (toLe 2 marker++rest).isEmpty then emptyUserData else toLe 2 marker++rest) =
      some (marker,rest) := readLe_takes h rest

lemma readExtraEntries_envelope (hroot : root.length<2^16) (hkept : ∀ entry ∈ entries, Kept entry) :
    readExtraEntries (envelope root entries trailer) = some (root,entries,trailer) := by
  unfold readExtraEntries envelope
  rw [readU16Le_marker (by decide)]
  dsimp only
  rw [if_pos rfl,bind_apply,readU8_takes,Option.bind_some]
  unfold rootBytes
  rw [bind_apply,readU8_takes,Option.bind_some]
  rw [if_pos ⟨rfl,rfl⟩,bind_apply,readName_takes hroot,Option.bind_some]
  rw [bind_apply,readEntries_takes hkept]
  rfl

section

variable (h : Splits extra root entries trailer)
include h

lemma Splits.read : readExtraEntries extra=some (root,entries,trailer) := by
  cases h with
  | compound trailer hroot hkept => exact readExtraEntries_envelope hroot hkept
  | plain =>
    rfl
  | empty => rfl

lemma Splits.kept : ∀ entry ∈ entries, Kept entry := by
  cases h with
  | compound trailer hroot hkept => exact hkept
  | plain => exact fun _ hmem=>absurd hmem not_mem_nil
  | empty => exact fun _ hmem=>absurd hmem not_mem_nil

lemma Splits.length_root : root.length<2^16 := by
  cases h with
  | compound trailer hroot hkept => exact hroot
  | plain => decide
  | empty => decide

end

end Splitting

section Tags

lemma value_readEntries (h : ∀ field ∈ fields, Kept field) : value readEntries (body fields) = some fields := by
  unfold value
  rw [(readEntries_takes h).apply]
  rfl

section

variable (h : Splits extra root entries trailer)
include h

end

end Tags

end Cinnabar.Item

/-! # Setting entries by name

Where names are unique, setting an entry changes what that name finds and
nothing else, and setting it again changes nothing.
-/

namespace Cinnabar.Item

open Reader List

variable {entry : Entry} {entries : List Entry} {name other : Bytes} {tag : UInt8}
  {new : Option (UInt8 × Bytes)} {asked : Option (Option (UInt8 × Bytes))}

def UniqueNames (entries : List Entry) : Prop := (entries.map Entry.name).Nodup

def named (name : Bytes) (entries : List Entry) : Option Entry :=
  entries.find? fun entry=>entry.name=name

def entered (name : Bytes) (new : UInt8 × Bytes) : Entry := ⟨new.1,name,new.2⟩

/-- Sets an entry where the edit says so. -/
def setWhen (name : Bytes) (asked : Option (Option (UInt8 × Bytes))) (entries : List Entry) :
    List Entry := asked.elim entries fun new=>setEntry name new entries

section Named

lemma named_cons : named name (entry::entries) = if entry.name=name then some entry else named name entries := by
  unfold named
  rw [List.find?_cons]
  by_cases h : entry.name=name
  · rw [decide_eq_true h,if_pos h]
  · rw [decide_eq_false h,if_neg h]

lemma named_eq_none : named name entries=none ↔ name ∉ entries.map Entry.name := by
  unfold named
  rw [List.find?_eq_none,mem_map]
  constructor
  · rintro h ⟨entry,hmem,hname⟩
    exact h entry hmem (decide_eq_true hname)
  · exact fun h entry hmem hname=>h ⟨entry,hmem,of_decide_eq_true hname⟩

lemma UniqueNames.cons (h : UniqueNames (entry::entries)) : named entry.name entries=none ∧ UniqueNames entries := by
  rw [named_eq_none]
  exact nodup_cons.1 h

end Named

section Setting

lemma named_setEntry_other (hne : other≠name) : named other (setEntry name new entries) = named other entries := by
  induction entries with
  | nil =>
    cases new with
    | none => rfl
    | some new => exact named_cons.trans (if_neg fun heq=>hne heq.symm)
  | cons entry entries ih =>
    rw [setEntry]
    split
    · rename_i hname
      cases new with
      | none =>
        rw [named_cons,if_neg fun heq=>hne (heq.symm.trans hname)]
        rfl
      | some new =>
        rw [named_cons,if_neg fun heq=>hne (heq.symm.trans hname)]
        exact named_cons.trans (if_neg fun heq=>hne heq.symm)
    · rw [named_cons,named_cons,ih]

lemma named_setEntry (h : UniqueNames entries) : named name (setEntry name new entries) = new.map (entered name) := by
  induction entries with
  | nil =>
    cases new with
    | none => rfl
    | some new => exact named_cons.trans (if_pos rfl)
  | cons entry entries ih =>
    rw [setEntry]
    split
    · rename_i hname
      cases new with
      | none => exact hname ▸ h.cons.1
      | some new => exact named_cons.trans (if_pos rfl)
    · rename_i hname
      rw [named_cons,if_neg hname,ih h.cons.2]

lemma mem_setEntry (h : entry ∈ setEntry name new entries) :
    entry ∈ entries ∨ ∃ value, new=some value ∧ entry=entered name value := by
  induction entries with
  | nil =>
    cases new with
    | none => exact absurd h List.not_mem_nil
    | some new => exact .inr ⟨new,rfl,mem_singleton.1 h⟩
  | cons first entries ih =>
    rw [setEntry] at h
    split at h
    · cases new with
      | none => exact .inl (.tail _ h)
      | some new =>
        rcases mem_cons.1 h with heq | hmem
        · exact .inr ⟨new,rfl,heq⟩
        · exact .inl (.tail _ hmem)
    · rcases mem_cons.1 h with rfl | hmem
      · exact .inl (.head _)
      · exact (ih hmem).imp_left (mem_cons_of_mem _)

lemma UniqueNames.setEntry (h : UniqueNames entries) : UniqueNames (setEntry name new entries) := by
  induction entries with
  | nil =>
    cases new with
    | none => exact h
    | some new => exact nodup_singleton _
  | cons entry entries ih =>
    rw [Item.setEntry]
    split
    · rename_i hname
      cases new with
      | none => exact h.cons.2
      | some new =>
        subst hname
        exact h
    · rename_i hname
      refine nodup_cons.2 ⟨?_,ih h.cons.2⟩
      rw [← named_eq_none,named_setEntry_other hname]
      exact h.cons.1

end Setting

section Asking

lemma named_setWhen_other (hne : other≠name) : named other (setWhen name asked entries) = named other entries := by
  cases asked with
  | none => rfl
  | some new => exact named_setEntry_other hne

lemma UniqueNames.setWhen (h : UniqueNames entries) : UniqueNames (setWhen name asked entries) := by
  cases asked with
  | none => exact h
  | some new => exact h.setEntry

lemma forall_setWhen {P : Entry → Prop} (h : ∀ entry ∈ entries, P entry)
    (hasked : ∀ value, asked=some (some value) → P (entered name value)) :
    ∀ entry ∈ setWhen name asked entries, P entry := by
  cases asked with
  | none => exact h
  | some new =>
    intro entry hmem
    rcases mem_setEntry hmem with hold | ⟨value,rfl,rfl⟩
    · exact h entry hold
    · exact hasked value rfl

end Asking

end Cinnabar.Item
