import Cinnabar.Item.Edits

/-! # Reading an edit back -/

namespace Cinnabar.Item

open Reader

variable {edit : ItemNbtEdit} {entries fields : List Entry} {name key : Bytes} {tag : UInt8}

section Display

lemma displayFields_eq : displayFields entries =
    ((named displayName entries).filter fun entry=>entry.tag=tagCompound).elim (some [])
      fun entry=>value readEntries entry.payload := by
  have hfind : (entries.find? fun entry=>entry.name=displayName) =
    named displayName entries := rfl
  unfold displayFields
  rw [hfind]
  cases named displayName entries with
  | none => rfl
  | some entry =>
    dsimp only
    rw [Option.filter_some]
    by_cases htag : entry.tag=tagCompound
    · rw [if_pos htag,if_pos (decide_eq_true htag)]
      rfl
    · rw [if_neg htag,if_neg (fun hdecide=>htag (of_decide_eq_true hdecide))]
      rfl

lemma displayFields_set (hkept : ∀ field ∈ fields, Kept field)
    (h : named displayName entries = (compoundValue fields).map (entered displayName)) :
    displayFields entries=some fields := by
  rw [displayFields_eq,h]
  cases fields with
  | nil => rfl
  | cons field fields =>
    exact value_readEntries hkept

end Display

def edited (edit : ItemNbtEdit) (entries fields : List Entry) : List Entry :=
  if edit.customName.isNone && edit.filteredCustomName.isNone then edit.editRoot entries
  else setEntry displayName (compoundValue (edit.editFields fields)) (edit.editRoot entries)

lemma editFields_idle (hidle : (edit.customName.isNone && edit.filteredCustomName.isNone) = true) :
    edit.editFields fields=fields := by
  obtain ⟨hname,hfiltered⟩ := (Bool.and_eq_true _ _).mp hidle
  have hnone := Option.isNone_iff_eq_none.1 hname
  have hnone' := Option.isNone_iff_eq_none.1 hfiltered
  unfold ItemNbtEdit.editFields ItemNbtEdit.askedName ItemNbtEdit.askedFiltered ItemNbtEdit.filteredName
  rw [hnone,hnone']
  rfl

structure Editable (edit : ItemNbtEdit) (entries fields : List Entry) : Prop where
  unique : UniqueNames entries
  kept : ∀ entry ∈ entries, Kept entry
  display : displayFields entries=some fields
  nested : ∀ field ∈ fields, Nested field
  uniqueFields : UniqueNames fields
  fits : edit.Fits

namespace Editable

variable (h : Editable edit entries fields)
include h

section Fields

lemma nested_editFields : ∀ field ∈ edit.editFields fields, Nested field := by
  refine forall_setWhen (forall_setWhen h.nested ?_) ?_
  · intro new hasked
    obtain ⟨value,hvalue,htext⟩ := Option.map_eq_some_iff.1 hasked
    obtain ⟨text,rfl,rfl⟩ := Option.map_eq_some_iff.1 htext
    exact nested_text (by decide) (h.fits.name text hvalue)
  · intro new hasked
    obtain ⟨value,hvalue,htext⟩ := Option.map_eq_some_iff.1 hasked
    obtain ⟨text,rfl,rfl⟩ := Option.map_eq_some_iff.1 htext
    exact nested_text (by decide) (h.fits.filtered text hvalue)

lemma unique_editFields : UniqueNames (edit.editFields fields) := h.uniqueFields.setWhen.setWhen

end Fields

section Entries

lemma edited_eq : edit.editDisplay (edit.editRoot entries) = some (edited edit entries fields) := by
  have hfields : displayFields (edit.editRoot entries) = some fields := by
    rw [← h.display,displayFields_eq,displayFields_eq,named_editRoot_display]
  unfold edited
  by_cases hidle : (edit.customName.isNone && edit.filteredCustomName.isNone) = true
  · rw [if_pos hidle]
    exact if_pos hidle
  · rw [if_neg hidle]
    exact editDisplay_eq hidle h.fits hfields fun field hmem=>(h.nested_editFields field hmem).name

lemma unique_edited : UniqueNames (edited edit entries fields) := by
  unfold edited
  split
  · exact h.unique.editRoot
  · exact h.unique.editRoot.setEntry

lemma kept_edited : ∀ entry ∈ edited edit entries fields, Kept entry := by
  have hroot := @kept_editRoot edit entries h.kept
  unfold edited
  split
  · exact hroot
  · intro entry hmem
    rcases mem_setEntry hmem with hold | ⟨new,hnew,rfl⟩
    · exact hroot entry hold
    · unfold compoundValue at hnew
      split at hnew
      · cases hnew
      · cases hnew
        exact kept_compound rfl (show displayName.length<2^16 by decide) rfl h.nested_editFields

lemma display_edited : displayFields (edited edit entries fields) = some (edit.editFields fields) := by
  unfold edited
  split
  · rename_i hidle
    rw [editFields_idle hidle,← h.display,displayFields_eq,displayFields_eq, named_editRoot_display]
  · exact displayFields_set (fun field hmem=>(h.nested_editFields field hmem).kept) (named_setEntry h.unique.editRoot)

lemma again : Editable edit (edited edit entries fields) (edit.editFields fields) where
  unique := h.unique_edited
  kept := h.kept_edited
  display := h.display_edited
  nested := h.nested_editFields
  uniqueFields := h.unique_editFields
  fits := h.fits

end Entries

end Editable

end Cinnabar.Item
