import Cinnabar.Item.ReadBack

/-! # An edit reads back as it was written -/

namespace Cinnabar.Item

open Reader List

variable {edit : ItemNbtEdit} {entries entries' fields fields' : List Entry} {name key : Bytes}
  {extra out root trailer : Bytes}

section Values

end Values

section Anvil

variable (found : Option Entry)

end Anvil

section Writing

lemma writeExtra_eq (hroot : root.length<2^16) (hkept : ∀ entry ∈ entries, Kept entry)
    (hne : entries ≠ []) : writeExtra root entries trailer=some (envelope root entries trailer) := by
  unfold writeExtra
  rw [if_neg (fun hempty=>hne (List.isEmpty_iff.1 hempty)),writeString_eq hroot, Option.bind_eq_bind,Option.bind_some,
    writeEntries_eq fun entry hmem=>(hkept entry hmem).name,Option.bind_some]
  simp only [envelope,rootBytes,append_assoc,cons_append,nil_append]

lemma writeExtra_splits (hroot : root.length<2^16) (hkept : ∀ entry ∈ entries, Kept entry) :
    ∃ written root', writeExtra root entries trailer=some written ∧
      Splits written root' entries trailer ∧ (entries ≠ [] → root'=root) ∧
      writeExtra root' entries trailer=some written := by
  cases entries with
  | nil => exact ⟨toLe 2 0++trailer,[],rfl,Splits.plain trailer,fun h=>absurd rfl h,rfl⟩
  | cons entry entries =>
    have hwritten := @writeExtra_eq _ root trailer hroot hkept (cons_ne_nil entry entries)
    exact ⟨_,root,hwritten,Splits.compound trailer hroot hkept,fun _=>rfl,hwritten⟩

section

variable (hsplits : Splits extra root entries trailer)
include hsplits

lemma Splits.edit_eq (h : Editable edit entries fields) : editItemExtra extra edit =
      (writeExtra root (edited edit entries fields) trailer).bind fun written =>
        if written.length ≤ maxItemNbtBytes then some written else none := by
  unfold editItemExtra
  rw [hsplits.read,Option.bind_eq_bind,Option.bind_some]
  dsimp only
  rw [h.edited_eq,Option.bind_eq_bind,Option.bind_some]
  rfl

lemma Splits.edited (h : Editable edit entries fields) (hedit : editItemExtra extra edit=some out) :
    writeExtra root (edited edit entries fields) trailer=some out ∧ out.length ≤ maxItemNbtBytes ∧ ∃ root',
        Splits out root' (Item.edited edit entries fields) trailer ∧
        (Item.edited edit entries fields ≠ [] → root'=root) ∧
        writeExtra root' (Item.edited edit entries fields) trailer=some out := by
  obtain ⟨written,root',hwritten,hsplits',hsame,hagain⟩ :=
    @writeExtra_splits _ root trailer hsplits.length_root h.kept_edited
  rw [hsplits.edit_eq h,hwritten,Option.bind_some] at hedit
  split at hedit
  · rename_i hsize
    cases hedit
    exact ⟨hwritten,hsize,root',hsplits',hsame,hagain⟩
  · cases hedit

end

end Writing

section Readers

variable (h : Editable edit entries fields)
include h

end Readers

section Remainder

end Remainder

section Unedited

end Unedited

end Cinnabar.Item
