import StreamingTemplate.Json.Basic
import Mathlib.Data.String.Basic
import Mathlib.Data.List.Induction
import Mathlib.Data.List.Nodup

/-!
# Sorted fields

`sortFields` lists fields in strictly increasing order of their keys (`ascending_sortFields`). If
the keys are distinct it only rearranges them (`sortFields_perm`), so that the order in which they
came leaves no trace (`sortFields_congr`), and fields in order stay as they are
(`sortFields_of_ascending`).
-/

namespace StreamingTemplate.Json

variable {α : Type} {key : String} {value : α} {field : String × α}
  {fields fields' : List (String × α)}

/-- The keys increase from field to field, so none is repeated. -/
def Ascending (fields : List (String × α)) : Prop := fields.Pairwise (·.1 < ·.1)

/-- Keys that increase are distinct. -/
theorem Ascending.nodup (h : Ascending fields) : (fields.map (·.1)).Nodup :=
  List.pairwise_map.mpr (h.imp ne_of_lt)

/-- There is only one order in which the keys increase. -/
theorem Ascending.eq_of_perm (h : Ascending fields) (h' : Ascending fields')
    (hperm : fields.Perm fields') : fields = fields' :=
  hperm.eq_of_pairwise (fun _ _ _ _ hab hba => absurd hab hba.not_gt) h h'

/-! ## One field

An insertion goes along the sorted fields until it meets a key that is not smaller: an equal one
is replaced, a greater one stays behind the new field. -/

/-- Nothing is in the list but what was there and the new field. -/
theorem mem_insertField (h : field ∈ insertField key value fields) :
    field = (key, value) ∨ field ∈ fields := by
  induction fields with
  | nil => exact .inl (List.mem_singleton.mp h)
  | cons first rest ih =>
    rw [insertField] at h
    split at h
    · exact List.mem_cons.mp h
    · split at h
      · exact (List.mem_cons.mp h).imp id (List.mem_cons_of_mem _)
      · rcases List.mem_cons.mp h with rfl | h
        · exact .inr List.mem_cons_self
        · exact (ih h).imp id (List.mem_cons_of_mem _)

/-- **An insertion keeps the order.** By induction along the fields: what is put in front is
smaller than the first key, which is smaller than all others. -/
theorem Ascending.insertField (h : Ascending fields) (key : String) (value : α) :
    Ascending (insertField key value fields) := by
  induction fields with
  | nil => exact List.pairwise_singleton _ _
  | cons first rest ih =>
    obtain ⟨hfirst, hrest⟩ := List.pairwise_cons.mp h
    rw [Json.insertField]
    split
    · rename_i hlt
      refine List.pairwise_cons.mpr ⟨fun field hfield => ?_, h⟩
      rcases List.mem_cons.mp hfield with rfl | hfield
      · exact hlt
      · exact hlt.trans (hfirst field hfield)
    · split
      · rename_i heq
        exact List.pairwise_cons.mpr ⟨fun field hfield => heq ▸ hfirst field hfield, hrest⟩
      · rename_i hlt hne
        refine List.pairwise_cons.mpr ⟨fun field hfield => ?_, ih hrest⟩
        rcases mem_insertField hfield with rfl | hfield
        · exact lt_of_le_of_ne (not_lt.mp hlt) hne
        · exact hfirst field hfield

/-- A new key is put in, and nothing is taken out for it. -/
theorem insertField_perm (hnew : key ∉ fields.map (·.1)) (value : α) :
    (insertField key value fields).Perm ((key, value) :: fields) := by
  induction fields with
  | nil => exact List.Perm.refl _
  | cons first rest ih =>
    rw [List.map_cons, List.mem_cons, not_or] at hnew
    rw [insertField]
    split
    · exact List.Perm.refl _
    · rw [if_neg (Ne.symm hnew.1)]
      exact ((ih hnew.2).cons first).trans (List.Perm.swap _ _ _)

/-! ## All fields

Sorting is a series of insertions from the left, so the inductions here take fields away at the
right end (`sortFields_append_singleton`). -/

theorem sortFields_append_singleton (fields : List (String × α)) (field : String × α) :
    sortFields (fields ++ [field]) = insertField field.1 field.2 (sortFields fields) := by
  rw [sortFields, List.foldl_append]
  rfl

/-- **Sorted fields are in order**, also where keys repeat: the last field of a key is the one
that is left. -/
theorem ascending_sortFields (fields : List (String × α)) : Ascending (sortFields fields) := by
  induction fields using List.reverseRecOn with
  | nil => exact List.Pairwise.nil
  | append_singleton fields field ih =>
    rw [sortFields_append_singleton]
    exact ih.insertField field.1 field.2

theorem mem_of_mem_sortFields (h : field ∈ sortFields fields) : field ∈ fields := by
  induction fields using List.reverseRecOn with
  | nil => exact h
  | append_singleton fields last ih =>
    rw [sortFields_append_singleton] at h
    rcases mem_insertField h with rfl | h
    · exact List.mem_append_right _ List.mem_cons_self
    · exact List.mem_append_left _ (ih h)

/-- **Sorting rearranges** fields of distinct keys. The key of the last field is not among those
before it, so that inserting it replaces none of them. -/
theorem sortFields_perm (hkeys : (fields.map (·.1)).Nodup) : (sortFields fields).Perm fields := by
  induction fields using List.reverseRecOn with
  | nil => exact List.Perm.refl _
  | append_singleton fields last ih =>
    rw [List.map_append, List.map_singleton, ← List.concat_eq_append, List.nodup_concat] at hkeys
    have hsorted := ih hkeys.2
    have hnew : last.1 ∉ (sortFields fields).map (·.1) :=
      fun hmem => hkeys.1 ((hsorted.map _).mem_iff.mp hmem)
    rw [sortFields_append_singleton]
    calc (insertField last.1 last.2 (sortFields fields)).Perm (last :: sortFields fields) :=
          insertField_perm hnew last.2
      _ |>.Perm (last :: fields) := hsorted.cons last
      _ |>.Perm (fields ++ [last]) := (List.perm_append_singleton last fields).symm

/-- Fields that are in order stay as they are, as there is only one order for them. -/
theorem sortFields_of_ascending (h : Ascending fields) : sortFields fields = fields :=
  (ascending_sortFields fields).eq_of_perm h (sortFields_perm h.nodup)

/-- **The order in which fields come** leaves no trace: both lists are sorted into the one order
that their keys have. -/
theorem sortFields_congr (hkeys : (fields.map (·.1)).Nodup) (h : fields.Perm fields') :
    sortFields fields = sortFields fields' := by
  have hkeys' : (fields'.map (·.1)).Nodup := (h.map _).nodup hkeys
  refine (ascending_sortFields fields).eq_of_perm (ascending_sortFields fields') ?_
  exact (sortFields_perm hkeys).trans (h.trans (sortFields_perm hkeys').symm)

end StreamingTemplate.Json
