import StreamingTemplate.Proofs.Store
import Mathlib.Data.List.Perm.Subperm
import Mathlib.Data.List.Nodup

/-!
# Objects as maps

An object stands for a map: no key is repeated among its fields, at any depth (`keysDistinct`). The
values that the program comes to hold are such: objects are built by insertions, where a later value
replaces an earlier one (`keysDistinct_insert`, `keysDistinct_ofList`), come out of JSON
(`keysDistinct_ofJson`), or arise by a write (`Store.keysDistinct_write`). Equality of two objects
asks for every field of the one that it has an equal one in the other (`within_iff`).

Facts about values are proved by induction on the values of their fields (`byFields`).
-/

namespace StreamingTemplate

/-! ## Insertion

Fields are kept in the order in which their keys came first. An insertion replaces the value of
its key where there is one and puts the field at the end otherwise. -/

namespace Fields

variable {α : Type} {key : String} {value : α} {field : String × α} {fields : List (String × α)}

/-- Nothing comes in by an insertion but the new field, -/
theorem mem_insert (h : field ∈ insert key value fields) :
    field = (key, value) ∨ field ∈ fields := by
  induction fields with
  | nil => exact .inl (List.mem_singleton.mp h)
  | cons first rest ih =>
    rw [insert] at h
    split at h
    · rename_i heq
      rcases List.mem_cons.mp h with rfl | h
      · exact .inl (heq ▸ rfl)
      · exact .inr (List.mem_cons_of_mem _ h)
    · rcases List.mem_cons.mp h with rfl | h
      · exact .inr List.mem_cons_self
      · exact (ih h).imp id (List.mem_cons_of_mem _)

/-- and no key is repeated by it: the keys are those that were there, and perhaps one more. -/
theorem nodup_insert (h : (fields.map (·.1)).Nodup) (key : String) (value : α) :
    ((insert key value fields).map (·.1)).Nodup := by
  induction fields with
  | nil => exact List.pairwise_singleton _ _
  | cons first rest ih =>
    obtain ⟨hfirst, hrest⟩ := List.nodup_cons.mp h
    rw [insert]
    split
    · exact h
    · rename_i hne
      refine List.nodup_cons.mpr ⟨fun hmem => ?_, ih hrest⟩
      obtain ⟨f, hf, heq⟩ := List.mem_map.mp hmem
      rcases mem_insert hf with rfl | hf
      · exact hne heq.symm
      · exact hfirst (List.mem_map.mpr ⟨f, hf, heq⟩)

/-- Fields of distinct keys are inserted one behind the other. -/
theorem ofList_of_nodup (h : (fields.map (·.1)).Nodup) : ofList fields = fields := by
  have hfold : ∀ (rest start : List (String × α)), ((start ++ rest).map (·.1)).Nodup →
      rest.foldl (fun acc f => insert f.1 f.2 acc) start = start ++ rest := by
    intro rest
    induction rest with
    | nil => exact fun start _ => (List.append_nil start).symm
    | cons f rest ih =>
      intro start hkeys
      have hnew : find? f.1 start = none := by
        rw [find?_eq_none_iff]
        rw [List.map_append, List.map_cons, List.nodup_append] at hkeys
        exact fun hmem => hkeys.2.2 f.1 hmem f.1 List.mem_cons_self rfl
      rw [List.foldl_cons, insert_of_find?_none hnew, ih _ (by simpa using hkeys)]
      simp
  exact hfold fields [] h

end Fields

namespace Value

/-! ## Induction

A value contains lists of values, and the recursor that comes with the type has a motive for
those lists. Nearly all proofs need only that something holds of every field, which is how
`byFields` has it. -/

/-- What holds of the values without fields, and of an object if it holds of the values of its
fields, holds of every value. -/
@[elab_as_elim]
theorem byFields {P : Value → Prop} (v : Value) (scalar : ∀ v, v.fields? = none → P v)
    (object : ∀ fields, (∀ f ∈ fields, P f.2) → P (.object fields)) : P v :=
  match v with
  | .null => scalar .null rfl
  | .bool b => scalar (.bool b) rfl
  | .num x => scalar (.num x) rfl
  | .str s => scalar (.str s) rfl
  | .stream id => scalar (.stream id) rfl
  | .object fields => object fields fun f _ => byFields f.2 scalar object
termination_by sizeOf v
decreasing_by
  rename_i hf
  have := List.sizeOf_lt_of_mem hf
  cases f
  simp only [Value.object.sizeOf_spec, Prod.mk.sizeOf_spec] at *
  omega

/-! ## All values inside of a value

Whether keys are distinct, streams absent or numbers finite is asked of a value at all depths.
`everywhere` is that question once, and each of the predicates is an instance. -/

mutual

/-- Whether something holds of a value and, if it is an object, of all values inside of it. -/
def everywhere (p : Value → Bool) : Value → Bool
  | .object fields => p (.object fields) && everywhereFields p fields
  | v => p v

/-- `everywhere` on the values of fields. -/
def everywhereFields (p : Value → Bool) : List (String × Value) → Bool
  | [] => true
  | (_, value) :: rest => everywhere p value && everywhereFields p rest

end

variable {fields others : List (String × Value)} {value v w : Value} {p : Value → Bool}

/-- The recursion over fields, as a statement about members. -/
theorem everywhereFields_iff :
    everywhereFields p fields = true ↔ ∀ f ∈ fields, f.2.everywhere p = true := by
  induction fields with
  | nil => simp [everywhereFields]
  | cons f rest ih => simp [everywhereFields, ih]

/-- An object satisfies a predicate everywhere if it does itself and the values of its fields do
everywhere. -/
theorem everywhere_object_iff : (object fields).everywhere p = true ↔
    p (.object fields) = true ∧ ∀ f ∈ fields, f.2.everywhere p = true := by
  rw [everywhere, Bool.and_eq_true, everywhereFields_iff]

/-! ## Distinct keys

`keysDistinct` is an invariant of the data and not a property of its type: lists with repeated
keys can be written down, but no operation builds them. There is one law for each way in which
values come about. -/

/-- Whether no key is repeated in an object, at any depth. -/
def keysDistinct (v : Value) : Bool :=
  v.everywhere fun
    | .object fields => decide (fields.map (·.1)).Nodup
    | _ => true

/-- An object has distinct keys if its own are, and if so have the values of its fields. -/
theorem keysDistinct_object_iff : (object fields).keysDistinct = true ↔
    (fields.map (·.1)).Nodup ∧ ∀ f ∈ fields, f.2.keysDistinct = true :=
  everywhere_object_iff.trans (and_congr_left' decide_eq_true_iff)

/-- **An insertion** of a value with distinct keys keeps the keys of an object distinct. -/
theorem keysDistinct_insert (hfields : (object fields).keysDistinct = true)
    (hvalue : value.keysDistinct = true) (key : String) :
    (object (Fields.insert key value fields)).keysDistinct = true := by
  rw [keysDistinct_object_iff] at hfields ⊢
  refine ⟨Fields.nodup_insert hfields.1 key value, fun f hf => ?_⟩
  rcases Fields.mem_insert hf with rfl | hf
  · exact hvalue
  · exact hfields.2 f hf

/-- **An object built by insertions** has distinct keys, however often one of them is written. -/
theorem keysDistinct_ofList (h : ∀ f ∈ fields, f.2.keysDistinct = true) :
    (object (Fields.ofList fields)).keysDistinct = true :=
  List.foldlRecOn (motive := fun acc => (object acc).keysDistinct = true) fields _ rfl
    fun _ hacc f hf => keysDistinct_insert hacc (h f hf) f.1

/-- Distinct positions are distinct keys. -/
theorem eq_of_toString_eq {m n : Nat} (h : toString m = toString n) : m = n := by
  have hdigits : Nat.toDigits 10 m = Nat.toDigits 10 n := by
    rw [← String.ofList_inj, ← Nat.repr_eq_ofList_toDigits, ← Nat.repr_eq_ofList_toDigits]
    exact h
  rw [← Nat.ofDigitChars_toDigits (b := 10) (n := m) (by decide) (by decide), hdigits,
    Nat.ofDigitChars_toDigits (by decide) (by decide)]

/-- The items of a JSON array become fields whose keys are their positions, counted from the
first. -/
theorem map_fst_itemsOfJson (position : Nat) (items : List Json) :
    (itemsOfJson position items).map (·.1) =
      (List.range' position items.length).map toString := by
  induction items generalizing position with
  | nil => rfl
  | cons item rest ih => simp [itemsOfJson, ih, List.range'_succ]

/-- So no two items have one key. -/
theorem nodup_itemsOfJson (items : List Json) : ((itemsOfJson 0 items).map (·.1)).Nodup := by
  rw [map_fst_itemsOfJson]
  exact List.Nodup.map (fun _ _ => eq_of_toString_eq) List.nodup_range'

mutual

/-- **An object that comes out of JSON** has distinct keys, even where the JSON repeats one. -/
theorem keysDistinct_ofJson : ∀ j : Json, (ofJson j).keysDistinct = true
  | .null | .bool _ | .number _ | .string _ => rfl
  | .array items => keysDistinct_object_iff.mpr
      ⟨nodup_itemsOfJson items, keysDistinct_itemsOfJson items 0⟩
  | .object fields => keysDistinct_ofList (keysDistinct_fieldsOfJson fields)

theorem keysDistinct_itemsOfJson : ∀ (items : List Json) (position : Nat),
    ∀ f ∈ itemsOfJson position items, f.2.keysDistinct = true
  | [], _ => nofun
  | item :: rest, position => List.forall_mem_cons.mpr
      ⟨keysDistinct_ofJson item, keysDistinct_itemsOfJson rest (position + 1)⟩

theorem keysDistinct_fieldsOfJson : ∀ fields : List (String × Json),
    ∀ f ∈ fieldsOfJson fields, f.2.keysDistinct = true
  | [] => nofun
  | (_, v) :: rest => List.forall_mem_cons.mpr
      ⟨keysDistinct_ofJson v, keysDistinct_fieldsOfJson rest⟩

end

/-! ## Equality

Objects are compared as maps, whatever the order of their fields. With distinct keys and equally
many fields, it is enough to ask for every field of one in the other. -/

theorem within_iff : within others fields = true ↔
    ∀ f ∈ fields, ∃ w, Fields.find? f.1 others = some w ∧ f.2.same w = true := by
  induction fields with
  | nil => simp [within]
  | cons f rest ih =>
    rw [within, Bool.and_eq_true, ih, List.forall_mem_cons]
    cases Fields.find? f.1 others <;> simp

/-- Two objects are the same if they have equally many fields and each field of the first has its
equal in the second. -/
theorem same_object_iff : (object fields).same (object others) = true ↔
    fields.length = others.length ∧
      ∀ f ∈ fields, ∃ w, Fields.find? f.1 others = some w ∧ f.2.same w = true := by
  rw [same, Bool.and_eq_true, beq_iff_eq, within_iff]

/-- Equal values are the same one, but for equal numbers and for objects. -/
theorem same_cases (h : v.same w = true) :
    v = w ∨ (∃ x y, v = .num x ∧ w = .num y ∧ x.numEq y = true) ∨
      ∃ fields others, v = .object fields ∧ w = .object others := by
  cases v <;> cases w <;> simp_all [same]

end Value

/-! ## Variables

A write goes down the path that it is given and inserts at every level, so its result is built by
insertions all the way. -/

/-- A write of a value with distinct keys leaves the variables with distinct keys. -/
theorem Store.keysDistinct_write {fields fields' : List (String × Value)} {value : Value}
    {segments : List String} (hvalue : value.keysDistinct = true)
    (hfields : (Value.object fields).keysDistinct = true)
    (hwrite : write fields value segments = .ok fields') :
    (Value.object fields').keysDistinct = true := by
  induction segments generalizing fields fields' with
  | nil => cases hwrite
  | cons segment rest ih =>
    cases rest with
    | nil =>
      cases hwrite
      exact Value.keysDistinct_insert hfields hvalue segment
    | cons next rest =>
      simp only [write] at hwrite
      split at hwrite
      · cases hwrite
      · rename_i inner hinner
        have hkeys := (Value.keysDistinct_object_iff.mp hfields).2 _ (Fields.mem_of_find? hinner)
        split at hwrite
        · rename_i inner' hwritten
          cases hwrite
          exact Value.keysDistinct_insert hfields (ih hkeys hwritten) segment
        · cases hwrite
      · cases hwrite

end StreamingTemplate
