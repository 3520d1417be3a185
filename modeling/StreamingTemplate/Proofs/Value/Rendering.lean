import StreamingTemplate.Proofs.Value.Conversion
import StreamingTemplate.Proofs.Text.ByteOrder
import Mathlib.Data.List.Perm.Subperm

/-!
# Equal values read alike

Values that are equal as maps have the same texts and the same truth
(`equal_values_render_equally`). Equality is coarser than that of the data: it passes over the order
in which the fields of an object were inserted, at any depth, and over the sign of zero. The JSON of
a value shows neither (`toJson_congr`).

How the text of an object is laid out is the relation `JsonText`: its fields stand one behind the
other, the bytes of their keys strictly increasing, and so on inside of each of them. The JSON text
of every value is of that form (`jsonText`).
-/

namespace StreamingTemplate

/-! ## Fields in a text

The text of an object is built by a recursion over its fields; between two of them stands a
comma. -/

theorem Json.fieldsText_eq_intercalate (fields : List (String × Json)) :
    fieldsText fields = ",".intercalate (fields.map fun f => quote f.1 ++ ":" ++ text f.2) := by
  induction fields with
  | nil => rfl
  | cons f rest ih =>
    cases rest with
    | nil => simp [fieldsText]
    | cons g rest =>
      rw [fieldsText, ih]
      · simp only [List.map_cons, String.intercalate_cons_cons]
      · simp

namespace Value

variable {v w : Value} {fields others : List (String × Value)}

/-! ## Equal values

Two objects that are equal as maps have, in JSON, the same members up to their order, and JSON
sorts them. So the induction on the value only has to bring equal fields to equal members. -/

/-- Objects with the same members under each key have the same members in JSON. -/
theorem members_congr (hkeys : (fields.map (·.1)).Nodup) (hlength : fields.length = others.length)
    (hsame : ∀ f ∈ fields, ∃ w, Fields.find? f.1 others = some w ∧ f.2.toJson = w.toJson) :
    members fields = members others := by
  have hnodup : ((fields.map fun f => (f.1, f.2.toJson)).map (·.1)).Nodup := by
    rwa [List.map_map]
  have hsubset : (fields.map fun f => (f.1, f.2.toJson)) ⊆
      others.map fun f => (f.1, f.2.toJson) := by
    intro member hmember
    obtain ⟨f, hf, rfl⟩ := List.mem_map.mp hmember
    obtain ⟨w, hw, hjson⟩ := hsame f hf
    exact List.mem_map.mpr ⟨(f.1, w), Fields.mem_of_find? hw, by rw [hjson]⟩
  -- as many members, all of them among the others, and no key twice: the same up to order
  refine Json.sortFields_congr hnodup ?_
  refine (List.subperm_of_subset (List.Nodup.of_map _ hnodup) hsubset).perm_of_length_le ?_
  rw [List.length_map, List.length_map, hlength]

/-- **Equal values** have the same JSON. -/
theorem toJson_congr (hv : v.keysDistinct = true) (h : v.same w = true) : v.toJson = w.toJson := by
  induction v using byFields generalizing w with
  | scalar v hfields =>
    rcases same_cases h with rfl | ⟨x, y, rfl, rfl, hxy⟩ | ⟨fields, others, rfl, rfl⟩
    · rfl
    · exact toJson_num_congr hxy
    · cases hfields
  | object fields ih =>
    rcases same_cases h with rfl | ⟨x, y, hnum, -⟩ | ⟨fields', others, hobject, rfl⟩
    · rfl
    · cases hnum
    · cases hobject
      obtain ⟨hkeys, hfields⟩ := keysDistinct_object_iff.mp hv
      obtain ⟨hlength, hsame⟩ := same_object_iff.mp h
      rw [toJson_object, toJson_object, members_congr hkeys hlength fun f hf => ?_]
      obtain ⟨w, hw, hfw⟩ := hsame f hf
      exact ⟨w, hw, ih f hf (hfields f hf) hfw⟩

theorem text_congr (hv : v.keysDistinct = true) (h : v.same w = true) : v.text = w.text := by
  have hjson := toJson_congr hv h
  rcases same_cases h with rfl | ⟨x, y, rfl, rfl, hxy⟩ | ⟨fields, others, rfl, rfl⟩
  · rfl
  · exact Binary64.display_congr hxy
  · exact congrArg Json.text hjson

theorem isTruthy_congr (h : v.same w = true) : v.isTruthy = w.isTruthy := by
  rcases same_cases h with rfl | ⟨x, y, rfl, rfl, hxy⟩ | ⟨fields, others, rfl, rfl⟩
  · rfl
  · exact Binary64.congr_of_numEq (f := fun x => !x.isZero && !x.isNaN) rfl hxy
  · rfl

/-! ## The text of an object

`JsonText` says how a text is laid out without saying how it is made, so that it can be compared
with what the text is documented to be. -/

/-- The JSON texts of a value in which every object lists each of its fields once, the bytes of the
keys strictly increasing. -/
inductive JsonText : Value → String → Prop where
  /-- a value without fields -/
  | scalar (v : Value) (hfields : v.fields? = none) : JsonText v v.toJson.text
  /-- an object, by its fields in the order of the text: key, value and the text of the value -/
  | object {fields : List (String × Value)} (entries : List (String × Value × String))
      (hfields : (entries.map fun e => (e.1, e.2.1)).Perm fields)
      (hkeys : (entries.map fun e => Text.bytes e.1).Pairwise (· < ·))
      (htexts : ∀ e ∈ entries, JsonText e.2.1 e.2.2) :
      JsonText (.object fields)
        ("\x7b" ++ ",".intercalate (entries.map fun e => Json.quote e.1 ++ ":" ++ e.2.2) ++ "\x7d")

/-- The members of an object in JSON are its fields in order. -/
theorem members_eq_map (hkeys : (fields.map (·.1)).Nodup) :
    members fields = (Json.sortFields fields).map fun f => (f.1, f.2.toJson) := by
  have hascending : Json.Ascending ((Json.sortFields fields).map fun f => (f.1, f.2.toJson)) :=
    List.pairwise_map.mpr (Json.ascending_sortFields fields)
  refine (Json.ascending_sortFields _).eq_of_perm hascending ?_
  exact (members_perm hkeys).trans ((Json.sortFields_perm hkeys).map _).symm

/-- **Every object** is written with the keys in strictly increasing order, at every level. -/
theorem jsonText (v : Value) (hv : v.keysDistinct = true) : JsonText v v.toJson.text := by
  induction v using byFields with
  | scalar v hfields => exact .scalar v hfields
  | object fields ih =>
    obtain ⟨hkeys, hfields⟩ := keysDistinct_object_iff.mp hv
    have htext : (object fields).toJson.text = "\x7b" ++ ",".intercalate
        (((Json.sortFields fields).map fun f => (f.1, f.2, f.2.toJson.text)).map
          fun e => Json.quote e.1 ++ ":" ++ e.2.2) ++ "\x7d" := by
      rw [toJson_object, Json.text, Json.fieldsText_eq_intercalate, members_eq_map hkeys,
        List.map_map, List.map_map]
      rfl
    rw [htext]
    refine .object _ ?_ ?_ ?_
    · -- the entries are the fields, in the order of their keys as strings, which is that of their
      -- bytes
      simpa [List.map_map, Function.comp_def] using Json.sortFields_perm hkeys
    · rw [List.map_map]
      exact List.pairwise_map.mpr ((Json.ascending_sortFields fields).imp Text.bytes_lt)
    · intro e he
      obtain ⟨f, hf, rfl⟩ := List.mem_map.mp he
      have hmem := Json.mem_of_mem_sortFields hf
      exact ih f hmem (hfields f hmem)

/-- **Equal values read alike**, whatever their objects have been through: the text for readers, the
JSON text and the truth of two equal values are the same. And the JSON text of an object shows each
key once, in the order of their bytes, at every level. -/
theorem equal_values_render_equally :
    (∀ v w : Value, v.keysDistinct = true → v.same w = true →
      v.text = w.text ∧ v.toJson.text = w.toJson.text ∧ v.isTruthy = w.isTruthy) ∧
    (∀ v : Value, v.keysDistinct = true → JsonText v v.toJson.text) ∧
    (∀ history : List (String × Value), (∀ f ∈ history, f.2.keysDistinct = true) →
      (object (Fields.ofList history)).keysDistinct = true) :=
  ⟨fun _ _ hv h => ⟨text_congr hv h, congrArg Json.text (toJson_congr hv h), isTruthy_congr h⟩,
    jsonText, fun _ => keysDistinct_ofList⟩

/-- A receipt as it was first written. -/
def receipt : Value :=
  .object [("total", .num (.zero false)), ("lines", .object [("b", .stream 3), ("a", .str "tea")])]

/-- The writes of another receipt, one of which is replaced. -/
def receiptHistory : List (String × Value) :=
  [("lines", .null), ("total", .num (.zero true)),
    ("lines", .object [("a", .str "tea"), ("b", .stream 3)])]

theorem receipts_render_equally :
    receipt.keysDistinct = true ∧ receipt.same (.object (Fields.ofList receiptHistory)) = true ∧
      receipt.text = (object (Fields.ofList receiptHistory)).text ∧
      JsonText receipt receipt.toJson.text ∧
      (∀ f ∈ receiptHistory, f.2.keysDistinct = true) ∧
      (object (Fields.ofList receiptHistory)).keysDistinct = true :=
  ⟨by decide, by decide, (equal_values_render_equally.1 _ _ (by decide) (by decide)).1,
    equal_values_render_equally.2.1 _ (by decide), by decide,
    equal_values_render_equally.2.2 _ (by decide)⟩

end Value

end StreamingTemplate
