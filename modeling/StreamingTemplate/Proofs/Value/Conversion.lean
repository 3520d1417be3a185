import StreamingTemplate.Proofs.Value.Maps
import StreamingTemplate.Proofs.Json.Sorting
import StreamingTemplate.Proofs.Binary64.Whole

/-!
# Values that go to JSON and come back

The conversions lose streams and numbers that are not finite, which become null, and the sign of
zero. Nothing is lost a second time: the JSON of what comes back is the JSON that it comes from. And
what comes back is the value that went out if nothing in it could be lost (`json_inverse`).

Both are shown field by field. An object comes back as its fields in order of their keys
(`ofJson_toJson_object`), and sorting them once more changes nothing.
-/

namespace StreamingTemplate.Value

variable {fields : List (String × Value)} {x : Binary64}

/-! ## Finite numbers

JSON has no number for infinity, nor for what is not a number. -/

/-- Whether all numbers in a value are finite, at any depth. -/
def finite (v : Value) : Bool :=
  v.everywhere fun
    | .num x => x.isFinite
    | _ => true

theorem finite_object_iff :
    (object fields).finite = true ↔ ∀ f ∈ fields, f.2.finite = true :=
  everywhere_object_iff.trans (and_iff_right rfl)

/-! ## Numbers there and back

A whole number of moderate size goes to JSON as an integer, which has no sign of zero, and any
other finite one as it is. So a number can come back as another one that is equal to it, and
equality is all that is claimed of it. -/

/-- A number comes back as an equal one, unless it is not finite. -/
theorem ofJson_toJson_num (x : Binary64) :
    (∃ y, ofJson (num x).toJson = .num y ∧ y.numEq x = true ∧ x.isFinite = true) ∨
      (ofJson (num x).toJson = .null ∧ (num x).toJson = .null ∧ x.isFinite = false) := by
  rw [toJson]
  split
  · -- a whole number comes back from the integer, and minus zero as zero
    rename_i n hn
    obtain ⟨-, hfinite, -⟩ := Binary64.exists_of_wholeBelow hn
    exact .inl ⟨.ofInt n, rfl, Binary64.ofInt_numEq_of_wholeBelow hn, hfinite⟩
  · by_cases hfinite : x.isFinite = true
    · rw [if_pos hfinite]
      exact .inl ⟨x, rfl, Binary64.numEq_self (Binary64.isNaN_of_isFinite hfinite), hfinite⟩
    · rw [if_neg hfinite]
      exact .inr ⟨rfl, rfl, Bool.not_eq_true _ |>.mp hfinite⟩

/-- Equal numbers have the same JSON. -/
theorem toJson_num_congr {y : Binary64} (h : x.numEq y = true) :
    (num x).toJson = (num y).toJson := by
  have hzero : ∀ negative, (num (.zero negative)).toJson = .number (.integer 0) := fun negative =>
    by rw [toJson, Binary64.wholeBelow_zero (by decide)]
  exact Binary64.congr_of_numEq (f := fun z => (num z).toJson)
    ((hzero false).trans (hzero true).symm) h

/-! ## Objects

In JSON the fields stand in order of their keys, and no key twice. What comes back is built from
them field by field, and since the keys are distinct none replaces another. -/

theorem fieldsToJson_eq_map (fields : List (String × Value)) :
    fieldsToJson fields = fields.map fun f => (f.1, f.2.toJson) := by
  induction fields with
  | nil => rfl
  | cons f rest ih => rw [fieldsToJson, ih, List.map_cons]

theorem fieldsOfJson_eq_map (fields : List (String × Json)) :
    fieldsOfJson fields = fields.map fun f => (f.1, ofJson f.2) := by
  induction fields with
  | nil => rfl
  | cons f rest ih => rw [fieldsOfJson, ih, List.map_cons]

/-- The fields of an object in JSON. -/
def members (fields : List (String × Value)) : List (String × Json) :=
  Json.sortFields (fields.map fun f => (f.1, f.2.toJson))

/-- The JSON of an object is the object of its fields in JSON, in order. -/
theorem toJson_object (fields : List (String × Value)) :
    (object fields).toJson = .object (members fields) := by
  rw [toJson, fieldsToJson_eq_map, members]

/-- With distinct keys no field is lost in JSON, and none is added. -/
theorem members_perm (hkeys : (fields.map (·.1)).Nodup) :
    (members fields).Perm (fields.map fun f => (f.1, f.2.toJson)) :=
  Json.sortFields_perm (by rwa [List.map_map])

/-- An object comes back as its fields in order. -/
theorem ofJson_toJson_object (fields : List (String × Value)) :
    ofJson (object fields).toJson = .object ((members fields).map fun f => (f.1, ofJson f.2)) := by
  have hkeys : (((members fields).map fun f => (f.1, ofJson f.2)).map (·.1)).Nodup := by
    rw [List.map_map]
    exact (Json.ascending_sortFields _).nodup
  rw [toJson_object, ofJson, fieldsOfJson_eq_map, Fields.ofList_of_nodup hkeys]

/-! ## Values there and back

Both directions by induction on the value, with the fields of an object as the smaller ones. For
the first JSON is compared, which does not see what the values have lost; for the second the
values are, by the equality of values, which does not see the order of fields. -/

/-- **The second JSON** is the first. -/
theorem toJson_ofJson_toJson (v : Value) : (ofJson v.toJson).toJson = v.toJson := by
  induction v using byFields with
  | scalar v hv =>
    cases v with
    | null | bool _ | str _ | stream _ => rfl
    | num x =>
      rcases ofJson_toJson_num x with ⟨y, hback, hsame, -⟩ | ⟨hback, hnull, -⟩
      · rw [hback, toJson_num_congr hsame]
      · rw [hback, hnull, toJson]
    | object fields => cases hv
  | object fields ih =>
    -- each member is the JSON of a field, and this one's own JSON comes back by induction
    have hmembers : ∀ f ∈ members fields, (f.1, (ofJson f.2).toJson) = f := by
      intro f hf
      obtain ⟨g, hg, rfl⟩ := List.mem_map.mp (Json.mem_of_mem_sortFields hf)
      rw [ih g hg]
    rw [ofJson_toJson_object, toJson_object, toJson_object, members, List.map_map]
    simp only [Function.comp_def]
    rw [List.map_congr_left hmembers, List.map_id']
    exact congrArg Json.object (Json.sortFields_of_ascending (Json.ascending_sortFields _))

/-- **What comes back** is the value that went out if there is no stream in it and no number that is
not finite, and only then. -/
theorem same_ofJson_toJson_iff (v : Value) (hkeys : v.keysDistinct = true) :
    (ofJson v.toJson).same v = true ↔ v.streamFree = true ∧ v.finite = true := by
  induction v using byFields with
  | scalar v hv =>
    cases v with
    | null | bool _ | str _ | stream _ =>
      simp [toJson, ofJson, same, streamFree, finite, everywhere]
    | num x =>
      rcases ofJson_toJson_num x with ⟨y, hback, hsame, hfinite⟩ | ⟨hback, -, hfinite⟩
      · simp [hback, same, hsame, streamFree, finite, everywhere, hfinite]
      · simp [hback, same, finite, everywhere, hfinite]
    | object fields => cases hv
  | object fields ih =>
    obtain ⟨hnodup, hkeys⟩ := keysDistinct_object_iff.mp hkeys
    have hlength : ((members fields).map fun f => (f.1, ofJson f.2)).length = fields.length := by
      rw [List.length_map, (members_perm hnodup).length_eq, List.length_map]
    -- a field that comes back is to be found under its own key, which only one field has
    have hfields : (∀ f ∈ (members fields).map fun f => (f.1, ofJson f.2),
          ∃ w, Fields.find? f.1 fields = some w ∧ f.2.same w = true) ↔
        ∀ f ∈ fields, (ofJson f.2.toJson).same f.2 = true := by
      simp only [List.forall_mem_map, (members_perm hnodup).mem_iff]
      refine forall₂_congr fun f hf => ?_
      simp [Fields.find?_of_mem hnodup hf]
    rw [ofJson_toJson_object, same_object_iff, hfields, streamFree, streamFreeFields_iff,
      finite_object_iff, ← forall₂_and]
    exact (and_iff_right hlength).trans (forall₂_congr fun f hf => ih f hf (hkeys f hf))

/-- **The conversions are inverse to each other** on what both sides have: what goes to JSON, back
and to JSON again is the same JSON, and what comes back from JSON is the value itself if it holds
neither a stream nor a number that is not finite. -/
theorem json_inverse (v : Value) :
    (ofJson v.toJson).toJson = v.toJson ∧
      (v.keysDistinct = true →
        ((ofJson v.toJson).same v = true ↔ v.streamFree = true ∧ v.finite = true)) :=
  ⟨toJson_ofJson_toJson v, same_ofJson_toJson_iff v⟩

/-- An object in an object, with numbers of every kind that comes back. -/
def measurements : Value :=
  .object [("total", .num (.ofInt 1000000000000000)), ("rows", .object
    [("ratio", .num (.ofRatio true 3 2)), ("none", .num (.zero true)), ("count", .num (.ofInt 7))])]

theorem measurements_come_back :
    measurements.keysDistinct = true ∧ measurements.streamFree = true ∧
      measurements.finite = true ∧ (ofJson measurements.toJson).same measurements = true :=
  ⟨by decide, by decide, by decide,
    ((json_inverse measurements).2 (by decide)).mpr ⟨by decide, by decide⟩⟩

end StreamingTemplate.Value
