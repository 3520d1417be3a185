import StreamingTemplate.Store

/-!
# What a write leaves alone

A successful write goes to one variable, that of the first segment of its path (`write_eq_insert`),
so paths with another first segment resolve as before. The waits it wakes and those it leaves parked
are together the ones that were parked (`perm_woken`).

Variables with distinct names may be written in any order (`find?_perm`), and a new one takes
nothing away from what resolves already (`lookup_new`). If no stream was written anywhere inside the
variables, none is found there (`streamFree_lookup`), and writing other values brings none in
(`streamFree_write`).
-/

namespace StreamingTemplate

namespace Fields

variable {α : Type}

/-- A field that is not there yet is put behind all others, so that a first write keeps the order
of the variables. -/
theorem insert_of_find?_none {key : String} {fields : List (String × α)}
    (h : find? key fields = none) (value : α) :
    insert key value fields = fields ++ [(key, value)] := by
  induction fields with
  | nil => rfl
  | cons field rest ih =>
    rw [find?] at h
    split at h
    · cases h
    · rename_i hne
      rw [insert, if_neg hne, ih h]
      rfl

/-- A key is missing from a lookup exactly when no field carries it. -/
theorem find?_eq_none_iff {key : String} {fields : List (String × α)} :
    find? key fields = none ↔ key ∉ fields.map (·.1) := by
  induction fields with
  | nil => simp
  | cons field rest ih =>
    rw [find?, List.map_cons, List.mem_cons, not_or, ← ih]
    split
    · rename_i heq
      simp [heq]
    · rename_i hne
      simp [Ne.symm hne]

theorem mem_of_find? {key : String} {value : α} {fields : List (String × α)}
    (h : find? key fields = some value) : (key, value) ∈ fields := by
  induction fields with
  | nil => cases h
  | cons field rest ih =>
    rw [find?] at h
    split at h
    · rename_i heq
      obtain rfl := Option.some.inj h
      exact heq ▸ List.mem_cons_self
    · exact List.mem_cons_of_mem _ (ih h)

/-- With distinct keys a lookup finds every field; otherwise an earlier field of the same key
would hide it. -/
theorem find?_of_mem {key : String} {value : α} {fields : List (String × α)}
    (hkeys : (fields.map (·.1)).Nodup) (h : (key, value) ∈ fields) :
    find? key fields = some value := by
  induction fields with
  | nil => cases h
  | cons field rest ih =>
    obtain ⟨hnew, hkeys⟩ := List.nodup_cons.mp hkeys
    rcases List.mem_cons.mp h with rfl | h
    · exact if_pos rfl
    · have hne : field.1 ≠ key := by
        rintro rfl
        exact hnew (List.mem_map.mpr ⟨_, h, rfl⟩)
      rw [find?, if_neg hne, ih hkeys h]

/-- The order of fields with distinct keys does not matter. -/
theorem find?_perm {fields fields' : List (String × α)} (h : fields.Perm fields')
    (hkeys : (fields.map (·.1)).Nodup) (key : String) : find? key fields = find? key fields' := by
  rcases hvalue : find? key fields' with _ | value
  · rw [find?_eq_none_iff] at hvalue ⊢
    exact fun hmem => hvalue ((h.map _).mem_iff.mp hmem)
  · exact find?_of_mem hkeys (h.mem_iff.mpr (mem_of_find? hvalue))

end Fields

/-! ## Values without streams

Streams are the one kind of value that a read uses up. Most of what is said about repeated reads,
about writes in any order and about texts of values holds of values in which there is none
(`streamFree`). -/

namespace Value

mutual

/-- Whether there is no stream in a value, at any depth. -/
def streamFree : Value → Bool
  | .stream _ => false
  | .object fields => streamFreeFields fields
  | _ => true

/-- Whether there is no stream in any of the fields. -/
def streamFreeFields : List (String × Value) → Bool
  | [] => true
  | (_, value) :: rest => streamFree value && streamFreeFields rest

end

/-- The recursion over fields, as a statement about members. -/
theorem streamFreeFields_iff {fields : List (String × Value)} :
    streamFreeFields fields = true ↔ ∀ field ∈ fields, field.2.streamFree = true := by
  induction fields with
  | nil => simp [streamFreeFields]
  | cons field rest ih => simp [streamFreeFields, ih]

theorem streamFreeFields_append (first second : List (String × Value)) :
    streamFreeFields (first ++ second) = (streamFreeFields first && streamFreeFields second) := by
  induction first with
  | nil => rfl
  | cons field rest ih => simp [streamFreeFields, ih, Bool.and_assoc]

/-- Putting in or replacing a field brings in no stream that was not there or in the new value. -/
theorem streamFreeFields_insert {key : String} {value : Value} {fields : List (String × Value)}
    (hvalue : value.streamFree = true) (h : streamFreeFields fields = true) :
    streamFreeFields (Fields.insert key value fields) = true := by
  induction fields with
  | nil => simp [Fields.insert, streamFreeFields, hvalue]
  | cons field rest ih =>
    rw [streamFreeFields, Bool.and_eq_true] at h
    rw [Fields.insert]
    split
    · rw [streamFreeFields, hvalue, h.2]
      rfl
    · rw [streamFreeFields, h.1, ih h.2]
      rfl

theorem ne_stream {value : Value} (h : value.streamFree = true) (id : StreamId) :
    value ≠ .stream id := by
  rintro rfl
  simp [streamFree] at h

end Value

namespace Path

theorem waitKey_mk_cons (segment : String) (rest : List String) :
    waitKey ⟨segment :: rest⟩ = segment := rfl

/-- A wait is keyed by the first segment of its path, or by the empty text where there is none. -/
theorem waitKey_eq_headD (p : Path) : p.waitKey = p.segments.headD "" := by
  obtain ⟨_ | ⟨segment, rest⟩⟩ := p <;> rfl

end Path

namespace Store

variable {W : Type}

/-- What resolves depends on the variables alone. -/
theorem resolve_congr {s s' : Store W} (h : s.vars = s'.vars) : s.resolve = s'.resolve := by
  funext path
  rw [resolve, resolve, h]

/-- A lookup reads one variable, that of the first segment. -/
theorem lookup_congr {fields fields' : List (String × Value)} {segment : String}
    (h : Fields.find? segment fields = Fields.find? segment fields') (rest : List String) :
    lookup fields (segment :: rest) = lookup fields' (segment :: rest) := by
  cases rest with
  | nil => exact h
  | cons next rest => simp only [lookup, h]

/-- A path resolves to the same value however the variables are ordered: only the first step
looks among them, and it looks for one key. -/
theorem lookup_perm {fields fields' : List (String × Value)} (h : fields.Perm fields')
    (hkeys : (fields.map (·.1)).Nodup) (segments : List String) :
    lookup fields segments = lookup fields' segments := by
  cases segments with
  | nil => rfl
  | cons segment rest => exact lookup_congr (Fields.find?_perm h hkeys segment) rest

/-- Nothing resolves below a variable that is not there. -/
theorem lookup_absent {fields : List (String × Value)} {segment : String}
    (h : Fields.find? segment fields = none) (rest : List String) :
    lookup fields (segment :: rest) = none := by
  cases rest with
  | nil => exact h
  | cons next rest => simp only [lookup, h]

/-- A new variable changes only how paths through it resolve. -/
theorem lookup_new_of_ne {fields : List (String × Value)} {key : String}
    (h : Fields.find? key fields = none) (value : Value) {path : Path} (hne : path.waitKey ≠ key) :
    lookup (fields ++ [(key, value)]) path.segments = lookup fields path.segments := by
  obtain ⟨_ | ⟨segment, rest⟩⟩ := path
  · rfl
  · rw [← Fields.insert_of_find?_none h]
    exact lookup_congr (Fields.find?_insert_of_ne hne value fields) rest

/-- What resolves stays as it is when a new variable comes in. -/
theorem lookup_new {fields : List (String × Value)} {key : String}
    (h : Fields.find? key fields = none) (value : Value) {path : Path} {found : Value}
    (hfound : lookup fields path.segments = some found) :
    lookup (fields ++ [(key, value)]) path.segments = some found := by
  rw [lookup_new_of_ne h value ?_, hfound]
  rintro rfl
  obtain ⟨_ | ⟨segment, rest⟩⟩ := path
  · cases hfound
  · exact absurd (hfound.symm.trans (lookup_absent h rest)) nofun

/-- What is found inside variables without streams has none itself, at whatever depth. By
induction over the path: each segment leads into a field of the object that was reached so far. -/
theorem streamFree_lookup {fields : List (String × Value)} {segments : List String} {value : Value}
    (h : Value.streamFreeFields fields = true) (hvalue : lookup fields segments = some value) :
    value.streamFree = true := by
  have hfind : ∀ {fields key value}, Value.streamFreeFields fields = true →
      Fields.find? key fields = some value → value.streamFree = true := fun h hvalue =>
    Value.streamFreeFields_iff.mp h _ (Fields.mem_of_find? hvalue)
  match segments with
  | [] => cases hvalue
  | [last] => exact hfind h hvalue
  | segment :: next :: rest =>
    rw [lookup] at hvalue
    · split at hvalue
      · rename_i inner hinner
        refine streamFree_lookup ?_ hvalue
        have := hfind h hinner
        rwa [Value.streamFree] at this
      · cases hvalue
    · simp

/-- A write of a value without streams leaves variables without streams. -/
theorem streamFree_write {fields fields' : List (String × Value)} {value : Value}
    {segments : List String} (hvalue : value.streamFree = true)
    (h : Value.streamFreeFields fields = true)
    (hwrite : write fields value segments = .ok fields') :
    Value.streamFreeFields fields' = true := by
  match segments with
  | [] => cases hwrite
  | [last] =>
    cases hwrite
    exact Value.streamFreeFields_insert hvalue h
  | segment :: next :: rest =>
    rw [write] at hwrite
    · split at hwrite
      · cases hwrite
      · rename_i inner hinner
        have hfree : Value.streamFreeFields inner = true := by
          have := Value.streamFreeFields_iff.mp h _ (Fields.mem_of_find? hinner)
          rwa [Value.streamFree] at this
        split at hwrite
        · rename_i inner' hwritten
          cases hwrite
          refine Value.streamFreeFields_insert ?_ h
          rw [Value.streamFree]
          exact streamFree_write hvalue hfree hwritten
        · cases hwrite
      · cases hwrite
    · simp

/-- A successful write has a first segment, and changes the variable of that segment. Everything
deeper happens inside the value that is stored there, and this is why writes with different first
segments never meet. -/
theorem write_eq_insert {fields fields' : List (String × Value)} {value : Value}
    {segments : List String} (h : write fields value segments = .ok fields') :
    ∃ segment rest stored, segments = segment :: rest ∧
      fields' = Fields.insert segment stored fields := by
  match segments with
  | [] => cases h
  | [last] => exact ⟨last, [], value, rfl, (Except.ok.inj h).symm⟩
  | segment :: next :: rest =>
    rw [write] at h
    · split at h
      · cases h
      · split at h
        · exact ⟨segment, _, _, rfl, (Except.ok.inj h).symm⟩
        · cases h
      · cases h
    · simp

/-- A successful write does not change how paths with another first segment resolve. -/
theorem lookup_write_of_ne {fields fields' : List (String × Value)} {value : Value} {p q : Path}
    (h : write fields value p.segments = .ok fields') (hne : q.waitKey ≠ p.waitKey) :
    lookup fields' q.segments = lookup fields q.segments := by
  obtain ⟨segments⟩ := p
  obtain ⟨segment, rest, stored, rfl, rfl⟩ := write_eq_insert h
  obtain ⟨_ | ⟨other, rest'⟩⟩ := q
  · rfl
  · exact lookup_congr (Fields.find?_insert_of_ne hne stored fields) rest'

/-- What a successful `set` does: the variables are those of the write, the waits on the first
segment of the path are taken out of the parked ones, and they are woken in the order in which
they were parked. -/
theorem set_eq_ok {s s' : Store W} {p : Path} {value : Value} {woken : List W}
    (h : s.set p value = .ok (s', woken)) :
    write s.vars value p.segments = .ok s'.vars ∧
      s'.parked = s.parked.filter (·.1 != p.waitKey) ∧
      woken = (s.parked.filter (·.1 == p.waitKey)).map (·.2) := by
  rw [set] at h
  split at h
  · cases h
  · rename_i hw
    obtain ⟨rfl, rfl⟩ := Prod.mk.inj (Except.ok.inj h)
    exact ⟨hw, rfl, rfl⟩

/-- A write is rejected with a recoverable error. -/
theorem set_error {s : Store W} {p : Path} {value : Value} {err : RenderError}
    (h : s.set p value = .error err) : err.isRecoverable = true := by
  rw [set] at h
  split at h <;> cases h
  rfl

/-- No wait is lost by a successful `set`, and none is added: they are only parted by their key. -/
theorem perm_woken {s s' : Store W} {p : Path} {value : Value} {woken : List W}
    (h : s.set p value = .ok (s', woken)) :
    (s'.parked.map (·.2) ++ woken).Perm (s.parked.map (·.2)) := by
  obtain ⟨-, hparked, rfl⟩ := set_eq_ok h
  rw [hparked, ← List.map_append]
  refine List.Perm.map _ (List.Perm.trans List.perm_append_comm ?_)
  exact List.filter_append_perm (·.1 == p.waitKey) s.parked

end Store

end StreamingTemplate
