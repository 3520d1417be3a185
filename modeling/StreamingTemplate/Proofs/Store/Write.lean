import StreamingTemplate.Proofs.Store

/-!
# What a write does to every path

The variables are the entries of one object, and a path resolves to what stands at it inside of this
object (`Value.at?`, `lookup_eq_at?`). A successful write at `p` is a replacement in it, and another
path can lie to `p` in four ways:

* `at?_write_append` — at `p` and below stands what is written;
* `at?_write_above` — above `p` stands an object as before, with one entry changed;
* `at?_write_of_diverging` — at a path that leaves the way to `p` nothing changes.

A write succeeds exactly if every path above `p` leads to an object (`exists_write_iff`). All this
needs only the `outline` of what stands at each path (`outline_write`), and two objects with the
same outlines are the same map. So two writes at paths that diverge may be exchanged
(`write_exchange`), although the entries that they create come to stand in another order.
-/

namespace StreamingTemplate

namespace Value

/-! ## Inside of a value

A path inside of a value has no empty case that fails, unlike a path to a variable: at the empty
path stands the value itself. That makes it the better one to reason about, and two paths in a
row are one (`at?_append`). -/

/-- The value at a path inside of a value: each segment leads from an object to one of its entries.
-/
def at? : Value → List String → Option Value
  | v, [] => some v
  | v, segment :: rest => (v.fields?.bind (Fields.find? segment)).bind fun inner => inner.at? rest

@[simp] theorem at?_nil (v : Value) : v.at? [] = some v := rfl

@[simp] theorem at?_object_cons (fields : List (String × Value)) (segment : String)
    (rest : List String) :
    (object fields).at? (segment :: rest) =
      (Fields.find? segment fields).bind fun inner => inner.at? rest := rfl

/-- Following two paths in a row. -/
theorem at?_append (v : Value) (path rest : List String) :
    v.at? (path ++ rest) = (v.at? path).bind fun inner => inner.at? rest := by
  induction path generalizing v with
  | nil => rfl
  | cons segment path ih =>
    simp only [List.cons_append, at?, ih, Option.bind_assoc]

/-- What a value is, without the entries of an object. -/
def outline : Value → Value
  | .object _ => .object []
  | v => v

theorem outline_eq_object {v : Value} (h : v.outline = .object []) :
    ∃ fields, v = .object fields := by
  cases v with
  | object fields => exact ⟨fields, rfl⟩
  | null | bool | num | str | stream => cases h

/-- Two values that have the same at every path inside of them: the same but for the order of
entries. -/
def Alike (v w : Value) : Prop := ∀ path, (v.at? path).map outline = (w.at? path).map outline

/-- Inside of the same there is the same. -/
theorem Alike.at? {v w : Value} (h : v.Alike w) (path : List String) :
    Option.Rel Alike (v.at? path) (w.at? path) := by
  have hinner (rest : List String) := h (path ++ rest)
  simp only [at?_append] at hinner
  rcases hv : v.at? path with _ | v' <;> rcases hw : w.at? path with _ | w'
  · exact .none
  · simpa [hv, hw] using hinner []
  · simpa [hv, hw] using hinner []
  · exact .some fun rest => by simpa [hv, hw] using hinner rest

end Value

namespace Store

/-- The variables, as one object. -/
theorem lookup_eq_at? (fields : List (String × Value)) {segments : List String}
    (h : segments ≠ []) : lookup fields segments = (Value.object fields).at? segments := by
  induction segments generalizing fields with
  | nil => exact absurd rfl h
  | cons segment rest ih =>
    rw [Value.at?_object_cons]
    cases rest with
    | nil => exact (Option.bind_fun_some _).symm
    | cons next rest =>
      rw [lookup]
      · cases hfound : Fields.find? segment fields with
        | none => rfl
        | some inner =>
          cases inner with
          | object entries => exact ih entries (List.cons_ne_nil next rest)
          | null | bool | num | str | stream => rfl
      · exact List.cons_ne_nil next rest

/-! ## Writes that succeed

A write goes down through the objects on its path, and puts each of them back with one entry
replaced. The lemmas are inductions on the written path, with the next object as the smaller one. -/

variable {fields fields' : List (String × Value)} {value : Value}

/-- A write below a variable: it holds an object, and the write to the entries of that succeeds. -/
theorem write_cons_cons_eq_ok {segment next : String} {rest : List String} :
    write fields value (segment :: next :: rest) = .ok fields' ↔
      ∃ inner inner', Fields.find? segment fields = some (.object inner) ∧
        write inner value (next :: rest) = .ok inner' ∧
        fields' = Fields.insert segment (.object inner') fields := by
  simp only [write]
  cases hfound : Fields.find? segment fields with
  | none => simp
  | some found =>
    cases found with
    | object inner =>
      cases hwrite : write inner value (next :: rest) <;> simp [hwrite, eq_comm]
    | null | bool | num | str | stream => simp

/-- **At the written path and below** stands what was written. -/
theorem at?_write_append {p : List String} (h : write fields value p = .ok fields')
    (rest : List String) : (Value.object fields').at? (p ++ rest) = value.at? rest := by
  induction p generalizing fields fields' with
  | nil => cases h
  | cons segment p ih =>
    cases p with
    | nil =>
      obtain rfl := Except.ok.inj h
      rw [List.singleton_append, Value.at?_object_cons, Fields.find?_insert_self, Option.bind_some]
    | cons next p =>
      obtain ⟨inner, inner', -, hwrite, rfl⟩ := write_cons_cons_eq_ok.mp h
      rw [List.cons_append, Value.at?_object_cons, Fields.find?_insert_self, Option.bind_some]
      exact ih hwrite

/-- **Above the written path** stands an object as before, with one entry changed. -/
theorem at?_write_above {p : List String} {key : String} {below : List String}
    (h : write fields value (p ++ key :: below) = .ok fields') :
    ∃ entries stored, (Value.object fields).at? p = some (.object entries) ∧
      (Value.object fields').at? p = some (.object (Fields.insert key stored entries)) := by
  induction p generalizing fields fields' with
  | nil =>
    obtain ⟨_, _, stored, heq, rfl⟩ := write_eq_insert h
    obtain ⟨rfl, -⟩ := List.cons_eq_cons.mp heq
    exact ⟨fields, stored, rfl, rfl⟩
  | cons segment p ih =>
    obtain ⟨next, more, hmore⟩ : ∃ next more, p ++ key :: below = next :: more :=
      List.exists_cons_of_ne_nil (by simp)
    rw [List.cons_append, hmore] at h
    obtain ⟨inner, inner', hinner, hwrite, rfl⟩ := write_cons_cons_eq_ok.mp h
    rw [← hmore] at hwrite
    obtain ⟨entries, stored, hentries, hentries'⟩ := ih hwrite
    refine ⟨entries, stored, ?_, ?_⟩
    · rw [Value.at?_object_cons, hinner, Option.bind_some, hentries]
    · rw [Value.at?_object_cons, Fields.find?_insert_self, Option.bind_some, hentries']

/-- **Beside the written path** nothing changes. -/
theorem at?_write_of_diverging {p q : List String} (h : write fields value p = .ok fields')
    (hpq : ¬p <+: q) (hqp : ¬q <+: p) :
    (Value.object fields').at? q = (Value.object fields).at? q := by
  induction p generalizing fields fields' q with
  | nil => exact absurd List.nil_prefix hpq
  | cons segment p ih =>
    obtain _ | ⟨other, q⟩ := q
    · exact absurd List.nil_prefix hqp
    by_cases hother : other = segment
    · -- both paths go through the same variable, which holds an object
      subst hother
      have hpq' : ¬p <+: q := fun hle => hpq (List.cons_prefix_cons.mpr ⟨rfl, hle⟩)
      have hqp' : ¬q <+: p := fun hle => hqp (List.cons_prefix_cons.mpr ⟨rfl, hle⟩)
      cases p with
      | nil => exact absurd List.nil_prefix hpq'
      | cons next p =>
        obtain ⟨inner, inner', hinner, hwrite, rfl⟩ := write_cons_cons_eq_ok.mp h
        rw [Value.at?_object_cons, Value.at?_object_cons, Fields.find?_insert_self, hinner]
        exact ih hwrite hpq' hqp'
    · obtain ⟨_, _, stored, heq, rfl⟩ := write_eq_insert h
      obtain ⟨rfl, -⟩ := List.cons_eq_cons.mp heq
      rw [Value.at?_object_cons, Value.at?_object_cons, Fields.find?_insert_of_ne hother]

/-- The outlines after a write: below the written path those of what was written, elsewhere those of
before. -/
theorem outline_write {p : List String} (h : write fields value p = .ok fields')
    (q : List String) :
    ((Value.object fields').at? q).map Value.outline =
      if p <+: q then (value.at? (q.drop p.length)).map Value.outline
      else ((Value.object fields).at? q).map Value.outline := by
  split
  · rename_i hpq
    obtain ⟨rest, rfl⟩ := hpq
    rw [at?_write_append h, List.drop_left]
  · rename_i hpq
    by_cases hqp : q <+: p
    · obtain ⟨_ | ⟨key, below⟩, rfl⟩ := hqp
      · exact absurd (by simp) hpq
      · obtain ⟨entries, stored, hentries, hentries'⟩ := at?_write_above h
        rw [hentries, hentries']
        rfl
    · rw [at?_write_of_diverging h hpq hqp]

/-- **When a write succeeds**: the path is not empty, and all that lies above it leads to objects.
-/
theorem exists_write_iff {p : List String} :
    (∃ fields', write fields value p = .ok fields') ↔
      p ≠ [] ∧ ∀ above key below, p = above ++ key :: below →
        ((Value.object fields).at? above).map Value.outline = some (.object []) := by
  constructor
  · rintro ⟨fields', h⟩
    refine ⟨?_, ?_⟩
    · rintro rfl
      cases h
    · rintro above key below rfl
      obtain ⟨entries, -, hentries, -⟩ := at?_write_above h
      rw [hentries]
      rfl
  · rintro ⟨hp, habove⟩
    induction p generalizing fields with
    | nil => exact absurd rfl hp
    | cons segment p ih =>
      cases p with
      | nil => exact ⟨_, rfl⟩
      | cons next p =>
        have hfound := habove [segment] next p rfl
        simp only [Value.at?_object_cons, Value.at?_nil, Option.bind_fun_some,
          Option.map_eq_some_iff] at hfound
        obtain ⟨found, hfound, houtline⟩ := hfound
        obtain ⟨inner, rfl⟩ := Value.outline_eq_object houtline
        have hinner : ∀ above key below, next :: p = above ++ key :: below →
            ((Value.object inner).at? above).map Value.outline = some (.object []) := by
          intro above key below heq
          have hobject := habove (segment :: above) key below (by rw [heq]; rfl)
          rwa [Value.at?_object_cons, hfound] at hobject
        obtain ⟨inner', hwrite⟩ := ih (List.cons_ne_nil next p) hinner
        exact ⟨_, write_cons_cons_eq_ok.mpr ⟨inner, inner', hfound, hwrite, rfl⟩⟩

/-- **Writes at diverging paths may be exchanged.** -/
theorem write_exchange {first second : List (String × Value)} {v w : Value} {p q : List String}
    (hpq : ¬p <+: q) (hqp : ¬q <+: p) (hp : write fields v p = .ok first)
    (hq : write first w q = .ok second) :
    ∃ first' second', write fields w q = .ok first' ∧ write first' v p = .ok second' ∧
      (Value.object second).Alike (.object second') := by
  -- whether a write succeeds depends on the outlines above its path only
  obtain ⟨hnil, habove⟩ := exists_write_iff.mp ⟨_, hq⟩
  obtain ⟨hnil', habove'⟩ := exists_write_iff.mp ⟨_, hp⟩
  -- what lies above one path is not below the other, so the writes need the same objects
  obtain ⟨first', hq'⟩ : ∃ first', write fields w q = .ok first' := by
    refine exists_write_iff.mpr ⟨hnil, fun above key below heq => ?_⟩
    have hobject := habove above key below heq
    rwa [outline_write hp, if_neg] at hobject
    exact fun hle => hpq (heq ▸ hle.trans (List.prefix_append above _))
  obtain ⟨second', hp'⟩ : ∃ second', write first' v p = .ok second' := by
    refine exists_write_iff.mpr ⟨hnil', fun above key below heq => ?_⟩
    rw [outline_write hq', if_neg]
    · exact habove' above key below heq
    · exact fun hle => hqp (heq ▸ hle.trans (List.prefix_append above _))
  refine ⟨first', second', hq', hp', fun path => ?_⟩
  rw [outline_write hq, outline_write hp, outline_write hp', outline_write hq']
  by_cases hbelow : p <+: path <;> by_cases hbelow' : q <+: path
  · exact ((List.prefix_or_prefix_of_prefix hbelow hbelow').elim hpq hqp).elim
  all_goals simp only [hbelow, hbelow', if_true, if_false]

/-! ## Successful writes to a store

The variables of a store are the entries of an object, and only the empty path, which resolves to
nothing, is treated apart. -/

variable {W : Type}

theorem resolve_eq_at? (s : Store W) {segments : List String} (h : segments ≠ []) :
    s.resolve ⟨segments⟩ = (Value.object s.vars).at? segments :=
  lookup_eq_at? s.vars h

/-- A store takes a value exactly if its variables do. -/
theorem exists_set_of_write {s : Store W} {p : Path} {vars : List (String × Value)}
    (h : write s.vars value p.segments = .ok vars) :
    ∃ s' woken, s.set p value = .ok (s', woken) ∧ s'.vars = vars := by
  rw [set, h]
  exact ⟨_, _, rfl, rfl⟩

/-- Stores with the same variables resolve every path alike. -/
theorem resolve_alike {s t : Store W} (h : (Value.object s.vars).Alike (.object t.vars))
    (q : Path) : Option.Rel Value.Alike (s.resolve q) (t.resolve q) := by
  obtain ⟨_ | ⟨segment, rest⟩⟩ := q
  · exact .none
  · rw [resolve_eq_at? s (List.cons_ne_nil segment rest),
      resolve_eq_at? t (List.cons_ne_nil segment rest)]
    exact h.at? (segment :: rest)

/-- **What a successful write does to every path.** The written path resolves to the value, and a
path below it to what is there inside of the value. A path above it resolves to the object as
before with one entry changed, the one towards the written path. The empty path and those that
diverge from the written one resolve as before. So two successful writes at paths that diverge may
be exchanged: both succeed in the other order too, and every path resolves to the same. -/
theorem set_resolves {s s' : Store W} {p : Path} {v : Value} {woken : List W}
    (hset : s.set p v = .ok (s', woken)) :
    s'.resolve p = some v ∧
    (∀ below, s'.resolve ⟨p.segments ++ below⟩ = v.at? below) ∧
    (∀ above key below, above ≠ [] → p.segments = above ++ key :: below →
      ∃ entries entries' stored, s.resolve ⟨above⟩ = some (.object entries) ∧
        s'.resolve ⟨above⟩ = some (.object entries') ∧
        s'.resolve ⟨above ++ [key]⟩ = some stored ∧
        ∀ other, Fields.find? other entries' =
          if other = key then some stored else Fields.find? other entries) ∧
    (∀ q : Path, q.segments = [] ∨ ¬p.segments <+: q.segments ∧ ¬q.segments <+: p.segments →
      s'.resolve q = s.resolve q) ∧
    (∀ (q : Path) (w : Value) (s'' : Store W) (woken' : List W),
      ¬p.segments <+: q.segments → ¬q.segments <+: p.segments →
      s'.set q w = .ok (s'', woken') →
      ∃ t t' wokenFirst wokenSecond, s.set q w = .ok (t, wokenFirst) ∧
        t.set p v = .ok (t', wokenSecond) ∧
        ∀ r, Option.Rel Value.Alike (s''.resolve r) (t'.resolve r)) := by
  obtain ⟨hwrite, -, -⟩ := set_eq_ok hset
  have hp : p.segments ≠ [] := (exists_write_iff.mp ⟨_, hwrite⟩).1
  have hbelow (below : List String) : s'.resolve ⟨p.segments ++ below⟩ = v.at? below := by
    rw [resolve_eq_at? s' (List.append_ne_nil_of_left_ne_nil hp below), at?_write_append hwrite]
  refine ⟨by simpa using hbelow [], hbelow, ?_, ?_, ?_⟩
  · intro above key below habove hsplit
    rw [hsplit] at hwrite
    obtain ⟨entries, stored, hentries, hentries'⟩ := at?_write_above hwrite
    refine ⟨entries, Fields.insert key stored entries, stored, ?_, ?_, ?_, ?_⟩
    · rw [resolve_eq_at? s habove, hentries]
    · rw [resolve_eq_at? s' habove, hentries']
    · rw [resolve_eq_at? s' (List.append_ne_nil_of_left_ne_nil habove _), Value.at?_append,
        hentries', Option.bind_some, Value.at?_object_cons, Fields.find?_insert_self,
        Option.bind_some, Value.at?_nil]
    · intro other
      split
      · rename_i hother
        rw [hother, Fields.find?_insert_self]
      · rename_i hother
        exact Fields.find?_insert_of_ne hother stored entries
  · rintro ⟨q⟩ (rfl | ⟨hpq, hqp⟩)
    · rfl
    · have hq : q ≠ [] := by
        rintro rfl
        exact hqp List.nil_prefix
      rw [resolve_eq_at? s' hq, resolve_eq_at? s hq, at?_write_of_diverging hwrite hpq hqp]
  · intro q w s'' woken' hpq hqp hset'
    obtain ⟨hwrite', -, -⟩ := set_eq_ok hset'
    obtain ⟨first, second, hfirst, hsecond, halike⟩ := write_exchange hpq hqp hwrite hwrite'
    obtain ⟨t, wokenFirst, ht, rfl⟩ := exists_set_of_write hfirst
    obtain ⟨t', wokenSecond, ht', rfl⟩ := exists_set_of_write hsecond
    exact ⟨t, t', wokenFirst, wokenSecond, ht, ht', resolve_alike halike⟩

/-- A write of an object two levels down, above, below and beside it, and exchanged with a write of
another entry of the same object. -/
theorem set_resolves_nested :
    let s : Store Nat :=
      { vars := [("item", .object [("id", .bool true), ("text", .object [("a", .str "x")])]),
          ("title", .str "t")]
        parked := [("item", 0)] }
    let v : Value := .object [("c", .bool true)]
    ∃ s' woken, s.set ⟨["item", "text", "b"]⟩ v = .ok (s', woken) ∧
      s'.resolve ⟨["item", "text", "b"]⟩ = some v ∧
      s'.resolve ⟨["item", "text", "b", "c"]⟩ = some (.bool true) ∧
      s'.resolve ⟨["item", "text", "b", "c", "d"]⟩ = none ∧
      s'.resolve ⟨["title"]⟩ = some (.str "t") ∧
      (∃ entries entries' stored, s.resolve ⟨["item"]⟩ = some (.object entries) ∧
        s'.resolve ⟨["item"]⟩ = some (.object entries') ∧
        s'.resolve ⟨["item", "text"]⟩ = some stored ∧
        ∀ other, Fields.find? other entries' =
          if other = "text" then some stored else Fields.find? other entries) ∧
      ∃ s'' woken' t t' wokenFirst wokenSecond,
        s'.set ⟨["item", "text", "d"]⟩ .null = .ok (s'', woken') ∧
        s.set ⟨["item", "text", "d"]⟩ .null = .ok (t, wokenFirst) ∧
        t.set ⟨["item", "text", "b"]⟩ v = .ok (t', wokenSecond) ∧
        ∀ r, Option.Rel Value.Alike (s''.resolve r) (t'.resolve r) := by
  intro s v
  have hset : s.set ⟨["item", "text", "b"]⟩ v = .ok _ := rfl
  obtain ⟨hself, hbelow, habove, hother, hexchange⟩ := set_resolves hset
  refine ⟨_, _, hset, hself, hbelow ["c"], hbelow ["c", "d"],
    hother ⟨["title"]⟩ (.inr (by decide)), habove ["item"] "text" ["b"] (by decide) rfl, ?_⟩
  obtain ⟨t, t', wokenFirst, wokenSecond, hfirst, hsecond, halike⟩ :=
    hexchange ⟨["item", "text", "d"]⟩ .null _ _ (by decide) (by decide) rfl
  exact ⟨_, _, t, t', wokenFirst, wokenSecond, rfl, hfirst, hsecond, halike⟩

end Store

end StreamingTemplate
