import StreamingTemplate.Template.Compact

/-!
# What the compact form accepts

The grammar of the compact form, said without a reader: `InstructionShape` is what an element of the
outer array may look like, `InstructionOf` is the instruction that such an element stands for, and
`Fault` is what is wrong with an element of any other look. What an argument may be depends on its
position, so the shapes of arguments are indexed by it.

`Template.loadCompact_exact` says that the loader follows this grammar on every text: it succeeds
on well-formed elements and on no others, every element becomes its own instruction, and otherwise
the first ill-formed element is reported.
-/

namespace StreamingTemplate

/-! ## Reading items by their index

An element may mean different things at different positions, and the error of a bad one carries
its position. `readItems` is the loop of the loader with the reader of an item left open; what it
returns is characterised once, for arguments and for instructions alike. -/

/-- Two lists are of one length and related index by index. -/
def Itemwise {α β : Type} (R : Nat → α → β → Prop) (as : List α) (bs : List β) : Prop :=
  as.length = bs.length ∧ ∀ k a b, as[k]? = some a → bs[k]? = some b → R k a b

namespace Itemwise

variable {α β : Type} {R S : Nat → α → β → Prop} {a : α} {as : List α} {b : β} {bs : List β}

theorem nil_iff : Itemwise R [] bs ↔ bs = [] := by
  constructor
  · rintro ⟨hlength, -⟩
    exact List.length_eq_zero_iff.mp hlength.symm
  · rintro rfl
    exact ⟨rfl, nofun⟩

/-- Two lists with a first item are related if these are, and the rests are with the index moved
on. -/
theorem cons_iff :
    Itemwise R (a :: as) (b :: bs) ↔ R 0 a b ∧ Itemwise (fun k => R (k + 1)) as bs := by
  constructor
  · rintro ⟨hlength, hitems⟩
    refine ⟨hitems 0 a b rfl rfl, Nat.succ.inj hlength, fun k x y hx hy => ?_⟩
    exact hitems (k + 1) x y hx hy
  · rintro ⟨hfirst, hlength, hitems⟩
    refine ⟨congrArg (· + 1) hlength, fun k x y hx hy => ?_⟩
    cases k with
    | zero =>
      cases hx
      cases hy
      exact hfirst
    | succ k => exact hitems k x y hx hy

theorem not_cons_nil : ¬Itemwise R (a :: as) [] := fun h => nomatch h.1

theorem congr (h : ∀ k a b, R k a b ↔ S k a b) : Itemwise R as bs ↔ Itemwise S as bs := by
  simp only [Itemwise, h]

/-- There is a list beside another one if there is an item beside each of its items. This is how
a shape, which only asks that something can be read, is matched with a reading. -/
theorem exists_iff :
    (∃ bs, Itemwise R as bs) ↔ ∀ k a, as[k]? = some a → ∃ b, R k a b := by
  induction as generalizing R with
  | nil => simp [nil_iff]
  | cons a as ih =>
    constructor
    · rintro ⟨bs, hbs⟩ k x hx
      cases bs with
      | nil => exact absurd hbs not_cons_nil
      | cons b bs =>
        obtain ⟨hfirst, hrest⟩ := cons_iff.mp hbs
        cases k with
        | zero =>
          cases hx
          exact ⟨b, hfirst⟩
        | succ k => exact ih.mp ⟨bs, hrest⟩ k x hx
    · intro h
      obtain ⟨b, hfirst⟩ := h 0 a rfl
      obtain ⟨bs, hrest⟩ := ih.mpr fun k x hx => h (k + 1) x hx
      exact ⟨b :: bs, cons_iff.mpr ⟨hfirst, hrest⟩⟩

end Itemwise

/-- Reads items one after the other, each with its index, up to the first that cannot be read. -/
def readItems {ε α β : Type} (item : Nat → α → Except ε β) : Nat → List α → Except ε (List β)
  | _, [] => .ok []
  | n, a :: as =>
    match item n a with
    | .error e => .error e
    | .ok b => (readItems item (n + 1) as).map (b :: ·)

section ReadItems

variable {ε α β : Type} {item : Nat → α → Except ε β}

/-- **The loop succeeds** with the list of what every item was read as. The indices of the loop
begin at `n`, those of `Itemwise` at zero. -/
theorem readItems_eq_ok_iff {n : Nat} {as : List α} {bs : List β} :
    readItems item n as = .ok bs ↔ Itemwise (fun k a b => item (n + k) a = .ok b) as bs := by
  induction as generalizing n bs with
  | nil =>
    rw [Itemwise.nil_iff, readItems]
    exact ⟨fun h => (Except.ok.inj h).symm, congrArg _ ∘ Eq.symm⟩
  | cons a as ih =>
    -- the rest is read from the next index on, and counted from zero again
    have hshift : ∀ bs, Itemwise (fun k a b => item (n + (k + 1)) a = .ok b) as bs ↔
        readItems item (n + 1) as = .ok bs := by
      intro bs
      rw [ih]
      exact Itemwise.congr fun k a b => by rw [Nat.add_right_comm, Nat.add_assoc]
    rw [readItems]
    cases bs with
    | nil =>
      refine ⟨fun h => ?_, fun h => absurd h Itemwise.not_cons_nil⟩
      cases hitem : item n a with
      | error e => simp [hitem] at h
      | ok b => cases hrest : readItems item (n + 1) as <;> simp [hitem, hrest, Except.map] at h
    | cons b bs =>
      rw [Itemwise.cons_iff, hshift]
      cases item n a with
      | error e => simp
      | ok c => cases readItems item (n + 1) as <;> simp [Except.map]

/-- **The loop fails** with the error of the first item that cannot be read: the items before it
could. -/
theorem readItems_eq_error_iff {n : Nat} {as : List α} {e : ε} :
    readItems item n as = .error e ↔ ∃ k a, as[k]? = some a ∧ item (n + k) a = .error e ∧
      ∀ j b, j < k → as[j]? = some b → ∃ c, item (n + j) b = .ok c := by
  induction as generalizing n with
  | nil => simp [readItems]
  | cons a as ih =>
    rw [readItems]
    cases hitem : item n a with
    | error e' =>
      constructor
      · rintro h
        obtain rfl := Except.error.inj h
        exact ⟨0, a, rfl, hitem, fun j b hj => absurd hj (Nat.not_lt_zero j)⟩
      · rintro ⟨k, a', ha, herror, hbefore⟩
        cases k with
        | zero =>
          cases ha
          cases hitem.symm.trans herror
          rfl
        | succ k =>
          obtain ⟨c, hc⟩ := hbefore 0 a (Nat.succ_pos k) rfl
          cases hitem.symm.trans hc
    | ok b =>
      have hmap : (readItems item (n + 1) as).map (b :: ·) = .error e ↔
          readItems item (n + 1) as = .error e := by
        cases readItems item (n + 1) as <;> simp [Except.map]
      show (readItems item (n + 1) as).map (b :: ·) = .error e ↔ _
      rw [hmap, ih]
      constructor
      · rintro ⟨k, a', ha, herror, hbefore⟩
        refine ⟨k + 1, a', ha, ?_, fun j c hj hc => ?_⟩
        · rwa [Nat.add_right_comm, Nat.add_assoc] at herror
        · cases j with
          | zero =>
            cases hc
            exact ⟨b, hitem⟩
          | succ j =>
            have hread := hbefore j c (Nat.lt_of_succ_lt_succ hj) hc
            rwa [Nat.add_right_comm, Nat.add_assoc] at hread
      · rintro ⟨k, a', ha, herror, hbefore⟩
        cases k with
        | zero =>
          cases ha
          cases hitem.symm.trans herror
        | succ k =>
          refine ⟨k, a', ha, ?_, fun j c hj hc => ?_⟩
          · rwa [Nat.add_right_comm, Nat.add_assoc]
          · have hread := hbefore (j + 1) c (Nat.succ_lt_succ hj) hc
            rwa [Nat.add_right_comm, Nat.add_assoc]

end ReadItems

/-! ## The grammar

The grammar is said twice, as shapes and as readings, and neither mentions the loader. A shape is
what a value may look like, a reading relates it to what it stands for;
`ArgumentShape.iff_argumentOf` and `InstructionShape.iff_instructionOf` show that the two agree. -/

namespace Compact

/-- A string, a boolean or a number. -/
inductive Scalar : Json → Prop
  | string (s : String) : Scalar (.string s)
  | bool (b : Bool) : Scalar (.bool b)
  | number (n : Json.Number) : Scalar (.number n)

/-- What the argument at a position may look like. -/
inductive ArgumentShape : Nat → Json → Prop
  | scalar (k : Nat) {v : Json} (h : Scalar v) : ArgumentShape k v
  | path {items : List Json} (h : ∀ v ∈ items, ∃ s, v = .string s) :
    ArgumentShape 0 (.array items)
  | filter (k : Nat) (name : String) {rest : List Json} (h : ∀ v ∈ rest, Scalar v) :
    ArgumentShape (k + 1) (.array (.string name :: rest))

/-- What an element may look like. -/
inductive InstructionShape : Json → Prop
  | literal (text : String) : InstructionShape (.string text)
  | directive (name : String) {rest : List Json}
    (h : ∀ k v, rest[k]? = some v → ArgumentShape k v) :
    InstructionShape (.array (.string name :: rest))

/-- The literal that a scalar stands for. -/
inductive LiteralOf : Json → Literal → Prop
  | string (s : String) : LiteralOf (.string s) (.str s)
  | bool (b : Bool) : LiteralOf (.bool b) (.bool b)
  | number (n : Json.Number) : LiteralOf (.number n) (.num n.toBinary64)

/-- The argument that a value stands for at a position. -/
inductive ArgumentOf : Nat → Json → Argument → Prop
  | dotted (s : String) : ArgumentOf 0 (.string s) (.path (.parse s))
  | segments (segments : List String) :
    ArgumentOf 0 (.array (segments.map .string)) (.path ⟨segments⟩)
  | bool (k : Nat) (b : Bool) : ArgumentOf k (.bool b) (.lit (.bool b))
  | number (k : Nat) (n : Json.Number) : ArgumentOf k (.number n) (.lit (.num n.toBinary64))
  | string (k : Nat) (s : String) : ArgumentOf (k + 1) (.string s) (.lit (.str s))
  | filter (k : Nat) (name : String) {rest : List Json} {args : List Literal}
    (h : Itemwise (fun _ => LiteralOf) rest args) :
    ArgumentOf (k + 1) (.array (.string name :: rest)) (.filter ⟨name, args⟩)

/-- The instruction that an element stands for. -/
inductive InstructionOf : Json → Instruction → Prop
  | literal (text : String) : InstructionOf (.string text) (.literal text)
  | directive (name : String) {rest : List Json} {args : List Argument}
    (h : Itemwise ArgumentOf rest args) :
    InstructionOf (.array (.string name :: rest)) (.directive name args)

/-- What is wrong with an element: of a directive, the first argument that has no shape for its
position. -/
inductive Fault : Json → InstructionFault → Prop
  | shape {v : Json} (hstring : ∀ s, v ≠ .string s) (harray : ∀ items, v ≠ .array items) :
    Fault v .shape
  | unnamed {items : List Json} (h : ∀ name rest, items ≠ .string name :: rest) :
    Fault (.array items) .unnamed
  | argument (name : String) {rest : List Json} {k : Nat} {v : Json} (hv : rest[k]? = some v)
    (h : ¬ArgumentShape k v) (hbefore : ∀ j w, j < k → rest[j]? = some w → ArgumentShape j w) :
    Fault (.array (.string name :: rest)) (.argument k)

end Compact

open StreamingTemplate.Compact

/-! ## Literals and filters

A literal is a string, a truth value or a number, and null, arrays and objects are none.
Arguments of filters are literals only. -/

/-- The reader of literals reads what the grammar says, and refuses the rest. -/
theorem Literal.ofJson?_eq_some_iff {v : Json} {l : Literal} :
    Literal.ofJson? v = some l ↔ LiteralOf v l := by
  constructor
  · intro h
    cases v with
    | string s =>
      cases h
      exact .string s
    | bool b =>
      cases h
      exact .bool b
    | number n =>
      cases h
      exact .number n
    | null | array | object => cases h
  · rintro (s | b | n) <;> rfl

theorem Compact.Scalar.iff_literalOf {v : Json} : Scalar v ↔ ∃ l, LiteralOf v l := by
  constructor
  · rintro (s | b | n)
    · exact ⟨_, .string s⟩
    · exact ⟨_, .bool b⟩
    · exact ⟨_, .number n⟩
  · rintro ⟨l, s | b | n⟩
    · exact .string s
    · exact .bool b
    · exact .number n

/-- Items that are read without an index are read one by one. -/
theorem mapM_eq_some_iff {α β : Type} {read : α → Option β} {as : List α} {bs : List β} :
    as.mapM read = some bs ↔ Itemwise (fun _ a b => read a = some b) as bs := by
  induction as generalizing bs with
  | nil => simp [Itemwise.nil_iff, eq_comm]
  | cons a as ih =>
    cases bs with
    | nil =>
      refine ⟨fun h => ?_, fun h => absurd h Itemwise.not_cons_nil⟩
      cases hread : read a <;> cases hrest : as.mapM read <;> simp [hread, hrest] at h
    | cons b bs =>
      rw [Itemwise.cons_iff, ← ih]
      cases hread : read a <;> cases hrest : as.mapM read <;> simp [hread, hrest]

theorem mapM_literal_eq_some_iff {items : List Json} {args : List Literal} :
    items.mapM Literal.ofJson? = some args ↔ Itemwise (fun _ => LiteralOf) items args :=
  mapM_eq_some_iff.trans (Itemwise.congr fun _ _ _ => Literal.ofJson?_eq_some_iff)

/-- Items that are all read as strings are these strings. -/
theorem mapM_string_eq_some_iff {items : List Json} {segments : List String} :
    items.mapM Json.string? = some segments ↔ items = segments.map .string := by
  induction items generalizing segments with
  | nil => cases segments <;> simp
  | cons v items ih =>
    cases segments with
    | nil =>
      cases hread : v.string? <;> cases hrest : items.mapM Json.string? <;> simp [hread, hrest]
    | cons s segments =>
      rw [List.map_cons, List.cons.injEq, ← ih]
      have hfirst : v.string? = some s ↔ v = .string s := by cases v <;> simp [Json.string?]
      rw [← hfirst]
      cases hread : v.string? <;> cases hrest : items.mapM Json.string? <;> simp [hread, hrest]

/-! ## Arguments

The first argument is a path, dotted or as a list of segments; those behind it are literals or
filters. A string is therefore read in two ways, by its position, and so is an array. -/

theorem FilterSpec.ofCompact?_argumentOf {k : Nat} {items : List Json} {f : FilterSpec}
    (h : FilterSpec.ofCompact? items = some f) :
    ArgumentOf (k + 1) (.array items) (.filter f) := by
  unfold FilterSpec.ofCompact? at h
  split at h
  · obtain ⟨args, hargs, rfl⟩ := Option.map_eq_some_iff.mp h
    exact .filter k _ (mapM_literal_eq_some_iff.mp hargs)
  · cases h

/-- **The reader of arguments** reads the arguments of the grammar, at each position its own. The
cases are the kinds of values, and for strings and arrays whether the position is the first. -/
theorem Argument.ofCompact?_eq_some_iff {k : Nat} {v : Json} {a : Argument} :
    Argument.ofCompact? k v = some a ↔ ArgumentOf k v a := by
  constructor
  · intro h
    cases v with
    | null | object =>
      -- the side goals say that none of the earlier patterns of the reader applies
      rw [Argument.ofCompact?] at h
      · cases h
      all_goals exact nofun
    | bool b =>
      rw [Argument.ofCompact?] at h
      · cases h
        exact .bool k b
      all_goals exact nofun
    | number n =>
      rw [Argument.ofCompact?] at h
      · cases h
        exact .number k n
      all_goals exact nofun
    | string s =>
      cases k with
      | zero =>
        cases h
        exact .dotted s
      | succ k =>
        cases h
        exact .string k s
    | array items =>
      cases k with
      | zero =>
        obtain ⟨segments, hsegments, rfl⟩ := Option.map_eq_some_iff.mp h
        rw [mapM_string_eq_some_iff.mp hsegments]
        exact .segments segments
      | succ k =>
        obtain ⟨f, hf, rfl⟩ := Option.map_eq_some_iff.mp h
        exact FilterSpec.ofCompact?_argumentOf hf
  · rintro (s | segments | b | n | s | ⟨k, name, hargs⟩)
    · rfl
    · rw [Argument.ofCompact?, mapM_string_eq_some_iff.mpr rfl]
      rfl
    · cases k <;> rfl
    · cases k <;> rfl
    · rfl
    · rw [Argument.ofCompact?, FilterSpec.ofCompact?, mapM_literal_eq_some_iff.mpr hargs]
      · rfl
      · exact nofun

/-- Values that are all strings are the values of some strings. -/
theorem exists_segments {items : List Json} (h : ∀ v ∈ items, ∃ s, v = .string s) :
    ∃ segments : List String, items = segments.map .string := by
  induction items with
  | nil => exact ⟨[], rfl⟩
  | cons v items ih =>
    obtain ⟨⟨s, rfl⟩, hitems⟩ := List.forall_mem_cons.mp h
    obtain ⟨segments, rfl⟩ := ih hitems
    exact ⟨s :: segments, rfl⟩

/-- A value has a shape for a position if it stands for some argument there. -/
theorem Compact.ArgumentShape.iff_argumentOf {k : Nat} {v : Json} :
    ArgumentShape k v ↔ ∃ a, ArgumentOf k v a := by
  constructor
  · intro h
    cases h with
    | scalar k h =>
      cases h with
      | string s =>
        cases k with
        | zero => exact ⟨_, .dotted s⟩
        | succ k => exact ⟨_, .string k s⟩
      | bool b => exact ⟨_, .bool k b⟩
      | number n => exact ⟨_, .number k n⟩
    | path h =>
      obtain ⟨segments, rfl⟩ := exists_segments h
      exact ⟨_, .segments segments⟩
    | filter k name h =>
      obtain ⟨args, hargs⟩ := Itemwise.exists_iff.mpr fun j w hw =>
        Scalar.iff_literalOf.mp (h w (List.mem_of_getElem? hw))
      exact ⟨_, .filter k name hargs⟩
  · rintro ⟨a, h⟩
    cases h with
    | dotted s => exact .scalar 0 (.string s)
    | segments segments =>
      refine .path fun v hv => ?_
      obtain ⟨s, -, rfl⟩ := List.mem_map.mp hv
      exact ⟨s, rfl⟩
    | bool k b => exact .scalar k (.bool b)
    | number k n => exact .scalar k (.number n)
    | string k s => exact .scalar (k + 1) (.string s)
    | filter k name h =>
      refine .filter k name fun v hv => ?_
      obtain ⟨j, hj⟩ := List.getElem?_of_mem hv
      exact Scalar.iff_literalOf.mpr (Itemwise.exists_iff.mp ⟨_, h⟩ j v hj)

/-- The arguments of a directive are read by the general loop, with the position as the error. -/
theorem Argument.listOfCompact_eq_readItems {n : Nat} {vs : List Json} :
    Argument.listOfCompact n vs = readItems (fun k v =>
      match Argument.ofCompact? k v with
      | none => .error k
      | some a => .ok a) n vs := by
  induction vs generalizing n with
  | nil => rfl
  | cons v vs ih =>
    rw [Argument.listOfCompact, readItems, ih]
    cases Argument.ofCompact? n v <;> rfl

theorem Argument.listOfCompact_eq_ok_iff {vs : List Json} {args : List Argument} :
    Argument.listOfCompact 0 vs = .ok args ↔ Itemwise ArgumentOf vs args := by
  rw [listOfCompact_eq_readItems, readItems_eq_ok_iff]
  refine Itemwise.congr fun k v a => ?_
  rw [Nat.zero_add, ← Argument.ofCompact?_eq_some_iff]
  cases Argument.ofCompact? k v <;> simp

/-- The position of the first argument without a shape is the error. -/
theorem Argument.listOfCompact_eq_error_iff {vs : List Json} {k : Nat} :
    Argument.listOfCompact 0 vs = .error k ↔ ∃ v, vs[k]? = some v ∧ ¬ArgumentShape k v ∧
      ∀ j w, j < k → vs[j]? = some w → ArgumentShape j w := by
  have hread : ∀ j w, ArgumentShape j w ↔ ∃ a, Argument.ofCompact? j w = some a := by
    intro j w
    simp only [ArgumentShape.iff_argumentOf, Argument.ofCompact?_eq_some_iff]
  rw [listOfCompact_eq_readItems, readItems_eq_error_iff]
  constructor
  · rintro ⟨i, v, hv, herror, hbefore⟩
    rw [Nat.zero_add] at herror
    split at herror
    · rename_i hnone
      obtain rfl := Except.error.inj herror
      refine ⟨v, hv, by simp [hread, hnone], fun j w hj hw => ?_⟩
      obtain ⟨a, ha⟩ := hbefore j w hj hw
      rw [Nat.zero_add] at ha
      split at ha
      · cases ha
      · rename_i a' hsome
        exact (hread j w).mpr ⟨a', hsome⟩
    · cases herror
  · rintro ⟨v, hv, hshape, hbefore⟩
    refine ⟨k, v, hv, ?_, fun j w hj hw => ?_⟩
    · have hnone : Argument.ofCompact? k v = none := by
        rw [hread] at hshape
        exact Option.eq_none_iff_forall_ne_some.mpr fun a ha => hshape ⟨a, ha⟩
      rw [Nat.zero_add, hnone]
    · obtain ⟨a, ha⟩ := (hread j w).mp (hbefore j w hj hw)
      rw [Nat.zero_add, ha]
      exact ⟨a, rfl⟩

/-! ## Instructions

An element is a literal or a directive with a name in front. `Fault` has one constructor for each
way of being neither, in the order in which the loader looks. -/

/-- An array that starts with a name is a directive, if its arguments can be read. -/
theorem Instruction.ofCompact_directive (name : String) (rest : List Json) :
    Instruction.ofCompact (.array (.string name :: rest)) =
      match Argument.listOfCompact 0 rest with
      | .ok args => .ok (.directive name args)
      | .error position => .error (.argument position) := rfl

/-- **The reader of elements** reads the instructions of the grammar. -/
theorem Instruction.ofCompact_eq_ok_iff {v : Json} {i : Instruction} :
    Instruction.ofCompact v = .ok i ↔ InstructionOf v i := by
  constructor
  · intro h
    unfold Instruction.ofCompact at h
    split at h
    · cases h
      exact .literal _
    · split at h
      · rename_i hargs
        cases h
        exact .directive _ (Argument.listOfCompact_eq_ok_iff.mp hargs)
      · cases h
    · cases h
    · cases h
  · rintro (text | ⟨name, hargs⟩)
    · rfl
    · rw [ofCompact_directive, Argument.listOfCompact_eq_ok_iff.mpr hargs]

/-- An element that cannot be read is reported with its fault. -/
theorem Instruction.ofCompact_eq_error_iff {v : Json} {fault : InstructionFault} :
    Instruction.ofCompact v = .error fault ↔ Fault v fault := by
  constructor
  · intro h
    unfold Instruction.ofCompact at h
    split at h
    · cases h
    · split at h
      · cases h
      · rename_i hargs
        cases h
        obtain ⟨w, hw, hshape, hbefore⟩ := Argument.listOfCompact_eq_error_iff.mp hargs
        exact .argument _ hw hshape hbefore
    · rename_i hdirective
      cases h
      exact .unnamed hdirective
    · rename_i hstring _ harray
      cases h
      exact .shape hstring harray
  · rintro (⟨hstring, harray⟩ | hdirective | ⟨name, hw, hshape, hbefore⟩)
    · cases v with
      | string s => exact absurd rfl (hstring s)
      | array items => exact absurd rfl (harray items)
      | null | bool | number | object => rfl
    · rw [Instruction.ofCompact]
      exact hdirective
    · rw [ofCompact_directive, Argument.listOfCompact_eq_error_iff.mpr ⟨_, hw, hshape, hbefore⟩]

/-- An element has a shape if it stands for some instruction. -/
theorem Compact.InstructionShape.iff_instructionOf {v : Json} :
    InstructionShape v ↔ ∃ i, InstructionOf v i := by
  constructor
  · rintro (text | ⟨name, hargs⟩)
    · exact ⟨_, .literal text⟩
    · obtain ⟨args, hargs⟩ := Itemwise.exists_iff.mpr fun k w hw =>
        ArgumentShape.iff_argumentOf.mp (hargs k w hw)
      exact ⟨_, .directive name hargs⟩
  · rintro ⟨i, text | ⟨name, hargs⟩⟩
    · exact .literal text
    · refine .directive name fun k w hw => ?_
      exact ArgumentShape.iff_argumentOf.mpr (Itemwise.exists_iff.mp ⟨_, hargs⟩ k w hw)

/-- What has a fault has no shape. -/
theorem Compact.Fault.not_shape {v : Json} {fault : InstructionFault} (h : Fault v fault) :
    ¬InstructionShape v := by
  intro hshape
  obtain ⟨i, hi⟩ := InstructionShape.iff_instructionOf.mp hshape
  have hok := Instruction.ofCompact_eq_ok_iff.mpr hi
  rw [Instruction.ofCompact_eq_error_iff.mpr h] at hok
  cases hok

/-! ## Templates

The outer array is read by the same loop, with the index of the element as part of the error. -/

/-- The elements are read by the general loop; an error says which element and what is wrong with
it. -/
theorem Instruction.listOfCompact_eq_readItems {n : Nat} {vs : List Json} :
    Instruction.listOfCompact n vs = readItems (fun index v =>
      match Instruction.ofCompact v with
      | .error fault => .error (.invalidInstruction index fault)
      | .ok i => .ok i) n vs := by
  induction vs generalizing n with
  | nil => rfl
  | cons v vs ih =>
    rw [Instruction.listOfCompact, readItems, ih]
    cases Instruction.ofCompact v <;> rfl

theorem Instruction.listOfCompact_eq_ok_iff {vs : List Json} {instructions : List Instruction} :
    Instruction.listOfCompact 0 vs = .ok instructions ↔
      Itemwise (fun _ => InstructionOf) vs instructions := by
  rw [listOfCompact_eq_readItems, readItems_eq_ok_iff]
  refine Itemwise.congr fun k v i => ?_
  rw [← Instruction.ofCompact_eq_ok_iff]
  cases Instruction.ofCompact v <;> simp

/-- The fault of the first element without a shape is the error. -/
theorem Instruction.listOfCompact_eq_error_iff {vs : List Json} {e : RenderError} :
    Instruction.listOfCompact 0 vs = .error e ↔ ∃ index fault v,
      e = .invalidInstruction index fault ∧ vs[index]? = some v ∧ Fault v fault ∧
        ∀ j w, j < index → vs[j]? = some w → InstructionShape w := by
  have hread : ∀ w, InstructionShape w ↔ ∃ i, Instruction.ofCompact w = .ok i := by
    intro w
    simp only [InstructionShape.iff_instructionOf, Instruction.ofCompact_eq_ok_iff]
  rw [listOfCompact_eq_readItems, readItems_eq_error_iff]
  constructor
  · rintro ⟨index, v, hv, herror, hbefore⟩
    rw [Nat.zero_add] at herror
    split at herror
    · rename_i fault hfault
      obtain rfl := Except.error.inj herror
      refine ⟨index, fault, v, rfl, hv, ofCompact_eq_error_iff.mp hfault, fun j w hj hw => ?_⟩
      obtain ⟨i, hi⟩ := hbefore j w hj hw
      split at hi
      · cases hi
      · rename_i i' hok
        exact (hread w).mpr ⟨i', hok⟩
    · cases herror
  · rintro ⟨index, fault, v, rfl, hv, hfault, hbefore⟩
    refine ⟨index, v, hv, ?_, fun j w hj hw => ?_⟩
    · rw [Nat.zero_add, ofCompact_eq_error_iff.mpr hfault]
    · obtain ⟨i, hi⟩ := (hread w).mp (hbefore j w hj hw)
      rw [hi]
      exact ⟨i, rfl⟩

theorem Template.loadCompact_of_parse {source : String} {items : List Json}
    (h : Json.parse? source = some (.array items)) :
    loadCompact source = (Instruction.listOfCompact 0 items).map Template.mk := by
  rw [loadCompact, h]

/-- An array loads exactly if all its elements do, each as its own instruction. -/
theorem Template.loadCompact_eq_ok_iff {source : String} {items : List Json}
    (h : Json.parse? source = some (.array items)) {t : Template} :
    loadCompact source = .ok t ↔ Itemwise (fun _ => InstructionOf) items t.instructions := by
  rw [loadCompact_of_parse h, ← Instruction.listOfCompact_eq_ok_iff]
  cases Instruction.listOfCompact 0 items with
  | error e => simp [Except.map]
  | ok instructions =>
    cases t
    simp [Except.map]

/-- A text is malformed just if it is no array. -/
theorem Template.loadCompact_malformed_iff {source : String} :
    loadCompact source = .error .templateJson ↔
      ¬∃ items, Json.parse? source = some (.array items) := by
  constructor
  · rintro hmalformed ⟨items, h⟩
    rw [loadCompact_of_parse h] at hmalformed
    cases hlist : Instruction.listOfCompact 0 items with
    | ok instructions => simp [hlist, Except.map] at hmalformed
    | error e =>
      obtain ⟨index, fault, v, rfl, -⟩ := Instruction.listOfCompact_eq_error_iff.mp hlist
      simp [hlist, Except.map] at hmalformed
  · intro h
    rw [loadCompact]
    split
    · rename_i items hparse
      exact absurd ⟨items, hparse⟩ h
    · rfl

/-- **The compact form is exactly its grammar.** A text that is no array is malformed. An array
loads if all its elements are well-formed, each as the instruction it stands for; otherwise the
error is about the first element that is not, and says what is wrong with it. -/
theorem Template.loadCompact_exact (source : String) :
    (loadCompact source = .error .templateJson ↔
      ¬∃ items, Json.parse? source = some (.array items)) ∧
    ∀ items, Json.parse? source = some (.array items) →
      ((∃ t, loadCompact source = .ok t) ↔ ∀ v ∈ items, InstructionShape v) ∧
      (∀ t, loadCompact source = .ok t ↔
        Itemwise (fun _ => InstructionOf) items t.instructions) ∧
      ((∃ v ∈ items, ¬InstructionShape v) → ∃ index v fault,
        loadCompact source = .error (.invalidInstruction index fault) ∧ items[index]? = some v ∧
          Fault v fault ∧ ∀ j w, j < index → items[j]? = some w → InstructionShape w) := by
  refine ⟨loadCompact_malformed_iff, fun items hparse => ?_⟩
  have hloads : (∃ t, loadCompact source = .ok t) ↔ ∀ v ∈ items, InstructionShape v := by
    have hitems : (∃ t, loadCompact source = .ok t) ↔
        ∃ instructions, Itemwise (fun _ => InstructionOf) items instructions := by
      simp only [loadCompact_eq_ok_iff hparse]
      exact ⟨fun ⟨t, ht⟩ => ⟨t.instructions, ht⟩, fun ⟨instructions, h⟩ => ⟨⟨instructions⟩, h⟩⟩
    rw [hitems, Itemwise.exists_iff]
    simp only [← InstructionShape.iff_instructionOf]
    constructor
    · rintro h v hv
      obtain ⟨index, hindex⟩ := List.getElem?_of_mem hv
      exact h index v hindex
    · rintro h index v hindex
      exact h v (List.mem_of_getElem? hindex)
  refine ⟨hloads, fun t => loadCompact_eq_ok_iff hparse, fun hbad => ?_⟩
  obtain ⟨w, hw, hshape⟩ := hbad
  cases hlist : Instruction.listOfCompact 0 items with
  | ok instructions =>
    refine absurd (hloads.mp ⟨⟨instructions⟩, ?_⟩ w hw) hshape
    rw [loadCompact_of_parse hparse, hlist]
    rfl
  | error e =>
    obtain ⟨index, fault, v, rfl, hv, hfault, hbefore⟩ :=
      Instruction.listOfCompact_eq_error_iff.mp hlist
    refine ⟨index, v, fault, ?_, hv, hfault, hbefore⟩
    rw [loadCompact_of_parse hparse, hlist]
    rfl

/-- Text, then a variable in two filters, the second with a literal. -/
theorem Template.loadCompact_exact_filters :
    loadCompact "[\"a\", [\"var\", \"x.y\", [\"uppercase\"], [\"wrap\", true]]]" =
      .ok ⟨[.literal "a", .directive "var" [.path (.parse "x.y"), .filter ⟨"uppercase", []⟩,
        .filter ⟨"wrap", [.bool true]⟩]]⟩ := by
  have hparse : Json.parse? "[\"a\", [\"var\", \"x.y\", [\"uppercase\"], [\"wrap\", true]]]" =
      some (.array [.string "a", .array [.string "var", .string "x.y",
        .array [.string "uppercase"], .array [.string "wrap", .bool true]]]) := by cbv
  refine (((loadCompact_exact _).2 _ hparse).2.1 _).mpr ?_
  have hnil {α β : Type} {R : Nat → α → β → Prop} : Itemwise R [] [] := Itemwise.nil_iff.mpr rfl
  refine Itemwise.cons_iff.mpr ⟨.literal "a", Itemwise.cons_iff.mpr ⟨.directive "var" ?_, hnil⟩⟩
  refine Itemwise.cons_iff.mpr ⟨.dotted "x.y", Itemwise.cons_iff.mpr ⟨.filter 0 _ hnil, ?_⟩⟩
  refine Itemwise.cons_iff.mpr ⟨.filter 1 _ ?_, hnil⟩
  exact Itemwise.cons_iff.mpr ⟨.bool true, hnil⟩

end StreamingTemplate
