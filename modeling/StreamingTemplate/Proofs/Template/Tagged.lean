import StreamingTemplate.Template.Tagged
import StreamingTemplate.Proofs.Json.RoundTrip

/-!
# Templates in tagged form load as what was printed

The reader of the tagged form takes back every record that `toTagged` writes, so the tree of a
template is read as the template (`Template.ofTagged?_toTagged`). The records of the printed form
have few levels and hold no numbers but those of the literals, and a text of such a tree is read as
the tree. Together: a template whose numbers the reader of JSON takes back loads from its own text
(`Template.loadTagged_text`).
-/

namespace StreamingTemplate

/-! ## Records

Every part of a template is written as a record with its kind as the tag, and read by a function
that expects this record. The laws go up with the data, from literals to templates, each by cases
on the kinds of the data and with the laws of the parts. -/

/-- Items that are read one by one are read together. -/
theorem mapM_written {α : Type} {read : Json → Option α} {write : α → Json}
    (h : ∀ a, read (write a) = some a) (as : List α) : (as.map write).mapM read = some as := by
  induction as with
  | nil => rfl
  | cons a as ih => simp [h, ih]

/-- A literal keeps its kind and its value. -/
theorem Literal.ofJson?_toJson (v : Literal) : Literal.ofJson? v.toJson = some v := by
  cases v <;> rfl

/-- A path keeps its segments, whatever dots they hold. -/
theorem Path.ofJson?_toJson (p : Path) : Path.ofJson? p.toJson = some p := by
  have hsegments : (p.segments.map Json.string).mapM Json.string? = some p.segments :=
    mapM_written (fun _ : String => rfl) p.segments
  rw [Path.toJson, Path.ofJson?, hsegments]
  rfl

/-- A filter is written as a record with two named fields and is read back from them. -/
theorem FilterSpec.ofRecord?_named (f : FilterSpec) :
    FilterSpec.ofRecord? (.named [("name", .string f.name),
      ("args", .array (f.args.map Literal.toJson))]) = some f := by
  show (do
    let args ← (f.args.map Literal.toJson).mapM Literal.ofJson?
    return FilterSpec.mk f.name args) = some f
  rw [mapM_written Literal.ofJson?_toJson]
  rfl

/-- An argument is read back as the kind that it is: a literal text never becomes a path,
whatever it looks like, since the tag says which of the two was meant. -/
theorem Argument.ofTagged?_toTagged (a : Argument) : Argument.ofTagged? a.toTagged = some a := by
  cases a with
  | lit v =>
    show (do return Argument.lit (← Literal.ofJson? v.toJson)) = some (.lit v)
    rw [Literal.ofJson?_toJson]
    rfl
  | path p =>
    show (do return Argument.path (← Path.ofJson? p.toJson)) = some (.path p)
    rw [Path.ofJson?_toJson]
    rfl
  | filter f =>
    show (do
      return Argument.filter (← FilterSpec.ofRecord? (.named [("name", .string f.name),
        ("args", .array (f.args.map Literal.toJson))]))) = some (.filter f)
    rw [FilterSpec.ofRecord?_named]
    rfl

/-- An instruction is read back, with all its arguments in order. -/
theorem Instruction.ofTagged?_toTagged (i : Instruction) :
    Instruction.ofTagged? i.toTagged = some i := by
  cases i with
  | literal text => rfl
  | directive name args =>
    show (do
      let args ← (args.map Argument.toTagged).mapM Argument.ofTagged?
      return Instruction.directive name args) = some (.directive name args)
    rw [mapM_written Argument.ofTagged?_toTagged]
    rfl

/-- **The tree of a template** is read as the template. -/
theorem Template.ofTagged?_toTagged (t : Template) : Template.ofTagged? t.toTagged = some t := by
  show (do
    return Template.mk (← (t.instructions.map Instruction.toTagged).mapM Instruction.ofTagged?)) =
      some t
  rw [mapM_written Instruction.ofTagged?_toTagged]
  rfl

/-! ## The numbers in a template

That a number is read back from its own text is known of each number separately. To use it, the
numbers in the printed tree have to be those in the template, and these lemmas count them, level
by level. -/

/-- The numbers in a literal. -/
def Literal.numbers : Literal → List Binary64
  | .num x => [x]
  | _ => []

/-- The numbers in an argument. -/
def Argument.numbers : Argument → List Binary64
  | .lit v => v.numbers
  | .path _ => []
  | .filter f => f.args.flatMap Literal.numbers

/-- The numbers in an instruction. -/
def Instruction.numbers : Instruction → List Binary64
  | .literal _ => []
  | .directive _ args => args.flatMap Argument.numbers

/-- The numbers in a template. -/
def Template.numbers (t : Template) : List Binary64 := t.instructions.flatMap Instruction.numbers

/-- The numbers that are written for items are those of the items. -/
theorem numbersOfItems_map {α : Type} {write : α → Json} {numbers : α → List Binary64}
    (h : ∀ a, (write a).numbers = (numbers a).map .float) (as : List α) :
    Json.numbersOfItems (as.map write) = (as.flatMap numbers).map .float := by
  induction as with
  | nil => rfl
  | cons a as ih =>
    rw [List.map_cons, Json.numbersOfItems, h, ih, List.flatMap_cons, List.map_append]

theorem Literal.numbers_toJson (v : Literal) : v.toJson.numbers = v.numbers.map .float := by
  cases v <;> rfl

/-- Segments are written as texts, so a path holds no number, even if a segment looks like one. -/
theorem Path.numbers_toJson (p : Path) : p.toJson.numbers = [] := by
  have hsegment (segment : String) :
      (Json.string segment).numbers = ([] : List Binary64).map .float := rfl
  rw [Path.toJson, Json.numbers, numbersOfItems_map hsegment]
  simp

theorem Argument.numbers_toTagged (a : Argument) : a.toTagged.numbers = a.numbers.map .float := by
  cases a with
  | lit v => simp [toTagged, numbers, Json.numbers, Json.numbersOfFields, Literal.numbers_toJson]
  | path p => simp [toTagged, numbers, Json.numbers, Json.numbersOfFields, Path.numbers_toJson]
  | filter f =>
    simp [toTagged, numbers, Json.numbers, Json.numbersOfFields,
      numbersOfItems_map Literal.numbers_toJson]

theorem Instruction.numbers_toTagged (i : Instruction) :
    i.toTagged.numbers = i.numbers.map .float := by
  cases i with
  | literal text => simp [toTagged, numbers, Json.numbers, Json.numbersOfFields]
  | directive name args =>
    simp [toTagged, numbers, Json.numbers, Json.numbersOfFields,
      numbersOfItems_map Argument.numbers_toTagged]

theorem Template.numbers_toTagged (t : Template) : t.toTagged.numbers = t.numbers.map .float :=
  numbersOfItems_map Instruction.numbers_toTagged t.instructions

/-! ## The levels of a tagged form

The reader of JSON refuses documents that are nested too deeply. Tagged forms are not: a template
is a list of records, and the deepest of these, a directive with a filter among its arguments, has
four levels. -/

theorem nestingItems_map_le {α : Type} {write : α → Json} {levels : Nat}
    (h : ∀ a, (write a).nesting ≤ levels) (as : List α) :
    Json.nestingItems (as.map write) ≤ levels := by
  induction as with
  | nil => exact Nat.zero_le _
  | cons a as ih => exact Nat.max_le.mpr ⟨h a, ih⟩

theorem Literal.nesting_toJson (v : Literal) : v.toJson.nesting = 0 := by
  cases v <;> rfl

theorem Argument.nesting_toTagged_le (a : Argument) : a.toTagged.nesting ≤ 2 := by
  cases a with
  | lit v => simp [toTagged, Json.nesting, Json.nestingFields, Literal.nesting_toJson]
  | path p =>
    have hsegment (segment : String) : (Json.string segment).nesting ≤ 0 := Nat.le_refl 0
    have hsegments := nestingItems_map_le hsegment p.segments
    simp [toTagged, Path.toJson, Json.nesting, Json.nestingFields]
    omega
  | filter f =>
    have hargs := nestingItems_map_le (fun v => Nat.le_of_eq (Literal.nesting_toJson v)) f.args
    simp [toTagged, Json.nesting, Json.nestingFields]
    omega

theorem Instruction.nesting_toTagged_le (i : Instruction) : i.toTagged.nesting ≤ 4 := by
  cases i with
  | literal text => simp [toTagged, Json.nesting, Json.nestingFields]
  | directive name args =>
    have hargs := nestingItems_map_le Argument.nesting_toTagged_le args
    simp [toTagged, Json.nesting, Json.nestingFields]
    omega

/-- The tagged form stays far below the nesting that a document may have. -/
theorem Template.nesting_toTagged_lt (t : Template) : t.toTagged.nesting < Json.depthLimit := by
  have hinstructions := nestingItems_map_le Instruction.nesting_toTagged_le t.instructions
  rw [toTagged, Json.nesting, Json.depthLimit]
  omega

/-! ## Equal templates

Equality of templates is that of their data, with numbers compared as numbers. It is no equality
of structures: a literal that is no number at all would differ from itself, and this is where the
numbers have to be finite. -/

/-- Items are compared one by one, so a list is the same as itself if its items are. -/
theorem sameItems_self {α : Type} {same : α → α → Bool} {as : List α}
    (h : ∀ a ∈ as, same a a = true) : sameItems same as as = true := by
  induction as with
  | nil => rfl
  | cons a as ih =>
    rw [sameItems, h a List.mem_cons_self, ih fun b hb => h b (List.mem_cons_of_mem a hb)]
    rfl

/-- A literal is the same as itself, unless it is the number that is equal to none. -/
theorem Literal.same_self {v : Literal} (h : ∀ x ∈ v.numbers, x.isFinite = true) :
    v.same v = true := by
  cases v with
  | num x => exact Binary64.numEq_self (Binary64.isNaN_of_isFinite (h x List.mem_cons_self))
  | bool b => exact beq_self_eq_true b
  | str s => exact beq_self_eq_true s

theorem Argument.same_self {a : Argument} (h : ∀ x ∈ a.numbers, x.isFinite = true) :
    a.same a = true := by
  cases a with
  | lit v => exact Literal.same_self h
  | path p => exact beq_self_eq_true p
  | filter f =>
    have hargs : sameItems Literal.same f.args f.args = true :=
      sameItems_self fun v hv => Literal.same_self fun x hx =>
        h x (List.mem_flatMap.mpr ⟨v, hv, hx⟩)
    simp [same, FilterSpec.same, hargs]

theorem Instruction.same_self {i : Instruction} (h : ∀ x ∈ i.numbers, x.isFinite = true) :
    i.same i = true := by
  cases i with
  | literal text => exact beq_self_eq_true text
  | directive name args =>
    have hargs : sameItems Argument.same args args = true :=
      sameItems_self fun a ha => Argument.same_self fun x hx =>
        h x (List.mem_flatMap.mpr ⟨a, ha, hx⟩)
    simp [same, hargs]

theorem Template.same_self {t : Template} (h : ∀ x ∈ t.numbers, x.isFinite = true) :
    t.same t = true :=
  sameItems_self fun i hi => Instruction.same_self fun x hx =>
    h x (List.mem_flatMap.mpr ⟨i, hi, hx⟩)

/-! ## The round trip

The text of a tree is read as the tree if its numbers are read back and it is not too deep, and
the tree is read as the template. Both halves are above; the theorem puts them together. -/

/-- **Round trip.** A template of finite numbers loads from its tagged text, and what is loaded is
equal to it, if each of these numbers is read back from its own text. What is loaded is the same
data: literals keep their kinds, paths their segments. -/
theorem Template.loadTagged_text (t : Template) (hfinite : ∀ x ∈ t.numbers, x.isFinite = true)
    (hreads : ∀ x ∈ t.numbers, Json.parse? x.json = some (.number (.float x))) :
    loadTagged t.toTagged.text = .ok t ∧ t.same t = true := by
  have hnumbers : ∀ n ∈ t.toTagged.numbers, n.ReadsBack := by
    rw [numbers_toTagged]
    rintro n hn
    obtain ⟨x, hx, rfl⟩ := List.mem_map.mp hn
    rw [Json.Number.ReadsBack, Json.Number.text, if_pos (hfinite x hx)]
    exact hreads x hx
  have hparse := Json.parse?_text hnumbers t.nesting_toTagged_lt
  refine ⟨?_, same_self hfinite⟩
  rw [loadTagged, hparse, Option.bind_some, ofTagged?_toTagged]

/-- A template whose paths have dots in a segment, empty segments or none, and whose literals look
like literals of other kinds. -/
def Template.intricate : Template :=
  ⟨[.literal "a \"quoted\"\n\x01line",
    .directive "var" [.path ⟨["a.b", "", "c"]⟩, .lit (.str "true"), .lit (.bool true),
      .filter ⟨"wrap", [.str "1.0", .num (.ofInt 1), .num (.zero true)]⟩],
    .directive "emit" [.path ⟨[]⟩, .path ⟨[""]⟩, .lit (.num (.ofRatio true 1 10))]]⟩

theorem Template.loadTagged_intricate :
    loadTagged intricate.toTagged.text = .ok intricate ∧ intricate.same intricate = true := by
  refine loadTagged_text intricate (by decide) fun x hx => ?_
  have hnumbers : intricate.numbers = [.ofInt 1, .zero true, .ofRatio true 1 10] := rfl
  simp only [hnumbers, List.mem_cons, List.not_mem_nil, or_false] at hx
  obtain rfl | rfl | rfl := hx
  · rfl
  · rfl
  · rfl

end StreamingTemplate
