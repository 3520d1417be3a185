import StreamingTemplate.Proofs.Path
import StreamingTemplate.Proofs.Template.Compact

/-!
# How a path is spelled does not matter

A path stands in a template text as a dotted text or as the array of its segments. The two forms of
templates read it at different places: the compact form as the first argument of a directive, the
tagged form in the field `path` of an argument that is tagged as a path. `PathPlace` collects these
places, each as a document with a hole and the indices of the argument that the hole belongs to.

A document loads as the same whatever spelling is put into the hole (`PathPlace.load_eq`), and the
path ends up as the argument of the place (`PathPlace.argument_of_load`). `dotted_segments` puts it
together with what a dotted text stands for.
-/

namespace StreamingTemplate

/-! ## The two spellings

A path is read from a text or from an array of texts, by the same reader in both forms of
templates. What it stands for is the same if the array has the segments of the text. -/

/-- The segments of a path are read as the path. -/
theorem Path.ofJson?_segments (segments : List String) :
    Path.ofJson? (.array (segments.map .string)) = some ⟨segments⟩ := by
  rw [Path.ofJson?, mapM_string_eq_some_iff.mpr rfl]
  rfl

/-- What the reader of paths takes is a path to the compact form, as a first argument. -/
theorem Argument.ofCompact?_path {v : Json} {p : Path} (h : Path.ofJson? v = some p) :
    Argument.ofCompact? 0 v = some (.path p) := by
  cases v with
  | string s =>
    cases h
    rfl
  | array items =>
    obtain ⟨segments, hsegments, rfl⟩ := Option.map_eq_some_iff.mp h
    rw [Argument.ofCompact?, hsegments]
    rfl
  | null | bool | number | object => cases h

/-! ## Records with a hole

In the tagged form the path is the value of a field, and the fields of a record may come in any
order. A record with a hole is cut at the field of the hole; that the name is not repeated makes
the lookup find it. -/

namespace Json

variable {before after : List (String × Json)} {key name : String} {v tag : Json} {position : Nat}

/-- The field of the hole is there if its name is not repeated. -/
theorem Record.field?_hole (hunique : ∀ f ∈ before ++ after, f.1 ≠ key) :
    field? key position (.named (before ++ (key, v) :: after)) = some (some v) := by
  have hbefore : before.filter (·.1 == key) = [] := by
    simpa using fun k w hf => hunique (k, w) (List.mem_append_left _ hf)
  have hafter : after.filter (·.1 == key) = [] := by
    simpa using fun k w hf => hunique (k, w) (List.mem_append_right _ hf)
  simp [field?, hbefore, hafter]

/-- Fields of other names do not depend on the hole. -/
theorem Record.field?_hole_of_ne (hne : name ≠ key) :
    field? name position (.named (before ++ (key, v) :: after)) =
      field? name position (.named (before ++ after)) := by
  simp [field?, Ne.symm hne]

/-- The fields of a record besides its tag. -/
def untagged (fields : List (String × Json)) : List (String × Json) :=
  fields.filter (·.1 != "t")

/-- The tag of a record is looked for among all its fields, and what is left keeps the hole. -/
theorem tagged?_hole (hkey : key ≠ "t")
    (htag : (before ++ after).filter (·.1 == "t") = [("t", tag)]) :
    tagged? (.object (before ++ (key, v) :: after)) =
      some (tag, .named (untagged before ++ (key, v) :: untagged after)) := by
  have hfilter : (before ++ (key, v) :: after).filter (·.1 == "t") = [("t", tag)] := by
    rw [← htag]
    simp [hkey]
  rw [tagged?, hfilter]
  simp [untagged, hkey]

theorem untagged_ne (hunique : ∀ f ∈ before ++ after, f.1 ≠ key) :
    ∀ f ∈ untagged before ++ untagged after, f.1 ≠ key := by
  rw [untagged, untagged, ← List.filter_append]
  exact fun f hf => hunique f (List.mem_filter.mp hf).1

end Json

/-! ## Where a path is read

The places are data: a function from what is put into the hole to the document, with the indices
at which the argument is found in the template. One constructor for each way of writing it. -/

/-- An argument of the tagged form with a hole in the place of its path: a field by name, or the one
value of a listed record. -/
inductive Tagged.ArgumentPlace : (Json → Json) → Prop
  | named {before after : List (String × Json)} {tag : Json}
    (hkind : Argument.kind? tag = some "Path")
    (htag : (before ++ after).filter (·.1 == "t") = [("t", tag)])
    (hunique : ∀ f ∈ before ++ after, f.1 ≠ "path") :
    ArgumentPlace fun path => .object (before ++ ("path", path) :: after)
  | listed {tag : Json} (hkind : Argument.kind? tag = some "Path") :
    ArgumentPlace fun path => .array [tag, path]

/-- A directive of the tagged form with a hole in the place of its arguments. -/
inductive Tagged.DirectivePlace : (Json → Json) → Prop
  | named {before after : List (String × Json)}
    (htag : (before ++ after).filter (·.1 == "t") = [("t", .string "Directive")])
    (hunique : ∀ f ∈ before ++ after, f.1 ≠ "args") :
    DirectivePlace fun args => .object (before ++ ("args", args) :: after)
  | listed (name : Json) : DirectivePlace fun args => .array [.string "Directive", name, args]

/-- A document with a hole where a path is read, in either form, with the index of the instruction
and the position of the argument. -/
inductive PathPlace : Template.Form → (Json → Json) → Nat → Nat → Prop
  | compact (before : List Json) (name : String) (rest after : List Json) :
    PathPlace .compact
      (fun path => .array (before ++ .array (.string name :: path :: rest) :: after))
      before.length 0
  | tagged {argument directive : Json → Json} (hargument : Tagged.ArgumentPlace argument)
    (hdirective : Tagged.DirectivePlace directive) (before argsBefore argsAfter after : List Json) :
    PathPlace .tagged
      (fun path => .array
        (before ++ directive (.array (argsBefore ++ argument path :: argsAfter)) :: after))
      before.length argsBefore.length

/-- An argument whose tag names a path is read by its field `path`. -/
theorem Argument.ofTagged?_path {v tag w : Json} {r : Json.Record}
    (hv : v.tagged? = some (tag, r)) (hkind : Argument.kind? tag = some "Path")
    (hfits : r.fits 1 = true) (hfield : r.field? "path" 0 = some (some w)) :
    Argument.ofTagged? v = (Path.ofJson? w).map .path := by
  rw [Argument.ofTagged?, hv]
  simp only [Option.bind_eq_bind, Option.bind_some, hkind, hfits, Json.Record.required?, hfield]
  cases Path.ofJson? w <;> rfl

/-- A directive is read by its field `args`, if it has a proper name. -/
theorem Instruction.ofTagged?_directive {v : Json} {items : List Json} {r : Json.Record}
    (hv : v.tagged? = some (.string "Directive", r)) (hfits : r.fits 2 = true)
    (hargs : r.field? "args" 1 = some (some (.array items))) :
    Instruction.ofTagged? v = ((r.required? "name" 0).bind Json.string?).bind fun name =>
      (items.mapM Argument.ofTagged?).map (.directive name) := by
  have hitems : r.args? 1 Argument.ofTagged? = items.mapM Argument.ofTagged? := by
    rw [Json.Record.args?, hargs]
    rfl
  have hread : Instruction.ofTagged? v = (do
      guard (r.fits 2)
      let name ← (← r.required? "name" 0).string?
      let args ← r.args? 1 Argument.ofTagged?
      return Instruction.directive name args) := by
    rw [Instruction.ofTagged?, hv]
    rfl
  rw [hread, hitems]
  cases hname : r.required? "name" 0 with
  | none => simp
  | some w => cases w.string? <;> cases items.mapM Argument.ofTagged? <;> simp [hfits]

/-- The argument at a place of the tagged form is the path in the hole. -/
theorem Tagged.ArgumentPlace.ofTagged? {argument : Json → Json} (h : ArgumentPlace argument)
    {v : Json} {p : Path} (hv : Path.ofJson? v = some p) :
    Argument.ofTagged? (argument v) = some (.path p) := by
  cases h with
  | named hkind htag hunique =>
    rw [Argument.ofTagged?_path (Json.tagged?_hole (by decide) htag) hkind rfl
      (Json.Record.field?_hole (Json.untagged_ne hunique)), hv]
    rfl
  | listed hkind =>
    rw [Argument.ofTagged?_path rfl hkind rfl rfl, hv]
    rfl

/-- The directive at a place of the tagged form is read by its arguments, or whatever they are it
has no proper name. -/
theorem Tagged.DirectivePlace.ofTagged? {directive : Json → Json} (h : DirectivePlace directive) :
    ∃ name : Option String, ∀ items, Instruction.ofTagged? (directive (.array items)) =
      name.bind fun name => (items.mapM Argument.ofTagged?).map (.directive name) := by
  cases h with
  | @named before after htag hunique =>
    let rest := Json.untagged before ++ Json.untagged after
    refine ⟨(Json.Record.required? "name" 0 (.named rest)).bind Json.string?, fun items => ?_⟩
    rw [Instruction.ofTagged?_directive (Json.tagged?_hole (by decide) htag) rfl
      (Json.Record.field?_hole (Json.untagged_ne hunique)), Json.Record.required?,
      Json.Record.field?_hole_of_ne (by decide)]
    rfl
  | listed name =>
    refine ⟨name.string?, fun items => ?_⟩
    rw [Instruction.ofTagged?_directive (r := .listed [name, .array items]) rfl rfl rfl]
    rfl

/-! ## Documents with a hole

Readers go through lists of instructions and arguments. If what they read at the hole is the same
for two spellings, so is what they read of the lists. -/

theorem Itemwise.exists_of_getElem? {α β : Type} {R : Nat → α → β → Prop} {as : List α}
    {bs : List β} (h : Itemwise R as bs) {k : Nat} {a : α} (ha : as[k]? = some a) :
    ∃ b, bs[k]? = some b ∧ R k a b := by
  obtain ⟨hlength, hitems⟩ := h
  obtain ⟨hk, -⟩ := List.getElem?_eq_some_iff.mp ha
  have hb : bs[k]? = some bs[k] := List.getElem?_eq_getElem (hlength ▸ hk)
  exact ⟨bs[k], hb, hitems k a _ ha hb⟩

/-- The hole is where the items in front of it end. -/
theorem getElem?_hole {α : Type} (before : List α) (a : α) (after : List α) :
    (before ++ a :: after)[before.length]? = some a := by
  simp

/-- A list is read alike if its item in the hole is. -/
theorem mapM_hole {α β : Type} {read : α → Option β} {a b : α} (h : read a = read b)
    (before after : List α) :
    (before ++ a :: after).mapM read = (before ++ b :: after).mapM read := by
  simp [h]

theorem Instruction.listOfCompact_hole {v w : Json}
    (h : Instruction.ofCompact v = Instruction.ofCompact w) (before after : List Json) (n : Nat) :
    Instruction.listOfCompact n (before ++ v :: after) =
      Instruction.listOfCompact n (before ++ w :: after) := by
  induction before generalizing n with
  | nil => simp only [List.nil_append, listOfCompact, h]
  | cons first before ih => simp only [List.cons_append, listOfCompact, ih]

/-- Loading a tagged document is reading its tree. -/
theorem Template.loadTagged_of_parse {source : String} {items : List Json}
    (h : Json.parse? source = some (.array items)) :
    loadTagged source = match items.mapM Instruction.ofTagged? with
      | some instructions => .ok ⟨instructions⟩
      | none => .error .templateJson := by
  have hread : ofTagged? (.array items) = (items.mapM Instruction.ofTagged?).map Template.mk := by
    show (do return Template.mk (← items.mapM Instruction.ofTagged?)) = _
    cases items.mapM Instruction.ofTagged? <;> rfl
  rw [loadTagged, h, Option.bind_some, hread]
  cases items.mapM Instruction.ofTagged? <;> rfl

variable {form : Template.Form} {place : Json → Json} {index position : Nat} {v w : Json} {p : Path}
  {a b : String}

/-- The spelling of the path does not show in what is loaded. -/
theorem PathPlace.load_eq (h : PathPlace form place index position)
    (hv : Path.ofJson? v = some p) (hw : Path.ofJson? w = some p)
    (ha : Json.parse? a = some (place v)) (hb : Json.parse? b = some (place w)) :
    Template.load form a = Template.load form b := by
  cases h with
  | compact before name rest after =>
    have hdirective : Instruction.ofCompact (.array (.string name :: v :: rest)) =
        Instruction.ofCompact (.array (.string name :: w :: rest)) := by
      simp only [Instruction.ofCompact_directive, Argument.listOfCompact,
        Argument.ofCompact?_path hv, Argument.ofCompact?_path hw]
    show Template.loadCompact a = Template.loadCompact b
    rw [Template.loadCompact_of_parse ha, Template.loadCompact_of_parse hb,
      Instruction.listOfCompact_hole hdirective]
  | tagged hargument hdirective before argsBefore argsAfter after =>
    obtain ⟨name, hread⟩ := hdirective.ofTagged?
    have hargs := mapM_hole ((hargument.ofTagged? hv).trans (hargument.ofTagged? hw).symm)
      argsBefore argsAfter
    have hinstructions := mapM_hole ((hread _).trans (hargs ▸ (hread _).symm)) before after
    show Template.loadTagged a = Template.loadTagged b
    rw [Template.loadTagged_of_parse ha, Template.loadTagged_of_parse hb, hinstructions]

/-- The path ends up as the argument of the place. -/
theorem PathPlace.argument_of_load (h : PathPlace form place index position)
    (hv : Path.ofJson? v = some p) (ha : Json.parse? a = some (place v)) {t : Template}
    (ht : Template.load form a = .ok t) :
    ∃ name args, t.get? index = some (.directive name args) ∧ args[position]? = some (.path p) := by
  cases h with
  | compact before name rest after =>
    have hitems := (Template.loadCompact_eq_ok_iff ha).mp ht
    obtain ⟨i, hi, hdirective⟩ := hitems.exists_of_getElem? (getElem?_hole before _ after)
    cases hdirective with
    | @directive _ _ args hargs =>
      obtain ⟨argument, hargument, hread⟩ := hargs.exists_of_getElem? (k := 0) rfl
      rw [← Argument.ofCompact?_eq_some_iff, Argument.ofCompact?_path hv] at hread
      exact ⟨name, args, hi, hread ▸ hargument⟩
  | @tagged argument directive hargument hdirective before argsBefore argsAfter after =>
    change Template.loadTagged a = .ok t at ht
    rw [Template.loadTagged_of_parse ha] at ht
    split at ht
    · rename_i instructions hinstructions
      obtain rfl := Except.ok.inj ht
      obtain ⟨i, hi, hread⟩ := (mapM_eq_some_iff.mp hinstructions).exists_of_getElem?
        (getElem?_hole before _ after)
      obtain ⟨name, hdirective⟩ := hdirective.ofTagged?
      rw [hdirective] at hread
      obtain ⟨name, -, hread⟩ := Option.bind_eq_some_iff.mp hread
      obtain ⟨args, hargs, rfl⟩ := Option.map_eq_some_iff.mp hread
      obtain ⟨arg, harg, hread⟩ := (mapM_eq_some_iff.mp hargs).exists_of_getElem?
        (getElem?_hole argsBefore _ argsAfter)
      rw [hargument.ofTagged? hv] at hread
      exact ⟨name, args, hi, Option.some.inj hread ▸ harg⟩
    · cases ht

/-! ## Dotted texts and segments

The correspondence of texts and plain paths is about paths alone; that both spellings load alike
is about the places. The statement has both, and the loading at every place of either form. -/

/-- **Dotted texts and segments are inverse.** A text stands for a path with at least one segment
and no dot inside one, whose text it is; every such path is read back from its text; so texts and
plain paths correspond one to one. Both spellings are read as the same path, alone and wherever one
of the forms of templates reads a path. -/
theorem dotted_segments :
    (∀ s, (Path.parse s).Plain ∧ (Path.parse s).text = s) ∧
    (∀ segments : List String, segments ≠ [] → (∀ segment ∈ segments, '.' ∉ segment.toList) →
      (Path.parse (Path.text ⟨segments⟩)).segments = segments) ∧
    Set.BijOn Path.parse Set.univ {p | p.Plain} ∧
    ∀ s, let listed := Json.array ((Path.parse s).segments.map .string)
      (∀ v ∈ [.string s, listed], Path.ofJson? v = some (Path.parse s) ∧
        Argument.ofCompact? 0 v = some (.path (Path.parse s))) ∧
      ∀ {form place index position a b}, PathPlace form place index position →
        Json.parse? a = some (place (.string s)) → Json.parse? b = some (place listed) →
        Template.load form a = Template.load form b ∧
          ∀ t, Template.load form a = .ok t → ∃ name args,
            t.get? index = some (.directive name args) ∧
              args[position]? = some (.path (Path.parse s)) := by
  refine ⟨fun s => ⟨Path.plain_parse s, Path.text_parse s⟩, fun segments hne hdots => ?_,
    Path.parse_bijOn, fun s => ⟨fun v hv => ?_, ?_⟩⟩
  · rw [Path.parse_text ⟨hne, hdots⟩]
  · have hread : Path.ofJson? v = some (Path.parse s) := by
      simp only [List.mem_cons, List.not_mem_nil, or_false] at hv
      obtain rfl | rfl := hv
      · rfl
      · exact Path.ofJson?_segments _
    exact ⟨hread, Argument.ofCompact?_path hread⟩
  · intro form place index position a b hplace ha hb
    exact ⟨hplace.load_eq rfl (Path.ofJson?_segments _) ha hb,
      fun t ht => hplace.argument_of_load rfl ha ht⟩

/-- A path with empty segments at both ends and in the middle. -/
def Path.gapped : Path := ⟨["", "a", "", "b", ""]⟩

/-- A directive with this path. -/
def Template.gapped : Template := ⟨[.directive "var" [.path Path.gapped]]⟩

/-- The path in both spellings, in a document of each form. -/
theorem dotted_segments_gapped :
    (Path.parse Path.gapped.text).segments = Path.gapped.segments ∧
    Template.load .compact "[[\"var\",\".a..b.\"]]" = .ok Template.gapped ∧
    Template.load .compact "[[\"var\",\".a..b.\"]]" =
      Template.load .compact "[[\"var\",[\"\",\"a\",\"\",\"b\",\"\"]]]" ∧
    Template.load .tagged "[[\"Directive\",\"var\",[\x7b\"t\":\"Path\",\"path\":\".a..b.\"\x7d]]]" =
      Template.load .tagged
        "[[\"Directive\",\"var\",[\x7b\"t\":\"Path\",\"path\":[\"\",\"a\",\"\",\"b\",\"\"]\x7d]]]" ∧
    Template.load .tagged "[[\"Directive\",\"var\",[\x7b\"t\":\"Path\",\"path\":\".a..b.\"\x7d]]]" =
      .ok Template.gapped := by
  refine ⟨?_, by cbv, ?_, ?_, by cbv⟩
  · exact dotted_segments.2.1 ["", "a", "", "b", ""] (by decide) (by decide)
  · exact ((dotted_segments.2.2.2 ".a..b.").2 (.compact [] "var" [] []) (by cbv) (by cbv)).1
  · have hargument : Tagged.ArgumentPlace fun v => .object [("t", .string "Path"), ("path", v)] :=
      @Tagged.ArgumentPlace.named [("t", .string "Path")] [] _ rfl rfl (by decide)
    have hplace := PathPlace.tagged hargument (.listed (.string "var")) [] [] [] []
    exact ((dotted_segments.2.2.2 ".a..b.").2 hplace (by cbv) (by cbv)).1

end StreamingTemplate
