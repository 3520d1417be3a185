import StreamingTemplate.Engine.Directive
import StreamingTemplate.Blocks
import StreamingTemplate.Proofs.Filter.Text

/-!
# The walk through a template

With the built-in directives and filters, and with variables that do not change meanwhile, a render
does nothing but walk through its instructions. `walk` is this walk as a function of the
instructions, by recursion on them: what it emits, where it halts, and why.

* `Place` is the position of a walk: the cursor, the open blocks and the skip state.
* `Place.directive` says what a directive does at a place, up to the question it asks, and
  `Question.answer` what it does with the value.
* `walk_extend` compares two walks of which the second knows more variables: it is the first one,
  continued with the value that the first one lacks.
-/

namespace StreamingTemplate

/-- Where a walk is. -/
structure Place where
  /-- the index of the next instruction -/
  cursor : Nat := 0
  blocks : BlockStack := {}
  skip : SkipState := .notSkipping

/-- What a directive wants a value for. -/
inductive Question where
  /-- to show its block or not -/
  | condition
  /-- to emit its text through filters -/
  | shown (filters : List TextFilter)

/-- What a directive does where it is reached. -/
inductive Reached where
  /-- the walk goes on -/
  | passed (place : Place)
  /-- a value is asked for -/
  | asks (place : Place) (path : Path) (question : Question)
  | fails (place : Place) (err : RenderError)

namespace Place

/-- The place behind an instruction that has no effect on the blocks. -/
def next (p : Place) : Place := { p with cursor := p.cursor + 1 }

/-- The place behind the opening of a block. -/
def opened (p : Place) : Place := { p.next with blocks := p.blocks.push p.cursor }

/-- The place with everything suppressed up to the close of the current block. -/
def skipped (p : Place) : Place := { p with skip := .since p.blocks.depth }

/-- What a built-in directive does at a place. -/
def directive (p : Place) (name : String) (args : List Argument) : Reached :=
  if name = "var" then
    if p.skip.isSkipping then .passed p.next
    else
      match pathArg "var" args 0, (TextFilter.registry id).stages (filterSpecs args) with
      | .error err, _ | .ok _, .error err => .fails p.next err
      | .ok path, .ok filters => .asks p.next path (.shown filters)
  else if name = "endif" then
    match p.blocks.pop? with
    | none => .fails p.next (.unbalancedBlock p.cursor)
    | some (_, blocks) =>
      .passed { p.next with blocks, skip := p.skip.afterClose blocks.depth }
  else if name = "if" then
    if p.skip.isSkipping then .passed p.opened
    else
      match pathArg "if" args 0 with
      | .error err => .fails p.opened err
      | .ok path => .asks p.opened path .condition
  else .fails p.next (.unknownDirective name p.cursor)

end Place

/-- The text that is emitted for a value, and the place behind; a stream has no text of its own. -/
def Question.answer (value : Value) (place : Place) : Question → Option (List String × Place)
  | .condition => some ([], if value.isTruthy then place else place.skipped)
  | .shown filters =>
    match value with
    | .stream _ => none
    | value => some (TextFilter.transformAll filters [value.text], place)

/-- Why a walk has come to a halt. -/
inductive Halt where
  /-- there is no further instruction -/
  | done
  /-- a value is not there yet -/
  | waits (path : Path) (directive : Nat) (question : Question)
  | fails (err : RenderError)
  /-- a value to be shown is a stream -/
  | streams

/-- What a walk has come to. -/
structure Walk where
  /-- the chunks emitted on the way -/
  chunks : List String
  place : Place
  halt : Halt

namespace Walk

/-- The walk with some chunks emitted before. -/
def after (chunks : List String) (w : Walk) : Walk := { w with chunks := chunks ++ w.chunks }

@[simp] theorem chunks_after (chunks : List String) (w : Walk) :
    (w.after chunks).chunks = chunks ++ w.chunks := rfl

@[simp] theorem place_after (chunks : List String) (w : Walk) :
    (w.after chunks).place = w.place := rfl

@[simp] theorem halt_after (chunks : List String) (w : Walk) :
    (w.after chunks).halt = w.halt := rfl

/-- Chunks emitted before are put in front, part by part. -/
theorem after_after (first second : List String) (w : Walk) :
    (w.after second).after first = w.after (first ++ second) := by
  rw [after, after, after, List.append_assoc]

end Walk

/-- The walk behind an answered question. -/
def Question.onward (value : Value) (place : Place) (question : Question)
    (rest : Place → Walk) : Walk :=
  match question.answer value place with
  | none => ⟨[], place, .streams⟩
  | some (chunks, place) => (rest place).after chunks

/-- A condition emits nothing, and the walk goes on with the block shown or hidden. -/
theorem Question.onward_condition (value : Value) (place : Place) (rest : Place → Walk) :
    Question.condition.onward value place rest =
      rest (if value.isTruthy then place else place.skipped) := rfl

/-- A value with a text of its own is emitted through its filters, and the walk goes on behind
it. -/
theorem Question.onward_shown {value : Value} (h : ∀ id, value ≠ .stream id) (place : Place)
    (filters : List TextFilter) (rest : Place → Walk) :
    (Question.shown filters).onward value place rest =
      (rest place).after (TextFilter.transformAll filters [value.text]) := by
  cases value with
  | stream id => exact absurd rfl (h id)
  | _ => rfl

/-- The walk through instructions, of which the first is at the cursor. -/
def walk (look : Path → Option Value) (p : Place) : List Instruction → Walk
  | [] => ⟨[], p, .done⟩
  | .literal text :: rest =>
    (walk look p.next rest).after (if p.skip.isSkipping then [] else [text])
  | .directive name args :: rest =>
    match p.directive name args with
    | .passed place => walk look place rest
    | .fails place err => ⟨[], place, .fails err⟩
    | .asks place path question =>
      match look path with
      | none => ⟨[], place, .waits path p.cursor question⟩
      | some value => question.onward value place fun place => walk look place rest

/-- A directive that asks in vain halts the walk. The place is behind the directive, and the
index that is kept is that of the directive itself. -/
theorem walk_asks_none {look : Path → Option Value} {p place : Place} {name : String}
    {args : List Argument} {path : Path} {question : Question}
    (hasks : p.directive name args = .asks place path question) (hvalue : look path = none)
    (rest : List Instruction) :
    walk look p (.directive name args :: rest) = ⟨[], place, .waits path p.cursor question⟩ := by
  simp only [walk, hasks, hvalue]

/-- A directive whose question has an answer lets the walk go on with it. -/
theorem walk_asks_some {look : Path → Option Value} {p place : Place} {name : String}
    {args : List Argument} {path : Path} {question : Question} {value : Value}
    (hasks : p.directive name args = .asks place path question) (hvalue : look path = some value)
    (rest : List Instruction) :
    walk look p (.directive name args :: rest) =
      question.onward value place fun place => walk look place rest := by
  simp only [walk, hasks, hvalue]

/-! ## Questions

What a walk asks for is written in the template: the first argument of the directive. The lemmas
read this off `Place.directive`, so that facts about questions are facts about instructions. -/

/-- The directives that ask. -/
inductive Question.AskedBy : String → List Argument → Path → Question → Prop where
  | condition {args path} (hpath : pathArg "if" args 0 = .ok path) :
      AskedBy "if" args path .condition
  | shown {args path filters} (hpath : pathArg "var" args 0 = .ok path)
      (hfilters : (TextFilter.registry id).stages (filterSpecs args) = .ok filters) :
      AskedBy "var" args path (.shown filters)

/-- What is asked for is the first argument of an `if` or a `var`. -/
theorem Question.AskedBy.first {name : String} {args : List Argument} {path : Path}
    {question : Question} (h : question.AskedBy name args path) :
    (name = "if" ∨ name = "var") ∧ pathArg name args 0 = .ok path := by
  cases h with
  | condition hpath => exact ⟨.inl rfl, hpath⟩
  | shown hpath _ => exact ⟨.inr rfl, hpath⟩

/-- The place where a directive leaves a walk. -/
def Reached.place : Reached → Place
  | .passed place | .asks place _ _ | .fails place _ => place

namespace Place

/-- Every directive leaves the walk behind itself, whether it goes on, asks or fails. -/
theorem cursor_directive (p : Place) (name : String) (args : List Argument) :
    (p.directive name args).place.cursor = p.cursor + 1 := by
  unfold directive
  split
  · split
    · rfl
    · split <;> rfl
  · split
    · split <;> rfl
    · split
      · split
        · rfl
        · split <;> rfl
      · rfl

/-- A question comes from a directive that asks, with its first argument as the path. -/
theorem directive_eq_asks {p q : Place} {name : String} {args : List Argument} {path : Path}
    {question : Question} (h : p.directive name args = .asks q path question) :
    question.AskedBy name args path := by
  unfold directive at h
  split at h
  · subst name
    split at h
    · cases h
    · split at h
      · cases h
      · cases h
      · rename_i hpath hfilters
        obtain ⟨-, rfl, rfl⟩ := Reached.asks.inj h
        exact .shown hpath hfilters
  · split at h
    · split at h <;> cases h
    · split at h
      · subst name
        split at h
        · cases h
        · split at h
          · cases h
          · rename_i hpath
            obtain ⟨-, rfl, rfl⟩ := Reached.asks.inj h
            exact .condition hpath
      · cases h

end Place

/-- What has a text of its own is answered with what the filters make of it. -/
theorem Question.answer_shown_eq_some {value : Value} {place place' : Place}
    {filters : List TextFilter} {chunks : List String}
    (h : (Question.shown filters).answer value place = some (chunks, place')) :
    (∀ id, value ≠ .stream id) ∧ chunks = TextFilter.transformAll filters [value.text] ∧
      place' = place := by
  cases value with
  | stream id => cases h
  | _ =>
    obtain ⟨rfl, rfl⟩ := Prod.mk.inj (Option.some.inj h)
    exact ⟨nofun, rfl, rfl⟩

/-- An answer moves no cursor; it can only suppress output from here on. -/
theorem Question.cursor_answer {value : Value} {place place' : Place} {question : Question}
    {chunks : List String} (h : question.answer value place = some (chunks, place')) :
    place'.cursor = place.cursor := by
  cases question with
  | condition =>
    obtain ⟨-, rfl⟩ := Prod.mk.inj (Option.some.inj h)
    split <;> rfl
  | shown filters =>
    obtain ⟨-, -, rfl⟩ := answer_shown_eq_some h
    rfl

/-! ## More variables

Variables arrive while a render waits. `walk_extend` says that a walk need not be repeated then:
with more variables it takes the same steps up to the question it had halted at, and goes on from
there. This is the step by which the arrival of variables one at a time comes to the same as all
of them at once. -/

/-- A halted walk continued, through the instructions behind it, with the value that it waits for.
-/
def Walk.resume (look : Path → Option Value) (rest : List Instruction) (w : Walk) : Walk :=
  match w.halt with
  | .waits path _ question =>
    match look path with
    | none => w
    | some value =>
      (question.onward value w.place fun place => walk look place rest).after w.chunks
  | _ => w

/-- Resuming adds at the end, so chunks emitted before stay in front. -/
theorem Walk.resume_after (look : Path → Option Value) (rest : List Instruction)
    (chunks : List String) (w : Walk) :
    (w.after chunks).resume look rest = (w.resume look rest).after chunks := by
  obtain ⟨chunks', place, halt⟩ := w
  cases halt with
  | waits path directive question =>
    simp only [resume, after]
    split <;> simp
  | _ => rfl

/-- What is at a position of a list, and what is behind it. -/
theorem getElem?_of_drop {α : Type} {l rest : List α} {index : Nat} {a : α}
    (h : l.drop index = a :: rest) : l[index]? = some a ∧ l.drop (index + 1) = rest := by
  refine ⟨?_, ?_⟩
  · rw [← List.head?_drop, h]
    rfl
  · rw [← List.drop_drop, h]
    rfl

/-- **Knowing more.** A walk that knows more variables is the walk that knows less, resumed. By
induction on the instructions: where both know the value they go on alike, and where only the
second does, the first has halted and `Walk.resume` gives it what it lacks. -/
theorem walk_extend {look look' : Path → Option Value}
    (hlook : ∀ path value, look path = some value → look' path = some value)
    {all instructions : List Instruction} {p : Place} (hall : all.drop p.cursor = instructions) :
    walk look' p instructions = (walk look p instructions).resume look'
      (all.drop (walk look p instructions).place.cursor) := by
  induction instructions generalizing p with
  | nil => rfl
  | cons instruction rest ih =>
    obtain ⟨-, hrest⟩ := getElem?_of_drop hall
    cases instruction with
    | literal text =>
      simp only [walk, Walk.resume_after, Walk.place_after]
      rw [ih (p := p.next) hrest]
    | directive name args =>
      have hcursor := p.cursor_directive name args
      simp only [walk]
      rcases hreach : p.directive name args with place | ⟨place, path, question⟩ | ⟨place, err⟩ <;>
        rw [hreach] at hcursor <;> change place.cursor = _ at hcursor
      · exact ih (hcursor ▸ hrest)
      · rcases hvalue : look path with _ | value
        -- the walk that knows less halts here, and its continuation asks the same question again
        · simp only [hvalue, Walk.resume, hcursor, hrest]
          rcases look' path with _ | value <;> rfl
        · simp only [hvalue, hlook path value hvalue, Question.onward]
          rcases hanswer : question.answer value place with _ | ⟨chunks, place'⟩
          · rfl
          · have hplace : all.drop place'.cursor = rest := by
              rw [Question.cursor_answer hanswer, hcursor, hrest]
            simp only [Walk.resume_after, Walk.place_after]
            rw [ih hplace]
      · rfl

/-- A walk looks up nothing but what its directives ask for. -/
theorem walk_congr {look look' : Path → Option Value} {instructions : List Instruction}
    (h : ∀ name args path (question : Question), .directive name args ∈ instructions →
      question.AskedBy name args path → look path = look' path) (p : Place) :
    walk look p instructions = walk look' p instructions := by
  induction instructions generalizing p with
  | nil => rfl
  | cons instruction rest ih =>
    have ih := ih fun name args path question hmem =>
      h name args path question (List.mem_cons_of_mem _ hmem)
    cases instruction with
    | literal text => rw [walk, walk, ih]
    | directive name args =>
      rw [walk, walk]
      rcases hreach : p.directive name args with place | ⟨place, path, question⟩ | ⟨place, err⟩
      · exact ih place
      · dsimp only
        rw [h name args path question List.mem_cons_self (Place.directive_eq_asks hreach)]
        simp only [ih]
      · rfl

/-- A walk waits on behalf of the directive that asks, and behind it. -/
theorem walk_waits {look : Path → Option Value} {all instructions : List Instruction} {p : Place}
    (hall : all.drop p.cursor = instructions) {path : Path} {index : Nat} {question : Question}
    (h : (walk look p instructions).halt = .waits path index question) :
    look path = none ∧ ∃ name args, all[index]? = some (.directive name args) ∧
      question.AskedBy name args path := by
  induction instructions generalizing p with
  | nil => cases h
  | cons instruction rest ih =>
    obtain ⟨hget, hrest⟩ := getElem?_of_drop hall
    cases instruction with
    | literal text => exact ih (p := p.next) hrest h
    | directive name args =>
      have hcursor := p.cursor_directive name args
      simp only [walk] at h
      rcases hreach : p.directive name args with
          place | ⟨place, path', question'⟩ | ⟨place, err⟩ <;>
        rw [hreach] at hcursor h <;> change place.cursor = _ at hcursor
      · exact ih (hcursor ▸ hrest) h
      · rcases hvalue : look path' with _ | value <;> simp only [hvalue, Question.onward] at h
        · obtain ⟨rfl, rfl, rfl⟩ := Halt.waits.inj h
          exact ⟨hvalue, name, args, hget, Place.directive_eq_asks hreach⟩
        · rcases hanswer : question'.answer value place with _ | ⟨chunks, place'⟩ <;>
            rw [hanswer] at h
          · cases h
          · exact ih (by rw [Question.cursor_answer hanswer, hcursor, hrest]) h
      · cases h

/-- Where no variable is a stream, no walk comes to one. -/
theorem walk_streams {look : Path → Option Value}
    (hlook : ∀ path value, look path = some value → ∀ id, value ≠ .stream id)
    (instructions : List Instruction) (p : Place) : (walk look p instructions).halt ≠ .streams := by
  induction instructions generalizing p with
  | nil => exact nofun
  | cons instruction rest ih =>
    cases instruction with
    | literal text => exact ih p.next
    | directive name args =>
      rw [walk]
      rcases p.directive name args with place | ⟨place, path, question⟩ | ⟨place, err⟩ <;>
        dsimp only
      · exact ih place
      · rcases hvalue : look path with _ | value <;> dsimp only
        · exact nofun
        · cases question with
          | condition => exact ih _
          | shown filters =>
            rw [Question.onward_shown (hlook path value hvalue)]
            exact ih place
      · exact nofun

end StreamingTemplate
