import StreamingTemplate.Filter.Text
import StreamingTemplate.Proofs.Filter.Inline

/-!
# What the built-in filters do to a text

Each built-in filter is a function on lists of chunks: `uppercase` maps them, `wrap` puts one chunk
in front of them and one behind. A new chain of such filters that takes one chunk and then the end
of its input hands on the composition of these functions on that chunk, and has ended
(`accept_finish`).
-/

namespace StreamingTemplate.TextFilter

/-- The built-in filters act inside their calls. -/
theorem inlineStages : InlineStages fun _ : TextFilter => True where
  accept_stays _ _ h := h
  finish_stays _ h := h
  accept_inline s chunk _ a ha := by
    cases s with
    | uppercase =>
      obtain rfl := List.mem_singleton.mp ha
      rfl
    | wrap before after started =>
      cases started <;> simp [FilterStage.accept] at ha
      · rcases ha with rfl | rfl <;> rfl
      · exact ha ▸ rfl
  finish_inline s _ a ha := by
    cases s with
    | uppercase =>
      obtain rfl := List.mem_singleton.mp ha
      rfl
    | wrap before after started =>
      cases started <;> simp [FilterStage.finish] at ha
      · rcases ha with rfl | rfl | rfl <;> rfl
      · rcases ha with rfl | rfl <;> rfl

/-- What a filter makes of all the chunks of an input. -/
def transform : TextFilter → List String → List String
  | .uppercase, chunks => chunks.map Text.uppercase
  | .wrap before after started, chunks =>
    (if started then [] else [before]) ++ chunks ++ [after]

/-- What filters make of the chunks of an input, from left to right. -/
def transformAll (filters : List TextFilter) (chunks : List String) : List String :=
  filters.foldl (fun chunks f => f.transform chunks) chunks

/-! ## One filter

What each built-in filter makes of chunks that are fed to it alone. `uppercase` treats every
chunk alike, while `wrap` has to know whether it has begun. -/

theorem feedAlone_uppercase (out : Output) (chunks : List String) :
    feedAlone TextFilter.uppercase out chunks =
      (.uppercase, { out with chunks := out.chunks ++ chunks.map Text.uppercase }) := by
  induction chunks generalizing out with
  | nil => simp [feedAlone]
  | cons chunk rest ih => simp [feedAlone, FilterStage.accept, ih, Output.perform, Output.push]

theorem feedAlone_started (before after : String) (out : Output) (chunks : List String) :
    feedAlone (TextFilter.wrap before after true) out chunks =
      (.wrap before after true, { out with chunks := out.chunks ++ chunks }) := by
  induction chunks generalizing out with
  | nil => simp [feedAlone]
  | cons chunk rest ih => simp [feedAlone, FilterStage.accept, ih, Output.perform, Output.push]

/-- The text in front goes out with the first chunk. -/
theorem feedAlone_wrap (before after : String) (chunks : List String) :
    feedAlone (TextFilter.wrap before after false) {} chunks =
      (.wrap before after (!chunks.isEmpty),
        { chunks := if chunks.isEmpty then [] else before :: chunks }) := by
  cases chunks with
  | nil => rfl
  | cons chunk rest =>
    simp [feedAlone, FilterStage.accept, feedAlone_started, Output.perform, Output.push]

/-- A link that takes chunks, and later more chunks with the end of its input, hands on in all what
its filter makes of them, and ends the second time. -/
theorem take_twice (link : Link TextFilter) (hfinished : link.finished = false)
    (hended : link.ended = false) (first second : List String) :
    (link.take false first).1.ended = false ∧
      ((link.take false first).1.take true second).1.ended = true ∧
      (link.take false first).2 ++ ((link.take false first).1.take true second).2 =
        link.stage.transform (first ++ second) := by
  obtain ⟨stage, finished, ended, late⟩ := link
  cases hfinished
  cases hended
  cases stage with
  | uppercase =>
    simp [Link.take, Link.work, feedAlone_uppercase, FilterStage.finish, Output.perform,
      Output.finish, transform]
  | wrap before after started =>
    cases started with
    | true =>
      simp [Link.take, Link.work, feedAlone_started, FilterStage.finish, Output.perform,
        Output.push, Output.finish, transform]
    | false =>
      cases first <;> cases second <;>
        simp [Link.take, Link.work, feedAlone_wrap, feedAlone_started, FilterStage.finish,
          Output.perform, Output.push, Output.finish, transform]

/-! ## A chain of filters

The output of a row is that of its filters one behind the other. It has to be split at any place,
since a chain is given its chunk by one call and the end of its input by the next. -/

/-- A row that takes chunks, and later more chunks with the end of its input, hands on in all what
its filters make of them, and ends the second time. -/
theorem takeRow_twice (links : List (Link TextFilter))
    (hnew : ∀ link ∈ links, link.finished = false ∧ link.ended = false)
    (first second : List String) :
    (takeRow links first false).2.2 = false ∧
      (takeRow (takeRow links first false).1 second true).2.2 = true ∧
      (takeRow links first false).2.1 ++ (takeRow (takeRow links first false).1 second true).2.1 =
        transformAll (links.map Link.stage) (first ++ second) := by
  induction links generalizing first second with
  | nil => exact ⟨rfl, rfl, rfl⟩
  | cons link rest ih =>
    obtain ⟨hfinished, hended⟩ := hnew link List.mem_cons_self
    obtain ⟨hopen, hclosed, hall⟩ := take_twice link hfinished hended first second
    simp only [takeRow, hopen, hclosed, List.map_cons, transformAll, List.foldl_cons, ← hall]
    exact ih (fun l hl => hnew l (List.mem_cons_of_mem _ hl)) _ _

/-- **A value through the built-in filters.** A new chain of built-in filters that takes a chunk and
then the end of its input hands on what the filters make of this one chunk, from left to right, and
has ended. The handles stay as they are. -/
theorem accept_finish (filters : List TextFilter) (kept handles : Handles) (chunk : String)
    (fuel : Nat) :
    ∃ fed finished : Chain.Result TextFilter,
      (Chain.ofStages kept filters).1.accept (fuel + 1) handles chunk = some fed ∧
        fed.handles = handles ∧
        fed.chain.finish (fuel + 1) handles = some finished ∧
        finished.handles = handles ∧
        finished.chain.isEnded = true ∧
        fed.chunks ++ finished.chunks = transformAll filters [chunk] := by
  obtain ⟨c, hc⟩ : ∃ c, c = (Chain.ofStages kept filters).1 := ⟨_, rfl⟩
  have hlinks : c.links = filters.map fun stage => { stage } := by rw [hc]; rfl
  have hopen : c.inputEnded = false := by rw [hc]; rfl
  have hrest : c.Calm fun _ => True := hc ▸ Chain.ofStages_calm (fun _ _ => trivial) kept
  obtain ⟨-, hclosed, hall⟩ := takeRow_twice c.links (by simp [hlinks]) [chunk] []
  have hrest' : Chain.Calm (fun _ => True) { c with
      links := (takeRow c.links [chunk] false).1
      inputEnded := true
      handlesDropped := c.handlesDropped || !handles.live c.id } :=
    ⟨⟨hrest.mailbox, late_takeRow hrest.late _ _⟩, fun _ _ => trivial⟩
  have haccept := Chain.propagate_calm inlineStages hrest fuel handles [chunk]
  rw [hopen] at haccept
  rw [← hc]
  refine ⟨_, _, haccept, rfl,
    Chain.propagate_calm inlineStages hrest' fuel handles [], rfl, ?_, ?_⟩
  · rw [Chain.isEnded_takeRow]
    exact hclosed
  · simpa [hlinks, Function.comp_def] using hall

end StreamingTemplate.TextFilter
