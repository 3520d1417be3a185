import StreamingTemplate.Proofs.Engine.Forwarding

/-!
# Where chunks end does not matter

What the built-in filters make of the chunks of an input, put together, depends on the text of the
input alone: `uppercase` looks at single characters, and `wrap` at the two ends. So a text comes out
of a variable in the same way whether it is a value or arrives in chunks, cut anywhere.

* `onText`, `textOf` — a filter, and a row of filters, on whole texts; `join_transformAll` says that
  they are what the filters do to chunks, put together;
* `Chain.consume` — a chain that takes chunks one by one, and then the end of its input;
  `consume_filters` — built-in filters hand on in all what they make of the whole input. It is an
  induction over the chunks, carried by the links, which stay open until the input is over;
* `chunks_irrelevant` — and so a variable emits the same text for a value and for any stream.
-/

namespace StreamingTemplate

theorem Text.uppercase_append (s t : String) :
    uppercase (s ++ t) = uppercase s ++ uppercase t := by
  simp [uppercase, String.toList_append, List.flatMap_append]

namespace TextFilter

/-! ## Filters on texts

Both filters commute with putting chunks together, `uppercase` chunk by chunk, and `wrap` because
its two texts go to the ends. -/

/-- What a filter makes of a whole text. -/
def onText : TextFilter → String → String
  | .uppercase, text => Text.uppercase text
  | .wrap before after started, text => (if started then "" else before) ++ text ++ after

/-- What filters make of a whole text, from left to right. -/
def textOf (filters : List TextFilter) (text : String) : String :=
  filters.foldl (fun text f => f.onText text) text

/-- Putting upper case chunks together. -/
theorem join_uppercase (chunks : List String) :
    String.join (chunks.map Text.uppercase) = Text.uppercase (String.join chunks) := by
  induction chunks with
  | nil => rfl
  | cons chunk rest ih =>
    rw [List.map_cons, String.join_cons, String.join_cons, ih, Text.uppercase_append]

/-- Putting together what one filter makes of chunks. -/
theorem join_transform (f : TextFilter) (chunks : List String) :
    String.join (f.transform chunks) = f.onText (String.join chunks) := by
  cases f with
  | uppercase => exact join_uppercase chunks
  | wrap before after started =>
    cases started <;> simp [transform, onText, String.join_append, String.append_assoc]

/-- **Filters do not see where chunks end.** -/
theorem join_transformAll (filters : List TextFilter) (chunks : List String) :
    String.join (transformAll filters chunks) = textOf filters (String.join chunks) := by
  induction filters generalizing chunks with
  | nil => rfl
  | cons f rest ih =>
    rw [transformAll, List.foldl_cons, textOf, List.foldl_cons, ← join_transform]
    exact ih _

end TextFilter

/-! ## A chain that takes chunk after chunk

The links are told of nothing before the last chunk, so until then the row is the one of before
with other stages in it, and what it will make of the rest is what the old row would have made of
it behind what it has handed on already (`takeRow_first`). -/

/-- A chain takes chunks one after the other, and then the end of its input. -/
def Chain.consume {σ : Type} [FilterStage σ] (fuel : Nat) :
    List String → Handles → Chain σ → Option (Chain.Result σ)
  | [], handles, c => c.finish fuel handles
  | chunk :: rest, handles, c =>
    (c.accept fuel handles chunk).bind fun fed =>
      (consume fuel rest fed.handles fed.chain).map fun r =>
        { r with chunks := fed.chunks ++ r.chunks }

namespace TextFilter

/-- A row whose input is not over, and in which no link has ended. -/
def RowOpen (links : List (Link TextFilter)) : Prop :=
  ∀ link ∈ links, link.finished = false ∧ link.ended = false

theorem rowOpen_takeRow {links : List (Link TextFilter)} (h : RowOpen links)
    (chunks : List String) : RowOpen (takeRow links chunks false).1 := by
  induction links generalizing chunks with
  | nil => exact h
  | cons link rest ih =>
    obtain ⟨hfinished, hended⟩ := h link List.mem_cons_self
    obtain ⟨hopen, -, -⟩ := take_twice link hfinished hended chunks []
    have hrest := ih (fun l hl => h l (List.mem_cons_of_mem _ hl)) (link.take false chunks).2
    rw [takeRow, hopen]
    refine List.forall_mem_cons.mpr ⟨⟨?_, hopen⟩, hrest⟩
    rw [Link.take, hfinished]
    rfl

/-- An open row that takes its last chunks hands on what its filters make of them, and ends. -/
theorem takeRow_last {links : List (Link TextFilter)} (h : RowOpen links) (chunks : List String) :
    (takeRow links chunks true).2 = (transformAll (links.map Link.stage) chunks, true) := by
  obtain ⟨-, hended, hall⟩ := takeRow_twice links h [] chunks
  obtain ⟨hlinks, hnone⟩ := takeRow_of_quiet (rowQuiet_new fun link hlink => (h link hlink).2)
  rw [hlinks] at hended hall
  rw [hnone] at hall
  exact Prod.ext hall hended

/-- An open row that takes chunks hands on a first part of what its filters make of them and of all
that comes behind. -/
theorem takeRow_first {links : List (Link TextFilter)} (h : RowOpen links)
    (first second : List String) :
    transformAll (links.map Link.stage) (first ++ second) =
      (takeRow links first false).2.1 ++
        transformAll ((takeRow links first false).1.map Link.stage) second := by
  obtain ⟨-, -, hall⟩ := takeRow_twice links h first second
  rw [← hall, takeRow_last (rowOpen_takeRow h first)]

/-- **Chunk after chunk.** Open built-in filters that take chunks one by one, and then the end of
their input, hand on in all what they make of the whole input, and have ended. -/
theorem consume_filters {c : Chain TextFilter} (hcalm : c.Calm fun _ => True)
    (hopen : c.inputEnded = false) (hlinks : RowOpen c.links) (chunks : List String) (fuel : Nat)
    (handles : Handles) :
    ∃ r, c.consume (fuel + 1) chunks handles = some r ∧ r.handles = handles ∧
      r.chain.isEnded = true ∧ r.chunks = transformAll (c.links.map Link.stage) chunks := by
  induction chunks generalizing c with
  | nil =>
    have hcalm' : Chain.Calm (fun _ => True) { c with inputEnded := true } :=
      ⟨⟨hcalm.mailbox, hcalm.late⟩, hcalm.stages⟩
    have hlast := takeRow_last hlinks []
    refine ⟨_, Chain.propagate_calm inlineStages hcalm' fuel handles [], rfl, ?_, ?_⟩
    · rw [Chain.isEnded_takeRow]
      exact congrArg Prod.snd hlast
    · exact congrArg Prod.fst hlast
  | cons chunk rest ih =>
    have haccept := Chain.propagate_calm inlineStages hcalm fuel handles [chunk]
    rw [hopen] at haccept
    have htook := hcalm.took inlineStages.silent [chunk] (c.handlesDropped || !handles.live c.id)
    rw [hopen] at htook
    obtain ⟨r, hconsume, hhandles, hended, hchunks⟩ :=
      ih htook rfl (rowOpen_takeRow hlinks [chunk])
    refine ⟨{ r with chunks := (takeRow c.links [chunk] false).2.1 ++ r.chunks }, ?_, hhandles,
      hended, ?_⟩
    · rw [Chain.consume, Chain.accept, haccept, Option.bind_some, hconsume]
      rfl
    · rw [hchunks]
      exact (takeRow_first hlinks [chunk] rest).symm

/-- A new chain of built-in filters. -/
theorem consume_new (filters : List TextFilter) (kept handles : Handles) (chunks : List String)
    (fuel : Nat) :
    ∃ r, (Chain.ofStages kept filters).1.consume (fuel + 1) chunks handles = some r ∧
      r.handles = handles ∧ r.chain.isEnded = true ∧ r.chunks = transformAll filters chunks := by
  have hlinks : (Chain.ofStages kept filters).1.links.map Link.stage = filters := by
    simp [Chain.ofStages, Function.comp_def]
  obtain ⟨r, hr⟩ := consume_filters (Chain.ofStages_calm (fun _ _ => trivial) kept) rfl
    (by simp [RowOpen, Chain.ofStages]) chunks fuel handles
  rw [hlinks] at hr
  exact ⟨r, hr⟩

end TextFilter

/-! ## A variable

Three ways for a text to get to a sink: as the value of a variable, chunk by chunk through a
pipe, or at once through a chain. -/

/-- What a pipe makes of chunks one by one, and of the end of its input, its chain makes of them. -/
theorem Pipe.consume_of_passAll {σ : Type} [FilterStage σ] {fuel : Nat} {source : Option StreamId}
    {c : Chain σ} {chunks : List String} {lines : Lines} {fed finished : Passed σ}
    (hfed : Pipe.passAll fuel chunks ⟨source, some c⟩ lines = some fed)
    (hfinished : fed.pipe.finish fuel fed.lines = some finished) :
    ∃ r, c.consume fuel chunks lines.handles = some r ∧
      r.chunks = fed.chunks ++ finished.chunks := by
  induction chunks generalizing c lines fed with
  | nil =>
    obtain rfl := Option.some.inj hfed
    obtain ⟨r, hr, rfl⟩ := Option.map_eq_some_iff.mp hfinished
    exact ⟨r, hr, rfl⟩
  | cons chunk rest ih =>
    obtain ⟨first, hfirst, hfed⟩ := Option.bind_eq_some_iff.mp hfed
    obtain ⟨later, hlater, rfl⟩ := Option.map_eq_some_iff.mp hfed
    obtain ⟨r, hr, rfl⟩ := Option.map_eq_some_iff.mp hfirst
    have hr : c.accept fuel lines.handles chunk = some r := hr
    obtain ⟨r', hr', hchunks⟩ := ih hlater hfinished
    refine ⟨{ r' with chunks := r.chunks ++ r'.chunks }, ?_, ?_⟩
    · rw [Chain.consume, hr, Option.bind_some, hr']
      rfl
    · rw [List.append_assoc]
      exact congrArg (r.chunks ++ ·) hchunks

/-- A pipe without a chain hands chunks on as they are. -/
theorem Pipe.passAll_bare {σ : Type} [FilterStage σ] (fuel : Nat) (source : Option StreamId)
    (chunks : List String) (lines : Lines) :
    Pipe.passAll fuel chunks (⟨source, none⟩ : Pipe σ) lines =
      some ⟨chunks, ⟨source, none⟩, lines⟩ := by
  induction chunks with
  | nil => rfl
  | cons chunk rest ih =>
    rw [Pipe.passAll, Pipe.pass, Option.bind_some, ih]
    rfl

/-- A new pipe of built-in filters that takes chunks, and the end of its input, hands on in all what
the filters make of them. -/
theorem Pipe.passAll_filters {filters : List TextFilter} {chunks : List String} {lines : Lines}
    {fed finished : Passed TextFilter}
    (hfed : (Pipe.fresh filters).passAll 1 chunks lines = some fed)
    (hfinished : fed.pipe.finish 1 fed.lines = some finished) :
    fed.chunks ++ finished.chunks = TextFilter.transformAll filters chunks := by
  cases filters with
  | nil =>
    obtain rfl := Option.some.inj ((Pipe.passAll_bare 1 none chunks lines).symm.trans hfed)
    obtain rfl := Option.some.inj hfinished
    exact List.append_nil chunks
  | cons f rest =>
    obtain ⟨r, hr, hchunks⟩ := Pipe.consume_of_passAll hfed hfinished
    obtain ⟨r', hr', -, -, hall⟩ := TextFilter.consume_new (f :: rest) {} lines.handles chunks 0
    obtain rfl := Option.some.inj (hr.symm.trans hr')
    rw [← hchunks, hall]

open OutputSink

variable {κ μ : Type} [OutputSink κ]

/-- Once a stream is over, the sink has the text that the filters make of the text of the stream. -/
theorem Forwarding.Over.joined {f : Forwarding TextFilter κ} {written : List String}
    {r : Render TextFilter κ μ} (h : f.Over written r) :
    ∃ out, r.sink = some (deliver f.sink out) ∧
      String.join out = TextFilter.textOf f.stages (String.join written) := by
  obtain ⟨out, fed, last, finished, hfed, hfinish, hsink⟩ := h.forwarded
  refine ⟨out ++ last, hsink, ?_⟩
  rw [Pipe.passAll_filters hfed hfinish, TextFilter.join_transformAll]

variable [SteadySink κ] {template : Template} {settings : RenderSettings} {index : Nat}
  {args : List Argument} {path : Path} {filters : List TextFilter} {r : Render TextFilter κ μ}
  {sink : κ}

omit [SteadySink κ] [OutputSink κ] in
/-- The filters of a built-in variable act inside their calls and end with their input. -/
theorem Forwarding.shown_var (hget : template.get? index = some (.directive "var" args))
    (hpath : pathArg "var" args 0 = .ok path)
    (hfilters : (TextFilter.registry id).stages (filterSpecs args) = .ok filters)
    (stream : StreamId) (place : Place) (sink : κ) :
    Forwarding.Shown ⟨index, stream, filters, place, sink⟩
      (Setup.builtin template settings : Setup TextFilter μ) fun _ => True where
  directive := ⟨"var", args, path, hget, rfl, hpath, hfilters⟩
  inline := TextFilter.inlineStages
  stages _ _ := trivial
  ends := Pipe.endsWithInput TextFilter.inlineStages
    (fun stage _ => by
      rcases stage with _ | ⟨before, after, _ | _⟩ <;> simp [FilterStage.finish])
    fun _ _ => trivial

/-- **Where chunks end does not matter.** Two inputs with the same text, however they are cut into
chunks, come out of the filters of a variable as the same text. So does the value of the variable if
it is a text, and if it is a stream with that text, whatever happens while it is forwarded: the
render goes on behind the stream only when all of it has come out. -/
theorem chunks_irrelevant (hget : template.get? index = some (.directive "var" args))
    (hpath : pathArg "var" args 0 = .ok path)
    (hfilters : (TextFilter.registry id).stages (filterSpecs args) = .ok filters)
    (hsink : r.sink = some sink) (fuel : Nat) :
    (∀ kept handles chunks chunks', String.join chunks = String.join chunks' →
      ∃ res res' : Chain.Result TextFilter,
        (Chain.ofStages kept filters).1.consume (fuel + 1) chunks handles = some res ∧
        (Chain.ofStages kept filters).1.consume (fuel + 1) chunks' handles = some res' ∧
        String.join res.chunks = String.join res'.chunks) ∧
    ∀ text,
      (∃ out lines,
        Render.run (Setup.builtin template settings) (fuel + 2) (.resume index (.str text)) r =
          Render.run (Setup.builtin template settings) fuel .instruction
            { r with sink := some (deliver sink out), lines } ∧
        String.join out = TextFilter.textOf filters text) ∧
      ∀ stream, (r.lines.streams.state stream).reader = .available →
        (∀ happenings : List (Happening κ), (∀ happening ∈ happenings, happening.spares = true) →
          Course (Setup.builtin template settings) fuel ⟨index, stream, filters, r.place, sink⟩
            (fun _ => True) happenings (r.lines.streams.state stream).queue
            (Render.run (Setup.builtin template settings) (fuel + 4)
              (.resume index (.stream stream)) r)) ∧
        (∀ written (r' : Render TextFilter κ μ),
          Forwarding.Underway ⟨index, stream, filters, r.place, sink⟩ (fun _ => True) written r' →
          (r'.lines.streams.state stream).writerOpen = false →
          ∃ last, r'.pump (Setup.builtin template settings) (fuel + 2) =
              Render.run (Setup.builtin template settings) (fuel + 1) .instruction last ∧
            Forwarding.Over ⟨index, stream, filters, r.place, sink⟩ written last) ∧
        ∀ written (last : Render TextFilter κ μ),
          Forwarding.Over ⟨index, stream, filters, r.place, sink⟩ written last →
          String.join written = text →
          ∃ out, last.sink = some (deliver sink out) ∧
            String.join out = TextFilter.textOf filters text := by
  have hshown (stream : StreamId) : Forwarding.Shown ⟨index, stream, filters, r.place, sink⟩
      (Setup.builtin template settings : Setup TextFilter μ) fun _ => True :=
    Forwarding.shown_var hget hpath hfilters stream r.place sink
  refine ⟨?chain, fun text => ⟨?value, fun stream hreader => ⟨?course, ?pumped, ?text⟩⟩⟩
  case chain =>
    intro kept handles chunks chunks' hjoin
    obtain ⟨res, hres, -, -, hall⟩ := TextFilter.consume_new filters kept handles chunks fuel
    obtain ⟨res', hres', -, -, hall'⟩ := TextFilter.consume_new filters kept handles chunks' fuel
    refine ⟨res, res', hres, hres', ?_⟩
    rw [hall, hall', TextFilter.join_transformAll, TextFilter.join_transformAll, hjoin]
  case value =>
    obtain ⟨lines, hperform⟩ := Render.perform_var fuel hpath hfilters
      (show ∀ id, Value.str text ≠ .stream id from nofun) hsink
    refine ⟨_, lines, (Render.run_resumed hget rfl hperform).trans (Render.run_next rfl), ?_⟩
    rw [TextFilter.join_transformAll]
    simp [Value.text]
  case course =>
    intro happenings hspares
    exact (Forwarding.begun (hshown stream) hreader hsink rfl fuel).course (hshown stream) hspares
  case pumped =>
    exact fun written r' hunderway hended => hunderway.pump_ended (hshown stream) fuel hended
  case text =>
    rintro written last hover rfl
    exact hover.joined

/-- Two filters, the second of which sees what the first puts around its input: the empty input with
and without a chunk, a text, and a stream that brings the same text in two chunks. -/
theorem chunks_irrelevant_wrapped :
    let args : List Argument :=
      [.path ⟨["x"]⟩, .filter ⟨"wrap", [.str "(b", .str ")"]⟩, .filter ⟨"uppercase", []⟩]
    let filters : List TextFilter := [.wrap "(b" ")" false, .uppercase]
    let setup : Setup TextFilter Unit := Setup.builtin ⟨[.directive "var" args]⟩
    let forwarding : Forwarding TextFilter Collector := ⟨0, 0, filters, ⟨1, {}, .notSkipping⟩, {}⟩
    (∃ res res' : Chain.Result TextFilter,
      (Chain.ofStages {} filters).1.consume 6 [] {} = some res ∧
      (Chain.ofStages {} filters).1.consume 6 [""] {} = some res' ∧
      String.join res.chunks = String.join res'.chunks) ∧
    (∃ out lines, Render.run setup 7 (.resume 0 (.str "ab")) Render.streaming =
        Render.run setup 5 .instruction
          { Render.streaming with sink := some (deliver ({} : Collector) out), lines } ∧
      String.join out = "(BAB)") ∧
    Course setup 5 forwarding (fun _ => True)
      [.outside (.write 0 "b"), .outside (.endStream 0), .call .pump] ["a"]
      (Render.run setup 9 (.resume 0 (.stream 0)) Render.streaming) ∧
    ∀ last : Render TextFilter Collector Unit, forwarding.Over ["a", "b"] last →
      ∃ out, last.sink = some (deliver {} out) ∧ String.join out = "(BAB)" := by
  intro args filters setup forwarding
  have htextOf : TextFilter.textOf filters "ab" = "(BAB)" := by decide
  obtain ⟨hchain, htext⟩ := chunks_irrelevant (r := Render.streaming)
    (show setup.template.get? 0 = some (.directive "var" args) from rfl)
    (show pathArg "var" args 0 = .ok ⟨["x"]⟩ from rfl)
    (show (TextFilter.registry id).stages (filterSpecs args) = .ok filters from rfl) rfl 5
  obtain ⟨hvalue, hstream⟩ := htext "ab"
  rw [htextOf] at hvalue hstream
  obtain ⟨hcourse, -, hover⟩ := hstream 0 rfl
  exact ⟨hchain {} {} [] [""] rfl, hvalue, hcourse _ (by simp [Happening.spares]),
    fun last h => hover ["a", "b"] last h rfl⟩

end StreamingTemplate
