import StreamingTemplate.Filter.Registry
import StreamingTemplate.Text.Uppercase

/-!
# The built-in filters

`uppercase` maps every chunk to upper case as it arrives. `wrap` surrounds its input: the first text
goes out once, in front of the first chunk or at the end of an input without chunks, and the second
text follows all input. Neither keeps its handle.
-/

namespace StreamingTemplate

/-- The state of a built-in filter. -/
inductive TextFilter where
  | uppercase
  | wrap (before after : String) (started : Bool)
  deriving DecidableEq, Repr

namespace TextFilter

instance : FilterStage TextFilter where
  accept
    | .uppercase, chunk => (.uppercase, [.push (Text.uppercase chunk)])
    | .wrap before after started, chunk =>
      (.wrap before after true, if started then [.push chunk] else [.push before, .push chunk])
  finish
    | .uppercase => (.uppercase, [.finish])
    | .wrap before after started =>
      (.wrap before after true,
        if started then [.push after, .finish] else [.push before, .push after, .finish])
  slots _ := []

/-- The text of a literal that can surround a text: a boolean cannot. -/
def wrapText : Literal → Except RenderError String
  | .bool _ => .error (.invalidFilterArgs "wrap" "prefix and suffix must be text")
  | arg => .ok arg.text

/-- Constructs `wrap` from its two texts. -/
def ofWrapArgs : List Literal → Except RenderError TextFilter
  | [before, after] =>
    match wrapText before, wrapText after with
    | .ok before, .ok after => .ok (.wrap before after false)
    | .error err, _ | _, .error err => .error err
  | args => .error (.invalidFilterArgs "wrap"
      ("expected (prefix, suffix), got " ++ toString args.length ++ " argument(s)"))

/-- The registry of the built-in filters, as stages of any type that includes them. -/
def registry {σ : Type} (embed : TextFilter → σ) : FilterRegistry σ :=
  (FilterRegistry.empty.register "uppercase" fun _ => .ok (embed .uppercase)).register "wrap"
    fun args => (ofWrapArgs args).map embed

end TextFilter

end StreamingTemplate
