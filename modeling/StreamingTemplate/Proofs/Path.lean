import StreamingTemplate.Path
import Mathlib.Data.List.Basic
import Mathlib.Data.Set.Function

/-!
# Dotted texts and segments

A text stands for a path with at least one segment and no dot inside a segment (`Path.Plain`), and
every plain path is what its own text stands for. So `parse` and `text` are inverse to each other
between all texts and the plain paths (`parse_bijOn`); of the other paths, those without segments or
with a dot inside one, none is what a text stands for.

Both directions rest on the splitting of a list at a separator: `splitDots` is `List.splitOn`.
-/

namespace StreamingTemplate.Path

/-! ## Splitting at dots

A text is cut at its dots as a list of characters. The recursion that does this is `List.splitOn`,
whose inverse laws are then those of paths. -/

/-- The two recursions are the same: a dot opens a new piece, and any other character goes to the
front of the first one. -/
theorem splitDots_eq_splitOn (cs : List Char) : splitDots cs = cs.splitOn '.' := by
  induction cs with
  | nil => rfl
  | cons c rest ih =>
    rw [splitDots, ih, List.splitOn_cons_eq_if_modifyHead]
    by_cases h : c = '.'
    · simp [h]
    · obtain ⟨piece, pieces, hpieces⟩ := List.exists_cons_of_ne_nil (List.splitOn_ne_nil '.' rest)
      simp [h, hpieces]

/-- A piece between dots has no dot in it. -/
theorem dot_not_mem_of_mem_splitDots {cs piece : List Char} (h : piece ∈ splitDots cs) :
    '.' ∉ piece := by
  induction cs generalizing piece with
  | nil => simp_all [splitDots]
  | cons c rest ih =>
    rw [splitDots] at h
    split at h
    · rcases List.mem_cons.mp h with rfl | h
      · exact List.not_mem_nil
      · exact ih h
    · rename_i hc
      -- the character goes to the front of the first piece behind it
      split at h
      · rename_i first pieces hrest
        rcases List.mem_cons.mp h with rfl | h
        · have hfirst := ih (hrest ▸ List.mem_cons_self)
          simp [hfirst, Ne.symm hc]
        · exact ih (hrest ▸ List.mem_cons_of_mem _ h)
      · simp_all [Ne.symm hc]

/-! ## Plain paths

A path is a list of segments, and not every such list is the reading of some text. `Plain` is
what the readings have in common; the two laws below show that they have no more in common than
this. -/

/-- A path that can be written as a dotted text. -/
structure Plain (p : Path) : Prop where
  /-- there is a segment, though it may be empty -/
  nonempty : p.segments ≠ []
  /-- what stands between two dots of the text holds none itself -/
  dotFree : ∀ segment ∈ p.segments, '.' ∉ segment.toList

instance (p : Path) : Decidable p.Plain :=
  decidable_of_iff (p.segments ≠ [] ∧ ∀ segment ∈ p.segments, '.' ∉ segment.toList)
    ⟨fun h => ⟨h.1, h.2⟩, fun h => ⟨h.nonempty, h.dotFree⟩⟩

/-- The segments of a text are its pieces, character by character. -/
theorem toList_segments_parse (s : String) :
    (parse s).segments.map String.toList = s.toList.splitOn '.' := by
  simp [parse, splitDots_eq_splitOn, Function.comp_def]

/-- The text of a path, character by character: the pieces with a dot between every two. -/
theorem toList_text (p : Path) :
    p.text.toList = ['.'].intercalate (p.segments.map String.toList) := by
  rw [text, String.toList_intercalate]
  rfl

/-- **What a text stands for** has a segment, and no dot in any segment. -/
theorem plain_parse (s : String) : (parse s).Plain where
  nonempty h := by
    have hpieces := toList_segments_parse s
    rw [h] at hpieces
    exact List.splitOn_ne_nil '.' s.toList hpieces.symm
  dotFree segment hsegment := by
    obtain ⟨piece, hpiece, rfl⟩ := List.mem_map.mp hsegment
    rw [String.toList_ofList]
    exact dot_not_mem_of_mem_splitDots hpiece

/-- **A text is the text of the path that it stands for.** Joining what was split gives it back,
whatever the text, with empty segments where dots stand side by side or at an end. -/
theorem text_parse (s : String) : (parse s).text = s := by
  rw [← String.toList_inj, toList_text, toList_segments_parse]
  exact List.intercalate_splitOn '.'

/-- **A plain path** is the one that its text stands for. -/
theorem parse_text {p : Path} (h : p.Plain) : parse p.text = p := by
  have hpieces : (parse p.text).segments.map String.toList = p.segments.map String.toList := by
    rw [toList_segments_parse, toList_text]
    refine List.splitOn_intercalate '.' (fun piece hpiece => ?_) ?_
    · obtain ⟨segment, hsegment, rfl⟩ := List.mem_map.mp hpiece
      exact h.dotFree segment hsegment
    · simpa using h.nonempty
  have hsegments := List.map_injective_iff.mpr (fun _ _ => String.toList_inj.mp) hpieces
  exact congrArg Path.mk hsegments

/-- Texts and plain paths are the same thing. -/
theorem parse_bijOn : Set.BijOn parse Set.univ {p | p.Plain} := by
  refine ⟨fun s _ => plain_parse s, fun s _ t _ h => ?_, fun p hp => ⟨p.text, trivial, ?_⟩⟩
  · rw [← text_parse s, h, text_parse t]
  · exact parse_text hp

end StreamingTemplate.Path
