import StreamingTemplate.Stream

/-!
# One stream among others

The state of a stream after a change to the table of all streams. A stream whose reading end is not
given up is in the table.
-/

namespace StreamingTemplate.Streams

variable {s : Streams} {id other : StreamId}

/-- The number of a stream that is not in the table reads as one whose reading end was given up. -/
theorem lt_of_reader (h : (s.state id).reader ≠ .dropped) : id < s.table.length := by
  refine Nat.not_le.mp fun hle => h ?_
  rw [state, List.getElem?_eq_none hle]
  rfl

/-- An update goes to one stream, -/
theorem state_update_self (h : (s.state id).reader ≠ .dropped) (f : StreamState → StreamState) :
    (s.update id f).state id = f (s.state id) := by
  have hlt := lt_of_reader h
  simp [state, update, List.getElem?_eq_getElem hlt]

/-- and leaves every other as it is. The remaining lemmas say the same of the updates the program
makes. -/
theorem state_update_of_ne (h : other ≠ id) (f : StreamState → StreamState) :
    (s.update other f).state id = s.state id := by
  simp [state, update, h]

theorem state_create (h : (s.state id).reader ≠ .dropped) : s.create.2.state id = s.state id := by
  have hlt := lt_of_reader h
  simp [state, create, List.getElem?_append_left hlt]

/-- A write goes behind what is queued already. It needs a reader: without one the chunk would be
dropped. -/
theorem state_write_self (h : (s.state id).reader ≠ .dropped) (chunk : String) :
    (s.write id chunk).2.state id =
      { s.state id with queue := (s.state id).queue ++ [chunk] } := by
  rw [write, if_neg h]
  exact state_update_self h _

theorem state_write_of_ne (h : other ≠ id) (chunk : String) :
    (s.write other chunk).2.state id = s.state id := by
  rw [write]
  split
  · rfl
  · exact state_update_of_ne h _

end StreamingTemplate.Streams
