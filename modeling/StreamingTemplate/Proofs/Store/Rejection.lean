import StreamingTemplate.Filter.Text
import StreamingTemplate.Proofs.Engine.History
import StreamingTemplate.Proofs.Store.Write

/-!
# Rejected writes

A write goes down from object to object, and is rejected at the first place where there is none. It
has changed nothing by then, so a rejected write is as if it had not been tried.

* `Store.HoldsObject` — a path leads to an object;
* `Store.BlockedAt` — the shortest part of the way to a path that does not lead to an object;
* `Store.write_error` — where a write stops, and what it says about what it has found there.

`rejected_exactly` says this of writes of the host and of directives, for every render.
-/

namespace StreamingTemplate

namespace Store

variable {W : Type} {s : Store W} {p : Path} {value : Value}

/-- The path of these segments leads to an object. -/
def HoldsObject (s : Store W) (segments : List String) : Prop :=
  ∃ fields, s.resolve ⟨segments⟩ = some (.object fields)

/-- Nothing can be written at the path, because this part of the way to it does not lead to an
object, while every shorter part does. -/
structure BlockedAt (s : Store W) (p : Path) (way : List String) : Prop where
  nonempty : way ≠ []
  onWay : way <+: p.segments
  proper : way ≠ p.segments
  missing : ¬s.HoldsObject way
  shortest : ∀ shorter, shorter ≠ [] → shorter <+: way → shorter ≠ way → s.HoldsObject shorter

/-- **Where a write stops**: at an object all the same, but without an object under the next
segment. The fault names this segment and what is there. -/
theorem write_error {fields : List (String × Value)} {segments : List String} {fault : PathFault}
    (h : write fields value segments = .error fault) :
    segments = [] ∧ fault = .empty ∨
      ∃ above segment next below entries, segments = above ++ segment :: next :: below ∧
        (Value.object fields).at? above = some (.object entries) ∧
        (∀ inner, Fields.find? segment entries ≠ some (.object inner)) ∧
        fault = match Fields.find? segment entries with
          | none => .unset segment
          | some found => .holds segment found.kind := by
  induction segments generalizing fields with
  | nil => exact .inl ⟨rfl, (Except.error.inj h).symm⟩
  | cons segment rest ih =>
    cases rest with
    | nil => cases h
    | cons next rest =>
      refine .inr ?_
      rw [write] at h
      · split at h
        · rename_i hnone
          refine ⟨[], segment, next, rest, fields, rfl, rfl, ?_, ?_⟩ <;> rw [hnone]
          · intro inner hinner
            cases hinner
          · exact (Except.error.inj h).symm
        · -- there is an object: the write stops further down
          rename_i inner hinner
          split at h
          · cases h
          · rename_i fault' hfault
            obtain rfl := Except.error.inj h
            obtain ⟨hnil, -⟩ | ⟨above, key, more, below, entries, hsplit, hentries, hfound⟩ :=
              ih hfault
            · cases hnil
            · refine ⟨segment :: above, key, more, below, entries, by rw [hsplit]; rfl, ?_, hfound⟩
              rw [Value.at?_object_cons, hinner, Option.bind_some, hentries]
        · rename_i other hother hobject
          refine ⟨[], segment, next, rest, fields, rfl, rfl, ?_, ?_⟩ <;> rw [hobject]
          · intro inner hinner
            exact hother inner (Option.some.inj hinner)
          · exact (Except.error.inj h).symm
      · exact List.cons_ne_nil next rest

/-- What resolves under one more segment is the entry of the object that is reached. -/
theorem resolve_entry {above : List String} {entries : List (String × Value)}
    (h : (Value.object s.vars).at? above = some (.object entries)) (segment : String) :
    s.resolve ⟨above ++ [segment]⟩ = Fields.find? segment entries := by
  rw [resolve_eq_at? s (List.append_ne_nil_of_right_ne_nil above (List.cons_ne_nil segment [])),
    Value.at?_append, h, Option.bind_some, Value.at?_object_cons]
  exact Option.bind_fun_some _

/-- All that lies above an object are objects. -/
theorem holdsObject_of_prefix {above shorter : List String} {entries : List (String × Value)}
    (h : (Value.object s.vars).at? above = some (.object entries)) (hne : shorter ≠ [])
    (hle : shorter <+: above) : s.HoldsObject shorter := by
  obtain ⟨rest, rfl⟩ := hle
  rw [HoldsObject, resolve_eq_at? s hne]
  cases rest with
  | nil => exact ⟨entries, by rwa [List.append_nil] at h⟩
  | cons segment rest =>
    -- what is reached on through a segment has entries
    rw [Value.at?_append] at h
    obtain ⟨inner, hinner, hrest⟩ := Option.bind_eq_some_iff.mp h
    cases inner with
    | object fields => exact ⟨fields, hinner⟩
    | null | bool | num | str | stream => cases hrest

/-- **A rejected write** has no path, or its way is blocked; the error tells where, and what is
there. -/
theorem set_error_cases {err : RenderError} (h : s.set p value = .error err) :
    p.segments = [] ∧ err = .malformedPath p .empty ∨
      ∃ above segment, s.BlockedAt p (above ++ [segment]) ∧
        err = .malformedPath p (match s.resolve ⟨above ++ [segment]⟩ with
          | none => .unset segment
          | some found => .holds segment found.kind) := by
  rw [set] at h
  split at h
  · rename_i fault hfault
    obtain rfl := Except.error.inj h
    obtain ⟨hnil, rfl⟩ | ⟨above, segment, next, below, entries, hsplit, hentries, hfound, rfl⟩ :=
      write_error hfault
    · exact .inl ⟨hnil, rfl⟩
    · refine .inr ⟨above, segment, ⟨by simp, ?_, ?_, ?_, ?_⟩, by rw [resolve_entry hentries]⟩
      · exact ⟨next :: below, by rw [hsplit, List.append_assoc]; rfl⟩
      · intro heq
        have hlength := congrArg List.length (heq.trans hsplit)
        simp at hlength
      · rintro ⟨fields, hfields⟩
        exact hfound fields ((resolve_entry hentries segment).symm.trans hfields)
      · intro shorter hne hle hproper
        refine holdsObject_of_prefix hentries hne ?_
        exact (List.prefix_concat_iff.mp hle).resolve_left hproper
  · cases h

/-- **When a write is rejected**: if it has no path, or a part of the way to it does not lead to an
object. -/
theorem set_rejected_iff :
    (∃ err, s.set p value = .error err) ↔
      p.segments = [] ∨ ∃ way, way ≠ [] ∧ way <+: p.segments ∧ way ≠ p.segments ∧
        ¬s.HoldsObject way := by
  constructor
  · rintro ⟨err, h⟩
    obtain ⟨hnil, -⟩ | ⟨above, segment, hblocked, -⟩ := set_error_cases h
    · exact .inl hnil
    · exact .inr ⟨_, hblocked.nonempty, hblocked.onWay, hblocked.proper, hblocked.missing⟩
  · intro h
    rcases hset : s.set p value with err | ⟨s', woken⟩
    · exact ⟨err, rfl⟩
    · obtain ⟨hne, habove⟩ := exists_write_iff.mp ⟨_, (set_eq_ok hset).1⟩
      obtain hnil | ⟨way, hway, ⟨rest, hsplit⟩, hproper, hmissing⟩ := h
      · exact absurd hnil hne
      · cases rest with
        | nil => exact absurd (by rw [← hsplit, List.append_nil]) hproper
        | cons key below =>
          obtain ⟨found, hfound, houtline⟩ :=
            Option.map_eq_some_iff.mp (habove way key below hsplit.symm)
          obtain ⟨fields, rfl⟩ := Value.outline_eq_object houtline
          exact absurd ⟨fields, (resolve_eq_at? s hway).trans hfound⟩ hmissing

end Store

variable {σ κ μ : Type} [FilterStage σ] [OutputSink κ]

/-- **Rejected writes are exact and atomic.** Whatever state a render is in, its store rejects a
write exactly if the path is empty or some part of the way to it does not lead to an object. The
host, or the directive, then gets the error, which carries the path and names the last segment of
the shortest such part, and nothing at all has changed: the variables, the waits and the answers,
the status with the start of a wait, the place, the pipe and the sink are what they were. -/
theorem rejected_exactly (setup : Setup σ μ) (fuel : Nat) (r : Render σ κ μ) (p : Path)
    (v : Value) :
    ((∃ err, r.store.set p v = .error err) ↔
      p.segments = [] ∨ ∃ way, way ≠ [] ∧ way <+: p.segments ∧ way ≠ p.segments ∧
        ¬r.store.HoldsObject way) ∧
    ∀ err, r.store.set p v = .error err →
      Render.set setup fuel p v r = some (.error err, r) ∧ r.setWithin p v = (.error err, r) ∧
      (p.segments = [] ∧ err = .malformedPath p .empty ∨
        ∃ above segment, r.store.BlockedAt p (above ++ [segment]) ∧
          match r.store.resolve ⟨above ++ [segment]⟩ with
          | none =>
            err = .malformedPath p (.unset segment) ∧
              err.message = "malformed path '" ++ p.text ++ "': " ++
                ("'" ++ segment ++ "' is not set")
          | some found =>
            err = .malformedPath p (.holds segment found.kind) ∧
              err.message = "malformed path '" ++ p.text ++ "': " ++
                ("'" ++ segment ++ "' holds " ++ found.kind.phrase ++ ", not an object")) := by
  refine ⟨Store.set_rejected_iff, fun err h => ⟨?_, ?_, ?_⟩⟩
  · rw [Render.set, h]
  · rw [Render.setWithin, h]
  · obtain hnil | ⟨above, segment, hblocked, herr⟩ := Store.set_error_cases h
    · exact .inl hnil
    · refine .inr ⟨above, segment, hblocked, ?_⟩
      split at herr <;> exact ⟨herr, by rw [herr]; rfl⟩

/-- A render that waits below an entry which holds a text, with a question parked behind its own
wait. A write there is rejected at this entry, and the wait goes on since its instant. -/
theorem rejected_exactly_waiting : ∃ r : Render TextFilter Collector Unit,
    HostCall.runAll
        ⟨⟨[.directive "var" [.path ⟨["item", "id", "x"]⟩]]⟩, Directive.builtins,
          TextFilter.registry id, {}⟩ 9
        [.attach {}, .get ⟨["item", "n"]⟩ "q", .set ⟨["item"]⟩ (.object [("id", .str "flat")])]
        (Render.fresh () {} 5) = some ([.ok (), .ok (), .ok ()], r) ∧
      r.status = .suspended (.variable ⟨["item", "id", "x"]⟩ 0 5) ∧
      r.store.parked = [("item", .engine), ("item", .host ⟨["item", "n"]⟩ "q")] ∧
      Render.set
          ⟨⟨[.directive "var" [.path ⟨["item", "id", "x"]⟩]]⟩, Directive.builtins,
            TextFilter.registry id, {}⟩ 9 ⟨["item", "id", "x", "y"]⟩ .null r =
        some (.error (.malformedPath ⟨["item", "id", "x", "y"]⟩ (.holds "id" .string)), r) :=
  ⟨_, rfl, rfl, rfl, ((rejected_exactly _ 9 _ ⟨["item", "id", "x", "y"]⟩ .null).2 _ rfl).1⟩

end StreamingTemplate
