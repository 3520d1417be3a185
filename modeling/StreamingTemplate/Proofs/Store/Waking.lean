import Mathlib.Data.List.Induction
import Mathlib.Data.Nat.Find
import StreamingTemplate.Proofs.Store

/-!
# Who is woken by which write

A wait is parked until the next write under its key, is woken by it, and is gone then. So which
write wakes whom can be read off the calls alone, without the store.

* `Store.runAll` — the log of calls on a new store, and the store behind them;
* `Store.Subscription` — a wait with its place among the calls, which tells equal waits apart;
* `Store.Log.Serves` — a write is the first successful one behind a subscription and under its key;
* `Store.Log.Unserved` — there is no such write yet.

`runAll_append_singleton` goes from one call to the next, and `woken_exactly` says that the log and
the store of any calls are what these two predicates say.
-/

namespace StreamingTemplate.Store

variable {W : Type}

/-! ## Calls and their log

The reference has no store. Which waits a write wakes is read off the log: those of the
subscriptions before it of which it is the first successful write under their key. For this a
subscription carries its place among the calls, since the same wait may be parked more than once. -/

/-- A call on a store. -/
inductive Call (W : Type) where
  | subscribe (path : Path) (wait : W)
  | set (path : Path) (value : Value)

/-- Calls, each with the waits that it has woken or the error with which it was rejected. -/
abbrev Log (W : Type) := List (Call W × Except RenderError (List W))

/-- Carries a call out. A subscription wakes nobody, and neither does a rejected write. -/
def Call.run (call : Call W) (s : Store W) : Except RenderError (List W) × Store W :=
  match call with
  | .subscribe path wait => (.ok [], s.subscribe path wait)
  | .set path value =>
    match s.set path value with
    | .error err => (.error err, s)
    | .ok (s', woken) => (.ok woken, s')

/-- Carries calls out in order, on a store without anything. -/
def runAll (calls : List (Call W)) : Log W × Store W :=
  calls.foldl (fun (log, s) call => (log ++ [(call, (call.run s).1)], (call.run s).2)) ([], {})

/-- A wait that was parked by a call. -/
structure Subscription (W : Type) where
  /-- the place of the call -/
  position : Nat
  path : Path
  wait : W

/-- The first segment of the path, and nothing for the path without segments. -/
def Subscription.key (x : Subscription W) : String := x.path.segments.headD ""

/-- The subscriptions among calls, in order. -/
def subscriptions (calls : List (Call W)) : List (Subscription W) :=
  calls.zipIdx.filterMap fun
    | (.subscribe path wait, position) => some ⟨position, path, wait⟩
    | (.set .., _) => none

namespace Log

/-- All waits that were woken, in order. -/
def woken (log : Log W) : List W := log.flatMap fun entry => entry.2.toOption.getD []

/-- Whether the entry is a successful write under a key. -/
def writes (key : String) : Call W × Except RenderError (List W) → Bool
  | (.set path _, .ok _) => path.segments.headD "" == key
  | _ => false

/-- Whether there is a successful write under a key at a place of the log. -/
def writesAt (log : Log W) (key : String) (j : Nat) : Bool := log[j]?.any (writes key)

/-- At this place is the first successful write behind the subscription that has the first segment
of its path. -/
def Serves (log : Log W) (x : Subscription W) (j : Nat) : Prop :=
  x.position < j ∧ log.writesAt x.key j ∧
    ∀ k < j, x.position < k → ¬log.writesAt x.key k

/-- No successful write behind the subscription has the first segment of its path. -/
def Unserved (log : Log W) (x : Subscription W) : Prop :=
  ∀ k < log.length, x.position < k → ¬log.writesAt x.key k

instance (log : Log W) (x : Subscription W) (j : Nat) : Decidable (log.Serves x j) :=
  inferInstanceAs (Decidable (_ ∧ _ ∧ _))

instance (log : Log W) (x : Subscription W) : Decidable (log.Unserved x) :=
  inferInstanceAs (Decidable (∀ k < _, _))

/-! ## One more entry

How the two predicates change when the log grows by an entry. Of the entries before, nothing: an
earlier write serves whom it served. The new entry serves those that were unserved and are under
its key, and leaves the others of them unserved. -/

variable {log : Log W} {entry : Call W × Except RenderError (List W)} {x : Subscription W}

theorem writesAt_append_of_lt {j : Nat} (h : j < log.length) (key : String) :
    writesAt (log ++ [entry]) key j = log.writesAt key j := by
  rw [writesAt, writesAt, List.getElem?_append_left h]

theorem writesAt_length (log : Log W) (entry : Call W × Except RenderError (List W))
    (key : String) : writesAt (log ++ [entry]) key log.length = writes key entry := by
  rw [writesAt, List.getElem?_concat_length]
  rfl

/-- Unserved behind one more entry is who was unserved before and whom this entry does not write
for. -/
theorem unserved_append (entry : Call W × Except RenderError (List W))
    (hx : x.position < log.length) :
    Unserved (log ++ [entry]) x ↔ log.Unserved x ∧ ¬writes x.key entry := by
  rw [Unserved, List.length_append, List.length_singleton]
  constructor
  · intro h
    refine ⟨fun k hk hlt => ?_, ?_⟩
    · rw [← writesAt_append_of_lt hk]
      exact h k (by omega) hlt
    · rw [← writesAt_length log entry]
      exact h log.length (by omega) hx
  · rintro ⟨hold, hnew⟩ k hk hlt
    rcases Nat.lt_succ_iff_lt_or_eq.mp hk with hk | rfl
    · rw [writesAt_append_of_lt hk]
      exact hold k hk hlt
    · rwa [writesAt_length]

/-- Who is served by an entry does not depend on the ones behind it. -/
theorem serves_append_of_lt {j : Nat} (h : j < log.length) :
    Serves (log ++ [entry]) x j ↔ log.Serves x j := by
  rw [Serves, Serves, writesAt_append_of_lt h]
  refine and_congr_right fun _ => and_congr_right fun _ => forall₂_congr fun k hk => ?_
  rw [writesAt_append_of_lt (Nat.lt_trans hk h)]

/-- The last entry serves who was unserved before and whom it writes for. -/
theorem serves_length (entry : Call W × Except RenderError (List W))
    (hx : x.position < log.length) :
    Serves (log ++ [entry]) x log.length ↔ log.Unserved x ∧ writes x.key entry := by
  rw [Serves, writesAt_length, Unserved, and_comm (a := ∀ k < log.length, _)]
  refine ⟨fun ⟨_, hwrites, h⟩ => ⟨hwrites, ?_⟩, fun ⟨hwrites, h⟩ => ⟨hx, hwrites, ?_⟩⟩ <;>
    intro k hk hlt
  · rw [← writesAt_append_of_lt hk]
    exact h k hk hlt
  · rw [writesAt_append_of_lt hk]
    exact h k hk hlt

end Log

/-! ## One more call

Calls are taken from the end, since a call is carried out on the store that the calls before it
have left. -/

/-- One more call adds its entry to the log, and is carried out on the store of the others. -/
theorem runAll_append_singleton (calls : List (Call W)) (call : Call W) :
    runAll (calls ++ [call]) =
      ((runAll calls).1 ++ [(call, (call.run (runAll calls).2).1)],
        (call.run (runAll calls).2).2) := by
  rw [runAll, List.foldl_append]
  rfl

theorem subscriptions_append_singleton (calls : List (Call W)) (call : Call W) :
    subscriptions (calls ++ [call]) =
      subscriptions calls ++
        match call with
        | .subscribe path wait => [⟨calls.length, path, wait⟩]
        | .set .. => [] := by
  rw [subscriptions, List.zipIdx_append, List.filterMap_append, Nat.zero_add]
  cases call <;> rfl

/-- A subscription has its place among the calls. -/
theorem position_lt {calls : List (Call W)} {x : Subscription W} (h : x ∈ subscriptions calls) :
    x.position < calls.length := by
  obtain ⟨⟨call, position⟩, hmem, hx⟩ := List.mem_filterMap.mp h
  have hlt := List.snd_lt_add_of_mem_zipIdx hmem
  cases call with
  | subscribe path wait =>
    obtain rfl := Option.some.inj hx
    exact Nat.zero_add calls.length ▸ hlt
  | set path value => cases hx

/-- Who is still waiting behind one more entry. -/
theorem filter_unserved {calls : List (Call W)} {log : Log W} (hlog : log.length = calls.length)
    (entry : Call W × Except RenderError (List W)) :
    (subscriptions calls).filter (fun x => Log.Unserved (log ++ [entry]) x) =
      ((subscriptions calls).filter fun x => log.Unserved x).filter
        fun x => !Log.writes x.key entry := by
  rw [List.filter_filter]
  refine List.filter_congr fun x hx => ?_
  simp only [Log.unserved_append entry (hlog ▸ position_lt hx), Bool.decide_and,
    Bool.and_comm]
  simp

/-- Who is served by one more entry. -/
theorem filter_serves {calls : List (Call W)} {log : Log W} (hlog : log.length = calls.length)
    (entry : Call W × Except RenderError (List W)) :
    (subscriptions calls).filter (fun x => Log.Serves (log ++ [entry]) x log.length) =
      ((subscriptions calls).filter fun x => log.Unserved x).filter
        fun x => Log.writes x.key entry := by
  rw [List.filter_filter]
  refine List.filter_congr fun x hx => ?_
  simp only [Log.serves_length entry (hlog ▸ position_lt hx), Bool.decide_and,
    Bool.and_comm]
  simp

/-! ## All calls

`Told` is the invariant along the calls; each kind of call keeps it (`subscribe`, `rejected` and
`written`). That parked and woken waits are as many as there are subscriptions is a part of it. -/

/-- The log and the store are what the calls say. -/
structure Told (calls : List (Call W)) (log : Log W) (s : Store W) : Prop where
  made : log.map (·.1) = calls
  woken : ∀ j path value woken, log[j]? = some (.set path value, .ok woken) →
    woken = ((subscriptions calls).filter fun x => log.Serves x j).map (·.wait)
  parked : s.parked = ((subscriptions calls).filter fun x => log.Unserved x).map
    fun x => (x.key, x.wait)
  pending : s.pending + log.woken.length = (subscriptions calls).length

namespace Told

variable {calls : List (Call W)} {log : Log W} {s : Store W}

/-- The log has an entry for each call. -/
theorem length (h : Told calls log s) : log.length = calls.length := by
  rw [← h.made, List.length_map]

/-- What was woken by an entry of the log is not changed by a later one. -/
theorem woken_before (h : Told calls log s) {entry : Call W × Except RenderError (List W)}
    {later : List (Subscription W)} (hlater : ∀ x ∈ later, log.length ≤ x.position) {j : Nat}
    {path : Path} {value : Value} {woken : List W} (hj : j < log.length)
    (hentry : (log ++ [entry])[j]? = some (.set path value, .ok woken)) :
    woken = ((subscriptions calls ++ later).filter fun x =>
      Log.Serves (log ++ [entry]) x j).map (·.wait) := by
  -- a subscription that comes behind an entry is not served by it
  have hnone : later.filter (fun x => Log.Serves (log ++ [entry]) x j) = [] := by
    refine List.filter_eq_nil_iff.mpr fun x hx hserves => ?_
    have hlt := (of_decide_eq_true hserves).1
    have := hlater x hx
    omega
  rw [List.getElem?_append_left hj] at hentry
  rw [List.filter_append, hnone, List.append_nil, h.woken j path value woken hentry]
  simp only [Log.serves_append_of_lt hj]

/-- One more entry adds the waits that it has woken. -/
theorem woken_append (entry : Call W × Except RenderError (List W)) :
    Log.woken (log ++ [entry]) = log.woken ++ entry.2.toOption.getD [] := by
  rw [Log.woken, List.flatMap_append, List.flatMap_singleton]
  rfl

/-- The entry at a place is an old one, or the new one at the end. -/
theorem entry_cases {entry found : Call W × Except RenderError (List W)} {j : Nat}
    (h : (log ++ [entry])[j]? = some found) :
    j < log.length ∨ j = log.length ∧ entry = found := by
  have hlt := (List.getElem?_eq_some_iff.mp h).1
  rw [List.length_append, List.length_singleton] at hlt
  rcases Nat.lt_succ_iff_lt_or_eq.mp hlt with hlt | rfl
  · exact .inl hlt
  · rw [List.getElem?_concat_length] at h
    exact .inr ⟨rfl, Option.some.inj h⟩

/-- A wait is parked. -/
theorem subscribe (h : Told calls log s) (path : Path) (wait : W) :
    Told (calls ++ [.subscribe path wait]) (log ++ [(.subscribe path wait, .ok [])])
      (s.subscribe path wait) where
  made := by rw [List.map_append, h.made]; rfl
  woken j path' value woken hentry := by
    rw [subscriptions_append_singleton]
    obtain hj | ⟨-, hnew⟩ := entry_cases hentry
    · refine h.woken_before (fun x hx => ?_) hj hentry
      obtain rfl := List.mem_singleton.mp hx
      exact Nat.le_of_eq h.length
    · cases hnew
  parked := by
    -- the new wait is behind all entries, so nothing has served it yet
    have hnew : Log.Unserved (log ++ [(Call.subscribe path wait, .ok [])])
        ⟨calls.length, path, wait⟩ := by
      intro k hk hlt
      rw [List.length_append, List.length_singleton, h.length] at hk
      simp only at hlt
      omega
    rw [subscriptions_append_singleton, List.filter_append, filter_unserved h.length,
      List.filter_cons_of_pos (by exact decide_eq_true hnew), Store.subscribe, h.parked,
      Path.waitKey_eq_headD]
    simp [Log.writes, Subscription.key]
  pending := by
    have := h.pending
    rw [woken_append, subscriptions_append_singleton]
    simp only [Store.pending, Store.subscribe, List.length_append, Except.toOption,
      Option.getD_some, List.length_nil, List.length_singleton] at this ⊢
    omega

/-- A write is rejected. -/
theorem rejected (h : Told calls log s) (path : Path) (value : Value) (err : RenderError) :
    Told (calls ++ [.set path value]) (log ++ [(.set path value, .error err)]) s where
  made := by rw [List.map_append, h.made]; rfl
  woken j path' value' woken hentry := by
    rw [subscriptions_append_singleton]
    obtain hj | ⟨-, hnew⟩ := entry_cases hentry
    · exact h.woken_before (fun x hx => by cases hx) hj hentry
    · cases hnew
  parked := by
    rw [subscriptions_append_singleton, List.append_nil, filter_unserved h.length, h.parked]
    simp [Log.writes]
  pending := by
    rw [woken_append, subscriptions_append_singleton, List.append_nil]
    simpa [Except.toOption] using h.pending

/-- A write wakes whom it finds under its key. -/
theorem written (h : Told calls log s) {path : Path} {value : Value} {s' : Store W}
    {woken : List W} (hset : s.set path value = .ok (s', woken)) :
    Told (calls ++ [.set path value]) (log ++ [(.set path value, .ok woken)]) s' where
  made := by rw [List.map_append, h.made]; rfl
  woken j path' value' woken' hentry := by
    rw [subscriptions_append_singleton]
    obtain hj | ⟨rfl, hnew⟩ := entry_cases hentry
    · exact h.woken_before (fun x hx => by cases hx) hj hentry
    · cases hnew
      rw [List.append_nil, filter_serves h.length, (set_eq_ok hset).2.2, h.parked,
        Path.waitKey_eq_headD]
      simp [List.filter_map, Function.comp_def, Log.writes, Subscription.key, Bool.beq_comm]
  parked := by
    rw [subscriptions_append_singleton, List.append_nil, filter_unserved h.length,
      (set_eq_ok hset).2.1, h.parked, Path.waitKey_eq_headD]
    simp [List.filter_map, Function.comp_def, Log.writes, Subscription.key, bne, Bool.beq_comm]
  pending := by
    -- a write moves waits from the parked to the woken ones, and loses none
    have hperm := (perm_woken hset).length_eq
    have := h.pending
    rw [woken_append, subscriptions_append_singleton, List.append_nil]
    simp only [Store.pending, List.length_append, List.length_map, Except.toOption,
      Option.getD_some] at hperm this ⊢
    omega

end Told

/-- **One step for each call.** The log and the store of all calls. -/
theorem told_runAll (calls : List (Call W)) : Told calls (runAll calls).1 (runAll calls).2 := by
  induction calls using List.reverseRec with
  | nil => exact ⟨rfl, nofun, rfl, rfl⟩
  | append_singleton calls call ih =>
    rw [runAll_append_singleton]
    cases call with
    | subscribe path wait => exact ih.subscribe path wait
    | set path value =>
      rw [Call.run]
      cases hset : (runAll calls).2.set path value with
      | error err => exact ih.rejected path value err
      | ok result => exact ih.written hset

/-- Every entry of the log is what its call does on the store of the calls before it. -/
theorem log_entry (calls : List (Call W)) (j : Nat) :
    (runAll calls).1[j]? =
      calls[j]?.map fun call => (call, (call.run (runAll (calls.take j)).2).1) := by
  induction calls using List.reverseRec with
  | nil => rfl
  | append_singleton calls call ih =>
    have hlength := (told_runAll calls).length
    rw [runAll_append_singleton]
    rcases Nat.lt_trichotomy j calls.length with hj | rfl | hj
    · rw [List.getElem?_append_left (hlength ▸ hj), List.getElem?_append_left hj, ih,
        List.take_append_of_le_length (Nat.le_of_lt hj)]
    · rw [List.getElem?_concat_length, List.take_left, ← hlength, List.getElem?_concat_length]
      rfl
    · rw [List.getElem?_eq_none (by simp; omega), List.getElem?_eq_none (by simp; omega)]
      rfl

/-- A rejected write leaves the store as it was. -/
theorem store_of_rejected {calls : List (Call W)} {j : Nat} {call : Call W} {err : RenderError}
    (h : (runAll calls).1[j]? = some (call, .error err)) :
    (runAll (calls.take (j + 1))).2 = (runAll (calls.take j)).2 := by
  rw [log_entry] at h
  obtain ⟨call', hcall, hentry⟩ := Option.map_eq_some_iff.mp h
  rw [List.take_add_one, hcall, Option.toList, runAll_append_singleton]
  cases call' with
  | subscribe path wait => cases hentry
  | set path value =>
    rw [Call.run] at hentry ⊢
    split at hentry
    · rfl
    · cases hentry

/-- At most one write serves a subscription, and there is one as soon as it is not unserved. -/
theorem Log.existsUnique_serves (log : Log W) (x : Subscription W) :
    (∃! j, log.Serves x j) ↔ ¬log.Unserved x := by
  constructor
  · rintro ⟨j, ⟨hlt, hwrites, -⟩, -⟩ h
    refine h j ?_ hlt hwrites
    by_contra hj
    rw [writesAt, List.getElem?_eq_none (Nat.le_of_not_lt hj)] at hwrites
    cases hwrites
  · intro h
    have hex : ∃ j, x.position < j ∧ log.writesAt x.key j := by
      simp only [Unserved, not_forall] at h
      obtain ⟨j, -, hlt, hwrites⟩ := h
      exact ⟨j, hlt, of_not_not hwrites⟩
    classical
    -- of the writes under its key behind it, the first one serves the subscription
    have hfirst := Nat.find_spec hex
    refine ⟨Nat.find hex, ⟨hfirst.1, hfirst.2, fun k hk hlt hwrites =>
      Nat.find_min hex hk ⟨hlt, hwrites⟩⟩, fun j ⟨hlt, hwrites, hnone⟩ => ?_⟩
    rcases Nat.lt_trichotomy j (Nat.find hex) with hj | hj | hj
    · exact absurd ⟨hlt, hwrites⟩ (Nat.find_min hex hj)
    · exact hj
    · exact absurd hfirst.2 (hnone _ hj hfirst.1)

/-- **Every wait is woken once, by the write for which it waits.** In the log of any calls on a
store

* each call is on the store of the calls before it;
* a successful write has woken the subscriptions that it is the first to serve, in order, and
  nobody else;
* a rejected write has changed nothing;
* one write serves a subscription, unless there is none behind it under its key;
* those are the ones that are parked still, in order, and their number is what subscriptions there
  were without those that were woken. -/
theorem woken_exactly (calls : List (Call W)) :
    (∀ j, (runAll calls).1[j]? =
        calls[j]?.map fun call => (call, (Call.run call (runAll (calls.take j)).2).1)) ∧
      (∀ j path value woken, (runAll calls).1[j]? = some (.set path value, .ok woken) →
        woken = ((subscriptions calls).filter fun x => (runAll calls).1.Serves x j).map
          (·.wait)) ∧
      (∀ j path value err, (runAll calls).1[j]? = some (.set path value, .error err) →
        (runAll (calls.take (j + 1))).2 = (runAll (calls.take j)).2) ∧
      (∀ x ∈ subscriptions calls,
        (∃! j, (runAll calls).1.Serves x j) ↔ ¬(runAll calls).1.Unserved x) ∧
      (runAll calls).2.parked =
        ((subscriptions calls).filter fun x => (runAll calls).1.Unserved x).map
          (fun x => (x.key, x.wait)) ∧
      (runAll calls).2.pending = (subscriptions calls).length - (runAll calls).1.woken.length ∧
      (runAll calls).1.woken.length ≤ (subscriptions calls).length := by
  have told := told_runAll calls
  have hcount := told.pending
  exact ⟨log_entry calls, told.woken, fun _ _ _ _ h => store_of_rejected h,
    fun x _ => Log.existsUnique_serves _ x, told.parked, by omega, by omega⟩

/-- Waits for two variables, and writes to one of them. -/
def waitsAndWrites : List (Call Nat) :=
  [.subscribe ⟨["a"]⟩ 1, .subscribe ⟨["b"]⟩ 2, .subscribe ⟨["a", "x"]⟩ 3,
    .set ⟨["a", "x"]⟩ (.bool true), .set ⟨["a"]⟩ (.bool true), .subscribe ⟨["a"]⟩ 4,
    .set ⟨["a"]⟩ (.bool false)]

/-- The first write is rejected and wakes nobody. The second wakes both waits that there are for its
variable, and a wait that comes behind it is left to the third. The wait for the other variable
stays parked, served by no write. -/
theorem woken_exactly_rejected :
    ((runAll waitsAndWrites).1.map (·.2)) =
      [.ok [], .ok [], .ok [], .error (.malformedPath ⟨["a", "x"]⟩ (.unset "a")), .ok [1, 3],
        .ok [], .ok [4]] ∧
    (∃! j, (runAll waitsAndWrites).1.Serves ⟨2, ⟨["a", "x"]⟩, 3⟩ j) ∧
    (¬∃! j, (runAll waitsAndWrites).1.Serves ⟨1, ⟨["b"]⟩, 2⟩ j) ∧
    (runAll waitsAndWrites).2.parked = [("b", 2)] ∧ (runAll waitsAndWrites).2.pending = 1 := by
  obtain ⟨-, -, -, hserves, hparked, hpending, -⟩ := woken_exactly waitsAndWrites
  refine ⟨rfl, ?_, ?_, hparked.trans rfl, hpending.trans rfl⟩
  · exact (hserves ⟨2, ⟨["a", "x"]⟩, 3⟩ (by simp [subscriptions, waitsAndWrites])).mpr (by decide)
  · rw [hserves ⟨1, ⟨["b"]⟩, 2⟩ (by simp [subscriptions, waitsAndWrites]), not_not]
    decide

end StreamingTemplate.Store
