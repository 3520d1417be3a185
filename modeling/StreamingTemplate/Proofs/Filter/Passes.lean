import StreamingTemplate.Proofs.Filter.Traced
import StreamingTemplate.Filter.Scripted

/-!
# How many passes an operation takes

A running stage can send through any handle it holds. What it sends to itself or to a later link is
still forwarded in the pass that runs it; only what it sends *upstream*, to a link the pass has left
behind, makes another pass necessary. So the passes of an operation are counted against the messages
its stages send while it runs: each definition follows the one of the same name of the chain through
the same states, as the deeds do.

* `runLink_collected` — a link that sends nothing upstream leaves nothing behind;
* `exists_upstream` — after a pass something is late only if a stage has sent upstream in it;
* `passes_le`, `propagate_of_upstream_le` — so the passes are paid for, and end with the messages;
* `isSome_propagate_iff` — the passes counted are the fuel that is needed;
* `propagate_of_silent` — stages that send nothing need one pass;
* `Operation.passes_bounded` — what this means for the operations of a chain.
-/

namespace StreamingTemplate.Chain

/-! ## Messages

Deeds tell what was sent and where to, but not by whom. A message adds the position of the
sender, which is known while one link is run, and it is upstream if the receiver is in front of
it. -/

/-- What a running stage sends through a handle. -/
structure Message where
  /-- the position of the running stage -/
  sender : Nat
  /-- the position of the link the handle belongs to -/
  receiver : Nat
  output : LateOutput
  deriving DecidableEq, Repr

/-- Whether a message is for a link in front of its sender. -/
def Message.upstream (message : Message) : Bool := decide (message.receiver < message.sender)

/-- The number of messages that are for a link in front of their sender. -/
def upstreamCount (messages : List Message) : Nat := messages.countP Message.upstream

theorem upstreamCount_append (messages more : List Message) :
    upstreamCount (messages ++ more) = upstreamCount messages + upstreamCount more :=
  List.countP_append

variable {σ : Type} [FilterStage σ]

/-- What the stage at a position sends while it runs. -/
def runLinkMessages (p : Passing σ) (index : Nat) : List Message :=
  (runLinkDeeds p index).filterMap fun
    | .sent receiver output => some { sender := index, receiver, output }
    | .call .. | .put .. => none

/-- What is sent while links run in order. -/
def linksMessages : Passing σ → List Nat → List Message
  | _, [] => []
  | p, index :: rest => runLinkMessages p index ++ linksMessages (runLink p index) rest

/-- What is sent in one pass over all links. -/
def passMessages (handles : Handles) (chunks : List String) (c : Chain σ) : List Message :=
  linksMessages { chunks, upstreamEnded := c.inputEnded, chain := c.collect handles, handles }
    (List.range c.links.length)

/-- What is sent until no link has late output left, or the fuel runs out. -/
def propagateMessages : Nat → Handles → List String → Chain σ → List Message
  | 0, _, _, _ => []
  | fuel + 1, handles, chunks, c =>
    let p := c.pass handles chunks
    passMessages handles chunks c ++
      if p.chain.hasLate then propagateMessages fuel p.handles [] p.chain else []

/-- The number of passes until no link has late output left, or the fuel runs out. -/
def passes : Nat → Handles → List String → Chain σ → Nat
  | 0, _, _, _ => 0
  | fuel + 1, handles, chunks, c =>
    let p := c.pass handles chunks
    1 + if p.chain.hasLate then passes fuel p.handles [] p.chain else 0

/-- A message of a link is a send among its deeds. -/
theorem mem_runLinkMessages {p : Passing σ} {index : Nat} {message : Message} :
    message ∈ runLinkMessages p index ↔
      message.sender = index ∧ message.output ∈ sends message.receiver (runLinkDeeds p index) := by
  obtain ⟨sender, receiver, output⟩ := message
  simp only [runLinkMessages, sends, List.mem_filterMap]
  constructor
  · rintro ⟨deed, hdeed, hmessage⟩
    cases deed with
    | call | put => cases hmessage
    | sent =>
      cases hmessage
      exact ⟨rfl, _, hdeed, if_pos rfl⟩
  · rintro ⟨rfl, deed, hdeed, houtput⟩
    cases deed with
    | call | put => cases houtput
    | sent link sentOutput =>
      obtain ⟨rfl, hsame⟩ := Option.ite_none_right_eq_some.mp houtput
      obtain rfl := Option.some.inj hsame
      exact ⟨_, hdeed, rfl⟩

/-! ## One pass

A pass goes from the first link to the last. What is sent to a link that has not run yet is taken
along, so after a pass without an upstream message nothing is late anywhere. The invariant is
that nothing is late in front of the link that is run next. -/

omit [FilterStage σ] in
/-- Nothing is late at the links in front of a position. -/
def CollectedUpTo (k : Nat) (c : Chain σ) : Prop :=
  ∀ i link, i < k → c.links[i]? = some link → link.late = {}

/-- **Running a link** that sends nothing upstream forwards what is late at it, and leaves nothing
at the links in front of it. -/
theorem runLink_collected {p : Passing σ} {k : Nat} (hk : k < p.chain.links.length)
    (hmailbox : p.chain.mailbox = []) (hfront : CollectedUpTo k p.chain)
    (hdown : ∀ message ∈ runLinkMessages p k, message.upstream = false) :
    CollectedUpTo (k + 1) (runLink p k).chain := by
  obtain ⟨ran, hran⟩ : ∃ link, p.chain.links[k]? = some link := ⟨_, List.getElem?_eq_getElem hk⟩
  intro i link hi hlink
  by_cases hik : i = k
  · subst hik
    rw [getElem?_runLink_self hran] at hlink
    cases hlink
    rfl
  · rw [getElem?_runLink_of_ne hran hik] at hlink
    obtain ⟨before, hbefore, rfl⟩ := Option.map_eq_some_iff.mp hlink
    -- what has come to the link is what the running stage has sent there
    have hsends : sends i (runLinkDeeds p k) = [] := by
      refine List.eq_nil_iff_forall_not_mem.mpr fun output houtput => ?_
      have hmessage := hdown ⟨k, i, output⟩ (mem_runLinkMessages.mpr ⟨rfl, houtput⟩)
      simp only [Message.upstream, decide_eq_false_iff_not] at hmessage
      omega
    have hlate := (ran_accounted hran).late i
    rw [hmailbox, hsends] at hlate
    simp [hfront i before (by omega) hbefore, hlate]

/-- The links from a position on, one after the other: each leaves nothing late in front of the
next. -/
theorem foldl_runLink_collected {p : Passing σ} {k : Nat} (m : Nat)
    (hm : k + m = p.chain.links.length) (htelling : Telling k p) (hfront : CollectedUpTo k p.chain)
    (hdown : ∀ message ∈ linksMessages p (List.range' k m), message.upstream = false) :
    CollectedUpTo (k + m) ((List.range' k m).foldl runLink p).chain := by
  induction m generalizing p k with
  | zero => exact hfront
  | succ m ih =>
    rw [List.range'_succ, linksMessages] at hdown
    obtain ⟨hhere, hrest⟩ := List.forall_mem_append.mp hdown
    obtain ⟨htold, hlength⟩ := runLink_told htelling (by omega)
    have hran := runLink_collected (by omega) htelling.mailbox hfront hhere
    rw [List.range'_succ, List.foldl_cons, show k + (m + 1) = k + 1 + m by omega]
    exact ih (by omega) htold hran hrest

/-- After a pass without a message upstream nothing is late. -/
theorem hasLate_pass {handles : Handles} {chunks : List String} {c : Chain σ}
    (hdown : ∀ message ∈ passMessages handles chunks c, message.upstream = false) :
    (c.pass handles chunks).chain.hasLate = false := by
  have hstart : Telling 0 (⟨chunks, c.inputEnded, c.collect handles, handles⟩ : Passing σ) :=
    ⟨fun i link hi => absurd hi (Nat.not_lt_zero i), rfl, rfl⟩
  have hlength : 0 + c.links.length = (c.collect handles).links.length := by simp
  have hlinks := (foldl_runLink_told c.links.length hstart hlength).2
  rw [passMessages, List.range_eq_range'] at hdown
  have hcollected := foldl_runLink_collected c.links.length hlength hstart
    (fun i link hi => absurd hi (Nat.not_lt_zero i)) hdown
  rw [pass_eq_foldl, List.range_eq_range', hasLate, List.any_eq_false]
  intro link hlink
  obtain ⟨i, hi⟩ := List.getElem?_of_mem hlink
  have hlt : i < c.links.length := by
    have := (List.getElem?_eq_some_iff.mp hi).1
    simp only [hlinks, length_collect] at this
    exact this
  simp [hcollected i link (by omega) hi, Output.isEmpty]

/-- **A pass that leaves something late** has had a message upstream. -/
theorem exists_upstream {handles : Handles} {chunks : List String} {c : Chain σ}
    (hlate : (c.pass handles chunks).chain.hasLate = true) :
    1 ≤ upstreamCount (passMessages handles chunks c) := by
  rw [upstreamCount, Nat.one_le_iff_ne_zero]
  intro hzero
  rw [List.countP_eq_zero] at hzero
  rw [hasLate_pass fun message hmessage => by simpa using hzero message hmessage] at hlate
  cases hlate

/-! ## All passes

Another pass is made only if something is late after one, and then that pass has had an upstream
message. So the passes after the first are counted against distinct messages, and passes end when
messages do. -/

/-- **Each pass after the first is paid for** by a message upstream in the pass before it. -/
theorem passes_le (fuel : Nat) (handles : Handles) (chunks : List String) (c : Chain σ) :
    passes fuel handles chunks c ≤
      1 + upstreamCount (propagateMessages fuel handles chunks c) := by
  induction fuel generalizing handles chunks c with
  | zero => exact Nat.zero_le _
  | succ fuel ih =>
    rw [passes, propagateMessages, upstreamCount_append]
    split
    · rename_i hlate
      have hpaid := exists_upstream hlate
      have hrest := ih (c.pass handles chunks).handles [] (c.pass handles chunks).chain
      omega
    · omega

/-- Passing that runs out of fuel has had a message upstream for each unit of it. -/
theorem le_upstreamCount {fuel : Nat} {handles : Handles} {chunks : List String} {c : Chain σ}
    (h : c.propagate fuel handles chunks = none) :
    fuel ≤ upstreamCount (propagateMessages fuel handles chunks c) := by
  induction fuel generalizing handles chunks c with
  | zero => exact Nat.zero_le _
  | succ fuel ih =>
    cases hlate : (c.pass handles chunks).chain.hasLate with
    | false =>
      simp only [propagate, hlate] at h
      cases h
    | true =>
      simp only [propagate, hlate, if_true, Option.map_eq_none_iff] at h
      have hpaid := exists_upstream hlate
      have hrest := ih h
      simp only [propagateMessages, hlate, if_true, upstreamCount_append]
      omega

/-- **Passing ends** when the messages upstream do. -/
theorem propagate_of_upstream_le {bound : Nat} {handles : Handles} {chunks : List String}
    {c : Chain σ}
    (hbound : upstreamCount (propagateMessages (bound + 1) handles chunks c) ≤ bound) :
    ∃ r, c.propagate (bound + 1) handles chunks = some r := by
  rw [← Option.ne_none_iff_exists']
  intro hnone
  have hfuel := le_upstreamCount hnone
  omega

/-- One pass is enough if nothing is sent upstream in it. -/
theorem propagate_of_downstream {fuel : Nat} {handles : Handles} {chunks : List String}
    {c : Chain σ}
    (hdown : ∀ message ∈ propagateMessages (fuel + 1) handles chunks c, message.upstream = false) :
    ∃ r, c.propagate (fuel + 1) handles chunks = some r ∧
      passes (fuel + 1) handles chunks c = 1 ∧ r.chain.AtRest := by
  have hlate := hasLate_pass fun message hmessage => hdown message (List.mem_append_left _ hmessage)
  obtain ⟨-, hmailbox⟩ := pass_told handles chunks c
  let p := c.pass handles chunks
  refine ⟨{ chunks := p.chunks, chain := p.chain, handles := p.handles }, ?_, ?_,
    atRest_of_hasLate hmailbox hlate⟩
  · simp only [propagate, hlate]
    rfl
  · simp [passes, hlate]

/-- The passes of an operation that returns are the least fuel with which it does. -/
theorem isSome_propagate_iff {fuel : Nat} {handles : Handles} {chunks : List String} {c : Chain σ}
    (h : (c.propagate fuel handles chunks).isSome) (given : Nat) :
    (c.propagate given handles chunks).isSome ↔ passes fuel handles chunks c ≤ given := by
  induction fuel generalizing handles chunks c given with
  | zero => cases h
  | succ fuel ih =>
    cases given with
    | zero => simp [propagate, passes]
    | succ given =>
      cases hlate : (c.pass handles chunks).chain.hasLate with
      | false => simp [propagate, passes, hlate]
      | true =>
        simp only [propagate, hlate, if_true, Option.isSome_map] at h
        simp only [propagate, passes, hlate, if_true, Option.isSome_map, ih h given]
        omega

/-! ## Stages that send nothing

Such stages have no upstream message by definition, whatever was sent from outside before the
operation. -/

omit [FilterStage σ] in
theorem sent_not_mem_actAllDeeds {id link : Nat} {e : Effects} {actions : List StageAction}
    (h : ∀ a ∈ actions, a.sends = false) {receiver : Nat} {output : LateOutput} :
    Deed.sent receiver output ∉ actAllDeeds id link e actions := by
  induction actions generalizing e with
  | nil => exact List.not_mem_nil
  | cons a rest ih =>
    rw [actAllDeeds, List.mem_append, not_or]
    refine ⟨?_, ih fun b hb => h b (List.mem_cons_of_mem _ hb)⟩
    have ha := h a List.mem_cons_self
    cases a with
    | push | finish => simp [actDeeds]
    | send => cases ha
    | release | copy => exact List.not_mem_nil

/-- A stage whose calls send nothing sends nothing. -/
theorem sent_not_mem_callAllDeeds (hsilent : SilentStages fun _ : σ => True) {id link : Nat}
    {stage : σ} {e : Effects} {called : List StageCall} {receiver : Nat} {output : LateOutput} :
    Deed.sent receiver output ∉ callAllDeeds id link stage e called := by
  induction called generalizing stage e with
  | nil => exact List.not_mem_nil
  | cons call rest ih =>
    have hactions : ∀ a ∈ (call.on stage).2, a.sends = false := by
      cases call with
      | accept chunk => exact hsilent.accept_silent stage chunk trivial
      | finish => exact hsilent.finish_silent stage trivial
    simp only [callAllDeeds, List.mem_cons, List.mem_append, reduceCtorEq, false_or, not_or]
    exact ⟨sent_not_mem_actAllDeeds hactions, ih⟩

/-- No link of such stages sends anything in a pass. -/
theorem linksMessages_silent (hsilent : SilentStages fun _ : σ => True) (p : Passing σ)
    (indices : List Nat) : linksMessages p indices = [] := by
  have hlink (p : Passing σ) (index : Nat) : runLinkMessages p index = [] := by
    refine List.eq_nil_iff_forall_not_mem.mpr fun message hmessage => ?_
    obtain ⟨-, hsent⟩ := mem_runLinkMessages.mp hmessage
    obtain ⟨deed, hdeed, hdeed'⟩ := List.mem_filterMap.mp hsent
    cases deed with
    | call | put => cases hdeed'
    | sent receiver output =>
      rw [runLinkDeeds] at hdeed
      split at hdeed
      · cases hdeed
      · exact sent_not_mem_callAllDeeds hsilent hdeed
  induction indices generalizing p with
  | nil => rfl
  | cons index rest ih => rw [linksMessages, hlink, ih, List.nil_append]

/-- **Stages that send nothing** need one pass, whatever was sent from outside before. -/
theorem propagate_of_silent (hsilent : SilentStages fun _ : σ => True) (fuel : Nat)
    (handles : Handles) (chunks : List String) (c : Chain σ) :
    ∃ r, c.propagate (fuel + 1) handles chunks = some r := by
  have hpass : passMessages handles chunks c = [] := linksMessages_silent hsilent _ _
  have hlate : (c.pass handles chunks).chain.hasLate = false :=
    hasLate_pass fun message hmessage => by simp [hpass] at hmessage
  simp only [propagate, hlate]
  exact ⟨_, rfl⟩

/-! ## The operations

The three operations of a chain are passing on, with a chunk, with the end, or with nothing. -/

/-- What the user of a chain asks it to do. -/
inductive Operation where
  | accept (chunk : String)
  | finish
  | poll
  deriving DecidableEq, Repr

namespace Operation

/-- What an operation returns. -/
def run (fuel : Nat) (handles : Handles) (c : Chain σ) : Operation → Option (Result σ)
  | .accept chunk => c.accept fuel handles chunk
  | .finish => c.finish fuel handles
  | .poll => c.poll fuel handles

omit [FilterStage σ] in
/-- The chain an operation passes through. -/
def enter (c : Chain σ) : Operation → Chain σ
  | .accept _ | .poll => c
  | .finish => { c with inputEnded := true }

/-- What an operation gives to the first link. -/
def chunks : Operation → List String
  | .accept chunk => [chunk]
  | .finish | .poll => []

/-- What the stages send during an operation. -/
def messages (fuel : Nat) (handles : Handles) (c : Chain σ) (operation : Operation) :
    List Message :=
  propagateMessages fuel handles operation.chunks (operation.enter c)

/-- The number of passes of an operation. -/
def passes (fuel : Nat) (handles : Handles) (c : Chain σ) (operation : Operation) : Nat :=
  Chain.passes fuel handles operation.chunks (operation.enter c)

theorem run_eq_propagate (fuel : Nat) (handles : Handles) (c : Chain σ) (operation : Operation) :
    operation.run fuel handles c =
      (operation.enter c).propagate fuel handles operation.chunks := by
  cases operation <;> rfl

/-- **Operations take one pass, and one more for each message upstream at most.** For every chain
and every operation on it: if the running stages send only to themselves and to later links, the
operation returns after a single pass with nothing late in any link and nothing in the mailbox; with
whatever fuel, the passes after the first, which are the fuel a returning operation needs, are no
more than the messages sent upstream; and if these stay within a bound however long the operation is
let run, it returns. -/
theorem passes_bounded (handles : Handles) (c : Chain σ) (operation : Operation) :
    (∀ fuel, (∀ message ∈ operation.messages (fuel + 1) handles c,
        message.sender ≤ message.receiver) →
      ∃ r, operation.run (fuel + 1) handles c = some r ∧
        operation.passes (fuel + 1) handles c = 1 ∧
        r.chain.mailbox = [] ∧ ∀ link ∈ r.chain.links, link.late = {}) ∧
    (∀ fuel, operation.passes fuel handles c ≤
        1 + upstreamCount (operation.messages fuel handles c) ∧
      ((operation.run fuel handles c).isSome → ∀ given,
        (operation.run given handles c).isSome ↔ operation.passes fuel handles c ≤ given)) ∧
    ((∃ bound, ∀ fuel, upstreamCount (operation.messages fuel handles c) ≤ bound) →
      ∃ fuel r, operation.run fuel handles c = some r) := by
  refine ⟨?_, ?_, ?_⟩
  · intro fuel hdown
    obtain ⟨r, hrun, hpasses, hrest⟩ := propagate_of_downstream fun message hmessage =>
      decide_eq_false (Nat.not_lt.mpr (hdown message hmessage))
    exact ⟨r, (run_eq_propagate ..).trans hrun, hpasses, hrest.mailbox, hrest.late⟩
  · intro fuel
    refine ⟨passes_le fuel handles operation.chunks (operation.enter c), fun hreturns given => ?_⟩
    rw [run_eq_propagate] at hreturns ⊢
    exact isSome_propagate_iff hreturns given
  · rintro ⟨bound, hbound⟩
    obtain ⟨r, hrun⟩ := propagate_of_upstream_le (hbound (bound + 1))
    exact ⟨bound + 1, r, (run_eq_propagate ..).trans hrun⟩

/-- A stage that passes everything on, and one behind it that sends one chunk through its handle. -/
def answering : Chain ScriptedStage × Handles :=
  ofStages {}
    [{ script := { accept := [.echo], keep := some "first" }, args := [] },
      { script := { accept := [.echo, .once (.send "first" "answer")] }, args := [] }]

/-- Taking a chunk, the chain takes a second pass for the one message upstream; finishing, it takes
a single one. -/
theorem passes_bounded_answering :
    Operation.messages 2 answering.2 answering.1 (.accept "chunk") =
        [⟨1, 0, .chunk "answer"⟩] ∧
      Operation.passes 2 answering.2 answering.1 (.accept "chunk") = 2 ∧
      Operation.passes 2 answering.2 answering.1 (.accept "chunk") ≤
        1 + upstreamCount (Operation.messages 2 answering.2 answering.1 (.accept "chunk")) ∧
      ∃ r, Operation.finish.run 1 answering.2 answering.1 = some r ∧
        Operation.finish.passes 1 answering.2 answering.1 = 1 ∧
        r.chain.mailbox = [] ∧ ∀ link ∈ r.chain.links, link.late = {} := by
  have hmessages : Operation.finish.messages 1 answering.2 answering.1 = [] := rfl
  obtain ⟨-, hpasses, -⟩ := passes_bounded answering.2 answering.1 (.accept "chunk")
  obtain ⟨hsingle, -, -⟩ := passes_bounded answering.2 answering.1 .finish
  refine ⟨rfl, rfl, (hpasses 2).1, hsingle 0 fun message hmessage => ?_⟩
  rw [hmessages] at hmessage
  exact absurd hmessage List.not_mem_nil

end Operation

end StreamingTemplate.Chain
