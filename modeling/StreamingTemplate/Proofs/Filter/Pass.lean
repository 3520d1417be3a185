import StreamingTemplate.Filter.Chain

/-!
# What a pass over a chain does

The equations of running a stage and a link, with the bookkeeping of late output solved once: after
a collection every link holds, behind the late output it had, what the mailbox had for it
(`lateFor`), and the mailbox is empty.

* `getElem?_collect` — the links after a collection;
* `runLink_of_getElem?` — what running one link leaves: the stage has `ran`, its output with the
  late output that came while it ran, and the late output that came for the others;
* `pass_eq_foldl` — a pass is a fold of `runLink` from the collected chain.
-/

namespace StreamingTemplate

/-! ## Output

Outputs are put one behind the other: chunks as lists, the mark of an end as soon as either has
it. With `absorb` as a product and the empty output as its unit they are a monoid, and delivering
late output is multiplying with one more factor (`deliver_eq_absorb`). -/

namespace Output

@[simp] theorem chunks_absorb (out later : Output) :
    (out.absorb later).chunks = out.chunks ++ later.chunks := rfl

@[simp] theorem ended_absorb (out later : Output) :
    (out.absorb later).ended = (out.ended || later.ended) := rfl

@[simp] theorem absorb_empty (out : Output) : out.absorb {} = out := by
  simp [absorb]

@[simp] theorem empty_absorb (out : Output) : absorb {} out = out := by
  simp [absorb]

theorem absorb_assoc (a b c : Output) : (a.absorb b).absorb c = a.absorb (b.absorb c) := by
  simp [absorb, Bool.or_assoc]

/-- Delivering late output puts it behind everything else. -/
theorem deliver_absorb (out later : Output) (message : LateOutput) :
    (out.absorb later).deliver message = out.absorb (later.deliver message) := by
  cases message <;> simp [deliver, push, finish, absorb]

/-- Delivering one message is absorbing the output that consists of it. -/
theorem deliver_eq_absorb (out : Output) (message : LateOutput) :
    out.deliver message = out.absorb (deliver {} message) := by
  rw [← deliver_absorb, absorb_empty]

theorem isEmpty_iff (out : Output) : out.isEmpty = true ↔ out = {} := by
  obtain ⟨chunks, ended⟩ := out
  simp [isEmpty]

end Output

namespace Chain

/-! ## Collecting late output

Late output waits in the mailbox, tagged with the link it was sent for, until the chain is run
again. A collection deals it out. The lemmas say for one position what it gets, so that no proof
has to follow the messages through the mailbox. -/

/-- What a mailbox holds for the link at an index. -/
def lateFor (index : Nat) (mailbox : List (Nat × LateOutput)) : Output :=
  (mailbox.filter (·.1 = index)).foldl (fun out message => out.deliver message.2) {}

@[simp] theorem lateFor_nil (index : Nat) : lateFor index [] = {} := rfl

variable {σ : Type}

/-- One delivery changes one link, and only by what it has for later. -/
theorem getElem?_deliver (links : List (Link σ)) (message : Nat × LateOutput) (index : Nat) :
    (deliver links message)[index]? = links[index]?.map fun link =>
      if message.1 = index then { link with late := link.late.deliver message.2 } else link := by
  rw [deliver, List.getElem?_modify]
  split <;> cases links[index]? <;> rfl

theorem length_deliver (links : List (Link σ)) (message : Nat × LateOutput) :
    (deliver links message).length = links.length := by
  simp [deliver]

theorem length_foldl_deliver (mailbox : List (Nat × LateOutput)) (links : List (Link σ)) :
    (mailbox.foldl deliver links).length = links.length := by
  induction mailbox generalizing links with
  | nil => rfl
  | cons message rest ih => rw [List.foldl_cons, ih, length_deliver]

/-- Delivering in front of a fold of deliveries puts the earlier output in front. -/
theorem foldl_deliver_absorb (messages : List (Nat × LateOutput)) (first later : Output) :
    messages.foldl (fun out message => out.deliver message.2) (first.absorb later) =
      first.absorb (messages.foldl (fun out message => out.deliver message.2) later) := by
  induction messages generalizing later with
  | nil => rfl
  | cons message rest ih => rw [List.foldl_cons, List.foldl_cons, Output.deliver_absorb, ih]

/-- The first message comes in front of what the others hold for the link, if it is for that link
at all. -/
theorem lateFor_cons (index : Nat) (message : Nat × LateOutput) (rest : List (Nat × LateOutput)) :
    lateFor index (message :: rest) =
      (if message.1 = index then Output.deliver {} message.2 else {}).absorb
        (lateFor index rest) := by
  by_cases h : message.1 = index
  · have hd : Output.deliver {} message.2 = (Output.deliver {} message.2).absorb {} := by simp
    simp only [lateFor, List.filter_cons, h, decide_true, if_true, List.foldl_cons]
    rw [hd, foldl_deliver_absorb]
    simp
  · simp [lateFor, h]

/-- After deliveries a link holds what was delivered for it behind what it had. -/
theorem getElem?_foldl_deliver (mailbox : List (Nat × LateOutput)) (links : List (Link σ))
    (index : Nat) :
    (mailbox.foldl deliver links)[index]? =
      links[index]?.map fun link =>
        { link with late := link.late.absorb (lateFor index mailbox) } := by
  induction mailbox generalizing links with
  | nil =>
    change links[index]? = _
    cases links[index]? <;> simp
  | cons message rest ih =>
    rw [List.foldl_cons, ih, getElem?_deliver, lateFor_cons]
    cases links[index]? with
    | none => rfl
    | some link =>
      by_cases h : message.1 = index
      · rw [Option.map_some, Option.map_some, if_pos h, if_pos h, Output.deliver_eq_absorb,
          Option.map_some, Output.absorb_assoc]
      · simp [h]

@[simp] theorem mailbox_collect (handles : Handles) (c : Chain σ) :
    (c.collect handles).mailbox = [] := rfl

@[simp] theorem length_collect (handles : Handles) (c : Chain σ) :
    (c.collect handles).links.length = c.links.length :=
  length_foldl_deliver c.mailbox c.links

/-- **The links after a collection**: each has, behind the late output it had already, what the
mailbox had for it, in the order in which it was sent. -/
theorem getElem?_collect (handles : Handles) (c : Chain σ) (index : Nat) :
    (c.collect handles).links[index]? =
      c.links[index]?.map fun link =>
        { link with late := link.late.absorb (lateFor index c.mailbox) } :=
  getElem?_foldl_deliver c.mailbox c.links index

/-! ## Running one stage

A stage is fed the chunks that have come and then told of the end, if that has come and it was
not told before. What its actions do is kept in `Effects`, apart from the chain it belongs to. -/

variable [FilterStage σ]

theorem feed_cons (id : Nat) (stage : σ) (e : Effects) (chunk : String) (rest : List String) :
    feed id stage e (chunk :: rest) =
      feed id (FilterStage.accept stage chunk).1
        (actAll id e (FilterStage.accept stage chunk).2) rest := rfl

/-- Running a stage changes its link only in the stage and in having been told of the end. -/
theorem runStage_link (id : Nat) (upstreamEnded : Bool) (link : Link σ) (chunks : List String)
    (e : Effects) :
    (runStage id upstreamEnded link chunks e).1.late = link.late ∧
      (runStage id upstreamEnded link chunks e).1.ended = link.ended ∧
      (runStage id upstreamEnded link chunks e).1.finished = (link.finished || upstreamEnded) := by
  unfold runStage
  cases upstreamEnded <;> cases link.finished <;> simp

/-! ## Running one link

Running a link takes its late output out, runs its stage, and hands on what the two are together.
Output that was sent in the name of the stage while it ran does not wait for another pass, but
goes along. -/

/-- A link with its late output taken out runs on the chunks that have come to it. -/
def ran (p : Passing σ) (link : Link σ) : Link σ × Effects :=
  runStage p.chain.id p.upstreamEnded { link with late := {} } p.chunks
    { out := link.late, mailbox := p.chain.mailbox, handles := p.handles }

/-- What a link hands on: the output of its stage, and behind it what was sent in the name of that
stage while it ran. -/
def handedOn (p : Passing σ) (index : Nat) (link : Link σ) : Output :=
  (ran p link).2.out.absorb (lateFor index (ran p link).2.mailbox)

/-- **What running one link leaves.** The link has run, what it hands on is on its way to the
next one, and what was sent for other links meanwhile waits with them. -/
theorem runLink_of_getElem? {p : Passing σ} {index : Nat} {link : Link σ}
    (h : p.chain.links[index]? = some link) :
    runLink p index =
      { chunks := (handedOn p index link).chunks
        upstreamEnded := link.ended || (handedOn p index link).ended
        handles := (ran p link).2.handles
        chain :=
          { p.chain with
            links := ((ran p link).2.mailbox.foldl deliver
              (p.chain.links.set index (ran p link).1)).set index
                { (ran p link).1 with
                  ended := link.ended || (handedOn p index link).ended
                  late := {} }
            mailbox := []
            handlesDropped := p.chain.handlesDropped ||
              !(ran p link).2.handles.live p.chain.id } } := by
  obtain ⟨hlate, hended, -⟩ := runStage_link p.chain.id p.upstreamEnded { link with late := {} }
    p.chunks { out := link.late, mailbox := p.chain.mailbox, handles := p.handles }
  have hlt : index < p.chain.links.length := (List.getElem?_eq_some_iff.mp h).1
  have hcollected : ((ran p link).2.mailbox.foldl deliver
      (p.chain.links.set index (ran p link).1))[index]? =
        some { (ran p link).1 with late := lateFor index (ran p link).2.mailbox } := by
    rw [getElem?_foldl_deliver, List.getElem?_set_self hlt]
    simp only [Option.map_some, ran, hlate, Output.empty_absorb]
  unfold ran at hcollected
  simp only [runLink, h, collect, hcollected, handedOn, ran, hended]

/-- A pass runs the links in order, from the chain with its late output collected. -/
theorem pass_eq_foldl (handles : Handles) (chunks : List String) (c : Chain σ) :
    c.pass handles chunks =
      (List.range c.links.length).foldl runLink
        { chunks, upstreamEnded := c.inputEnded, chain := c.collect handles, handles } := by
  rw [pass, length_collect]
  rfl

end Chain

end StreamingTemplate
