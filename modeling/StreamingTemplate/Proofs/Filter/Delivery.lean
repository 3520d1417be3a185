import StreamingTemplate.Proofs.Filter.Log
import StreamingTemplate.Proofs.Filter.Inline
import StreamingTemplate.Filter.Scripted
import StreamingTemplate.Pipe

/-!
# Delivery through a chain

Chunks are on their way through a chain in two places: in front of a link, between the one that let
them go and the one that accepts them, and late, in the mailbox or collected for a link. A `Session`
keeps the account of everything that went in and out, and `Kept` says that the books balance at
every moment of a pass: what was sent through a handle is what has been let go followed by what is
still late, and what has come to the next link is a merge of what was let go with what was pushed.

* `runLink_forwarded` — running a link lets everything go that it has, and accepts what came to it;
* `Kept.runLink`, `Kept.pass`, `Kept.propagate`, `Kept.run` — the books stay balanced through a
  link, a pass, an operation and whatever is done to the chain from outside;
* `Kept.merges` — so after an operation, when nothing is late, each position has received exactly
  what was produced in front of it;
* `Session.delivers` — and so has everything between the input of the chain and its caller.
-/

namespace StreamingTemplate

namespace Chain

variable {σ : Type}

/-! ## Late chunks

A late chunk lies in the mailbox or, after a collection, with the link it was sent for.
`undelivered` reads both together, so that collecting and waiting, which only move chunks from
one place to the other, do not change it. -/

/-- The late chunks of a link, collected or still in the mailbox. -/
def undelivered (c : Chain σ) (i : Nat) : List String :=
  (c.links[i]?.map fun link => link.late.chunks).getD [] ++ (lateFor i c.mailbox).chunks

theorem undelivered_of_getElem? {c : Chain σ} {i : Nat} {link : Link σ}
    (h : c.links[i]? = some link) :
    c.undelivered i = link.late.chunks ++ (lateFor i c.mailbox).chunks := by
  simp [undelivered, h]

/-- Collecting moves late chunks and loses none. -/
theorem undelivered_collect (handles : Handles) {c : Chain σ} {i : Nat}
    (h : i < c.links.length) : (c.collect handles).undelivered i = c.undelivered i := by
  have hlink := List.getElem?_eq_getElem h
  have hcollected := getElem?_collect handles c i
  rw [hlink, Option.map_some] at hcollected
  rw [undelivered_of_getElem? hcollected, undelivered_of_getElem? hlink]
  simp

/-- Waiting takes one message out of the mailbox, or finds all handles gone. -/
theorem waitLate_cases {handles : Handles} {c c' : Chain σ}
    (hwait : c.waitLate? handles = some c') :
    (∃ message rest, c.mailbox = message :: rest ∧
      c' = { c with links := deliver c.links message, mailbox := rest }) ∨
    c' = { c with handlesDropped := true } := by
  unfold waitLate? at hwait
  split at hwait
  · cases hwait
  · split at hwait
    · rename_i message rest hmailbox
      cases hwait
      exact .inl ⟨message, rest, hmailbox, rfl⟩
    · split at hwait
      · cases hwait
      · cases hwait
        exact .inr rfl

/-- Waiting loses no late chunk either. -/
theorem undelivered_waitLate {handles : Handles} {c c' : Chain σ}
    (hwait : c.waitLate? handles = some c') {i : Nat} (h : i < c.links.length) :
    c'.undelivered i = c.undelivered i := by
  obtain ⟨message, rest, hmailbox, rfl⟩ | rfl := waitLate_cases hwait
  · have hlink := List.getElem?_eq_getElem h
    have hdelivered := getElem?_deliver c.links message i
    rw [hlink, Option.map_some] at hdelivered
    rw [undelivered_of_getElem? hdelivered, undelivered_of_getElem? hlink, hmailbox, lateFor_cons]
    by_cases hi : message.1 = i
    · have hd := Output.deliver_eq_absorb c.links[i].late message.2
      simp [hi, hd]
    · simp [hi]
  · rfl

/-- Waiting adds no link. -/
theorem length_waitLate {handles : Handles} {c c' : Chain σ}
    (hwait : c.waitLate? handles = some c') : c'.links.length = c.links.length := by
  obtain ⟨message, rest, -, rfl⟩ | rfl := waitLate_cases hwait
  · exact length_deliver c.links message
  · rfl

/-- A send puts its chunk behind those that are late already, -/
theorem undelivered_post (c : Chain σ) (i link : Nat) (output : LateOutput) :
    (c.post link output).undelivered i = c.undelivered i ++ sent i (postLog link output) := by
  rw [undelivered, undelivered, post, lateFor_post, List.append_assoc]

/-- Sending through a slot posts to a link of the chain, with the events of that, or does nothing.
-/
theorem sendFrom_cases (handles : Handles) (slot : String) (output : LateOutput) (c : Chain σ) :
    (∃ link, (sendFrom handles slot output (some c)).2 = some (c.post link output) ∧
      sendLog c.id handles slot output = postLog link output) ∨
    ((sendFrom handles slot output (some c)).2 = some c ∧
      sendLog c.id handles slot output = []) := by
  simp only [sendFrom, sendLog]
  cases handles.get? slot with
  | none => exact .inr ⟨rfl, rfl⟩
  | some handle =>
    by_cases hid : c.id = handle.chain
    · exact .inl ⟨handle.link, by simp [hid], by simp [hid]⟩
    · exact .inr ⟨by simp [hid], by simp [Ne.symm hid]⟩

/-- and a chain at rest has none. -/
theorem AtRest.undelivered {c : Chain σ} (h : c.AtRest) (i : Nat) : c.undelivered i = [] := by
  rw [Chain.undelivered, h.mailbox]
  cases hlink : c.links[i]? with
  | none => rfl
  | some link => simp [h.late link (List.mem_of_getElem? hlink)]

variable [FilterStage σ]

/-! ## One link

What a link hands on has three parts in this order: what was late for it before it ran, the
chunks that its stage pushes, and what was sent for it while it ran. Some of the late chunks may
come in front of the pushed ones and some behind, and this is why the books speak of a merge. -/

/-- What running the link at an index does, according to a log: that link accepts the chunks that
have come to it, lets go everything it has, and the late chunks of the others only grow. -/
structure Forwarded (index : Nat) (p p' : Passing σ) (log : List Event) : Prop where
  length : p'.chain.links.length = p.chain.links.length
  mailbox : p'.chain.mailbox = []
  taken : ∀ i, Chain.taken i log = if i = index then p.chunks else []
  made : ∀ i, i ≠ index → Chain.made i log = []
  others : ∀ i, i < p.chain.links.length → i ≠ index →
    p'.chain.undelivered i = p.chain.undelivered i ++ sent i log
  own : p'.chain.undelivered index = []
  /-- what is let go is what was late, split where the pushed chunks go in between -/
  chunks : ∃ before waiting, p.chain.undelivered index = before ++ waiting ∧
    p'.chunks = before ++ Chain.made index log ++ (waiting ++ sent index log)

theorem runLink_forwarded {p : Passing σ} {index : Nat} (h : index < p.chain.links.length) :
    Forwarded index p (runLink p index) (runLinkLog p index) := by
  obtain ⟨link, hlink⟩ : ∃ link, p.chain.links[index]? = some link :=
    ⟨_, List.getElem?_eq_getElem h⟩
  have hlog : Logged index p.chunks
      { out := link.late, mailbox := p.chain.mailbox, handles := p.handles }
      (ran p link).2 (runLinkLog p index) := by
    simp only [runLinkLog, hlink]
    exact runStage_logged p.chain.id index p.upstreamEnded { link with late := {} } p.chunks _
  have hundelivered := undelivered_of_getElem? hlink
  rw [runLink_of_getElem? hlink]
  refine ⟨?_, rfl, hlog.taken, hlog.made, ?_, ?_, ?_⟩
  · simp [length_foldl_deliver]
  · intro i hi hne
    have hi' := List.getElem?_eq_getElem hi
    have hafter : (((ran p link).2.mailbox.foldl deliver
        (p.chain.links.set index (ran p link).1)).set index
          { (ran p link).1 with
            ended := link.ended || (handedOn p index link).ended
            late := {} })[i]? =
        some { p.chain.links[i] with
          late := p.chain.links[i].late.absorb (lateFor i (ran p link).2.mailbox) } := by
      rw [List.getElem?_set_ne (Ne.symm hne), getElem?_foldl_deliver,
        List.getElem?_set_ne (Ne.symm hne), hi', Option.map_some]
    rw [undelivered_of_getElem? hafter, undelivered_of_getElem? hi']
    simp [hlog.late]
  · rw [undelivered, List.getElem?_set_self (by simpa [length_foldl_deliver] using h)]
    rfl
  · refine ⟨_, _, hundelivered, ?_⟩
    simp [handedOn, hlog.out, hlog.late]

end Chain

/-! ## Sessions

A `Session` is a chain with its account: what was given, what was returned, and the log of its
stages. The account is no part of the program; it is kept beside the chain so that the law of
delivery can be stated about everything that ever happened, and not only about one operation. -/

/-- A chain in use, with the account of what went in and out. -/
structure Session (σ : Type) where
  chain : Chain σ
  handles : Handles
  /-- the chunks given to `accept`, in order -/
  given : List String := []
  /-- the chunks returned, in order -/
  returned : List String := []
  /-- what the stages have done -/
  log : List Chain.Event := []

namespace Session

open Chain

variable {σ : Type}

/-- The chunks that have come to position `i`: to a link, or behind the last one to the caller. -/
def received (s : Session σ) (i : Nat) : List String :=
  if i < s.chain.links.length then taken i s.log else s.returned

theorem received_of_lt {s : Session σ} {i : Nat} (h : i < s.chain.links.length) :
    s.received i = taken i s.log := if_pos h

theorem received_of_not_lt {s : Session σ} {i : Nat} (h : ¬i < s.chain.links.length) :
    s.received i = s.returned := if_neg h

/-- The chunks let go in front of position `i`, where `chunks` are on their way to position `k`. -/
def reached (k : Nat) (chunks : List String) (s : Session σ) (i : Nat) : List String :=
  s.received i ++ if i = k then chunks else []

/-- The books balance while `chunks` are on their way to position `k`. -/
structure Kept (k : Nat) (chunks : List String) (s : Session σ) : Prop where
  /-- what has reached the front of the chain is what was given -/
  input : s.reached k chunks 0 = s.given
  /-- what a stage has let go is what has reached the next position -/
  output : ∀ i, i < s.chain.links.length → ∃ early,
    sent i s.log = early ++ s.chain.undelivered i ∧
      Merges (made i s.log) early (s.reached k chunks (i + 1))

/-- The books know the chain by its length and its late chunks only. -/
theorem Kept.rechain {s : Session σ} {k : Nat} {chunks : List String} (h : s.Kept k chunks)
    {c : Chain σ} (hlength : c.links.length = s.chain.links.length)
    (hlate : ∀ i, i < s.chain.links.length → c.undelivered i = s.chain.undelivered i) :
    { s with chain := c }.Kept k chunks := by
  have hreached (i : Nat) : { s with chain := c }.reached k chunks i = s.reached k chunks i := by
    rw [reached, reached]
    by_cases hi : i < s.chain.links.length
    · have hi' : i < c.links.length := hlength.symm ▸ hi
      rw [received_of_lt hi, received_of_lt hi']
    · have hi' : ¬i < c.links.length := hlength.symm ▸ hi
      rw [received_of_not_lt hi, received_of_not_lt hi']
  refine ⟨(hreached 0).trans h.input, ?_⟩
  intro i hi
  have hi' : i < s.chain.links.length := hlength ▸ hi
  obtain ⟨early, hsent, hmerge⟩ := h.output i hi'
  refine ⟨early, ?_, ?_⟩
  · rw [hlate i hi']
    exact hsent
  · rw [hreached]
    exact hmerge

/-- What is sent from outside is late. -/
theorem Kept.post {s : Session σ} {k : Nat} {chunks : List String} (h : s.Kept k chunks)
    (link : Nat) (output : LateOutput) :
    { s with
      chain := s.chain.post link output
      log := s.log ++ postLog link output }.Kept k chunks := by
  have hreached (i : Nat) : { s with
      chain := s.chain.post link output
      log := s.log ++ postLog link output }.reached k chunks i = s.reached k chunks i := by
    simp [reached, received, Chain.post]
  refine ⟨(hreached 0).trans h.input, ?_⟩
  intro i hi
  obtain ⟨early, hsent, hmerge⟩ := h.output i hi
  refine ⟨early, ?_, ?_⟩
  · rw [undelivered_post, sent_append, hsent, List.append_assoc]
  · rw [hreached, made_append, made_postLog, List.append_nil]
    exact hmerge

/-- What is given to the chain is on its way to the first position. -/
theorem Kept.give {s : Session σ} (h : s.Kept 0 []) (chunks : List String) :
    { s with given := s.given ++ chunks }.Kept 0 chunks := by
  have hinput : s.received 0 = s.given := by
    have hinput := h.input
    rwa [reached, if_pos rfl, List.append_nil] at hinput
  refine ⟨?_, ?_⟩
  · rw [reached, if_pos rfl, ← hinput]
    rfl
  · intro i hi
    obtain ⟨early, hsent, hmerge⟩ := h.output i hi
    rw [reached, if_neg (Nat.succ_ne_zero i)] at hmerge
    refine ⟨early, hsent, ?_⟩
    rw [reached, if_neg (Nat.succ_ne_zero i)]
    exact hmerge

/-- What has come behind the last link is returned. -/
theorem Kept.handOver {s : Session σ} {k : Nat} {chunks : List String} (h : s.Kept k chunks)
    (hk : k = s.chain.links.length) :
    { s with returned := s.returned ++ chunks }.Kept 0 [] := by
  subst hk
  have hreached (i : Nat) (hi : i ≤ s.chain.links.length) :
      { s with returned := s.returned ++ chunks }.reached 0 [] i =
        s.reached s.chain.links.length chunks i := by
    rw [reached, reached, ite_self, List.append_nil]
    change (if i < s.chain.links.length then taken i s.log else s.returned ++ chunks) = _
    by_cases hlt : i < s.chain.links.length
    · rw [if_pos hlt, received_of_lt hlt, if_neg (by omega), List.append_nil]
    · rw [if_neg hlt, received_of_not_lt hlt, if_pos (by omega)]
  refine ⟨(hreached 0 (Nat.zero_le _)).trans h.input, ?_⟩
  intro i hi
  obtain ⟨early, hsent, hmerge⟩ := h.output i hi
  refine ⟨early, hsent, ?_⟩
  rw [hreached (i + 1) hi]
  exact hmerge

/-! ## One pass keeps the books

In the middle of a pass some chunks are between two links. The books are balanced with these
chunks counted as having reached the next position, and running the next link moves them on by
one. -/

section Pass

variable [FilterStage σ]

/-- A session in the middle of a pass. -/
def during (s : Session σ) (p : Passing σ) (log : List Event) : Session σ :=
  { s with chain := p.chain, handles := p.handles, log }

omit [FilterStage σ] in
/-- Only the next position is reached by anything new when a link runs. -/
theorem reached_during {s : Session σ} {p p' : Passing σ} {k : Nat} {log log' : List Event}
    (h : Forwarded k p p' log') (hk : k < p.chain.links.length) (i : Nat) :
    (s.during p' (log ++ log')).reached (k + 1) p'.chunks i =
      (s.during p log).reached k p.chunks i ++ if i = k + 1 then p'.chunks else [] := by
  have hreceived : (s.during p' (log ++ log')).received i =
      (s.during p log).received i ++ if i = k then p.chunks else [] := by
    by_cases hi : i < p.chain.links.length
    · have hi' : i < p'.chain.links.length := h.length.symm ▸ hi
      rw [received_of_lt hi', received_of_lt hi]
      change taken i (log ++ log') = taken i log ++ _
      rw [taken_append, h.taken]
    · have hi' : ¬i < p'.chain.links.length := h.length.symm ▸ hi
      rw [received_of_not_lt hi', received_of_not_lt hi, if_neg (by omega), List.append_nil]
      rfl
  rw [reached, reached, hreceived]

/-- **One link keeps the books**: it takes what has reached it, lets go what it has, and this
reaches the next position. Nothing else is reached by anything new. -/
theorem Kept.runLink {s : Session σ} {p : Passing σ} {k : Nat} {log : List Event}
    (h : (s.during p log).Kept k p.chunks) (hk : k < p.chain.links.length) :
    (s.during (Chain.runLink p k) (log ++ runLinkLog p k)).Kept (k + 1)
      (Chain.runLink p k).chunks := by
  have hlink := runLink_forwarded hk
  refine ⟨?_, ?_⟩
  · rw [reached_during hlink hk, if_neg (Nat.succ_ne_zero k).symm, List.append_nil]
    exact h.input
  · intro i hi
    have hi' : i < p.chain.links.length := hlink.length ▸ hi
    obtain ⟨early, hsent, hmerge⟩ := h.output i hi'
    rw [reached_during hlink hk]
    simp only [during, sent_append, made_append] at hsent hmerge ⊢
    -- the link that runs lets go what was late, then what it pushes, then what is sent meanwhile
    by_cases hik : i = k
    · subst hik
      obtain ⟨before, waiting, hsplit, hchunks⟩ := hlink.chunks
      refine ⟨early ++ (before ++ (waiting ++ sent i (runLinkLog p i))), ?_, ?_⟩
      · rw [hsent, hsplit, hlink.own]
        simp
      · have hown := ((Merges.only_right before).append
          (Merges.only_left (made i (runLinkLog p i)))).append
            (Merges.only_right (waiting ++ sent i (runLinkLog p i)))
        rw [if_pos rfl, hchunks]
        simpa using hmerge.append hown
    · refine ⟨early, ?_, ?_⟩
      · rw [hsent, hlink.others i hi' hik, List.append_assoc]
      · rw [hlink.made i hik, List.append_nil, if_neg (by omega), List.append_nil]
        exact hmerge

/-- The links from position `k` on run in order. -/
theorem Kept.runLinks {s : Session σ} {p : Passing σ} {k : Nat} {log : List Event} (m : Nat)
    (h : (s.during p log).Kept k p.chunks) (hm : k + m = p.chain.links.length)
    (hmailbox : p.chain.mailbox = []) :
    (s.during ((List.range' k m).foldl Chain.runLink p)
        (log ++ linksLog p (List.range' k m))).Kept (k + m)
      ((List.range' k m).foldl Chain.runLink p).chunks ∧
    ((List.range' k m).foldl Chain.runLink p).chain.links.length = p.chain.links.length ∧
    ((List.range' k m).foldl Chain.runLink p).chain.mailbox = [] := by
  induction m generalizing p k log with
  | zero =>
    rw [List.range'_zero, linksLog, List.append_nil]
    exact ⟨h, rfl, hmailbox⟩
  | succ m ih =>
    have hk : k < p.chain.links.length := by omega
    have hlink := runLink_forwarded hk
    obtain ⟨hkept, hlength, hempty⟩ :=
      ih (h.runLink hk) (by rw [hlink.length]; omega) hlink.mailbox
    rw [List.range'_succ, linksLog, ← List.append_assoc, List.foldl_cons,
      show k + (m + 1) = k + 1 + m by omega]
    exact ⟨hkept, hlength.trans hlink.length, hempty⟩

/-- **A pass keeps the books.** What it was given has gone in, and what it hands back is returned.
-/
theorem Kept.pass {s : Session σ} {chunks : List String} (h : s.Kept 0 chunks) :
    { s with
      chain := (s.chain.pass s.handles chunks).chain
      handles := (s.chain.pass s.handles chunks).handles
      returned := s.returned ++ (s.chain.pass s.handles chunks).chunks
      log := s.log ++ passLog s.handles chunks s.chain }.Kept 0 [] ∧
    (s.chain.pass s.handles chunks).chain.links.length = s.chain.links.length ∧
    (s.chain.pass s.handles chunks).chain.mailbox = [] := by
  let p : Passing σ :=
    { chunks
      upstreamEnded := s.chain.inputEnded
      chain := s.chain.collect s.handles
      handles := s.handles }
  have hcollected : (s.during p s.log).Kept 0 p.chunks :=
    h.rechain (length_collect s.handles s.chain) fun i hi => undelivered_collect s.handles hi
  have hlength : 0 + s.chain.links.length = p.chain.links.length := by
    rw [Nat.zero_add]
    exact (length_collect s.handles s.chain).symm
  obtain ⟨hkept, hlinks, hmailbox⟩ := hcollected.runLinks s.chain.links.length hlength rfl
  rw [pass_eq_foldl, passLog, List.range_eq_range']
  exact ⟨hkept.handOver (hlength.trans hlinks.symm),
    hlinks.trans (length_collect s.handles s.chain), hmailbox⟩

/-! ## Operations keep the books

An operation is pass after pass until nothing is late, and every pass but the first is given
nothing. -/

/-- A session after an operation with a result and a log. -/
def after (s : Session σ) (r : Result σ) (log : List Event) : Session σ :=
  { s with
    chain := r.chain
    handles := r.handles
    returned := s.returned ++ r.chunks
    log := s.log ++ log }

/-- An operation keeps the books, and when it returns nothing is late any more. -/
theorem Kept.propagate {fuel : Nat} {s : Session σ} {chunks : List String} {r : Result σ}
    (h : s.Kept 0 chunks) (hr : s.chain.propagate fuel s.handles chunks = some r) :
    (s.after r (propagateLog fuel s.handles chunks s.chain)).Kept 0 [] ∧
      r.chain.links.length = s.chain.links.length ∧ r.chain.AtRest := by
  induction fuel generalizing s chunks r with
  | zero => cases hr
  | succ fuel ih =>
    obtain ⟨hpass, hlength, hmailbox⟩ := h.pass
    -- a later stage may have sent in the name of an earlier one: then another pass starts from
    -- books that balance with nothing on its way
    obtain ⟨r', hr', rfl, hlog⟩ | ⟨hlate, rfl, hlog⟩ := propagate_cases hr
    · obtain ⟨hkept, hlinks, hrest⟩ := ih hpass hr'
      refine ⟨?_, hlinks.trans hlength, hrest⟩
      rw [hlog]
      simpa only [after, List.append_assoc] using hkept
    · rw [hlog]
      exact ⟨hpass, hlength, atRest_of_hasLate hmailbox hlate⟩

end Pass

end Session

/-! ## Everything that is done to a chain

Apart from its operations, a chain is waited for and sent to, and its handles are released and
copied, by whoever holds them. Each is a move, and the law is proved for every list of moves. -/

/-- What can be done to a chain, and by whoever else holds a handle. The number is the fuel of an
operation. -/
inductive ChainMove where
  | accept (fuel : Nat) (chunk : String)
  | finish (fuel : Nat)
  | poll (fuel : Nat)
  /-- the next thing to wait for is taken -/
  | waitLate
  | send (slot : String) (output : LateOutput)
  | release (slot : String)
  /-- the handle of one slot is kept in another one too -/
  | copy (source target : String)

/-- Whether a move is an operation that forwards what is there. -/
def ChainMove.forwards : ChainMove → Bool
  | .accept .. | .finish _ | .poll _ => true
  | .waitLate | .send .. | .release _ | .copy .. => false

namespace Session

open Chain

variable {σ : Type} [FilterStage σ]

/-- A chain of stages, not yet used. -/
def start (handles : Handles) (stages : List σ) : Session σ :=
  let (chain, handles) := ofStages handles stages
  { chain, handles }

/-- The session after a move; `none` if the operation does not return or there is nothing to wait
for yet. -/
def step (s : Session σ) : ChainMove → Option (Session σ)
  | .accept fuel chunk =>
    (s.chain.accept fuel s.handles chunk).map fun r =>
      { s with given := s.given ++ [chunk] }.after r
        (propagateLog fuel s.handles [chunk] s.chain)
  | .finish fuel =>
    (s.chain.finish fuel s.handles).map fun r =>
      s.after r (propagateLog fuel s.handles [] { s.chain with inputEnded := true })
  | .poll fuel =>
    (s.chain.poll fuel s.handles).map fun r =>
      s.after r (propagateLog fuel s.handles [] s.chain)
  | .waitLate => (s.chain.waitLate? s.handles).map fun chain => { s with chain }
  | .send slot output =>
    some { s with
      chain := (Chain.sendFrom s.handles slot output (some s.chain)).2.getD s.chain
      log := s.log ++ sendLog s.chain.id s.handles slot output }
  | .release slot => some { s with handles := s.handles.release slot }
  | .copy source target => some { s with handles := s.handles.copy source target }

/-- The session after moves in order. -/
def run : List ChainMove → Session σ → Option (Session σ)
  | [], s => some s
  | move :: rest, s => (s.step move).bind (run rest)

/-- Moves in two parts: the second part is made with the session that the first has left. -/
theorem run_append (moves moves' : List ChainMove) (s : Session σ) :
    s.run (moves ++ moves') = (s.run moves).bind (run moves') := by
  induction moves generalizing s with
  | nil => rfl
  | cons move rest ih =>
    rw [List.cons_append, run, run]
    cases s.step move with
    | none => rfl
    | some s' => exact ih s'

/-- Nothing has gone in or out of a chain that was not yet used. -/
theorem start_kept (handles : Handles) (stages : List σ) : (start handles stages).Kept 0 [] := by
  have hreached (i : Nat) : (start handles stages).reached 0 [] i = [] := by
    rw [reached, received, ite_self, List.append_nil]
    split <;> rfl
  refine ⟨hreached 0, fun i hi => ⟨[], ?_, ?_⟩⟩
  · have hrest : (start handles stages).chain.AtRest :=
      (ofStages_calm (P := fun _ => True) (fun _ _ => trivial) handles).toAtRest
    rw [hrest.undelivered]
    rfl
  · rw [hreached]
    exact .nil

/-- **A move keeps the books**, and an operation leaves nothing late. -/
theorem Kept.step {s s' : Session σ} {move : ChainMove} (h : s.Kept 0 [])
    (hmove : s.step move = some s') :
    s'.Kept 0 [] ∧ s'.chain.links.length = s.chain.links.length ∧
      (move.forwards = true → s'.chain.AtRest) := by
  cases move with
  | accept fuel chunk =>
    obtain ⟨r, hr, rfl⟩ := Option.map_eq_some_iff.mp hmove
    obtain ⟨hkept, hlength, hrest⟩ := (h.give [chunk]).propagate hr
    exact ⟨hkept, hlength, fun _ => hrest⟩
  | finish fuel =>
    obtain ⟨r, hr, rfl⟩ := Option.map_eq_some_iff.mp hmove
    have hended : { s with chain := { s.chain with inputEnded := true } }.Kept 0 [] :=
      h.rechain rfl fun _ _ => rfl
    obtain ⟨hkept, hlength, hrest⟩ := hended.propagate hr
    exact ⟨hkept, hlength, fun _ => hrest⟩
  | poll fuel =>
    obtain ⟨r, hr, rfl⟩ := Option.map_eq_some_iff.mp hmove
    obtain ⟨hkept, hlength, hrest⟩ := h.propagate hr
    exact ⟨hkept, hlength, fun _ => hrest⟩
  | waitLate =>
    obtain ⟨c, hwait, rfl⟩ := Option.map_eq_some_iff.mp hmove
    have hlength := length_waitLate hwait
    -- what is waited for only moves from the mailbox to its link
    refine ⟨h.rechain hlength fun i hi => undelivered_waitLate hwait hi, hlength, ?_⟩
    intro hforwards
    cases hforwards
  | send slot output =>
    cases hmove
    obtain ⟨link, hsend, hlog⟩ | ⟨hsend, hlog⟩ :=
      sendFrom_cases s.handles slot output s.chain
    · rw [hsend, hlog, Option.getD_some]
      exact ⟨h.post link output, rfl, fun hforwards => by cases hforwards⟩
    · rw [hsend, hlog, Option.getD_some, List.append_nil]
      exact ⟨h, rfl, fun hforwards => by cases hforwards⟩
  | release slot =>
    cases hmove
    exact ⟨⟨h.input, h.output⟩, rfl, fun hforwards => by cases hforwards⟩
  | copy source target =>
    cases hmove
    exact ⟨⟨h.input, h.output⟩, rfl, fun hforwards => by cases hforwards⟩

/-- The books are balanced after every sequence of moves. -/
theorem Kept.run {s s' : Session σ} {moves : List ChainMove} (h : s.Kept 0 [])
    (hmoves : s.run moves = some s') :
    s'.Kept 0 [] ∧ s'.chain.links.length = s.chain.links.length := by
  induction moves generalizing s with
  | nil =>
    cases hmoves
    exact ⟨h, rfl⟩
  | cons move rest ih =>
    obtain ⟨s₁, hmove, hrest⟩ := Option.bind_eq_some_iff.mp hmoves
    obtain ⟨hkept, hlength, -⟩ := h.step hmove
    obtain ⟨hkept', hlength'⟩ := ih hkept hrest
    exact ⟨hkept', hlength'.trans hlength⟩

omit [FilterStage σ] in
/-- With nothing late, what has come to the next position is a merge of all that a stage has
produced. -/
theorem Kept.merges {s : Session σ} (h : s.Kept 0 []) (hrest : s.chain.AtRest) {i : Nat}
    (hi : i < s.chain.links.length) :
    Merges (made i s.log) (sent i s.log) (s.received (i + 1)) := by
  obtain ⟨early, hsent, hmerge⟩ := h.output i hi
  rw [hrest.undelivered, List.append_nil] at hsent
  rw [reached, if_neg (Nat.succ_ne_zero i), List.append_nil] at hmerge
  rw [hsent]
  exact hmerge

/-- **Delivery, by the log.** Whenever `accept`, `finish` or `poll` has returned, every position has
received a merge of what was pushed and sent in front of it, the first position what was given, and
nothing is late. -/
theorem delivers {handles : Handles} {stages : List σ} {moves : List ChainMove} {last : ChainMove}
    {s : Session σ} (hlast : last.forwards = true)
    (hrun : (start handles stages).run (moves ++ [last]) = some s) :
    (∀ i, i + 1 < stages.length →
      Merges (made i s.log) (sent i s.log) (taken (i + 1) s.log)) ∧
    (∀ i, i + 1 = stages.length → Merges (made i s.log) (sent i s.log) s.returned) ∧
    (if stages = [] then s.returned else taken 0 s.log) = s.given ∧ s.chain.AtRest := by
  rw [run_append] at hrun
  obtain ⟨s₁, hmoves, hrun⟩ := Option.bind_eq_some_iff.mp hrun
  obtain ⟨s₂, hstep, hnil⟩ := Option.bind_eq_some_iff.mp hrun
  cases hnil
  obtain ⟨hkept₁, hlength₁⟩ := (start_kept handles stages).run hmoves
  obtain ⟨hkept, hlength, hrest⟩ := hkept₁.step hstep
  have hatRest := hrest hlast
  have hstages : s.chain.links.length = stages.length := by
    rw [hlength, hlength₁]
    simp [start, ofStages]
  refine ⟨?_, ?_, ?_, hatRest⟩
  · intro i hi
    have hmerge := hkept.merges hatRest (i := i) (by omega)
    rwa [received_of_lt (by omega)] at hmerge
  · intro i hi
    have hmerge := hkept.merges hatRest (i := i) (by omega)
    rwa [received_of_not_lt (by omega)] at hmerge
  · have hinput := hkept.input
    rw [reached, if_pos rfl, List.append_nil] at hinput
    rw [← hinput]
    cases stages with
    | nil =>
      rw [if_pos rfl, received_of_not_lt (by simp [hstages])]
    | cons stage rest =>
      rw [if_neg (List.cons_ne_nil stage rest), received_of_lt (by simp [hstages])]

end Session

end StreamingTemplate
