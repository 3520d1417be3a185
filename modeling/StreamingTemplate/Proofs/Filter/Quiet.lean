import StreamingTemplate.Proofs.Filter.Inline
import StreamingTemplate.Proofs.Filter.Log

/-!
# Chains that have nothing to do

An operation on a chain goes on until nothing is late, and on its way through the links it tells
each stage of the end of its input as soon as that has come. So the chain it leaves is `Quiet`:
until something is given to it or sent through a handle, another operation does nothing but notice
whether handles are left.

* `runLink_told` — running a link tells its stage, and no other link has to be told because of it
  than the next one;
* `propagate_quiet` — an operation leaves a quiet chain, whatever its stages do;
* `propagate_idle` — on a quiet chain it hands on nothing and changes nothing.
-/

namespace StreamingTemplate.Chain

variable {σ : Type}

/-- Whether the input of the link at a position is over. -/
def inputOver (c : Chain σ) : Nat → Bool
  | 0 => c.inputEnded
  | i + 1 => c.links[i]?.any Link.ended

/-- The stages in front of a position know whether their input is over. -/
def ToldUpTo (k : Nat) (c : Chain σ) : Prop :=
  ∀ i link, i < k → c.links[i]? = some link → c.inputOver i = true → link.finished = true

/-- Nothing is to be forwarded, and no stage is to be told that its input is over. -/
structure Quiet (c : Chain σ) : Prop extends AtRest c where
  told : c.ToldUpTo c.links.length

variable [FilterStage σ]

/-! ## What an operation leaves

A pass goes through the links from the first to the last, and tells each as it comes to it. What
it has told stays told: running a later link gives the earlier ones late output at most, and an
end among it counts only when that link runs again. -/

/-- Running a link gives other links late output at most. -/
theorem getElem?_runLink_of_ne {p : Passing σ} {index i : Nat} {link : Link σ}
    (hlink : p.chain.links[index]? = some link) (hne : i ≠ index) :
    (runLink p index).chain.links[i]? = p.chain.links[i]?.map fun other =>
      { other with late := other.late.absorb (lateFor i (ran p link).2.mailbox) } := by
  rw [runLink_of_getElem? hlink, List.getElem?_set_ne (Ne.symm hne), getElem?_foldl_deliver,
    List.getElem?_set_ne (Ne.symm hne)]

theorem getElem?_runLink_self {p : Passing σ} {index : Nat} {link : Link σ}
    (hlink : p.chain.links[index]? = some link) :
    (runLink p index).chain.links[index]? = some { (ran p link).1 with
      ended := link.ended || (handedOn p index link).ended
      late := {} } := by
  have hlt : index < p.chain.links.length := (List.getElem?_eq_some_iff.mp hlink).1
  rw [runLink_of_getElem? hlink]
  exact List.getElem?_set_self (by simpa [length_foldl_deliver] using hlt)

/-- A pass that has come to a position: all stages in front of it have been told. -/
structure Telling (k : Nat) (p : Passing σ) : Prop where
  told : p.chain.ToldUpTo k
  upstream : p.upstreamEnded = p.chain.inputOver k
  mailbox : p.chain.mailbox = []

/-- **Running a link** tells its stage, and what the others know does not change. -/
theorem runLink_told {p : Passing σ} {k : Nat} (h : Telling k p) (hk : k < p.chain.links.length) :
    Telling (k + 1) (runLink p k) ∧
      (runLink p k).chain.links.length = p.chain.links.length := by
  obtain ⟨link, hlink⟩ : ∃ link, p.chain.links[k]? = some link := ⟨_, List.getElem?_eq_getElem hk⟩
  have hself := getElem?_runLink_self hlink
  have hover : ∀ i ≤ k, (runLink p k).chain.inputOver i = p.chain.inputOver i := by
    intro i hi
    cases i with
    | zero =>
      rw [runLink_of_getElem? hlink]
      rfl
    | succ i =>
      rw [inputOver, inputOver, getElem?_runLink_of_ne hlink (by omega)]
      cases p.chain.links[i]? <;> rfl
  refine ⟨⟨?_, ?_, ?_⟩, ?_⟩
  · intro i other hi hother hinput
    rw [hover i (by omega)] at hinput
    by_cases hik : i = k
    · subst hik
      obtain rfl := Option.some.inj (hself.symm.trans hother)
      have hfinished : (ran p link).1.finished = (link.finished || p.upstreamEnded) :=
        (runStage_link _ _ _ _ _).2.2
      rw [hfinished, h.upstream, hinput, Bool.or_true]
    · rw [getElem?_runLink_of_ne hlink hik] at hother
      obtain ⟨before, hbefore, rfl⟩ := Option.map_eq_some_iff.mp hother
      exact h.told i before (by omega) hbefore hinput
  · rw [inputOver, hself, runLink_of_getElem? hlink]
    rfl
  · rw [runLink_of_getElem? hlink]
  · rw [runLink_of_getElem? hlink]
    simp [length_foldl_deliver]

theorem foldl_runLink_told {p : Passing σ} {k : Nat} (m : Nat) (h : Telling k p)
    (hm : k + m = p.chain.links.length) :
    Telling (k + m) ((List.range' k m).foldl runLink p) ∧
      ((List.range' k m).foldl runLink p).chain.links.length = p.chain.links.length := by
  induction m generalizing p k with
  | zero => exact ⟨h, rfl⟩
  | succ m ih =>
    obtain ⟨htold, hlength⟩ := runLink_told h (by omega)
    obtain ⟨hlast, hlength'⟩ := ih htold (by omega)
    rw [List.range'_succ, List.foldl_cons, show k + (m + 1) = k + 1 + m by omega]
    exact ⟨hlast, hlength'.trans hlength⟩

/-- A pass tells every stage. -/
theorem pass_told (handles : Handles) (chunks : List String) (c : Chain σ) :
    (c.pass handles chunks).chain.ToldUpTo (c.pass handles chunks).chain.links.length ∧
      (c.pass handles chunks).chain.mailbox = [] := by
  have hstart : Telling 0 (⟨chunks, c.inputEnded, c.collect handles, handles⟩ : Passing σ) :=
    ⟨fun i link hi => absurd hi (Nat.not_lt_zero i), rfl, rfl⟩
  have hlength : 0 + c.links.length = (c.collect handles).links.length := by simp
  obtain ⟨htelling, hlinks⟩ := foldl_runLink_told c.links.length hstart hlength
  rw [pass_eq_foldl, List.range_eq_range']
  refine ⟨?_, htelling.mailbox⟩
  rw [hlinks, ← hlength]
  exact htelling.told

/-- **An operation leaves a quiet chain.** -/
theorem propagate_quiet {fuel : Nat} {handles : Handles} {chunks : List String} {c : Chain σ}
    {r : Result σ} (h : c.propagate fuel handles chunks = some r) : r.chain.Quiet := by
  induction fuel generalizing handles chunks c r with
  | zero => cases h
  | succ fuel ih =>
    obtain ⟨r', hr', rfl, -⟩ | ⟨hlate, rfl, -⟩ := propagate_cases h
    · have hquiet : r'.chain.Quiet := ih hr'
      exact hquiet
    · obtain ⟨htold, hmailbox⟩ := pass_told handles chunks c
      exact ⟨atRest_of_hasLate hmailbox hlate, htold⟩

/-! ## Operations on a quiet chain

A link of a quiet chain has no late output, is given no chunk and is not to be told. What a pass
over such links can change is only what the chain knows about its handles. -/

/-- A link that has nothing to forward and nothing to be told does nothing. -/
theorem ran_idle {p : Passing σ} {link : Link σ} (hlate : link.late = {}) (hchunks : p.chunks = [])
    (htold : p.upstreamEnded = true → link.finished = true) :
    ran p link = (link, { out := {}, mailbox := p.chain.mailbox, handles := p.handles }) := by
  have hlink : { link with late := {} } = link := by rw [← hlate]
  have hnot : ¬ (p.upstreamEnded && !link.finished) = true := by
    cases hup : p.upstreamEnded <;> simp_all
  rw [ran, hlink, hlate, hchunks, runStage, feed]
  exact if_neg hnot

/-- Running a link of a quiet chain. -/
theorem runLink_idle {p : Passing σ} {k : Nat} (h : p.chain.Quiet) (hchunks : p.chunks = [])
    (hupstream : p.upstreamEnded = p.chain.inputOver k) (hk : k < p.chain.links.length) :
    runLink p k =
      { chunks := []
        upstreamEnded := p.chain.inputOver (k + 1)
        chain := { p.chain with
          handlesDropped := p.chain.handlesDropped || !p.handles.live p.chain.id }
        handles := p.handles } := by
  obtain ⟨link, hlink⟩ : ∃ link, p.chain.links[k]? = some link := ⟨_, List.getElem?_eq_getElem hk⟩
  have hlate := h.late link (List.mem_of_getElem? hlink)
  have hran := ran_idle hlate hchunks fun hup => h.told k link hk hlink (hupstream ▸ hup)
  have hover : p.chain.inputOver (k + 1) = link.ended := by
    rw [inputOver, hlink]
    rfl
  have hset : p.chain.links.set k link = p.chain.links := by
    obtain ⟨hlt, rfl⟩ := List.getElem?_eq_some_iff.mp hlink
    exact List.set_getElem_self hlt
  have hsame : { link with ended := link.ended, late := {} } = link := by rw [← hlate]
  rw [runLink_of_getElem? hlink, handedOn, hran, hover, h.mailbox]
  simp [hset, hsame, h.mailbox]

/-- The rest of a pass over a quiet chain. -/
theorem foldl_runLink_idle {p : Passing σ} {k : Nat} (m : Nat) (h : p.chain.Quiet)
    (hchunks : p.chunks = []) (hupstream : p.upstreamEnded = p.chain.inputOver k)
    (hm : k + m = p.chain.links.length) :
    ∃ upstreamEnded handlesDropped, (List.range' k m).foldl runLink p =
      ⟨[], upstreamEnded, { p.chain with handlesDropped }, p.handles⟩ := by
  induction m generalizing p k with
  | zero =>
    refine ⟨p.upstreamEnded, p.chain.handlesDropped, ?_⟩
    rw [← hchunks]
    rfl
  | succ m ih =>
    rw [List.range'_succ, List.foldl_cons, runLink_idle h hchunks hupstream (by omega)]
    refine ih ⟨⟨h.mailbox, h.late⟩, h.told⟩ rfl rfl ?_
    rw [← hm, Nat.add_assoc, Nat.add_comm 1]

omit [FilterStage σ] in
/-- A quiet chain stays quiet when it finds its handles gone. -/
theorem Quiet.redrop {c : Chain σ} (h : c.Quiet) (handlesDropped : Bool) :
    Quiet { c with handlesDropped } := ⟨⟨h.mailbox, h.late⟩, h.told⟩

omit [FilterStage σ] in
theorem collect_idle {c : Chain σ} (h : c.Quiet) (handles : Handles) :
    c.collect handles =
      { c with handlesDropped := c.handlesDropped || !handles.live c.id } := by
  simp [collect, h.mailbox]

theorem pass_idle {c : Chain σ} (h : c.Quiet) (handles : Handles) :
    ∃ upstreamEnded handlesDropped, c.pass handles [] =
      ⟨[], upstreamEnded, { c with handlesDropped }, handles⟩ := by
  rw [pass_eq_foldl, collect_idle h, List.range_eq_range']
  exact foldl_runLink_idle c.links.length (h.redrop _) rfl rfl (Nat.zero_add _)

/-- **An operation on a quiet chain** that gives it nothing does nothing. -/
theorem propagate_idle {c : Chain σ} (h : c.Quiet) (fuel : Nat) (handles : Handles) :
    ∃ handlesDropped, c.propagate (fuel + 1) handles [] =
      some ⟨[], { c with handlesDropped }, handles⟩ := by
  obtain ⟨upstreamEnded, handlesDropped, hpass⟩ := pass_idle h handles
  refine ⟨handlesDropped, ?_⟩
  rw [propagate, hpass]
  exact if_neg (by simp [(h.redrop handlesDropped).hasLate])

end StreamingTemplate.Chain
