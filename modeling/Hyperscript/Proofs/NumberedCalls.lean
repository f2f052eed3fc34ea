import Hyperscript.Proofs.CallsMade
import Hyperscript.Proofs.LinearUse

namespace Hyperscript

variable {σ ν : Type}

/-- A child as a number tells it: the node that the call with this number gave, or the same text. -/
def Child.Denotes (log : List (Entry ν)) : Child ν → Child Nat → Prop
  | .node built, .node number => log[number]?.bind Entry.node = some built
  | .text value, .text value' => value = value'
  | _, _ => False

/-- A call of a log, written down with numbers for nodes. -/
structure Entry.Follows (log : List (Entry ν)) (entry : Entry ν) (call : Call Nat) : Prop where
  name : entry.call.name = call.name
  attributes : entry.call.attributes = call.attributes
  children : Option.Rel (List.Forall₂ (Child.Denotes log)) entry.call.children call.children

/-- The calls of a log are those of a list in which each node is the number of the call that gave it. -/
def Follows (log : List (Entry ν)) (calls : List (Call Nat)) : Prop :=
  List.Forall₂ (Entry.Follows log) log calls

/-- A render makes the calls of a list: all of them if it succeeds, and else those up to one that is refused. -/
def Makes (calls : List (Call Nat)) : EStateM.Result RenderError (Traced σ ν) ν → Prop
  | .ok _ finish => Follows finish.calls calls
  | .error _ finish => ∃ made later earlier refused,
    calls = made ++ later ∧ Follows finish.calls made ∧ finish.calls = earlier ++ [⟨none, refused⟩]

/-- Two records of one element's children are numbered alike if each element among them is built in both, in one by
the call with the number that it has in the other. -/
theorem Node.handedAll_denotes {built : Place → Option ν} {numbers : Place → Option Nat} {log : List (Entry ν)}
    {place : Place} {index : Nat} (nodes : List Node)
    (same : ∀ child ∈ childPlaces place index nodes, ∃ node number, built child = some node ∧
      numbers child = some number ∧ log[number]?.bind Entry.node = some node) :
    List.Forall₂ (Child.Denotes log) (handedAll built place index nodes) (handedAll numbers place index nodes) := by
  induction nodes generalizing index with
  | nil => exact .nil
  | cons node rest ih =>
    rw [childPlaces_cons] at same
    rw [handedAll_cons, handedAll_cons]
    refine List.rel_append ?_ (ih fun child member => same child (List.mem_append_right _ member))
    cases node with
    | element tag properties inner =>
      obtain ⟨node, number, here, there, answered⟩ := same (place ++ [index]) (by simp [isElement, kind])
      simp only [handed?, here, there]
      exact .cons answered .nil
    | text value => exact .cons rfl .nil
    | _ => exact .nil

/-- An empty list of children is left out in both of two related calls. -/
theorem rel_unlessEmpty {α β : Type} {related : α → β → Prop} {first : List α} {second : List β}
    (same : List.Forall₂ related first second) :
    Option.Rel (List.Forall₂ related) (if first.isEmpty then none else some first)
      (if second.isEmpty then none else some second) := by
  cases same with
  | nil => exact .none
  | cons here later => exact .some (.cons here later)

namespace Script

/-- The numbering builder answers each call with its number. -/
theorem numbering_answers {trace : Traced Tally Nat} (reached : numbering.traced.Reaches { state := {} } trace) :
    trace.state.calls = trace.calls.length ∧
      ∀ (number : Nat) (entry : Entry Nat), trace.calls[number]? = some entry → entry.node = some number := by
  induction reached with
  | start => exact ⟨rfl, nofun⟩
  | @answered state after call node _ answer ih =>
    obtain ⟨counted, answers⟩ := ih
    cases answer
    refine ⟨by rw [List.length_append, ← counted]; rfl, fun number entry found => ?_⟩
    rcases lt_or_ge number state.calls.length with earlier | last
    · rw [List.getElem?_append_left earlier] at found
      exact answers number entry found
    · rw [List.getElem?_append_right last, List.getElem?_singleton] at found
      split at found
      · next zero =>
        cases found
        show some state.state.calls = some number
        exact congrArg some (by omega)
      · cases found
  | refused _ answer => cases answer
  | inspected _ ih => exact ih

end Script

namespace Rendering

theorem occur_error_built {rendering : Rendering σ ν} {event : Event} {desk last : Desk σ ν} {error : RenderError}
    (failed : rendering.occur event desk = .error error last) : last.built = desk.built := by
  cases event with
  | enter visit =>
    obtain ⟨_, _, _, rfl⟩ := occur_enter_error_iff.mp failed
    rfl
  | create visit =>
    obtain ⟨_, _, _, same⟩ := occur_create_error_iff.mp failed
    exact same

/-- Before an element is created all its children are. -/
theorem children_built {rendering : Rendering σ ν} {element : Element} {space : Space} {events later : List Event}
    {desk final : Desk σ ν} (walk : element.walk space = events ++ later)
    (run : rendering.run events desk = .ok () final) {before after : List Visit} {visit : Visit}
    (split : Event.created (element.walk space) = before ++ visit :: after)
    (passed : ∀ earlier ∈ before, earlier ∈ Event.created events) :
    ∀ child ∈ visit.childPlaces, ∃ node, final.built child = some node := by
  intro child member
  obtain ⟨earlier, listed, rfl⟩ := List.mem_map.mp (childPlaces_before split member)
  have order := element.walk_precedes space
  rw [walk, Event.created_append, List.pairwise_append] at order
  exact run_builds order.1 run (passed earlier listed)

/-- The call for a visited element is numbered if its children are. -/
theorem entryFor_follows {τ : Type} {rendering : Rendering σ ν} {numbering : Rendering τ Nat} {visit : Visit}
    {log : List (Entry ν)} {built : Place → Option ν} {numbers : Place → Option Nat}
    (dressed : rendering.dressed visit = numbering.dressed visit)
    (children : ∀ child ∈ visit.childPlaces, ∃ node number, built child = some node ∧
      numbers child = some number ∧ log[number]?.bind Entry.node = some node) :
    Entry.Follows log (rendering.entryFor built visit)
      { (numbering.entryFor numbers visit).call with context := none } :=
  ⟨congrArg Prod.fst dressed, congrArg Prod.snd dressed,
    rel_unlessEmpty (Node.handedAll_denotes visit.element.children children)⟩

end Rendering

namespace Renderer

/-- The calls of a render are made for elements of the walk from its beginning on, and each takes the nodes of all
elements among the children. -/
theorem renderElement_calls_built (renderer : Renderer) (builder : Builder σ ν) (element : Element)
    (start : Traced σ ν) : ∃ visits later built,
      Event.created (element.walk renderer.options.space) = visits ++ later ∧
      (∀ visit ∈ visits, ∀ child ∈ visit.childPlaces, ∃ node, built child = some node) ∧
      (Traced.final (renderer.renderElement builder.traced element start)).calls =
        (builder.traced.detect start).2.calls ++ visits.map
          ((renderer.rendering builder.traced (builder.traced.detect start).1).entryFor built) ∧
      ∀ result finish, renderer.renderElement builder.traced element start = .ok result finish → later = [] := by
  have ends := renderer.renderElement_ends builder.traced element start
  revert ends
  cases passed : (renderer.rendering builder.traced (builder.traced.detect start).1).run
      (element.walk renderer.options.space) (emptyDesk (builder.traced.detect start).2) with
  | ok _ desk =>
    rintro ⟨node, _, outcome⟩
    refine ⟨_, [], desk.built, (List.append_nil _).symm, ?_, ?_, fun _ _ _ => rfl⟩
    · intro visit member
      obtain ⟨before, after, split⟩ := List.append_of_mem member
      refine Rendering.children_built (List.append_nil _).symm passed split fun earlier listed => ?_
      rw [split]
      exact List.mem_append_left _ listed
    · rw [outcome]
      exact Rendering.run_ok_calls rfl (element.walk_precedes _) passed
  | error error last =>
    intro outcome
    obtain ⟨before, event, after, desk, _, stopped, split, reached, failed, same, calls⟩ :=
      Rendering.stopsAtFailure_of_run_error rfl (element.walk_precedes _) passed
    obtain ⟨rfl, kept⟩ := EStateM.Result.error.inj same
    have created : Event.created (element.walk renderer.options.space) =
        Event.created (before ++ [event]) ++ Event.created after := by
      rw [split, ← Event.created_append, List.append_assoc, List.singleton_append]
    refine ⟨_, _, stopped.built, created, ?_, ?_, ?_⟩
    · intro visit member
      obtain ⟨front, back, here⟩ := List.append_of_mem member
      rw [Rendering.occur_error_built failed]
      refine Rendering.children_built split reached (by rw [created, here, List.append_assoc, List.cons_append]) ?_
      -- The event that fails creates at most one element, so what comes before another one was created before.
      have short : front <+: Event.created before := by
        rw [Event.created_append] at here
        have first : front <+: Event.created before ++ Event.created [event] := here ▸ List.prefix_append _ _
        refine List.prefix_of_prefix_length_le first (List.prefix_append _ _) ?_
        have length := congrArg List.length here
        have one : (Event.created [event]).length ≤ 1 := by cases event <;> simp
        simp only [List.length_append, List.length_cons] at length
        omega
      exact fun earlier listed => short.subset listed
    · rw [outcome, ← calls, ← kept]
      rfl
    · intro result finish done
      rw [done] at outcome
      cases outcome

/-- The plain dialect rejects no style, so a render fails there only where the builder refuses a call. -/
theorem renderElement_error_plain (renderer : Renderer) (builder : Builder σ ν) (element : Element)
    {start finish : Traced σ ν} {error : RenderError} (plain : (builder.traced.detect start).1 = .plain)
    (failed : renderer.renderElement builder.traced element start = .error error finish) :
    ∃ call state reason, builder.traced.create call state = .error reason finish := by
  have ends := renderer.renderElement_ends builder.traced element start
  rw [failed] at ends
  revert ends
  cases passed : (renderer.rendering builder.traced (builder.traced.detect start).1).run
      (element.walk renderer.options.space) (emptyDesk (builder.traced.detect start).2) with
  | ok _ desk =>
    rintro ⟨_, _, outcome⟩
    cases outcome
  | error stopped last =>
    intro outcome
    cases outcome
    obtain ⟨before, event, after, desk, _, _, stop⟩ := (Rendering.run_error_iff _).mp passed
    cases event with
    | enter visit =>
      obtain ⟨_, ⟨object, _⟩, _⟩ := Rendering.occur_enter_error_iff.mp stop
      have styled : (builder.traced.detect start).1.objectStyle = true := object
      rw [plain] at styled
      cases styled
    | create visit =>
      obtain ⟨reason, refused, _⟩ := Rendering.occur_create_error_iff.mp stop
      exact ⟨_, _, reason, refused⟩

/-- The numbering builder refuses no call. -/
theorem renderElement_numbering (renderer : Renderer) (element : Element) :
    ∃ result finish, renderer.renderElement Script.numbering.traced element { state := {} } = .ok result finish ∧
      Script.numbering.traced.Reaches { state := {} } finish := by
  have ends := renderer.renderElement_ends Script.numbering.traced element { state := {} }
  have started : Script.numbering.traced.Reaches { state := {} } (Script.numbering.traced.detect { state := {} }).2 :=
    Builder.Reaches.start.detect
  revert ends
  cases passed : (renderer.rendering Script.numbering.traced (Script.numbering.traced.detect { state := {} }).1).run
      (element.walk renderer.options.space) (emptyDesk (Script.numbering.traced.detect { state := {} }).2) with
  | ok _ desk =>
    rintro ⟨node, _, outcome⟩
    exact ⟨node, desk.builder, outcome, started.run passed⟩
  | error error last =>
    intro outcome
    obtain ⟨_, _, _, refused⟩ := renderer.renderElement_error_plain Script.numbering element rfl outcome
    cases refused

theorem traced_detect_calls (builder : Builder σ ν) (start : σ) : ∃ answer,
    (builder.traced.detect { state := start }).2.calls = [⟨answer, Builder.trial⟩] := by
  obtain ⟨answer, calls, _⟩ := builder.traced_detect { state := start }
  exact ⟨answer, calls⟩

/-- The calls of a render with the numbering builder, but for the elements that they are made for. -/
def numberedCalls (renderer : Renderer) (element : Element) : List (Call Nat) :=
  (Traced.final (renderer.renderElement Script.numbering.traced element { state := {} })).calls.map fun entry =>
    { entry.call with context := none }

/-- The calls that a render makes with any builder of the plain dialect are those that it makes with the numbering
one, from the first on and all of them if the render succeeds, each node in the place of its number. -/
theorem follows_numberedCalls (renderer : Renderer) (builder : Builder σ ν) (element : Element) (start : σ)
    (plain : (builder.traced.detect { state := start }).1 = .plain) : ∃ made later,
      renderer.numberedCalls element = made ++ later ∧
      Follows (Traced.final (renderer.renderElement builder.traced element { state := start })).calls made ∧
      ∀ result finish, renderer.renderElement builder.traced element { state := start } = .ok result finish →
        later = [] := by
  obtain ⟨visits, later, built, walk, children, calls, all⟩ :=
    renderer.renderElement_calls_built builder element { state := start }
  obtain ⟨visits', later', numbers, walk', _, calls', all'⟩ :=
    renderer.renderElement_calls_built Script.numbering element { state := {} }
  obtain ⟨result, finish, numbered, reached⟩ := renderer.renderElement_numbering element
  obtain rfl := all' result finish numbered
  obtain ⟨answer, trial⟩ := traced_detect_calls builder start
  obtain ⟨answer', trial'⟩ := traced_detect_calls Script.numbering {}
  rw [List.append_nil, walk] at walk'
  rw [trial, plain, List.singleton_append] at calls
  rw [trial', ← walk', List.singleton_append, numbered] at calls'
  have answers := (Script.numbering_answers reached).2
  rw [show finish.calls = _ from calls'] at answers
  rw [numberedCalls, numbered, calls, show (Traced.final (.ok result finish)).calls = _ from calls', List.map_cons,
    List.map_append, List.map_append]
  refine ⟨_ :: _, _, rfl, .cons ⟨rfl, rfl, .none⟩ ?_, fun result finish done => ?_⟩
  · rw [List.forall₂_map_left_iff, List.map_map, List.forall₂_map_right_iff, List.forall₂_same]
    intro visit member
    refine Rendering.entryFor_follows rfl fun child below => ?_
    obtain ⟨node, here⟩ := children visit member child below
    obtain ⟨before, after, split⟩ := List.append_of_mem member
    rw [split, List.append_assoc, List.cons_append] at walk
    obtain ⟨earlier, listed, rfl⟩ := List.mem_map.mp (Rendering.childPlaces_before walk below)
    obtain ⟨index, bound, found⟩ := List.getElem_of_mem listed
    have early : index < visits.length := by
      rw [split, List.length_append]
      omega
    have same : visits[index]? = some earlier := by
      rw [split, List.getElem?_append_left bound, List.getElem?_eq_getElem bound, found]
    have number : numbers earlier.place = some (index + 1) := by
      refine answers (index + 1) ((renderer.rendering Script.numbering.traced .plain).entryFor numbers earlier) ?_
      rw [List.getElem?_cons_succ, List.getElem?_map, List.getElem?_append_left early, same]
      rfl
    refine ⟨node, index + 1, here, number, ?_⟩
    rw [List.getElem?_cons_succ, List.getElem?_map, same]
    exact here
  · rw [all result finish done]
    rfl

/-- Every render in the plain dialect makes the numbered calls. -/
theorem makes_numberedCalls (renderer : Renderer) (builder : Builder σ ν) (element : Element) (start : σ)
    (plain : (builder.traced.detect { state := start }).1 = .plain) :
    Makes (renderer.numberedCalls element) (renderer.renderElement builder.traced element { state := start }) := by
  obtain ⟨made, later, numbered, follows, all⟩ := renderer.follows_numberedCalls builder element start plain
  cases outcome : renderer.renderElement builder.traced element { state := start } with
  | ok result finish =>
    rw [outcome] at follows
    obtain rfl := all result finish outcome
    rw [numbered, List.append_nil]
    exact follows
  | error error finish =>
    rw [outcome] at follows
    obtain ⟨_, _, _, refused⟩ := renderer.renderElement_error_plain builder element plain outcome
    exact ⟨made, later, _, _, numbered, follows, Rendering.traced_create_error refused⟩

end Renderer

end Hyperscript
