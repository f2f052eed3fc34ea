import Hyperscript.Proofs.CallRecord
import Hyperscript.Proofs.Recording

namespace Hyperscript

variable {σ ν : Type}

theorem Element.walk_precedes (element : Element) (space : Space) :
    (Event.created (element.walk space)).Pairwise fun visit later =>
      Place.Precedes visit.place later.place :=
  Node.created_precedes [] space 1 element.toNode

namespace Rendering

/-- All events take place. The outcome is the node of the upper element, and one call is recorded for each
element created, in order. -/
def Completes (rendering : Rendering (Traced σ ν) ν) (events : List Event) (trace : Traced σ ν)
    (outcome : EStateM.Result RenderError (Traced σ ν) ν) : Prop :=
  ∃ desk node, rendering.run events (Renderer.emptyDesk trace) = .ok () desk ∧ desk.built [] = some node ∧
    outcome = .ok node desk.builder ∧
    desk.builder.calls = trace.calls ++ (Event.created events).map (rendering.entryFor desk.built)

/-- Some event is the first that fails. The outcome is its error, and one call is recorded for each element
created before it, and for the element that it was to create. -/
def StopsAtFailure (rendering : Rendering (Traced σ ν) ν) (events : List Event) (trace : Traced σ ν)
    (outcome : EStateM.Result RenderError (Traced σ ν) ν) : Prop :=
  ∃ before event after desk error last, events = before ++ event :: after ∧
    rendering.run before (Renderer.emptyDesk trace) = .ok () desk ∧
    rendering.occur event desk = .error error last ∧ outcome = .error error last.builder ∧
    last.builder.calls =
      trace.calls ++ (Event.created (before ++ [event])).map (rendering.entryFor last.built)

/-- An element cannot be entered if and only if one of its kept styles is rejected; the first one gives the
error. -/
theorem occur_enter_error_iff {rendering : Rendering σ ν} {visit : Visit} {desk last : Desk σ ν}
    {error : RenderError} :
    rendering.occur (.enter visit) desk = .error error last ↔ ∃ fault,
      Attributes.IsFirstFault rendering.schema rendering.dialect visit.space visit.element.properties.entries
        fault ∧ error = .invalidStyle visit.element.tag fault ∧ last = desk := by
  have faulty : ∀ fault, rendering.shape visit.space visit.element = .error fault ↔
      Attributes.IsFirstFault rendering.schema rendering.dialect visit.space visit.element.properties.entries
        fault := fun fault => by
    rw [← Attributes.addAll_error_iff _ ∅]
    simp only [shape, Attributes.ofProperties]
    split
    · next found => simp [found]
    · next found => simp [found]
  simp only [occur, ← faulty]
  cases rendering.shape visit.space visit.element with
  | ok shaped => simp
  | error fault =>
    constructor
    · rintro ⟨rfl⟩
      exact ⟨fault, rfl, rfl, rfl⟩
    · rintro ⟨_, ⟨rfl⟩, rfl, rfl⟩
      rfl

theorem occur_create_error_iff {rendering : Rendering σ ν} {visit : Visit} {desk last : Desk σ ν}
    {error : RenderError} :
    rendering.occur (.create visit) desk = .error error last ↔ ∃ reason,
      rendering.builder.create (rendering.callFor desk.built visit) desk.builder =
        .error reason last.builder ∧
      error = .refused visit.element.tag reason ∧ last.built = desk.built := by
  simp only [occur]
  cases rendering.builder.create (rendering.callFor desk.built visit) desk.builder with
  | ok node state => simp
  | error reason state =>
    constructor
    · rintro ⟨rfl⟩
      exact ⟨reason, rfl, rfl, rfl⟩
    · obtain ⟨builder, built⟩ := last
      rintro ⟨_, ⟨rfl⟩, rfl, rfl⟩
      rfl

/-- What a failing event records is what belongs to it: no element is created twice. -/
theorem stopsAtFailure_of_run_error {builder : Builder σ ν} {rendering : Rendering (Traced σ ν) ν}
    (recorded : rendering.builder = builder.traced) {events : List Event} {trace : Traced σ ν}
    {last : Desk (Traced σ ν) ν} {error : RenderError}
    (order : (Event.created events).Pairwise fun visit later => Place.Precedes visit.place later.place)
    (failed : rendering.run events (Renderer.emptyDesk trace) = .error error last) :
    rendering.StopsAtFailure events trace (.error error last.builder) := by
  obtain ⟨before, event, after, reached, rfl, passed, culprit⟩ := (run_error_iff _).mp failed
  rw [show before ++ event :: after = before ++ [event] ++ after by simp, Event.created_append,
    Event.created_append, List.append_assoc, List.pairwise_append] at order
  obtain ⟨earlier, _, apart⟩ := order
  have fresh : ∀ visit ∈ Event.created [event], reached.built visit.place = none := by
    intro visit member
    refine run_keeps passed fun other created => ?_
    exact (apart other created visit (List.mem_append_left _ member)).ne
  obtain ⟨same, calls⟩ := occur_error_calls recorded fresh culprit
  refine ⟨before, event, after, reached, error, last, rfl, passed, culprit, rfl, ?_⟩
  rw [calls, run_ok_calls recorded earlier passed, same, Event.created_append, List.map_append,
    List.append_assoc]
  rfl

end Rendering

namespace Renderer

theorem exists_rootElement_iff {tree : Option Node} :
    (∃ element, rootElement tree = .ok element) ↔
      ∃ node, tree = some node ∧ (node.kind = .root ∨ node.kind = .element) := by
  constructor
  · rintro ⟨element, found⟩
    unfold rootElement at found
    split at found <;> simp_all [Node.kind]
  · rintro ⟨node, rfl, kind⟩
    cases node with
    | root children =>
      unfold rootElement
      split
      · exact ⟨_, rfl⟩
      · exact ⟨_, rfl⟩
      · exact ⟨_, rfl⟩
      · next other notRoot _ same => exact absurd (Option.some.inj same).symm (notRoot children)
      · next same => cases same
    | element tag properties children => exact ⟨_, rfl⟩
    | text => simp [Node.kind] at kind
    | comment => simp [Node.kind] at kind
    | doctype => simp [Node.kind] at kind
    | raw => simp [Node.kind] at kind

theorem rootElement_error {tree : Option Node} {error : RenderError} (failed : rootElement tree = .error error) :
    error = .invalidNode (tree.map Node.kind) := by
  unfold rootElement at failed
  split at failed <;> cases failed <;> rfl

/-- Rendering makes one trial call and then stops at the first failure of the walk. Before the trial it
stops for a missing builder, and for a missing tree or one that is neither a root nor an element. The
walk fails where an element is entered that has a rejected style, or where the builder refuses to create
one; the trial call may be refused. Recording the calls changes nothing but the record. -/
theorem render_stops_at_first_failure (renderer : Renderer) (builder : Builder σ ν) (tree : Option Node)
    (start : Traced σ ν) :
    renderer.render (none : Option (Builder (Traced σ ν) ν)) tree start = .error .invalidBuilder start ∧
    ((∃ element, rootElement tree = .ok element) ↔
      ∃ node, tree = some node ∧ (node.kind = .root ∨ node.kind = .element)) ∧
    renderer.render (some builder) tree start.state =
      Traced.dropCalls (renderer.render (some builder.traced) tree start) ∧
    match rootElement tree with
    | .error _ =>
      renderer.render (some builder.traced) tree start = .error (.invalidNode (tree.map Node.kind)) start
    | .ok element => ∃ dialect trialled answer,
      builder.traced.detect start = (dialect, trialled) ∧
      trialled.calls = start.calls ++ [⟨answer, Builder.trial⟩] ∧
      ((renderer.rendering builder.traced dialect).Completes (element.walk renderer.options.space) trialled
          (renderer.render (some builder.traced) tree start) ∨
        (renderer.rendering builder.traced dialect).StopsAtFailure (element.walk renderer.options.space)
          trialled (renderer.render (some builder.traced) tree start)) ∧
      (∀ visit desk error last,
        (renderer.rendering builder.traced dialect).occur (.enter visit) desk = .error error last ↔
          ∃ fault, Attributes.IsFirstFault renderer.schema dialect visit.space
              visit.element.properties.entries fault ∧
            error = .invalidStyle visit.element.tag fault ∧ last = desk) ∧
      (∀ visit desk error last,
        (renderer.rendering builder.traced dialect).occur (.create visit) desk = .error error last ↔
          ∃ reason, builder.traced.create
              ((renderer.rendering builder.traced dialect).callFor desk.built visit) desk.builder =
                .error reason last.builder ∧
            error = .refused visit.element.tag reason ∧ last.built = desk.built) := by
  refine ⟨rfl, exists_rootElement_iff, renderer.render_dropCalls builder tree start, ?_⟩
  · cases found : rootElement tree with
    | error error =>
      simp only
      rw [render_of_error found, rootElement_error found]
    | ok element =>
      obtain ⟨answer, calls, _⟩ := builder.traced_detect start
      refine ⟨_, _, answer, rfl, calls, ?_, fun visit desk error last => Rendering.occur_enter_error_iff,
        fun visit desk error last => Rendering.occur_create_error_iff⟩
      rw [render_of_ok found]
      have ends := renderer.renderElement_ends builder.traced element start
      revert ends
      cases passed : (renderer.rendering builder.traced (builder.traced.detect start).1).run
          (element.walk renderer.options.space) (emptyDesk (builder.traced.detect start).2) with
      | ok _ desk =>
        rintro ⟨node, here, outcome⟩
        exact Or.inl ⟨desk, node, passed, here, outcome,
          Rendering.run_ok_calls rfl (element.walk_precedes _) passed⟩
      | error error last =>
        intro outcome
        rw [outcome]
        exact Or.inr (Rendering.stopsAtFailure_of_run_error rfl (element.walk_precedes _) passed)

end Renderer

end Hyperscript
