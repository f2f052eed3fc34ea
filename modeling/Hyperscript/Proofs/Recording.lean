import Hyperscript.Proofs.WalkSimulation
import Hyperscript.Renderer
import Hyperscript.Trace

namespace Hyperscript

variable {σ ν : Type}

/-- An outcome without the record of the calls. -/
def Traced.dropCalls {ε α : Type} : EStateM.Result ε (Traced σ ν) α → EStateM.Result ε σ α
  | .ok value trace => .ok value trace.state
  | .error error trace => .error error trace.state

def Desk.dropCalls : EStateM.Result RenderError (Desk (Traced σ ν) ν) Unit →
    EStateM.Result RenderError (Desk σ ν) Unit
  | .ok _ desk => .ok () ⟨desk.builder.state, desk.built⟩
  | .error error desk => .error error ⟨desk.builder.state, desk.built⟩

/-- Recording does not change what a builder answers. -/
theorem Builder.traced_create_dropCalls (builder : Builder σ ν) (call : Call ν) (trace : Traced σ ν) :
    builder.create call trace.state = Traced.dropCalls (builder.traced.create call trace) := by
  simp only [Builder.traced]
  cases builder.create call trace.state <;> rfl

/-- The trial of a recorded builder shows the same dialect and records one call. -/
theorem Builder.traced_detect (builder : Builder σ ν) (trace : Traced σ ν) : ∃ answer,
    (builder.traced.detect trace).2.calls = trace.calls ++ [⟨answer, Builder.trial⟩] ∧
      builder.detect trace.state =
        ((builder.traced.detect trace).1, (builder.traced.detect trace).2.state) := by
  simp only [Builder.detect, Builder.traced]
  cases builder.create Builder.trial trace.state with
  | ok node after => exact ⟨some node, rfl, rfl⟩
  | error reason after => exact ⟨none, rfl, rfl⟩

namespace Rendering

/-- The rendering with its builder's calls recorded. -/
def recorded (rendering : Rendering σ ν) : Rendering (Traced σ ν) ν :=
  { rendering with builder := rendering.builder.traced }

theorem recorded_callFor (rendering : Rendering σ ν) (built : Place → Option ν) (visit : Visit) :
    rendering.recorded.callFor built visit = rendering.callFor built visit := rfl

theorem occur_dropCalls (rendering : Rendering σ ν) (event : Event) (desk : Desk (Traced σ ν) ν) :
    rendering.occur event ⟨desk.builder.state, desk.built⟩ =
      Desk.dropCalls (rendering.recorded.occur event desk) := by
  cases event with
  | enter visit =>
    have same : rendering.recorded.shape visit.space visit.element =
        rendering.shape visit.space visit.element := rfl
    simp only [occur, same]
    cases rendering.shape visit.space visit.element <;> rfl
  | create visit =>
    have same : rendering.recorded.builder = rendering.builder.traced := rfl
    simp only [occur, recorded_callFor, same, rendering.builder.traced_create_dropCalls]
    cases rendering.builder.traced.create (rendering.callFor desk.built visit) desk.builder <;> rfl

/-- A recorded run comes to the same end. -/
theorem run_dropCalls (rendering : Rendering σ ν) (events : List Event) (desk : Desk (Traced σ ν) ν) :
    rendering.run events ⟨desk.builder.state, desk.built⟩ =
      Desk.dropCalls (rendering.recorded.run events desk) := by
  induction events generalizing desk with
  | nil => rfl
  | cons event rest ih =>
    simp only [run, occur_dropCalls]
    cases rendering.recorded.occur event desk with
    | ok _ reached => exact ih reached
    | error error last => rfl

end Rendering

namespace Renderer

/-- What stays the same while a renderer renders a tree for a builder of a dialect. -/
def rendering (renderer : Renderer) (builder : Builder σ ν) (dialect : Dialect) : Rendering σ ν where
  builder
  schema := renderer.schema
  dialect
  keyText := renderer.options.keyPrefix.resolve dialect

/-- The desk on which a walk starts: nothing is built. -/
def emptyDesk (state : σ) : Desk σ ν where
  builder := state
  built := fun _ => none

theorem renderElement_eq (renderer : Renderer) (builder : Builder σ ν) (element : Element) (state : σ) :
    renderer.renderElement builder element state =
      match (renderer.rendering builder (builder.detect state).1).element renderer.options.space element
        ⟨(builder.detect state).2, 0⟩ with
      | .ok node progress => .ok node progress.builder
      | .error error progress => .error error progress.builder := rfl

/-- After the trial, rendering an element ends as the walk through it does. -/
theorem renderElement_ends (renderer : Renderer) (builder : Builder σ ν) (element : Element) (state : σ) :
    match (renderer.rendering builder (builder.detect state).1).run (element.walk renderer.options.space)
        (emptyDesk (builder.detect state).2) with
    | .ok _ desk => ∃ node, desk.built [] = some node ∧
        renderer.renderElement builder element state = .ok node desk.builder
    | .error error desk => renderer.renderElement builder element state = .error error desk.builder := by
  rw [renderElement_eq]
  generalize renderer.rendering builder (builder.detect state).1 = rendering
  generalize (builder.detect state).2 = trialled
  obtain ⟨number, mirrored⟩ : ∃ number, rendering.Mirrors number (Rendering.FitsNode (fun _ => none) [])
      (rendering.element renderer.options.space element ⟨trialled, 0⟩)
      (rendering.run (element.walk renderer.options.space) (emptyDesk trialled)) :=
    Rendering.element_mirrors element renderer.options.space rfl rfl
  revert mirrored
  cases rendering.element renderer.options.space element ⟨trialled, 0⟩ with
  | ok node progress =>
    cases rendering.run (element.walk renderer.options.space) (emptyDesk trialled) with
    | ok _ desk =>
      rintro ⟨same, _, here, _⟩
      exact ⟨node, here, by rw [same]⟩
    | error error desk => exact False.elim
  | error error progress =>
    cases rendering.run (element.walk renderer.options.space) (emptyDesk trialled) with
    | ok _ desk => exact False.elim
    | error other desk =>
      rintro ⟨rfl, same⟩
      simp only [same]

theorem render_of_ok {tree : Option Node} {element : Element} (found : rootElement tree = .ok element)
    (renderer : Renderer) (builder : Builder σ ν) (state : σ) :
    renderer.render (some builder) tree state = renderer.renderElement builder element state := by
  simp only [render, found]

theorem render_of_error {tree : Option Node} {error : RenderError} (failed : rootElement tree = .error error)
    (renderer : Renderer) (builder : Builder σ ν) (state : σ) :
    renderer.render (some builder) tree state = .error error state := by
  simp only [render, failed]
  rfl

/-- Recording the calls of a builder changes nothing else. -/
theorem render_dropCalls (renderer : Renderer) (builder : Builder σ ν) (tree : Option Node)
    (start : Traced σ ν) :
    renderer.render (some builder) tree start.state =
      Traced.dropCalls (renderer.render (some builder.traced) tree start) := by
  cases found : rootElement tree with
  | error error =>
    rw [render_of_error found, render_of_error found]
    rfl
  | ok element =>
    rw [render_of_ok found, render_of_ok found]
    obtain ⟨answer, _, detected⟩ := builder.traced_detect start
    have ends := renderer.renderElement_ends builder element start.state
    have tracedEnds := renderer.renderElement_ends builder.traced element start
    have same := (renderer.rendering builder (builder.traced.detect start).1).run_dropCalls
      (element.walk renderer.options.space) (emptyDesk (builder.traced.detect start).2)
    have recorded : (renderer.rendering builder (builder.traced.detect start).1).recorded =
        renderer.rendering builder.traced (builder.traced.detect start).1 := rfl
    rw [recorded] at same
    rw [detected] at ends
    simp only [emptyDesk] at same ends tracedEnds
    rw [same] at ends
    revert ends tracedEnds
    cases (renderer.rendering builder.traced (builder.traced.detect start).1).run
        (element.walk renderer.options.space) ⟨(builder.traced.detect start).2, fun _ => none⟩ with
    | ok _ desk =>
      rintro ⟨node, here, outcome⟩ ⟨node', here', outcome'⟩
      have unique : node = node' := Option.some.inj (here.symm.trans here')
      rw [outcome, outcome', unique]
      rfl
    | error error desk =>
      intro outcome outcome'
      rw [outcome, outcome']
      rfl

end Renderer

end Hyperscript
