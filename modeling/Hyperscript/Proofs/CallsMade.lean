import Hyperscript.Proofs.FailFast

namespace Hyperscript

variable {σ ν : Type}

namespace Event

/-- Each element that some events create is entered by an earlier one of them. -/
def Opened (events : List Event) : Prop :=
  ∀ before visit after, events = before ++ .create visit :: after → .enter visit ∈ before

theorem Opened.nil : Opened [] := by
  intro before visit after same
  cases before <;> cases same

theorem Opened.append {events later : List Event} (first : Opened events) (second : Opened later) :
    Opened (events ++ later) := by
  intro before visit after same
  rcases List.append_eq_append_iff.mp same with ⟨between, rfl, rest⟩ | ⟨between, here, rest⟩
  · exact List.mem_append_right _ (second between visit after rest)
  · cases between with
    | nil => exact absurd (second [] visit after rest.symm) List.not_mem_nil
    | cons event between =>
      obtain ⟨rfl, _⟩ := List.cons.inj rest
      exact first before visit between here

/-- What happens between entering and creating an element may come in any way that is in order itself. -/
theorem Opened.around {below : List Event} (inner : Opened below) (visit : Visit) :
    Opened (.enter visit :: (below ++ [.create visit])) := by
  intro before other after same
  cases before with
  | nil => cases same
  | cons event before =>
    obtain ⟨rfl, rest⟩ := List.cons.inj same
    rcases List.append_eq_append_iff.mp rest with ⟨between, rfl, last⟩ | ⟨between, here, last⟩
    · cases between with
      | nil =>
        obtain ⟨same, _⟩ := List.cons.inj last
        rw [Event.create.inj same]
        exact List.mem_cons_self ..
      | cons event between => cases between <;> cases last
    · cases between with
      | nil =>
        obtain ⟨same, _⟩ := List.cons.inj last
        rw [Event.create.inj same]
        exact List.mem_cons_self ..
      | cons event between =>
        obtain ⟨rfl, _⟩ := List.cons.inj last
        exact List.mem_cons_of_mem _ (inner before other between here)

end Event

namespace Node

mutual

theorem events_opened (place : Place) (space : Space) (number : Nat) : (node : Node) →
    Event.Opened (node.events place space number)
  | .element tag properties inner => by
    rw [events]
    exact (eventsFrom_opened place 0 (space.enter tag) (number + 1) inner).around _
  | .root _ => .nil
  | .text _ => .nil
  | .comment _ => .nil
  | .doctype => .nil
  | .raw _ => .nil

theorem eventsFrom_opened (place : Place) (index : Nat) (space : Space) (number : Nat) :
    (nodes : List Node) → Event.Opened (eventsFrom place index space number nodes)
  | [] => .nil
  | node :: rest => by
    rw [eventsFrom]
    exact (events_opened _ _ _ node).append (eventsFrom_opened _ _ _ _ rest)

end

end Node

namespace Rendering

theorem shape_of_run {rendering : Rendering σ ν} {events : List Event} {desk final : Desk σ ν} {visit : Visit}
    (run : rendering.run events desk = .ok () final) (entered : .enter visit ∈ events) :
    ∃ shaped, rendering.shape visit.space visit.element = .ok shaped := by
  induction events generalizing desk with
  | nil => cases entered
  | cons event rest ih =>
    obtain ⟨reached, occurred, later⟩ := run_cons_ok run
    rcases List.mem_cons.mp entered with rfl | member
    · simp only [occur] at occurred
      split at occurred
      · next shaped found => exact ⟨shaped, found⟩
      · cases occurred
    · exact ih later member

/-- The call that is made for a visited element whose styles are accepted. -/
theorem entryFor_of_shape {rendering : Rendering σ ν} {visit : Visit} {name : String} {attributes : Attributes}
    (shaped : rendering.shape visit.space visit.element = .ok (name, attributes)) (built : Place → Option ν) :
    (rendering.entryFor built visit).call.name = name ∧
      (rendering.entryFor built visit).call.attributes = rendering.keyed visit.number attributes ∧
      (rendering.entryFor built visit).call.context = some visit.element := by
  simp only [entryFor, callFor, dressed, shaped, and_self]

end Rendering

/-- The state that an outcome leaves behind. -/
def Traced.final {ε α : Type} : EStateM.Result ε (Traced σ ν) α → Traced σ ν
  | .ok _ trace => trace
  | .error _ trace => trace

namespace Renderer

/-- In every render the calls after the trial are made for elements of the walk from its beginning on, all of
them entered without a fault, and for all elements of the walk if the render succeeds. -/
theorem renderElement_calls (renderer : Renderer) (builder : Builder σ ν) (element : Element)
    (start : Traced σ ν) : ∃ visits built,
      visits <+: Event.created (element.walk renderer.options.space) ∧
      (∀ visit ∈ visits, ∃ shaped, (renderer.rendering builder.traced (builder.traced.detect start).1).shape
        visit.space visit.element = .ok shaped) ∧
      (Traced.final (renderer.renderElement builder.traced element start)).calls =
        (builder.traced.detect start).2.calls ++ visits.map
          ((renderer.rendering builder.traced (builder.traced.detect start).1).entryFor built) ∧
      ∀ result finish, renderer.renderElement builder.traced element start = .ok result finish →
        visits = Event.created (element.walk renderer.options.space) := by
  have opened := Node.events_opened [] renderer.options.space 1 element.toNode
  have ends := renderer.renderElement_ends builder.traced element start
  revert ends
  cases passed : (renderer.rendering builder.traced (builder.traced.detect start).1).run
      (element.walk renderer.options.space) (emptyDesk (builder.traced.detect start).2) with
  | ok _ desk =>
    rintro ⟨node, _, outcome⟩
    refine ⟨_, desk.built, List.prefix_rfl, ?_, ?_, fun _ _ _ => rfl⟩
    · intro visit member
      obtain ⟨before, after, split⟩ := List.append_of_mem (Event.mem_created.mp member)
      refine Rendering.shape_of_run passed ?_
      rw [split]
      exact List.mem_append_left _ (opened before visit after split)
    · rw [outcome]
      exact Rendering.run_ok_calls rfl (element.walk_precedes _) passed
  | error error last =>
    intro outcome
    obtain ⟨before, event, after, desk, _, stopped, split, reached, _, same, calls⟩ :=
      Rendering.stopsAtFailure_of_run_error rfl (element.walk_precedes _) passed
    obtain ⟨rfl, kept⟩ := EStateM.Result.error.inj same
    have walk : element.walk renderer.options.space = (before ++ [event]) ++ after := by rw [split]; simp
    refine ⟨Event.created (before ++ [event]), stopped.built, ?_, ?_, ?_, ?_⟩
    · rw [walk, Event.created_append (before ++ [event])]
      exact List.prefix_append _ _
    · intro visit member
      obtain ⟨earlier, later, found⟩ := List.append_of_mem (Event.mem_created.mp member)
      refine Rendering.shape_of_run reached ?_
      -- The last event that takes place may be the creation itself, but its element was entered before it.
      have entered : .enter visit ∈ earlier :=
        opened earlier visit (later ++ after) (by rw [← List.cons_append, ← List.append_assoc, ← found]; exact walk)
      rcases List.append_eq_append_iff.mp found with ⟨between, rfl, last⟩ | ⟨between, rfl, last⟩
      · cases between with
        | nil => simpa using entered
        | cons other between => cases between <;> cases last
      · exact List.mem_append_left _ entered
    · rw [outcome, ← calls, ← kept]
      rfl
    · intro result finish done
      rw [done] at outcome
      cases outcome

end Renderer

end Hyperscript
