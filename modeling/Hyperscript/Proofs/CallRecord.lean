import Hyperscript.Proofs.EventRun
import Hyperscript.Trace

namespace Hyperscript

namespace Rendering

variable {σ ν : Type} {rendering : Rendering σ ν}

/-- A call with its answer, as it has to be recorded for a visited element. -/
def entryFor (rendering : Rendering σ ν) (built : Place → Option ν) (visit : Visit) : Entry ν where
  node := built visit.place
  call := rendering.callFor built visit

/-- A call depends on the nodes right below its element only. -/
theorem callFor_congr {built built' : Place → Option ν} {visit : Visit}
    (same : ∀ i, built (visit.place ++ [i]) = built' (visit.place ++ [i])) :
    rendering.callFor built visit = rendering.callFor built' visit := by
  simp only [callFor, Node.handedAll_congr visit.element.children fun i _ => same i]

theorem run_cons_ok {event : Event} {rest : List Event} {desk final : Desk σ ν}
    (run : rendering.run (event :: rest) desk = .ok () final) :
    ∃ reached, rendering.occur event desk = .ok () reached ∧ rendering.run rest reached = .ok () final := by
  simp only [Rendering.run] at run
  split at run
  · next reached occurred => exact ⟨reached, occurred, run⟩
  · cases run

theorem occur_enter_ok {visit : Visit} {desk final : Desk σ ν}
    (occurred : rendering.occur (.enter visit) desk = .ok () final) : final = desk := by
  simp only [occur] at occurred
  split at occurred <;> cases occurred
  rfl

/-- A creation that succeeds sets the node of one place. -/
theorem occur_create_ok {visit : Visit} {desk final : Desk σ ν}
    (occurred : rendering.occur (.create visit) desk = .ok () final) : ∃ node,
      rendering.builder.create (rendering.callFor desk.built visit) desk.builder = .ok node final.builder ∧
        final.built = Function.update desk.built visit.place (some node) := by
  simp only [occur] at occurred
  split at occurred
  · next node state answered =>
    cases occurred
    exact ⟨node, answered, rfl⟩
  · cases occurred

/-- Places at which nothing is created keep what they hold. -/
theorem run_keeps {events : List Event} {desk final : Desk σ ν} {place : Place}
    (run : rendering.run events desk = .ok () final)
    (outside : ∀ visit ∈ Event.created events, visit.place ≠ place) : final.built place = desk.built place := by
  induction events generalizing desk with
  | nil => cases run; rfl
  | cons event rest ih =>
    obtain ⟨reached, occurred, later⟩ := run_cons_ok run
    cases event with
    | enter visit =>
      rw [occur_enter_ok occurred] at later
      exact ih later outside
    | create visit =>
      simp only [Event.created_create, List.mem_cons, forall_eq_or_imp] at outside
      obtain ⟨node, _, built⟩ := occur_create_ok occurred
      rw [ih later outside.2, built, Function.update_of_ne outside.1.symm]

/-- What is built below a created element stays as it is, for all later elements are created elsewhere. -/
theorem run_keeps_below {visit : Visit} {rest : List Event} {desk final : Desk σ ν} {place : Place}
    (run : rendering.run rest desk = .ok () final)
    (order : ∀ later ∈ Event.created rest, Place.Precedes visit.place later.place)
    (below : visit.place <+: place) : final.built place = desk.built place := by
  refine run_keeps run fun later member same => ?_
  subst same
  exact (order later member).not_isPrefix below

/-- Every element that a run has created has a node in the end. -/
theorem run_builds {events : List Event} {desk final : Desk σ ν} {visit : Visit}
    (order : (Event.created events).Pairwise fun visit later => Place.Precedes visit.place later.place)
    (run : rendering.run events desk = .ok () final) (member : visit ∈ Event.created events) :
    ∃ node, final.built visit.place = some node := by
  induction events generalizing desk with
  | nil => simp at member
  | cons event rest ih =>
    obtain ⟨reached, occurred, later⟩ := run_cons_ok run
    cases event with
    | enter => exact ih order later member
    | create created =>
      rw [Event.created_create, List.pairwise_cons] at order
      rcases List.mem_cons.mp member with rfl | member
      · obtain ⟨node, _, built⟩ := occur_create_ok occurred
        exact ⟨node, by rw [run_keeps_below later order.1 List.prefix_rfl, built, Function.update_self]⟩
      · exact ih order.2 later member

section Traced

variable {builder : Builder σ ν} {rendering : Rendering (Traced σ ν) ν}

theorem traced_create_ok {call : Call ν} {trace after : Traced σ ν} {node : ν}
    (answered : builder.traced.create call trace = .ok node after) :
    after.calls = trace.calls ++ [⟨some node, call⟩] := by
  simp only [Builder.traced] at answered
  split at answered <;> cases answered
  rfl

theorem traced_create_error {call : Call ν} {trace after : Traced σ ν} {reason : String}
    (refused : builder.traced.create call trace = .error reason after) :
    after.calls = trace.calls ++ [⟨none, call⟩] := by
  simp only [Builder.traced] at refused
  split at refused <;> cases refused
  rfl

/-- A run that passes records the call of each created element with its node, in order. -/
theorem run_ok_calls (recorded : rendering.builder = builder.traced) {events : List Event}
    {desk final : Desk (Traced σ ν) ν}
    (order : (Event.created events).Pairwise fun visit later => Place.Precedes visit.place later.place)
    (run : rendering.run events desk = .ok () final) :
    final.builder.calls = desk.builder.calls ++ (Event.created events).map (rendering.entryFor final.built) := by
  induction events generalizing desk with
  | nil => cases run; simp
  | cons event rest ih =>
    obtain ⟨reached, occurred, later⟩ := run_cons_ok run
    cases event with
    | enter visit =>
      rw [occur_enter_ok occurred] at later
      exact ih order later
    | create visit =>
      rw [Event.created_create, List.pairwise_cons] at order
      obtain ⟨node, answered, built⟩ := occur_create_ok occurred
      rw [recorded] at answered
      have here : final.built visit.place = some node := by
        rw [run_keeps_below later order.1 List.prefix_rfl, built, Function.update_self]
      have call : rendering.callFor final.built visit = rendering.callFor desk.built visit := by
        refine callFor_congr fun i => ?_
        rw [run_keeps_below later order.1 (List.prefix_append _ _), built,
          Function.update_of_ne (by simp)]
      rw [ih order.2 later, traced_create_ok answered]
      simp [entryFor, here, call]

/-- A failing event records a call if and only if it is the creation of an element, which is then refused. -/
theorem occur_error_calls (recorded : rendering.builder = builder.traced) {event : Event}
    {desk last : Desk (Traced σ ν) ν} {error : RenderError}
    (fresh : ∀ visit ∈ Event.created [event], desk.built visit.place = none)
    (failed : rendering.occur event desk = .error error last) : last.built = desk.built ∧
      last.builder.calls = desk.builder.calls ++ (Event.created [event]).map (rendering.entryFor last.built) := by
  cases event with
  | enter visit =>
    simp only [occur] at failed
    split at failed <;> cases failed
    exact ⟨rfl, by simp⟩
  | create visit =>
    simp only [occur] at failed
    split at failed
    · cases failed
    · next reason state refused =>
      cases failed
      rw [recorded] at refused
      refine ⟨rfl, ?_⟩
      have unbuilt := fresh visit (by simp)
      simp [traced_create_error refused, entryFor, unbuilt]

end Traced

end Rendering

end Hyperscript
