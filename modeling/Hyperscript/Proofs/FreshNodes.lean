import Mathlib.Data.List.Nodup
import Hyperscript.Proofs.CallRecord
import Hyperscript.Script

namespace Hyperscript

namespace Builder

variable {σ ν : Type}

/-- The states that calls and inspections, in any order, lead to. -/
inductive Reaches (builder : Builder σ ν) (start : σ) : σ → Prop
  | start : Reaches builder start start
  | answered {state after call node} : Reaches builder start state →
      builder.create call state = .ok node after → Reaches builder start after
  | refused {state after call reason} : Reaches builder start state →
      builder.create call state = .error reason after → Reaches builder start after
  | inspected {state node} : Reaches builder start state →
      Reaches builder start (builder.inspect node state).2

/-- No call is ever refused from `start` on. -/
def NeverRefuses (builder : Builder σ ν) (start : σ) : Prop :=
  ∀ state, builder.Reaches start state → ∀ call, ∃ node after, builder.create call state = .ok node after

/-- No node is handed out twice from `start` on. -/
def HandsOutFresh (builder : Builder σ ν) (start : σ) : Prop :=
  ∀ trace, builder.traced.Reaches { state := start } trace → (trace.calls.filterMap Entry.node).Nodup

theorem Reaches.detect {builder : Builder σ ν} {start state : σ} (reached : builder.Reaches start state) :
    builder.Reaches start (builder.detect state).2 := by
  unfold Builder.detect
  cases answer : builder.create trial state with
  | ok node after => exact (reached.answered answer).inspected
  | error reason after => exact reached.refused answer

/-- A run of events only calls the builder. -/
theorem Reaches.run {rendering : Rendering σ ν} {start : σ} {events : List Event} {desk final : Desk σ ν}
    (reached : rendering.builder.Reaches start desk.builder)
    (run : rendering.run events desk = .ok () final) : rendering.builder.Reaches start final.builder := by
  induction events generalizing desk with
  | nil => cases run; exact reached
  | cons event rest ih =>
    obtain ⟨next, occurred, later⟩ := Rendering.run_cons_ok run
    refine ih ?_ later
    cases event with
    | enter visit =>
      rw [Rendering.occur_enter_ok occurred]
      exact reached
    | create visit =>
      obtain ⟨node, answered, _⟩ := Rendering.occur_create_ok occurred
      exact reached.answered answered

end Builder

namespace Script

/-- The nodes handed out so far are different numbers below the number of the next call. -/
theorem numbering_issued {start : Tally} {trace : Traced Tally Nat}
    (reached : numbering.traced.Reaches { state := start } trace) :
    (trace.calls.filterMap Entry.node).Nodup ∧
      ∀ node ∈ trace.calls.filterMap Entry.node, node < trace.state.calls := by
  induction reached with
  | start => simp
  | @answered state after call node _ answer ih =>
    obtain ⟨distinct, below⟩ := ih
    cases answer
    simp only [List.filterMap_append, List.filterMap_cons, List.filterMap_nil]
    refine ⟨List.nodup_append.mpr ⟨distinct, List.nodup_singleton _, ?_⟩, ?_⟩
    · intro old member new last
      rw [List.mem_singleton.mp last]
      exact (below old member).ne
    · intro old member
      rcases List.mem_append.mp member with earlier | last
      · exact (below old earlier).trans (Nat.lt_succ_self _)
      · rw [List.mem_singleton.mp last]
        exact Nat.lt_succ_self _
  | refused _ answer => cases answer
  | inspected _ ih => exact ih

theorem numbering_handsOutFresh (start : Tally) : numbering.HandsOutFresh start :=
  fun _ reached => (numbering_issued reached).1

theorem numbering_neverRefuses (start : Tally) : numbering.NeverRefuses start :=
  fun _ _ _ => ⟨_, _, rfl⟩

end Script

end Hyperscript
