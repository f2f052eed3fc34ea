import Hyperscript.Proofs.Walk

namespace Hyperscript

/-- Places in the order in which elements are created: what stands below a place comes before it, and so
does what stands at or below an earlier child of an element above both. -/
def Place.Precedes (place other : Place) : Prop :=
  (other <+: place ∧ other ≠ place) ∨
    ∃ above i j, i < j ∧ above ++ [i] <+: place ∧ above ++ [j] <+: other

/-- A place is above what stands at or below a child of it, and differs from it. -/
theorem Place.above_of_child {place other : Place} {i : Nat} (under : place ++ [i] <+: other) :
    place <+: other ∧ place ≠ other := by
  refine ⟨(List.prefix_append place [i]).trans under, ?_⟩
  rintro rfl
  have longer := under.length_le
  simp only [List.length_append, List.length_singleton] at longer
  omega

theorem Place.Precedes.below {place other : Place} {i : Nat} (under : other ++ [i] <+: place) :
    Place.Precedes place other :=
  Or.inl (Place.above_of_child under)

/-- Two children of one element have nothing below them in common. -/
theorem Place.child_unique {above place : Place} {i j : Nat} (first : above ++ [i] <+: place)
    (second : above ++ [j] <+: place) : i = j := by
  have same : above ++ [i] = above ++ [j] :=
    List.prefix_of_prefix_length_le first second (by simp) |>.eq_of_length (by simp)
  simpa using same

/-- No element is created before what stands in it. -/
theorem Place.Precedes.not_isPrefix {place other : Place} (before : Place.Precedes place other) :
    ¬ place <+: other := by
  intro under
  rcases before with ⟨above, different⟩ | ⟨above, i, j, order, first, second⟩
  · exact different (above.eq_of_length (Nat.le_antisymm above.length_le under.length_le))
  · have := Place.child_unique (first.trans under) second
    omega

/-- A place does not precede itself. -/
theorem Place.Precedes.ne {place other : Place} (before : Place.Precedes place other) : place ≠ other := by
  rintro rfl
  exact before.not_isPrefix List.prefix_rfl

mutual

/-- Whatever happens at a node happens at its place or below. -/
theorem Node.place_of_mem_events {event : Event} {place : Place} {space : Space} {number : Nat} :
    (node : Node) → event ∈ node.events place space number → place <+: event.visit.place
  | .element tag properties inner, member => by
    simp only [Node.events, List.mem_cons, List.mem_append, List.not_mem_nil, or_false] at member
    rcases member with rfl | below | rfl
    · exact List.prefix_rfl
    · obtain ⟨i, _, under⟩ := Node.place_of_mem_eventsFrom inner below
      exact (List.prefix_append place [i]).trans under
    · exact List.prefix_rfl
  | .root _, member => by simp [Node.events] at member
  | .text _, member => by simp [Node.events] at member
  | .comment _, member => by simp [Node.events] at member
  | .doctype, member => by simp [Node.events] at member
  | .raw _, member => by simp [Node.events] at member

theorem Node.place_of_mem_eventsFrom {event : Event} {place : Place} {index : Nat} {space : Space}
    {number : Nat} : (nodes : List Node) → event ∈ Node.eventsFrom place index space number nodes →
      ∃ i, index ≤ i ∧ place ++ [i] <+: event.visit.place
  | [], member => by simp [Node.eventsFrom] at member
  | node :: rest, member => by
    simp only [Node.eventsFrom, List.mem_append] at member
    rcases member with here | later
    · exact ⟨index, le_rfl, Node.place_of_mem_events node here⟩
    · obtain ⟨i, bound, under⟩ := Node.place_of_mem_eventsFrom rest later
      exact ⟨i, by omega, under⟩

end

/-- A visit of a walk stands at or below the node that is walked. -/
theorem Node.place_of_mem_created {visit : Visit} {place : Place} {space : Space} {number : Nat} {node : Node}
    (member : visit ∈ Event.created (node.events place space number)) : place <+: visit.place :=
  Node.place_of_mem_events node (Event.mem_created.mp member)

theorem Node.place_of_mem_createdFrom {visit : Visit} {place : Place} {index : Nat} {space : Space}
    {number : Nat} {nodes : List Node}
    (member : visit ∈ Event.created (Node.eventsFrom place index space number nodes)) :
    ∃ i, index ≤ i ∧ place ++ [i] <+: visit.place :=
  Node.place_of_mem_eventsFrom nodes (Event.mem_created.mp member)

mutual

/-- A walk creates elements in the order of their places. -/
theorem Node.created_precedes (place : Place) (space : Space) (number : Nat) : (node : Node) →
    (Event.created (node.events place space number)).Pairwise fun visit later =>
      Place.Precedes visit.place later.place
  | .element tag properties inner => by
    simp only [Node.events, Event.created_enter, Event.created_append, Event.created_create,
      Event.created_nil, List.pairwise_append]
    refine ⟨Node.createdFrom_precedes place 0 _ _ inner, List.pairwise_singleton _ _, ?_⟩
    intro visit below last member
    obtain ⟨i, _, under⟩ := Node.place_of_mem_createdFrom below
    rw [List.mem_singleton] at member
    subst member
    exact Place.Precedes.below under
  | .root _ => List.Pairwise.nil
  | .text _ => List.Pairwise.nil
  | .comment _ => List.Pairwise.nil
  | .doctype => List.Pairwise.nil
  | .raw _ => List.Pairwise.nil

theorem Node.createdFrom_precedes (place : Place) (index : Nat) (space : Space) (number : Nat) :
    (nodes : List Node) → (Event.created (Node.eventsFrom place index space number nodes)).Pairwise
      fun visit later => Place.Precedes visit.place later.place
  | [] => List.Pairwise.nil
  | node :: rest => by
    simp only [Node.eventsFrom, Event.created_append, List.pairwise_append]
    refine ⟨Node.created_precedes _ _ _ node, Node.createdFrom_precedes _ _ _ _ rest, ?_⟩
    intro visit here later there
    obtain ⟨i, bound, under⟩ := Node.place_of_mem_createdFrom there
    exact Or.inr ⟨place, index, i, bound, Node.place_of_mem_created here, under⟩

end

end Hyperscript
