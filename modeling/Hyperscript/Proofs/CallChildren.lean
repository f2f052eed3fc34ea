import Hyperscript.Proofs.ElementPlaces
import Hyperscript.Proofs.CallRecord

namespace Hyperscript

variable {σ ν : Type}

def Child.node? : Child ν → Option ν
  | .node built => some built
  | .text _ => none

/-- The nodes that a call takes as children, in order. -/
def Entry.used (entry : Entry ν) : List ν :=
  (entry.call.children.getD []).filterMap Child.node?

/-- What belongs in a call for a child: the node at its place for an element, a text as it stands, and
nothing for the rest. -/
def Node.childFrom? (nodeAt : Place → ν) (place : Place) : Node → Option (Child ν)
  | .element .. => some (.node (nodeAt place))
  | .text value => some (.text value)
  | _ => none

def Node.childrenFrom (nodeAt : Place → ν) (place : Place) (index : Nat) (nodes : List Node) :
    List (Child ν) :=
  (nodes.zipIdx index).filterMap fun numbered => numbered.1.childFrom? nodeAt (place ++ [numbered.2])

theorem Node.childrenFrom_cons (nodeAt : Place → ν) (place : Place) (index : Nat) (node : Node)
    (rest : List Node) :
    childrenFrom nodeAt place index (node :: rest) =
      (node.childFrom? nodeAt (place ++ [index])).toList ++ childrenFrom nodeAt place (index + 1) rest := by
  unfold childrenFrom
  rw [List.zipIdx_cons, List.filterMap_cons]
  cases node.childFrom? nodeAt (place ++ [index]) <;> rfl

/-- The children handed on are those that belong in the call, if the elements among them are built. -/
theorem Node.handedAll_eq_childrenFrom {built : Place → Option ν} {nodeAt : Place → ν} {place : Place}
    {index : Nat} (nodes : List Node)
    (same : ∀ child ∈ childPlaces place index nodes, built child = some (nodeAt child)) :
    handedAll built place index nodes = childrenFrom nodeAt place index nodes := by
  induction nodes generalizing index with
  | nil => rfl
  | cons node rest ih =>
    rw [childPlaces_cons] at same
    rw [handedAll_cons, childrenFrom_cons, ih fun child member => same child (List.mem_append_right _ member)]
    congr 2
    cases node with
    | element tag properties inner =>
      have here := same (place ++ [index]) (by simp [isElement, kind])
      simp only [handed?, childFrom?, here, Option.map_some]
    | _ => rfl

theorem Node.handedAll_nodes (built : Place → Option ν) (place : Place) (index : Nat) (nodes : List Node) :
    (handedAll built place index nodes).filterMap Child.node? =
      (childPlaces place index nodes).filterMap built := by
  induction nodes generalizing index with
  | nil => rfl
  | cons node rest ih =>
    rw [handedAll_cons, childPlaces_cons, List.filterMap_append, List.filterMap_append, ih]
    congr 1
    cases node with
    | element tag properties inner =>
      cases here : built (place ++ [index]) <;>
        simp [handed?, isElement, kind, here, Child.node?]
    | _ => rfl

/-- A call takes a child if and only if its element has a visible one. -/
theorem Node.childrenFrom_eq_nil_iff (nodeAt : Place → ν) (place : Place) (index : Nat) (nodes : List Node) :
    childrenFrom nodeAt place index nodes = [] ↔ nodes.filter isVisible = [] := by
  induction nodes generalizing index with
  | nil => exact ⟨fun _ => rfl, fun _ => rfl⟩
  | cons node rest ih =>
    rw [childrenFrom_cons, List.append_eq_nil_iff, ih]
    cases node <;> simp [childFrom?, isVisible, kind]

namespace Rendering

/-- A call uses the nodes of the elements below it. -/
theorem entryFor_used (rendering : Rendering σ ν) (built : Place → Option ν) (visit : Visit) :
    (rendering.entryFor built visit).used = visit.childPlaces.filterMap built := by
  rw [Visit.childPlaces, ← Node.handedAll_nodes]
  simp only [Entry.used, entryFor, callFor]
  split
  · next empty => rw [List.isEmpty_iff.mp empty]; rfl
  · rfl

/-- The calls of a whole walk: one for each element, with the nodes of its element children and with its
texts, in document order. -/
theorem entryFor_children {rendering : Rendering σ ν} {built : Place → Option ν} {nodeAt : Place → ν}
    {visit : Visit} (same : ∀ child ∈ visit.childPlaces, built child = some (nodeAt child)) :
    (rendering.entryFor built visit).call.children =
      if visit.element.visibleChildren = [] then none
      else some (Node.childrenFrom nodeAt visit.place 0 visit.element.children) := by
  have handed := Node.handedAll_eq_childrenFrom visit.element.children same
  have empty := Node.childrenFrom_eq_nil_iff nodeAt visit.place 0 visit.element.children
  simp only [entryFor, callFor, handed, List.isEmpty_iff]
  by_cases none : visit.element.visibleChildren = []
  · rw [if_pos (empty.mpr none), if_pos none]
  · rw [if_neg fun same => none (empty.mp same), if_neg none]

/-- No call has an empty list of children, and a call has three arguments if something visible is below. -/
theorem entryFor_arity {rendering : Rendering σ ν} {built : Place → Option ν} {nodeAt : Place → ν}
    {visit : Visit} (same : ∀ child ∈ visit.childPlaces, built child = some (nodeAt child)) :
    (rendering.entryFor built visit).call.children ≠ some [] ∧
      ((rendering.entryFor built visit).call.arity = 3 ↔ ∃ below,
        (rendering.entryFor built visit).call.context = some below ∧ below.visibleChildren ≠ []) := by
  have children : (rendering.entryFor built visit).call.children = _ := entryFor_children same
  have empty := Node.childrenFrom_eq_nil_iff nodeAt visit.place 0 visit.element.children
  rw [Call.arity, children]
  by_cases none : visit.element.visibleChildren = []
  · rw [if_pos none]
    refine ⟨nofun, nofun, ?_⟩
    rintro ⟨below, same, visible⟩
    cases same
    exact absurd none visible
  · rw [if_neg none]
    refine ⟨?_, fun _ => ⟨visit.element, rfl, none⟩, fun _ => rfl⟩
    intro same
    exact none (empty.mp (Option.some.inj same))

theorem entriesFor_nodes (rendering : Rendering σ ν) (built : Place → Option ν) (visits : List Visit) :
    (visits.map (rendering.entryFor built)).filterMap Entry.node = (visits.map Visit.place).filterMap built := by
  rw [List.filterMap_map, List.filterMap_map]
  rfl

theorem entriesFor_used (rendering : Rendering σ ν) (built : Place → Option ν) (visits : List Visit) :
    (visits.map (rendering.entryFor built)).flatMap Entry.used =
      (visits.flatMap Visit.childPlaces).filterMap built := by
  rw [List.flatMap_map, List.filterMap_flatMap]
  exact congrArg (List.flatMap · visits) (funext fun visit => rendering.entryFor_used built visit)

end Rendering

end Hyperscript
