import Mathlib.Data.List.Pairwise
import Hyperscript.Proofs.CallChildren

namespace Hyperscript

variable {ν : Type}

/-- A call of the log gave the node, and it took these children. -/
def BuiltFrom (log : List (Entry ν)) (node : ν) (children : List (Child ν)) : Prop :=
  ∃ entry ∈ log, entry.node = some node ∧ entry.call.children.getD [] = children

/-- The text that is read from some children, depth-first: a text stands for itself, and a node for what is read from
the children that it was built from. -/
inductive Reads (log : List (Entry ν)) : List (Child ν) → String → Prop
  | nil : Reads log [] ""
  | text {value rest later} : Reads log rest later → Reads log (.text value :: rest) (value ++ later)
  | node {node children rest first later} : BuiltFrom log node children → Reads log children first →
    Reads log rest later → Reads log (.node node :: rest) (first ++ later)

section

variable {log : List (Entry ν)} {rest : List (Child ν)} {text : String}

theorem reads_nil_iff : Reads log [] text ↔ text = "" := by
  constructor
  · intro read
    cases read
    rfl
  · rintro rfl
    exact .nil

theorem reads_text_iff {value : String} :
    Reads log (.text value :: rest) text ↔ ∃ later, Reads log rest later ∧ text = value ++ later := by
  constructor
  · intro read
    cases read with
    | text later => exact ⟨_, later, rfl⟩
  · rintro ⟨later, read, rfl⟩
    exact .text read

theorem reads_node_iff {node : ν} : Reads log (.node node :: rest) text ↔ ∃ children first later,
    BuiltFrom log node children ∧ Reads log children first ∧ Reads log rest later ∧ text = first ++ later := by
  constructor
  · intro read
    cases read with
    | node built first later => exact ⟨_, _, _, built, first, later, rfl⟩
  · rintro ⟨children, first, later, built, below, read, rfl⟩
    exact .node built below read

/-- Where no node is given twice, the children that a node was built from are unique. -/
theorem BuiltFrom.unique (distinct : (log.filterMap Entry.node).Nodup) {node : ν} {children children' : List (Child ν)}
    (built : BuiltFrom log node children) (built' : BuiltFrom log node children') : children = children' := by
  obtain ⟨entry, listed, answered, rfl⟩ := built
  obtain ⟨entry', listed', answered', rfl⟩ := built'
  rw [List.Nodup, List.pairwise_filterMap] at distinct
  let SameIfGiven (one other : Entry ν) : Prop := ∀ node, one.node = some node → other.node = some node → one = other
  have symmetric : Std.Symm SameIfGiven := ⟨fun _ _ same node here there => (same node there here).symm⟩
  have pairwise : log.Pairwise SameIfGiven :=
    distinct.imp fun differ node here there => absurd rfl (differ node here node there)
  have same : entry = entry' :=
    pairwise.forall_of_forall (fun _ _ _ _ _ => rfl) listed listed' node answered answered'
  rw [same]

end

namespace Node

mutual

/-- Whether no root stands at or below a node. -/
def isRootless : Node → Bool
  | .root _ => false
  | .element _ _ children => areRootless children
  | _ => true

def areRootless : List Node → Bool
  | [] => true
  | node :: rest => node.isRootless && areRootless rest

end

mutual

/-- The node without the comments, doctypes and raw data below it. -/
def strip : Node → Node
  | .root children => .root (stripAll children)
  | .element tag properties children => .element tag properties (stripAll children)
  | node => node

def stripAll : List Node → List Node
  | [] => []
  | node :: rest =>
    match node with
    | .comment _ | .doctype | .raw _ => stripAll rest
    | node => node.strip :: stripAll rest

end

mutual

/-- Comments, doctypes and raw data have no text. -/
theorem textContent_strip : (node : Node) → node.strip.textContent = node.textContent
  | .root children => by rw [strip, textContent, textContent, textOfAll_stripAll children]
  | .element tag properties children => by rw [strip, textContent, textContent, textOfAll_stripAll children]
  | .text _ => by rw [strip] <;> exact nofun
  | .comment _ => by rw [strip] <;> exact nofun
  | .doctype => by rw [strip] <;> exact nofun
  | .raw _ => by rw [strip] <;> exact nofun

theorem textOfAll_stripAll : (nodes : List Node) → textOfAll (stripAll nodes) = textOfAll nodes
  | [] => by rw [stripAll]
  | node :: rest => by
    have here := textContent_strip node
    have later := textOfAll_stripAll rest
    cases node <;> simp [stripAll, textOfAll, textContent, strip, later] at here ⊢ <;> exact here

end

/-- Each element at or below `node`, which stands at `place`, has a node that was built from what belongs in its call,
and from nothing else. -/
def Recorded (log : List (Entry ν)) (nodeAt : Place → ν) (place : Place) (node : Node) : Prop :=
  ∀ rest below, node.elementAt? rest = some below → ∀ children,
    BuiltFrom log (nodeAt (place ++ rest)) children ↔
      children = childrenFrom nodeAt (place ++ rest) 0 below.children

variable {log : List (Entry ν)} {nodeAt : Place → ν}

/-- What is recorded of an element is recorded of what stands in it. -/
theorem Recorded.child {place : Place} {tag : String} {properties : Properties} {inner : List Node}
    (recorded : Recorded log nodeAt place (.element tag properties inner)) {index : Nat} {child : Node}
    (found : inner[index]? = some child) : Recorded log nodeAt (place ++ [index]) child := by
  intro rest below under
  have whole : (Node.element tag properties inner).elementAt? (index :: rest) = some below := by
    rw [elementAt?, found, Option.bind_some, under]
  have here := recorded (index :: rest) below whole
  rwa [List.append_cons] at here

mutual

/-- What belongs in a call for a rootless node reads as its text. -/
theorem reads_childFrom?_iff {place : Place} {later : List (Child ν)} {text : String} : (node : Node) →
    node.isRootless = true → Recorded log nodeAt place node →
    (Reads log ((node.childFrom? nodeAt place).toList ++ later) text ↔
      ∃ rest, Reads log later rest ∧ text = node.textContent ++ rest)
  | .element tag properties inner, flat, recorded => by
    -- The call of the element itself, and by induction what is read from the children that it took.
    have own := recorded [] _ rfl
    rw [List.append_nil] at own
    have below : ∀ first, Reads log (childrenFrom nodeAt place 0 inner) first ↔ first = textOfAll inner := fun first =>
      reads_childrenFrom_iff inner flat fun i child found => by rw [Nat.zero_add]; exact recorded.child found
    rw [childFrom?, Option.toList_some, List.singleton_append, reads_node_iff]
    constructor
    · rintro ⟨children, first, rest, built, read, others, rfl⟩
      rw [(own children).mp built] at read
      rw [(below first).mp read]
      exact ⟨rest, others, rfl⟩
    · rintro ⟨rest, others, rfl⟩
      exact ⟨_, _, rest, (own _).mpr rfl, (below _).mpr rfl, others, rfl⟩
  | .text value, _, _ => reads_text_iff
  | .comment _, _, _ => by simp [childFrom?, textContent]
  | .doctype, _, _ => by simp [childFrom?, textContent]
  | .raw _, _, _ => by simp [childFrom?, textContent]

theorem reads_childrenFrom_iff {place : Place} {index : Nat} {text : String} : (nodes : List Node) →
    areRootless nodes = true →
    (∀ i child, nodes[i]? = some child → Recorded log nodeAt (place ++ [index + i]) child) →
    (Reads log (childrenFrom nodeAt place index nodes) text ↔ text = textOfAll nodes)
  | [], _, _ => reads_nil_iff
  | node :: rest, flat, recorded => by
    rw [areRootless, Bool.and_eq_true] at flat
    have later : ∀ last, Reads log (childrenFrom nodeAt place (index + 1) rest) last ↔ last = textOfAll rest :=
      fun last => reads_childrenFrom_iff rest flat.2 fun i child found => by
        rw [Nat.add_right_comm]
        exact recorded (i + 1) child found
    have first : Recorded log nodeAt (place ++ [index]) node := recorded 0 node rfl
    rw [childrenFrom_cons, reads_childFrom?_iff node flat.1 first]
    simp only [later, exists_eq_left, textOfAll]

end

end Node

end Hyperscript
