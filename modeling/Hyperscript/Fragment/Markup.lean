namespace Hyperscript.Fragment

/-- What an HTML parser makes of a fragment: the nodes below its root. The attributes of an element are raw text
under the names that the parser gives them. -/
inductive Markup
  | text (value : String)
  | comment (value : String)
  | doctype
  | element (tag : String) (attributes : List (String × String)) (children : List Markup)
  /-- A node of another kind, such as a processing instruction. -/
  | other
  deriving Repr, Inhabited

namespace Markup

/-- Whether a tree has a node for the markup. -/
def isKept : Markup → Bool
  | .other => false
  | _ => true

end Markup

end Hyperscript.Fragment
