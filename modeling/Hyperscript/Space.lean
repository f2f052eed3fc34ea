namespace Hyperscript

/-- The vocabulary that an element's tag and attributes belong to. -/
inductive Space
  | html
  | svg
  deriving DecidableEq, Repr, Inhabited

namespace Space

def name : Space → String
  | .html => "html"
  | .svg => "svg"

def ofName? : String → Option Space
  | "html" => some .html
  | "svg" => some .svg
  | _ => none

theorem ofName?_name (space : Space) : ofName? space.name = some space := by
  cases space <;> rfl

/-- The address that identifies the vocabulary. -/
def uri : Space → String
  | .html => "http://www.w3.org/1999/xhtml"
  | .svg => "http://www.w3.org/2000/svg"

/-- The tag that opens the SVG space, in any ASCII case. -/
def isSvgRoot (tag : String) : Bool :=
  tag.toList.map Char.toLower = ['s', 'v', 'g']

/-- The space of an element whose parent is in `space`. An `svg` element opens the SVG space for itself
and all below it, and nothing closes it again. -/
def enter (space : Space) (tag : String) : Space :=
  if isSvgRoot tag then .svg else space

/-- Only the tag `svg`, in any ASCII case, leads out of HTML, and nothing leads back. -/
theorem enter_eq_svg_iff (space : Space) (tag : String) :
    space.enter tag = .svg ↔ space = .svg ∨ tag.toList.map Char.toLower = ['s', 'v', 'g'] := by
  by_cases opened : tag.toList.map Char.toLower = ['s', 'v', 'g'] <;> simp [enter, isSvgRoot, opened]

end Space

end Hyperscript
