import Hyperscript.Fragment.Markup
import Hyperscript.MarkupReader.Foreign
import Hyperscript.MarkupReader.Mark

namespace Hyperscript.MarkupReader

open Fragment (Markup)

/-- An element that is still open: how it began, whether it is an SVG element, and what precedes it among
its parent's children, the nearest first. -/
structure Opened where
  tag : String
  attributes : List (String × String)
  svg : Bool
  before : List Markup

/-- The children of the parent once an element is closed, both lists in reverse order. -/
def Opened.close (opened : Opened) (children : List Markup) : List Markup :=
  .element opened.tag opened.attributes children.reverse :: opened.before

/-- Add text to children, which stand in reverse order. Text next to text is one text. -/
def addText (value : String) : List Markup → List Markup
  | .text last :: before => .text (last ++ value) :: before
  | before => .text value :: before

/-- Whether the children of the innermost open element are SVG elements, whatever their tags. -/
def insideSvg : List Opened → Bool
  | [] => false
  | opened :: _ => opened.svg && !holdsHtml opened.tag

/-- An element about to be opened, in the spelling of its vocabulary. The `image` of HTML is an `img`. -/
def openedBy (tag : String) (attributes : List (String × String)) (stack : List Opened)
    (before : List Markup) : Opened :=
  if insideSvg stack || tag = "svg" then
    { tag := restoreCase svgTags tag
      attributes := attributes.map fun pair => (svgAttribute pair.1, pair.2)
      svg := true
      before }
  else { tag := if tag = "image" then "img" else tag, attributes, svg := false, before }

/-- Close open elements up to the one with `tag`. -/
def closeTo (tag : String) : List Opened → List Markup → List Opened × List Markup
  | [], children => ([], children)
  | opened :: outer, children =>
    if lowerCase opened.tag = tag then (outer, Opened.close opened children)
    else closeTo tag outer (opened.close children)

/-- A line break right behind the tag of preformatted text is no content. -/
def dropFirstBreak (tag : String) (marks : List Mark) : List Mark :=
  match marks with
  | .text ('\n' :: value) :: rest =>
    if tag = "pre" || tag = "listing" then (if value = [] then rest else .text value :: rest) else marks
  | _ => marks

theorem dropFirstBreak_length (tag : String) (marks : List Mark) :
    (dropFirstBreak tag marks).length ≤ marks.length := by
  unfold dropFirstBreak
  split
  · split
    · split <;> simp
    · simp
  · simp

/-- Build the tree of a list of marks. `children` are those of the innermost open element so far, in
reverse order. A closing tag for an element that is not open has no effect, and the end closes all. -/
def build (stack : List Opened) (children : List Markup) (marks : List Mark) : List Markup :=
  match marks with
  | [] =>
    (stack.foldl (fun children opened => opened.close children) children).reverse
  | .text value :: rest => build stack (addText (String.ofList value) children) rest
  | .comment value :: rest => build stack (.comment (String.ofList value) :: children) rest
  | .closing tag :: rest =>
    if stack.any fun opened => lowerCase opened.tag = tag then
      build (closeTo tag stack children).1 (closeTo tag stack children).2 rest
    else build stack children rest
  | .opening tag attributes closed :: rest =>
    let opened := openedBy tag attributes stack children
    if (if opened.svg then closed else isVoid opened.tag) then build stack (opened.close []) rest
    else build (opened :: stack) [] (dropFirstBreak tag rest)
termination_by marks.length
decreasing_by
  · simp
  · simp
  · simp
  · simp
  · simp
  · have := dropFirstBreak_length tag rest
    simp only [List.length_cons]
    omega

/-- A byte order mark at the very front of a text is none of its characters. -/
def dropByteOrderMark : List Char → List Char
  | '\ufeff' :: chars => chars
  | chars => chars

/-- Read a fragment of a small part of HTML: text, comments, and elements that are closed or have no content. It
stands in for an HTML parser where the program runs, and knows none of the rules by which such a parser implies
tags or takes the content of an element as it stands. -/
def read (text : String) : List Markup :=
  build [] [] (Mark.all (dropByteOrderMark text.toList))

end Hyperscript.MarkupReader
