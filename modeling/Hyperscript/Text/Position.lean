namespace Hyperscript.Text

/-- A place in a text, both numbers counted from one. -/
structure Position where
  line : Nat
  column : Nat
  deriving DecidableEq, Repr

/-- The place right behind a text. -/
def Position.behind (text : List Char) : Position where
  line := text.count '\n' + 1
  column := (text.reverse.takeWhile (· ≠ '\n')).length + 1

end Hyperscript.Text
