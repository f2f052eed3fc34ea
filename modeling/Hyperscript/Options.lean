import Hyperscript.Dialect

namespace Hyperscript

/-- What generated keys begin with. -/
inductive KeyPrefix
  /-- The standard text where the dialect reconciles by keys, else no keys. -/
  | auto
  | disabled
  /-- Keys in every dialect; an empty text disables them. -/
  | key (text : String)
  deriving DecidableEq, Repr, Inhabited

namespace KeyPrefix

def standardText : String := "h-"

/-- The text that keys begin with, if there are keys at all. -/
def resolve (keyPrefix : KeyPrefix) (dialect : Dialect) : Option String :=
  match keyPrefix with
  | .auto => if dialect.generatesKeys then some standardText else none
  | .disabled => none
  | .key text => if text = "" then none else some text

def ofBool (enabled : Bool) : KeyPrefix :=
  if enabled then .key standardText else .disabled

def ofText? : Option String → KeyPrefix
  | some text => .key text
  | none => .disabled

end KeyPrefix

structure Options where
  keyPrefix : KeyPrefix := .auto
  /-- The space in which the tree stands. -/
  space : Space := .html
  deriving DecidableEq, Repr, Inhabited

namespace Options

def ofBool (enabled : Bool) : Options :=
  { keyPrefix := .ofBool enabled }

def ofText (text : String) : Options :=
  { keyPrefix := .key text }

end Options

end Hyperscript
