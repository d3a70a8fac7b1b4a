import Sitewright.Template.Block

/-!
Contract: symbolic references to data that only the template engine will see.

A reference is the text of an expression of the engine. It is never evaluated
here; it is continued to parts of the data, written into actions, and put into
the argument position of a call.
-/

namespace Sitewright.Template

structure DataRef where
  name : String
deriving DecidableEq, Repr

namespace DataRef

def ofFragment : DataRef := ⟨fragmentRoot⟩

def field (source : DataRef) (label : String) : DataRef :=
  ⟨source.name ++ "." ++ label⟩

/-- The element at a position of the referenced sequence. -/
def element (source : DataRef) (position : Nat) : DataRef :=
  ⟨"(index " ++ source.name ++ " " ++ toString position ++ ")"⟩

def length (source : DataRef) : DataRef :=
  ⟨"len " ++ source.name⟩

/-- The action that writes the referenced data. -/
def interpolation (source : DataRef) : String :=
  action source.name

/-- The reference as an argument of a call: several words are put in
parentheses, unless the name already begins with one. -/
def argument (source : DataRef) : String :=
  let characters := source.name.toList
  if characters.contains ' ' && characters.head? ≠ some '(' then
    "(" ++ source.name ++ ")"
  else source.name

end DataRef

end Sitewright.Template
