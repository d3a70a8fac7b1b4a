import Sitewright.Text.Split

/-!
Contract: the source text of template actions.

Every action that the library writes is built here, so delimiters and keywords
have one place. Action text passes through attribute and text escaping, and must
come out unchanged; string literals therefore carry a quote token instead of
quotes, and the loader of the templates turns the token back into a quote.
-/

namespace Sitewright.Template

/-- Stands for a quote inside actions. -/
def quoteToken : String := "@#34T;"

/-- A string literal: the text between quote tokens, with every quote in it
written as the token too. -/
def quote (text : String) : String :=
  quoteToken ++ Text.substitute '"' quoteToken text ++ quoteToken

def action (pipeline : String) : String :=
  "\x7b\x7b" ++ pipeline ++ "\x7d\x7d"

/-- The variable that a fragment binds its data to. -/
def fragmentRoot : String := "$frag_root"

/-- The action that binds the data of a fragment. -/
def bindFragmentRoot : String :=
  action (fragmentRoot ++ " := .")

def endAction : String := action "end"

/-- A body repeated over `source`, with the variables of position and element. -/
def rangeBlock (position element source body : String) : String :=
  action ("range " ++ position ++ ", " ++ element ++ " := " ++ source) ++
    "\n" ++ body ++ "\n" ++ endAction

/-- The action that opens a conditional block. -/
def ifAction (condition : String) (negated : Bool) : String :=
  action ((if negated then "if not " else "if ") ++ condition)

/-- A conditional block with or without an alternative. -/
def ifBlock (condition : String) (negated : Bool) (body : String)
    (alternative : Option String) : String :=
  ifAction condition negated ++ "\n" ++ body ++ "\n" ++
    match alternative with
    | some other => action "else" ++ "\n" ++ other ++ "\n" ++ endAction
    | none => endAction

example : quote "say \"hi\"" = "@#34T;say @#34T;hi@#34T;@#34T;" := by cbv
example : ifBlock "$x.ok" true "a" (some "b") =
    "\x7b\x7bif not $x.ok\x7d\x7d\na\n\x7b\x7belse\x7d\x7d\nb\n\x7b\x7bend\x7d\x7d" := by cbv

end Sitewright.Template
