import Sitewright.Render.Reply

/-!
Contract: conditionals, their alternatives, and loops.
-/

namespace Sitewright.Render

open Template

/-- An alternative given inline or left by a marker; both are too many. -/
def chooseAlternative : Option (Render String) → Option Branch → Render (Option (Render String))
  | some _, some _ =>
      misuse .alternative "the conditional already has an inline else branch"
  | some given, none => pure (some given)
  | none, some left => pure (some (ofBranch left))
  | none, none => pure none

/-- The text of an alternative, rendered outside of the conditional it belongs to. -/
def alternativeText : Option (Render String) → Render (Option String)
  | some render => do
      let text ← inScope Scope.outsideConditional render
      return some text
  | none => pure none

/-- A conditional block. A condition that cannot be written fails before anything
is rendered. -/
def conditional (condition : Expr) (negated : Bool) (body : Render String)
    (otherwise : Option (Render String)) : Render String := do
  match condition.defect? with
  | some reason => misuse .conditional reason
  | none =>
      let (text, left) ← collectBranch body
      let chosen ← chooseAlternative otherwise left
      let alternative ← alternativeText chosen
      return ifBlock (condition.header negated) negated text alternative

/-- A marker that hands its branch to the conditional around. -/
def alternative (branch : Render String) : Render String := do
  let setting ← setting
  if setting.scope.conditional then
    let accepted ← leaveBranch branch.toBranch
    if accepted then nothing
    else misuse .alternative "a conditional accepts a single else branch"
  else
    misuse .alternative "else marker used outside of any conditional"

/-- A loop with fresh names for element and position. -/
def loop (source : DataRef) (body : (element position : DataRef) → Render String) :
    Render String := do
  let (element, position) ← nextLoopNames
  let text ← body ⟨element⟩ ⟨position⟩
  return rangeBlock position element source.name text

end Sitewright.Render
