import Sitewright.Markup.Tag
import Sitewright.Render.Ledger
import Sitewright.View.Basic

/-!
Contract: renders, the computations that turn views into text.

A render reads a setting, changes a state and ends with a value or a fault; a
fault keeps the changes made before it. The first fault ends everything. Renders are
sequential: of several parts, each is rendered to its end before the next one begins.

An alternative marker inside a conditional is not rendered where it stands. It
leaves its branch, a render that waits, in the state, and the conditional renders
it in its own place and setting. Such a branch never leaves a branch itself,
because it stands outside of every conditional but those within it; so branches
work on ledgers and not on states.

Owns:
- the type, its monad, and the changes of setting and ledger;
- attribution of faults to constructs;
- branches, documents and collections of meta tags as brackets around a render.
-/

namespace Sitewright

open Markup

/-- An alternative that waits for its conditional. -/
abbrev Branch := Setting → Ledger → Except Fault String × Ledger

structure State where
  ledger : Ledger
  /-- The alternative left for the innermost conditional. -/
  branch : Option Branch

/-- The state in which no alternative waits. -/
def State.ofLedger (ledger : Ledger) : State := ⟨ledger, none⟩

/-- A computation with a setting, a state and faults. -/
def Render (α : Type) : Type := Setting → State → Except Fault α × State

namespace Render

instance : Monad Render where
  pure value := fun _ state => (.ok value, state)
  bind first next := fun setting state =>
    match first setting state with
    | (.ok value, state) => next value setting state
    | (.error fault, state) => (.error fault, state)

def fail {α : Type} (fault : Fault) : Render α :=
  fun _ state => (.error fault, state)

/-- Ends because a construct stands where it is not allowed. -/
def misuse {α : Type} (construct : Construct) (reason : String) : Render α :=
  fail (.misuse construct.label reason)

/-- A render that may have failed before. -/
def ofExcept {α : Type} : Except Fault α → Render α
  | .ok value => pure value
  | .error fault => fail fault

def setting : Render Setting :=
  fun setting state => (.ok setting, state)

def ledger : Render Ledger :=
  fun _ state => (.ok state.ledger, state)

/-- A change of the ledger that yields a value. -/
def modifyGet {α : Type} (change : Setting → Ledger → α × Ledger) : Render α :=
  fun setting state =>
    let changed := change setting state.ledger
    (.ok changed.1, { state with ledger := changed.2 })

def modify (change : Setting → Ledger → Ledger) : Render Unit :=
  modifyGet fun setting ledger => ((), change setting ledger)

/-- A render in a changed scope. -/
def inScope {α : Type} (change : Scope → Scope) (render : Render α) : Render α :=
  fun setting => render { setting with scope := change setting.scope }

/-- A render whose faults are attributed to a component. -/
def within {α : Type} (component : String) (render : Render α) : Render α :=
  fun setting state =>
    match render setting state with
    | (.ok value, state) => (.ok value, state)
    | (.error fault, state) => (.error (fault.attributed component), state)

/-- A render that belongs to a construct of the library. -/
def construct {α : Type} (construct : Construct) (render : Render α) : Render α :=
  within construct.label render

/-! ## Branches -/

/-- The render as an alternative that waits. -/
def toBranch (render : Render String) : Branch :=
  fun setting ledger =>
    let outcome := render setting (.ofLedger ledger)
    (outcome.1, outcome.2.ledger)

/-- The render of an alternative that waited. -/
def ofBranch (branch : Branch) : Render String :=
  fun setting state =>
    let outcome := branch setting state.ledger
    (outcome.1, { state with ledger := outcome.2 })

/-- Leaves an alternative for the conditional around, unless one waits already. -/
def leaveBranch (branch : Branch) : Render Bool :=
  fun _ state =>
    match state.branch with
    | some _ => (.ok false, state)
    | none => (.ok true, { state with branch := some branch })

/-- A render inside a conditional, and the alternative that it leaves. An
alternative of a conditional further out waits on. -/
def collectBranch {α : Type} (render : Render α) : Render (α × Option Branch) :=
  fun setting state =>
    match inScope Scope.inConditional render setting { state with branch := none } with
    | (.ok value, inner) => (.ok (value, inner.branch), { inner with branch := state.branch })
    | (.error fault, inner) => (.error fault, { inner with branch := state.branch })

/-! ## Documents and shells -/

/-- A render of a document of its own: the numbering of the host is set aside. -/
def inDocument {α : Type} (numbering : Numbering) (render : Render α) : Render α :=
  fun setting state =>
    let outcome := inScope Scope.detached render setting
      { state with ledger := { state.ledger with numbering } }
    (outcome.1,
      { outcome.2 with
        ledger := { outcome.2.ledger with numbering := state.ledger.numbering } })

/-- A render inside a shell, and the meta tags that it collects. Those of a
shell further out are set aside. -/
def collectMetaTags {α : Type} (render : Render α) : Render (α × List Attributes) :=
  fun setting state =>
    let outcome := inScope Scope.inShell render setting
      { state with ledger := { state.ledger with metaTags := [] } }
    let restored :=
      { outcome.2 with ledger := { outcome.2.ledger with metaTags := state.ledger.metaTags } }
    match outcome.1 with
    | .ok value => (.ok (value, outcome.2.ledger.metaTags), restored)
    | .error fault => (.error fault, restored)

/-- Adds a meta tag for the head of the shell around. -/
def addMetaTag (attributes : Attributes) : Render Unit :=
  modify fun _ ledger => { ledger with metaTags := ledger.metaTags ++ [attributes] }

/-! ## Markup -/

def nothing : Render String := pure ""

def element (tag : String) (attributes : Attributes) (content : Render String) :
    Render String := do
  let content ← content
  return elementText tag attributes content

end Render

end Sitewright
