import Sitewright.Markup.Attribute
import Sitewright.Routing.Path

/-!
Contract: what a part of a view can know about where it stands.

A scope is a value; entering a construct makes a changed copy. The selected
segments are those still to be matched by routes below, the current path is what
was matched above.
-/

namespace Sitewright

open Routing Markup

/-- The form that a part of a view stands in. -/
structure OpenForm where
  /-- The identity of its action. -/
  action : Nat
  id : String
  islands : List String
  items : List Value
deriving DecidableEq, Repr

structure Scope where
  /-- Whether pages are built, and not only searched for routes. -/
  building : Bool
  selected : List String
  current : Path
  title : String
  /-- The container of the nearest router around. -/
  container : Option String
  /-- Whether a conditional around accepts an alternative. -/
  conditional : Bool
  form : Option OpenForm
  /-- Whether a page shell around collects meta tags. -/
  shell : Bool
deriving DecidableEq, Repr

namespace Scope

/-- Nothing selected and nothing around. -/
def outermost : Scope :=
  { building := false, selected := [], current := .root, title := "", container := none
    conditional := false, form := none, shell := false }

/-- The scope of a search with the given path selected. -/
def probe (selected : Path) : Scope :=
  { outermost with selected := selected.segments }

/-- The scope of the page of a route. -/
def page (route : Path) (title : String) : Scope :=
  { outermost with building := true, selected := route.segments, title }

/-- Whether a route matches the next selected segments. A route without segments
matches nothing. -/
def selects (scope : Scope) (route : String) : Bool :=
  let path := Path.ofText route
  !path.segments.isEmpty && Path.matchesInitially path.segments scope.selected

/-- The scope inside a route: its segments move from the selection to the
current path. -/
def enter (scope : Scope) (route : String) : Scope :=
  { scope with
    current := scope.current.extend route
    selected := scope.selected.drop (Path.ofText route).length }

def inRouter (scope : Scope) (container : String) : Scope :=
  { scope with container := some container }

def inConditional (scope : Scope) : Scope :=
  { scope with conditional := true }

def outsideConditional (scope : Scope) : Scope :=
  { scope with conditional := false }

def inForm (scope : Scope) (form : OpenForm) : Scope :=
  { scope with form := some form }

def inShell (scope : Scope) : Scope :=
  { scope with shell := true }

/-- The scope of a document of its own: no conditional and no shell of the host
reaches into it. -/
def detached (scope : Scope) : Scope :=
  { scope with conditional := false, shell := false }

/-- A change of scope that components may ask for. -/
inductive Step where
  | probe (selected : Path)
  | page (route : Path) (title : String)
  | enter (route : String)
  | inRouter (container : String)
deriving DecidableEq, Repr

/-- The scope after one step; a probe and a page start anew. -/
def step (scope : Scope) : Step → Scope
  | .probe selected => .probe selected
  | .page route title => .page route title
  | .enter route => scope.enter route
  | .inRouter container => scope.inRouter container

def steps (scope : Scope) (changes : List Step) : Scope :=
  changes.foldl step scope

end Scope

end Sitewright
