import Sitewright.Routing.Path

/-!
Contract: the routes known so far, in the order in which they were registered.

Two routes are the same when their paths match, and the first registration of a
route is kept. The table also remembers the first container of any router, into
which unknown routes are swapped.
-/

namespace Sitewright.Routing

/-- A known route, its title, and the container it is swapped into. -/
structure Entry where
  path : Path
  title : String
  container : String
deriving DecidableEq, Repr

structure Table where
  entries : List Entry
  /-- The container of the first router seen, empty as long as there is none. -/
  topContainer : String
deriving DecidableEq, Repr

namespace Table

def empty : Table := ⟨[], ""⟩

/-- The first route whose path matches. -/
def get? (table : Table) (path : Path) : Option Entry :=
  table.entries.find? fun entry => entry.path.matchesPath path

def has (table : Table) (path : Path) : Bool :=
  (table.get? path).isSome

/-- The table with the route at its end, or `none` if a matching one is known. -/
def add? (table : Table) (entry : Entry) : Option Table :=
  if table.has entry.path then none
  else some { table with entries := table.entries ++ [entry] }

/-- The table after the container of a router was seen. -/
def seeContainer (table : Table) (container : String) : Table :=
  if table.topContainer.isEmpty then { table with topContainer := container } else table

/-- The container a route is swapped into; for an unknown route the top one. -/
def containerOf (table : Table) (path : Path) : String :=
  match table.get? path with
  | some entry => entry.container
  | none => table.topContainer

end Table

/-- The route whose container a link from `current` to `target` replaces: the
longest prefix of `target` whose parent is `current` or lies below it, and
`current` if there is none. -/
def linkTarget (target current : Path) : Path :=
  let depths := (List.range target.length).reverse
  match depths.find? fun depth => (target.take depth).isWithin current with
  | some depth => target.take (depth + 1)
  | none => current

end Sitewright.Routing
