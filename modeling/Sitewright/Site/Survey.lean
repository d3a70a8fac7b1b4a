import Sitewright.Render.View

/-!
Contract: which routes a view has.

A route is registered whenever a render comes across it, but shows its content
only when it is selected. So a view is rendered once with nothing selected, then
once for every route found, in the order in which routes were found, until no
route is left. The number of renders is limited.
-/

namespace Sitewright.Site

open Routing

/-- One render of `root` with a path selected: the routes known afterwards, and
those among them that were added. -/
def search (config : Config) (root : View) (routes : Table) (selected : Path) :
    Except Fault (Table × List Path) :=
  let setting : Setting := { config, pass := .search, scope := .probe selected }
  match root.render setting (.ofLedger (.ofSearch config routes)) with
  | (.ok _, state) => .ok (state.ledger.routes, state.ledger.found)
  | (.error fault, _) => .error fault

/-- Searches the paths of `queue` and all that are found on the way, first come,
first served. Only `probes` more searches are allowed; `limit` is reported when
they are not enough. -/
def searchAll (config : Config) (root : View) (limit : Nat) :
    (probes : Nat) → (queue : List Path) → Table → Except BuildFault Table
  | _, [], routes => .ok routes
  | 0, _ :: _, _ => .error (.unsettled limit)
  | probes + 1, selected :: queue, routes =>
      match search config root routes selected with
      | .ok (routes, found) => searchAll config root limit probes (queue ++ found) routes
      | .error fault => .error (.render fault)

/-- All routes of a view that describes something. -/
def survey (config : Config) (root : View) : Except BuildFault Table :=
  if root.isBlank then .error .missingRoot
  else searchAll config root config.probeLimit config.probeLimit [.root] .empty

end Sitewright.Site
