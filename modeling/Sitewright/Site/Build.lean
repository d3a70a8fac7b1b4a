import Sitewright.Site.Survey

/-!
Contract: the pages of a view and all that is built along with them.

Every route found is rendered once more, now as a page. The pages share the
catalog and the store of assets; each has a document and notes of its own. The
first fault ends the build, but what was stored as assets before it stays stored.
-/

namespace Sitewright

open Routing

structure Site where
  pages : List Page
  fragments : List Catalog.Fragment
  islands : List Catalog.IslandRecord
  /-- The files of the store that this build stored or linked. -/
  assets : List Asset
  /-- First segment of the addresses of fragments. -/
  fragmentSegment : String

namespace Site

/-- The page of a route, and the ledger after it. -/
def buildPage (config : Config) (root : View) (ledger : Ledger) (route : Entry) :
    Except Fault Page × Ledger :=
  let setting : Setting := { config, pass := .build, scope := .page route.path route.title }
  match root.render setting (.ofLedger ledger.nextPage) with
  | (.ok html, state) =>
      (.ok
        { route := route.path.text
          html
          requirements := state.ledger.notes.requirements
          metadata := state.ledger.notes.metadata },
        state.ledger)
  | (.error fault, state) => (.error fault, state.ledger)

def buildPages (config : Config) (root : View) :
    Ledger → List Entry → Except Fault (List Page) × Ledger
  | ledger, [] => (.ok [], ledger)
  | ledger, route :: rest =>
      match buildPage config root ledger route with
      | (.error fault, ledger) => (.error fault, ledger)
      | (.ok page, ledger) =>
          match buildPages config root ledger rest with
          | (.error fault, ledger) => (.error fault, ledger)
          | (.ok pages, ledger) => (.ok (page :: pages), ledger)

/-- The site of finished pages and the ledger after the last of them. -/
def ofLedger (config : Config) (pages : List Page) (ledger : Ledger) : Site :=
  { pages
    fragments := ledger.catalog.fragments
    islands := ledger.catalog.islands
    assets := ledger.assets.used ledger.usedUrls
    fragmentSegment := config.fragmentSegment }

/-- The site of a view with known routes, and the store after the build. -/
def buildRoutes (config : Config) (root : View) (routes : Table) (store : Asset.Store) :
    Except BuildFault Site × Asset.Store :=
  match buildPages config root (.ofBuild routes store) routes.entries with
  | (.ok pages, ledger) => (.ok (ofLedger config pages ledger), ledger.assets)
  | (.error fault, ledger) => (.error (.render fault), ledger.assets)

/-- The site of a view, and the store after the build. The configuration is
checked first, then the routes are found, then the pages are built. -/
def build (config : Config) (root : View) (store : Asset.Store) :
    Except BuildFault Site × Asset.Store :=
  match config.check with
  | .error fault => (.error fault, store)
  | .ok () =>
      match survey config root with
      | .error fault => (.error fault, store)
      | .ok routes => buildRoutes config root routes store

def page? (site : Site) (route : String) : Option Page :=
  site.pages.find? fun page => page.route = route

def fragment? (site : Site) (fingerprint : String) : Option Catalog.Fragment :=
  site.fragments.find? fun fragment => fragment.fingerprint = fingerprint

end Site

end Sitewright
