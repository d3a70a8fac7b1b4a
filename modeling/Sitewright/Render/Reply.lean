import Sitewright.Render.Basic

/-!
Contract: replies to the requests of constructs and components.
-/

namespace Sitewright

open Routing Catalog

namespace Render

/-- Names of element and position for a new loop of the document. -/
def nextLoopNames : Render (String × String) :=
  modifyGet fun _ ledger =>
    ((ledger.numbering.elementName, ledger.numbering.positionName),
      { ledger with numbering := ledger.numbering.afterLoop })

/-- An id for a new form of the document. -/
def nextFormId : Render String :=
  modifyGet fun _ ledger =>
    (ledger.numbering.formId, { ledger with numbering := ledger.numbering.afterForm })

/-- The key of a resource that the page needs from now on. -/
def require (resource : String) : Render String :=
  modifyGet fun _ ledger =>
    (resourceKey resource, { ledger with notes := ledger.notes.require resource })

def note (key : String) (value : Json) : Render Unit :=
  modify fun _ ledger => { ledger with notes := ledger.notes.note key value }

def storeTemplate (resource template : String) : Render Handle :=
  modifyGet fun setting ledger =>
    let stored := ledger.storeTemplate setting resource template
    (stored.2, stored.1)

def recordIsland (record : IslandRecord) : Render Unit :=
  modify fun setting ledger => ledger.recordIsland setting.pass record

/-- What the catalog says; nothing while routes are searched. -/
def askCatalog {α : Type} (question : Catalog → α) : Render (Option α) :=
  modifyGet fun setting ledger =>
    match setting.pass with
    | .search => (none, ledger)
    | .build => (some (question ledger.catalog), ledger)

def containerOf (route : Path) : Render String :=
  modifyGet fun _ ledger => (ledger.routes.containerOf route, ledger)

def addRoute (entry : Entry) : Render Unit :=
  modify fun setting ledger => ledger.addRoute setting.pass entry

def seeContainer (container : String) : Render Unit :=
  modify fun setting ledger => ledger.seeContainer setting.pass container

/-- Content offered as an asset: its address, or why it is refused. -/
def offerAsset (contents name : String) (kind : AssetKind) : Render (Except Fault String) :=
  modifyGet fun setting ledger =>
    match ledger.storeAsset setting.pass contents name kind with
    | .ok (ledger, url) => (.ok url, ledger)
    | .error fault => (.error fault, ledger)

/-- The address of content stored as an asset. -/
def storeAsset (contents name : String) (kind : AssetKind) : Render String := do
  let offered ← offerAsset contents name kind
  ofExcept offered

/-- The address of an asset stored elsewhere. -/
def lookupAsset (name : String) : Render (Option String) :=
  modifyGet fun setting ledger =>
    let found := ledger.lookupAsset setting.pass name
    (found.2, found.1)

end Render

def Request.reply : (request : Request) → Render request.Reply
  | .loopNames => Render.nextLoopNames
  | .formId => Render.nextFormId
  | .resource name => Render.require name
  | .note key value => Render.note key value
  | .storeTemplate name template => Render.storeTemplate name template
  | .recordIsland record => Render.recordIsland record
  | .fragmentCount => Render.askCatalog fun catalog => catalog.fragments.length
  | .islandFragment id => Render.askCatalog fun catalog => catalog.islandFragment? id
  | .containerOf route => Render.containerOf route
  | .addRoute route title container => Render.addRoute { path := route, title, container }
  | .seeContainer container => Render.seeContainer container
  | .storeAsset contents name kind => Render.offerAsset contents name kind
  | .lookupAsset name => Render.lookupAsset name
  | .config => do
      let setting ← Render.setting
      pure setting.config

end Sitewright
