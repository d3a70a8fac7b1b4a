import Sitewright.Asset.Store
import Sitewright.Catalog.Store
import Sitewright.Page
import Sitewright.Routing.Table
import Sitewright.View.Scope

/-!
Contract: what a render reads and what it writes.

Owns:
- the two passes over a view, which differ in what they keep;
- the numbering of loops and forms in one document;
- the notes about one page;
- the ledger of everything that a render leaves behind.

Does not own: alternatives waiting for their conditional, which only make sense
together with rendering itself.
-/

namespace Sitewright

open Routing Markup Catalog

/-- Routes are searched first and pages are built afterwards. A search keeps
routes only; a build keeps everything else and takes the routes as given. -/
inductive Pass where
  | search
  | build
deriving DecidableEq, Repr

/-- What a part of a view is rendered under. -/
structure Setting where
  config : Config
  pass : Pass
  scope : Scope

/-- Counters of one document, which is a page or the template of a region. -/
structure Numbering where
  /-- Loops so far. -/
  loops : Nat
  /-- Forms so far. -/
  forms : Nat
  /-- What the ids of forms begin with. -/
  formPrefix : String
deriving DecidableEq, Repr

namespace Numbering

def ofPage : Numbering :=
  { loops := 0, forms := 0, formPrefix := "form" }

/-- The numbering of a template, whose form ids carry the key of its resource. -/
def ofTemplate (resource : String) : Numbering :=
  { ofPage with formPrefix := "form_" ++ resourceKey resource }

/-- The variable for the elements of the next loop. -/
def elementName (numbering : Numbering) : String :=
  "$_i" ++ toString numbering.loops

/-- The variable for the positions in the next loop. -/
def positionName (numbering : Numbering) : String :=
  numbering.elementName ++ "_key"

/-- The id of the next form; forms are counted from one. -/
def formId (numbering : Numbering) : String :=
  numbering.formPrefix ++ "_" ++ toString (numbering.forms + 1)

def afterLoop (numbering : Numbering) : Numbering :=
  { numbering with loops := numbering.loops + 1 }

def afterForm (numbering : Numbering) : Numbering :=
  { numbering with forms := numbering.forms + 1 }

end Numbering

/-- What is noted about one page. -/
structure PageNotes where
  requirements : List Requirement
  /-- Sorted by key. -/
  metadata : List (String × Json)

namespace PageNotes

def empty : PageNotes := ⟨[], []⟩

/-- The notes with a resource required, each one once. -/
def require (notes : PageNotes) (resource : String) : PageNotes :=
  if notes.requirements.any (fun other => other.resource = resource) then notes
  else { notes with requirements := notes.requirements ++ [.ofResource resource] }

/-- The notes with a value under a key, instead of an earlier one. -/
def note (notes : PageNotes) (key : String) (value : Json) : PageNotes :=
  { notes with metadata := Json.insertMember key value notes.metadata }

end PageNotes

/-- Everything that a render leaves behind. -/
structure Ledger where
  routes : Table
  /-- Routes that this search added, in order. -/
  found : List Path
  assets : Asset.Store
  /-- Addresses of the assets that this build stored or linked. -/
  usedUrls : List String
  catalog : Catalog
  numbering : Numbering
  notes : PageNotes
  /-- Meta tags collected for the head of the innermost shell, in order. -/
  metaTags : List Attributes

namespace Ledger

/-- The ledger before one search among the given routes. -/
def ofSearch (config : Config) (routes : Table) : Ledger :=
  { routes, found := [], assets := .ofConfig config, usedUrls := [], catalog := .empty
    numbering := .ofPage, notes := .empty, metaTags := [] }

/-- The ledger before a build, with the given routes and the files of a store. -/
def ofBuild (routes : Table) (assets : Asset.Store) : Ledger :=
  { routes, found := [], assets, usedUrls := [], catalog := .empty
    numbering := .ofPage, notes := .empty, metaTags := [] }

/-- The ledger for the next page of a build, whose document and notes are new. -/
def nextPage (ledger : Ledger) : Ledger :=
  { ledger with numbering := .ofPage, notes := .empty, metaTags := [] }

/-- A route registered. Only a search adds routes. -/
def addRoute (ledger : Ledger) (pass : Pass) (entry : Entry) : Ledger :=
  match pass, ledger.routes.add? entry with
  | .search, some routes => { ledger with routes, found := ledger.found ++ [entry.path] }
  | _, _ => ledger

/-- The container of a router seen. Only a search remembers it. -/
def seeContainer (ledger : Ledger) (pass : Pass) (container : String) : Ledger :=
  match pass with
  | .search => { ledger with routes := ledger.routes.seeContainer container }
  | .build => ledger

/-- A compiled template stored, and its handle. A search discards it. -/
def storeTemplate (ledger : Ledger) (setting : Setting) (resource template : String) :
    Ledger × Handle :=
  match setting.pass with
  | .search => (ledger, .discarded)
  | .build =>
      let stored := ledger.catalog.storeTemplate setting.config resource template
      ({ ledger with catalog := stored.1 }, stored.2)

/-- The record of an island kept. A search discards it. -/
def recordIsland (ledger : Ledger) (pass : Pass) (record : IslandRecord) : Ledger :=
  match pass with
  | .search => ledger
  | .build => { ledger with catalog := ledger.catalog.addIsland record }

def useUrl (ledger : Ledger) (url : String) : Ledger :=
  if ledger.usedUrls.contains url then ledger
  else { ledger with usedUrls := ledger.usedUrls ++ [url] }

/-- Content stored as an asset, and its address. A search stores nothing and
gives no address. -/
def storeAsset (ledger : Ledger) (pass : Pass) (contents name : String) (kind : AssetKind) :
    Except Fault (Ledger × String) :=
  match pass with
  | .search => .ok (ledger, "")
  | .build =>
      match ledger.assets.register contents name kind with
      | .ok (assets, url) => .ok ({ ledger with assets }.useUrl url, url)
      | .error fault => .error fault

/-- The address of an asset stored under a name. A search finds none. -/
def lookupAsset (ledger : Ledger) (pass : Pass) (name : String) : Ledger × Option String :=
  match pass with
  | .search => (ledger, none)
  | .build =>
      match ledger.assets.lookup? name with
      | some url => (ledger.useUrl url, some url)
      | none => (ledger, none)

/-! ## Changes that leave the document -/

/-- What belongs to the document that is rendered: its numbering, and the meta tags that wait for
its head. -/
def document (ledger : Ledger) : Numbering × List Attributes :=
  (ledger.numbering, ledger.metaTags)

variable (ledger : Ledger) (pass : Pass)

theorem document_addRoute (entry : Entry) :
    (ledger.addRoute pass entry).document = ledger.document := by
  unfold addRoute
  split <;> rfl

theorem document_seeContainer (container : String) :
    (ledger.seeContainer pass container).document = ledger.document := by
  cases pass <;> rfl

theorem document_recordIsland (record : IslandRecord) :
    (ledger.recordIsland pass record).document = ledger.document := by
  cases pass <;> rfl

theorem document_useUrl (url : String) : (ledger.useUrl url).document = ledger.document := by
  unfold useUrl
  split <;> rfl

theorem document_storeTemplate (setting : Setting) (resource template : String) :
    (ledger.storeTemplate setting resource template).1.document = ledger.document := by
  unfold storeTemplate
  split <;> rfl

theorem document_lookupAsset (name : String) :
    (ledger.lookupAsset pass name).1.document = ledger.document := by
  cases pass with
  | search => rfl
  | build =>
      simp only [lookupAsset]
      split
      · exact document_useUrl _ _
      · rfl

theorem document_storeAsset {contents name url : String} {kind : AssetKind} {after : Ledger}
    (stored : ledger.storeAsset pass contents name kind = .ok (after, url)) :
    after.document = ledger.document := by
  cases pass with
  | search =>
      obtain ⟨rfl, rfl⟩ := Prod.mk.inj (Except.ok.inj stored)
      rfl
  | build =>
      simp only [storeAsset] at stored
      split at stored
      · obtain ⟨rfl, rfl⟩ := Prod.mk.inj (Except.ok.inj stored)
        exact document_useUrl _ _
      · cases stored

@[simp] theorem numbering_addRoute (entry : Entry) :
    (ledger.addRoute pass entry).numbering = ledger.numbering :=
  congrArg Prod.fst (ledger.document_addRoute pass entry)

@[simp] theorem numbering_seeContainer (container : String) :
    (ledger.seeContainer pass container).numbering = ledger.numbering :=
  congrArg Prod.fst (ledger.document_seeContainer pass container)

@[simp] theorem numbering_recordIsland (record : IslandRecord) :
    (ledger.recordIsland pass record).numbering = ledger.numbering :=
  congrArg Prod.fst (ledger.document_recordIsland pass record)

@[simp] theorem numbering_storeTemplate (setting : Setting) (resource template : String) :
    (ledger.storeTemplate setting resource template).1.numbering = ledger.numbering :=
  congrArg Prod.fst (ledger.document_storeTemplate setting resource template)

@[simp] theorem numbering_lookupAsset (name : String) :
    (ledger.lookupAsset pass name).1.numbering = ledger.numbering :=
  congrArg Prod.fst (ledger.document_lookupAsset pass name)

theorem numbering_storeAsset {contents name url : String} {kind : AssetKind} {after : Ledger}
    (stored : ledger.storeAsset pass contents name kind = .ok (after, url)) :
    after.numbering = ledger.numbering :=
  congrArg Prod.fst (ledger.document_storeAsset pass stored)

end Ledger

end Sitewright
