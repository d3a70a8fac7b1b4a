import Sitewright.Asset.Store
import Sitewright.Catalog.Store
import Sitewright.Routing.Table

/-!
Contract: what components may ask of the render they take part in.

Every request has a type of replies. Requests that store something are answered
in the same way while routes are searched, but then nothing is kept.
-/

namespace Sitewright

open Routing Catalog

inductive Request where
  /-- Names of element and position for a new loop. -/
  | loopNames
  /-- An id for a new form. -/
  | formId
  /-- The key of a resource that the page now needs. -/
  | resource (name : String)
  /-- A remark about the page, replacing an earlier one under its key. -/
  | note (key : String) (value : Json)
  | storeTemplate (resource template : String)
  | recordIsland (record : IslandRecord)
  /-- How many fragments are stored; nothing while routes are searched. -/
  | fragmentCount
  /-- The fragment of an island; nothing while routes are searched. -/
  | islandFragment (id : String)
  | containerOf (route : Path)
  | addRoute (route : Path) (title container : String)
  | seeContainer (container : String)
  | storeAsset (contents name : String) (kind : AssetKind)
  | lookupAsset (name : String)
  | config

def Request.Reply : Request → Type
  | .loopNames => String × String
  | .formId => String
  | .resource _ => String
  | .note .. => Unit
  | .storeTemplate .. => Handle
  | .recordIsland _ => Unit
  | .fragmentCount => Option Nat
  | .islandFragment _ => Option (Option String)
  | .containerOf _ => String
  | .addRoute .. => Unit
  | .seeContainer _ => Unit
  | .storeAsset .. => Except Fault String
  | .lookupAsset _ => Option String
  | .config => Config

end Sitewright
