import Sitewright.Catalog.Fragment
import Sitewright.Catalog.Island
import Sitewright.Config

/-!
Contract: what all pages of one build share: compiled fragments and islands.

Fragments with the same fingerprint are stored once. The first record of an
island is kept, whatever is recorded under its name later.
-/

namespace Sitewright

structure Catalog where
  fragments : List Catalog.Fragment
  islands : List Catalog.IslandRecord
deriving DecidableEq, Repr

namespace Catalog

def empty : Catalog := ⟨[], []⟩

def fragment? (catalog : Catalog) (fingerprint : String) : Option Fragment :=
  catalog.fragments.find? fun fragment => fragment.fingerprint = fingerprint

/-- The catalog with the fragment at the end, unless its fingerprint is taken. -/
def addFragment (catalog : Catalog) (fragment : Fragment) : Catalog :=
  if (catalog.fragment? fragment.fingerprint).isSome then catalog
  else { catalog with fragments := catalog.fragments ++ [fragment] }

/-- A compiled template stored, and its handle. -/
def storeTemplate (catalog : Catalog) (config : Config) (resource template : String) :
    Catalog × Handle :=
  let fragment := Fragment.ofTemplate resource template
  (catalog.addFragment fragment,
    { id := fragment.fingerprint, url := config.fragmentUrl fragment.fingerprint })

def island? (catalog : Catalog) (id : String) : Option IslandRecord :=
  catalog.islands.find? fun record => record.id = id

/-- The catalog with the record at the end, unless its island has one. -/
def addIsland (catalog : Catalog) (record : IslandRecord) : Catalog :=
  if (catalog.island? record.id).isSome then catalog
  else { catalog with islands := catalog.islands ++ [record] }

def islandFragment? (catalog : Catalog) (id : String) : Option String :=
  (catalog.island? id).map IslandRecord.fragment

end Catalog

end Sitewright
