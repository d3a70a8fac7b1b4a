import Sitewright.Config
import Sitewright.Toml.Document

/-!
Contract: the configuration of a file.

Fields that the file does not set have their defaults, and entries that are no
fields are passed over. A configuration that was read is checked as before a
build.
-/

namespace Sitewright.Config

open Toml

/-- Why a file gives no configuration. -/
inductive FileFault where
  /-- It is no such file, or a field has a value of the wrong kind. -/
  | malformed
  /-- It was read, but no build may use it. -/
  | refused (fault : BuildFault)
deriving DecidableEq, Repr

def nodeText? : Node → Option String
  | .string value => some value
  | _ => none

def nodeCount? : Node → Option Nat
  | .whole value => if 0 ≤ value then some value.toNat else none
  | _ => none

/-- The value of a field that has a default. -/
def entryOr {α : Type} (table : Table) (name : String) (standard : α)
    (read? : Node → Option α) : Option α :=
  match table.get? name with
  | none => some standard
  | some node => read? node

def ofTable? (table : Table) : Option Config := do
  return {
    staticUrl := ← entryOr table "staticUrl" standard.staticUrl nodeText?
    dynamicPrefix := ← entryOr table "dynamicPrefix" standard.dynamicPrefix nodeText?
    assetPrefix := ← entryOr table "assetPrefix" standard.assetPrefix nodeText?
    probeLimit := ← entryOr table "maxDiscoveryProbes" standard.probeLimit nodeCount?
    fragmentHeader := ← entryOr table "fragmentRequestHeader" standard.fragmentHeader nodeText? }

def ofToml (text : String) : Except FileFault Config :=
  match (Toml.ofText? text).bind ofTable? with
  | none => .error .malformed
  | some config =>
      match config.check with
      | .ok () => .ok config
      | .error fault => .error (.refused fault)

end Sitewright.Config
