import Sitewright.Fault
import Sitewright.Text.Split
import Sitewright.Json.Reader

/-!
Contract: what one build can be told.

Owns:
- the fields and their defaults;
- the checks before a build, the probe limit before the prefix;
- the address of a fragment;
- the JSON record of a configuration.

Does not own: configuration files, whose syntax is a format of its own.
-/

namespace Sitewright

structure Config where
  /-- Address below which static files are served. -/
  staticUrl : String
  /-- First segment of the addresses of fragments. -/
  dynamicPrefix : String
  /-- Directory of assets below the static files. -/
  assetPrefix : String
  /-- How many renders may be spent on finding routes. -/
  probeLimit : Nat
  /-- Header in which a placeholder sends the current route. -/
  fragmentHeader : String
deriving DecidableEq, Repr

namespace Config

def standard : Config :=
  { staticUrl := "/"
    dynamicPrefix := "__dyn"
    assetPrefix := "assets"
    probeLimit := 10000
    fragmentHeader := "X-Fragment-Route" }

/-- The prefix of fragment addresses without slashes at its ends. -/
def fragmentSegment (config : Config) : String :=
  Text.trim '/' config.dynamicPrefix

/-- The directory of assets without slashes at its ends. -/
def assetDirectory (config : Config) : String :=
  Text.trim '/' config.assetPrefix

/-- Where the fragment with the given fingerprint is fetched. -/
def fragmentUrl (config : Config) (fingerprint : String) : String :=
  "/" ++ config.fragmentSegment ++ "/" ++ fingerprint

def hasSinglePrefix (config : Config) : Bool :=
  let segment := config.fragmentSegment
  !segment.isEmpty && !segment.toList.contains '/'

def check (config : Config) : Except BuildFault Unit :=
  if config.probeLimit = 0 then
    .error (.config "maxDiscoveryProbes must be at least 1")
  else if !config.hasSinglePrefix then
    .error (.config ("dynamicPrefix must be a single path segment, got `" ++
      config.dynamicPrefix ++ "`"))
  else .ok ()

/-! ## The record -/

/-- The names of the fields, in the order of the record. -/
def fieldNames : List String :=
  ["staticUrl", "dynamicPrefix", "assetPrefix", "maxDiscoveryProbes", "fragmentRequestHeader"]

def toJson (config : Config) : Json :=
  .object
    [("staticUrl", .string config.staticUrl),
     ("dynamicPrefix", .string config.dynamicPrefix),
     ("assetPrefix", .string config.assetPrefix),
     ("maxDiscoveryProbes", .number (.whole config.probeLimit)),
     ("fragmentRequestHeader", .string config.fragmentHeader)]

/-- The value of a field that has a default. -/
def fieldOr {α : Type} (standard : α) (read? : JsonSyntax → Option α) :
    Option JsonSyntax → Option α
  | none => some standard
  | some tree => read? tree

/-- A configuration from a record in which every field may be absent. -/
def ofSyntax? (tree : JsonSyntax) : Option Config := do
  match ← tree.fields? fieldNames with
  | [staticUrl, dynamicPrefix, assetPrefix, probeLimit, fragmentHeader] =>
      return {
        staticUrl := ← fieldOr standard.staticUrl JsonSyntax.text? staticUrl
        dynamicPrefix := ← fieldOr standard.dynamicPrefix JsonSyntax.text? dynamicPrefix
        assetPrefix := ← fieldOr standard.assetPrefix JsonSyntax.text? assetPrefix
        probeLimit := ← fieldOr standard.probeLimit JsonSyntax.count? probeLimit
        fragmentHeader := ← fieldOr standard.fragmentHeader JsonSyntax.text? fragmentHeader }
  | _ => none

end Config

end Sitewright
