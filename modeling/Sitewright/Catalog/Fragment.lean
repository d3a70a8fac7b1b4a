import Sitewright.Digest.Fingerprint
import Sitewright.Json.Reader

/-!
Contract: compiled fragments and the records that describe them.

A fragment is the template of a region that the server renders on request. It is
stored under the fingerprint of its resource and its template.
-/

namespace Sitewright.Catalog

structure Fragment where
  resource : String
  fingerprint : String
  template : String
deriving DecidableEq, Repr

def Fragment.ofTemplate (resource template : String) : Fragment :=
  { resource, fingerprint := Digest.fingerprint resource template, template }

/-- What the server reads beside a template. -/
structure FragmentSidecar where
  resource : String
  fingerprint : String
deriving DecidableEq, Repr

def Fragment.sidecar (fragment : Fragment) : FragmentSidecar :=
  { resource := fragment.resource, fingerprint := fragment.fingerprint }

/-- Under which name a fragment is stored and where it is fetched. -/
structure Handle where
  id : String
  url : String
deriving DecidableEq, Repr

/-- The handle of a fragment that is not stored. -/
def Handle.discarded : Handle := ⟨"", ""⟩

/-! ## Records -/

def Fragment.toJson (fragment : Fragment) : Json :=
  .object
    [("resourceName", .string fragment.resource),
     ("contentHash", .string fragment.fingerprint),
     ("compiledTemplateText", .string fragment.template)]

def Fragment.ofSyntax? (tree : JsonSyntax) : Option Fragment := do
  match ← tree.fields? ["resourceName", "contentHash", "compiledTemplateText"] with
  | [some resource, some fingerprint, some template] =>
      return {
        resource := ← resource.text?
        fingerprint := ← fingerprint.text?
        template := ← template.text? }
  | _ => none

def FragmentSidecar.toJson (sidecar : FragmentSidecar) : Json :=
  .object
    [("resourceName", .string sidecar.resource),
     ("hash", .string sidecar.fingerprint)]

def FragmentSidecar.ofSyntax? (tree : JsonSyntax) : Option FragmentSidecar := do
  match ← tree.fields? ["resourceName", "hash"] with
  | [some resource, some fingerprint] =>
      return { resource := ← resource.text?, fingerprint := ← fingerprint.text? }
  | _ => none

end Sitewright.Catalog
