import Sitewright.Json.Value
import Sitewright.Markup.Attribute

/-!
Contract: how a placeholder fetches its fragment and swaps it in.
-/

namespace Sitewright

open Markup

/-- What makes a placeholder fetch its fragment. -/
inductive Trigger where
  | load
  | revealed
  | intersect
deriving DecidableEq, Repr

def Trigger.text : Trigger → String
  | .load => "load delay:20ms"
  | .revealed => "revealed delay:20ms"
  | .intersect => "intersect delay:20ms"

structure Loading where
  trigger : Trigger
  /-- Whether the old content is morphed into the new one. -/
  morph : Bool
  /-- Delay before the swap. -/
  swap : Option String
  /-- Delay before the content settles. -/
  settle : Option String
  /-- Language asked for instead of the request's own. -/
  locale : Option String
deriving DecidableEq, Repr

namespace Loading

def standard : Loading :=
  { trigger := .revealed, morph := false, swap := none, settle := none, locale := none }

/-- A delay behind its label, if there is one. -/
def delayText (label : String) : Option String → String
  | some delay => " " ++ label ++ ":" ++ delay
  | none => ""

/-- How the fragment replaces the placeholder. -/
def swapText (loading : Loading) : String :=
  (if loading.morph then "morph:outerHTML" else "outerHTML") ++
    delayText "swap" loading.swap ++ delayText "settle" loading.settle

def languageHeader : String := "Accept-Language"

/-- The headers of the request, sorted. A language replaces the route when both
have one name. -/
def headers (loading : Loading) (routeHeader route : String) : Json :=
  Json.sortedObject
    ((routeHeader, .string ("/" ++ route)) ::
      match loading.locale with
      | some locale => [(languageHeader, .string locale)]
      | none => [])

/-- The attributes of a placeholder that fetches `url`. -/
def placeholderAttributes (loading : Loading) (routeHeader route url : String) : Attributes :=
  [⟨"hx-trigger", .string loading.trigger.text⟩,
   ⟨"hx-get", .string url⟩,
   ⟨"hx-swap", .string loading.swapText⟩,
   ⟨"hx-headers", .string (loading.headers routeHeader route).text⟩]

end Loading

end Sitewright
