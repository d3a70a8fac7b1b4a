/-!
Contract: why a render or a build fails.

A fault raised inside a construct is attributed to the innermost construct, once;
enclosing constructs pass it on unchanged.
-/

namespace Sitewright

inductive Fault where
  /-- A construct stands where it is not allowed. -/
  | misuse (construct reason : String)
  | asset (name reason : String)
  /-- Raised by a component of the user. -/
  | raised (message : String)
  | within (component : String) (source : Fault)
deriving DecidableEq, Repr

namespace Fault

/-- The fault attributed to `component`, unless it is attributed already. -/
def attributed (component : String) : Fault → Fault
  | .within inner source => .within inner source
  | fault => .within component fault

/-- The component of the outermost attribution. -/
def component? : Fault → Option String
  | .within component _ => some component
  | _ => none

/-- The fault without its attributions. -/
def cause : Fault → Fault
  | .within _ source => source.cause
  | fault => fault

def message : Fault → String
  | .misuse construct reason => construct ++ " misused: " ++ reason
  | .asset name reason => "asset `" ++ name ++ "` could not be registered: " ++ reason
  | .raised text => text
  | .within component source => "in component `" ++ component ++ "`: " ++ source.message

end Fault

inductive BuildFault where
  | missingRoot
  | render (fault : Fault)
  /-- Routes were still pending after so many probes. -/
  | unsettled (probes : Nat)
  | config (reason : String)
  | sink (path reason : String)
deriving DecidableEq, Repr

def BuildFault.message : BuildFault → String
  | .missingRoot => "root component is missing or renders nothing"
  | .render fault => fault.message
  | .unsettled probes =>
      "route discovery did not settle after " ++ toString probes ++ " probes"
  | .config reason => "invalid build options: " ++ reason
  | .sink path reason => "failed to write artifact `" ++ path ++ "`: " ++ reason

end Sitewright
