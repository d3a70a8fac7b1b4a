import Sitewright.Proofs.Render.Indifference

/-!
Contract: renders do not depend on the limit of probes.

Of all constructs, only components can read the limit, by asking for the
configuration. A view whose components do not use it is rendered in the same way
under every limit.

Owns:
- `withLimit`, the setting under another limit;
- `Allowance.ignoringLimit`, the requests that do not use the limit;
- `View.render_withLimit`, the render under another limit.
-/

namespace Sitewright

/-- The configuration with another limit of probes. -/
def Config.withLimit (config : Config) (limit : Nat) : Config :=
  { config with probeLimit := limit }

/-- The setting with another limit of probes. -/
def Setting.withLimit (setting : Setting) (limit : Nat) : Setting :=
  { setting with config := setting.config.withLimit limit }

/-- A component that asks for the configuration goes on in the same way whatever
the limit is; every other request is allowed. -/
def Allowance.ignoringLimit : Allowance
  | .config, next => ∀ (config : Config) (limit : Nat), next (config.withLimit limit) = next config
  | _, _ => True

/-- Under another limit, only the configuration is another one. -/
theorem Setting.slight_withLimit (limit : Nat) :
    Setting.Slight fun setting => setting.withLimit limit where
  reply := by
    intro request other setting state
    cases request with
    | config => exact absurd rfl other
    | _ => rfl
  header := fun _ => rfl
  scope := fun _ => rfl
  moved := fun _ _ _ => rfl

/-- A component that does not use the limit goes on in the same way under another one. -/
theorem Render.ignoresLimit_ask {limit : Nat} {request : Request}
    {next : request.Reply → Program} (allowed : Allowance.ignoringLimit request next)
    (ignores : ∀ reply, (next reply).run.Ignores fun setting => setting.withLimit limit) :
    (Program.ask request next).run.Ignores fun setting => setting.withLimit limit := by
  by_cases other : request = .config
  -- Only this answer tells the limits apart, and then what follows does not.
  · subst other
    refine ⟨fun setting state => ?_, fun setting => (ignores setting.config).leaves setting⟩
    have same : next (setting.config.withLimit limit) = next setting.config :=
      allowed setting.config limit
    show (next (setting.config.withLimit limit)).run (setting.withLimit limit) state = _
    rw [same]
    exact (ignores setting.config).same setting state
  · exact .bind ((Setting.slight_withLimit limit).ignores_reply other) ignores

theorem Render.ignoresLimit_closed (limit : Nat) :
    Render.Closed (fun _ => True) (@Render.Ignores fun setting => setting.withLimit limit)
      Allowance.ignoringLimit where
  toKept := (Setting.slight_withLimit limit).kept
  reading := fun _ ignores =>
    ⟨fun setting => (ignores setting.scope setting.config.fragmentHeader trivial).same setting,
      fun setting => (ignores setting.scope setting.config.fragmentHeader trivial).leaves setting⟩
  ask := Render.ignoresLimit_ask

/-- A view whose components do not use the limit is rendered in the same way under
another one. -/
theorem View.render_withLimit {view : View} (ignores : view.Asks .ignoringLimit)
    (setting : Setting) (limit : Nat) (ledger : Ledger) :
    view.render (setting.withLimit limit) (.ofLedger ledger) =
      view.render setting (.ofLedger ledger) :=
  (View.render_good (Render.ignoresLimit_closed limit) view ignores).same setting (.ofLedger ledger)

end Sitewright
