import Sitewright.Asset.Store
import Sitewright.Catalog.Fragment
import Sitewright.Catalog.Island
import Sitewright.Catalog.Store
import Sitewright.Config
import Sitewright.Config.Toml
import Sitewright.Digest.Fingerprint
import Sitewright.Digest.Sha256
import Sitewright.Fault
import Sitewright.Json.Grammar
import Sitewright.Json.Reader
import Sitewright.Json.Value
import Sitewright.Markup.Attribute
import Sitewright.Markup.Escape
import Sitewright.Markup.Tag
import Sitewright.Number.Binary64
import Sitewright.Number.Notation
import Sitewright.Number.Power
import Sitewright.Number.Shortest
import Sitewright.Page
import Sitewright.Proofs.Asset.Store
import Sitewright.Proofs.Catalog.History
import Sitewright.Proofs.Catalog.Store
import Sitewright.Proofs.Digest.Identity
import Sitewright.Proofs.Json.Members
import Sitewright.Proofs.Keyed
import Sitewright.Proofs.Markup.Delivery
import Sitewright.Proofs.Markup.Inert
import Sitewright.Proofs.Markup.Settings
import Sitewright.Proofs.Markup.Speech
import Sitewright.Proofs.Markup.Structure
import Sitewright.Proofs.Render.Agreement
import Sitewright.Proofs.Render.Alternative
import Sitewright.Proofs.Render.Attribution
import Sitewright.Proofs.Render.Balance
import Sitewright.Proofs.Render.Closure
import Sitewright.Proofs.Render.Condition
import Sitewright.Proofs.Render.Confined
import Sitewright.Proofs.Render.Contents
import Sitewright.Proofs.Render.Document
import Sitewright.Proofs.Render.Earlier
import Sitewright.Proofs.Render.Enclosure
import Sitewright.Proofs.Render.FormIds
import Sitewright.Proofs.Render.Formless
import Sitewright.Proofs.Render.Forms
import Sitewright.Proofs.Render.Handover
import Sitewright.Proofs.Render.Heads
import Sitewright.Proofs.Render.Indifference
import Sitewright.Proofs.Render.Isolation
import Sitewright.Proofs.Render.Limit
import Sitewright.Proofs.Render.MetaTags
import Sitewright.Proofs.Render.Notes
import Sitewright.Proofs.Render.Numbering
import Sitewright.Proofs.Render.Origin
import Sitewright.Proofs.Render.Overriding
import Sitewright.Proofs.Render.Plain
import Sitewright.Proofs.Render.Position
import Sitewright.Proofs.Render.QuickButton
import Sitewright.Proofs.Render.Raising
import Sitewright.Proofs.Render.Reference
import Sitewright.Proofs.Render.Refresh
import Sitewright.Proofs.Render.Registration
import Sitewright.Proofs.Render.Regrouping
import Sitewright.Proofs.Render.RequestHeaders
import Sitewright.Proofs.Render.ScriptLink
import Sitewright.Proofs.Render.Selection
import Sitewright.Proofs.Render.Sharing
import Sitewright.Proofs.Render.Stage
import Sitewright.Proofs.Render.Step
import Sitewright.Proofs.Render.Structure
import Sitewright.Proofs.Render.Success
import Sitewright.Proofs.Render.Texts
import Sitewright.Proofs.Render.Thread
import Sitewright.Proofs.Render.Trace
import Sitewright.Proofs.Routing.History
import Sitewright.Proofs.Routing.LinkTarget
import Sitewright.Proofs.Routing.Spelling
import Sitewright.Proofs.Routing.Wildcard
import Sitewright.Proofs.Site.Artifacts
import Sitewright.Proofs.Site.Blocks
import Sitewright.Proofs.Site.Content
import Sitewright.Proofs.Site.Discovery
import Sitewright.Proofs.Site.Documents
import Sitewright.Proofs.Site.Enclosure
import Sitewright.Proofs.Site.FormIds
import Sitewright.Proofs.Site.FragmentUrl
import Sitewright.Proofs.Site.Hosts
import Sitewright.Proofs.Site.Isolation
import Sitewright.Proofs.Site.LinkTarget
import Sitewright.Proofs.Site.Order
import Sitewright.Proofs.Site.OwnRoute
import Sitewright.Proofs.Site.PageData
import Sitewright.Proofs.Site.PageKeys
import Sitewright.Proofs.Site.Pages
import Sitewright.Proofs.Site.Reference
import Sitewright.Proofs.Site.Regrouping
import Sitewright.Proofs.Site.Search
import Sitewright.Proofs.Site.Sidecar
import Sitewright.Proofs.Site.Survey
import Sitewright.Proofs.Template.Call
import Sitewright.Proofs.Template.Dot
import Sitewright.Proofs.Template.Escaping
import Sitewright.Proofs.Template.Grouping
import Sitewright.Proofs.Template.Nesting
import Sitewright.Proofs.Template.Quoting
import Sitewright.Proofs.Template.Scope
import Sitewright.Proofs.Template.Summary
import Sitewright.Proofs.Template.Variables
import Sitewright.Proofs.Text.Token
import Sitewright.Proofs.View.Confined
import Sitewright.Proofs.View.Context
import Sitewright.Proofs.View.Refresh
import Sitewright.Proofs.View.Tidy
import Sitewright.Render.Basic
import Sitewright.Render.Control
import Sitewright.Render.Forms
import Sitewright.Render.Ledger
import Sitewright.Render.Remote
import Sitewright.Render.Reply
import Sitewright.Render.Routes
import Sitewright.Render.Shell
import Sitewright.Render.View
import Sitewright.Routing.Path
import Sitewright.Routing.Table
import Sitewright.Site.Artifact
import Sitewright.Site.Build
import Sitewright.Site.Survey
import Sitewright.Template.Block
import Sitewright.Template.DataRef
import Sitewright.Template.Expr
import Sitewright.Text.Blank
import Sitewright.Text.Split
import Sitewright.Toml.Document
import Sitewright.Toml.Table
import Sitewright.Toml.Token
import Sitewright.View.Action
import Sitewright.View.Basic
import Sitewright.View.Form
import Sitewright.View.Listing
import Sitewright.View.Loading
import Sitewright.View.Region
import Sitewright.View.Request
import Sitewright.View.Scope
