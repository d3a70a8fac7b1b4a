import Sitewright.Site.Build

/-!
Contract: the files that a site is written to.

Owns:
- the list of all artifacts, in the order in which they are written;
- writing them one by one through a step that may fail;
- two ways to write: into maps by path, and into a log that may refuse.
-/

namespace Sitewright

/-- Whether a file belongs to the pages or to the static files. -/
inductive Area where
  | output
  | static
deriving DecidableEq, Repr

structure Artifact where
  area : Area
  /-- Relative, with slashes between its parts. -/
  path : String
  contents : String
deriving DecidableEq, Repr

namespace Artifact

def output (path contents : String) : Artifact :=
  ⟨.output, path, contents⟩

def ofPage (page : Page) : List Artifact :=
  [output (page.route ++ ".html") page.html,
   output (page.route ++ ".meta.json") page.sidecar.toJson.text]

/-- The path of a fragment without its ending. -/
def fragmentBase (segment fingerprint : String) : String :=
  segment ++ "/" ++ fingerprint

def ofFragment (segment : String) (fragment : Catalog.Fragment) : List Artifact :=
  let base := fragmentBase segment fragment.fingerprint
  [output (base ++ ".template.html") fragment.template,
   output (base ++ ".meta.json") fragment.sidecar.toJson.text]

def ofIsland (record : Catalog.IslandRecord) : Artifact :=
  output ("__islands/" ++ record.id ++ ".meta.json") record.toJson.text

def ofAsset (asset : Asset) : Artifact :=
  ⟨.static, Text.trimStart '/' asset.file, asset.contents⟩

end Artifact

/-- All artifacts: pages, fragments, islands, static files. -/
def Site.artifacts (site : Site) : List Artifact :=
  site.pages.flatMap Artifact.ofPage ++
    site.fragments.flatMap (Artifact.ofFragment site.fragmentSegment) ++
    site.islands.map Artifact.ofIsland ++
    site.assets.map Artifact.ofAsset

/-- The artifacts written one after another until a write fails; what was written
before stays written. -/
def writeAll {σ : Type} (write : σ → Artifact → Except BuildFault Unit × σ) :
    σ → List Artifact → Except BuildFault Unit × σ
  | sink, [] => (.ok (), sink)
  | sink, artifact :: rest =>
      match write sink artifact with
      | (.ok (), sink) => writeAll write sink rest
      | (.error fault, sink) => (.error fault, sink)

/-! ## Files in memory -/

/-- Files by path, sorted; a later file replaces an earlier one of its path. -/
abbrev Files := List (String × String)

def Files.insert (path contents : String) : Files → Files
  | [] => [(path, contents)]
  | (other, old) :: rest =>
      if path < other then (path, contents) :: (other, old) :: rest
      else if path = other then (path, contents) :: rest
      else (other, old) :: insert path contents rest

structure MemorySink where
  output : Files
  static : Files
deriving DecidableEq, Repr

namespace MemorySink

def empty : MemorySink := ⟨[], []⟩

/-- Keeps an artifact; this never fails. -/
def write (sink : MemorySink) (artifact : Artifact) : Except BuildFault Unit × MemorySink :=
  match artifact.area with
  | .output =>
      (.ok (), { sink with output := sink.output.insert artifact.path artifact.contents })
  | .static =>
      (.ok (), { sink with static := sink.static.insert artifact.path artifact.contents })

end MemorySink

/-! ## A log of writes -/

/-- The writes so far, and how many more are accepted if that is limited. -/
structure LogSink where
  written : List Artifact
  accepted : Option Nat
deriving DecidableEq, Repr

namespace LogSink

/-- An empty log that refuses the write after `accepted` others. -/
def refusingAfter (accepted : Option Nat) : LogSink := ⟨[], accepted⟩

/-- Logs an artifact, or refuses it without a trace. -/
def write (sink : LogSink) (artifact : Artifact) : Except BuildFault Unit × LogSink :=
  let written := sink.written ++ [artifact]
  match sink.accepted with
  | some 0 => (.error (.sink artifact.path "refused"), sink)
  | some (count + 1) => (.ok (), { written, accepted := some count })
  | none => (.ok (), { sink with written })

end LogSink

end Sitewright
