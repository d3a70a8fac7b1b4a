import Sitewright.Digest.Fingerprint
import Sitewright.Config

/-!
Contract: static files and the store that decides where they are served.

A file is named by the fingerprint of its logical name and content, so the same
content under the same name is stored once. Looking up a name gives the first
file stored under it, of either kind.
-/

namespace Sitewright

inductive AssetKind where
  | css
  | js
deriving DecidableEq, Repr

/-- The extension of files of a kind, and the directory they are in. -/
def AssetKind.extension : AssetKind → String
  | .css => "css"
  | .js => "js"

def AssetKind.ofExtension? : String → Option AssetKind
  | "css" => some .css
  | "js" => some .js
  | _ => none

structure Asset where
  name : String
  kind : AssetKind
  contents : String
  /-- Path below the static files, with a slash in front. -/
  file : String
  url : String
deriving DecidableEq, Repr

namespace Asset

/-- `path` below `base`, with one slash between them. -/
def joinUrl (base path : String) : String :=
  Text.trimEnd '/' base ++ "/" ++ Text.trimStart '/' path

/-- The file that content of a kind is written to. -/
def fileName (directory name contents : String) (kind : AssetKind) : String :=
  "/" ++ directory ++ "/" ++ kind.extension ++ "/" ++ Digest.fingerprint name contents ++ "." ++
    kind.extension

/-! ## The record -/

def toJson (asset : Asset) : Json :=
  .object
    [("name", .string asset.name),
     ("kind", .string asset.kind.extension),
     ("contents", .string asset.contents),
     ("outFile", .string asset.file),
     ("url", .string asset.url)]

def ofSyntax? (tree : JsonSyntax) : Option Asset := do
  match ← tree.fields? ["name", "kind", "contents", "outFile", "url"] with
  | [some name, some kind, some contents, some file, some url] =>
      return {
        name := ← name.text?
        kind := ← kind.label?.bind AssetKind.ofExtension?
        contents := ← contents.text?
        file := ← file.text?
        url := ← url.text? }
  | _ => none

/-! ## The store -/

structure Store where
  staticUrl : String
  directory : String
  files : List Asset
deriving DecidableEq, Repr

namespace Store

/-- A store without files for builds with the given configuration. -/
def ofConfig (config : Config) : Store :=
  { staticUrl := config.staticUrl, directory := config.assetDirectory, files := [] }

/-- The asset that content would be stored as. -/
def place (store : Store) (contents name : String) (kind : AssetKind) : Asset :=
  let file := fileName store.directory name contents kind
  { name, kind, contents, file, url := joinUrl store.staticUrl file }

/-- The store with the asset at the end, unless its file is there. -/
def add (store : Store) (asset : Asset) : Store :=
  if store.files.any (fun other => other.file = asset.file) then store
  else { store with files := store.files ++ [asset] }

def unnamed (name : String) : Fault :=
  .asset name "assets need a logical name"

/-- The store with the content in it, and the address it is served from. -/
def register (store : Store) (contents name : String) (kind : AssetKind) :
    Except Fault (Store × String) :=
  if name.isEmpty then .error (unnamed name)
  else
    let asset := store.place contents name kind
    .ok (store.add asset, asset.url)

/-- The address of the first file stored under a name. -/
def lookup? (store : Store) (name : String) : Option String :=
  (store.files.find? fun asset => asset.name = name).map Asset.url

/-- The files among the given addresses, in the order of the store. -/
def used (store : Store) (urls : List String) : List Asset :=
  store.files.filter fun asset => urls.contains asset.url

end Store

end Asset

end Sitewright
