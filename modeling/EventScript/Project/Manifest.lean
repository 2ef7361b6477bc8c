import EventScript.Files.Tree
import EventScript.Text.Utf8
import EventScript.Toml.Document

/-! Project manifests: the name and version of a project, and where its scripts are. -/

namespace EventScript

/-- The configuration of a project. Its name and version are whatever the manifest
says, of any type. -/
structure Manifest where
  name : Toml.Value
  version : Toml.Value
  root : Path
  scriptPaths : List String
  extension : String
deriving Repr

inductive ManifestFault where
  | unreadable (fault : FileFault)
  | notUtf8 (malformed : Text.Utf8.Malformed)
  | invalidToml
  | integerTooLong (digits : Nat)
  | notTable (found : Toml.Value)
  | pathsNotTexts
  | extensionNotText
deriving Repr

namespace ManifestFault

/-- Whether the fault is one that manifests are refused with. The others are faults of
the file, integers of too many digits, and values that are taken for tables. -/
def isRefusal : ManifestFault → Bool
  | .invalidToml | .pathsNotTexts | .extensionNotText => true
  | .unreadable _ | .notUtf8 _ | .integerTooLong _ | .notTable _ => false

def message (fault : ManifestFault) (path : Path) : String :=
  match fault with
  | .unreadable fault => fault.message path
  | .notUtf8 malformed => malformed.message
  | .invalidToml => path.text ++ ": invalid TOML"
  | .integerTooLong digits =>
      path.text ++ ": an integer of " ++ Text.Decimal.textOfNat digits ++ " digits"
  | .notTable _ => path.text ++ ": not a table"
  | .pathsNotTexts => path.text ++ ": [scripts] paths must be a list of strings"
  | .extensionNotText => path.text ++ ": [scripts] extension must be a string"

end ManifestFault

namespace Toml

def Value.get? (value : Value) (key : String) : Except ManifestFault (Option Value) :=
  match value with
  | .table entries => .ok (entries.lookup key)
  | other => .error (.notTable other)

def Value.texts? : Value → Option (List String)
  | .array items => items.mapM fun item =>
      match item with
      | .text value => some value
      | _ => none
  | _ => none

end Toml

def FileTree.readToml (tree : FileTree) (directory : Place) (path : Path) :
    Except ManifestFault Toml.Table := do
  let content ← (tree.read directory path).mapError .unreadable
  let text ← (Text.Utf8.decode content).mapError .notUtf8
  match Toml.read (Text.withLineFeeds text.toList) with
  | .ok table => .ok table
  | .error .malformed => .error .invalidToml
  | .error (.integerTooLong digits) => .error (.integerTooLong digits)

namespace Manifest

def fileName : String := "pakscript.toml"

def defaultScriptPaths : List String := ["scripts/"]

def defaultExtension : String := ".script"

def defaultVersion : String := "0.0.0"

def withDot (extension : String) : String :=
  if extension.toList.head? = some '.' then extension else "." ++ extension

def scriptPathsOf (scripts : Toml.Value) : Except ManifestFault (List String) := do
  match ← scripts.get? "paths" with
  | none => .ok defaultScriptPaths
  | some value =>
      match value.texts? with
      | some paths => .ok paths
      | none => .error .pathsNotTexts

def extensionOf (scripts : Toml.Value) : Except ManifestFault String := do
  match ← scripts.get? "extension" with
  | none => .ok defaultExtension
  | some (.text value) => .ok (withDot value)
  | some _ => .error .extensionNotText

/-- A project without a name is named for the directory it lies in. -/
def ofTable (path : Path) (table : Toml.Table) : Except ManifestFault Manifest := do
  let project := (table.lookup "project").getD (.table [])
  let scripts := (table.lookup "scripts").getD (.table [])
  let scriptPaths ← scriptPathsOf scripts
  let extension ← extensionOf scripts
  let name ← project.get? "name"
  let version ← project.get? "version"
  return {
    name := name.getD (.text path.parent.name)
    version := version.getD (.text defaultVersion)
    root := path.parent
    scriptPaths := scriptPaths
    extension := extension }

def load (tree : FileTree) (directory : Place) (path : Path) : Except ManifestFault Manifest := do
  ofTable path (← tree.readToml directory path)

end Manifest

end EventScript
