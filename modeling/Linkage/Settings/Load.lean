import Linkage.Settings.Form
import Linkage.Toml.Parse

namespace Linkage

open Document

inductive FileError where
  | notFound
  | isFolder
  | notFolder
  | notText
deriving DecidableEq, Repr

def FileError.message : FileError → String
  | .notFound => "No such file or directory (os error 2)"
  | .isFolder => "Is a directory (os error 21)"
  | .notFolder => "Not a directory (os error 20)"
  | .notText => "stream did not contain valid UTF-8"

/-- Why there are no settings. -/
inductive SettingsError where
  | unparsable
  | mismatch (m : Mismatch)
  | zeroDepth
  | file (path : String) (e : FileError)
deriving DecidableEq, Repr

def SettingsError.message : SettingsError → String
  | .unparsable => "failed to parse toml config"
  | .mismatch m => "failed to parse toml config: " ++ m.message
  | .zeroDepth => "invalid config: traversal.max_depth must be >= 1"
  | .file path e => "failed to read config file " ++ path ++ ": " ++ e.message

def ofToml {α : Type} (read : Node → Reading α) (text : String) : Except SettingsError α :=
  match Toml.parse text with
  | none => .error .unparsable
  | some v =>
    match read v.node with
    | .ok a => .ok a
    | .error .malformed => .error .unparsable
    | .error (.mismatch m) => .error (.mismatch m)

namespace Exclusions

def ofText (text : String) : Except SettingsError Exclusions :=
  ofToml (ofNode .toml) text

end Exclusions

namespace Settings

def validate (s : Settings) : Except SettingsError Unit :=
  if s.isValid then .ok () else .error .zeroDepth

def ofText (text : String) : Except SettingsError Settings := do
  let s ← ofToml (ofNode .toml) text
  s.validate
  pure s

end Settings

end Linkage
