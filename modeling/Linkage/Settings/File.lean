import Linkage.Settings.Load
import Linkage.Text.Blank

namespace Linkage

inductive FileEntry where
  | folder (entries : List (String × FileEntry))
  | file (bytes : ByteArray)

namespace FileEntry

/-- Follow the parts of a path. Outside the folders that are known, everything is empty. -/
def follow (here : FileEntry) (above : List FileEntry) : List String → Except FileError FileEntry
  | [] => .ok here
  | part :: parts =>
    match here with
    | .file _ => .error .notFolder
    | .folder entries =>
      if part = "" || part = "." then follow here above parts
      else if part = ".." then
        match above with
        | [] => follow (.folder []) [] parts
        | parent :: above => follow parent above parts
      else match entries.lookup part with
        | none => .error .notFound
        | some e => follow e (here :: above) parts

def find (here : FileEntry) (path : String) : Except FileError FileEntry :=
  match (Text.pieces '/' path.toList).map String.ofList with
  | [""] => .error .notFound
  | "" :: parts => follow (.folder []) [] parts
  | parts => follow here [] parts

def readText (here : FileEntry) (path : String) : Except FileError String := do
  match ← here.find path with
  | .folder _ => .error .isFolder
  | .file bytes =>
    match String.fromUTF8? bytes with
    | some s => .ok s
    | none => .error .notText

end FileEntry

def Settings.ofFile (here : FileEntry) (path : String) : Except SettingsError Settings :=
  match here.readText path with
  | .ok text => Settings.ofText text
  | .error e => .error (.file path e)

end Linkage
