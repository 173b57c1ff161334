import Linkage.Log.Filter

namespace Linkage

open Log

/-- How a program that uses the library logs. -/
structure LogSettings where
  level : String := "info"
  json : Bool := false
deriving DecidableEq, Repr

namespace LogSettings

/-- The filter text for one level: the library's targets get it, all others warn. -/
def libraryOnly (v : Verbosity) : String :=
  "warn,pv=" ++ v.name

def level? (s : String) : Option Verbosity :=
  if Text.lower s = "warning" then some .warn else Verbosity.parse? s

/-- The configured filter text. A level on its own is meant for the library's targets only, and no
text at all means the level `info`. -/
def directives (l : LogSettings) : String :=
  let level := Text.trim l.level
  let level := if level = "" then "info" else level
  match level? level with
  | some v => libraryOnly v
  | none => level

def combined (l : LogSettings) (environment : Option String) : String :=
  match environment.map Text.trim with
  | none => l.directives
  | some "" => l.directives
  | some s => l.directives ++ "," ++ s

/-- The filter in force. A text of the environment that cannot be read is left out as a whole, and a
configured text that cannot be read is as good as the level `info`. -/
def filter (l : LogSettings) (environment : Option String)
    (read : PieceReader := Piece.parse?) : Filter :=
  match Filter.parse? read (l.combined environment) with
  | some f => f
  | none =>
    match Filter.parse? read l.directives with
    | some f => f
    | none => Filter.ofText read (libraryOnly .info)

end LogSettings

end Linkage
