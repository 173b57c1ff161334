import Linkage.Log.Event
import Linkage.Settings.Logging

namespace Linkage.Log

structure Output where
  filter : Filter
  json : Bool

/-- Start logging. Only the first settings count, and the first thing logged is what they are. -/
def Output.start (settings : List LogSettings) (environment : Option String)
    (read : PieceReader := Piece.parse?) : Option (Output × Event) :=
  settings.head?.map fun l => (⟨l.filter environment read, l.json⟩, .loggingStarted l.level l.json)

def Output.select (o : Output) (rs : List Record) : List Record :=
  rs.filter o.filter.admits

def withoutReturn (cs : List Char) : List Char :=
  if cs.getLast? = some '\r' then cs.dropLast else cs

def Record.lines (r : Record) : List String :=
  (Text.pieces '\n' r.line.toList).map fun cs => String.ofList (withoutReturn cs)

end Linkage.Log
