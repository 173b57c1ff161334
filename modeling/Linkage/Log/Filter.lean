import Linkage.Log.Piece
import Linkage.Log.Record

namespace Linkage.Log

structure Filter where
  directives : List Directive := []
  scopes : List ScopedDirective := []
  /-- The most verbose level that was ever asked for. -/
  maxVerbosity : Verbosity := .off
deriving DecidableEq, Repr

namespace Filter

/-- Put a directive in its place; it replaces one of the same target. -/
def place (d : Directive) : List Directive → List Directive
  | [] => [d]
  | e :: es =>
    if d.target = e.target then d :: es
    else if Directive.precedes d.target e.target then d :: e :: es
    else e :: place d es

def add (f : Filter) (d : Directive) : Filter :=
  { f with
    directives := place d f.directives
    maxVerbosity := f.maxVerbosity.max d.verbosity }

def addScoped (f : Filter) (d : ScopedDirective) : Filter :=
  { f with
    scopes := f.scopes.filter (·.scope ≠ d.scope) ++ [d]
    maxVerbosity := f.maxVerbosity.max d.verbosity }

def addPiece (f : Filter) : Piece → Filter
  | .directive d => f.add d
  | .inScope d => f.addScoped d

def ofDirectives (ds : List Directive) : Filter :=
  ds.foldl add {}

def ofPieces (ps : List Piece) : Filter :=
  ps.foldl addPiece {}

def pieces (s : String) : List (List Char) :=
  (Text.pieces ',' s.toList).filter (· ≠ [])

/-- One piece that cannot be read spoils the whole text. -/
def parse? (read : PieceReader) (s : String) : Option Filter :=
  ((pieces s).mapM read).map ofPieces

def ofText (read : PieceReader) (s : String) : Filter :=
  ofPieces ((pieces s).filterMap read)

def text (f : Filter) : String :=
  ",".intercalate (f.directives.map (·.text) ++
    f.scopes.map fun d => d.scope ++ "=" ++ d.verbosity.name)

/-- Outside of all scopes the first directive that speaks of the target decides; without one nothing
passes. -/
def passes (f : Filter) (target : String) (level : Level) : Bool :=
  match f.directives.find? (·.applies target) with
  | some d => d.verbosity.admits level
  | none => false

def admits (f : Filter) (r : Record) : Bool :=
  f.passes r.target r.level

end Filter

end Linkage.Log
