import Linkage.Log.Directive
import Linkage.Text.Alphanumeric
import Linkage.Text.Blank

namespace Linkage.Log

/-- A level for the records of some spans, or those with some fields. -/
structure ScopedDirective where
  scope : String
  verbosity : Verbosity
deriving DecidableEq, Repr

/-- What stands between two commas of a filter text. -/
inductive Piece where
  | directive (d : Directive)
  | inScope (d : ScopedDirective)
deriving DecidableEq, Repr

abbrev PieceReader := List Char → Option Piece

namespace Piece

def directive? : Piece → Option Directive
  | .directive d => some d
  | .inScope _ => none

def isStart (c : Char) : Bool :=
  c = '-' || c = ':' || c = '_' || Text.isAlphanumeric c

/-- A pattern for the value of a field that no operator stands in. -/
def isPlainPattern (cs : List Char) : Bool :=
  cs.all fun c => !"\\+*?()|[]\x7b\x7d^$".toList.contains c

/-- What is behind a scope, if there is one: a span, fields between braces behind it, and the
closing bracket. -/
def behindScope? (cs : List Char) : Option (List Char) :=
  match cs.dropWhile fun c => c ≠ ']' && c ≠ '\x7b' with
  | [] => none
  | ']' :: rest => some rest
  | _ :: fields =>
    let field := fields.takeWhile (· ≠ '\x7d')
    let value := ((field.dropWhile (· ≠ '=')).drop 1).takeWhile (· ≠ '=')
    match fields.dropWhile (· ≠ '\x7d') with
    | _ :: ']' :: rest => if field ≠ [] && isPlainPattern value then some rest else none
    | _ => none

def level? (cs : List Char) : Option Verbosity :=
  if cs = [] then some .trace else Verbosity.parse? (String.ofList cs)

/-- Without an equals sign a piece is a level for all targets, or else a target or a scope at the
highest level; with one, the level follows it. Blanks are part of what they stand next to, and a
piece with an equals sign may not have any at its ends. -/
def parse? : PieceReader := fun piece =>
  let text := Text.strip piece
  match text with
  | [] => none
  | c :: _ =>
    if !isStart c && c ≠ '[' then none
    else match text.dropWhile fun c => c ≠ '=' && c ≠ '[' with
      | [] =>
        -- what reads as a level is one, and anything else a target
        match Verbosity.parse? (String.ofList piece) with
        | some v => some (.directive ⟨none, v⟩)
        | none => some (.directive ⟨some (String.ofList piece), .trace⟩)
      | '=' :: level =>
        if piece = text then
          let target := String.ofList (text.takeWhile (· ≠ '='))
          (level? level).map fun v => .directive ⟨some target, v⟩
        else none
      | _ :: scope =>
        match behindScope? scope with
        | some [] => some (.inScope ⟨String.ofList text, .trace⟩)
        | some ('=' :: level) =>
          if piece = text then
            (level? level).map fun v =>
              .inScope ⟨String.ofList (text.take (text.length - level.length - 1)), v⟩
          else none
        | _ => none

end Piece

end Linkage.Log
