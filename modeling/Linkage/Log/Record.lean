import Linkage.Log.Level
import Linkage.Text.Quoted

namespace Linkage.Log

inductive Field where
  | count (n : Nat)
  | flag (b : Bool)
  | plain (s : String)
  | quoted (s : String)
deriving DecidableEq, Repr

structure Record where
  level : Level
  target : String
  message : String
  fields : List (String × Field) := []
deriving DecidableEq, Repr

def Field.text : Field → String
  | .count n => toString n
  | .flag b => toString b
  | .plain s => s
  | .quoted s => Text.quoted s

/-- A record as a line of text: the level in a column of five, the target, the message and the
fields. -/
def Record.line (r : Record) : String :=
  "".pushn ' ' (5 - r.level.name.length) ++ r.level.name ++ " " ++ r.target ++ ": " ++ r.message ++
    String.join (r.fields.map fun f => " " ++ f.1 ++ "=" ++ f.2.text)

end Linkage.Log
