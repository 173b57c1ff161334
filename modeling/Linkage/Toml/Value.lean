import Linkage.Document.Node

namespace Linkage.Toml

inductive Value where
  | string (s : String)
  | integer (n : Int)
  | float (text : String)
  | boolean (b : Bool)
  | dateTime (text : String)
  | array (items : List Value)
  | table (fields : List (String × Value))

open Document in
mutual

/-- A value as a node. A date or time is a table with one field of its own. -/
def Value.node : Value → Node
  | .string s => .string s
  | .integer n => .integer n
  | .float text => .float text
  | .boolean b => .boolean b
  | .dateTime text => .table [("$__toml_private_datetime", .string text)] none
  | .array items => .sequence (itemNodes items) none
  | .table fields => .table (fieldNodes fields) none
termination_by structural v => v

def itemNodes : List Value → List Node
  | [] => []
  | v :: vs => v.node :: itemNodes vs
termination_by structural vs => vs

def fieldNodes : List (String × Value) → List (String × Node)
  | [] => []
  | (k, v) :: fs => (k, v.node) :: fieldNodes fs
termination_by structural fs => fs

end

end Linkage.Toml
