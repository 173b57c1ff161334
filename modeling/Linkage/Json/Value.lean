import Linkage.Document.Node
import Linkage.Text.Quoted

namespace Linkage

inductive Json where
  | null
  | boolean (b : Bool)
  | number (n : Nat)
  | string (s : String)
  | array (items : List Json)
  | object (fields : List (String × Json))

namespace Json

def escaped (c : Char) : List Char :=
  if c = '"' ∨ c = '\\' then ['\\', c]
  else if c = '\x08' then ['\\', 'b']
  else if c = '\t' then ['\\', 't']
  else if c = '\n' then ['\\', 'n']
  else if c = '\x0c' then ['\\', 'f']
  else if c = '\r' then ['\\', 'r']
  else if c.toNat < 0x20 then
    ['\\', 'u', '0', '0', Nat.digitChar (c.toNat / 16), Nat.digitChar (c.toNat % 16)]
  else [c]

def stringChars (s : String) : List Char :=
  '"' :: s.toList.flatMap escaped ++ ['"']

mutual

def chars : Json → List Char
  | .null => "null".toList
  | .boolean b => (if b then "true" else "false").toList
  | .number n => (toString n).toList
  | .string s => stringChars s
  | .array items => '[' :: itemChars items ++ [']']
  | .object fields => '\x7b' :: fieldChars fields ++ ['\x7d']
termination_by structural j => j

def itemChars : List Json → List Char
  | [] => []
  | j :: js => chars j ++ (if js.isEmpty then [] else ',' :: itemChars js)
termination_by structural js => js

def fieldChars : List (String × Json) → List Char
  | [] => []
  | (k, j) :: fs =>
    stringChars k ++ ':' :: chars j ++ (if fs.isEmpty then [] else ',' :: fieldChars fs)
termination_by structural fs => fs

end

def render (j : Json) : String :=
  String.ofList j.chars

def strings (ss : List String) : Json :=
  .array (ss.map .string)

open Document in
mutual

/-- What is read where a value was written. -/
def node : Json → Node
  | .null => .null
  | .boolean b => .boolean b
  | .number n => .integer n
  | .string s => .string s
  | .array items => .sequence (itemNodes items) none
  | .object fields => .table (fieldNodes fields) none
termination_by structural j => j

def itemNodes : List Json → List Node
  | [] => []
  | j :: js => node j :: itemNodes js
termination_by structural js => js

def fieldNodes : List (String × Json) → List (String × Node)
  | [] => []
  | (k, j) :: fs => (k, node j) :: fieldNodes fs
termination_by structural fs => fs

end

end Json

end Linkage
