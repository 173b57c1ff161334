import Linkage.Text.Quoted

namespace Linkage.Document

/-- Why a part of a document gives no value. -/
inductive Flaw where
  | unreadable
  | malformed
deriving DecidableEq, Repr

/-- A value of a document. A sequence or table with a flaw has the flaw behind what it lists. -/
inductive Node where
  | null
  | boolean (b : Bool)
  | integer (n : Int)
  | float (text : String)
  | string (s : String)
  | sequence (items : List Node) (flaw : Option Flaw)
  | table (fields : List (String × Node)) (flaw : Option Flaw)
  | flawed (f : Flaw)

namespace Node

def describe : Node → String
  | .null => "null"
  | .boolean b => "boolean `" ++ toString b ++ "`"
  | .integer n => "integer `" ++ toString n ++ "`"
  | .float text => "floating point `" ++ text ++ "`"
  | .string s => "string " ++ Text.quoted s
  | .sequence _ _ => "sequence"
  | .table _ _ => "map"
  | .flawed _ => ""

mutual

def flawsAre (ok : Flaw → Bool) : Node → Bool
  | .sequence items f => flawsOfItemsAre ok items && f.all ok
  | .table fields f => flawsOfFieldsAre ok fields && f.all ok
  | .flawed f => ok f
  | .null | .boolean _ | .integer _ | .float _ | .string _ => true
termination_by structural n => n

def flawsOfItemsAre (ok : Flaw → Bool) : List Node → Bool
  | [] => true
  | n :: ns => flawsAre ok n && flawsOfItemsAre ok ns
termination_by structural ns => ns

def flawsOfFieldsAre (ok : Flaw → Bool) : List (String × Node) → Bool
  | [] => true
  | (_, n) :: fs => flawsAre ok n && flawsOfFieldsAre ok fs
termination_by structural fs => fs

end

def isWellFormed (n : Node) : Bool :=
  n.flawsAre (· = .unreadable)

def isReadable (n : Node) : Bool :=
  n.flawsAre fun _ => false

end Node

end Linkage.Document
