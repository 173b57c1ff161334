import Linkage.Document.Mismatch
import Linkage.Document.Node

namespace Linkage.Document

/-- Where a value stands. The difference shows where an array gives a record too many elements and
where a choice between names is not written as a name. -/
inductive Source where
  | toml
  | json
  | kept
deriving DecidableEq, Repr

abbrev Reading (α : Type) := Except ReadError α

def Node.unlike (n : Node) (wanted : String) : ReadError :=
  match n with
  | .flawed _ => .malformed
  | n => .mismatch (.wrongType n.describe wanted)

def readString : Node → Reading String
  | .string s => .ok s
  | n => .error (n.unlike "a string")

def readBoolean : Node → Reading Bool
  | .boolean b => .ok b
  | n => .error (n.unlike "a boolean")

def readCount : Node → Reading Nat
  | .integer n =>
    if n < 0 then .error (.mismatch (.wrongValue (Node.integer n).describe "usize")) else .ok n.toNat
  | n => .error (n.unlike "usize")

def closed (flaw : Option Flaw) : Reading Unit :=
  match flaw with
  | none => .ok ()
  | some _ => .error .malformed

def readList {α : Type} (wanted : String) (item : Node → Reading α) : Node → Reading (List α)
  | .sequence items flaw => do
    let found ← items.mapM item
    closed flaw
    pure found
  | n => .error (n.unlike wanted)

def readStrings : Node → Reading (List String) :=
  readList "a sequence" readString

def readOptional {α : Type} (value : Node → Reading α) : Node → Reading (Option α)
  | .null => .ok none
  | n => some <$> value n

structure FieldRule where
  name : String
  check : Node → Reading Unit

def FieldRule.of {α : Type} (name : String) (read : Node → Reading α) : FieldRule :=
  ⟨name, fun n => do let _ ← read n⟩

/-- How a record is written, as a table or as an array of its fields in order. -/
structure RecordRule where
  name : String
  fields : List FieldRule
  sparse : Bool

namespace RecordRule

def names (r : RecordRule) : List String :=
  r.fields.map (·.name)

def checkFields (r : RecordRule) (seen : List String) : List (String × Node) → Reading Unit
  | [] => .ok ()
  | (name, n) :: rest =>
    match r.fields.find? (·.name = name) with
    | some f =>
      if name ∈ seen then .error (.mismatch (.duplicateField name))
      else do
        f.check n
        r.checkFields (name :: seen) rest
    | none =>
      if r.sparse then .error (.mismatch (.unknownField name r.names))
      else if n.isWellFormed then r.checkFields seen rest
      else .error .malformed

def checkItems : List FieldRule → List Node → Reading Unit
  | f :: fs, n :: ns => do
    f.check n
    checkItems fs ns
  | _, _ => .ok ()

def checkLength (r : RecordRule) (source : Source) (length : Nat) (flaw : Option Flaw) :
    Reading Unit :=
  if length ≤ r.fields.length then do
    closed flaw
    if length < r.fields.length && !r.sparse then
      .error (.mismatch
        (.wrongLength length ("struct " ++ r.name ++ " with " ++ elements r.fields.length)))
  else match source with
    | .toml => .ok ()
    | .json => .error .malformed
    | .kept => .error (.mismatch
        (.wrongLength length (elements r.fields.length ++ " in sequence")))

def fieldsOf (r : RecordRule) (source : Source) : Node → Reading (List (String × Node))
  | .table fields flaw => do
    r.checkFields [] fields
    closed flaw
    pure fields
  | .sequence items flaw => do
    checkItems r.fields items
    r.checkLength source items.length flaw
    pure (r.names.zip items)
  | n => .error (n.unlike ("struct " ++ r.name))

end RecordRule

def required {α : Type} (fields : List (String × Node)) (name : String) (read : Node → Reading α) :
    Reading α :=
  match fields.lookup name with
  | some n => read n
  | none => .error (.mismatch (.missingField name))

def optional {α : Type} (fields : List (String × Node)) (name : String) (read : Node → Reading α)
    (default : α) : Reading α :=
  match fields.lookup name with
  | some n => read n
  | none => .ok default

def readNamed {α : Type} (values : List α) (name : α → String) (s : String) : Reading α :=
  match values.find? (name · = s) with
  | some v => .ok v
  | none => .error (.mismatch (.unknownVariant s (values.map name)))

def readNothing (source : Source) : Node → Reading Unit
  | .null => .ok ()
  | .table fields flaw =>
    if source = .kept && fields.isEmpty then closed flaw
    else .error ((Node.table fields flaw).unlike "unit")
  | n => .error (n.unlike "unit")

def readChoice {α : Type} (source : Source) (values : List α) (name : α → String) :
    Node → Reading α
  | .string s => readNamed values name s
  | .table fields flaw =>
    match source, fields with
    | .json, [] => .error .malformed
    | .json, (s, n) :: rest => do
      let v ← readNamed values name s
      readNothing source n
      if rest.isEmpty then closed flaw else .error .malformed
      pure v
    | _, [(s, n)] => do
      let v ← readNamed values name s
      readNothing source n
      closed flaw
      pure v
    | _, _ => .error (.mismatch (.wrongValue "map" "map with a single key"))
  | n => .error (if source = .json then .malformed else n.unlike "string or map")

/-- A text taken apart: one value, and whether something stands behind it. -/
structure Parsed where
  root : Node
  trailing : Bool := false

def Parsed.read {α : Type} (p : Parsed) (value : Node → Reading α) : Reading α := do
  let v ← value p.root
  if p.trailing then .error .malformed
  pure v

end Linkage.Document
