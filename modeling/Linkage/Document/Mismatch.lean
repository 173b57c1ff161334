namespace Linkage.Document

/-- How a well-formed document differs from what was asked for. -/
inductive Mismatch where
  | unknownField (name : String) (known : List String)
  | unknownVariant (name : String) (known : List String)
  | missingField (name : String)
  | duplicateField (name : String)
  | wrongType (found wanted : String)
  | wrongValue (found wanted : String)
  | wrongLength (length : Nat) (wanted : String)
deriving DecidableEq, Repr

def oneOf : List String → String
  | [a] => "`" ++ a ++ "`"
  | [a, b] => "`" ++ a ++ "` or `" ++ b ++ "`"
  | names => "one of " ++ ", ".intercalate (names.map fun n => "`" ++ n ++ "`")

def Mismatch.message : Mismatch → String
  | .unknownField name known => "unknown field `" ++ name ++ "`, expected " ++ oneOf known
  | .unknownVariant name known => "unknown variant `" ++ name ++ "`, expected " ++ oneOf known
  | .missingField name => "missing field `" ++ name ++ "`"
  | .duplicateField name => "duplicate field `" ++ name ++ "`"
  | .wrongType found wanted => "invalid type: " ++ found ++ ", expected " ++ wanted
  | .wrongValue found wanted => "invalid value: " ++ found ++ ", expected " ++ wanted
  | .wrongLength length wanted =>
    "invalid length " ++ toString length ++ ", expected " ++ wanted

inductive ReadError where
  | malformed
  | mismatch (m : Mismatch)
deriving DecidableEq, Repr

def elements (n : Nat) : String :=
  if n = 1 then "1 element" else toString n ++ " elements"

end Linkage.Document
