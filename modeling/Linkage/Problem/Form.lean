import Linkage.Document.Read
import Linkage.Json.Value
import Linkage.ProblemSet

namespace Linkage

open Document

def AccessModifier.toJson (a : AccessModifier) : Json := .string a.name

def AccessModifier.ofNode (source : Source) : Node → Reading AccessModifier :=
  readChoice source AccessModifier.all AccessModifier.name

def ProblemKind.toJson (k : ProblemKind) : Json := .string k.name

def ProblemKind.ofNode (source : Source) : Node → Reading ProblemKind :=
  readChoice source ProblemKind.all ProblemKind.name

namespace ClassNotFound

def fields (p : ClassNotFound) : List (String × Json) := [("class_name", .string p.className)]

def rule : RecordRule where
  name := "ClassNotFoundProblem"
  fields := [.of "class_name" readString]
  sparse := false

def ofNode (source : Source) (n : Node) : Reading ClassNotFound := do
  let fields ← rule.fieldsOf source n
  let className ← required fields "class_name" readString
  pure { className }

end ClassNotFound

namespace InvokeInterfaceOnStaticMethod

def fields (p : InvokeInterfaceOnStaticMethod) : List (String × Json) :=
  [("method", .string p.method)]

def rule : RecordRule where
  name := "InvokeInterfaceOnStaticMethodProblem"
  fields := [.of "method" readString]
  sparse := false

def ofNode (source : Source) (n : Node) : Reading InvokeInterfaceOnStaticMethod := do
  let fields ← rule.fieldsOf source n
  let method ← required fields "method" readString
  pure { method }

end InvokeInterfaceOnStaticMethod

namespace IllegalClassAccess

def fields (p : IllegalClassAccess) : List (String × Json) :=
  [("class_name", .string p.className), ("access", p.access.toJson),
    ("accessor", .string p.accessor)]

def rule (source : Source) : RecordRule where
  name := "IllegalClassAccessProblem"
  fields := [.of "class_name" readString, .of "access" (AccessModifier.ofNode source),
    .of "accessor" readString]
  sparse := false

def ofNode (source : Source) (n : Node) : Reading IllegalClassAccess := do
  let fields ← (rule source).fieldsOf source n
  let className ← required fields "class_name" readString
  let access ← required fields "access" (AccessModifier.ofNode source)
  let accessor ← required fields "accessor" readString
  pure { className, access, accessor }

end IllegalClassAccess

namespace Problem

def fields : Problem → List (String × Json)
  | .classNotFound p => p.fields
  | .invokeInterfaceOnStaticMethod p => p.fields
  | .illegalClassAccess p => p.fields

def toJson (p : Problem) : Json :=
  .object (("kind", p.kind.toJson) :: p.fields)

def readKind : Node → Reading ProblemKind
  | .string s => readNamed ProblemKind.all ProblemKind.name s
  | n => .error (n.unlike "variant identifier")

def splitKind (kind : Option ProblemKind) (kept : List (String × Node)) :
    List (String × Node) → Reading (Option ProblemKind × List (String × Node))
  | [] => .ok (kind, kept.reverse)
  | (name, n) :: rest =>
    if name = "kind" then
      if kind.isSome then .error (.mismatch (.duplicateField "kind"))
      else do splitKind (some (← readKind n)) kept rest
    else if n.isReadable then splitKind kind ((name, n) :: kept) rest
    else .error .malformed

def ofKind (kind : ProblemKind) (n : Node) : Reading Problem :=
  match kind with
  | .classNotFound => .classNotFound <$> ClassNotFound.ofNode .kept n
  | .invokeInterfaceOnStaticMethod =>
    .invokeInterfaceOnStaticMethod <$> InvokeInterfaceOnStaticMethod.ofNode .kept n
  | .illegalClassAccess => .illegalClassAccess <$> IllegalClassAccess.ofNode .kept n

/-- A problem from its written form, a table with the kind among its fields or an array with the kind
in front of them. The kind is looked at first, the fields when everything has been gone through. -/
def ofNode : Node → Reading Problem
  | .table fields flaw => do
    let (kind, kept) ← splitKind none [] fields
    closed flaw
    match kind with
    | some kind => ofKind kind (.table kept none)
    | none => .error (.mismatch (.missingField "kind"))
  | .sequence [] flaw => do
    closed flaw
    .error (.mismatch (.missingField "kind"))
  | .sequence (first :: rest) flaw => do
    let kind ← readKind first
    if rest.all (·.isReadable) then do
      closed flaw
      ofKind kind (.sequence rest none)
    else .error .malformed
  | n => .error (n.unlike "internally tagged enum Problem")

end Problem

namespace ProblemSet

def toJson (s : ProblemSet) : Json :=
  .array (s.toList.map Problem.toJson)

def ofNode (n : Node) : Reading ProblemSet :=
  collect <$> readList "a set" Problem.ofNode n

end ProblemSet

end Linkage
