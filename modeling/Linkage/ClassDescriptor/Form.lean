import Linkage.ClassDescriptor
import Linkage.Document.Read
import Linkage.Json.Value

namespace Linkage.ClassDescriptor

open Document

def toJson (c : ClassDescriptor) : Json :=
  .object [("name", .string c.name),
    ("super_name", match c.superName with
      | some s => .string s
      | none => .null),
    ("interfaces", .strings c.interfaces)]

def rule : RecordRule where
  name := "ClassDescriptor"
  fields := [.of "name" readString, .of "super_name" (readOptional readString),
    .of "interfaces" readStrings]
  sparse := false

def ofNode (source : Source) (n : Node) : Reading ClassDescriptor := do
  let fields ← rule.fieldsOf source n
  let name ← required fields "name" readString
  let superName ← optional fields "super_name" (readOptional readString) none
  let interfaces ← required fields "interfaces" readStrings
  pure { name, superName, interfaces }

end Linkage.ClassDescriptor
