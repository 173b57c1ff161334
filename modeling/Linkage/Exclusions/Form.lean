import Linkage.Document.Read
import Linkage.Exclusions
import Linkage.Json.Value

namespace Linkage.Exclusions

open Document

def toJson (e : Exclusions) : Json :=
  .object [("packages", .strings e.packages), ("classes", .strings e.classes)]

def rule : RecordRule where
  name := "ExclusionEntries"
  fields := [.of "packages" readStrings, .of "classes" readStrings]
  sparse := true

def ofNode (source : Source) (n : Node) : Reading Exclusions := do
  let fields ← rule.fieldsOf source n
  let packages ← optional fields "packages" readStrings []
  let classes ← optional fields "classes" readStrings []
  pure (ofEntries packages classes)

end Linkage.Exclusions
