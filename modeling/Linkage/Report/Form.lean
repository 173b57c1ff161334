import Linkage.Problem.Form
import Linkage.Report

namespace Linkage.Report

open Document

def toJson (r : Report) : Json :=
  .object [("classes_checked", .number r.classesChecked), ("problems", r.problems.toJson)]

def rule : RecordRule where
  name := "VerificationReport"
  fields := [.of "classes_checked" readCount, .of "problems" ProblemSet.ofNode]
  sparse := false

def ofNode (source : Source) (n : Node) : Reading Report := do
  let fields ← rule.fieldsOf source n
  let classesChecked ← required fields "classes_checked" readCount
  let problems ← required fields "problems" ProblemSet.ofNode
  pure { classesChecked, problems }

end Linkage.Report
