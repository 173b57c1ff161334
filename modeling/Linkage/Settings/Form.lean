import Linkage.Exclusions.Form
import Linkage.Settings.Basic

namespace Linkage

open Document

namespace TraversalSettings

def toJson (t : TraversalSettings) : Json :=
  .object [("max_depth", .number t.maxDepth)]

def rule : RecordRule where
  name := "TraversalConfig"
  fields := [.of "max_depth" readCount]
  sparse := true

def ofNode (source : Source) (n : Node) : Reading TraversalSettings := do
  let fields ← rule.fieldsOf source n
  let maxDepth ← optional fields "max_depth" readCount 1024
  pure { maxDepth }

end TraversalSettings

namespace ReportSettings

def toJson (r : ReportSettings) : Json :=
  .object [("too_many_problems_threshold", .number r.tooManyProblemsThreshold)]

def rule : RecordRule where
  name := "ReportConfig"
  fields := [.of "too_many_problems_threshold" readCount]
  sparse := true

def ofNode (source : Source) (n : Node) : Reading ReportSettings := do
  let fields ← rule.fieldsOf source n
  let threshold ← optional fields "too_many_problems_threshold" readCount 100
  pure { tooManyProblemsThreshold := threshold }

end ReportSettings

namespace LogSettings

def toJson (l : LogSettings) : Json :=
  .object [("level", .string l.level), ("json", .boolean l.json)]

def rule : RecordRule where
  name := "LoggingConfig"
  fields := [.of "level" readString, .of "json" readBoolean]
  sparse := true

def ofNode (source : Source) (n : Node) : Reading LogSettings := do
  let fields ← rule.fieldsOf source n
  let level ← optional fields "level" readString "info"
  let json ← optional fields "json" readBoolean false
  pure { level, json }

end LogSettings

namespace Settings

def toJson (s : Settings) : Json :=
  .object [("exclusions", s.exclusions.toJson), ("traversal", s.traversal.toJson),
    ("report", s.report.toJson), ("logging", s.logging.toJson)]

def rule (source : Source) : RecordRule where
  name := "VerifierConfig"
  fields := [.of "exclusions" (Exclusions.ofNode source),
    .of "traversal" (TraversalSettings.ofNode source),
    .of "report" (ReportSettings.ofNode source),
    .of "logging" (LogSettings.ofNode source)]
  sparse := true

def ofNode (source : Source) (n : Node) : Reading Settings := do
  let fields ← (rule source).fieldsOf source n
  let exclusions ← optional fields "exclusions" (Exclusions.ofNode source) {}
  let traversal ← optional fields "traversal" (TraversalSettings.ofNode source) {}
  let report ← optional fields "report" (ReportSettings.ofNode source) {}
  let logging ← optional fields "logging" (LogSettings.ofNode source) {}
  pure { exclusions, traversal, report, logging }

end Settings

end Linkage
