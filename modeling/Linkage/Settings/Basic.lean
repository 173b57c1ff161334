import Linkage.Exclusions
import Linkage.Settings.Logging

namespace Linkage

structure TraversalSettings where
  maxDepth : Nat := 1024
deriving DecidableEq, Repr

structure ReportSettings where
  tooManyProblemsThreshold : Nat := 100
deriving DecidableEq, Repr

/-- What a verification can be told from outside. -/
structure Settings where
  exclusions : Exclusions := {}
  traversal : TraversalSettings := {}
  report : ReportSettings := {}
  logging : LogSettings := {}
deriving DecidableEq, Repr

namespace Settings

def isValid (s : Settings) : Bool :=
  s.traversal.maxDepth ≠ 0

end Settings

end Linkage
