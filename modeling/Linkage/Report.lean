import Linkage.ProblemSet

namespace Linkage

/-- What a verification of several classes found. -/
structure Report where
  classesChecked : Nat := 0
  problems : ProblemSet := .empty

namespace Report

def empty : Report := {}

def sameAs (r s : Report) : Bool :=
  r.classesChecked = s.classesChecked && r.problems.sameProblems s.problems

end Report

end Linkage
