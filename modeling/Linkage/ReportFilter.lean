import Linkage.ProblemSet

namespace Linkage

open Log

inductive Verdict where
  | report
  | ignore (reason : String)
deriving DecidableEq, Repr

structure ResultKey where
  subject : String
  target : String
deriving DecidableEq, Repr

def ResultKey.before (k l : ResultKey) : Bool :=
  k.subject < l.subject || (k.subject = l.subject && k.target < l.target)

/-- Holds back results with suspiciously many problems until somebody accepts their pair. -/
structure ReportFilter where
  threshold : Nat := 100
  accepted : List ResultKey := []
  ignored : List (ResultKey × String) := []

namespace ReportFilter

def reason? (f : ReportFilter) (k : ResultKey) : Option String :=
  f.ignored.lookup k

def isAccepted (f : ReportFilter) (k : ResultKey) : Bool :=
  decide (k ∈ f.accepted)

def record (k : ResultKey) (reason : String) :
    List (ResultKey × String) → List (ResultKey × String)
  | [] => [(k, reason)]
  | (l, r) :: rest =>
    if k = l then (k, reason) :: rest
    else if k.before l then (k, reason) :: (l, r) :: rest
    else (l, r) :: record k reason rest

def unignore (f : ReportFilter) (k : ResultKey) : Logged ReportFilter := do
  Logged.emit (.resultUnignored k.subject k.target)
  pure { f with
    accepted := if f.isAccepted k then f.accepted else k :: f.accepted
    ignored := f.ignored.filter fun e => e.1 ≠ k }

def tooMany (k : ResultKey) (problems : Nat) : String :=
  "There are too many compatibility problems between " ++ k.subject ++ " and " ++ k.target ++ ": " ++
    toString problems

/-- Decide about one result. A result within the threshold leaves an earlier decision in place. -/
def verdict (f : ReportFilter) (k : ResultKey) (problems : ProblemSet) :
    Logged (Verdict × ReportFilter) :=
  if problems.size ≤ f.threshold then pure (.report, f)
  else if f.isAccepted k then do
    Logged.emit (.resultAccepted k.subject k.target problems.size)
    pure (.report, f)
  else do
    let reason := tooMany k problems.size
    Logged.emit (.resultHeldBack reason)
    pure (.ignore reason, { f with ignored := record k reason f.ignored })

end ReportFilter

end Linkage
