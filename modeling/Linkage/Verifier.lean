import Linkage.Ancestry.Walk
import Linkage.Registrar
import Linkage.Report
import Linkage.ReportFilter
import Linkage.Resolver
import Linkage.Settings.Basic

namespace Linkage

open Log Ancestry

variable {P R : Type} [Resolver P] [Registrar R]

def Resolver.events (p : P) : Note → List Event
  | .lookup n => Resolver.lookupEvents p n
  | .excluded c a => [.ancestorExcluded c a]
  | .unresolved c a => [.ancestorUnresolved c a]
  | .cycle root path => [.inheritanceCycle root path]
  | .collected root unresolved lookups => [.ancestorsCollected root unresolved lookups]

/-- Checks the classes of one unit against a classpath. -/
structure Verifier (P : Type := Classpath) where
  classpath : P
  exclusions : Exclusions := {}
  maxDepth : Nat := 1024
  session : Session := {}

namespace Verifier

def ofSettings (p : P) (s : Settings) : Verifier P where
  classpath := p
  exclusions := s.exclusions
  maxDepth := s.traversal.maxDepth

def rules (v : Verifier P) : Rules where
  find := Resolver.find? v.classpath
  resolver := Resolver.describe v.classpath
  excluded := v.exclusions.excludes
  maxDepth := v.maxDepth

def collect (v : Verifier P) (c : ClassName) : Logged (Except WalkError NameSet × Verifier P) :=
  let found := Ancestry.collect v.rules v.session c
  ⟨(found.outcome, { v with session := found.session }),
    found.notes.flatMap (Resolver.events v.classpath)⟩

def problemOf (c : ClassName) : Problem :=
  .classNotFound ⟨c⟩

/-- Register a problem for every unresolved ancestor of a class, and count them. -/
def check (v : Verifier P) (c : ClassName) (registrar : R) :
    Logged (Except WalkError Nat × R × Verifier P) := do
  match ← v.collect c with
  | (.error e, v) => pure (.error e, registrar, v)
  | (.ok unresolved, v) =>
    let registrar ← (unresolved.toList.map problemOf).foldlM Registrar.register registrar
    pure (.ok unresolved.size, registrar, v)

def verifyFrom (v : Verifier P) (report : Report) :
    List ClassName → Logged (Except WalkError Report × Verifier P)
  | [] => do
    Logged.emit (.verificationFinished report.classesChecked report.problems.size)
    pure (.ok report, v)
  | c :: cs => do
    match ← v.check c report.problems with
    | (.error e, _, v) =>
      Logged.emit (.classFailed c e.message)
      pure (.error e, v)
    | (.ok _, problems, v) => verifyFrom v ⟨report.classesChecked + 1, problems⟩ cs

/-- Check every class; the first one that cannot be checked ends the verification. -/
def verify (v : Verifier P) (cs : List ClassName) : Logged (Except WalkError Report × Verifier P) :=
  v.verifyFrom .empty cs

end Verifier

def Report.verdict (r : Report) (f : ReportFilter) (k : ResultKey) :
    Logged (Verdict × ReportFilter) :=
  f.verdict k r.problems

end Linkage
