import Linkage.Log.Record

namespace Linkage.Log

/-- What the library reports about its work while it goes on. -/
inductive Event where
  | classResolved (className : String) (layer : Nat)
  | ancestorExcluded (className ancestor : String)
  | ancestorUnresolved (className ancestor : String)
  | inheritanceCycle (root : String) (path : List String)
  | ancestorsCollected (className : String) (unresolved lookups : Nat)
  | problemRegistered (kind description : String)
  | resultHeldBack (reason : String)
  | resultAccepted (subject target : String) (problems : Nat)
  | resultUnignored (subject target : String)
  | classFailed (className error : String)
  | verificationFinished (classes problems : Nat)
  | loggingStarted (level : String) (json : Bool)
deriving DecidableEq, Repr

def Event.record : Event → Record
  | .classResolved c layer =>
    ⟨.trace, "pv.classes", "class resolved", [("class", .quoted c), ("layer", .count layer)]⟩
  | .ancestorExcluded c a =>
    ⟨.trace, "pv.ancestors", "ancestor excluded", [("class", .plain c), ("ancestor", .plain a)]⟩
  | .ancestorUnresolved c a =>
    ⟨.trace, "pv.ancestors", "unresolved ancestor", [("class", .plain c), ("ancestor", .plain a)]⟩
  | .inheritanceCycle root path =>
    ⟨.debug, "pv.ancestors", "inheritance cycle",
      [("root", .quoted root), ("cycle", .plain (Text.quotedList path))]⟩
  | .ancestorsCollected c unresolved lookups =>
    ⟨.debug, "pv.ancestors", "collected unresolved ancestors",
      [("class", .quoted c), ("unresolved", .count unresolved), ("lookups", .count lookups)]⟩
  | .problemRegistered kind description =>
    ⟨.debug, "pv.problems", "problem registered",
      [("kind", .plain kind), ("description", .plain description)]⟩
  | .resultHeldBack reason => ⟨.info, "pv.problems", reason, []⟩
  | .resultAccepted subject target problems =>
    ⟨.info, "pv.problems", "verification has been accepted despite many problems",
      [("subject", .quoted subject), ("verification_target", .quoted target),
        ("problems", .count problems)]⟩
  | .resultUnignored subject target =>
    ⟨.info, "pv.problems", "unignore verification result",
      [("subject", .quoted subject), ("verification_target", .quoted target)]⟩
  | .classFailed c error =>
    ⟨.warn, "pv.verifier", "class check failed", [("class", .quoted c), ("error", .plain error)]⟩
  | .verificationFinished classes problems =>
    ⟨.info, "pv.verifier", "verification finished",
      [("classes", .count classes), ("problems", .count problems)]⟩
  | .loggingStarted level json =>
    ⟨.debug, "pv.config", "tracing initialized", [("level", .plain level), ("json", .flag json)]⟩

end Linkage.Log
