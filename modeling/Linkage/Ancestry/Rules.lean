import Linkage.Ancestry.Session
import Linkage.ClassDescriptor

namespace Linkage.Ancestry

/-- What a walk is held to: where classes are found, which names it leaves alone, and how many
classes may lie on the way from the first class to the deepest one. -/
structure Rules where
  find : ClassName → Option ClassDescriptor
  resolver : String
  excluded : ClassName → Bool
  maxDepth : Nat := 1024

/-- What a walk did, as far as others can see it. -/
inductive Note where
  | lookup (className : ClassName)
  | excluded (className ancestor : ClassName)
  | unresolved (className ancestor : ClassName)
  | cycle (root : ClassName) (path : List ClassName)
  | collected (root : ClassName) (unresolved lookups : Nat)
deriving DecidableEq, Repr

def Session.consult (find : ClassName → Option ClassDescriptor) (s : Session) (n : ClassName) :
    Option ClassDescriptor × Session × List Note :=
  if s.isMissing n then (none, s, [])
  else match find n with
    | none => (none, s.countLookup.recordMissing n, [.lookup n])
    | some c => (some c, s.countLookup, [.lookup n])

namespace Session

variable {find : ClassName → Option ClassDescriptor} {s s' : Session} {n : ClassName}
  {notes : List Note}

theorem consult_some {c : ClassDescriptor} (h : s.consult find n = (some c, s', notes)) :
    s.isMissing n = false ∧ find n = some c ∧ s' = s.countLookup ∧ notes = [.lookup n] := by
  unfold consult at h
  split at h
  · cases h
  · next hm =>
    split at h
    · cases h
    · next hf =>
      cases h
      exact ⟨by simpa using hm, hf, rfl, rfl⟩

theorem consult_none (h : s.consult find n = (none, s', notes)) :
    (s.isMissing n = true ∧ s' = s ∧ notes = []) ∨
      (s.isMissing n = false ∧ find n = none ∧ s' = s.countLookup.recordMissing n ∧
        notes = [.lookup n]) := by
  unfold consult at h
  split at h
  · next hm =>
    cases h
    exact .inl ⟨hm, rfl, rfl⟩
  · next hm =>
    split at h
    · next hf =>
      cases h
      exact .inr ⟨by simpa using hm, hf, rfl, rfl⟩
    · cases h

end Session

end Linkage.Ancestry
