import Linkage.NameSet

namespace Linkage.Ancestry

/-- What walks over one classpath have found out so far, the latest first. -/
structure Session where
  memo : List (ClassName × NameSet) := []
  missing : List ClassName := []
  lookups : Nat := 0
deriving DecidableEq

namespace Session

def cached? (s : Session) (n : ClassName) : Option NameSet :=
  s.memo.lookup n

def isMissing (s : Session) (n : ClassName) : Bool :=
  decide (n ∈ s.missing)

def cachedClasses (s : Session) : Nat :=
  s.memo.length

/-- Remember the unresolved ancestors of a class; an entry, once made, is final. -/
def record (s : Session) (n : ClassName) (unresolved : NameSet) : Session :=
  if (s.cached? n).isSome then s else { s with memo := (n, unresolved) :: s.memo }

def recordMissing (s : Session) (n : ClassName) : Session :=
  if s.isMissing n then s else { s with missing := n :: s.missing }

def countLookup (s : Session) : Session :=
  { s with lookups := s.lookups + 1 }

theorem cached?_record_self {s : Session} {n : ClassName} {u : NameSet}
    (h : s.cached? n = none) : (s.record n u).cached? n = some u := by
  simp [record, h]
  simp [cached?]

theorem cached?_record_ne {s : Session} {n m : ClassName} (u : NameSet) (h : m ≠ n) :
    (s.record n u).cached? m = s.cached? m := by
  unfold record
  split
  · rfl
  · have hb : (m == n) = false := by simpa using h
    simp [cached?, List.lookup_cons, hb]

theorem record_of_cached {s : Session} {n : ClassName} (u : NameSet) (h : s.cached? n ≠ none) :
    s.record n u = s := by
  simp only [record, Option.isSome_iff_ne_none.mpr h, ↓reduceIte]

theorem cached?_record_ne_none {s : Session} {n m : ClassName} {u : NameSet} :
    (s.record n u).cached? m ≠ none ↔ m = n ∨ s.cached? m ≠ none := by
  by_cases hm : m = n
  · subst hm
    by_cases hn : s.cached? m = none
    · simp [cached?_record_self hn]
    · simp [record_of_cached u hn, hn]
  · simp [cached?_record_ne u hm, hm]

theorem isMissing_recordMissing {s : Session} {n m : ClassName} :
    (s.recordMissing n).isMissing m = true ↔ m = n ∨ s.isMissing m = true := by
  unfold recordMissing
  split
  · next h =>
    exact ⟨Or.inr, fun h' => h'.elim (fun e => e ▸ h) id⟩
  · simp [isMissing]

@[simp] theorem cached?_recordMissing (s : Session) (n m : ClassName) :
    (s.recordMissing n).cached? m = s.cached? m := by
  unfold recordMissing
  split <;> rfl

@[simp] theorem cached?_countLookup (s : Session) (m : ClassName) :
    s.countLookup.cached? m = s.cached? m := rfl

@[simp] theorem isMissing_countLookup (s : Session) (m : ClassName) :
    s.countLookup.isMissing m = s.isMissing m := rfl

@[simp] theorem isMissing_record (s : Session) (n m : ClassName) (u : NameSet) :
    (s.record n u).isMissing m = s.isMissing m := by
  unfold record
  split <;> rfl

end Session

end Linkage.Ancestry
