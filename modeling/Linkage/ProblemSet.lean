import Linkage.Log.Logged
import Linkage.Problem

namespace Linkage

open Log

/-- Problems in the order in which they came, each identity once. -/
structure ProblemSet where
  toList : List Problem := []
  distinct : toList.Pairwise (fun p q => p.identity ≠ q.identity) := by simp

namespace ProblemSet

def empty : ProblemSet := {}

def size (s : ProblemSet) : Nat := s.toList.length

def contains (s : ProblemSet) (p : Problem) : Bool :=
  s.toList.any fun q => q.identity = p.identity

def ofKind (s : ProblemSet) (k : ProblemKind) : List Problem :=
  s.toList.filter fun p => p.kind = k

theorem contains_iff {s : ProblemSet} {p : Problem} :
    s.contains p = true ↔ ∃ q ∈ s.toList, q.identity = p.identity := by
  simp [contains]

def add (s : ProblemSet) (p : Problem) : ProblemSet :=
  if h : s.contains p then s
  else
    { toList := s.toList ++ [p]
      distinct := by
        refine List.pairwise_append.2 ⟨s.distinct, List.pairwise_singleton _ _, fun q hq r hr he => ?_⟩
        rw [List.mem_singleton.1 hr] at he
        exact h (contains_iff.2 ⟨q, hq, he⟩) }

def insert (s : ProblemSet) (p : Problem) : Logged (Bool × ProblemSet) :=
  if s.contains p then pure (false, s)
  else do
    Logged.emit (.problemRegistered p.kind.name p.description)
    pure (true, s.add p)

def register (s : ProblemSet) (p : Problem) : Logged ProblemSet := do
  let (_, s) ← s.insert p
  pure s

def ofList (ps : List Problem) : Logged ProblemSet :=
  ps.foldlM register empty

def collect (ps : List Problem) : ProblemSet :=
  ps.foldl add empty

/-- Sets are equal if they hold the same identities, in whatever order. -/
def sameProblems (s t : ProblemSet) : Bool :=
  s.size = t.size && s.toList.all t.contains

theorem value_insert (s : ProblemSet) (p : Problem) :
    (s.insert p).value = (!s.contains p, s.add p) := by
  unfold insert
  split
  · next h => simp [h, add]
  · next h => simp [h]

theorem value_register (s : ProblemSet) (p : Problem) : (s.register p).value = s.add p := by
  simp [register, value_insert]

theorem contains_add {s : ProblemSet} {p q : Problem} :
    (s.add p).contains q = true ↔ s.contains q = true ∨ p.identity = q.identity := by
  unfold add
  split
  · next h =>
    obtain ⟨p', hp', he⟩ := contains_iff.1 h
    exact ⟨.inl, fun h' => h'.elim id fun hq => contains_iff.2 ⟨p', hp', he.trans hq⟩⟩
  · simp only [contains, List.any_append, List.any_cons, List.any_nil, Bool.or_false,
      Bool.or_eq_true, decide_eq_true_eq]

theorem contains_foldl_add {s : ProblemSet} {ps : List Problem} {q : Problem} :
    (ps.foldl add s).contains q = true ↔
      s.contains q = true ∨ ∃ p ∈ ps, p.identity = q.identity := by
  induction ps generalizing s with
  | nil => simp
  | cons p ps ih =>
    rw [List.foldl_cons, ih, contains_add, or_assoc]
    simp only [List.mem_cons, exists_eq_or_imp]

end ProblemSet

end Linkage
