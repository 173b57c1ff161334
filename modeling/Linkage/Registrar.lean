import Linkage.ProblemSet

namespace Linkage

open Log

/-- A type of things that problems are registered in. -/
class Registrar (R : Type) where
  register : R → Problem → Logged R

instance : Registrar ProblemSet where
  register := ProblemSet.register

instance : Registrar (List Problem) where
  register ps p := pure (ps ++ [p])

namespace Registrar

variable {R : Type} [Registrar R]

def put (registrar : R) (p : Problem) : R :=
  (register registrar p).value

theorem foldl_put_set (s : ProblemSet) (ps : List Problem) :
    ps.foldl put s = ps.foldl ProblemSet.add s := by
  have hput : (put : ProblemSet → Problem → ProblemSet) = ProblemSet.add := by
    funext s p
    exact ProblemSet.value_register s p
  rw [hput]

theorem foldl_put_list (qs ps : List Problem) : ps.foldl put qs = qs ++ ps := by
  induction ps generalizing qs with
  | nil => exact (List.append_nil qs).symm
  | cons p ps ih =>
    rw [List.foldl_cons, ih]
    exact List.append_assoc qs [p] ps

end Registrar

end Linkage
