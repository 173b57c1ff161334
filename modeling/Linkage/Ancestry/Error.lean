import Linkage.ClassName

namespace Linkage.Ancestry

/-- Why the ancestors of a class could not be collected. -/
inductive WalkError where
  | notFound (className : ClassName) (resolver : String)
  | cycle (className : ClassName) (path : List ClassName)
  | tooDeep (className : ClassName) (limit : Nat)
deriving DecidableEq, Repr

def WalkError.message : WalkError → String
  | .notFound c r => c ++ " should be found in the resolver " ++ r
  | .cycle c path => "inheritance cycle detected at " ++ c ++ ": " ++ " -> ".intercalate path
  | .tooDeep c limit =>
    "inheritance of " ++ c ++ " is deeper than " ++ toString limit ++ " levels"

end Linkage.Ancestry
