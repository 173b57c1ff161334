import Linkage.Classpath
import Linkage.Log.Event

namespace Linkage

open Log

/-- A type of things that classes are looked up in. -/
class Resolver (P : Type) where
  find? : P → ClassName → Option ClassDescriptor
  describe : P → String
  lookupEvents : P → ClassName → List Event

instance : Resolver Classpath where
  find? := Classpath.find?
  describe := Classpath.describe
  lookupEvents p n :=
    match p.locate n with
    | some (_, positions) => positions.map (.classResolved n)
    | none => []

end Linkage
