import Linkage.ClassName

namespace Linkage

/-- The type relationships that a compiled class declares. -/
structure ClassDescriptor where
  name : ClassName
  superName : Option ClassName := none
  interfaces : List ClassName := []
deriving DecidableEq, Repr

def ClassDescriptor.ancestors (c : ClassDescriptor) : List ClassName :=
  c.superName.toList ++ c.interfaces

end Linkage
