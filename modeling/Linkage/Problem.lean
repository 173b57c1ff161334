import Linkage.ClassName

namespace Linkage

inductive AccessModifier where
  | privateAccess | protectedAccess | packagePrivate
deriving DecidableEq, Repr

namespace AccessModifier

def name : AccessModifier → String
  | .privateAccess => "private"
  | .protectedAccess => "protected"
  | .packagePrivate => "package-private"

def all : List AccessModifier := [.privateAccess, .protectedAccess, .packagePrivate]

end AccessModifier

inductive ProblemKind where
  | classNotFound | invokeInterfaceOnStaticMethod | illegalClassAccess
deriving DecidableEq, Repr, Hashable

namespace ProblemKind

def name : ProblemKind → String
  | .classNotFound => "class_not_found"
  | .invokeInterfaceOnStaticMethod => "invoke_interface_on_static_method"
  | .illegalClassAccess => "illegal_class_access"

def all : List ProblemKind := [.classNotFound, .invokeInterfaceOnStaticMethod, .illegalClassAccess]

def rank : ProblemKind → Nat
  | .classNotFound => 0
  | .invokeInterfaceOnStaticMethod => 1
  | .illegalClassAccess => 2

instance : Ord ProblemKind := ⟨fun k l => compare k.rank l.rank⟩

end ProblemKind

structure ClassNotFound where
  className : ClassName
deriving DecidableEq, Repr

structure InvokeInterfaceOnStaticMethod where
  method : String
deriving DecidableEq, Repr

structure IllegalClassAccess where
  className : ClassName
  access : AccessModifier
  accessor : ClassName
deriving DecidableEq, Repr

def ClassNotFound.description (p : ClassNotFound) : String :=
  "access to unresolved class " ++ p.className

def ClassNotFound.shortDescription (p : ClassNotFound) : String :=
  "Access to unresolved class " ++ p.className.toSource

def InvokeInterfaceOnStaticMethod.description (p : InvokeInterfaceOnStaticMethod) : String :=
  "attempt to perform an interface-dispatch invocation on a method that is declared static " ++
    p.method

def InvokeInterfaceOnStaticMethod.shortDescription (p : InvokeInterfaceOnStaticMethod) : String :=
  "Illegal invokeinterface on static method " ++ p.method

def IllegalClassAccess.description (p : IllegalClassAccess) : String :=
  "illegal access to " ++ p.access.name ++ " class " ++ p.className ++ " from " ++ p.accessor

def IllegalClassAccess.shortDescription (p : IllegalClassAccess) : String :=
  "Illegal access to " ++ p.access.name ++ " class " ++ p.className.toSource

inductive Problem where
  | classNotFound (p : ClassNotFound)
  | invokeInterfaceOnStaticMethod (p : InvokeInterfaceOnStaticMethod)
  | illegalClassAccess (p : IllegalClassAccess)
deriving DecidableEq, Repr

namespace Problem

def kind : Problem → ProblemKind
  | .classNotFound _ => .classNotFound
  | .invokeInterfaceOnStaticMethod _ => .invokeInterfaceOnStaticMethod
  | .illegalClassAccess _ => .illegalClassAccess

def description : Problem → String
  | .classNotFound p => p.description
  | .invokeInterfaceOnStaticMethod p => p.description
  | .illegalClassAccess p => p.description

/-- For people to read; unlike the description it does not tell problems apart. -/
def shortDescription : Problem → String
  | .classNotFound p => p.shortDescription
  | .invokeInterfaceOnStaticMethod p => p.shortDescription
  | .illegalClassAccess p => p.shortDescription

/-- Problems count as the same if their identities are equal, whatever their fields are. -/
def identity (p : Problem) : ProblemKind × String :=
  (p.kind, p.description)

instance : Hashable Problem := ⟨fun p => hash p.identity⟩

theorem kind_eq_of_identity {p q : Problem} (h : p.identity = q.identity) : p.kind = q.kind :=
  congrArg Prod.fst h

end Problem

end Linkage
