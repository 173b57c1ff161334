import Linkage.Log.Level

namespace Linkage.Log

/-- Lets through the records up to a level, either of all targets or of those that start with a
text. -/
structure Directive where
  target : Option String
  verbosity : Verbosity
deriving DecidableEq, Repr

namespace Directive

def text (d : Directive) : String :=
  match d.target with
  | some t => t ++ "=" ++ d.verbosity.name
  | none => d.verbosity.name

def applies (d : Directive) (target : String) : Bool :=
  match d.target with
  | some t => t.toList.isPrefixOf target.toList
  | none => true

/-- Whether the first of two targets is looked at first: the longer in bytes, of two equally long
ones the later in code point order, and no target last. -/
def precedes : Option String → Option String → Bool
  | none, _ => false
  | some _, none => true
  | some s, some t =>
    t.utf8ByteSize < s.utf8ByteSize || (s.utf8ByteSize = t.utf8ByteSize && t < s)

end Directive

end Linkage.Log
