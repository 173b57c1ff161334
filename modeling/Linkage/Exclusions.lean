import Linkage.ClassName
import Linkage.Text.Blank

namespace Linkage

/-- Class names that verification leaves alone, typically those of the platform. -/
structure Exclusions where
  packages : List String := []
  classes : List ClassName := []
deriving DecidableEq, Repr

namespace Exclusions

def isSeparator (c : Char) : Bool := c = '.' || c = '/'

def normalPackage (entry : String) : String :=
  ClassName.ofBinary
    (String.ofList (Text.dropEndWhile isSeparator (Text.strip entry.toList)))

def normalClass (entry : String) : ClassName :=
  ClassName.ofBinary (Text.trim entry)

/-- Exclusions from entries as they are written, dotted or in internal form. Empty entries are
dropped. -/
def ofEntries (packages classes : List String) : Exclusions where
  packages := (packages.map normalPackage).filter (· ≠ "")
  classes := (classes.map normalClass).filter (· ≠ "")

def covers (package : String) (name : ClassName) : Bool :=
  (package.toList ++ ['/']).isPrefixOf name.toList

def excludes (e : Exclusions) (name : ClassName) : Bool :=
  decide (name ∈ e.classes) || e.packages.any (covers · name)

end Exclusions

end Linkage
