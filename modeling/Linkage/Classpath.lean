import Linkage.ClassIndex
import Linkage.Text.Quoted

namespace Linkage

/-- A place to look classes up: an index, or places that are asked in order. -/
inductive Classpath where
  | index (i : ClassIndex)
  | layers (ls : List Classpath)

namespace Classpath

mutual

/-- The class of a name, with the positions of the layers that it was found in, innermost first. -/
def locate : Classpath → ClassName → Option (ClassDescriptor × List Nat)
  | .index i, n => (i.find? n).map fun c => (c, [])
  | .layers ls, n => locateFrom 0 ls n

def locateFrom (position : Nat) : List Classpath → ClassName → Option (ClassDescriptor × List Nat)
  | [], _ => none
  | l :: ls, n =>
    match locate l n with
    | some (c, inner) => some (c, inner ++ [position])
    | none => locateFrom (position + 1) ls n

end

def find? (p : Classpath) (n : ClassName) : Option ClassDescriptor :=
  (p.locate n).map (·.1)

@[simp] theorem find?_index (i : ClassIndex) (n : ClassName) : (index i).find? n = i.find? n := by
  rw [find?, locate, Option.map_map]
  exact Option.map_id'

mutual

def describe : Classpath → String
  | .index i => i.describe
  | .layers ls => "layered resolver [" ++ ", ".intercalate (describeAll ls) ++ "]"

def describeAll : List Classpath → List String
  | [] => []
  | l :: ls => describe l :: describeAll ls

end

def inspect (p : Classpath) : String :=
  "LayeredClassResolver \x7b layers: " ++ Text.quoted p.describe ++ " \x7d"

mutual

def leaves : Classpath → List ClassIndex
  | .index i => [i]
  | .layers ls => leavesAll ls

def leavesAll : List Classpath → List ClassIndex
  | [] => []
  | l :: ls => leaves l ++ leavesAll ls

end

mutual

/-- Change the `k`-th index, counted as in `leaves`. The number that comes back is `none` if the
index was among these, and otherwise where to go on counting. -/
def modifyLeaf (f : ClassIndex → ClassIndex) : Classpath → Nat → Classpath × Option Nat
  | .index i, 0 => (.index (f i), none)
  | .index i, k + 1 => (.index i, some k)
  | .layers ls, k =>
    let (ls, rest) := modifyLeafAll f ls k
    (.layers ls, rest)

def modifyLeafAll (f : ClassIndex → ClassIndex) :
    List Classpath → Nat → List Classpath × Option Nat
  | [], k => ([], some k)
  | l :: ls, k =>
    match modifyLeaf f l k with
    | (l, none) => (l :: ls, none)
    | (l, some k) =>
      let (ls, rest) := modifyLeafAll f ls k
      (l :: ls, rest)

end

def add (p : Classpath) (k : Nat) (c : ClassDescriptor) : Classpath :=
  (p.modifyLeaf (·.insert c) k).1

end Classpath

end Linkage
