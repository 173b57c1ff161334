import Std.Data.HashMap
import Linkage.ClassDescriptor

namespace Linkage

/-- Classes held in memory under their own names. -/
structure ClassIndex where
  label : Option String := none
  classes : Std.HashMap ClassName ClassDescriptor := ∅
  filed : ∀ (n : ClassName) (c : ClassDescriptor), classes[n]? = some c → c.name = n := by simp

namespace ClassIndex

def empty : ClassIndex := {}

def find? (i : ClassIndex) (n : ClassName) : Option ClassDescriptor :=
  i.classes[n]?

def contains (i : ClassIndex) (n : ClassName) : Bool :=
  (i.find? n).isSome

def size (i : ClassIndex) : Nat :=
  i.classes.size

def insert (i : ClassIndex) (c : ClassDescriptor) : ClassIndex where
  label := i.label
  classes := i.classes.insert c.name c
  filed := by
    intro n d h
    rw [Std.HashMap.getElem?_insert] at h
    split at h
    · next hn =>
      cases h
      exact beq_iff_eq.1 hn
    · exact i.filed n d h

def ofList (cs : List ClassDescriptor) : ClassIndex :=
  cs.foldl insert empty

def withLabel (i : ClassIndex) (label : String) : ClassIndex :=
  { i with label := some label }

def describe (i : ClassIndex) : String :=
  match i.label with
  | some label => "in-memory resolver `" ++ label ++ "` (" ++ toString i.size ++ " classes)"
  | none => "in-memory resolver (" ++ toString i.size ++ " classes)"

theorem name_of_find? {i : ClassIndex} {n : ClassName} {c : ClassDescriptor}
    (h : i.find? n = some c) : c.name = n :=
  i.filed n c h

theorem find?_empty (n : ClassName) : empty.find? n = none := by
  simp [find?, empty]

theorem find?_insert (i : ClassIndex) (c : ClassDescriptor) (n : ClassName) :
    (i.insert c).find? n = if c.name = n then some c else i.find? n := by
  simp [find?, insert, Std.HashMap.getElem?_insert]

theorem find?_foldl_insert (i : ClassIndex) (cs : List ClassDescriptor) (n : ClassName) :
    (cs.foldl insert i).find? n = (cs.reverse.find? (·.name = n)).or (i.find? n) := by
  induction cs generalizing i with
  | nil => simp
  | cons c cs ih =>
    rw [List.foldl_cons, ih, find?_insert, List.reverse_cons, List.find?_append, Option.or_assoc]
    by_cases h : c.name = n <;> simp [h]

theorem find?_ofList (cs : List ClassDescriptor) (n : ClassName) :
    (ofList cs).find? n = cs.reverse.find? (·.name = n) := by
  rw [ofList, find?_foldl_insert, find?_empty, Option.or_none]

end ClassIndex

end Linkage
