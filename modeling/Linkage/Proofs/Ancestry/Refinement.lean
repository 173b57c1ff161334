import Mathlib.Logic.Function.Basic
import Linkage.Proofs.Ancestry.Memo

namespace Linkage.Ancestry

/-- What has been found out, as tables that are written at one name at a time. -/
structure Knowledge where
  memo : ClassName → Option NameSet
  missing : ClassName → Bool
  lookups : Nat

structure Effect where
  outcome : Except WalkError NameSet
  knowledge : Knowledge
  notes : List Note

def Effect.after (notes : List Note) (x : Effect) : Effect :=
  { x with notes := notes ++ x.notes }

namespace Knowledge

def ask (find : ClassName → Option ClassDescriptor) (k : Knowledge) (n : ClassName) :
    Option ClassDescriptor × Knowledge × List Note :=
  if k.missing n then (none, k, [])
  else match find n with
    | none =>
      (none, { k with missing := Function.update k.missing n true, lookups := k.lookups + 1 },
        [.lookup n])
    | some d => (some d, { k with lookups := k.lookups + 1 }, [.lookup n])

end Knowledge

def Session.knowledge (s : Session) : Knowledge :=
  ⟨s.cached?, s.isMissing, s.lookups⟩

variable {r : Rules} {root c n t : ClassName} {above edges rest : List ClassName} {u : NameSet}
  {s s' : Session} {v : Collection} {d : ClassDescriptor} {notes : List Note} {k k' : Knowledge}

section Tables

end Tables

def Session.Fresh (s : Session) (path : List ClassName) : Prop :=
  ∀ n ∈ path, s.cached? n = none

theorem Session.Fresh.nil (s : Session) : s.Fresh [] := fun _ hn => absurd hn List.not_mem_nil

theorem Session.Fresh.consult {path : List ClassName} {find : ClassName → Option ClassDescriptor}
    {x : Option ClassDescriptor} (h : s.Fresh path) (hs : s.consult find t = (x, s', notes)) :
    s'.Fresh path := by
  intro n hn
  rw [Session.cached?_consult hs]
  exact h n hn

theorem Session.Fresh.snoc {path : List ClassName} (h : s.Fresh path) (ht : s.cached? t = none) :
    s.Fresh (path ++ [t]) := by
  intro n hn
  rcases List.mem_append.mp hn with hn | hn
  · exact h n hn
  · rw [List.mem_singleton.mp hn]
    exact ht

theorem Session.Fresh.enter {path : List ClassName} {find : ClassName → Option ClassDescriptor}
    {x : Option ClassDescriptor} (h : s.Fresh path) (ht : s.cached? t = none)
    (hs : s.consult find t = (x, s', notes)) : s'.Fresh (path ++ [t]) :=
  (h.consult hs).snoc ((Session.cached?_consult hs t).trans ht)

end Linkage.Ancestry
