import Mathlib.Data.List.Forall2
import Linkage.Classpath
import Linkage.Proofs.Ancestry.Transfer

namespace Linkage

variable {i : ClassIndex} {c : ClassDescriptor} {cs : List ClassDescriptor}
  {css : List (List ClassDescriptor)}

namespace ClassIndex

/-- The list has the classes of the index, where the last of a name counts. -/
def ListedBy (i : ClassIndex) (cs : List ClassDescriptor) : Prop :=
  ∀ n, i.find? n = cs.reverse.find? (·.name = n)

/-- The index comes from the classes in the list, collected at once or inserted later. -/
inductive Built : ClassIndex → List ClassDescriptor → Prop where
  | collected (cs : List ClassDescriptor) : Built (ofList cs) cs
  | labelled {i : ClassIndex} {cs : List ClassDescriptor} (h : Built i cs) (label : String) :
    Built (i.withLabel label) cs
  | inserted {i : ClassIndex} {cs : List ClassDescriptor} (h : Built i cs) (c : ClassDescriptor) :
    Built (i.insert c) (cs ++ [c])

def held (i : ClassIndex) : List ClassDescriptor :=
  i.classes.toList.map (·.2)

theorem Built.listedBy (h : Built i cs) : i.ListedBy cs := by
  induction h with
  | collected cs => exact find?_ofList cs
  | labelled _ _ ih => exact ih
  | inserted _ c ih =>
    intro n
    rw [find?_insert, ih n, List.reverse_append, List.reverse_singleton, List.singleton_append,
      List.find?_cons]
    by_cases hc : c.name = n <;> simp [hc]

theorem mem_held_iff : c ∈ i.held ↔ i.find? c.name = some c := by
  constructor
  · intro h
    obtain ⟨⟨k, d⟩, hmem, rfl⟩ := List.mem_map.mp h
    have hd : i.find? k = some d := Std.HashMap.mem_toList_iff_getElem?_eq_some.mp hmem
    rwa [name_of_find? hd]
  · intro h
    exact List.mem_map.mpr ⟨(c.name, c), Std.HashMap.mem_toList_iff_getElem?_eq_some.mpr h, rfl⟩

theorem listedBy_held (i : ClassIndex) : i.ListedBy i.held := by
  intro n
  cases hfound : i.held.reverse.find? (·.name = n) with
  | none =>
    have hnone := List.find?_eq_none.mp hfound
    cases hn : i.find? n with
    | none => rfl
    | some c =>
      have hname := name_of_find? hn
      have hc : c ∈ i.held := mem_held_iff.mpr (by rwa [hname])
      exact absurd (decide_eq_true hname) (hnone c (List.mem_reverse.mpr hc))
  | some c =>
    have hc : c ∈ i.held := List.mem_reverse.mp (List.mem_of_find?_eq_some hfound)
    have hname : c.name = n := by simpa using List.find?_some hfound
    rw [← hname]
    exact mem_held_iff.mp hc

theorem find?_ofList_flatten_reverse (css : List (List ClassDescriptor)) (n : ClassName) :
    (ofList css.reverse.flatten).find? n =
      css.findSome? fun cs => cs.reverse.find? (·.name = n) := by
  rw [find?_ofList, List.reverse_flatten, ← List.map_reverse, List.reverse_reverse,
    List.find?_flatten, List.findSome?_map]
  rfl

theorem findSome?_of_listedBy {is : List ClassIndex} (h : List.Forall₂ ListedBy is css)
    (n : ClassName) :
    (is.findSome? (·.find? n)) = css.findSome? fun cs => cs.reverse.find? (·.name = n) := by
  induction h with
  | nil => rfl
  | cons hi _ ih => rw [List.findSome?_cons, List.findSome?_cons, hi n, ih]

theorem findSome?_eq_bind (is : List ClassIndex) (n : ClassName) :
    is.findSome? (·.find? n) = (is.find? (·.contains n)).bind (·.find? n) := by
  induction is with
  | nil => rfl
  | cons i is ih =>
    rw [List.findSome?_cons, List.find?_cons, contains]
    cases hi : i.find? n with
    | none => exact ih
    | some c => exact hi.symm

end ClassIndex

namespace Classpath

mutual

theorem find?_eq_findSome? : ∀ (p : Classpath) (n : ClassName),
    p.find? n = p.leaves.findSome? (·.find? n)
  | .index i, n => by
    rw [find?_index, leaves, List.findSome?_singleton]
  | .layers ls, n => by
    -- the place that a class is found at is forgotten, so any first position will do
    rw [find?, locate, leaves]
    exact map_locateFrom ls 0 n

theorem map_locateFrom : ∀ (ls : List Classpath) (position : Nat) (n : ClassName),
    (locateFrom position ls n).map (·.1) = (leavesAll ls).findSome? (·.find? n)
  | [], _, _ => rfl
  | l :: ls, position, n => by
    rw [locateFrom, leavesAll, List.findSome?_append, ← find?_eq_findSome? l n, find?]
    cases l.locate n with
    | none => exact map_locateFrom ls (position + 1) n
    | some found => rfl

end

theorem leavesAll_map_index (is : List ClassIndex) : leavesAll (is.map index) = is := by
  induction is with
  | nil => rfl
  | cons i is ih => rw [List.map_cons, leavesAll, ih, leaves, List.singleton_append]

/-- A tree of layers is one flat row of its indexes, and one index. A name leads to what the first
index from the left has for it, and to nothing else but a class of this name. The lists of the
classes of the indexes, put together from right to left, make up an index that answers alike, and
so do the walks: only the message for a class that is not found tells the two apart. -/
theorem find?_tree (p : Classpath) :
    (∀ n, p.find? n = (p.leaves.find? (·.contains n)).bind (·.find? n)) ∧
    (∀ n c, p.find? n = some c → c.name = n) ∧
    (∀ n, (layers (p.leaves.map index)).find? n = p.find? n) ∧
    (∀ i : ClassIndex, i.ListedBy i.held ∧ ∀ cs, i.Built cs → i.ListedBy cs) ∧
    ∀ css, List.Forall₂ ClassIndex.ListedBy p.leaves css →
      let merged := ClassIndex.ofList css.reverse.flatten
      (∀ n, merged.find? n = p.find? n) ∧
      ∀ (r : Ancestry.Rules) (s : Ancestry.Session) (roots : List ClassName),
        (r.over merged.find? merged.describe).collectAll s roots =
          ((r.over p.find? p.describe).collectAll s roots).map (·.askedOf merged.describe) := by
  refine ⟨?_, ?_, ?_, ?_, ?_⟩
  · intro n
    rw [find?_eq_findSome?, ClassIndex.findSome?_eq_bind]
  · intro n c h
    rw [find?_eq_findSome?] at h
    obtain ⟨i, -, hi⟩ := List.exists_of_findSome?_eq_some h
    exact ClassIndex.name_of_find? hi
  · intro n
    rw [find?_eq_findSome?, find?_eq_findSome?, leaves, leavesAll_map_index]
  · exact fun i => ⟨i.listedBy_held, fun cs h => h.listedBy⟩
  · intro css h merged
    have hfind : ∀ n, merged.find? n = p.find? n := by
      intro n
      rw [find?_eq_findSome?, ClassIndex.findSome?_of_listedBy h]
      exact ClassIndex.find?_ofList_flatten_reverse css n
    refine ⟨hfind, fun r s roots => ?_⟩
    have hallows : (r.over p.find? p.describe).Allows (r.over merged.find? merged.describe) :=
      ⟨fun _ => rfl, fun n _ => hfind n, Nat.le_refl _⟩
    exact Ancestry.Rules.collectAll_allowed hallows (fun n _ => hfind n) (.inl rfl)

def nested : Classpath :=
  .layers [.layers [.index (.ofList [⟨"A", some "B", []⟩]), .layers []],
    .index ((ClassIndex.ofList [⟨"B", none, []⟩]).insert ⟨"A", none, ["C"]⟩)]

theorem find?_tree_nested :
    let merged := ClassIndex.ofList [⟨"B", none, []⟩, ⟨"A", none, ["C"]⟩, ⟨"A", some "B", []⟩]
    merged.find? "A" = nested.find? "A" ∧ nested.find? "A" = some ⟨"A", some "B", []⟩ ∧
      ∀ (r : Ancestry.Rules) (roots : List ClassName),
        (r.over merged.find? merged.describe).collectAll {} roots =
          ((r.over nested.find? nested.describe).collectAll {} roots).map
            (·.askedOf merged.describe) := by
  intro merged
  obtain ⟨-, -, -, hlisted, hmerged⟩ := find?_tree nested
  obtain ⟨hfind, hwalks⟩ := hmerged
    [[⟨"A", some "B", []⟩], [⟨"B", none, []⟩, ⟨"A", none, ["C"]⟩]]
    (.cons ((hlisted _).2 _ (.collected _))
      (.cons ((hlisted _).2 _ (.inserted (.collected _) _)) .nil))
  refine ⟨hfind "A", ?_, fun r roots => hwalks r {} roots⟩
  rw [← hfind, ClassIndex.find?_ofList]
  rfl

end Classpath

end Linkage
