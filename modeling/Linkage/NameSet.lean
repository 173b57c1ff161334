import Linkage.ClassName

namespace Linkage

/-- A finite set of class names, listed in code point order. -/
structure NameSet where
  toList : List ClassName
  sorted : toList.Pairwise (· < ·)
deriving DecidableEq

namespace NameSet

def empty : NameSet := ⟨[], List.Pairwise.nil⟩

instance : EmptyCollection NameSet := ⟨empty⟩
instance : Membership ClassName NameSet := ⟨fun s n => n ∈ s.toList⟩
instance (n : ClassName) (s : NameSet) : Decidable (n ∈ s) :=
  inferInstanceAs (Decidable (n ∈ s.toList))

def size (s : NameSet) : Nat := s.toList.length

def place (n : ClassName) : List ClassName → List ClassName
  | [] => [n]
  | m :: ms => if n < m then n :: m :: ms else if n = m then m :: ms else m :: place n ms

theorem mem_place {n a : ClassName} {ms : List ClassName} :
    a ∈ place n ms ↔ a = n ∨ a ∈ ms := by
  induction ms with
  | nil => simp [place]
  | cons m ms ih =>
    simp only [place]
    split
    · simp
    · split
      · next h => subst h; simp
      · simp only [List.mem_cons, ih]
        exact or_left_comm

theorem place_sorted (n : ClassName) {ms : List ClassName} (h : ms.Pairwise (· < ·)) :
    (place n ms).Pairwise (· < ·) := by
  induction ms with
  | nil => simp [place]
  | cons m ms ih =>
    simp only [place]
    rw [List.pairwise_cons] at h
    split
    · next hn =>
      refine List.pairwise_cons.2 ⟨fun a ha => ?_, List.pairwise_cons.2 h⟩
      rcases List.mem_cons.1 ha with rfl | ha
      · exact hn
      · exact String.lt_trans hn (h.1 a ha)
    · split
      · exact List.pairwise_cons.2 h
      · next hn hne =>
        refine List.pairwise_cons.2 ⟨fun a ha => ?_, ih h.2⟩
        rcases mem_place.1 ha with rfl | ha
        · rcases Decidable.em (m < a) with hlt | hlt
          · exact hlt
          · exact absurd (String.le_antisymm (String.not_lt.1 hlt) (String.not_lt.1 hn)) hne
        · exact h.1 a ha

def insert (s : NameSet) (n : ClassName) : NameSet :=
  ⟨place n s.toList, place_sorted n s.sorted⟩

def union (s t : NameSet) : NameSet :=
  t.toList.foldl insert s

instance : Union NameSet := ⟨union⟩

@[simp] theorem notMem_empty (n : ClassName) : n ∉ (∅ : NameSet) := List.not_mem_nil

@[simp] theorem mem_toList {n : ClassName} {s : NameSet} : n ∈ s.toList ↔ n ∈ s := Iff.rfl

@[simp] theorem mem_insert {n a : ClassName} {s : NameSet} : a ∈ s.insert n ↔ a = n ∨ a ∈ s :=
  mem_place

theorem mem_foldl_insert {ns : List ClassName} {a : ClassName} {s : NameSet} :
    a ∈ ns.foldl insert s ↔ a ∈ s ∨ a ∈ ns := by
  induction ns generalizing s with
  | nil => simp
  | cons n ns ih =>
    rw [List.foldl_cons, ih, mem_insert, List.mem_cons]
    exact ⟨fun h => by rcases h with (h | h) | h <;> simp [h],
      fun h => by rcases h with h | h | h <;> simp [h]⟩

@[simp] theorem mem_union {a : ClassName} {s t : NameSet} : a ∈ s ∪ t ↔ a ∈ s ∨ a ∈ t :=
  mem_foldl_insert

theorem eq_of_sorted {ns ms : List ClassName} (hn : ns.Pairwise (· < ·))
    (hm : ms.Pairwise (· < ·)) (h : ∀ a, a ∈ ns ↔ a ∈ ms) : ns = ms := by
  induction ns generalizing ms with
  | nil =>
    cases ms with
    | nil => rfl
    | cons m ms => exact absurd ((h m).2 (List.mem_cons_self)) List.not_mem_nil
  | cons n ns ih =>
    cases ms with
    | nil => exact absurd ((h n).1 (List.mem_cons_self)) List.not_mem_nil
    | cons m ms =>
      rw [List.pairwise_cons] at hn hm
      -- in both lists the first name is the least one
      have hnm : n = m := by
        rcases List.mem_cons.1 ((h n).1 List.mem_cons_self) with hnm | hnm
        · exact hnm
        · rcases List.mem_cons.1 ((h m).2 List.mem_cons_self) with hmn | hmn
          · exact hmn.symm
          · exact absurd (hn.1 m hmn) (String.lt_asymm (hm.1 n hnm))
      subst hnm
      refine congrArg (n :: ·) (ih hn.2 hm.2 fun a => ?_)
      constructor
      · intro ha
        rcases List.mem_cons.1 ((h a).1 (List.mem_cons_of_mem _ ha)) with rfl | hb
        · exact absurd (hn.1 a ha) (String.lt_irrefl a)
        · exact hb
      · intro ha
        rcases List.mem_cons.1 ((h a).2 (List.mem_cons_of_mem _ ha)) with rfl | hb
        · exact absurd (hm.1 a ha) (String.lt_irrefl a)
        · exact hb

theorem ext {s t : NameSet} (h : ∀ a, a ∈ s ↔ a ∈ t) : s = t := by
  cases s
  cases t
  congr
  exact eq_of_sorted ‹_› ‹_› h

end NameSet

end Linkage
