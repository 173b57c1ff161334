import Mathlib.Logic.Relation
import Linkage.Ancestry.Rules

namespace Linkage.Ancestry.Rules

variable {r : Rules} {c e n t : ClassName} {d : ClassDescriptor}

/-- A class that is found names its superclass or an interface, and the name is not excluded. -/
def LiveEdge (r : Rules) (c t : ClassName) : Prop :=
  ∃ d, r.find c = some d ∧ t ∈ d.ancestors ∧ r.excluded t = false

/-- There is a chain of live edges, perhaps of none; every class that it leaves is found. -/
def Leads (r : Rules) : ClassName → ClassName → Prop :=
  Relation.ReflTransGen r.LiveEdge

/-- The names that the walk of a class is to report: those that are not found, at the end of a live
edge of the class or of a class that it leads to. -/
def Unresolved (r : Rules) (c t : ClassName) : Prop :=
  r.find t = none ∧ ∃ d, r.Leads c d ∧ r.LiveEdge d t

def OnCycle (r : Rules) (c : ClassName) : Prop :=
  Relation.TransGen r.LiveEdge c c

def Cyclic (r : Rules) (c : ClassName) : Prop :=
  ∃ d, r.Leads c d ∧ r.OnCycle d

def Grounded (r : Rules) : ClassName → Prop :=
  Acc fun t c => r.LiveEdge c t

theorem LiveEdge.found (h : r.LiveEdge c t) : r.find c ≠ none := by
  obtain ⟨d, hd, -⟩ := h
  simp [hd]

theorem liveEdge_iff (hd : r.find c = some d) :
    r.LiveEdge c t ↔ t ∈ d.ancestors ∧ r.excluded t = false := by
  simp [LiveEdge, hd]

theorem leads_iff_of_missing (ht : r.find t = none) (hd : r.find c = some d) :
    r.Leads c t ↔ ∃ e ∈ d.ancestors, r.excluded e = false ∧ r.Leads e t := by
  rw [Leads, Relation.ReflTransGen.cases_head_iff]
  constructor
  · rintro (rfl | ⟨e, he, h⟩)
    · simp [hd] at ht
    · obtain ⟨hm, hx⟩ := (liveEdge_iff hd).mp he
      exact ⟨e, hm, hx, h⟩
  · rintro ⟨e, hm, hx, h⟩
    exact .inr ⟨e, (liveEdge_iff hd).mpr ⟨hm, hx⟩, h⟩

theorem leads_of_missing (hc : r.find c = none) : r.Leads c t ↔ c = t := by
  rw [Leads, Relation.ReflTransGen.cases_head_iff]
  constructor
  · rintro (rfl | ⟨e, he, -⟩)
    · rfl
    · exact absurd hc he.found
  · exact .inl

theorem unresolved_iff (hc : r.find c ≠ none) :
    r.Unresolved c t ↔ r.find t = none ∧ r.Leads c t := by
  constructor
  · rintro ⟨ht, d, hl, he⟩
    exact ⟨ht, hl.tail he⟩
  · rintro ⟨ht, hl⟩
    rcases Relation.ReflTransGen.cases_tail hl with rfl | ⟨d, hd, he⟩
    · exact absurd ht hc
    · exact ⟨ht, d, hd, he⟩

theorem grounded_of_missing (hc : r.find c = none) : r.Grounded c :=
  ⟨c, fun _ h => absurd hc (LiveEdge.found h)⟩

theorem grounded_of_ancestors (hd : r.find c = some d)
    (h : ∀ e ∈ d.ancestors, r.excluded e = false → r.Grounded e) : r.Grounded c := by
  refine ⟨c, fun e he => ?_⟩
  obtain ⟨hm, hx⟩ := (liveEdge_iff hd).mp he
  exact h e hm hx

theorem Grounded.leads (h : r.Grounded c) (hl : r.Leads c n) : r.Grounded n := by
  induction hl with
  | refl => exact h
  | tail _ he ih => exact ih.inv he

theorem Grounded.not_onCycle (h : r.Grounded c) : ¬ r.OnCycle c := by
  have hacc := Acc.transGen h
  induction hacc with
  | intro c _ ih =>
    intro hc
    have hc' : Relation.TransGen (fun t c => r.LiveEdge c t) c c :=
      Relation.transGen_swap.mpr hc
    exact ih c hc' h hc

theorem Grounded.not_cyclic (h : r.Grounded c) : ¬ r.Cyclic c := by
  rintro ⟨d, hl, hd⟩
  exact (h.leads hl).not_onCycle hd

theorem Cyclic.found (h : r.Cyclic c) : r.find c ≠ none := by
  obtain ⟨d, hl, hd⟩ := h
  rcases Relation.ReflTransGen.cases_head hl with rfl | ⟨e, he, -⟩
  · obtain ⟨e, he, -⟩ := Relation.TransGen.head'_iff.mp hd
    exact he.found
  · exact he.found

end Linkage.Ancestry.Rules
