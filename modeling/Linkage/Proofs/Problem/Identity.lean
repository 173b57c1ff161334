import Linkage.Problem
import Linkage.Proofs.Text.Separator

namespace Linkage

def Text.Contains (text part : String) : Prop :=
  part.toList <:+: text.toList

theorem Text.Contains.count_le {text part : String} (h : Text.Contains text part) (c : Char) :
    part.toList.count c ≤ text.toList.count c :=
  h.sublist.count_le c

theorem AccessModifier.eq_of_name_append {a b : AccessModifier} {s t : String}
    (h : a.name ++ s = b.name ++ t) : a = b := by
  have hstart := congrArg (fun w => w.toList.take 3) h
  cases a <;> cases b <;> simp [name] at hstart ⊢

namespace IllegalClassAccess

variable {p q : IllegalClassAccess}

def parties (p : IllegalClassAccess) : String :=
  p.className ++ " from " ++ p.accessor

theorem description_eq (p : IllegalClassAccess) :
    p.description = "illegal access to " ++ (p.access.name ++ (" class " ++ p.parties)) := by
  show "illegal access to " ++ p.access.name ++ " class " ++ p.className ++ " from " ++ p.accessor =
    "illegal access to " ++ (p.access.name ++ (" class " ++ (p.className ++ " from " ++ p.accessor)))
  simp only [String.append_assoc]

theorem description_eq_iff :
    p.description = q.description ↔ p.access = q.access ∧ p.parties = q.parties := by
  rw [description_eq, description_eq, String.append_right_inj]
  constructor
  · intro h
    have ha := AccessModifier.eq_of_name_append h
    rw [ha, String.append_right_inj, String.append_right_inj] at h
    exact ⟨ha, h⟩
  · rintro ⟨ha, h⟩
    rw [ha, h]

theorem toList_parties (p : IllegalClassAccess) :
    p.parties.toList = p.className.toList ++
      (Text.separator ' ' "from".toList ++ p.accessor.toList) := by
  rw [parties, String.append_assoc, String.toList_append, String.toList_append]
  rfl

/-- Another cut of the same text gives another access with the same description, and the separator
of such a cut overlaps the first one by a space at most. -/
theorem exists_parties_eq_iff (p : IllegalClassAccess) :
    (∃ q : IllegalClassAccess, q ≠ p ∧ q.access = p.access ∧ q.parties = p.parties) ↔
      Text.Contains (p.className ++ " ") " from " ∨ Text.Contains (" " ++ p.accessor) " from " := by
  have hcut := Text.exists_cut_ne_iff p.className.toList p.accessor.toList
    (show ' ' ∉ "from".toList by decide)
  rw [Text.Contains, Text.Contains, String.toList_append, String.toList_append]
  refine Iff.trans ?_ hcut
  constructor
  · rintro ⟨⟨c, a, x⟩, hne, rfl, h⟩
    refine ⟨c.toList, x.toList, fun he => hne ?_, ?_⟩
    · obtain ⟨hc, hx⟩ := Prod.mk.inj he
      rw [String.toList_inj.mp hc, String.toList_inj.mp hx]
    · rw [← toList_parties, ← h, toList_parties]
  · rintro ⟨front, back, hne, h⟩
    refine ⟨⟨String.ofList front, p.access, String.ofList back⟩, fun he => hne ?_, rfl, ?_⟩
    · rw [← he, String.toList_ofList, String.toList_ofList]
    · rw [← String.toList_inj, toList_parties, toList_parties, ← h]
      simp only [String.toList_ofList]

end IllegalClassAccess

namespace Problem

theorem identity_illegalClassAccess_iff {p : Problem} {q : IllegalClassAccess} :
    p.identity = (illegalClassAccess q).identity ↔
      ∃ p', p = illegalClassAccess p' ∧ p'.access = q.access ∧ p'.parties = q.parties := by
  constructor
  · intro h
    have hk := kind_eq_of_identity h
    cases p with
    | classNotFound | invokeInterfaceOnStaticMethod => cases hk
    | illegalClassAccess p =>
      exact ⟨p, rfl, IllegalClassAccess.description_eq_iff.mp (congrArg Prod.snd h)⟩
  · rintro ⟨p, rfl, h⟩
    exact Prod.ext rfl (IllegalClassAccess.description_eq_iff.mpr h)

theorem exists_identity_eq_iff (p : IllegalClassAccess) :
    (∃ q, q ≠ illegalClassAccess p ∧ q.identity = (illegalClassAccess p).identity) ↔
      Text.Contains (p.className ++ " ") " from " ∨ Text.Contains (" " ++ p.accessor) " from " := by
  rw [← p.exists_parties_eq_iff]
  constructor
  · rintro ⟨q, hne, h⟩
    obtain ⟨q, rfl, hq⟩ := identity_illegalClassAccess_iff.mp h
    exact ⟨q, fun he => hne (he ▸ rfl), hq⟩
  · rintro ⟨q, hne, hq⟩
    refine ⟨illegalClassAccess q, fun he => hne (illegalClassAccess.inj he), ?_⟩
    exact identity_illegalClassAccess_iff.mpr ⟨q, rfl, hq⟩

theorem not_contains_from {c : String} (h : ' ' ∉ c.toList) :
    ¬ Text.Contains (c ++ " ") " from " ∧ ¬ Text.Contains (" " ++ c) " from " := by
  have hcount := List.count_eq_zero.mpr h
  have hleft : (c ++ " ").toList.count ' ' = 1 := by
    rw [String.toList_append, List.count_append, hcount]
    rfl
  have hright : (" " ++ c).toList.count ' ' = 1 := by
    rw [String.toList_append, List.count_append, hcount]
    rfl
  exact ⟨fun hc => absurd (hleft ▸ hc.count_le ' ') (by decide),
    fun hc => absurd (hright ▸ hc.count_le ' ') (by decide)⟩

theorem identity_classNotFound_iff {p q : ClassNotFound} :
    (classNotFound p).identity = (classNotFound q).identity ↔ p.className = q.className := by
  constructor
  · intro h
    have hd : "access to unresolved class " ++ p.className =
        "access to unresolved class " ++ q.className := congrArg Prod.snd h
    exact (String.append_right_inj _).mp hd
  · intro h
    exact Prod.ext rfl (congrArg ("access to unresolved class " ++ ·) h)

theorem identity_invokeInterfaceOnStaticMethod_iff {p q : InvokeInterfaceOnStaticMethod} :
    (invokeInterfaceOnStaticMethod p).identity = (invokeInterfaceOnStaticMethod q).identity ↔
      p.method = q.method := by
  constructor
  · intro h
    have hd : p.description = q.description := congrArg Prod.snd h
    exact (String.append_right_inj _).mp hd
  · intro h
    have hd : p.description = q.description := congrArg (_ ++ ·) h
    exact Prod.ext rfl hd

/-- Problems that count as the same are of one kind. Those about a class that is not found and those
about a static method tell their texts apart. Two illegal accesses that count as the same differ at
most in where the names of the class and of its accessor are cut, and there is another cut just if
the separator stands in the class and a space behind it, or in the accessor and a space in front of
it; names without a space leave one cut only. -/
theorem identity_exact :
    (∀ p q : Problem, p.kind ≠ q.kind → p.identity ≠ q.identity) ∧
    (∀ p q : ClassNotFound,
      (classNotFound p).identity = (classNotFound q).identity ↔ p.className = q.className) ∧
    (∀ p q : InvokeInterfaceOnStaticMethod,
      (invokeInterfaceOnStaticMethod p).identity = (invokeInterfaceOnStaticMethod q).identity ↔
        p.method = q.method) ∧
    (∀ p q : IllegalClassAccess, p.access ≠ q.access →
      (illegalClassAccess p).identity ≠ (illegalClassAccess q).identity) ∧
    (∀ p : IllegalClassAccess,
      (∃ q, q ≠ illegalClassAccess p ∧ q.identity = (illegalClassAccess p).identity) ↔
        Text.Contains (p.className ++ " ") " from " ∨
          Text.Contains (" " ++ p.accessor) " from ") ∧
    ∀ p : IllegalClassAccess, ' ' ∉ p.className.toList → ' ' ∉ p.accessor.toList →
      ∀ q : Problem, q.identity = (illegalClassAccess p).identity → q = illegalClassAccess p := by
  refine ⟨fun p q => mt kind_eq_of_identity, fun _ _ => identity_classNotFound_iff,
    fun _ _ => identity_invokeInterfaceOnStaticMethod_iff, fun p q hne h => ?_,
    exists_identity_eq_iff, fun p hc hx q h => ?_⟩
  · obtain ⟨p', hp, ha, -⟩ := identity_illegalClassAccess_iff.mp h
    cases hp
    exact hne ha
  · by_contra hne
    rcases (exists_identity_eq_iff p).mp ⟨q, hne, h⟩ with hs | hs
    · exact (not_contains_from hc).1 hs
    · exact (not_contains_from hx).2 hs

/-- The class `a from` is cut in two ways, though the separator does not stand in it. -/
theorem identity_exact_overlap :
    (∃ q, q ≠ illegalClassAccess ⟨"a from", .privateAccess, "b"⟩ ∧
      q.identity = (illegalClassAccess ⟨"a from", .privateAccess, "b"⟩).identity) ∧
    ¬ Text.Contains "a from" " from " ∧
    ∀ q : Problem, q.identity = (illegalClassAccess ⟨"p/A", .privateAccess, "q/B"⟩).identity →
      q = illegalClassAccess ⟨"p/A", .privateAccess, "q/B"⟩ := by
  obtain ⟨-, -, -, -, hcut, hone⟩ := identity_exact
  refine ⟨(hcut _).mpr (.inl ⟨['a'], [], rfl⟩), fun h => ?_, hone _ (by decide) (by decide)⟩
  exact absurd (h.count_le ' ') (by decide)

end Problem

end Linkage
