import Linkage.Proofs.Ancestry.Exactness

namespace Linkage.Ancestry

namespace Rules

variable {r : Rules} {root c t : ClassName} {path : List ClassName}

/-- The path of a cycle that is reported for a root: distinct found classes in a chain of live edges
from the root, and then once more one of them, which the report names. -/
structure CyclePath (r : Rules) (root t : ClassName) (path : List ClassName) : Prop where
  head : path.head? = some root
  last : path.getLast? = some t
  nodup : path.dropLast.Nodup
  found : ∀ n ∈ path.dropLast, r.find n ≠ none
  mem : t ∈ path.dropLast
  linked : path.IsChain r.LiveEdge
  length_le : path.length ≤ max 1 r.maxDepth + 1

theorem leads_of_linked (h : (c :: path).IsChain r.LiveEdge) (ht : t ∈ c :: path) :
    r.Leads c t := by
  induction path generalizing c with
  | nil => exact List.mem_singleton.mp ht ▸ .refl
  | cons e path ih =>
    obtain ⟨he, hl⟩ := List.isChain_cons_cons.mp h
    rcases List.mem_cons.mp ht with rfl | ht
    · exact .refl
    · exact .head he (ih hl ht)

theorem onCycle_of_linked (h : (t :: (path ++ [t])).IsChain r.LiveEdge) : r.OnCycle t := by
  cases path with
  | nil => exact .single (List.isChain_pair.mp h)
  | cons e path =>
    obtain ⟨he, hl⟩ := List.isChain_cons_cons.mp h
    exact .head' he (leads_of_linked hl (by simp))

theorem onCycle_of_mem (ht : t ∈ path) (hc : (path ++ [t]).IsChain r.LiveEdge) : r.OnCycle t := by
  obtain ⟨before, after, rfl⟩ := List.append_of_mem ht
  rw [List.append_assoc] at hc
  exact onCycle_of_linked hc.right_of_append

theorem Trail.cyclic (hp : r.Trail root path) (ht : t ∈ path)
    (hc : (path ++ [t]).IsChain r.LiveEdge) : r.Cyclic root := by
  refine ⟨t, ?_, onCycle_of_mem ht hc⟩
  cases path with
  | nil => cases ht
  | cons a path =>
    cases hp.head
    exact leads_of_linked hp.linked ht

theorem Obstacle.cyclePath (h : r.Obstacle root (.cycle t path)) :
    r.CyclePath root t path ∧ r.Cyclic root := by
  cases h with
  | @cycle path t hp ht hc hl =>
    refine ⟨?_, hp.cyclic ht hc⟩
    constructor
    · rw [List.head?_append, hp.head, Option.some_or]
    · exact List.getLast?_concat
    · simpa using hp.nodup
    · simpa using hp.found
    · simpa using ht
    · exact hc
    · simpa using hl

end Rules

/-- After any requests, failed ones included: a class that leads to a cycle is never answered with a
set and is never memoised, and a reported cycle is one, on a path from the class. -/
theorem collect_cyclic (r : Rules) (earlier : List ClassName) (c : ClassName) :
    (r.Cyclic c →
      (∃ t path, (collect r (r.after {} earlier) c).outcome = .error (.cycle t path)) ∨
        (collect r (r.after {} earlier) c).outcome = .error (.tooDeep c r.maxDepth)) ∧
    (∀ n, r.Cyclic n → (r.after {} earlier).cached? n = none) ∧
    ∀ t path, (collect r (r.after {} earlier) c).outcome = .error (.cycle t path) →
      r.CyclePath c t path ∧ r.Cyclic c := by
  have hs : (r.after {} earlier).Faithful r := (Session.Faithful.empty r).after earlier
  refine ⟨fun hc => ?_, fun n hn => ?_, fun t path h => ?_⟩
  · cases h : (collect r (r.after {} earlier) c).outcome with
    | ok u => exact absurd hc ((collect_faithful hs c).2 u h).grounded.not_cyclic
    | error e =>
      cases hs.obstacle hc.found h with
      | cycle => exact .inl ⟨_, _, rfl⟩
      | tooDeep => exact .inr rfl
  · cases h : (r.after {} earlier).cached? n with
    | none => rfl
    | some u => exact absurd hn (hs.settled n u h).grounded.not_cyclic
  · cases hs.collect_error h with
    | inl hn => cases hn.2
    | inr ho => exact ho.2.cyclePath

theorem collect_cyclic_looped :
    (collect looped (looped.after {} ["C"]) "A").outcome =
        .error (.cycle "L" ["A", "L", "L"]) ∧
      looped.CyclePath "A" "L" ["A", "L", "L"] ∧ looped.Cyclic "A" := by
  have h : (collect looped (looped.after {} ["C"]) "A").outcome =
      .error (.cycle "L" ["A", "L", "L"]) := by cbv
  exact ⟨h, (collect_cyclic looped ["C"] "A").2.2 _ _ h⟩

end Linkage.Ancestry
