import Linkage.ProblemSet

namespace Linkage

variable {α β : Type} {ps : List Problem} {s : ProblemSet}

theorem eraseDupsBy_loop_map (f : α → β) (same : β → β → Bool) (as bs : List α) :
    List.eraseDupsBy.loop same (as.map f) (bs.map f) =
      (List.eraseDupsBy.loop (fun a b => same (f a) (f b)) as bs).map f := by
  induction as generalizing bs with
  | nil => simp only [List.map_nil, List.eraseDupsBy.loop, List.map_reverse]
  | cons a as ih =>
    have hany : (bs.map f).any (same (f a)) = bs.any fun b => same (f a) (f b) := List.any_map
    simp only [List.map_cons, List.eraseDupsBy.loop, hany]
    split
    · exact ih bs
    · exact ih (a :: bs)

namespace ProblemSet

def same (p q : Problem) : Bool := p.identity = q.identity

theorem any_same_reverse (s : ProblemSet) (p : Problem) :
    s.toList.reverse.any (same p) = s.contains p := by
  have hsame : same p = fun q => decide (q.identity = p.identity) :=
    funext fun q => decide_eq_decide.mpr eq_comm
  rw [List.any_reverse, hsame, contains]

theorem toList_foldl_add (s : ProblemSet) (ps : List Problem) :
    (ps.foldl add s).toList = List.eraseDupsBy.loop same ps s.toList.reverse := by
  induction ps generalizing s with
  | nil => simp only [List.foldl_nil, List.eraseDupsBy.loop, List.reverse_reverse]
  | cons p ps ih =>
    rw [List.foldl_cons, ih, List.eraseDupsBy.loop, any_same_reverse]
    cases hp : s.contains p with
    | true => simp only [add, hp, ↓reduceDIte]
    | false => simp only [add, hp, Bool.false_eq_true, ↓reduceDIte, List.reverse_append,
        List.reverse_singleton, List.singleton_append]

/-- A set holds the first problem of each identity, in the order in which they came. -/
theorem toList_collect (ps : List Problem) : (collect ps).toList = ps.eraseDupsBy same :=
  toList_foldl_add empty ps

theorem nodup_identities (s : ProblemSet) : (s.toList.map (·.identity)).Nodup :=
  List.pairwise_map.mpr s.distinct

theorem contains_iff_mem_identities {s : ProblemSet} {q : Problem} :
    s.contains q = true ↔ q.identity ∈ s.toList.map (·.identity) := by
  rw [contains_iff, List.mem_map]

theorem sameProblems_of_contains {s t : ProblemSet}
    (h : ∀ q, s.contains q = true ↔ t.contains q = true) : s.sameProblems t = true := by
  have hst : (s.toList.map (·.identity)).Perm (t.toList.map (·.identity)) := by
    refine (List.perm_ext_iff_of_nodup s.nodup_identities t.nodup_identities).mpr fun i => ?_
    constructor
    · intro hi
      obtain ⟨p, hp, rfl⟩ := List.mem_map.mp hi
      exact contains_iff_mem_identities.mp ((h p).mp (contains_iff.mpr ⟨p, hp, rfl⟩))
    · intro hi
      obtain ⟨p, hp, rfl⟩ := List.mem_map.mp hi
      exact contains_iff_mem_identities.mp ((h p).mpr (contains_iff.mpr ⟨p, hp, rfl⟩))
  have hlen : s.size = t.size := by
    have := hst.length_eq
    rwa [List.length_map, List.length_map] at this
  simp only [sameProblems, hlen, decide_true, Bool.true_and, List.all_eq_true]
  exact fun p hp => (h p).mp (contains_iff.mpr ⟨p, hp, rfl⟩)

theorem eq_of_toList {t : ProblemSet} (h : s.toList = t.toList) : s = t := by
  cases s
  cases t
  cases h
  rfl

theorem toList_add (s : ProblemSet) (p : Problem) :
    (s.add p).toList = s.toList ++ if s.contains p then [] else [p] := by
  rw [add]
  by_cases h : s.contains p = true
  · simp [h]
  · simp [h]

theorem toList_add_of_new {p : Problem} (h : ∀ q ∈ s.toList, q.identity ≠ p.identity) :
    (s.add p).toList = s.toList ++ [p] := by
  have hc : ¬ s.contains p = true := fun hc => by
    obtain ⟨q, hq, he⟩ := contains_iff.mp hc
    exact h q hq he
  rw [toList_add, if_neg hc]

theorem toList_foldl_add_of_distinct
    (h : (s.toList ++ ps).Pairwise fun p q => p.identity ≠ q.identity) :
    (ps.foldl add s).toList = s.toList ++ ps := by
  induction ps generalizing s with
  | nil => rw [List.foldl_nil, List.append_nil]
  | cons p ps ih =>
    have hp := toList_add_of_new fun q hq =>
      (List.pairwise_append.mp h).2.2 q hq p List.mem_cons_self
    have happ : (s.add p).toList ++ ps = s.toList ++ p :: ps := by
      rw [hp, List.append_assoc, List.singleton_append]
    rw [List.foldl_cons, ih (happ ▸ h), happ]

theorem collect_toList (s : ProblemSet) : collect s.toList = s :=
  eq_of_toList (toList_foldl_add_of_distinct s.distinct)

end ProblemSet

end Linkage
