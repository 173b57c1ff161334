import Mathlib
import Linkage.Proofs.Report.RoundTrip

namespace Linkage.ProblemSet

open Document Log

variable {ps : List Problem} {s t : ProblemSet} {p : Problem}

inductive Addition where
  | insert (p : Problem)
  | register (p : Problem)

namespace Addition

def problem : Addition → Problem
  | .insert p => p
  | .register p => p

def apply (s : ProblemSet) : Addition → Logged ProblemSet
  | .insert p => (·.2) <$> s.insert p
  | .register p => s.register p

end Addition

/-- A set of some problems to which others are added one by one. -/
def fill (initial : List Problem) (added : List Addition) : Logged ProblemSet := do
  added.foldlM Addition.apply (← ofList initial)

def IsNew (p : Problem) (earlier : List Problem) : Prop :=
  ∀ q ∈ earlier, q.identity ≠ p.identity

instance (p : Problem) (earlier : List Problem) : Decidable (IsNew p earlier) :=
  inferInstanceAs (Decidable (∀ q ∈ earlier, q.identity ≠ p.identity))

/-- The problems that are the same as none in front of them. -/
def firsts (ps : List Problem) : List Problem :=
  (ps.zipIdx.filter fun e => IsNew e.1 (ps.take e.2)).map (·.1)

def announcement (p : Problem) : Event :=
  .problemRegistered p.kind.name p.description

theorem not_isNew_iff : ¬ IsNew p ps ↔ ∃ q ∈ ps, q.identity = p.identity := by
  simp only [IsNew, ne_eq, not_forall, not_not, exists_prop]

theorem contains_collect : (collect ps).contains p = true ↔ ¬ IsNew p ps := by
  rw [not_isNew_iff, collect, contains_foldl_add]
  simp [contains, empty]

theorem firsts_concat (ps : List Problem) (p : Problem) :
    firsts (ps ++ [p]) = firsts ps ++ if IsNew p ps then [p] else [] := by
  -- the earlier positions see nothing of the last problem
  have hfront : (ps.zipIdx.filter fun e => IsNew e.1 ((ps ++ [p]).take e.2)) =
      ps.zipIdx.filter fun e => IsNew e.1 (ps.take e.2) := by
    apply List.filter_congr
    intro e he
    have hlt : e.2 < 0 + ps.length := List.snd_lt_add_of_mem_zipIdx he
    rw [List.take_append_of_le_length (by omega)]
  have hlast : ([(p, ps.length)].filter fun e => IsNew e.1 ((ps ++ [p]).take e.2)).map (·.1) =
      if IsNew p ps then [p] else [] := by
    simp only [List.filter_singleton, List.take_left']
    by_cases hp : IsNew p ps <;> simp [hp]
  rw [firsts, List.zipIdx_append, List.filter_append, List.map_append, hfront, Nat.zero_add,
    List.zipIdx_singleton, hlast]
  rfl

theorem toList_collect_eq_firsts (ps : List Problem) : (collect ps).toList = firsts ps := by
  induction ps using List.reverseRecOn with
  | nil => rfl
  | append_singleton ps p ih =>
    have hadd : collect (ps ++ [p]) = (collect ps).add p := List.foldl_concat add empty p ps
    rw [hadd, toList_add, firsts_concat, ih]
    by_cases hp : IsNew p ps
    · have hc : ¬ (collect ps).contains p = true := mt contains_collect.mp (not_not_intro hp)
      simp [hp, hc]
    · simp [hp, contains_collect.mpr hp]

theorem value_apply (s : ProblemSet) (a : Addition) : (a.apply s).value = s.add a.problem := by
  cases a with
  | insert p => exact congrArg Prod.snd (value_insert s p)
  | register p => exact value_register s p

theorem events_insert (s : ProblemSet) (p : Problem) :
    (s.insert p).events = if s.contains p then [] else [announcement p] := by
  rw [insert]
  split
  · rfl
  · rfl

theorem events_apply (s : ProblemSet) (a : Addition) :
    (a.apply s).events = if s.contains a.problem then [] else [announcement a.problem] := by
  cases a with
  | insert p =>
    rw [Addition.apply, Logged.events_map, events_insert]
    rfl
  | register p =>
    rw [Addition.apply, register, Logged.events_bind, events_insert]
    exact List.append_nil _

theorem announced_apply (s : ProblemSet) (a : Addition) :
    s.toList.map announcement ++ (a.apply s).events =
      (a.apply s).value.toList.map announcement := by
  rw [value_apply, events_apply, toList_add, List.map_append]
  split
  · rfl
  · rfl

theorem value_foldlM_apply (s : ProblemSet) (added : List Addition) :
    (added.foldlM Addition.apply s).value = (added.map (·.problem)).foldl add s := by
  simp only [Logged.value_foldlM, value_apply, List.foldl_map]

theorem announced_foldlM_apply (s : ProblemSet) (added : List Addition) :
    s.toList.map announcement ++ (added.foldlM Addition.apply s).events =
      (added.foldlM Addition.apply s).value.toList.map announcement := by
  induction added generalizing s with
  | nil => exact List.append_nil _
  | cons a added ih =>
    rw [List.foldlM_cons, Logged.events_bind, Logged.value_bind, ← List.append_assoc,
      announced_apply, ih]

theorem fill_eq (initial : List Problem) (added : List Addition) :
    fill initial added = (initial.map Addition.register ++ added).foldlM Addition.apply empty := by
  rw [fill, ofList, List.foldlM_append, List.foldlM_map]
  rfl

theorem value_fill (initial : List Problem) (added : List Addition) :
    (fill initial added).value = collect (initial ++ added.map (·.problem)) := by
  have hinitial : (initial.map Addition.register).map (·.problem) = initial := by
    rw [List.map_map]
    exact List.map_id initial
  rw [fill_eq, value_foldlM_apply, List.map_append, hinitial]
  rfl

theorem events_fill (initial : List Problem) (added : List Addition) :
    (fill initial added).events = (fill initial added).value.toList.map announcement := by
  rw [fill_eq]
  exact announced_foldlM_apply empty _

theorem mem_identities_collect {i : ProblemKind × String} :
    i ∈ (collect ps).toList.map (·.identity) ↔ i ∈ ps.map (·.identity) := by
  have hcontains : ∀ p : Problem, p.identity ∈ (collect ps).toList.map (·.identity) ↔
      p.identity ∈ ps.map (·.identity) := by
    intro p
    rw [← contains_iff_mem_identities, contains_collect, not_isNew_iff, List.mem_map]
  constructor
  · intro h
    obtain ⟨p, -, rfl⟩ := List.mem_map.mp h
    exact (hcontains p).mp h
  · intro h
    obtain ⟨p, -, rfl⟩ := List.mem_map.mp h
    exact (hcontains p).mpr h

theorem size_collect (ps : List Problem) :
    (collect ps).size = (ps.map (·.identity)).toFinset.card := by
  have hids : (ps.map (·.identity)).toFinset =
      ((collect ps).toList.map (·.identity)).toFinset := by
    ext i
    rw [List.mem_toFinset, List.mem_toFinset, mem_identities_collect]
  rw [hids, List.toFinset_card_of_nodup (nodup_identities _), List.length_map, size]

theorem mem_ofKind {k : ProblemKind} : p ∈ s.ofKind k ↔ p ∈ s.toList ∧ p.kind = k := by
  rw [ofKind, List.mem_filter, decide_eq_true_eq]

theorem perm_kinds (ps : List Problem) :
    (ProblemKind.all.flatMap fun k => ps.filter fun p => p.kind = k).Perm ps := by
  induction ps with
  | nil => exact List.Perm.refl []
  | cons p ps ih =>
    simp only [ProblemKind.all, List.flatMap_cons, List.flatMap_nil, List.append_nil] at ih ⊢
    cases hk : p.kind with
    | classNotFound =>
      simp only [List.filter_cons, hk, reduceCtorEq, decide_true, decide_false, ↓reduceIte]
      exact ih.cons p
    | invokeInterfaceOnStaticMethod =>
      simp only [List.filter_cons, hk, reduceCtorEq, decide_true, decide_false, ↓reduceIte]
      exact List.perm_middle.trans (ih.cons p)
    | illegalClassAccess =>
      simp only [List.filter_cons, hk, reduceCtorEq, decide_true, decide_false, ↓reduceIte]
      rw [← List.append_assoc] at ih ⊢
      exact List.perm_middle.trans (ih.cons p)

theorem sameProblems_iff : s.sameProblems t = true ↔
    ∀ i, i ∈ s.toList.map (·.identity) ↔ i ∈ t.toList.map (·.identity) := by
  constructor
  · intro h
    simp only [sameProblems, Bool.and_eq_true, decide_eq_true_eq, List.all_eq_true] at h
    obtain ⟨hsize, hall⟩ := h
    have hsub : s.toList.map (·.identity) ⊆ t.toList.map (·.identity) := by
      intro i hi
      obtain ⟨p, hp, rfl⟩ := List.mem_map.mp hi
      exact contains_iff_mem_identities.mp (hall p hp)
    -- as many identities, each once, and all of them there
    have hperm := (List.subperm_of_subset s.nodup_identities hsub).perm_of_length_le (by
      rw [List.length_map, List.length_map]
      exact hsize.ge)
    exact fun i => hperm.mem_iff
  · intro h
    apply sameProblems_of_contains
    intro q
    rw [contains_iff_mem_identities, contains_iff_mem_identities, h]

theorem read_collect {text : String}
    (h : (Json.parse text).read (readList "a sequence" Problem.ofNode) = .ok ps) :
    (Json.parse text).read ofNode = .ok (collect ps) := by
  obtain ⟨hroot, htrailing⟩ := Parsed.read_eq_ok_iff.mp h
  apply Parsed.read_eq_ok_iff.mpr
  refine ⟨?_, htrailing⟩
  rw [ofNode, readList_wanted hroot "a set"]
  rfl

theorem read_render_list (ps : List Problem) :
    (Json.parse (Json.array (ps.map Problem.toJson)).render).read
      (readList "a sequence" Problem.ofNode) = .ok ps := by
  have hdepth : (Json.array (ps.map Problem.toJson)).depth ≤ Json.maxDepth :=
    (Problem.depth_list_le ps).trans (by decide)
  exact Json.read_parse_render (Problem.inWords_list ps) hdepth
    (Problem.readList_node "a sequence" ps)

/-- However a sequence of problems comes into a set, made of some of them at once with the others
added one by one, the set lists those that are the same as none before them, each as it was then. An
insertion says whether its problem is one of these, and each of them is announced once, in order.
Reading a written list of the problems gives the same set, and sets are equal if they hold the same
identities. -/
theorem fill_exact (initial : List Problem) (added : List Addition) :
    let ps := initial ++ added.map (·.problem)
    let s := (fill initial added).value
    s.toList = firsts ps ∧
    (∀ p, (s.insert p).value.1 = true ↔ IsNew p ps) ∧
    (∀ p, s.contains p = true ↔ ∃ q ∈ ps, q.identity = p.identity) ∧
    s.size = (ps.map (·.identity)).toFinset.card ∧
    ((∀ k, (s.ofKind k).Sublist s.toList ∧ ∀ p, p ∈ s.ofKind k ↔ p ∈ s.toList ∧ p.kind = k) ∧
      (ProblemKind.all.flatMap s.ofKind).Perm s.toList) ∧
    (fill initial added).events = s.toList.map announcement ∧
    ((Json.parse (Json.array (ps.map Problem.toJson)).render).read ofNode = .ok s ∧
      ∀ text, (Json.parse text).read (readList "a sequence" Problem.ofNode) = .ok ps →
        (Json.parse text).read ofNode = .ok s) ∧
    ∀ t : ProblemSet, s.sameProblems t = true ↔
      ∀ i, i ∈ ps.map (·.identity) ↔ i ∈ t.toList.map (·.identity) := by
  intro ps s
  have hs : s = collect ps := value_fill initial added
  have hcontains : ∀ p, s.contains p = true ↔ ¬ IsNew p ps := by
    intro p
    rw [hs, contains_collect]
  refine ⟨?_, ?_, ?_, ?_, ⟨?_, ?_⟩, ?_, ⟨?_, ?_⟩, ?_⟩
  · rw [hs, toList_collect_eq_firsts]
  · intro p
    rw [value_insert, Bool.not_eq_true', ← Bool.not_eq_true, hcontains, not_not]
  · intro p
    rw [hcontains, not_isNew_iff]
  · rw [hs, size_collect]
  · exact fun k => ⟨List.filter_sublist, fun p => mem_ofKind⟩
  · exact perm_kinds s.toList
  · exact events_fill initial added
  · rw [hs]
    exact read_collect (read_render_list ps)
  · intro text h
    rw [hs]
    exact read_collect h
  · intro t
    rw [sameProblems_iff, hs]
    simp only [mem_identities_collect]

def recut : List Problem :=
  [.illegalClassAccess ⟨"a", .privateAccess, "b from c"⟩, .classNotFound ⟨"x"⟩,
    .illegalClassAccess ⟨"a from b", .privateAccess, "c"⟩]

def recutText : String :=
  "[[\"illegal_class_access\", \"a\", \"private\", \"b from c\"],\n [\"class_not_found\", \"x\"],
    [\"illegal_class_access\", \"a from b\", \"private\", \"c\"]]"

theorem fill_exact_recut :
    (Json.parse recutText).read (readList "a sequence" Problem.ofNode) = .ok recut ∧
      (Json.parse recutText).read ofNode =
        .ok (fill [.illegalClassAccess ⟨"a", .privateAccess, "b from c"⟩]
          [.register (.classNotFound ⟨"x"⟩),
            .insert (.illegalClassAccess ⟨"a from b", .privateAccess, "c"⟩)]).value ∧
      firsts recut = recut.take 2 := by
  have hread : (Json.parse recutText).read (readList "a sequence" Problem.ofNode) = .ok recut := by
    cbv
  obtain ⟨-, -, -, -, -, -, ⟨-, h⟩, -⟩ := fill_exact
    [.illegalClassAccess ⟨"a", .privateAccess, "b from c"⟩]
    [.register (.classNotFound ⟨"x"⟩),
      .insert (.illegalClassAccess ⟨"a from b", .privateAccess, "c"⟩)]
  exact ⟨hread, h recutText hread, by decide +kernel⟩

end Linkage.ProblemSet
