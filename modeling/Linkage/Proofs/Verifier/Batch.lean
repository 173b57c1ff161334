import Linkage.Proofs.Ancestry.Sharing
import Linkage.Proofs.ProblemSet.Occurrence
import Linkage.Proofs.Verifier.Run

namespace Linkage

open Ancestry

namespace Verifier

variable {P : Type} [Resolver P] {v : Verifier P} {report report' : Report} {c : ClassName}
  {cs cs' : List ClassName} {u : NameSet} {e : WalkError} {p : P} {s : Settings}

def outcome (p : P) (s : Settings) (cs : List ClassName) : Except WalkError Report :=
  ((ofSettings p s).verify cs).value.1

/-- What a batch that is checked to its end adds to a report, in terms of the hierarchy alone. -/
structure Completes (r : Rules) (cs : List ClassName) (report report' : Report) : Prop where
  checked : report'.classesChecked = report.classesChecked + cs.length
  settled : ∀ c ∈ cs, r.find c ≠ none ∧ ¬ r.Cyclic c
  contains_iff : ∀ q, report'.problems.contains q = true ↔ report.problems.contains q = true ∨
    ∃ c ∈ cs, ∃ t, r.Unresolved c t ∧ (problemOf t).identity = q.identity

theorem completes_of_verifyFrom (hs : v.session.Faithful v.rules)
    (h : (v.verifyFrom report cs).value.1 = .ok report') :
    Completes v.rules cs report report' := by
  obtain ⟨-, us, hus, rfl⟩ := (Runs.of_value_eq (Prod.ext h rfl)).exists_sets hs
  constructor
  · rw [classesChecked_foldl_extend, hus.length_eq]
  · intro c hc
    obtain ⟨u, hu⟩ := exists_settles hus hc
    exact ⟨hu.found, hu.grounded.not_cyclic⟩
  · intro q
    rw [problems_foldl_extend, ProblemSet.contains_foldl_add]
    simp only [List.mem_map, exists_exists_and_eq_and, mem_flatMap_iff hus]
    refine or_congr_right ⟨?_, ?_⟩
    · rintro ⟨t, ⟨c, hc, ht⟩, hq⟩
      exact ⟨c, hc, t, ht, hq⟩
    · rintro ⟨c, hc, t, ht, hq⟩
      exact ⟨t, ⟨c, hc, ht⟩, hq⟩

theorem exists_collect_error (hs : v.session.Faithful v.rules)
    (h : (v.verifyFrom report cs).value.1 = .error e) :
    ∃ c ∈ cs, ∃ s : Session, s.Faithful v.rules ∧
      (Ancestry.collect v.rules s c).outcome = .error e := by
  obtain ⟨before, c, behind, report', v₁, rfl, hb, hc, -⟩ :=
    (Runs.of_value_eq (Prod.ext h rfl)).exists_stop
  obtain ⟨rfl, -⟩ := hb.exists_sets hs
  rw [rules_after] at hc
  exact ⟨c, by simp, (v.after before).session, faithful_after hs before, hc⟩

theorem sameAs_of_completes {r : Rules} {report₁ report₂ : Report} (hp : cs.Perm cs')
    (h₁ : Completes r cs report report₁) (h₂ : Completes r cs' report report₂) :
    report₁.sameAs report₂ = true := by
  have hchecked : report₁.classesChecked = report₂.classesChecked := by
    rw [h₁.checked, h₂.checked, hp.length_eq]
  have hproblems : report₁.problems.sameProblems report₂.problems = true := by
    refine ProblemSet.sameProblems_of_contains fun q => ?_
    rw [h₁.contains_iff, h₂.contains_iff]
    simp only [hp.mem_iff]
  simp only [Report.sameAs, hchecked, hproblems, decide_true, Bool.true_and]

theorem tooDeep_of_error {r : Rules} {s : Session} (hs : s.Faithful r)
    (hc : r.find c ≠ none ∧ ¬ r.Cyclic c) (h : (Ancestry.collect r s c).outcome = .error e) :
    e = .tooDeep c r.maxDepth ∧
      ∃ path, r.Trail c path ∧ path.length = max 1 r.maxDepth + 1 := by
  cases hs.obstacle hc.1 h with
  | cycle hp ht hl _ => exact absurd (hp.cyclic ht hl) hc.2
  | tooDeep hp hl => exact ⟨rfl, _, hp, hl⟩

theorem tooDeep_alone (hs : v.session.Faithful v.rules) (hv : v.session = {}) {s' : Session}
    (hs' : s'.Faithful v.rules) (hc : v.rules.find c ≠ none ∧ ¬ v.rules.Cyclic c)
    (h : (Ancestry.collect v.rules s' c).outcome = .error e) :
    (v.verify [c]).value.1 = .error (.tooDeep c v.rules.maxDepth) := by
  cases ha : (Ancestry.collect v.rules v.session c).outcome with
  | ok u =>
    have hw : v.session.Within s' := hv ▸ Session.within_empty s'
    obtain ⟨k, hk⟩ := collect_mono hs hs' hw ha
    rw [hk] at h
    cases h
  | error e' =>
    obtain ⟨rfl, -⟩ := tooDeep_of_error hs hc ha
    rw [verify, verifyFrom_error ha]

/-- If one order of a batch is checked to its end, then so is every other order, with an equal
report, unless it comes upon the limit at a class that is too deep to be checked alone. -/
theorem sameAs_or_tooDeep (h : outcome p s cs = .ok report) (hp : cs.Perm cs') :
    (∃ report', outcome p s cs' = .ok report' ∧ report.sameAs report' = true) ∨
    ∃ c ∈ cs', outcome p s cs' = .error (.tooDeep c s.traversal.maxDepth) ∧
      outcome p s [c] = .error (.tooDeep c s.traversal.maxDepth) ∧
      ∃ path, (ofSettings p s).rules.Trail c path ∧
        path.length = max 1 s.traversal.maxDepth + 1 := by
  have hs : (ofSettings p s).session.Faithful (ofSettings p s).rules := Session.Faithful.empty _
  have hc := completes_of_verifyFrom hs h
  cases h' : outcome p s cs' with
  | ok report' =>
    have hc' := completes_of_verifyFrom hs h'
    exact .inl ⟨report', rfl, sameAs_of_completes hp hc hc'⟩
  | error e =>
    obtain ⟨c, hm, s', hs', he⟩ := exists_collect_error hs h'
    have hsettled := hc.settled c (hp.mem_iff.mpr hm)
    have halone := tooDeep_alone hs rfl hs' hsettled he
    obtain ⟨rfl, hpath⟩ := tooDeep_of_error hs' hsettled he
    exact .inr ⟨c, hm, rfl, halone, hpath⟩

/-- Of a batch that is checked to its end in one order, all orders are checked to their ends exactly
if every class of it can be checked alone. Those that are have equal reports, and the others come
upon the limit at a class that heads a chain of more found classes than the limit allows. -/
theorem verify_perm (p : P) (s : Settings) (h : outcome p s cs = .ok report) :
    ((∀ cs', cs.Perm cs' → ∃ report', outcome p s cs' = .ok report') ↔
      ∀ c ∈ cs, ∃ alone, outcome p s [c] = .ok alone) ∧
    ∀ cs', cs.Perm cs' →
      (∃ report', outcome p s cs' = .ok report' ∧ report.sameAs report' = true) ∨
      ∃ c ∈ cs', outcome p s cs' = .error (.tooDeep c s.traversal.maxDepth) ∧
        outcome p s [c] = .error (.tooDeep c s.traversal.maxDepth) ∧
        ∃ path, (ofSettings p s).rules.Trail c path ∧
          path.length = max 1 s.traversal.maxDepth + 1 := by
  refine ⟨⟨fun hall c hm => ?_, fun halone cs' hp => ?_⟩, fun cs' hp => sameAs_or_tooDeep h hp⟩
  · -- some order has the class in front, where the session is still fresh
    obtain ⟨report', h'⟩ := hall (c :: cs.erase c) (List.perm_cons_erase hm)
    cases ha : (Ancestry.collect (ofSettings p s).rules (ofSettings p s).session c).outcome with
    | ok u => exact ⟨_, congrArg Prod.fst (verifyFrom_ok ha)⟩
    | error e =>
      rw [outcome, verify, verifyFrom_error ha] at h'
      cases h'
  · rcases sameAs_or_tooDeep h hp with ⟨report', h', -⟩ | ⟨c, hm, -, he, -⟩
    · exact ⟨report', h'⟩
    · obtain ⟨alone, ha⟩ := halone c (hp.mem_iff.mpr hm)
      rw [he] at ha
      cases ha

def ladder : Classpath :=
  .index (.ofList [⟨"A", some "B", []⟩, ⟨"B", some "C", []⟩, ⟨"C", none, []⟩])

def twoLevels : Settings := { traversal := ⟨2⟩ }

def ladderRules (text : String) : Rules where
  find n := [⟨"C", none, []⟩, ⟨"B", some "C", []⟩, ⟨"A", some "B", []⟩].find?
    fun c : ClassDescriptor => c.name = n
  resolver := text
  excluded _ := false
  maxDepth := 2

theorem rules_ladder : (ofSettings ladder twoLevels).rules = ladderRules ladder.describe :=
  rules_index [⟨"A", some "B", []⟩, ⟨"B", some "C", []⟩, ⟨"C", none, []⟩] twoLevels

/-- Once `B` is memoised, nothing below it counts towards the depth of `A`. -/
theorem ladder_lowest_first : outcome ladder twoLevels ["B", "A"] = .ok ⟨2, .empty⟩ := by
  -- the text of the ladder counts the classes of a hash map, which does not evaluate
  have hB (text : String) : (Ancestry.collect (ladderRules text) {} "B").outcome = .ok ∅ := by cbv
  have hA (text : String) : (Ancestry.collect (ladderRules text)
      (Ancestry.collect (ladderRules text) {} "B").session "A").outcome = .ok ∅ := by cbv
  have hB := hB ladder.describe
  have hA := hA ladder.describe
  rw [← rules_ladder] at hA hB
  rw [outcome, verify, verifyFrom_ok hB, verifyFrom_ok hA]
  rfl

theorem ladder_highest_first :
    outcome ladder twoLevels ["A", "B"] = .error (.tooDeep "A" 2) := by
  have hA (text : String) :
      (Ancestry.collect (ladderRules text) {} "A").outcome = .error (.tooDeep "A" 2) := by cbv
  have hA := hA ladder.describe
  rw [← rules_ladder] at hA
  rw [outcome, verify, verifyFrom_error hA]

theorem verify_perm_ladder :
    outcome ladder twoLevels ["B", "A"] = .ok ⟨2, .empty⟩ ∧
      ¬ ∀ c ∈ ["B", "A"], ∃ alone, outcome ladder twoLevels [c] = .ok alone := by
  refine ⟨ladder_lowest_first, fun halone => ?_⟩
  have hall := (verify_perm ladder twoLevels ladder_lowest_first).1.mpr halone
  obtain ⟨report, h⟩ := hall ["A", "B"] (List.Perm.swap "A" "B" [])
  rw [ladder_highest_first] at h
  cases h

theorem verify_order_matters :
    twoLevels.isValid = true ∧ ["B", "A"].Perm ["A", "B"] ∧
      outcome ladder twoLevels ["B", "A"] = .ok ⟨2, .empty⟩ ∧
      outcome ladder twoLevels ["A", "B"] = .error (.tooDeep "A" 2) :=
  ⟨rfl, List.Perm.swap "A" "B" [], ladder_lowest_first, ladder_highest_first⟩

end Verifier

end Linkage
