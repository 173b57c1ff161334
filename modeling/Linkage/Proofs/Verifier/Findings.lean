import Linkage.Proofs.Problem.Identity
import Linkage.Proofs.ProblemSet.Occurrence
import Linkage.Proofs.Verifier.Run

namespace Linkage.Verifier

open Ancestry Log

variable {P R : Type} [Resolver P] [Registrar R] {v v' v₁ : Verifier P} {report report' : Report}
  {c : ClassName} {cs : List ClassName} {u : NameSet} {us : List NameSet} {e : WalkError} {p : P}
  {s : Settings} {r : Rules}

/-- The verifiers that come from the settings and from any checks after that, failed ones
included. -/
inductive Reachable (p : P) (s : Settings) : Verifier P → Prop where
  | fresh : Reachable p s (ofSettings p s)
  | check {v : Verifier P} {R : Type} [Registrar R] (h : Reachable p s v) (c : ClassName)
    (registrar : R) : Reachable p s (v.check c registrar).value.2.2
  | verify {v : Verifier P} (h : Reachable p s v) (cs : List ClassName) :
    Reachable p s (v.verify cs).value.2

theorem Reachable.exists_after (h : Reachable p s v) :
    ∃ done, v = (ofSettings p s).after done := by
  induction h with
  | fresh => exact ⟨[], rfl⟩
  | check _ c registrar ih =>
    obtain ⟨done, rfl⟩ := ih
    refine ⟨done ++ [c], ?_⟩
    rw [check_next, after_append]
    rfl
  | verify _ cs ih =>
    obtain ⟨done, rfl⟩ := ih
    obtain ⟨more, hm⟩ := (runs_verifyFrom ((ofSettings p s).after done) .empty cs).exists_after
    refine ⟨done ++ more, ?_⟩
    rw [Verifier.verify, hm, after_append]

theorem Reachable.rules_eq (h : Reachable p s v) : v.rules = (ofSettings p s).rules := by
  obtain ⟨done, rfl⟩ := h.exists_after
  exact rules_after _ done

theorem Reachable.faithful (h : Reachable p s v) : v.session.Faithful v.rules := by
  obtain ⟨done, rfl⟩ := h.exists_after
  rw [rules_after]
  exact faithful_after (v := ofSettings p s) (Session.Faithful.empty _) done

section Batches

theorem identity_problemOf (a b : ClassName) :
    (problemOf a).identity = (problemOf b).identity ↔ a = b :=
  Problem.identity_classNotFound_iff

theorem toList_collect_problemOf (ns : List ClassName) :
    (ProblemSet.collect (ns.map problemOf)).toList = ns.eraseDups.map problemOf := by
  have hsame : (fun a b => ProblemSet.same (problemOf a) (problemOf b)) = (· == ·) := by
    funext a b
    rw [ProblemSet.same, Bool.eq_iff_iff, decide_eq_true_eq, identity_problemOf, beq_iff_eq]
  rw [ProblemSet.toList_collect, List.eraseDupsBy, ← List.map_nil, eraseDupsBy_loop_map, hsame]
  rfl

structure Lists (r : Rules) (c : ClassName) (ts : List ClassName) : Prop where
  sorted : ts.Pairwise (· < ·)
  mem_iff : ∀ t, t ∈ ts ↔ r.Unresolved c t

theorem lists_of_settles (h : r.Settles c u) : Lists r c u.toList :=
  ⟨u.sorted, fun t => by rw [NameSet.mem_toList, h.mem_iff, Rules.unresolved_iff h.found]⟩

/-- What a report says of a batch, in terms of the hierarchy: its classes are found, and each of the
unresolved names below them is listed where it first comes up and nowhere else. -/
structure Reports (r : Rules) (cs : List ClassName) (report : Report) : Prop where
  found : ∀ c ∈ cs, r.find c ≠ none
  checked : report.classesChecked = cs.length
  listed : ∃ tss : List (List ClassName), List.Forall₂ (Lists r) cs tss ∧
    report.problems.toList = tss.flatten.eraseDups.map fun t => .classNotFound ⟨t⟩
  counted : {t | ∃ c ∈ cs, r.Unresolved c t}.encard = report.problems.toList.length
  included : ∀ t, .classNotFound ⟨t⟩ ∈ report.problems.toList → r.excluded t = false

theorem reports_of_sets (h : List.Forall₂ r.Settles cs us) :
    Reports r cs (us.foldl extend .empty) := by
  have hfound : ∀ c ∈ cs, r.find c ≠ none := fun c hc => by
    obtain ⟨u, hu⟩ := exists_settles h hc
    exact hu.found
  have hlists : List.Forall₂ (Lists r) cs (us.map (·.toList)) :=
    List.forall₂_map_right_iff.mpr (h.imp fun _ _ hu => lists_of_settles hu)
  have hlist : (us.foldl extend .empty).problems.toList =
      (us.flatMap (·.toList)).eraseDups.map problemOf := by
    rw [problems_foldl_extend]
    exact toList_collect_problemOf _
  have hnodup : (us.flatMap (·.toList)).eraseDups.Nodup := by
    -- problems of distinct identities have distinct names
    have hd := (us.foldl extend .empty).problems.nodup_identities
    rw [hlist] at hd
    exact (hd.of_map _).of_map _
  have hmem (t : ClassName) :
      t ∈ (us.flatMap (·.toList)).eraseDups ↔ ∃ c ∈ cs, r.Unresolved c t := by
    rw [List.mem_eraseDups, mem_flatMap_iff h]
  refine ⟨hfound, ?_, ⟨_, hlists, hlist⟩, ?_, fun t ht => ?_⟩
  · rw [classesChecked_foldl_extend, h.length_eq]
    exact Nat.zero_add _
  · have hset : {t | ∃ c ∈ cs, r.Unresolved c t} =
        ((us.flatMap (·.toList)).eraseDups.toFinset : Set ClassName) := by
      ext t
      rw [Set.mem_ofPred_eq, Finset.mem_coe, List.mem_toFinset, hmem]
    rw [hset, Set.encard_coe_eq_coe_finsetCard, List.toFinset_card_of_nodup hnodup, hlist,
      List.length_map]
  · rw [hlist, List.mem_map] at ht
    obtain ⟨n, hn, he⟩ := ht
    have hnt : n = t := (identity_problemOf n t).mp (congrArg Problem.identity he)
    obtain ⟨c, -, -, d, -, hedge⟩ := (hmem t).mp (hnt ▸ hn)
    exact hedge.choose_spec.2.2

end Batches

/-- What a check of a class does with a registrar: nothing if the class cannot be checked, and
otherwise it adds, in the order of their names, a problem for each unresolved name below the class,
and counts these. -/
structure Registers (r : Rules) (v : Verifier P) (c : ClassName)
    (Adds : R → List Problem → R → Prop) : Prop where
  failed : ∀ (before after : R) e v', (v.check c before).value = (.error e, after, v') →
    after = before ∧ (Ancestry.collect v.rules v.session c).outcome = .error e
  registered : ∀ (before after : R) n v', (v.check c before).value = (.ok n, after, v') →
    ∃ ts, Lists r c ts ∧ n = ts.length ∧ Adds before (ts.map fun t => .classNotFound ⟨t⟩) after

theorem registers_of_faithful (hs : v.session.Faithful v.rules) (c : ClassName)
    {Adds : R → List Problem → R → Prop}
    (hadds : ∀ before ps, Adds before ps (ps.foldl Registrar.put before)) :
    Registers v.rules v c Adds := by
  cases hc : (Ancestry.collect v.rules v.session c).outcome with
  | error e =>
    constructor
    · intro before after e' v' h
      rw [check_error hc] at h
      cases h
      exact ⟨rfl, hc⟩
    · intro before after n v' h
      rw [check_error hc] at h
      cases h
  | ok u =>
    constructor
    · intro before after e' v' h
      rw [check_ok hc] at h
      cases h
    · intro before after n v' h
      rw [check_ok hc] at h
      cases h
      exact ⟨_, lists_of_settles ((collect_faithful hs c).2 u hc), rfl, hadds _ _⟩

theorem toList_foldl_put (before : ProblemSet) (ps : List Problem) :
    (ps.foldl Registrar.put before).toList =
      (before.toList ++ ps).eraseDupsBy ProblemSet.same := by
  rw [Registrar.foldl_put_set, ← ProblemSet.toList_collect, ProblemSet.collect, List.foldl_append]
  exact congrArg (fun t => (ps.foldl ProblemSet.add t).toList) before.collect_toList.symm

/-- A verifier that has been used before, whatever came of that, makes of a batch what the hierarchy
says: a report of all its classes, or the error of the first class that cannot be checked, in which
case the classes behind that one change nothing. One class puts into any registrar what is
unresolved below it, or nothing. -/
theorem verify_exact (hv : Reachable p s v) (cs : List ClassName) :
    (∀ report v', (v.verify cs).value = (.ok report, v') →
      Reports (ofSettings p s).rules cs report) ∧
    (∀ e v', (v.verify cs).value = (.error e, v') →
      ∃ before c behind report v₁, cs = before ++ c :: behind ∧
        (v.verify before).value = (.ok report, v₁) ∧
        (Ancestry.collect v₁.rules v₁.session c).outcome = .error e ∧
        v' = { v₁ with session := (Ancestry.collect v₁.rules v₁.session c).session } ∧
        ∀ others, (v.verify (before ++ c :: others)).value = (.error e, v')) ∧
    ∀ c, Registers (ofSettings p s).rules v c
        (fun before ps (after : List Problem) => after = before ++ ps) ∧
      Registers (ofSettings p s).rules v c (fun before ps (after : ProblemSet) =>
        after.toList = (before.toList ++ ps).eraseDupsBy ProblemSet.same) ∧
      ∀ (R : Type) [Registrar R], Registers (ofSettings p s).rules v c
        fun before ps (after : R) => after = ps.foldl Registrar.put before := by
  have hs := hv.faithful
  rw [← hv.rules_eq]
  refine ⟨fun report v' h => ?_, fun e v' h => ?_, fun c => ⟨?_, ?_, fun R _ => ?_⟩⟩
  · obtain ⟨-, us, hus, rfl⟩ := (Runs.of_value_eq h).exists_sets hs
    exact reports_of_sets hus
  · obtain ⟨before, c, behind, report, v₁, rfl, hb, hc, rfl⟩ := (Runs.of_value_eq h).exists_stop
    refine ⟨before, c, behind, report, v₁, rfl, hb.value_eq, hc, rfl, fun others => ?_⟩
    exact (hb.append (.stop report others hc)).value_eq
  · exact registers_of_faithful hs c Registrar.foldl_put_list
  · exact registers_of_faithful hs c toList_foldl_put
  · exact registers_of_faithful hs c fun _ _ => rfl

def gaps : List ClassDescriptor :=
  [⟨"A", some "B", ["X", "G"]⟩, ⟨"B", some "K", ["G"]⟩, ⟨"C", some "R", []⟩, ⟨"L", some "L", []⟩]

def withoutX : Settings := { exclusions := { classes := ["X"] } }

def usedVerifier : Verifier :=
  ((ofSettings (Classpath.index (.ofList gaps)) withoutX).check "L" ProblemSet.empty).value.2.2

/-- After the failure the report is complete, in the order of the batch, and the class that failed
fails again without a word to a list that has a problem in it. -/
theorem verify_exact_gaps :
    (∃ report v', (usedVerifier.verify ["C", "A"]).value = (.ok report, v') ∧
      report.problems.toList = ["R", "G", "K"].map (fun t => Problem.classNotFound ⟨t⟩) ∧
      Reports (ofSettings (Classpath.index (.ofList gaps)) withoutX).rules ["C", "A"] report) ∧
    ∃ after v', (usedVerifier.check "L" [Problem.classNotFound ⟨"Q"⟩]).value =
        (.error (.cycle "L" ["L", "L"]), after, v') ∧ after = [Problem.classNotFound ⟨"Q"⟩] := by
  have hv : Reachable (Classpath.index (.ofList gaps)) withoutX usedVerifier :=
    .check .fresh "L" ProblemSet.empty
  have hsession : usedVerifier.session = usedVerifier.rules.after {} ["L"] := by
    rw [usedVerifier, check_next]
    rfl
  have hsession' : (usedVerifier.next "C").session = usedVerifier.rules.after {} ["L", "C"] := by
    rw [next, hsession]
    rfl
  have hrules := hv.rules_eq.trans (rules_index gaps withoutX)
  generalize (Classpath.index (.ofList gaps)).describe = text at hrules
  have hL : (Ancestry.collect usedVerifier.rules usedVerifier.session "L").outcome =
      .error (.cycle "L" ["L", "L"]) := by
    rw [hsession, hrules]
    cbv
  have hC : (Ancestry.collect usedVerifier.rules usedVerifier.session "C").outcome =
      .ok ((∅ : NameSet).insert "R") := by
    rw [hsession, hrules]
    cbv
  have hA : (Ancestry.collect (usedVerifier.next "C").rules (usedVerifier.next "C").session
      "A").outcome = .ok (((∅ : NameSet).insert "G").insert "K") := by
    rw [rules_next, hsession', hrules]
    cbv
  let us := [(∅ : NameSet).insert "R", ((∅ : NameSet).insert "G").insert "K"]
  have h : (usedVerifier.verify ["C", "A"]).value =
      (.ok (us.foldl extend .empty), (usedVerifier.next "C").next "A") := by
    rw [verify, verifyFrom_ok hC, verifyFrom_ok hA]
    rfl
  have hlist : (us.foldl extend .empty).problems.toList = ["R", "G", "K"].map problemOf := by
    have hus : us.flatMap (·.toList) = ["R", "G", "K"] := by decide
    rw [problems_foldl_extend, hus]
    exact toList_collect_problemOf ["R", "G", "K"]
  have hcheck := check_error hL [Problem.classNotFound ⟨"Q"⟩]
  have hall := verify_exact hv ["C", "A"]
  exact ⟨⟨_, _, h, hlist, hall.1 _ _ h⟩, _, _, hcheck, ((hall.2.2 "L").1.failed _ _ _ _ hcheck).1⟩

end Linkage.Verifier
