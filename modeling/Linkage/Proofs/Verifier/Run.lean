import Linkage.Proofs.Ancestry.Exactness
import Linkage.Verifier

namespace Linkage.Verifier

open Ancestry

variable {P R : Type} [Resolver P] [Registrar R] {v v' : Verifier P} {report report' : Report}
  {c : ClassName} {cs : List ClassName} {u : NameSet} {us : List NameSet} {e : WalkError}
  {r : Rules} {x : Except WalkError Report}

def next (v : Verifier P) (c : ClassName) : Verifier P :=
  { v with session := (Ancestry.collect v.rules v.session c).session }

def extend (report : Report) (u : NameSet) : Report :=
  ⟨report.classesChecked + 1, (u.toList.map problemOf).foldl ProblemSet.add report.problems⟩

@[simp] theorem rules_next : (v.next c).rules = v.rules := rfl

theorem check_error (h : (Ancestry.collect v.rules v.session c).outcome = .error e)
    (registrar : R) :
    (v.check c registrar).value = (.error e, registrar, v.next c) := by
  simp [check, collect, h, next]

theorem check_ok (h : (Ancestry.collect v.rules v.session c).outcome = .ok u) (registrar : R) :
    (v.check c registrar).value =
      (.ok u.size, (u.toList.map problemOf).foldl Registrar.put registrar, v.next c) := by
  simp only [check, collect, h, Log.Logged.value_bind, Log.Logged.value_foldlM]
  rfl

theorem check_next (v : Verifier P) (c : ClassName) (registrar : R) :
    (v.check c registrar).value.2.2 = v.next c := by
  cases h : (Ancestry.collect v.rules v.session c).outcome with
  | error e => rw [check_error h]
  | ok u => rw [check_ok h]

theorem verifyFrom_error (h : (Ancestry.collect v.rules v.session c).outcome = .error e) :
    (v.verifyFrom report (c :: cs)).value = (.error e, v.next c) := by
  rw [verifyFrom, Log.Logged.value_bind, check_error h]
  rfl

theorem verifyFrom_ok (h : (Ancestry.collect v.rules v.session c).outcome = .ok u) :
    (v.verifyFrom report (c :: cs)).value = ((v.next c).verifyFrom (extend report u) cs).value := by
  rw [verifyFrom, Log.Logged.value_bind, check_ok h, Registrar.foldl_put_set]
  rfl

def after (v : Verifier P) (cs : List ClassName) : Verifier P :=
  cs.foldl next v

theorem after_append (v : Verifier P) (cs cs' : List ClassName) :
    v.after (cs ++ cs') = (v.after cs).after cs' :=
  List.foldl_append

theorem rules_after (v : Verifier P) (cs : List ClassName) : (v.after cs).rules = v.rules := by
  induction cs generalizing v with
  | nil => rfl
  | cons c cs ih => exact ih (v.next c)

theorem faithful_after (hs : v.session.Faithful v.rules) (cs : List ClassName) :
    (v.after cs).session.Faithful v.rules := by
  induction cs generalizing v with
  | nil => exact hs
  | cons c cs ih => exact ih (v := v.next c) (collect_faithful hs c).1

/-- How a batch comes to its end: class by class, up to the first one that cannot be checked. -/
inductive Runs : Verifier P → Report → List ClassName → Except WalkError Report → Verifier P → Prop
  where
  | nil (v : Verifier P) (report : Report) : Runs v report [] (.ok report) v
  | stop {v : Verifier P} (report : Report) {c : ClassName} (cs : List ClassName) {e : WalkError}
    (hc : (Ancestry.collect v.rules v.session c).outcome = .error e) :
    Runs v report (c :: cs) (.error e) (v.next c)
  | cons {v v' : Verifier P} {report : Report} {c : ClassName} {cs : List ClassName} {u : NameSet}
    {x : Except WalkError Report} (hc : (Ancestry.collect v.rules v.session c).outcome = .ok u)
    (h : Runs (v.next c) (extend report u) cs x v') : Runs v report (c :: cs) x v'

theorem runs_verifyFrom (v : Verifier P) (report : Report) (cs : List ClassName) :
    Runs v report cs (v.verifyFrom report cs).value.1 (v.verifyFrom report cs).value.2 := by
  induction cs generalizing v report with
  | nil => exact .nil v report
  | cons c cs ih =>
    cases hc : (Ancestry.collect v.rules v.session c).outcome with
    | error e =>
      rw [verifyFrom_error hc]
      exact .stop report cs hc
    | ok u =>
      rw [verifyFrom_ok hc]
      exact .cons hc (ih (v.next c) (extend report u))

theorem Runs.of_value_eq (h : (v.verifyFrom report cs).value = (x, v')) :
    Runs v report cs x v' := by
  have hr := runs_verifyFrom v report cs
  rwa [h] at hr

theorem Runs.value_eq (h : Runs v report cs x v') : (v.verifyFrom report cs).value = (x, v') := by
  induction h with
  | nil => rfl
  | stop _ _ hc => exact verifyFrom_error hc
  | cons hc _ ih => rw [verifyFrom_ok hc, ih]

theorem Runs.exists_after (h : Runs v report cs x v') : ∃ done, v' = v.after done := by
  induction h with
  | nil v => exact ⟨[], rfl⟩
  | @stop _ _ c => exact ⟨[c], rfl⟩
  | @cons _ _ _ c _ _ _ _ _ ih =>
    obtain ⟨done, rfl⟩ := ih
    exact ⟨c :: done, rfl⟩

/-- A batch that is checked to its end extends the report by the set of each class in turn. -/
theorem Runs.exists_sets (h : Runs v report cs (.ok report') v')
    (hs : v.session.Faithful v.rules) :
    v' = v.after cs ∧
      ∃ us, List.Forall₂ v.rules.Settles cs us ∧ report' = us.foldl extend report := by
  generalize hx : Except.ok report' = x at h
  induction h with
  | nil =>
    cases hx
    exact ⟨rfl, [], .nil, rfl⟩
  | stop => cases hx
  | @cons _ _ _ c _ u _ hc _ ih =>
    obtain ⟨hs', hu⟩ := collect_faithful hs c
    obtain ⟨rfl, us, hus, rfl⟩ := ih hs' hx
    exact ⟨rfl, u :: us, .cons (hu u hc) hus, rfl⟩

theorem Runs.append (h : Runs v report cs (.ok report') v') {cs' : List ClassName}
    {v'' : Verifier P} (h' : Runs v' report' cs' x v'') : Runs v report (cs ++ cs') x v'' := by
  generalize hy : Except.ok report' = y at h
  induction h with
  | nil =>
    cases hy
    exact h'
  | stop => cases hy
  | cons hc _ ih => exact .cons hc (ih h' hy)

theorem Runs.exists_stop (h : Runs v report cs (.error e) v') :
    ∃ before c behind report' v₁, cs = before ++ c :: behind ∧
      Runs v report before (.ok report') v₁ ∧
      (Ancestry.collect v₁.rules v₁.session c).outcome = .error e ∧ v' = v₁.next c := by
  generalize hx : Except.error e = x at h
  induction h with
  | nil => cases hx
  | @stop v report c cs _ hc =>
    cases hx
    exact ⟨[], c, cs, report, v, rfl, .nil v report, hc, rfl⟩
  | @cons _ _ _ c _ _ _ hc _ ih =>
    obtain ⟨before, n, behind, report', v₁, rfl, hb, hn, rfl⟩ := ih hx
    exact ⟨c :: before, n, behind, report', v₁, rfl, .cons hc hb, hn, rfl⟩

section Sets

theorem classesChecked_foldl_extend (report : Report) (us : List NameSet) :
    (us.foldl extend report).classesChecked = report.classesChecked + us.length := by
  induction us generalizing report with
  | nil => rfl
  | cons u us ih =>
    have hu : (extend report u).classesChecked = report.classesChecked + 1 := rfl
    rw [List.foldl_cons, ih, List.length_cons, hu]
    omega

theorem problems_foldl_extend (report : Report) (us : List NameSet) :
    (us.foldl extend report).problems =
      ((us.flatMap (·.toList)).map problemOf).foldl ProblemSet.add report.problems := by
  induction us generalizing report with
  | nil => rfl
  | cons u us ih =>
    rw [List.foldl_cons, ih, List.flatMap_cons, List.map_append, List.foldl_append, extend]

theorem exists_settles (h : List.Forall₂ r.Settles cs us) (hc : c ∈ cs) : ∃ u, r.Settles c u := by
  obtain ⟨i, hi, rfl⟩ := List.mem_iff_getElem.mp hc
  exact ⟨_, h.get hi (h.length_eq ▸ hi)⟩

theorem mem_flatMap_iff (h : List.Forall₂ r.Settles cs us) (t : ClassName) :
    t ∈ us.flatMap (·.toList) ↔ ∃ c ∈ cs, r.Unresolved c t := by
  induction h with
  | nil => simp
  | cons hu _ ih =>
    rw [List.flatMap_cons, List.mem_append, ih, NameSet.mem_toList, hu.mem_iff,
      ← Rules.unresolved_iff hu.found]
    simp only [List.mem_cons, exists_eq_or_imp]

end Sets

def listRules (ds : List ClassDescriptor) (s : Settings) (text : String) : Rules where
  find n := ds.reverse.find? (·.name = n)
  resolver := text
  excluded := s.exclusions.excludes
  maxDepth := s.traversal.maxDepth

theorem rules_index (ds : List ClassDescriptor) (s : Settings) :
    (ofSettings (Classpath.index (.ofList ds)) s).rules =
      listRules ds s (Classpath.index (.ofList ds)).describe := by
  let r := listRules ds s (Classpath.index (.ofList ds)).describe
  have hfind : (ofSettings (Classpath.index (.ofList ds)) s).rules.find = r.find := by
    funext n
    show (Classpath.index (.ofList ds)).find? n = _
    rw [Classpath.find?_index, ClassIndex.find?_ofList]
    rfl
  exact congrArg (fun f => { r with find := f }) hfind

end Linkage.Verifier
