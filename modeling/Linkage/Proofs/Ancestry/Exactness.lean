import Mathlib
import Linkage.Proofs.Ancestry.Failure
import Linkage.Proofs.Ancestry.Memo

namespace Linkage.Ancestry

variable {r : Rules} {s s' : Session} {c n t : ClassName} {u known : NameSet}
  {d : ClassDescriptor} {e : WalkError} {done edges : List ClassName} {notes : List Note}

structure Rules.Settles (r : Rules) (c : ClassName) (u : NameSet) : Prop where
  found : r.find c ≠ none
  mem_iff : ∀ t, t ∈ u ↔ r.find t = none ∧ r.Leads c t
  grounded : r.Grounded c

/-- The set is what these edges of a class give. -/
structure Rules.Gathers (r : Rules) (done : List ClassName) (u : NameSet) : Prop where
  mem_iff : ∀ t, t ∈ u ↔ r.find t = none ∧ ∃ e ∈ done, r.excluded e = false ∧ r.Leads e t
  grounded : ∀ e ∈ done, r.excluded e = false → r.Grounded e

/-- A session that says nothing but the truth about the hierarchy, and that has memoised, with a
class, all that the class leads to. -/
structure Session.Faithful (r : Rules) (s : Session) : Prop where
  missing : ∀ n, s.isMissing n = true → r.find n = none
  settled : ∀ n u, s.cached? n = some u → r.Settles n u
  closed : ∀ n d, s.cached? n ≠ none → r.find n = some d → s.Covers r d.ancestors

namespace Rules

theorem Gathers.nil : r.Gathers [] ∅ :=
  ⟨fun t => by simp, fun e he => absurd he List.not_mem_nil⟩

theorem Gathers.snoc {v : NameSet} (h : r.Gathers done u)
    (hv : ∀ n, n ∈ v ↔ n ∈ u ∨ r.find n = none ∧ r.excluded t = false ∧ r.Leads t n)
    (hg : r.excluded t = false → r.Grounded t) : r.Gathers (done ++ [t]) v := by
  constructor
  · intro n
    rw [hv, h.mem_iff]
    simp only [List.mem_append, List.mem_singleton, or_and_right, exists_or, exists_eq_left,
      and_or_left]
  · intro e hm hx
    cases List.mem_append.mp hm with
    | inl hm => exact h.grounded e hm hx
    | inr hm =>
      rw [List.mem_singleton] at hm
      subst hm
      exact hg hx

theorem Gathers.skip (h : r.Gathers done u) (he : r.excluded t = true) :
    r.Gathers (done ++ [t]) u :=
  h.snoc (by simp [he]) (by simp [he])

theorem Gathers.join (h : r.Gathers done u) (he : r.excluded t = false)
    (hk : r.Settles t known) : r.Gathers (done ++ [t]) (u ∪ known) := by
  refine h.snoc (fun n => ?_) fun _ => hk.grounded
  rw [NameSet.mem_union, hk.mem_iff]
  simp only [he, true_and]

theorem Gathers.miss (h : r.Gathers done u) (he : r.excluded t = false)
    (ht : r.find t = none) : r.Gathers (done ++ [t]) (u.insert t) := by
  refine h.snoc (fun n => ?_) fun _ => grounded_of_missing ht
  rw [NameSet.mem_insert, leads_of_missing ht, or_comm]
  constructor
  · rintro (hn | rfl)
    · exact .inl hn
    · exact .inr ⟨ht, he, rfl⟩
  · rintro (hn | ⟨-, -, rfl⟩)
    · exact .inl hn
    · exact .inr rfl

theorem Gathers.settles (h : r.Gathers d.ancestors u) (hd : r.find c = some d) :
    r.Settles c u where
  found := by simp [hd]
  mem_iff t := by
    rw [h.mem_iff]
    exact and_congr_right fun ht => (leads_iff_of_missing ht hd).symm
  grounded := grounded_of_ancestors hd h.grounded

end Rules

namespace Session

theorem Faithful.empty (r : Rules) : Faithful r {} where
  missing n h := by simp [isMissing] at h
  settled n u h := by simp [cached?] at h
  closed n d h := by simp [cached?] at h

theorem Faithful.record (hs : s.Faithful r) (hd : r.find c = some d) (hu : r.Settles c u)
    (hc : s.Covers r d.ancestors) : (s.record c u).Faithful r := by
  constructor
  · intro n hn
    exact hs.missing n (by simpa using hn)
  · intro n v hv
    by_cases hc : s.cached? c = none
    · by_cases hn : n = c
      · subst hn
        rw [cached?_record_self hc, Option.some.injEq] at hv
        exact hv ▸ hu
      · rw [cached?_record_ne u hn] at hv
        exact hs.settled n v hv
    · rw [record_of_cached u hc] at hv
      exact hs.settled n v hv
  · intro n e hn he
    refine Covers.within ?_ (within_record s c u)
    rcases cached?_record_ne_none.mp hn with rfl | hn
    · rw [hd, Option.some.injEq] at he
      exact he ▸ hc
    · exact hs.closed n e hn he

theorem Faithful.countLookup (hs : s.Faithful r) : s.countLookup.Faithful r :=
  ⟨hs.missing, hs.settled, hs.closed⟩

theorem Faithful.recordMissing (hs : s.Faithful r) (hn : r.find n = none) :
    (s.recordMissing n).Faithful r := by
  constructor
  · intro m hm
    rcases isMissing_recordMissing.mp hm with rfl | hm
    · exact hn
    · exact hs.missing m hm
  · intro m v hv
    exact hs.settled m v (by simpa using hv)
  · intro m e hm he
    refine (hs.closed m e (by simpa using hm) he).within fun x hx => ?_
    simpa using hx

theorem Faithful.consult_none (hs : s.Faithful r)
    (h : s.consult r.find n = (none, s', notes)) : r.find n = none ∧ s'.Faithful r := by
  rcases Session.consult_none h with ⟨hm, rfl, -⟩ | ⟨-, hn, rfl, -⟩
  · exact ⟨hs.missing n hm, hs⟩
  · exact ⟨hn, hs.countLookup.recordMissing hn⟩

theorem Faithful.consult_some (hs : s.Faithful r)
    (h : s.consult r.find n = (some d, s', notes)) : r.find n = some d ∧ s'.Faithful r := by
  obtain ⟨-, hd, rfl, -⟩ := Session.consult_some h
  exact ⟨hd, hs.countLookup⟩

end Session

/-- A walk keeps the session faithful, and a set that it gives is the right one. -/
theorem Explores.faithful {root : ClassName} {above edges : List ClassName} {v : Collection}
    (h : Explores r root above c edges u s v) (hs : s.Faithful r) (hd : r.find c = some d)
    (hsplit : done ++ edges = d.ancestors) (hu : r.Gathers done u) (hm : s.Covers r done) :
    v.session.Faithful r ∧ ∀ k, v.outcome = .ok k → r.Settles c k := by
  -- `done` grows by each edge that is followed, and is all the edges when the class is recorded
  induction h generalizing d done with
  | nil =>
    rw [List.append_nil] at hsplit
    subst hsplit
    have hc := hu.settles hd
    refine ⟨hs.record hd hc hm, fun k hk => ?_⟩
    cases hk
    exact hc
  | skip he _ ih =>
    exact ih hs hd (by simpa using hsplit) (hu.skip he) (hm.snoc (by simp [he]))
  | join he hc _ ih =>
    have hmemo := Option.ne_none_iff_exists'.mpr ⟨_, hc⟩
    exact ih hs hd (by simpa using hsplit) (hu.join he (hs.settled _ _ hc))
      (hm.snoc fun _ => .inr hmemo)
  | cycle => exact ⟨hs, fun k hk => by cases hk⟩
  | miss he _ _ hnone _ ih =>
    obtain ⟨ht, hs'⟩ := hs.consult_none hnone
    exact ih hs' hd (by simpa using hsplit) (hu.miss he ht)
      ((hm.within (Session.within_consult hnone)).snoc fun _ => .inl ht)
  | tooDeep _ _ _ hsome _ =>
    exact ⟨(hs.consult_some hsome).2, fun k hk => by cases hk⟩
  | fail _ _ _ hsome _ _ ih =>
    obtain ⟨ht, hs'⟩ := hs.consult_some hsome
    exact ⟨(ih hs' ht rfl .nil .nil).1, fun k hk => by cases hk⟩
  | descend he _ _ hsome _ hb _ ihb ih =>
    obtain ⟨ht, hs'⟩ := hs.consult_some hsome
    obtain ⟨hs'', hk⟩ := ihb hs' ht rfl .nil .nil
    have hw := (Session.within_consult hsome).trans hb.within
    exact ih hs'' hd (by simpa using hsplit) (hu.join he (hk _ rfl))
      ((hm.within hw).snoc fun _ => .inr (hb.memoised rfl))

theorem collect_faithful (hs : s.Faithful r) (c : ClassName) :
    (collect r s c).session.Faithful r ∧
      ∀ k, (collect r s c).outcome = .ok k → r.Settles c k := by
  have h := answers_collect r s c
  generalize collect r s c = v at h
  cases h with
  | cached hc =>
    refine ⟨hs, fun k hk => ?_⟩
    cases hk
    exact hs.settled c _ hc
  | notFound _ hn => exact ⟨(hs.consult_none hn).2, fun k hk => by cases hk⟩
  | failed _ hsome h =>
    obtain ⟨hd, hs'⟩ := hs.consult_some hsome
    exact ⟨(h.faithful hs' hd rfl .nil .nil).1, fun k hk => by cases hk⟩
  | found _ hsome h =>
    obtain ⟨hd, hs'⟩ := hs.consult_some hsome
    obtain ⟨hs'', hk⟩ := h.faithful hs' hd rfl .nil .nil
    exact ⟨hs'', fun k => hk k⟩

theorem Session.Faithful.collect_error (hs : s.Faithful r)
    (h : (collect r s c).outcome = .error e) :
    (r.find c = none ∧ e = .notFound c r.resolver) ∨ r.find c ≠ none ∧ r.Obstacle c e := by
  have ha := answers_collect r s c
  generalize collect r s c = v at ha h
  cases ha with
  | cached => cases h
  | notFound _ hnone =>
    cases h
    exact .inl ⟨(hs.consult_none hnone).1, rfl⟩
  | failed _ hsome hx =>
    cases h
    have hd := (hs.consult_some hsome).1
    have hc : r.find c ≠ none := by simp [hd]
    exact .inr ⟨hc, hx.obstacle hd (List.Subset.refl _) (.single hc) (Nat.le_max_left _ _) rfl⟩
  | found => cases h

theorem Session.Faithful.obstacle (hs : s.Faithful r) (hc : r.find c ≠ none)
    (h : (collect r s c).outcome = .error e) : r.Obstacle c e := by
  cases hs.collect_error h with
  | inl hn => exact absurd hn.1 hc
  | inr ho => exact ho.2

theorem collect_notFound_iff (hs : s.Faithful r) (text : String) :
    (collect r s c).outcome = .error (.notFound n text) ↔
      r.find c = none ∧ n = c ∧ text = r.resolver := by
  constructor
  · intro h
    cases hs.collect_error h with
    | inl hn =>
      cases hn.2
      exact ⟨hn.1, rfl, rfl⟩
    | inr ho => cases ho.2
  · rintro ⟨hc, rfl, rfl⟩
    have h := answers_collect r s n
    generalize collect r s n = v at h
    cases h with
    | cached hk => exact absurd hc (hs.settled n _ hk).found
    | notFound => rfl
    | failed _ hsome _ | found _ hsome _ =>
      rw [(hs.consult_some hsome).1] at hc
      cases hc

def Rules.after (r : Rules) (s : Session) (cs : List ClassName) : Session :=
  cs.foldl (fun s c => (collect r s c).session) s

theorem Session.Faithful.after (hs : s.Faithful r) (cs : List ClassName) :
    (r.after s cs).Faithful r := by
  induction cs generalizing s with
  | nil => exact hs
  | cons c cs ih => exact ih (collect_faithful hs c).1

/-- After any requests, failed ones included, a class is not found exactly if the resolver does not
know it, a class that is found is answered unless there is an obstacle below it, and a set that is
given holds the unresolved names below the class and no others. -/
theorem collect_exact (r : Rules) (earlier : List ClassName) (c : ClassName) :
    (∀ n text, (collect r (r.after {} earlier) c).outcome = .error (.notFound n text) ↔
      r.find c = none ∧ n = c ∧ text = r.resolver) ∧
    (∀ u, (collect r (r.after {} earlier) c).outcome = .ok u →
      r.find c ≠ none ∧ ∀ t, t ∈ u ↔ r.Unresolved c t) ∧
    ∀ e, (collect r (r.after {} earlier) c).outcome = .error e →
      r.find c ≠ none → r.Obstacle c e := by
  have hs : (r.after {} earlier).Faithful r := (Session.Faithful.empty r).after earlier
  refine ⟨fun n text => collect_notFound_iff hs text, fun u hu => ?_, fun e he hc => ?_⟩
  · have hc := (collect_faithful hs c).2 u hu
    refine ⟨hc.found, fun t => ?_⟩
    rw [hc.mem_iff, Rules.unresolved_iff hc.found]
  · exact hs.obstacle hc he

/-- `A` extends `B` and implements `L`, which implements itself; `B` and `C` come down from a class
that is not found. -/
def looped : Rules where
  find n := [⟨"A", some "B", ["L"]⟩, ⟨"B", some "Gone", []⟩, ⟨"C", some "B", []⟩,
    ⟨"L", none, ["L"]⟩].find? fun c : ClassDescriptor => c.name = n
  resolver := "sample"
  excluded _ := false

theorem collect_exact_looped :
    (collect looped (looped.after {} ["A"]) "C").outcome = .ok ((∅ : NameSet).insert "Gone") ∧
      looped.Unresolved "C" "Gone" := by
  have h : (collect looped (looped.after {} ["A"]) "C").outcome =
      .ok ((∅ : NameSet).insert "Gone") := by cbv
  exact ⟨h, (((collect_exact looped ["A"] "C").2.1 _ h).2 "Gone").mp (by decide)⟩

end Linkage.Ancestry
