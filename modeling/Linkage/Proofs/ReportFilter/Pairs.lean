import Linkage.Proofs.ReportFilter.History

namespace Linkage.ReportFilter

variable {f g h : ReportFilter} {k l : ResultKey} {problems : ProblemSet} {c : Call}

theorem lookup_entry_cons (k l : ResultKey) (reason : String) (rs : List (ResultKey × String)) :
    ((k, reason) :: rs).lookup l = if l = k then some reason else rs.lookup l := by
  by_cases hl : l = k
  · subst hl
    simp
  · have hb : (l == k) = false := beq_false_of_ne hl
    simp [List.lookup_cons, hb, hl]

theorem lookup_record (k l : ResultKey) (reason : String) (rs : List (ResultKey × String)) :
    (record k reason rs).lookup l = if l = k then some reason else rs.lookup l := by
  induction rs with
  | nil => exact lookup_entry_cons k l reason []
  | cons b rs ih =>
    obtain ⟨m, old⟩ := b
    rw [lookup_entry_cons, record]
    by_cases hk : k = m
    · subst hk
      rw [if_pos rfl, lookup_entry_cons]
      by_cases hl : l = k <;> simp [hl]
    · rw [if_neg hk]
      by_cases hb : k.before m = true
      · rw [if_pos hb, lookup_entry_cons, lookup_entry_cons]
      · rw [if_neg hb, lookup_entry_cons, ih]
        by_cases hl : l = m
        · subst hl
          simp [Ne.symm hk]
        · simp [hl]

theorem lookup_filter_ne (k l : ResultKey) (rs : List (ResultKey × String)) :
    (rs.filter fun e => e.1 ≠ k).lookup l = if l = k then none else rs.lookup l := by
  induction rs with
  | nil => simp
  | cons b rs ih =>
    obtain ⟨m, reason⟩ := b
    rw [lookup_entry_cons]
    by_cases hm : m = k
    · subst hm
      rw [List.filter_cons_of_neg (by simp), ih]
      by_cases hl : l = m <;> simp [hl]
    · rw [List.filter_cons_of_pos (by simpa using hm), lookup_entry_cons, ih]
      by_cases hl : l = m
      · subst hl
        simp [hm]
      · simp [hl]

theorem reason?_unignore (f : ReportFilter) (k l : ResultKey) :
    (f.unignore k).value.reason? l = if l = k then none else f.reason? l :=
  lookup_filter_ne k l f.ignored

theorem reason?_verdict (f : ReportFilter) (k l : ResultKey) (problems : ProblemSet) :
    (f.verdict k problems).value.2.reason? l =
      if l = k ∧ f.threshold < problems.size ∧ f.isAccepted k = false
      then some (tooMany k problems.size) else f.reason? l := by
  cases f.verdict_cases k problems with
  | inl hheld =>
    obtain ⟨hlt, ha, hv⟩ := hheld
    rw [hv]
    simp only [reason?, lookup_record, hlt, ha, and_true]
  | inr hlet =>
    obtain ⟨hle, hv⟩ := hlet
    rw [hv, if_neg]
    rintro ⟨-, hlt, ha⟩
    cases hle with
    | inl hle => exact absurd hlt (Nat.not_lt.mpr hle)
    | inr hacc => simp [ha] at hacc

theorem verdict_of_over (hlt : f.threshold < problems.size) (ha : ¬ f.isAccepted k = true) :
    (f.verdict k problems).value.1 = .ignore (tooMany k problems.size) := by
  cases f.verdict_cases k problems with
  | inl hheld => rw [hheld.2.2]
  | inr hlet => exact (hlet.1.elim (Nat.not_le.mpr hlt) ha).elim

theorem verdict_of_let (hf : problems.size ≤ f.threshold ∨ f.isAccepted k = true) :
    (f.verdict k problems).value.1 = .report := by
  cases f.verdict_cases k problems with
  | inl hheld =>
    obtain ⟨hlt, ha, -⟩ := hheld
    exact (hf.elim (Nat.not_le.mpr hlt) (by simp [ha])).elim
  | inr hlet => rw [hlet.2]

theorem verdict_eq_report_iff : (f.verdict k problems).value.1 = .report ↔
    problems.size ≤ f.threshold ∨ f.isAccepted k = true := by
  constructor
  · intro hr
    by_contra hf
    rw [not_or, Nat.not_le] at hf
    rw [verdict_of_over hf.1 hf.2] at hr
    cases hr
  · exact verdict_of_let

theorem isAccepted_verdict (f : ReportFilter) (k l : ResultKey) (problems : ProblemSet) :
    (f.verdict k problems).value.2.isAccepted l = f.isAccepted l := by
  cases f.verdict_cases k problems with
  | inl hheld => rw [hheld.2.2]; rfl
  | inr hlet => rw [hlet.2]

theorem isAccepted_apply (f : ReportFilter) (c : Call) (k : ResultKey) :
    (c.apply f).isAccepted k = true ↔ c = .unignore k ∨ f.isAccepted k = true := by
  cases c with
  | verdict l problems =>
    rw [Call.apply, isAccepted_verdict]
    simp
  | unignore l =>
    rw [Call.apply, isAccepted_unignore, Call.unignore.injEq, eq_comm]

theorem isAccepted_replay (threshold : Nat) (calls : List Call) (k : ResultKey) :
    (replay threshold calls).isAccepted k = true ↔ .unignore k ∈ calls := by
  induction calls using List.reverseRecOn with
  | nil => simp [replay, isAccepted]
  | append_singleton calls c ih =>
    rw [replay_concat, isAccepted_apply, ih, List.mem_append, List.mem_singleton, or_comm, eq_comm]

/-- Two filters that cannot be told apart by calls for the pair. -/
structure AgreeOn (k : ResultKey) (f g : ReportFilter) : Prop where
  threshold : f.threshold = g.threshold
  isAccepted : f.isAccepted k = g.isAccepted k
  reason? : f.reason? k = g.reason? k

namespace AgreeOn

theorem symm (hfg : AgreeOn k f g) : AgreeOn k g f :=
  ⟨hfg.threshold.symm, hfg.isAccepted.symm, hfg.reason?.symm⟩

theorem trans (hfg : AgreeOn k f g) (hgh : AgreeOn k g h) : AgreeOn k f h :=
  ⟨hfg.threshold.trans hgh.threshold, hfg.isAccepted.trans hgh.isAccepted,
    hfg.reason?.trans hgh.reason?⟩

theorem apply (hfg : AgreeOn k f g) (hc : c.key = k) : AgreeOn k (c.apply f) (c.apply g) := by
  subst hc
  refine ⟨?_, ?_, ?_⟩
  · rw [threshold_apply, threshold_apply, hfg.threshold]
  · rw [Bool.eq_iff_iff, isAccepted_apply, isAccepted_apply, hfg.isAccepted]
  · cases c with
    | verdict k problems =>
      rw [Call.key] at hfg
      rw [Call.key, Call.apply, Call.apply, reason?_verdict, reason?_verdict, hfg.threshold,
        hfg.isAccepted, hfg.reason?]
    | unignore k => rw [Call.key, Call.apply, Call.apply, reason?_unignore, reason?_unignore,
        if_pos rfl, if_pos rfl]

theorem apply_left (hfg : AgreeOn k f g) (hc : c.key ≠ k) : AgreeOn k (c.apply f) g := by
  refine ⟨?_, ?_, ?_⟩
  · rw [threshold_apply, hfg.threshold]
  · rw [← hfg.isAccepted, Bool.eq_iff_iff, isAccepted_apply, or_iff_right]
    rintro rfl
    exact hc rfl
  · rw [← hfg.reason?]
    cases c with
    | verdict l problems => rw [Call.apply, reason?_verdict, if_neg fun he => hc he.1.symm]
    | unignore l => rw [Call.apply, reason?_unignore, if_neg fun he : k = l => hc he.symm]

theorem verdict (hfg : AgreeOn k f g) (problems : ProblemSet) :
    (f.verdict k problems).value.1 = (g.verdict k problems).value.1 := by
  by_cases hg : problems.size ≤ g.threshold ∨ g.isAccepted k = true
  · have hf : problems.size ≤ f.threshold ∨ f.isAccepted k = true := by
      rwa [hfg.threshold, hfg.isAccepted]
    rw [verdict_of_let hf, verdict_of_let hg]
  · rw [not_or, Nat.not_le] at hg
    have hlt : f.threshold < problems.size := hfg.threshold ▸ hg.1
    have ha : ¬ f.isAccepted k = true := hfg.isAccepted ▸ hg.2
    rw [verdict_of_over hlt ha, verdict_of_over hg.1 hg.2]

end AgreeOn

theorem agreeOn_replay_filter (threshold : Nat) (calls : List Call) (k : ResultKey) :
    AgreeOn k (replay threshold calls) (replay threshold (calls.filter (·.key = k))) := by
  induction calls using List.reverseRecOn with
  | nil => exact ⟨rfl, rfl, rfl⟩
  | append_singleton calls c ih =>
    rw [replay_concat, List.filter_append]
    by_cases hc : c.key = k
    · rw [List.filter_cons_of_pos (by simpa using hc), List.filter_nil, replay_concat]
      exact ih.apply hc
    · rw [List.filter_cons_of_neg (by simpa using hc), List.filter_nil, List.append_nil]
      exact ih.apply_left hc

/-- After any history a result is reported if it is within the threshold or its pair has been
accepted, and is otherwise held back for a reason that names the pair and the number of problems. No
accepted pair is listed, and what a pair is answered hangs on the calls for this pair alone. -/
theorem verdict_replay (threshold : Nat) (calls : List Call) (k : ResultKey)
    (problems : ProblemSet) :
    let f := replay threshold calls
    ((f.verdict k problems).value.1 = .report ↔
      problems.size ≤ threshold ∨ .unignore k ∈ calls) ∧
    ((f.verdict k problems).value.1 ≠ .report →
      (f.verdict k problems).value.1 =
        .ignore ("There are too many compatibility problems between " ++
          k.subject ++ " and " ++ k.target ++ ": " ++ toString problems.size)) ∧
    ¬ (f.isAccepted k = true ∧ ∃ reason, (k, reason) ∈ f.ignored) ∧
    ∀ calls' : List Call, calls'.filter (·.key = k) = calls.filter (·.key = k) →
      ((replay threshold calls').verdict k problems).value.1 = (f.verdict k problems).value.1 ∧
        (replay threshold calls').reason? k = f.reason? k := by
  intro f
  refine ⟨?_, ?_, ?_, ?_⟩
  · rw [verdict_eq_report_iff, threshold_replay, isAccepted_replay]
  · intro hr
    rw [Ne, verdict_eq_report_iff, not_or, Nat.not_le] at hr
    exact verdict_of_over hr.1 hr.2
  · rintro ⟨ha, reason, hm⟩
    have hapart : f.isAccepted k = false := (sound_replay threshold calls).apart _ hm
    simp [hapart] at ha
  · intro calls' hcalls
    have hown := agreeOn_replay_filter threshold calls' k
    rw [hcalls] at hown
    have hagree : AgreeOn k (replay threshold calls') f :=
      hown.trans (agreeOn_replay_filter threshold calls k).symm
    exact ⟨hagree.verdict problems, hagree.reason?⟩

theorem verdict_replay_moved :
    ((replay 0 [.unignore ⟨"a", "c"⟩, .verdict ⟨"a", "b"⟩ oneProblem]).verdict
        ⟨"a", "b"⟩ oneProblem).value.1 =
      .ignore "There are too many compatibility problems between a and b: 1" ∧
    (replay 0 [.verdict ⟨"a", "b"⟩ oneProblem, .unignore ⟨"a", "c"⟩]).reason? ⟨"a", "b"⟩ =
      (replay 0 [.unignore ⟨"a", "c"⟩, .verdict ⟨"a", "b"⟩ oneProblem]).reason? ⟨"a", "b"⟩ := by
  obtain ⟨-, hheld, -, hmoved⟩ := verdict_replay 0
    [.unignore ⟨"a", "c"⟩, .verdict ⟨"a", "b"⟩ oneProblem] ⟨"a", "b"⟩ oneProblem
  exact ⟨hheld (by decide),
    (hmoved [.verdict ⟨"a", "b"⟩ oneProblem, .unignore ⟨"a", "c"⟩] rfl).2⟩

end Linkage.ReportFilter
