import Mathlib.Data.List.Induction
import Linkage.ReportFilter

namespace Linkage

namespace ResultKey

variable {k l m : ResultKey}

theorem before_iff :
    k.before l = true ↔ k.subject < l.subject ∨ k.subject = l.subject ∧ k.target < l.target := by
  simp only [before, Bool.or_eq_true, Bool.and_eq_true, decide_eq_true_eq]

theorem before_irrefl (k : ResultKey) : ¬ k.before k = true := by
  rw [before_iff]
  rintro (h | ⟨-, h⟩) <;> exact String.lt_irrefl _ h

theorem before_trans (h : k.before l = true) (h' : l.before m = true) : k.before m = true := by
  rw [before_iff] at h h' ⊢
  rcases h with h | ⟨he, h⟩ <;> rcases h' with h' | ⟨he', h'⟩
  · exact .inl (String.lt_trans h h')
  · exact .inl (he' ▸ h)
  · exact .inl (he ▸ h')
  · exact .inr ⟨he.trans he', String.lt_trans h h'⟩

theorem before_of_not_before (hne : k ≠ l) (h : ¬ k.before l = true) : l.before k = true := by
  rw [before_iff, not_or, not_and] at h
  rw [before_iff]
  obtain hs | hs | hs := Std.lt_trichotomy k.subject l.subject
  · exact absurd hs h.1
  · obtain ht | ht | ht := Std.lt_trichotomy k.target l.target
    · exact absurd ht (h.2 hs)
    · have hkl : k = l := by rw [ResultKey.mk.injEq]; exact ⟨hs, ht⟩
      exact absurd hkl hne
    · exact .inr ⟨hs.symm, ht⟩
  · exact .inl hs

end ResultKey

namespace ReportFilter

variable {f : ReportFilter} {k l : ResultKey} {reason : String} {problems : ProblemSet}
  {rs : List (ResultKey × String)} {b e : ResultKey × String}

def Ordered (rs : List (ResultKey × String)) : Prop :=
  rs.Pairwise fun a b => a.1.before b.1 = true

theorem Ordered.ne_of_mem (h : Ordered (b :: rs)) (he : e ∈ rs) : e.1 ≠ b.1 := fun heq =>
  ResultKey.before_irrefl _ (heq ▸ (List.pairwise_cons.mp h).1 e he)

theorem Ordered.before_of_mem (h : Ordered (b :: rs)) (hk : k.before b.1 = true)
    (he : e ∈ b :: rs) : k.before e.1 = true := by
  cases List.mem_cons.mp he with
  | inl he => exact he ▸ hk
  | inr he => exact ResultKey.before_trans hk ((List.pairwise_cons.mp h).1 e he)

theorem mem_record (h : Ordered rs) :
    e ∈ record k reason rs ↔ e = (k, reason) ∨ e.1 ≠ k ∧ e ∈ rs := by
  induction rs with
  | nil => simp [record]
  | cons b rs ih =>
    have hrs : Ordered rs := (List.pairwise_cons.mp h).2
    simp only [record]
    split
    · next hk =>
      subst hk
      have hne : e ∈ rs → e.1 ≠ b.1 := h.ne_of_mem
      grind
    · next hk =>
      split
      · next hbefore =>
        have hne (he : e ∈ b :: rs) : e.1 ≠ k := fun heq => by
          have hke := h.before_of_mem hbefore he
          rw [heq] at hke
          exact ResultKey.before_irrefl k hke
        rw [List.mem_cons]
        exact or_congr_right ⟨fun he => ⟨hne he, he⟩, And.right⟩
      · rw [List.mem_cons, List.mem_cons, ih hrs]
        grind

theorem Ordered.record (h : Ordered rs) (k : ResultKey) (reason : String) :
    Ordered (record k reason rs) := by
  induction rs with
  | nil => exact List.pairwise_singleton _ _
  | cons b rs ih =>
    obtain ⟨hb, hrs⟩ := List.pairwise_cons.mp h
    simp only [ReportFilter.record]
    split
    · next hk => exact List.pairwise_cons.mpr ⟨fun a ha => hk ▸ hb a ha, hrs⟩
    · next hk =>
      split
      · next hbefore => exact List.pairwise_cons.mpr ⟨fun a ha => h.before_of_mem hbefore ha, h⟩
      · next hbefore =>
        refine List.pairwise_cons.mpr ⟨fun a ha => ?_, ih hrs⟩
        obtain rfl | ⟨-, ha⟩ := (mem_record hrs).mp ha
        · exact ResultKey.before_of_not_before hk hbefore
        · exact hb a ha

theorem Ordered.lookup_eq_some_iff (h : Ordered rs) :
    rs.lookup k = some reason ↔ (k, reason) ∈ rs := by
  induction rs with
  | nil => simp
  | cons b rs ih =>
    obtain ⟨l, text⟩ := b
    have hrs : Ordered rs := (List.pairwise_cons.mp h).2
    rw [List.lookup_cons, List.mem_cons, Prod.mk.injEq]
    by_cases hk : k = l
    · subst hk
      have hmem : (k, reason) ∉ rs := fun hm => h.ne_of_mem hm rfl
      simp only [beq_self_eq_true, Option.some.injEq, true_and, hmem, or_false, eq_comm]
    · have hne : (k == l) = false := by simpa using hk
      simp only [hne, ih hrs, hk, false_and, false_or]

inductive Call where
  | verdict (k : ResultKey) (problems : ProblemSet)
  | unignore (k : ResultKey)

namespace Call

def key : Call → ResultKey
  | .verdict k _ => k
  | .unignore k => k

def apply (f : ReportFilter) : Call → ReportFilter
  | .verdict k problems => (f.verdict k problems).value.2
  | .unignore k => (f.unignore k).value

end Call

def replay (threshold : Nat) (calls : List Call) : ReportFilter :=
  calls.foldl Call.apply { threshold := threshold }

theorem replay_concat (threshold : Nat) (calls : List Call) (c : Call) :
    replay threshold (calls ++ [c]) = c.apply (replay threshold calls) := by
  rw [replay, List.foldl_append]
  rfl

theorem verdict_cases (f : ReportFilter) (k : ResultKey) (problems : ProblemSet) :
    (f.threshold < problems.size ∧ f.isAccepted k = false ∧ (f.verdict k problems).value =
      (.ignore (tooMany k problems.size),
        { f with ignored := record k (tooMany k problems.size) f.ignored })) ∨
    ((problems.size ≤ f.threshold ∨ f.isAccepted k = true) ∧
      (f.verdict k problems).value = (.report, f)) := by
  unfold verdict
  split
  · next h => exact .inr ⟨.inl h, rfl⟩
  · next h =>
    split
    · next ha => exact .inr ⟨.inr ha, rfl⟩
    · next ha => exact .inl ⟨Nat.lt_of_not_le h, by simpa using ha, rfl⟩

theorem mem_unignore : e ∈ (f.unignore k).value.ignored ↔ e.1 ≠ k ∧ e ∈ f.ignored := by
  simp [unignore, and_comm]

/-- What holds of a filter throughout: its record is in order, and no accepted pair is in it. -/
structure Sound (f : ReportFilter) : Prop where
  ordered : Ordered f.ignored
  apart : ∀ e ∈ f.ignored, f.isAccepted e.1 = false

theorem Sound.verdict (h : f.Sound) (k : ResultKey) (problems : ProblemSet) :
    (f.verdict k problems).value.2.Sound := by
  rcases f.verdict_cases k problems with ⟨-, hk, hv⟩ | ⟨-, hv⟩
  · rw [hv]
    refine ⟨h.ordered.record _ _, fun e he => ?_⟩
    rcases (mem_record h.ordered).mp he with rfl | ⟨-, he⟩
    · exact hk
    · exact h.apart e he
  · rwa [hv]

theorem isAccepted_unignore :
    (f.unignore k).value.isAccepted l = true ↔ l = k ∨ f.isAccepted l = true := by
  have hv : (f.unignore k).value.accepted =
      if f.isAccepted k then f.accepted else k :: f.accepted := rfl
  simp only [isAccepted, hv, decide_eq_true_eq]
  split
  · next hk => exact ⟨.inr, fun h => h.elim (fun he => he ▸ hk) id⟩
  · rw [List.mem_cons]

theorem Sound.unignore (h : f.Sound) (k : ResultKey) : (f.unignore k).value.Sound where
  ordered := h.ordered.filter _
  apart e he := by
    obtain ⟨hne, he⟩ := mem_unignore.mp he
    rw [← Bool.not_eq_true, isAccepted_unignore, h.apart e he]
    simp [hne]

theorem Sound.apply (h : f.Sound) (c : Call) : (c.apply f).Sound := by
  cases c with
  | verdict k problems => exact h.verdict k problems
  | unignore k => exact h.unignore k

theorem threshold_apply (f : ReportFilter) (c : Call) : (c.apply f).threshold = f.threshold := by
  cases c with
  | unignore k => rfl
  | verdict k problems =>
    show (f.verdict k problems).value.2.threshold = f.threshold
    rcases f.verdict_cases k problems with ⟨-, -, hv⟩ | ⟨-, hv⟩ <;> rw [hv]

theorem sound_replay (threshold : Nat) (calls : List Call) : (replay threshold calls).Sound := by
  induction calls using List.reverseRecOn with
  | nil => exact ⟨List.Pairwise.nil, fun _ h => absurd h List.not_mem_nil⟩
  | append_singleton calls c ih =>
    rw [replay_concat]
    exact ih.apply c

theorem threshold_replay (threshold : Nat) (calls : List Call) :
    (replay threshold calls).threshold = threshold := by
  induction calls using List.reverseRecOn with
  | nil => rfl
  | append_singleton calls c ih => rw [replay_concat, threshold_apply, ih]

def Call.HoldsBack (f : ReportFilter) (k : ResultKey) (reason : String) (c : Call) : Prop :=
  ∃ problems, c = .verdict k problems ∧ (f.verdict k problems).value.1 = .ignore reason

def Call.Within (threshold : Nat) (k : ResultKey) (c : Call) : Prop :=
  ∃ problems, c = .verdict k problems ∧ problems.size ≤ threshold

theorem holdsBack_verdict_iff (f : ReportFilter) (k : ResultKey) (problems : ProblemSet) :
    (Call.verdict k problems).HoldsBack f k reason ↔
      (f.verdict k problems).value.1 = .ignore reason := by
  constructor
  · rintro ⟨_, h, hv⟩
    cases h
    exact hv
  · exact fun hv => ⟨problems, rfl, hv⟩

theorem within_verdict_iff (threshold : Nat) (k : ResultKey) (problems : ProblemSet) :
    (Call.verdict k problems).Within threshold k ↔ problems.size ≤ threshold := by
  constructor
  · rintro ⟨_, h, hle⟩
    cases h
    exact hle
  · exact fun hle => ⟨problems, rfl, hle⟩

theorem Call.HoldsBack.key_eq {c : Call} (h : c.HoldsBack f k reason) : c.key = k := by
  obtain ⟨problems, rfl, -⟩ := h
  rfl

theorem mem_ignored_apply (hf : f.Sound) (c : Call) :
    (k, reason) ∈ (c.apply f).ignored ↔
      c.HoldsBack f k reason ∨ (c.key = k → c.Within f.threshold k) ∧ (k, reason) ∈ f.ignored := by
  by_cases hk : c.key = k
  · subst hk
    simp only [forall_const]
    cases c with
    | unignore k =>
      have hnow : ¬ (Call.unignore k).HoldsBack f k reason := by rintro ⟨_, h, -⟩; cases h
      have hlater : ¬ (Call.unignore k).Within f.threshold k := by rintro ⟨_, h, -⟩; cases h
      simp only [Call.key, hnow, hlater, false_and, or_self, iff_false]
      exact fun h => (mem_unignore.mp h).1 rfl
    | verdict k problems =>
      simp only [Call.key, holdsBack_verdict_iff, within_verdict_iff]
      show (k, reason) ∈ (f.verdict k problems).value.2.ignored ↔ _
      rcases f.verdict_cases k problems with ⟨hlt, -, hv⟩ | ⟨hle | ha, hv⟩
      · rw [hv, mem_record hf.ordered]
        simp [Nat.not_le.mpr hlt, eq_comm]
      · simp [hv, hle]
      · -- an accepted pair has no reason that the verdict could leave in place
        have hmem : (k, reason) ∉ f.ignored := fun hm => by simp [hf.apart _ hm] at ha
        simp [hv, hmem]
  · have hnow : ¬ c.HoldsBack f k reason := fun h => hk h.key_eq
    simp only [hnow, hk, IsEmpty.forall_iff, true_and, false_or]
    cases c with
    | unignore l => exact mem_unignore.trans (and_iff_right (Ne.symm hk))
    | verdict l problems =>
      show (k, reason) ∈ (f.verdict l problems).value.2.ignored ↔ _
      rcases f.verdict_cases l problems with ⟨-, -, hv⟩ | ⟨-, hv⟩
      · rw [hv, mem_record hf.ordered]
        have hkl : k ≠ l := Ne.symm hk
        simp [hkl]
      · rw [hv]

/-- There is a call of the one sort, seen from the calls before it, and all calls after it are of
the other. -/
def Since (now : List Call → Call → Prop) (later : Call → Prop) (calls : List Call) : Prop :=
  ∃ before c after, calls = before ++ c :: after ∧ now before c ∧ ∀ d ∈ after, later d

theorem not_since_nil {now : List Call → Call → Prop} {later : Call → Prop} :
    ¬ Since now later [] := by
  rintro ⟨before, c, after, h, -, -⟩
  simp at h

theorem since_concat {now : List Call → Call → Prop} {later : Call → Prop} {calls : List Call}
    {c : Call} :
    Since now later (calls ++ [c]) ↔ now calls c ∨ later c ∧ Since now later calls := by
  constructor
  · rintro ⟨before, d, after, h, hd, hafter⟩
    rcases List.eq_nil_or_concat after with rfl | ⟨rest, b, rfl⟩
    · obtain ⟨rfl, hcd⟩ := List.append_inj' h rfl
      cases hcd
      exact .inl hd
    · rw [List.concat_eq_append, ← List.cons_append, ← List.append_assoc] at h
      obtain ⟨rfl, hcb⟩ := List.append_inj' h rfl
      cases hcb
      refine .inr ⟨hafter c (by simp), before, d, rest, rfl, hd, fun a ha => hafter a ?_⟩
      rw [List.concat_eq_append]
      exact List.mem_append_left _ ha
  · rintro (h | ⟨hc, before, d, rest, rfl, hd, hrest⟩)
    · exact ⟨calls, c, [], rfl, h, by simp⟩
    · refine ⟨before, d, rest ++ [c], by simp, hd, fun a ha => ?_⟩
      rcases List.mem_append.mp ha with ha | ha
      · exact hrest a ha
      · exact List.mem_singleton.mp ha ▸ hc

theorem not_since_concat {now : List Call → Call → Prop} {later : Call → Prop} {calls : List Call}
    {c : Call} (hn : ¬ now calls c) (hl : ¬ later c) : ¬ Since now later (calls ++ [c]) :=
  fun h => (since_concat.mp h).elim hn fun h => hl h.1

theorem Since.mono {now : List Call → Call → Prop} {later later' : Call → Prop} {calls : List Call}
    (hl : ∀ c, later c → later' c) (h : Since now later calls) : Since now later' calls := by
  obtain ⟨before, c, after, rfl, hc, hafter⟩ := h
  exact ⟨before, c, after, rfl, hc, fun d hd => hl d (hafter d hd)⟩

def HeldBackLast (threshold : Nat) (k : ResultKey) (reason : String) : List Call → Prop :=
  Since (fun before c => c.HoldsBack (replay threshold before) k reason) fun c => c.key ≠ k

def WithinLast (threshold : Nat) (k : ResultKey) : List Call → Prop :=
  Since (fun _ c => c.Within threshold k) fun c => c.key ≠ k

theorem mem_ignored_replay_iff (threshold : Nat) (calls : List Call) :
    (k, reason) ∈ (replay threshold calls).ignored ↔
      Since (fun before c => c.HoldsBack (replay threshold before) k reason)
        (fun c => c.key = k → c.Within threshold k) calls := by
  induction calls using List.reverseRecOn with
  | nil => exact iff_of_false List.not_mem_nil not_since_nil
  | append_singleton calls c ih =>
    rw [replay_concat, since_concat, ← ih, mem_ignored_apply (sound_replay threshold calls),
      threshold_replay]

theorem reason?_replay_iff (threshold : Nat) (calls : List Call) :
    (replay threshold calls).reason? k = some reason ↔
      (k, reason) ∈ (replay threshold calls).ignored :=
  (sound_replay threshold calls).ordered.lookup_eq_some_iff

theorem heldBackLast_or_withinLast {threshold : Nat} {calls : List Call}
    (h : Since (fun before c => c.HoldsBack (replay threshold before) k reason)
      (fun c => c.key = k → c.Within threshold k) calls) :
    HeldBackLast threshold k reason calls ∨ WithinLast threshold k calls := by
  induction calls using List.reverseRecOn with
  | nil => exact absurd h not_since_nil
  | append_singleton calls c ih =>
    rw [HeldBackLast, WithinLast, since_concat, since_concat]
    rcases since_concat.mp h with hnow | ⟨hlater, h⟩
    · exact .inl (.inl hnow)
    · by_cases hk : c.key = k
      · exact .inr (.inl (hlater hk))
      · exact (ih h).imp (fun h => .inr ⟨hk, h⟩) fun h => .inr ⟨hk, h⟩

/-- The filter keeps a reason for a pair from the verdict that gave it until the pair is accepted or
another verdict holds a result back, and lists just these reasons. Unless the last call for the pair
was a verdict on a result within the threshold, the reason is the one of the last verdict. -/
theorem reasons_replay (threshold : Nat) (calls : List Call) (k : ResultKey) (reason : String) :
    ((replay threshold calls).reason? k = some reason ↔
      Since (fun before c => c.HoldsBack (replay threshold before) k reason)
        (fun c => c.key = k → c.Within threshold k) calls) ∧
    ((k, reason) ∈ (replay threshold calls).ignored ↔
      (replay threshold calls).reason? k = some reason) ∧
    (¬ WithinLast threshold k calls →
      ((replay threshold calls).reason? k = some reason ↔
        HeldBackLast threshold k reason calls)) := by
  have hkept : (replay threshold calls).reason? k = some reason ↔ _ :=
    (reason?_replay_iff threshold calls).trans (mem_ignored_replay_iff threshold calls)
  refine ⟨hkept, (reason?_replay_iff threshold calls).symm, fun hlast => ?_⟩
  rw [hkept]
  constructor
  · exact fun h => (heldBackLast_or_withinLast h).resolve_right hlast
  · exact Since.mono fun c hne he => absurd he hne

def oneProblem : ProblemSet := .collect [.classNotFound ⟨"x"⟩]

theorem reasons_replay_risen :
    ¬ WithinLast 0 ⟨"a", "b"⟩
      [.verdict ⟨"a", "b"⟩ .empty, .unignore ⟨"a", "c"⟩, .verdict ⟨"a", "b"⟩ oneProblem] ∧
    HeldBackLast 0 ⟨"a", "b"⟩ "There are too many compatibility problems between a and b: 1"
      [.verdict ⟨"a", "b"⟩ .empty, .unignore ⟨"a", "c"⟩, .verdict ⟨"a", "b"⟩ oneProblem] := by
  have hover : ¬ WithinLast 0 ⟨"a", "b"⟩
      ([.verdict ⟨"a", "b"⟩ .empty, .unignore ⟨"a", "c"⟩] ++
        [.verdict ⟨"a", "b"⟩ oneProblem]) := by
    refine not_since_concat ?_ fun hne => hne rfl
    rw [within_verdict_iff]
    decide
  exact ⟨hover, ((reasons_replay 0 _ _ _).2.2 hover).mp rfl⟩

/-- A result within the threshold is reported, and the reason of the result before it stays. -/
theorem reason_outlives_report :
    ((replay 0 [.verdict ⟨"a", "b"⟩ oneProblem]).verdict ⟨"a", "b"⟩ .empty).value.1 = .report ∧
    (replay 0 [.verdict ⟨"a", "b"⟩ oneProblem, .verdict ⟨"a", "b"⟩ .empty]).reason? ⟨"a", "b"⟩ =
      some "There are too many compatibility problems between a and b: 1" ∧
    ¬ HeldBackLast 0 ⟨"a", "b"⟩ "There are too many compatibility problems between a and b: 1"
      [.verdict ⟨"a", "b"⟩ oneProblem, .verdict ⟨"a", "b"⟩ .empty] := by
  refine ⟨rfl, rfl, ?_⟩
  show ¬ Since _ _ ([.verdict ⟨"a", "b"⟩ oneProblem] ++ [.verdict ⟨"a", "b"⟩ .empty])
  refine not_since_concat ?_ fun hne => hne rfl
  rw [holdsBack_verdict_iff]
  exact nofun

end ReportFilter

end Linkage
