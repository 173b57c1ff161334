import Linkage.Proofs.Ancestry.Cycle

namespace Linkage.Ancestry

variable {r : Rules} {root c n t : ClassName} {above edges : List ClassName} {u k : NameSet}
  {s s' : Session} {v : Collection} {d : ClassDescriptor} {e : WalkError}

namespace Session

theorem Faithful.closed_leads (hs : s.Faithful r) (hn : s.cached? n ≠ none)
    (hl : r.Leads n t) (ht : r.find t ≠ none) : s.cached? t ≠ none := by
  induction hl with
  | refl => exact hn
  | tail _ he ih =>
    obtain ⟨d, hd, hm, hx⟩ := he
    have hcov := hs.closed _ d (ih (by simp [hd])) hd
    exact (hcov _ hm hx).resolve_left ht

theorem Faithful.cached?_eq_none (hs : s.Faithful r) (hn : r.find n = none) :
    s.cached? n = none := by
  cases h : s.cached? n with
  | none => rfl
  | some u => exact absurd hn (hs.settled n u h).found

theorem Faithful.cached?_of_not_grounded (hs : s.Faithful r) (hn : ¬ r.Grounded n) :
    s.cached? n = none := by
  cases h : s.cached? n with
  | none => rfl
  | some u => exact absurd (hs.settled n u h).grounded hn

theorem consult_of_none (s : Session) (hn : r.find n = none) :
    ∃ s' notes, s.consult r.find n = (none, s', notes) := by
  unfold consult
  split
  · exact ⟨_, _, rfl⟩
  · simp only [hn]
    exact ⟨_, _, rfl⟩

theorem Faithful.consult_of_some (hs : s.Faithful r) (hd : r.find n = some d) :
    ∃ s' notes, s.consult r.find n = (some d, s', notes) := by
  have hm : s.isMissing n ≠ true := fun h => by simp [hs.missing n h] at hd
  simp only [consult, hm, hd, Bool.false_eq_true, ↓reduceIte]
  exact ⟨_, _, rfl⟩

end Session

inductive Alike : Except WalkError NameSet → Except WalkError NameSet → Prop where
  | sets (u k : NameSet) : Alike (.ok u) (.ok k)
  | errors (e : WalkError) : Alike (.error e) (.error e)

namespace Alike

variable {x : Except WalkError NameSet}

theorem exists_ok (h : Alike (.ok u) x) : ∃ k, x = .ok k := by
  cases h with
  | sets u k => exact ⟨k, rfl⟩

theorem error_eq (h : Alike (.error e) x) : x = .error e := by
  cases h with
  | errors e => rfl

theorem andThen_closing (h : Alike x v.outcome) (before : Session) (root : ClassName) :
    Alike x (v.andThen (closing before root)).outcome := by
  cases hv : v.outcome with
  | ok k =>
    rw [Collection.andThen_ok hv]
    rwa [hv] at h
  | error e => rwa [Collection.andThen_error hv]

end Alike

theorem Explores.not_grounded (h : Explores r root above c edges u s v) (hd : r.find c = some d)
    (hsub : edges ⊆ d.ancestors) (ht : r.Trail root (above ++ [c])) (hv : v.outcome = .error e)
    (hlimit : ∀ n limit, e ≠ .tooDeep n limit) : ¬ r.Grounded c := by
  induction h generalizing d with
  | nil => cases hv
  | skip _ _ ih => exact ih hd (List.subset_of_cons_subset hsub) ht hv
  | join _ _ _ ih => exact ih hd (List.subset_of_cons_subset hsub) ht hv
  | miss _ _ _ _ _ ih => exact ih hd (List.subset_of_cons_subset hsub) ht hv
  | descend _ _ _ _ _ _ _ _ ih => exact ih hd (List.subset_of_cons_subset hsub) ht hv
  | tooDeep =>
    cases hv
    exact absurd rfl (hlimit _ _)
  | cycle hx _ hm =>
    have hedge := (Rules.liveEdge_iff hd).mpr ⟨hsub List.mem_cons_self, hx⟩
    have hcycle := Rules.onCycle_of_mem hm (ht.linked_snoc hedge)
    exact fun hg => (hg.leads (.single hedge)).not_onCycle hcycle
  | fail hx _ hm hs _ _ ih =>
    have hedge := (Rules.liveEdge_iff hd).mpr ⟨hsub List.mem_cons_self, hx⟩
    obtain ⟨-, hf, -⟩ := Session.consult_some hs
    have ht' := ht.snoc hedge hm (by simp [hf])
    exact fun hg => ih hf (List.Subset.refl _) ht' hv (hg.leads (.single hedge))

/-- A walk that does not come upon the limit ends alike where more classes are memoised: what it
does not walk again it would have finished on its way, and no class on the way to a cycle is
memoised anywhere. -/
theorem Explores.alike (h : Explores r root above c edges u s v)
    (hv : ∀ n limit, v.outcome ≠ .error (.tooDeep n limit)) (hd : r.find c = some d)
    (hsub : edges ⊆ d.ancestors) (ht : r.Trail root (above ++ [c])) (hs : s.Faithful r)
    (hs' : s'.Faithful r) (hw : s.Within s') (u' : NameSet) :
    Alike v.outcome (explore r root above c edges u' s').outcome ∧
      v.session.Within (explore r root above c edges u' s').session := by
  induction h generalizing d s' u' with
  | nil =>
    rw [explore_nil]
    exact ⟨.sets _ _, hw.record _ _ _⟩
  | skip he _ ih =>
    rw [explore_skip he]
    exact ih hv hd (List.subset_of_cons_subset hsub) ht hs hs' hw u'
  | join he hc _ ih =>
    have hmemo := hw _ (Option.ne_none_iff_exists'.mpr ⟨_, hc⟩)
    obtain ⟨known, hc'⟩ := Option.ne_none_iff_exists'.mp hmemo
    rw [explore_join he hc']
    exact ih hv hd (List.subset_of_cons_subset hsub) ht hs hs' hw _
  | miss he hc hm hnone _ ih =>
    obtain ⟨hf, hs₁⟩ := hs.consult_none hnone
    obtain ⟨s₂, notes', hnone'⟩ := s'.consult_of_none hf
    rw [explore_miss he (hs'.cached?_eq_none hf) hm hnone']
    exact ih hv hd (List.subset_of_cons_subset hsub) ht hs₁ (hs'.consult_none hnone').2
      (hw.consult hnone hnone') _
  | tooDeep => exact absurd rfl (hv _ _)
  | cycle he _ hm =>
    have hedge := (Rules.liveEdge_iff hd).mpr ⟨hsub List.mem_cons_self, he⟩
    have hcycle := Rules.onCycle_of_mem hm (ht.linked_snoc hedge)
    have hc' := hs'.cached?_of_not_grounded fun hg => hg.not_onCycle hcycle
    rw [explore_cycle he hc' hm]
    exact ⟨.errors _, hw⟩
  | @fail above rest c t u s s₁ s₂ dt e notes below he hc hm hsome hroom hb ihb =>
    obtain ⟨hf, hs₁⟩ := hs.consult_some hsome
    have hedge := (Rules.liveEdge_iff hd).mpr ⟨hsub List.mem_cons_self, he⟩
    have ht' := ht.snoc hedge hm (by simp [hf])
    -- what fails below and not at the limit leads to a cycle, and so is memoised nowhere
    have hlimit : ∀ n limit, e ≠ .tooDeep n limit := fun n limit h => hv n limit (h ▸ rfl)
    have hc' := hs'.cached?_of_not_grounded (hb.not_grounded hf (List.Subset.refl _) ht' rfl hlimit)
    obtain ⟨s₃, notes', hsome'⟩ := hs'.consult_of_some hf
    have hs₃ := (hs'.consult_some hsome').2
    obtain ⟨hend, hw₂⟩ :=
      ihb hv hf (List.Subset.refl _) ht' hs₁ hs₃ (hw.consult hsome hsome') ∅
    have hend' := hend.error_eq
    rw [explore_descend he hc' hm hsome' (Nat.not_le_of_lt hroom), Collection.andThen_error hend']
    exact ⟨hend, hw₂⟩
  | @descend above rest c t u known s s₁ s₂ dt notes below v he hc hm hsome hroom hb _ ihb ih =>
    obtain ⟨hf, hs₁⟩ := hs.consult_some hsome
    have hs₂ := (hb.faithful hs₁ hf rfl .nil .nil).1
    have hsub' := List.subset_of_cons_subset hsub
    cases hc' : s'.cached? t with
    | some known' =>
      -- what the walk of the target memoises is memoised with the target
      have hw₂ : s₂.Within s' := by
        intro n hn
        cases hb.leads hf (List.Subset.refl _) hn with
        | inl hn =>
          rw [Session.cached?_consult hsome] at hn
          exact hw n hn
        | inr hl => exact hs'.closed_leads (by simp [hc']) hl.2 hl.1
      rw [explore_join he hc']
      exact ih hv hd hsub' ht hs₂ hs' hw₂ _
    | none =>
      have hedge := (Rules.liveEdge_iff hd).mpr ⟨hsub List.mem_cons_self, he⟩
      have ht' := ht.snoc hedge hm (by simp [hf])
      obtain ⟨s₃, notes', hsome'⟩ := hs'.consult_of_some hf
      have hs₃ := (hs'.consult_some hsome').2
      obtain ⟨hend, hw₂⟩ := ihb (fun n limit => by simp) hf (List.Subset.refl _) ht' hs₁ hs₃
        (hw.consult hsome hsome') ∅
      obtain ⟨known', hk⟩ := hend.exists_ok
      have hx := explores_explore r root (above ++ [c]) t dt.ancestors ∅ s₃
      rw [explore_descend he hc' hm hsome' (Nat.not_le_of_lt hroom), Collection.andThen_ok hk]
      exact ih hv hd hsub' ht hs₂ (hx.faithful hs₃ hf rfl .nil .nil).1 hw₂ _

theorem collect_alike (hs : s.Faithful r) (hs' : s'.Faithful r) (hw : s.Within s')
    (h : ∀ n limit, (collect r s c).outcome ≠ .error (.tooDeep n limit)) :
    Alike (collect r s c).outcome (collect r s' c).outcome := by
  cases hc' : s'.cached? c with
  | some known =>
    rw [collect_cached hc']
    have hk := hs'.settled c known hc'
    cases ho : (collect r s c).outcome with
    | ok u => exact .sets u known
    | error e =>
      cases hs.obstacle hk.found ho with
      | cycle hp ht hl _ => exact absurd (hp.cyclic ht hl) hk.grounded.not_cyclic
      | tooDeep => exact absurd ho (h _ _)
  | none =>
    have ha := answers_collect r s c
    generalize collect r s c = v at ha h
    cases ha with
    | cached hc => exact absurd hc' (hw c (by simp [hc]))
    | notFound _ hnone =>
      obtain ⟨s₂, notes', hnone'⟩ := s'.consult_of_none (hs.consult_none hnone).1
      rw [collect_notFound hc' hnone']
      exact .errors _
    | failed _ hsome hx | found _ hsome hx =>
      obtain ⟨hd, hs₁⟩ := hs.consult_some hsome
      obtain ⟨s₂, notes', hsome'⟩ := hs'.consult_of_some hd
      have hend := (hx.alike h hd (List.Subset.refl _) (.single (by simp [hd])) hs₁
        (hs'.consult_some hsome').2 (hw.consult hsome hsome') ∅).1
      rw [collect_found hc' hsome']
      exact hend.andThen_closing s₂ c

theorem collect_mono (hs : s.Faithful r) (hs' : s'.Faithful r) (hw : s.Within s')
    (h : (collect r s c).outcome = .ok u) : ∃ k, (collect r s' c).outcome = .ok k := by
  have ha := collect_alike (c := c) hs hs' hw (by simp [h])
  rw [h] at ha
  exact ha.exists_ok

theorem collect_eq_of_within (hs : s.Faithful r) (hs' : s'.Faithful r) (hw : s.Within s')
    (h : ∀ n limit, (collect r s c).outcome ≠ .error (.tooDeep n limit)) :
    (collect r s' c).outcome = (collect r s c).outcome := by
  have ha := collect_alike hs hs' hw h
  cases ho : (collect r s c).outcome with
  | error e =>
    rw [ho] at ha
    exact ha.error_eq
  | ok u =>
    rw [ho] at ha
    obtain ⟨k, hk⟩ := ha.exists_ok
    have hu := (collect_faithful hs c).2 u ho
    have hk' := (collect_faithful hs' c).2 k hk
    have hset : k = u := NameSet.ext fun t => by rw [hk'.mem_iff, hu.mem_iff]
    rw [hk, hset]

/-- A request that a fresh session does not refuse at the limit has the same outcome after any other
requests, failed ones included, down to the path of a cycle. One that it refuses at the limit may
then be refused again, or be answered with the unresolved names, or come upon a cycle. -/
theorem collect_after_fresh (r : Rules) (earlier : List ClassName) (c : ClassName) :
    ((∀ n limit, (collect r {} c).outcome ≠ .error (.tooDeep n limit)) →
      (collect r (r.after {} earlier) c).outcome = (collect r {} c).outcome) ∧
    ∀ n limit, (collect r {} c).outcome = .error (.tooDeep n limit) →
      (collect r (r.after {} earlier) c).outcome = .error (.tooDeep n limit) ∨
      (∃ u, (collect r (r.after {} earlier) c).outcome = .ok u ∧ ∀ t, t ∈ u ↔ r.Unresolved c t) ∨
      ∃ t path, (collect r (r.after {} earlier) c).outcome = .error (.cycle t path) ∧
        r.CyclePath c t path := by
  have hfresh := Session.Faithful.empty r
  have hs : (r.after {} earlier).Faithful r := hfresh.after earlier
  refine ⟨collect_eq_of_within hfresh hs (Session.within_empty _), fun n limit h => ?_⟩
  have hc : r.find c ≠ none := fun hc => by
    rw [(collect_notFound_iff hfresh r.resolver).mpr ⟨hc, rfl, rfl⟩] at h
    cases h
  have hlimit : n = c ∧ limit = r.maxDepth := by
    cases hfresh.obstacle hc h with
    | tooDeep => exact ⟨rfl, rfl⟩
  obtain ⟨rfl, rfl⟩ := hlimit
  cases ho : (collect r (r.after {} earlier) n).outcome with
  | ok u =>
    have hu := (collect_faithful hs n).2 u ho
    exact .inr (.inl ⟨u, rfl, fun t => by rw [hu.mem_iff, Rules.unresolved_iff hc]⟩)
  | error e =>
    cases hs.obstacle hc ho with
    | tooDeep => exact .inl rfl
    | cycle hp ht hl hn =>
      have hpath := Rules.Obstacle.cyclePath (.cycle hp ht hl hn)
      exact .inr (.inr ⟨_, _, rfl, hpath.1⟩)

def shallow : Rules := { looped with maxDepth := 1 }

theorem collect_after_fresh_looped :
    (collect looped {} "A").outcome = .error (.cycle "L" ["A", "L", "L"]) ∧
      (collect looped (looped.after {} ["C"]) "A").outcome =
        .error (.cycle "L" ["A", "L", "L"]) ∧
      (collect shallow {} "C").outcome = .error (.tooDeep "C" 1) ∧
      ∃ u, (collect shallow (shallow.after {} ["B"]) "C").outcome = .ok u ∧
        ∀ t, t ∈ u ↔ shallow.Unresolved "C" t := by
  have hcycle : (collect looped {} "A").outcome = .error (.cycle "L" ["A", "L", "L"]) := by cbv
  have hdeep : (collect shallow {} "C").outcome = .error (.tooDeep "C" 1) := by cbv
  have hok : (collect shallow (shallow.after {} ["B"]) "C").outcome =
      .ok ((∅ : NameSet).insert "Gone") := by cbv
  refine ⟨hcycle, ?_, hdeep, ?_⟩
  · rw [← hcycle]
    exact (collect_after_fresh looped ["C"] "A").1 (by simp [hcycle])
  · rcases (collect_after_fresh shallow ["B"] "C").2 _ _ hdeep with h | h | ⟨t, path, h, -⟩
    · rw [hok] at h
      cases h
    · exact h
    · rw [hok] at h
      cases h

end Linkage.Ancestry
