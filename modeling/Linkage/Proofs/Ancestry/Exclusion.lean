import Linkage.Proofs.Ancestry.Transfer

namespace Linkage.Ancestry

variable {r : Rules} {root c n m : ClassName} {above edges roots : List ClassName} {u : NameSet}
  {s s' : Session} {v : Collection} {found : Option ClassDescriptor} {notes : List Note}
  {find : ClassName → Option ClassDescriptor}

/-- A name has no part in what a request gave: it was not looked up, the session says nothing of it,
and neither a set nor the path of a cycle holds it. -/
structure Collection.Ignores (v : Collection) (n : ClassName) : Prop where
  unasked : n ∉ lookedUp v.notes
  uncached : v.session.cached? n = none
  unmissed : v.session.isMissing n = false
  unlisted : ∀ m u, v.session.cached? m = some u → n ∉ u
  ungiven : ∀ u, v.outcome = .ok u → n ∉ u
  unreported : ∀ t path, v.outcome = .error (.cycle t path) → n ∉ path

theorem not_mem_lookedUp_consult (h : s.consult find m = (found, s', notes)) (hne : n ≠ m) :
    n ∉ lookedUp notes := by
  cases found with
  | some d =>
    obtain ⟨-, -, -, rfl⟩ := Session.consult_some h
    exact mt List.mem_singleton.mp hne
  | none =>
    rcases Session.consult_none h with ⟨-, -, rfl⟩ | ⟨-, -, -, rfl⟩
    · exact List.not_mem_nil
    · exact mt List.mem_singleton.mp hne

theorem Explores.ignores (h : Explores r root above c edges u s v) (hx : r.excluded n = true)
    (hn : n ∉ above ++ [c]) :
    n ∉ lookedUp v.notes ∧ ∀ t path, v.outcome = .error (.cycle t path) → n ∉ path := by
  have hne : ∀ {t}, r.excluded t = false → n ≠ t := fun he hnt => by simp [← hnt, hx] at he
  induction h with
  | nil => exact ⟨List.not_mem_nil, fun _ _ hp => by cases hp⟩
  | skip _ _ ih => exact ih hn
  | join _ _ _ ih => exact ih hn
  | cycle he =>
    refine ⟨List.not_mem_nil, fun t path hp => ?_⟩
    cases hp
    exact List.not_mem_append hn (mt List.mem_singleton.mp (hne he))
  | miss he _ _ hs _ ih =>
    refine ⟨?_, (ih hn).2⟩
    rw [Collection.prepend, lookedUp_append, lookedUp_append]
    exact List.not_mem_append (List.not_mem_append (not_mem_lookedUp_consult hs (hne he))
      List.not_mem_nil) (ih hn).1
  | tooDeep he _ _ hs =>
    exact ⟨not_mem_lookedUp_consult hs (hne he), fun _ _ hp => by cases hp⟩
  | fail he _ _ hs _ _ ih =>
    obtain ⟨hbelow, hpath⟩ := ih (List.not_mem_append hn (mt List.mem_singleton.mp (hne he)))
    refine ⟨?_, hpath⟩
    rw [lookedUp_append]
    exact List.not_mem_append (not_mem_lookedUp_consult hs (hne he)) hbelow
  | descend he _ _ hs _ _ _ ihb ih =>
    obtain ⟨hbelow, -⟩ := ihb (List.not_mem_append hn (mt List.mem_singleton.mp (hne he)))
    refine ⟨?_, (ih hn).2⟩
    rw [Collection.prepend, lookedUp_append, lookedUp_append]
    exact List.not_mem_append (List.not_mem_append (not_mem_lookedUp_consult hs (hne he)) hbelow)
      (ih hn).1

theorem Answers.ignores (h : Answers r s c v) (hx : r.excluded n = true) (hn : n ≠ c) :
    n ∉ lookedUp v.notes ∧ ∀ t path, v.outcome = .error (.cycle t path) → n ∉ path := by
  cases h with
  | cached => exact ⟨List.not_mem_nil, fun _ _ hp => by cases hp⟩
  | notFound _ hs => exact ⟨not_mem_lookedUp_consult hs hn, fun _ _ hp => by cases hp⟩
  | failed _ hs h =>
    obtain ⟨hbelow, hpath⟩ := h.ignores hx (mt List.mem_singleton.mp hn)
    refine ⟨?_, hpath⟩
    rw [lookedUp_append]
    exact List.not_mem_append (not_mem_lookedUp_consult hs hn) hbelow
  | found _ hs h =>
    obtain ⟨hbelow, -⟩ := h.ignores hx (mt List.mem_singleton.mp hn)
    refine ⟨?_, fun _ _ hp => by cases hp⟩
    rw [lookedUp_append, lookedUp_append]
    exact List.not_mem_append (not_mem_lookedUp_consult hs hn)
      (List.not_mem_append hbelow List.not_mem_nil)

theorem collect_ignores (hs : s.Coherent r.excluded) (hk : ¬ s.Knows n)
    (hx : r.excluded n = true) (hn : n ≠ c) : (collect r s c).Ignores n := by
  have hl := collect_leaves hs c
  obtain ⟨unfinished, ha, -⟩ := collect_accounts hs c
  obtain ⟨hasked, hpath⟩ := (answers_collect r s c).ignores hx hn
  -- what the session comes to know has been asked for
  have hunknown : ¬ (collect r s c).session.Knows n := fun hk' =>
    hasked ((ha.mem_iff n).mpr ⟨hk, .inl hk'⟩)
  obtain ⟨hcached, hmissing⟩ := Session.not_knows_iff.mp hunknown
  have hlist : ∀ m u, (collect r s c).session.cached? m = some u → n ∉ u := fun m u hm hu => by
    simp [(hl.coherent.confirmed m u hm n hu).2] at hx
  exact ⟨hasked, hcached, hmissing, hlist, fun u hu => hlist c u (hl.memoised u hu), hpath⟩

theorem Rules.collectAll_ignores (hs : s.Coherent r.excluded) (hk : ¬ s.Knows n)
    (hx : r.excluded n = true) (hn : n ∉ roots) : ∀ v ∈ r.collectAll s roots, v.Ignores n := by
  induction roots generalizing s with
  | nil => exact fun v hv => absurd hv List.not_mem_nil
  | cons root roots ih =>
    have hv := collect_ignores hs hk hx (List.ne_of_not_mem_cons hn)
    have hk' := Session.not_knows_iff.mpr ⟨hv.uncached, hv.unmissed⟩
    rw [collectAll_cons]
    exact List.forall_mem_cons.mpr ⟨hv, ih (collect_leaves hs root).coherent hk'
      (List.not_mem_of_not_mem_cons hn)⟩

/-- Excluded names have no say in a series of requests: two resolvers that answer alike for all other
names and for the classes that are asked for lead to the same sets, errors, look-ups and sessions,
request by request, and only the message for a class that is not found names the resolver. An
excluded name that no request asks for has no part in any of it. -/
theorem collectAll_sealed (r : Rules) (find find' : ClassName → Option ClassDescriptor)
    (resolver resolver' : String) (roots : List ClassName) :
    ((∀ n, r.excluded n = false ∨ n ∈ roots → find' n = find n) →
      (r.over find' resolver').collectAll {} roots =
        ((r.over find resolver).collectAll {} roots).map (·.askedOf resolver')) ∧
    ∀ n, r.excluded n = true → n ∉ roots →
      ∀ v ∈ (r.over find resolver).collectAll {} roots, v.Ignores n := by
  refine ⟨fun h => ?_, fun n hx hn => ?_⟩
  · have hr : (r.over find resolver).Allows (r.over find' resolver') :=
      ⟨fun _ => rfl, fun n hn => h n (.inl hn), Nat.le_refl _⟩
    exact Rules.collectAll_allowed hr (fun n hn => h n (.inr hn)) (.inl rfl)
  · exact Rules.collectAll_ignores (Session.Coherent.empty r.excluded)
      (Session.not_knows_iff.mpr ⟨rfl, rfl⟩) hx hn

def fenced : Rules := { looped with excluded n := n = "L" || n = "B" }

def unlooped (n : ClassName) : Option ClassDescriptor :=
  if n = "L" then some ⟨"L", some "Deep", ["A"]⟩ else looped.find n

theorem collectAll_sealed_looped :
    ((fenced.over unlooped "other").collectAll {} ["A", "B"]).map (·.outcome) =
        [.ok ∅, .ok ((∅ : NameSet).insert "Gone")] ∧
      (fenced.over unlooped "other").collectAll {} ["A", "B"] =
        (fenced.collectAll {} ["A", "B"]).map (·.askedOf "other") ∧
      ∀ v ∈ fenced.collectAll {} ["A", "B"], v.Ignores "L" := by
  have h := collectAll_sealed fenced looped.find unlooped "sample" "other" ["A", "B"]
  refine ⟨by cbv, h.1 fun n hn => if_neg fun hl => ?_, h.2 "L" (by decide) (by decide)⟩
  subst hl
  exact absurd hn (by decide)

end Linkage.Ancestry
