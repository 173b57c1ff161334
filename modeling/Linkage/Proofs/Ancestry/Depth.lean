import Linkage.Proofs.Ancestry.Retry
import Linkage.Proofs.Ancestry.Transfer

namespace Linkage.Ancestry

variable {r r' : Rules} {root c t : ClassName} {above edges path roots : List ClassName}
  {u : NameSet} {s s' : Session} {v : Collection} {d : ClassDescriptor} {notes : List Note}
  {find : ClassName → Option ClassDescriptor} {found : Option ClassDescriptor}

theorem Collection.not_limited_of_ok (h : v.outcome = .ok u) : ¬ v.Limited := by
  rintro ⟨n, limit, he⟩
  rw [h] at he
  cases he

theorem Session.not_knows_consult (hs : s.consult find t = (found, s', notes)) (ht : t ∉ path)
    (hk : ∀ n ∈ path, ¬ s.Knows n) : ∀ n ∈ path, ¬ s'.Knows n := fun n hn =>
  (Session.knows_consult hs (ne_of_mem_of_not_mem hn ht)).not.mpr (hk n hn)

theorem Session.not_knows_snoc (hs : s.consult find t = (some d, s', notes))
    (hc : s.cached? t = none) (hk : ∀ n ∈ path, ¬ s.Knows n) :
    ∀ n ∈ path ++ [t], ¬ s'.Knows n := by
  obtain ⟨hmissing, -, rfl, -⟩ := Session.consult_some hs
  intro n hn
  rcases List.mem_append.mp hn with hn | hn
  · exact hk n hn
  · rw [List.mem_singleton.mp hn]
    exact Session.not_knows_iff.mpr ⟨hc, hmissing⟩

/-- A walk that comes upon the limit has gone down a trail that is one class too long, and leaves a
session that answers for none of the classes on it. -/
theorem Explores.trail_of_limited (h : Explores r root above c edges u s v)
    (hd : r.find c = some d) (hsub : edges ⊆ d.ancestors) (ht : r.Trail root (above ++ [c]))
    (hl : (above ++ [c]).length ≤ max 1 r.maxDepth) (hk : ∀ n ∈ above ++ [c], ¬ s.Knows n)
    (hv : v.Limited) :
    ∃ path, r.Trail root path ∧ path.length = max 1 r.maxDepth + 1 ∧
      ∀ n ∈ path, ¬ v.session.Knows n := by
  induction h generalizing d with
  | nil => exact absurd hv (Collection.not_limited_of_ok rfl)
  | cycle =>
    obtain ⟨_, _, he⟩ := hv
    cases he
  | skip _ _ ih | join _ _ _ ih => exact ih hd (List.subset_of_cons_subset hsub) ht hl hk hv
  | miss _ _ hm hs _ ih =>
    exact ih hd (List.subset_of_cons_subset hsub) ht hl (Session.not_knows_consult hs hm hk) hv
  | tooDeep he hc hm hs hdeep =>
    have hedge := (Rules.liveEdge_iff hd).mpr ⟨hsub List.mem_cons_self, he⟩
    obtain ⟨-, hf, -⟩ := Session.consult_some hs
    -- the class that there is no room for is the last one of the trail
    refine ⟨_, ht.snoc hedge hm (by simp [hf]), ?_, Session.not_knows_snoc hs hc hk⟩
    simp only [List.length_append, List.length_singleton] at hdeep hl ⊢
    omega
  | fail he hc hm hs hroom _ ih =>
    have hedge := (Rules.liveEdge_iff hd).mpr ⟨hsub List.mem_cons_self, he⟩
    obtain ⟨-, hf, -⟩ := Session.consult_some hs
    refine ih hf (List.Subset.refl _) (ht.snoc hedge hm (by simp [hf])) ?_
      (Session.not_knows_snoc hs hc hk) hv
    simp only [List.length_append, List.length_singleton] at hroom ⊢
    omega
  | descend _ _ hm hs _ hb _ _ ih =>
    refine ih hd (List.subset_of_cons_subset hsub) ht hl (fun n hn => ?_) hv
    have hk' := Session.not_knows_consult hs hm hk n hn
    exact (hb.unknown (List.mem_append_left _ hn) hk').resolve_right fun h =>
      ne_of_mem_of_not_mem hn hm h.1

theorem collect_trail_of_limited (h : (collect r s c).Limited) :
    ∃ path, r.Trail c path ∧ path.length = max 1 r.maxDepth + 1 ∧
      ∀ n ∈ path, ¬ (collect r s c).session.Knows n := by
  have ha := answers_collect r s c
  generalize collect r s c = v at ha h
  cases ha with
  | cached | found => exact absurd h (Collection.not_limited_of_ok rfl)
  | notFound =>
    obtain ⟨_, _, he⟩ := h
    cases he
  | failed hc hs hx =>
    obtain ⟨-, hf, -⟩ := Session.consult_some hs
    exact hx.trail_of_limited hf (List.Subset.refl _) (.single (by simp [hf]))
      (Nat.le_max_left _ _)
      (Session.not_knows_snoc hs hc fun n hn => absurd hn List.not_mem_nil) h

namespace Rules

theorem Allows.deeper (r : Rules) {limit : Nat} (h : r.maxDepth ≤ limit) :
    r.Allows { r with maxDepth := limit } :=
  ⟨fun _ => rfl, fun _ _ => rfl, h⟩

theorem askedOf_collectAll (r : Rules) (s : Session) (roots : List ClassName) :
    (r.collectAll s roots).map (·.askedOf r.resolver) = r.collectAll s roots := by
  induction roots generalizing s with
  | nil => rfl
  | cons root roots ih =>
    have hroot := Collection.askedOf_eq_self fun n text (h : (collect r s root).outcome = _) =>
      notFound_of_collect h
    rw [collectAll_cons, List.map_cons, hroot, ih]

theorem after_cons (r : Rules) (s : Session) (root : ClassName) (roots : List ClassName) :
    r.after s (root :: roots) = r.after (collect r s root).session roots := rfl

theorem after_eq_of_collectAll (h : r'.collectAll s roots = r.collectAll s roots) :
    r'.after s roots = r.after s roots := by
  induction roots generalizing s with
  | nil => rfl
  | cons root roots ih =>
    rw [collectAll_cons, collectAll_cons] at h
    obtain ⟨hroot, hrest⟩ := List.cons.inj h
    rw [hroot] at hrest
    rw [after_cons, after_cons, hroot, ih hrest]

end Rules

/-- The limit refuses a class only where its hierarchy is too deep: there is a trail from the class
with one class more than may be on the way, and the session that the request leaves has memoised none
of them. Where no request of a series comes upon the limit, a higher one changes nothing. -/
theorem collect_limited (r : Rules) (earlier : List ClassName) (c : ClassName) :
    let v := collect r (r.after {} earlier) c
    (∀ n limit, v.outcome = .error (.tooDeep n limit) → n = c ∧ limit = r.maxDepth ∧
      ∃ path, r.Trail c path ∧ path.length = max 1 r.maxDepth + 1 ∧
        ∀ m ∈ path, v.session.cached? m = none) ∧
    (1 ≤ r.maxDepth → (∀ path, r.Trail c path → path.length ≤ r.maxDepth) → ¬ v.Limited) ∧
    ∀ limit, r.maxDepth ≤ limit → ∀ roots, (∀ w ∈ r.collectAll {} roots, ¬ w.Limited) →
      { r with maxDepth := limit }.collectAll {} roots = r.collectAll {} roots ∧
        { r with maxDepth := limit }.after {} roots = r.after {} roots := by
  intro v
  have hs : (r.after {} earlier).Faithful r := (Session.Faithful.empty r).after earlier
  refine ⟨fun n limit hv => ?_, fun hpos hshort hv => ?_, fun limit hle roots hv => ?_⟩
  · obtain ⟨path, ht, hl, hk⟩ := collect_trail_of_limited ⟨n, limit, hv⟩
    have hobstacle : r.Obstacle c (.tooDeep n limit) := by
      rcases hs.collect_error hv with ⟨-, h⟩ | ⟨-, h⟩
      · cases h
      · exact h
    cases hobstacle
    exact ⟨rfl, rfl, path, ht, hl, fun m hm => (Session.not_knows_iff.mp (hk m hm)).1⟩
  · obtain ⟨path, ht, hl, -⟩ := collect_trail_of_limited hv
    have hlen := hshort path ht
    omega
  · have h := Rules.collectAll_allowed (Rules.Allows.deeper r hle) (fun _ _ => rfl) (.inr hv)
    have heq := h.trans (r.askedOf_collectAll {} roots)
    exact ⟨heq, Rules.after_eq_of_collectAll heq⟩

/-- `C` is one class too deep for the shallow rules; `B`, which comes down from a class that is not
found, is not, and with `B` memoised neither is `C`. -/
theorem collect_limited_shallow :
    (∃ path, shallow.Trail "C" path ∧ path.length = 2 ∧
      ∀ n ∈ path, (collect shallow {} "C").session.cached? n = none) ∧
    ¬ (collect shallow {} "B").Limited ∧
    { shallow with maxDepth := 5 }.collectAll {} ["B", "C"] =
      shallow.collectAll {} ["B", "C"] := by
  have hdeep : (collect shallow {} "C").outcome = .error (.tooDeep "C" 1) := by cbv
  have hok : (shallow.collectAll {} ["B", "C"]).map (·.outcome) =
      [.ok ((∅ : NameSet).insert "Gone"), .ok ((∅ : NameSet).insert "Gone")] := by cbv
  refine ⟨?_, ?_, ?_⟩
  · obtain ⟨-, -, path, ht, hl, hm⟩ := (collect_limited shallow [] "C").1 _ _ hdeep
    exact ⟨path, ht, hl, hm⟩
  · refine (collect_limited shallow [] "B").2.1 (by decide) fun path ht => ?_
    obtain ⟨hhead, hlinked, -, hfound⟩ := ht
    cases path with
    | nil => exact Nat.zero_le 1
    | cons n path =>
      cases hhead
      cases path with
      | nil => exact Nat.le_refl 1
      | cons m path =>
        obtain ⟨d, hd, hm, -⟩ := (List.isChain_cons_cons.mp hlinked).1
        cases hd
        cases List.mem_singleton.mp hm
        exact absurd rfl (hfound "Gone" (by simp))
  · refine ((collect_limited shallow [] "C").2.2 5 (by decide) ["B", "C"] fun w hw => ?_).1
    have hw' := List.mem_map_of_mem (f := (·.outcome)) hw
    rw [hok] at hw'
    exact Collection.not_limited_of_ok (by simpa using hw')

end Linkage.Ancestry
