import Linkage.Proofs.Ancestry.Accounts

namespace Linkage.Ancestry

variable {r : Rules} {s : Session} {n root t : ClassName} {w v : Walk r.maxDepth} {f : Finish}
  {find find' now : ClassName → Option ClassDescriptor} {resolver resolver' : String}
  {notes : List Note}

structure Walk.AsksFor {limit : Nat} (excluded : ClassName → Bool) (w : Walk limit)
    (t : ClassName) : Prop where
  next : w.current.pending.head? = some t
  live : excluded t = false
  uncached : w.session.cached? t = none
  new : t ∉ w.path
  unmissed : w.session.isMissing t = false

theorem mem_lookedUp : n ∈ lookedUp notes ↔ .lookup n ∈ notes := by
  simp only [lookedUp, List.mem_filterMap]
  constructor
  · rintro ⟨x, hx, hn⟩
    cases x <;> cases hn
    exact hx
  · exact fun h => ⟨_, h, rfl⟩

theorem Session.consult_congr (h : s.isMissing n = false → find n = find' n) :
    s.consult find n = s.consult find' n := by
  unfold consult
  split
  · rfl
  · next hm => rw [h (by simpa using hm)]

theorem step_over (h : ∀ t, w.AsksFor r.excluded t → find t = find' t) :
    step (r.over find resolver) w = step (r.over find' resolver') w := by
  have hm := move_step (r.over find' resolver') w
  generalize step (r.over find' resolver') w = x at hm
  apply Move.step_eq
  have hconsult : ∀ {t rest}, w.current.pending = t :: rest → r.excluded t = false →
      w.session.cached? t = none → t ∉ w.path →
      w.session.consult find t = w.session.consult find' t := fun hp he hc hv =>
    Session.consult_congr fun hm => h _ ⟨by rw [hp, List.head?_cons], he, hc, hv, hm⟩
  cases hm with
  | finish hp ha => exact .finish hp ha
  | ascend hp ha => exact .ascend (r := r.over find resolver) hp ha
  | skip hp he => exact .skip hp he
  | join hp he hc => exact .join hp he hc
  | cycle hp he hc hv => exact .cycle hp he hc hv
  | miss hp he hc hv hs =>
    have hs' := (hconsult hp he hc hv).trans hs
    exact .miss (r := r.over find resolver) hp he hc hv hs'
  | descend hp he hc hv hs hd =>
    have hs' := (hconsult hp he hc hv).trans hs
    exact .descend (r := r.over find resolver) hp he hc hv hs' hd
  | tooDeep hp he hc hv hs hd =>
    have hs' := (hconsult hp he hc hv).trans hs
    exact .tooDeep (r := r.over find resolver) hp he hc hv hs' hd

theorem Move.journal_subset (h : Move r w (.inl v)) : w.journal ⊆ v.journal := by
  cases h with
  | ascend => exact List.Subset.refl _
  | skip | join | miss | descend => exact List.subset_append_right _ _

theorem Move.lookup_mem (h : Move r w (.inl v)) (ht : w.AsksFor r.excluded t) :
    .lookup t ∈ v.journal := by
  have hnext := ht.next
  cases h with
  | ascend hp => simp [hp] at hnext
  | skip hp he =>
    simp only [hp, List.head?_cons, Option.some.injEq] at hnext
    simp [hnext, ht.live] at he
  | join hp _ hc =>
    simp only [hp, List.head?_cons, Option.some.injEq] at hnext
    simp [hnext, ht.uncached] at hc
  | miss hp _ _ _ hs =>
    simp only [hp, List.head?_cons, Option.some.injEq] at hnext
    subst hnext
    rcases Session.consult_none hs with ⟨hm, -⟩ | ⟨-, -, -, rfl⟩
    · simp [ht.unmissed] at hm
    · simp [Walk.follow]
  | descend hp _ _ _ hs =>
    simp only [hp, List.head?_cons, Option.some.injEq] at hnext
    subst hnext
    obtain ⟨-, -, -, rfl⟩ := Session.consult_some hs
    simp [Walk.descend]

theorem Passes.not_asked (h : Passes r s root w) (hs : s.Coherent r.excluded)
    (ht : w.AsksFor r.excluded t) : .lookup t ∉ w.journal := by
  intro hm
  have ha : t ∈ lookedUp w.journal.reverse := mem_lookedUp.mpr (List.mem_reverse.mpr hm)
  rcases (((h.accounts hs).mem_iff t).mp ha).2 with hk | hp
  · exact Session.not_knows_iff.mpr ⟨ht.uncached, ht.unmissed⟩ hk
  · exact ht.new hp

theorem run_of_inl (h : step r w = .inl v) : run r w = run r v := by
  rw [run]
  split
  · next h' => cases h'.symm.trans h; rfl
  · next h' => cases h'.symm.trans h

theorem run_of_inr (h : step r w = .inr f) : run r w = f := by
  rw [run]
  split
  · next h' => cases h'.symm.trans h
  · next h' => cases h'.symm.trans h; rfl

/-- What was asked before is answered as it was then, and the rest as it is now. -/
def settled (journal : List Note) (before now : ClassName → Option ClassDescriptor) :
    ClassName → Option ClassDescriptor :=
  fun n => if .lookup n ∈ journal then before n else now n

theorem Passes.step_settled (h : Passes r s root w) (hs : s.Coherent r.excluded)
    (hagree : ∀ t, w.AsksFor r.excluded t → find' t = settled w.journal find now t) :
    step (r.over find' resolver') w = step (r.over now resolver) w :=
  step_over fun t ht => (hagree t ht).trans (if_neg (h.not_asked hs ht))

/-- The answers up to a state of the walk are those of a resolver that does not change: no name is
asked for twice, so that it can give the later answers too. -/
theorem Passes.exists_find (h : Passes r s root w) (hs : s.Coherent r.excluded) :
    ∃ find : ClassName → Option ClassDescriptor, ∀ find' resolver,
      (∀ n, .lookup n ∈ w.journal → find' n = find n) →
      (collect (r.over find' resolver) s root).EndsAs (run (r.over find' resolver) w) := by
  induction h with
  | @start d s' notes hc hd =>
    refine ⟨r.find, fun find' resolver hagree => collect_endsAs hc ?_⟩
    obtain ⟨-, -, -, rfl⟩ := Session.consult_some hd
    rw [← hd]
    exact Session.consult_congr fun _ => hagree root (by simp [Walk.start])
  | @next w v now resolver hw hv ih =>
    obtain ⟨before, hbefore⟩ := ih
    have hm : Move (r.over now resolver) w (.inl v) := hv ▸ move_step (r.over now resolver) w
    refine ⟨settled w.journal before now, fun find' resolver' hagree => ?_⟩
    have hstep : step (r.over find' resolver') w = .inl v :=
      (hw.step_settled hs fun t ht =>
        hagree t (Move.lookup_mem (r := r.over now resolver) hm ht)).trans hv
    have hend := hbefore find' resolver' fun n hn =>
      (hagree n (Move.journal_subset (r := r.over now resolver) hm hn)).trans (if_pos hn)
    rwa [run_of_inl (r := r.over find' resolver') hstep] at hend

/-- A request under which the resolver changes ends as under a resolver that does not. -/
theorem Passes.exists_request (h : Passes r s root w) (hs : s.Coherent r.excluded)
    (text : String) (hf : step (r.over now resolver) w = .inr f) :
    ∃ find, (collect (r.over find text) s root).EndsAs f := by
  obtain ⟨before, hbefore⟩ := h.exists_find hs
  have hend := hbefore (settled w.journal before now) text fun n hn => if_pos hn
  have hstep : step (r.over (settled w.journal before now) text) w = .inr f :=
    (h.step_settled hs fun _ _ => rfl).trans hf
  rw [run_of_inr (r := r.over (settled w.journal before now) text) hstep] at hend
  exact ⟨_, hend⟩

end Linkage.Ancestry
