import Linkage.Proofs.Ancestry.Economy

namespace Linkage.Ancestry

variable {r : Rules} {s s' z : Session} {c m n root t : ClassName} {u : NameSet}
  {above edges : List ClassName} {v : Collection} {d : ClassDescriptor} {e : WalkError}
  {find : ClassName → Option ClassDescriptor} {found : Option ClassDescriptor}
  {excluded : ClassName → Bool} {notes : List Note}

namespace Session

structure Like (s s' : Session) : Prop where
  memo : s'.memo = s.memo
  missing : s'.missing = s.missing

theorem Like.refl (s : Session) : s.Like s := ⟨rfl, rfl⟩

theorem Like.countLookup (h : s.Like s') : s.Like s'.countLookup := ⟨h.memo, h.missing⟩

theorem Like.cached? (h : s.Like s') (n : ClassName) : s'.cached? n = s.cached? n := by
  rw [Session.cached?, h.memo]
  rfl

theorem Like.isMissing (h : s.Like s') (n : ClassName) : s'.isMissing n = s.isMissing n := by
  rw [Session.isMissing, h.missing]
  rfl

theorem Like.size_eq (h : s.Like s') : s'.size = s.size := by
  rw [size, cachedClasses, h.memo, h.missing]
  rfl

theorem consult_missing (hm : s.isMissing n = true) : s.consult find n = (none, s, []) := by
  simp only [consult, hm, ↓reduceIte]

theorem consult_found (hm : s.isMissing n = false) (hd : find n = some d) :
    s.consult find n = (some d, s.countLookup, [.lookup n]) := by
  simp only [consult, hm, hd, Bool.false_eq_true, ↓reduceIte]

theorem Coherent.cached?_of_missing (h : s.Coherent excluded) (hm : s.isMissing n = true) :
    s.cached? n = none := by
  by_contra hc
  rw [h.apart n hc] at hm
  cases hm

theorem knows_consult (h : s.consult find n = (found, s', notes)) (hne : m ≠ n) :
    s'.Knows m ↔ s.Knows m := by
  rw [Knows, cached?_consult h, isMissing_consult_ne h hne]
  rfl

end Session

theorem Explores.keeps (h : Explores r root above c edges u s v) : s.Keeps v.session := by
  induction h with
  | nil => exact Session.keeps_record _ _ _
  | skip _ _ ih => exact ih
  | join _ _ _ ih => exact ih
  | cycle => exact .refl _
  | miss _ _ _ hs _ ih => exact (Session.keeps_consult hs).trans ih
  | tooDeep _ _ _ hs _ => exact Session.keeps_consult hs
  | fail _ _ _ hs _ _ ih => exact (Session.keeps_consult hs).trans ih
  | descend _ _ _ hs _ _ _ ihb ih => exact ((Session.keeps_consult hs).trans ihb).trans ih

theorem Explores.unknown (h : Explores r root above c edges u s v) (hn : n ∈ above ++ [c])
    (hs : ¬ s.Knows n) : ¬ v.session.Knows n ∨ n = c ∧ ∃ k, v.outcome = .ok k := by
  induction h with
  | @nil _ c u s =>
    by_cases hc : n = c
    · exact .inr ⟨hc, u, rfl⟩
    · exact .inl fun hk => (Session.knows_record.mp hk).elim hc hs
  | skip _ _ ih => exact ih hn hs
  | join _ _ _ ih => exact ih hn hs
  | cycle => exact .inl hs
  | miss _ _ hv hm _ ih =>
    have hne := ne_of_mem_of_not_mem hn hv
    exact ih hn ((Session.knows_consult hm hne).not.mpr hs)
  | tooDeep _ _ hv hm _ =>
    have hne := ne_of_mem_of_not_mem hn hv
    exact .inl ((Session.knows_consult hm hne).not.mpr hs)
  | fail _ _ hv hm _ _ ihb =>
    have hne := ne_of_mem_of_not_mem hn hv
    have hs' := (Session.knows_consult hm hne).not.mpr hs
    exact .inl ((ihb (List.mem_append_left _ hn) hs').resolve_right fun hk => hne hk.1)
  | descend _ _ hv hm _ _ _ ihb ih =>
    have hne := ne_of_mem_of_not_mem hn hv
    have hs' := (Session.knows_consult hm hne).not.mpr hs
    exact ih hn ((ihb (List.mem_append_left _ hn) hs').resolve_right fun hk => hne hk.1)

theorem Explores.unknown_of_error (h : Explores r root above c edges u s v)
    (he : v.outcome = .error e) (hc : s.cached? c = none) (hm : s.isMissing c = false) :
    v.session.cached? c = none ∧ v.session.isMissing c = false := by
  have hn := h.unknown (n := c) (by simp) (Session.not_knows_iff.mpr ⟨hc, hm⟩)
  refine Session.not_knows_iff.mp (hn.resolve_right ?_)
  rintro ⟨-, k, hk⟩
  rw [he] at hk
  cases hk

/-- A walk that failed, made again in the session that it left, comes to the same edge by the same
path: each edge before that is excluded, memoised or known to be missing by now, and no class on the
path is. -/
theorem Explores.again (h : Explores r root above c edges u s v) (he : v.outcome = .error e)
    (hv : v.session.Coherent r.excluded) (hz : v.session.Like z) (u' : NameSet) :
    (explore r root above c edges u' z).outcome = .error e ∧
      v.session.Like (explore r root above c edges u' z).session := by
  induction h generalizing u' z with
  | nil => cases he
  | skip hx _ ih =>
    rw [explore_skip hx]
    exact ih he hv hz u'
  | join hx hc h ih =>
    have hc' := (hz.cached? _).trans (h.keeps.cached _ _ hc)
    rw [explore_join hx hc']
    exact ih he hv hz _
  | cycle hx hc hm =>
    cases he
    rw [explore_cycle hx ((hz.cached? _).trans hc) hm]
    exact ⟨rfl, hz⟩
  | @miss _ _ _ t _ _ _ _ v hx hc hm hnone h ih =>
    -- known as missing by now, the name is not asked for again
    have hmissing := h.keeps.missing t (Session.isMissing_consult hnone)
    have hc' : v.session.cached? t = none := hv.cached?_of_missing hmissing
    rw [explore_miss hx ((hz.cached? t).trans hc') hm
      (Session.consult_missing ((hz.isMissing t).trans hmissing))]
    exact ih he hv hz _
  | tooDeep hx hc hm hsome hd =>
    cases he
    obtain ⟨hmissing, hf, rfl, -⟩ := Session.consult_some hsome
    rw [explore_tooDeep hx ((hz.cached? _).trans hc) hm
      (Session.consult_found ((hz.isMissing _).trans hmissing) hf) hd]
    exact ⟨rfl, hz.countLookup⟩
  | @fail above _ c t _ _ _ _ _ _ _ _ hx hc hm hsome hd hb ih =>
    obtain ⟨hmissing, hf, rfl, -⟩ := Session.consult_some hsome
    obtain ⟨hc', hmissing'⟩ := hb.unknown_of_error rfl hc hmissing
    obtain ⟨hend, hlike⟩ := ih he hv hz.countLookup ∅
    rw [explore_descend hx ((hz.cached? t).trans hc') hm
      (Session.consult_found ((hz.isMissing t).trans hmissing') hf) (Nat.not_le_of_lt hd),
      Collection.andThen_error hend]
    exact ⟨hend, hlike⟩
  | @descend _ _ _ t _ _ _ _ _ _ _ _ _ hx _ _ _ _ hb h _ ih =>
    -- the walk below was finished the first time, and is joined the second time
    obtain ⟨known, hk⟩ := Option.ne_none_iff_exists'.mp (hb.memoised rfl)
    have hc' := (hz.cached? t).trans (h.keeps.cached t known hk)
    rw [explore_join hx hc']
    exact ih he hv hz _

theorem collect_again (hs : s.Coherent r.excluded) (h : (collect r s c).outcome = .error e) :
    (collect r (collect r s c).session c).outcome = .error e ∧
      (collect r s c).session.Like (collect r (collect r s c).session c).session := by
  have hl := collect_leaves hs c
  have hc' := hl.unmemoised e h
  have ha := answers_collect r s c
  generalize collect r s c = v at ha h hl hc'
  cases ha with
  | cached => cases h
  | notFound _ hnone =>
    cases h
    rw [collect_notFound hc' (Session.consult_missing (Session.isMissing_consult hnone))]
    exact ⟨rfl, .refl _⟩
  | failed hc hsome hx =>
    cases h
    obtain ⟨hmissing, hf, rfl, -⟩ := Session.consult_some hsome
    have hmissing' := (hx.unknown_of_error rfl hc hmissing).2
    obtain ⟨hend, hlike⟩ := hx.again rfl hl.coherent (Session.Like.refl _).countLookup ∅
    rw [collect_found hc' (Session.consult_found hmissing' hf), Collection.andThen_error hend]
    exact ⟨hend, hlike⟩
  | found => cases h

/-- A request that fails, whatever the resolvers answered before, fails with the same error when it
is made again with the same resolver. What is memoised and what is known to be missing stay as the
first failure left them, and just the classes that are abandoned again are looked up again. -/
theorem serve_again (r : Rules) (earlier : List Request) (q : Request)
    (h : (r.serve (r.served {} earlier) q).outcome = .error e) :
    let v := r.serve (r.served {} earlier) q
    let w := r.serve v.session q
    w.outcome = .error e ∧ w.session.memo = v.session.memo ∧
      w.session.missing = v.session.missing ∧
      (lookedUp w.notes).length = r.abandoned (.error e) ∧
      w.session.lookups = v.session.lookups + r.abandoned (.error e) := by
  intro v w
  have hs := (Session.Coherent.empty r.excluded).served earlier
  obtain ⟨hend, hlike⟩ : w.outcome = .error e ∧ v.session.Like w.session :=
    collect_again (r := r.over q.find q.resolver) hs h
  have hv : v.session.Coherent r.excluded := (r.serve_leaves hs q).coherent
  obtain ⟨unfinished, ha, hlost⟩ := r.serve_accounts hv q
  have hbalance : v.session.size + (lookedUp w.notes).length =
      w.session.size + unfinished.length := ha.balance
  have hlost' : unfinished.length = r.abandoned (.error e) := hlost.trans (by rw [← hend])
  rw [hlike.size_eq] at hbalance
  have hlookups : (lookedUp w.notes).length = r.abandoned (.error e) := by omega
  exact ⟨hend, hlike.memo, hlike.missing, hlookups, hlookups ▸ ha.counted⟩

theorem serve_again_looped :
    (looped.serve (looped.served {} [besideLoop]) toLoop).outcome =
        .error (.cycle "L" ["A", "L", "L"]) ∧
      (looped.serve (looped.serve (looped.served {} [besideLoop]) toLoop).session toLoop).outcome =
        .error (.cycle "L" ["A", "L", "L"]) ∧
      (lookedUp (looped.serve (looped.serve (looped.served {} [besideLoop]) toLoop).session
        toLoop).notes).length = 2 := by
  have h : (looped.serve (looped.served {} [besideLoop]) toLoop).outcome =
      .error (.cycle "L" ["A", "L", "L"]) := by cbv
  have hagain := serve_again looped [besideLoop] toLoop h
  exact ⟨h, hagain.1, hagain.2.2.2.1⟩

end Linkage.Ancestry
