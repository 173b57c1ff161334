import Linkage.Proofs.Ancestry.Economy

namespace Linkage.Ancestry

variable {r r' : Rules} {root c : ClassName} {above edges roots : List ClassName} {u : NameSet}
  {s s' : Session} {v : Collection} {found : Option ClassDescriptor} {notes : List Note}
  {resolver : String}

def WalkError.askedOf (resolver : String) : WalkError → WalkError
  | .notFound c _ => .notFound c resolver
  | .cycle c path => .cycle c path
  | .tooDeep c limit => .tooDeep c limit

namespace Collection

def askedOf (resolver : String) (v : Collection) : Collection :=
  { v with outcome := v.outcome.mapError (·.askedOf resolver) }

def Limited (v : Collection) : Prop :=
  ∃ n limit, v.outcome = .error (.tooDeep n limit)

theorem askedOf_eq_self (h : ∀ n text, v.outcome = .error (.notFound n text) → text = resolver) :
    v.askedOf resolver = v := by
  obtain ⟨outcome, s, notes⟩ := v
  cases outcome with
  | ok u => rfl
  | error e =>
    cases e with
    | notFound n text =>
      cases h n text rfl
      rfl
    | cycle | tooDeep => rfl

end Collection

namespace Rules

/-- The other rules leave the same names alone and answer alike for the rest, and they let a walk go
down at least as far. -/
structure Allows (r r' : Rules) : Prop where
  excluded : ∀ n, r'.excluded n = r.excluded n
  find : ∀ n, r.excluded n = false → r'.find n = r.find n
  maxDepth : r.maxDepth ≤ r'.maxDepth

theorem Allows.consult (h : r.Allows r') {t : ClassName} (he : r.excluded t = false)
    (hs : s.consult r.find t = (found, s', notes)) : s.consult r'.find t = (found, s', notes) :=
  (Session.consult_congr fun _ => h.find t he).trans hs

def collectAll (r : Rules) (s : Session) (roots : List ClassName) : List Collection :=
  r.serveAll s (roots.map (Request.mk r.find r.resolver))

theorem collectAll_cons (r : Rules) (s : Session) (root : ClassName) (roots : List ClassName) :
    r.collectAll s (root :: roots) =
      collect r s root :: r.collectAll (collect r s root).session roots := rfl

end Rules

/-- A walk that does not come upon the limit, or that has the same one, goes the same way under the
other rules. -/
theorem Explores.allowed (h : Explores r root above c edges u s v) (hr : r.Allows r')
    (hv : r'.maxDepth = r.maxDepth ∨ ¬ v.Limited) :
    explore r' root above c edges u s = v := by
  induction h with
  | nil => exact explore_nil
  | skip he _ ih => rw [explore_skip ((hr.excluded _).trans he), ih hv]
  | join he hc _ ih => rw [explore_join ((hr.excluded _).trans he) hc, ih hv]
  | cycle he hc hm => exact explore_cycle ((hr.excluded _).trans he) hc hm
  | miss he hc hm hs _ ih =>
    rw [explore_miss ((hr.excluded _).trans he) hc hm (hr.consult he hs), ih hv]
  | tooDeep he hc hm hs hd =>
    have hlimit := hv.resolve_right (not_not_intro ⟨_, _, rfl⟩)
    rw [explore_tooDeep ((hr.excluded _).trans he) hc hm (hr.consult he hs) (hlimit.trans_le hd),
      hlimit]
  | fail he hc hm hs hd _ ih =>
    have hroom := Nat.not_le_of_lt (Nat.lt_of_lt_of_le hd hr.maxDepth)
    rw [explore_descend ((hr.excluded _).trans he) hc hm (hr.consult he hs) hroom, ih hv,
      Collection.andThen_error rfl]
    rfl
  | descend he hc hm hs hd _ _ ihb ih =>
    have hroom := Nat.not_le_of_lt (Nat.lt_of_lt_of_le hd hr.maxDepth)
    have hbelow := ihb (.inr fun ⟨_, _, h⟩ => by cases h)
    rw [explore_descend ((hr.excluded _).trans he) hc hm (hr.consult he hs) hroom, hbelow,
      Collection.andThen_ok rfl, ih hv, Collection.prepend_prepend]

theorem Explores.not_notFound (h : Explores r root above c edges u s v) (n : ClassName)
    (text : String) : v.outcome ≠ .error (.notFound n text) := by
  induction h with
  | skip _ _ ih | join _ _ _ ih | miss _ _ _ _ _ ih | fail _ _ _ _ _ _ ih
  | descend _ _ _ _ _ _ _ _ ih => exact ih
  | nil | cycle | tooDeep =>
    intro h
    cases h

theorem notFound_of_collect {n : ClassName} {text : String}
    (h : (collect r s c).outcome = .error (.notFound n text)) : text = r.resolver := by
  have ha := answers_collect r s c
  generalize collect r s c = v at ha h
  cases ha with
  | cached | found => cases h
  | notFound =>
    cases h
    rfl
  | failed _ _ hx => exact absurd h (hx.not_notFound n text)

theorem collect_allowed (hr : r.Allows r') (hc : r'.find c = r.find c)
    (hv : r'.maxDepth = r.maxDepth ∨ ¬ (collect r s c).Limited) :
    collect r' s c = (collect r s c).askedOf r'.resolver := by
  have ha := answers_collect r s c
  have hconsult : s.consult r'.find c = s.consult r.find c := Session.consult_congr fun _ => hc
  generalize collect r s c = v at ha hv
  cases ha with
  | cached hk =>
    rw [collect_cached hk]
    rfl
  | notFound hk hs =>
    rw [collect_notFound hk (hconsult.trans hs)]
    rfl
  | @failed d s₁ s₂ notes below e hk hs hx =>
    have hasked : (Collection.mk (.error e) s₂ (notes ++ below)).askedOf r'.resolver =
        ⟨.error e, s₂, notes ++ below⟩ :=
      Collection.askedOf_eq_self fun n text h => absurd h (hx.not_notFound n text)
    rw [collect_found hk (hconsult.trans hs), hx.allowed hr hv, Collection.andThen_error rfl, hasked]
    rfl
  | found hk hs hx =>
    rw [collect_found hk (hconsult.trans hs), hx.allowed hr hv, Collection.andThen_ok rfl]
    rfl

theorem Rules.collectAll_allowed (hr : r.Allows r') (hroots : ∀ n ∈ roots, r'.find n = r.find n)
    (hv : r'.maxDepth = r.maxDepth ∨ ∀ v ∈ r.collectAll s roots, ¬ v.Limited) :
    r'.collectAll s roots = (r.collectAll s roots).map (·.askedOf r'.resolver) := by
  induction roots generalizing s with
  | nil => rfl
  | cons root roots ih =>
    rw [collectAll_cons] at hv
    have hhead := collect_allowed hr (hroots root List.mem_cons_self)
      (hv.imp_right fun h => h _ List.mem_cons_self)
    have htail := ih (fun n hn => hroots n (List.mem_cons_of_mem _ hn))
      (hv.imp_right fun h v hm => h v (List.mem_cons_of_mem _ hm))
    rw [collectAll_cons, collectAll_cons, List.map_cons, hhead, ← htail]
    rfl

end Linkage.Ancestry
