import Linkage.Proofs.Ancestry.Sharing
import Linkage.Proofs.Ancestry.Steady

namespace Linkage.Ancestry

variable {r : Rules} {s : Session} {c d : ClassName} {u : NameSet}

namespace Rules

def serveAll (r : Rules) (s : Session) : List Request → List Collection
  | [] => []
  | q :: qs => r.serve s q :: r.serveAll (r.serve s q).session qs

def askedFor (r : Rules) (s : Session) (qs : List Request) : List ClassName :=
  (r.serveAll s qs).flatMap fun v => lookedUp v.notes

/-- How many classes the failed requests of a series abandoned. -/
def losses (r : Rules) (s : Session) (qs : List Request) : Nat :=
  ((r.serveAll s qs).map fun v => r.abandoned v.outcome).sum

theorem askedFor_cons (r : Rules) (s : Session) (q : Request) (qs : List Request) :
    r.askedFor s (q :: qs) =
      lookedUp (r.serve s q).notes ++ r.askedFor (r.serve s q).session qs :=
  List.flatMap_cons

theorem losses_cons (r : Rules) (s : Session) (q : Request) (qs : List Request) :
    r.losses s (q :: qs) =
      r.abandoned (r.serve s q).outcome + r.losses (r.serve s q).session qs :=
  List.sum_cons

theorem served_cons (r : Rules) (s : Session) (q : Request) (qs : List Request) :
    r.served s (q :: qs) = r.served (r.serve s q).session qs := rfl

end Rules

theorem Rules.serve_leaves (hs : s.Coherent r.excluded) (q : Request) :
    s.Leaves r.excluded q.root (r.serve s q).outcome (r.serve s q).session :=
  collect_leaves (r := r.over q.find q.resolver) hs q.root

theorem Rules.serve_accounts (hs : s.Coherent r.excluded) (q : Request) :
    ∃ unfinished, s.Accounts (lookedUp (r.serve s q).notes) (r.serve s q).session unfinished ∧
      unfinished.length = r.abandoned (r.serve s q).outcome :=
  collect_accounts (r := r.over q.find q.resolver) hs q.root

theorem Session.Coherent.keeps_served (hs : s.Coherent r.excluded) (qs : List Request) :
    s.Keeps (r.served s qs) := by
  induction qs generalizing s with
  | nil => exact .refl s
  | cons q qs ih =>
    have hl := r.serve_leaves hs q
    exact hl.keeps.trans (ih hl.coherent)

theorem Rules.served_balance (hs : s.Coherent r.excluded) (qs : List Request) :
    (r.served s qs).lookups = s.lookups + (r.askedFor s qs).length ∧
      s.size + (r.askedFor s qs).length = (r.served s qs).size + r.losses s qs ∧
      (s.missing.Nodup → (r.served s qs).missing.Nodup) := by
  induction qs generalizing s with
  | nil => exact ⟨rfl, rfl, id⟩
  | cons q qs ih =>
    obtain ⟨unfinished, ha, hu⟩ := r.serve_accounts hs q
    have hl := r.serve_leaves hs q
    obtain ⟨hcount, hbalance, hdistinct⟩ := ih hl.coherent
    have hcount' := ha.counted
    have hbalance' := ha.balance
    rw [served_cons, askedFor_cons, losses_cons, List.length_append]
    exact ⟨by omega, by omega, fun hd => hdistinct (ha.distinct hd)⟩

theorem Rules.served_accounts (hs : s.Coherent r.excluded) (qs : List Request)
    (h : ∀ v ∈ r.serveAll s qs, r.abandoned v.outcome = 0) :
    s.Accounts (r.askedFor s qs) (r.served s qs) [] := by
  induction qs generalizing s with
  | nil => exact .refl s
  | cons q qs ih =>
    obtain ⟨unfinished, ha, hu⟩ := r.serve_accounts hs q
    have hl := r.serve_leaves hs q
    rw [h _ List.mem_cons_self, List.length_eq_zero_iff] at hu
    subst hu
    rw [served_cons, askedFor_cons]
    exact ha.trans hl.keeps (ih hl.coherent fun v hv => h v (List.mem_cons_of_mem _ hv))
      (hl.coherent.keeps_served qs)

theorem Rules.abandoned_eq_zero {outcome : Except WalkError NameSet}
    (hc : ∀ t path, outcome ≠ .error (.cycle t path))
    (hd : ∀ n limit, outcome ≠ .error (.tooDeep n limit)) : r.abandoned outcome = 0 := by
  cases outcome with
  | ok => rfl
  | error e =>
    cases e with
    | notFound => rfl
    | cycle t path => exact absurd rfl (hc t path)
    | tooDeep n limit => exact absurd rfl (hd n limit)

theorem collect_memoised (h : (collect r s c).outcome = .ok u) :
    (collect r s c).session.cached? c ≠ none := by
  have ha := answers_collect r s c
  generalize collect r s c = v at ha h
  cases ha with
  | cached hc => simp [hc]
  | notFound => cases h
  | failed => cases h
  | found _ _ hx => exact hx.memoised rfl

theorem collect_within (r : Rules) (s : Session) (c : ClassName) :
    s.Within (collect r s c).session := by
  have ha := answers_collect r s c
  generalize collect r s c = v at ha
  cases ha with
  | cached => exact .refl s
  | notFound _ hnone => exact Session.within_consult hnone
  | failed _ hsome hx | found _ hsome hx => exact (Session.within_consult hsome).trans hx.within

theorem Rules.within_after (r : Rules) (s : Session) (cs : List ClassName) :
    s.Within (r.after s cs) := by
  induction cs generalizing s with
  | nil => exact .refl s
  | cons c cs ih => exact (collect_within r s c).trans (ih _)

theorem collect_of_leads (earlier later : List ClassName)
    (h : (collect r (r.after {} earlier) c).outcome = .ok u) (hl : r.Leads c d)
    (hd : r.find d ≠ none) :
    ∃ k, collect r (r.after {} (earlier ++ c :: later)) d =
        ⟨.ok k, r.after {} (earlier ++ c :: later), []⟩ ∧ ∀ t ∈ k, t ∈ u := by
  have hafter : r.after {} (earlier ++ c :: later) =
      r.after (collect r (r.after {} earlier) c).session later := by
    simp only [Rules.after, List.foldl_append, List.foldl_cons]
  have hs := (Session.Faithful.empty r).after (earlier ++ c :: later)
  have hc := r.within_after _ later c (collect_memoised h)
  rw [← hafter] at hc
  obtain ⟨k, hk⟩ := Option.ne_none_iff_exists'.mp (hs.closed_leads hc hl hd)
  have hu := (collect_faithful ((Session.Faithful.empty r).after earlier) c).2 u h
  refine ⟨k, collect_cached hk, fun t ht => ?_⟩
  obtain ⟨hnone, hleads⟩ := ((hs.settled d k hk).mem_iff t).mp ht
  exact (hu.mem_iff t).mpr ⟨hnone, hl.trans hleads⟩

/-- However the resolver changes from request to request: a request asks for no name twice, nor for
one that was memoised or known to be missing at any time before. One under which the resolver changes
ends as one with a resolver of its own that does not. The look-ups of the session are the names that
were asked for; they are as many as the names that it knows and the classes that failed requests
abandoned, and no two of them are for one name where none was abandoned. With one resolver, a class
that is answered answers for the found classes that it leads to. -/
theorem serve_economical (r : Rules) (qs : List Request) (q : Request) :
    let s := r.served {} qs
    ((lookedUp (r.serve s q).notes).Nodup ∧
      ∀ earlier, earlier <+: qs → ∀ n, (r.served {} earlier).Knows n →
        n ∉ lookedUp (r.serve s q).notes) ∧
    (∀ w, Passes (r.over q.find q.resolver) s q.root w → ∀ now resolver f,
      step (r.over now resolver) w = .inr f →
      ∃ find, (r.serve s ⟨find, q.resolver, q.root⟩).EndsAs f) ∧
    (s.lookups = (r.askedFor {} qs).length ∧ s.missing.Nodup ∧
      s.lookups = s.cachedClasses + s.missing.length + r.losses {} qs) ∧
    ((∀ v ∈ r.serveAll {} qs, (∀ t path, v.outcome ≠ .error (.cycle t path)) ∧
        ∀ n limit, v.outcome ≠ .error (.tooDeep n limit)) → (r.askedFor {} qs).Nodup) ∧
    ∀ earlier later c u d, (collect r (r.after {} earlier) c).outcome = .ok u →
      r.Leads c d → r.find d ≠ none →
      ∃ k, collect r (r.after {} (earlier ++ c :: later)) d =
          ⟨.ok k, r.after {} (earlier ++ c :: later), []⟩ ∧ ∀ t ∈ k, t ∈ u := by
  intro s
  have hempty := Session.Coherent.empty r.excluded
  have hs : s.Coherent r.excluded := hempty.served qs
  obtain ⟨unfinished, ha, -⟩ := r.serve_accounts hs q
  obtain ⟨hcount, hbalance, hdistinct⟩ := r.served_balance hempty qs
  have hcount' : s.lookups = (r.askedFor {} qs).length := hcount.trans (Nat.zero_add _)
  have hbalance' : (r.askedFor {} qs).length = s.size + r.losses {} qs :=
    (Nat.zero_add _).symm.trans hbalance
  refine ⟨⟨ha.nodup, ?_⟩, fun w hw now resolver f hf => hw.exists_request hs q.resolver hf,
    ⟨hcount', hdistinct List.nodup_nil, hcount'.trans hbalance'⟩, fun h => ?_,
    fun earlier later c u d => collect_of_leads earlier later⟩
  · rintro earlier ⟨later, rfl⟩ n hn hm
    have hk := (hempty.served earlier).keeps_served later
    have hserved : r.served (r.served {} earlier) later = s := List.foldl_append.symm
    rw [hserved] at hk
    exact ((ha.mem_iff n).mp hm).1 (hk.knows hn)
  · exact (r.served_accounts hempty qs fun v hv =>
      Rules.abandoned_eq_zero (h v hv).1 (h v hv).2).nodup

def toLoop : Request := ⟨looped.find, "sample", "A"⟩

def besideLoop : Request := ⟨looped.find, "sample", "C"⟩

/-- The failed walk leaves `A` and `L` behind; without it no name is looked up twice, and `B` is
known from the walk of `C`. -/
theorem serve_economical_looped :
    (looped.served {} [toLoop]).lookups =
        (looped.served {} [toLoop]).cachedClasses + (looped.served {} [toLoop]).missing.length + 2 ∧
      (looped.askedFor {} [besideLoop]).Nodup ∧
      ∃ k, collect looped (looped.after {} ["A", "C"]) "B" =
          ⟨.ok k, looped.after {} ["A", "C"], []⟩ ∧ ∀ t ∈ k, t ∈ (∅ : NameSet).insert "Gone" := by
  have hlost : looped.losses {} [toLoop] = 2 := by cbv
  have hok : (looped.serve {} besideLoop).outcome = .ok ((∅ : NameSet).insert "Gone") := by cbv
  have hC : (collect looped (looped.after {} ["A"]) "C").outcome =
      .ok ((∅ : NameSet).insert "Gone") := by cbv
  have hedge : looped.LiveEdge "C" "B" := ⟨_, rfl, by decide, rfl⟩
  refine ⟨?_, ?_, ?_⟩
  · have h := (serve_economical looped [toLoop] besideLoop).2.2.1.2.2
    rwa [hlost] at h
  · refine (serve_economical looped [besideLoop] toLoop).2.2.2.1 fun v hv => ?_
    rw [List.mem_singleton.mp hv, hok]
    exact ⟨by simp, by simp⟩
  · exact (serve_economical looped [] toLoop).2.2.2.2 ["A"] [] "C" _ "B" hC (.single hedge)
      (by decide)

end Linkage.Ancestry
