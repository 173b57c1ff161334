import Linkage.Proofs.Ancestry.Finality

namespace Linkage.Ancestry

variable {r : Rules} {s s' s'' : Session} {c m n root : ClassName} {u : NameSet}
  {find : ClassName → Option ClassDescriptor} {excluded : ClassName → Bool} {notes : List Note}
  {asked unfinished : List ClassName}

def lookedUp (notes : List Note) : List ClassName :=
  notes.filterMap fun
    | .lookup n => some n
    | _ => none

@[simp] theorem lookedUp_nil : lookedUp [] = [] := rfl

@[simp] theorem lookedUp_append (before after : List Note) :
    lookedUp (before ++ after) = lookedUp before ++ lookedUp after :=
  List.filterMap_append

/-- How many classes a request had found and not finished when it ended. -/
def Rules.abandoned (r : Rules) : Except WalkError NameSet → Nat
  | .ok _ => 0
  | .error (.notFound _ _) => 0
  | .error (.cycle _ path) => path.length - 1
  | .error (.tooDeep _ _) => max 1 r.maxDepth + 1

namespace Session

def Knows (s : Session) (n : ClassName) : Prop :=
  s.cached? n ≠ none ∨ s.isMissing n = true

def size (s : Session) : Nat :=
  s.cachedClasses + s.missing.length

theorem not_knows_iff : ¬ s.Knows n ↔ s.cached? n = none ∧ s.isMissing n = false := by
  simp [Knows]

theorem Keeps.knows (h : s.Keeps s') (hn : s.Knows n) : s'.Knows n := by
  rcases hn with hn | hn
  · obtain ⟨u, hu⟩ := Option.ne_none_iff_exists'.mp hn
    exact .inl (by simp [h.cached n u hu])
  · exact .inr (h.missing n hn)

theorem knows_record : (s.record c u).Knows n ↔ n = c ∨ s.Knows n := by
  rw [Knows, cached?_record_ne_none, isMissing_record, or_assoc]
  rfl

theorem knows_recordMissing : (s.recordMissing m).Knows n ↔ n = m ∨ s.Knows n := by
  rw [Knows, isMissing_recordMissing, cached?_recordMissing, or_left_comm]
  rfl

theorem size_record (hc : s.cached? c = none) : (s.record c u).size = s.size + 1 := by
  simp only [record, hc, Option.isSome_none, Bool.false_eq_true, ↓reduceIte, size, cachedClasses,
    List.length_cons]
  omega

theorem missing_record : (s.record c u).missing = s.missing := by
  unfold record
  split <;> rfl

theorem lookups_record : (s.record c u).lookups = s.lookups := by
  unfold record
  split <;> rfl

theorem missing_recordMissing (hm : s.isMissing n = false) :
    (s.recordMissing n).missing = n :: s.missing := by
  simp only [recordMissing, hm, Bool.false_eq_true, ↓reduceIte]

theorem size_recordMissing (hm : s.isMissing n = false) :
    (s.recordMissing n).size = s.size + 1 := by
  simp only [recordMissing, hm, Bool.false_eq_true, ↓reduceIte, size, cachedClasses,
    List.length_cons]
  omega

theorem lookups_recordMissing : (s.recordMissing n).lookups = s.lookups := by
  unfold recordMissing
  split <;> rfl

/-- What the look-ups between two states of a session came to. Each was for a name that the session
did not know before, and no two were for the same name; a name that was looked up is known since,
as memoised or as missing, unless it belongs to a class that is found and not finished. -/
structure Accounts (s : Session) (asked : List ClassName) (s' : Session)
    (unfinished : List ClassName) : Prop where
  nodup : asked.Nodup
  mem_iff : ∀ n, n ∈ asked ↔ ¬ s.Knows n ∧ (s'.Knows n ∨ n ∈ unfinished)
  counted : s'.lookups = s.lookups + asked.length
  balance : s.size + asked.length = s'.size + unfinished.length
  distinct : s.missing.Nodup → s'.missing.Nodup

namespace Accounts

theorem refl (s : Session) : s.Accounts [] s [] where
  nodup := List.nodup_nil
  mem_iff n := by simp
  counted := rfl
  balance := rfl
  distinct h := h

theorem ask (h : s.Accounts asked s' unfinished) (hk : s.Keeps s') (hn : ¬ s'.Knows n)
    (hu : n ∉ unfinished) : s.Accounts (asked ++ [n]) s'.countLookup (unfinished ++ [n]) := by
  have hs : ¬ s.Knows n := fun hs => hn (hk.knows hs)
  have ha : n ∉ asked := fun ha => ((h.mem_iff n).mp ha).2.elim hn hu
  constructor
  · exact h.nodup.append (List.nodup_singleton n) (List.disjoint_singleton.mpr ha)
  · intro m
    show m ∈ asked ++ [n] ↔ ¬ s.Knows m ∧ (s'.Knows m ∨ m ∈ unfinished ++ [n])
    rw [List.mem_append, List.mem_append, List.mem_singleton, h.mem_iff m]
    by_cases hm : m = n
    · subst hm
      simp [hs]
    · simp [hm]
  · show s'.lookups + 1 = s.lookups + (asked ++ [n]).length
    rw [h.counted, List.length_append, List.length_singleton, Nat.add_assoc]
  · show s.size + (asked ++ [n]).length = s'.size + (unfinished ++ [n]).length
    rw [List.length_append, List.length_append, ← Nat.add_assoc, ← Nat.add_assoc, h.balance]
  · exact h.distinct

theorem settle (h : s.Accounts asked s' (unfinished ++ [n]))
    (hk : ∀ m, s''.Knows m ↔ m = n ∨ s'.Knows m) (hl : s''.lookups = s'.lookups)
    (hsize : s''.size = s'.size + 1) (hd : s'.missing.Nodup → s''.missing.Nodup) :
    s.Accounts asked s'' unfinished where
  nodup := h.nodup
  mem_iff m := by
    rw [h.mem_iff m, hk m, List.mem_append, List.mem_singleton]
    tauto
  counted := by rw [hl, h.counted]
  balance := by
    rw [hsize, h.balance, List.length_append, List.length_singleton]
    omega
  distinct hs := hd (h.distinct hs)

theorem record (h : s.Accounts asked s' (unfinished ++ [c])) (hc : s'.cached? c = none)
    (u : NameSet) : s.Accounts asked (s'.record c u) unfinished :=
  h.settle (fun _ => knows_record) lookups_record (size_record hc) (by simp [missing_record])

theorem recordMissing (h : s.Accounts asked s' (unfinished ++ [n]))
    (hm : s'.isMissing n = false) : s.Accounts asked (s'.recordMissing n) unfinished := by
  refine h.settle (fun _ => knows_recordMissing) lookups_recordMissing (size_recordMissing hm) ?_
  rw [missing_recordMissing hm]
  exact List.nodup_cons.mpr ∘ .intro (by simpa [isMissing] using hm)

theorem consult_some {d : ClassDescriptor} (h : s.Accounts asked s' unfinished)
    (hk : s.Keeps s') (hc : s'.cached? n = none) (hu : n ∉ unfinished)
    (hs : s'.consult find n = (some d, s'', notes)) :
    s.Accounts (asked ++ lookedUp notes) s'' (unfinished ++ [n]) := by
  obtain ⟨hm, -, rfl, rfl⟩ := Session.consult_some hs
  exact h.ask hk (not_knows_iff.mpr ⟨hc, hm⟩) hu

theorem consult_none (h : s.Accounts asked s' unfinished) (hk : s.Keeps s')
    (hc : s'.cached? n = none) (hu : n ∉ unfinished)
    (hs : s'.consult find n = (none, s'', notes)) :
    s.Accounts (asked ++ lookedUp notes) s'' unfinished := by
  rcases Session.consult_none hs with ⟨-, rfl, rfl⟩ | ⟨hm, -, rfl, rfl⟩
  · rwa [lookedUp_nil, List.append_nil]
  · exact (h.ask hk (not_knows_iff.mpr ⟨hc, hm⟩) hu).recordMissing hm

theorem trans {later : List ClassName} (h : s.Accounts asked s' []) (hk : s.Keeps s')
    (h' : s'.Accounts later s'' unfinished) (hk' : s'.Keeps s'') :
    s.Accounts (asked ++ later) s'' unfinished := by
  have hknown : ∀ n ∈ asked, s'.Knows n := fun n hn => by
    simpa using ((h.mem_iff n).mp hn).2
  constructor
  · refine h.nodup.append h'.nodup fun n hn hn' => ?_
    exact ((h'.mem_iff n).mp hn').1 (hknown n hn)
  · intro n
    rw [List.mem_append]
    constructor
    · rintro (hn | hn)
      · exact ⟨((h.mem_iff n).mp hn).1, .inl (hk'.knows (hknown n hn))⟩
      · obtain ⟨hs, he⟩ := (h'.mem_iff n).mp hn
        exact ⟨fun hn => hs (hk.knows hn), he⟩
    · rintro ⟨hs, he⟩
      -- what is known in between was asked for before it
      by_cases hn : s'.Knows n
      · exact .inl ((h.mem_iff n).mpr ⟨hs, .inl hn⟩)
      · exact .inr ((h'.mem_iff n).mpr ⟨hn, he⟩)
  · rw [h'.counted, h.counted, List.length_append, Nat.add_assoc]
  · rw [List.length_append, ← Nat.add_assoc, h.balance, ← h'.balance]
    rfl
  · exact fun hd => h'.distinct (h.distinct hd)

end Accounts

end Session

section Moves

variable {w v : Walk r.maxDepth} {f : Finish}

/-- A step keeps the accounts, with the classes on the path as those that are not finished. -/
theorem Session.Accounts.move
    (h : s.Accounts (lookedUp w.journal.reverse) w.session w.path) (hk : s.Keeps w.session)
    (hw : w.Coherent excluded) (hm : Move r w (.inl v)) :
    s.Accounts (lookedUp v.journal.reverse) v.session v.path := by
  cases hm with
  | ascend _ ha =>
    rw [w.path_ascend _ _ ha] at h
    exact h.record (hw.unsaid _ w.current_mem_path).1 _
  | skip | join =>
    rw [w.path_follow]
    simpa [Walk.follow, lookedUp] using h
  | miss _ _ hc hv hs =>
    rw [w.path_follow]
    simpa [Walk.follow, lookedUp] using h.consult_none hk hc hv hs
  | descend _ _ hc hv hs =>
    rw [w.path_descend]
    simpa [Walk.descend] using h.consult_some hk hc hv hs

/-- When a walk ends, the classes on its path are abandoned, unless the root is finished. -/
theorem Session.Accounts.finish
    (h : s.Accounts (lookedUp w.journal.reverse) w.session w.path) (hk : s.Keeps w.session)
    (hw : w.Coherent excluded) (hm : Move r w (.inr f)) :
    ∃ unfinished, s.Accounts (lookedUp f.journal.reverse) f.session unfinished ∧
      unfinished.length = r.abandoned f.outcome := by
  cases hm with
  | finish _ ha =>
    have hpath : w.path = [] ++ [w.current.className] := by simp [Walk.path, ha]
    rw [hpath] at h
    exact ⟨[], h.record (hw.unsaid _ w.current_mem_path).1 _, rfl⟩
  | cycle =>
    refine ⟨w.path, by simpa [lookedUp] using h, ?_⟩
    simp [Rules.abandoned]
  | @tooDeep t _ _ _ _ _ _ hc hv hs hd =>
    refine ⟨w.path ++ [t], by simpa using h.consult_some hk hc hv hs, ?_⟩
    have hle := w.depth_le
    rw [Rules.abandoned, List.length_append, List.length_singleton, w.path_length]
    omega

end Moves

theorem Passes.accounts {w : Walk r.maxDepth} (h : Passes r s root w)
    (hs : s.Coherent r.excluded) :
    s.Accounts (lookedUp w.journal.reverse) w.session w.path := by
  induction h with
  | start hc hd =>
    have h := (Session.Accounts.refl s).consult_some (.refl s) hc List.not_mem_nil hd
    simpa [Walk.start, Walk.path] using h
  | @next w v find resolver hw hv ih =>
    obtain ⟨hcoh, hk, -⟩ := hw.coherent hs
    have hm := move_step (r.over find resolver) w
    rw [hv] at hm
    exact Session.Accounts.move (r := r.over find resolver) ih hk hcoh hm

theorem Passes.accounts_finish {w : Walk r.maxDepth} {f : Finish} (h : Passes r s root w)
    (hs : s.Coherent r.excluded) (resolver : String)
    (hf : step (r.over find resolver) w = .inr f) :
    ∃ unfinished, s.Accounts (lookedUp f.journal.reverse) f.session unfinished ∧
      unfinished.length = r.abandoned f.outcome := by
  obtain ⟨hcoh, hk, -⟩ := h.coherent hs
  have hm := move_step (r.over find resolver) w
  rw [hf] at hm
  exact Session.Accounts.finish (r := r.over find resolver) (h.accounts hs) hk hcoh hm

structure Collection.EndsAs (v : Collection) (f : Finish) : Prop where
  outcome : v.outcome = f.outcome
  session : v.session = f.session
  lookedUp : lookedUp v.notes = lookedUp f.journal.reverse

theorem collect_endsAs {d : ClassDescriptor} (hc : s.cached? c = none)
    (hd : s.consult r.find c = (some d, s', notes)) :
    (collect r s c).EndsAs (run r (Walk.start r s' c d notes)) := by
  simp only [collect, hc, hd]
  refine ⟨rfl, rfl, ?_⟩
  cases (run r (Walk.start r s' c d notes)).outcome <;> simp [lookedUp]

theorem collect_accounts (hs : s.Coherent r.excluded) (c : ClassName) :
    ∃ unfinished,
      s.Accounts (lookedUp (collect r s c).notes) (collect r s c).session unfinished ∧
      unfinished.length = r.abandoned (collect r s c).outcome := by
  cases hc : s.cached? c with
  | some known =>
    rw [collect_cached hc]
    exact ⟨[], .refl s, rfl⟩
  | none =>
    rcases hd : s.consult r.find c with ⟨found, s', notes⟩
    cases found with
    | none =>
      rw [collect_notFound hc hd]
      exact ⟨[], (Session.Accounts.refl s).consult_none (.refl s) hc List.not_mem_nil hd, rfl⟩
    | some d =>
      obtain ⟨v, hv, hf⟩ := (Passes.start hc hd).exists_last
      have hend := collect_endsAs hc hd
      rw [hend.outcome, hend.session, hend.lookedUp]
      exact hv.accounts_finish hs r.resolver hf

end Linkage.Ancestry
