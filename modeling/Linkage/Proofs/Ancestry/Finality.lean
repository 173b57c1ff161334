import Linkage.Proofs.Ancestry.Exactness

namespace Linkage.Ancestry

variable {r : Rules} {s s' s'' : Session} {c m n root t : ClassName} {u k : NameSet}
  {excluded : ClassName → Bool} {find : ClassName → Option ClassDescriptor}
  {found : Option ClassDescriptor} {notes : List Note} {f : Finish}

namespace Session

structure Keeps (s s' : Session) : Prop where
  cached : ∀ n u, s.cached? n = some u → s'.cached? n = some u
  missing : ∀ n, s.isMissing n = true → s'.isMissing n = true

def Confirms (excluded : ClassName → Bool) (s : Session) (u : NameSet) : Prop :=
  ∀ t ∈ u, s.isMissing t = true ∧ excluded t = false

/-- A session that does not contradict itself, whatever the resolver says now. -/
structure Coherent (excluded : ClassName → Bool) (s : Session) : Prop where
  apart : ∀ n, s.cached? n ≠ none → s.isMissing n = false
  confirmed : ∀ n u, s.cached? n = some u → s.Confirms excluded u

theorem Keeps.refl (s : Session) : s.Keeps s := ⟨fun _ _ h => h, fun _ h => h⟩

theorem Keeps.trans (h : s.Keeps s') (h' : s'.Keeps s'') : s.Keeps s'' where
  cached n u hn := h'.cached n u (h.cached n u hn)
  missing n hn := h'.missing n (h.missing n hn)

theorem keeps_record (s : Session) (c : ClassName) (u : NameSet) : s.Keeps (s.record c u) where
  cached n k hn := by
    by_cases hc : s.cached? c = none
    · have hne : n ≠ c := fun h => by simp [h, hc] at hn
      rwa [cached?_record_ne u hne]
    · rwa [record_of_cached u hc]
  missing n hn := by rwa [isMissing_record]

theorem isMissing_consult (h : s.consult find n = (none, s', notes)) : s'.isMissing n = true := by
  rcases consult_none h with ⟨hm, rfl, -⟩ | ⟨-, -, rfl, -⟩
  · exact hm
  · exact isMissing_recordMissing.mpr (.inl rfl)

theorem isMissing_consult_ne (h : s.consult find n = (found, s', notes)) (hne : m ≠ n) :
    s'.isMissing m = s.isMissing m := by
  cases found with
  | some d =>
    obtain ⟨-, -, rfl, -⟩ := consult_some h
    rfl
  | none =>
    rcases consult_none h with ⟨-, rfl, -⟩ | ⟨-, -, rfl, -⟩
    · rfl
    · rw [Bool.eq_iff_iff, isMissing_recordMissing, isMissing_countLookup]
      simp only [hne, false_or]

theorem keeps_consult (h : s.consult find n = (found, s', notes)) : s.Keeps s' where
  cached m u hm := by rwa [cached?_consult h]
  missing m hm := by
    by_cases hne : m = n
    · subst hne
      cases found with
      | none => exact isMissing_consult h
      | some d => simp [(consult_some h).1] at hm
    · rwa [isMissing_consult_ne h hne]

theorem Confirms.empty (excluded : ClassName → Bool) (s : Session) : s.Confirms excluded ∅ :=
  fun _ h => absurd h (NameSet.notMem_empty _)

theorem Confirms.insert (h : s.Confirms excluded u) (hm : s.isMissing t = true)
    (he : excluded t = false) : s.Confirms excluded (u.insert t) := by
  intro a ha
  rcases NameSet.mem_insert.mp ha with rfl | ha
  · exact ⟨hm, he⟩
  · exact h a ha

theorem Confirms.union (h : s.Confirms excluded u) (h' : s.Confirms excluded k) :
    s.Confirms excluded (u ∪ k) :=
  fun a ha => (NameSet.mem_union.mp ha).elim (h a) (h' a)

theorem Confirms.keeps (h : s.Confirms excluded u) (hk : s.Keeps s') : s'.Confirms excluded u :=
  fun a ha => ⟨hk.missing a (h a ha).1, (h a ha).2⟩

theorem Coherent.empty (excluded : ClassName → Bool) : Coherent excluded {} where
  apart n h := absurd rfl h
  confirmed n u h := by simp [cached?] at h

theorem Coherent.record (h : s.Coherent excluded) (hc : s.cached? c = none)
    (hm : s.isMissing c = false) (hu : s.Confirms excluded u) :
    (s.record c u).Coherent excluded where
  apart n hn := by
    rw [isMissing_record]
    rcases cached?_record_ne_none.mp hn with rfl | hn
    · exact hm
    · exact h.apart n hn
  confirmed n k hn := by
    refine Confirms.keeps ?_ (keeps_record s c u)
    by_cases hne : n = c
    · subst hne
      rw [cached?_record_self hc, Option.some.injEq] at hn
      exact hn ▸ hu
    · rw [cached?_record_ne u hne] at hn
      exact h.confirmed n k hn

theorem Coherent.consult (h : s.Coherent excluded) (hc : s.cached? n = none)
    (hs : s.consult find n = (found, s', notes)) : s'.Coherent excluded where
  apart m hm := by
    rw [cached?_consult hs] at hm
    have hne : m ≠ n := fun he => hm (he ▸ hc)
    rw [isMissing_consult_ne hs hne]
    exact h.apart m hm
  confirmed m k hm := by
    rw [cached?_consult hs] at hm
    exact (h.confirmed m k hm).keeps (keeps_consult hs)

end Session

namespace Walk

variable {limit : Nat} {w : Walk limit}

/-- A walk that goes on from a session that does not contradict itself. No class on the path is
memoised or known to be missing, and what the frames hold has been confirmed. -/
structure Coherent (excluded : ClassName → Bool) (w : Walk limit) : Prop where
  session : w.session.Coherent excluded
  unsaid : ∀ n ∈ w.path, w.session.cached? n = none ∧ w.session.isMissing n = false
  nodup : w.path.Nodup
  confirmed : ∀ f ∈ w.current :: w.above, w.session.Confirms excluded f.unresolved

theorem path_follow (w : Walk limit) (pending : List ClassName) (u : NameSet) (s : Session)
    (notes : List Note) : (w.follow pending u s notes).path = w.path := by
  simp only [path, follow, List.reverse_cons, List.map_append, List.map_cons, List.map_nil]

theorem path_descend (w : Walk limit) (pending : List ClassName) (c : ClassName)
    (edges : List ClassName) (s : Session) (notes : List Note) (h : w.above.length + 2 ≤ limit) :
    (w.descend pending c edges s notes h).path = w.path ++ [c] := by
  simp only [path, descend, List.reverse_cons, List.map_append, List.map_cons, List.map_nil]

theorem path_ascend (w : Walk limit) (parent : Frame) (above : List Frame)
    (h : w.above = parent :: above) :
    w.path = (w.ascend parent above h).path ++ [w.current.className] := by
  simp only [path, ascend, h, List.reverse_cons, List.map_append, List.map_cons, List.map_nil]

theorem current_mem_path (w : Walk limit) : w.current.className ∈ w.path := by
  simp [path]

theorem root_mem_path (w : Walk limit) : w.root ∈ w.path := by
  cases h : w.above.getLast? with
  | none => simp [root, path, h]
  | some f =>
    have hf := List.mem_of_getLast? h
    simp only [root, path, h, Option.getD_some, List.mem_map, List.mem_reverse, List.mem_cons]
    exact ⟨f, .inr hf, rfl⟩

theorem Coherent.unsaid_consult (h : w.Coherent excluded) (ht : t ∉ w.path)
    (hs : w.session.consult find t = (found, s', notes)) :
    ∀ n ∈ w.path, s'.cached? n = none ∧ s'.isMissing n = false := by
  intro n hn
  have hne : n ≠ t := fun he => ht (he ▸ hn)
  rw [Session.cached?_consult hs, Session.isMissing_consult_ne hs hne]
  exact h.unsaid n hn

theorem Coherent.follow (h : w.Coherent excluded) (hk : w.session.Keeps s')
    (hs : s'.Coherent excluded)
    (hp : ∀ n ∈ w.path, s'.cached? n = none ∧ s'.isMissing n = false)
    (hu : s'.Confirms excluded u) (pending : List ClassName) (notes : List Note) :
    (w.follow pending u s' notes).Coherent excluded where
  session := hs
  unsaid := by rwa [path_follow]
  nodup := by rw [path_follow]; exact h.nodup
  confirmed f hf := by
    rcases List.mem_cons.mp hf with rfl | hf
    · exact hu
    · exact (h.confirmed f (List.mem_cons_of_mem _ hf)).keeps hk

theorem Coherent.descend (h : w.Coherent excluded) (hc : w.session.cached? t = none)
    (ht : t ∉ w.path) {d : ClassDescriptor}
    (hs : w.session.consult find t = (some d, s', notes)) (pending : List ClassName)
    (hd : w.above.length + 2 ≤ limit) :
    (w.descend pending t d.ancestors s' notes hd).Coherent excluded where
  session := h.session.consult hc hs
  unsaid := by
    rw [path_descend]
    intro n hn
    rcases List.mem_append.mp hn with hn | hn
    · exact h.unsaid_consult ht hs n hn
    · obtain ⟨hm, -, rfl, -⟩ := Session.consult_some hs
      rw [List.mem_singleton.mp hn]
      exact ⟨hc, hm⟩
  nodup := by
    rw [path_descend]
    exact h.nodup.append (List.nodup_singleton t) (List.disjoint_singleton.mpr ht)
  confirmed f hf := by
    have hk := Session.keeps_consult hs
    rcases List.mem_cons.mp hf with rfl | hf
    · exact .empty _ _
    · rcases List.mem_cons.mp hf with rfl | hf
      · exact (h.confirmed w.current List.mem_cons_self).keeps hk
      · exact (h.confirmed f (List.mem_cons_of_mem _ hf)).keeps hk

theorem Coherent.record (h : w.Coherent excluded) :
    (w.session.record w.current.className w.current.unresolved).Coherent excluded := by
  obtain ⟨hc, hm⟩ := h.unsaid _ w.current_mem_path
  exact h.session.record hc hm (h.confirmed _ List.mem_cons_self)

theorem Coherent.ascend (h : w.Coherent excluded) {parent : Frame} {above : List Frame}
    (ha : w.above = parent :: above) : (w.ascend parent above ha).Coherent excluded := by
  have hk := Session.keeps_record w.session w.current.className w.current.unresolved
  have hpath := w.path_ascend parent above ha
  have hnodup := h.nodup
  rw [hpath] at hnodup
  constructor
  · exact h.record
  · intro n hn
    -- the class that is recorded is no longer on the path
    have hne : n ≠ w.current.className := fun he =>
      List.disjoint_of_nodup_append hnodup hn (List.mem_singleton.mpr he)
    have hmem : n ∈ w.path := hpath ▸ List.mem_append_left _ hn
    show (w.session.record _ _).cached? n = none ∧ (w.session.record _ _).isMissing n = false
    rw [Session.cached?_record_ne _ hne, Session.isMissing_record]
    exact h.unsaid n hmem
  · exact hnodup.of_append_left
  · intro f hf
    have hw : ∀ f ∈ w.current :: parent :: above, w.session.Confirms excluded f.unresolved :=
      ha ▸ h.confirmed
    rcases List.mem_cons.mp hf with rfl | hf
    · have hparent := hw parent (by simp)
      exact (hparent.union (hw w.current (by simp))).keeps hk
    · have hmem : f ∈ parent :: above := List.mem_cons_of_mem _ hf
      exact (hw f (List.mem_cons_of_mem _ hmem)).keeps hk

end Walk

section Moves

variable {w v : Walk r.maxDepth}

theorem Move.keeps (h : Move r w (.inl v)) : w.session.Keeps v.session := by
  cases h with
  | ascend => exact Session.keeps_record _ _ _
  | skip => exact .refl _
  | join => exact .refl _
  | miss _ _ _ _ hs => exact Session.keeps_consult hs
  | descend _ _ _ _ hs => exact Session.keeps_consult hs

theorem Move.root_eq (h : Move r w (.inl v)) : v.root = w.root := by
  cases h with
  | ascend _ ha => exact w.root_ascend _ _ ha
  | skip => exact w.root_follow _ _ _ _
  | join => exact w.root_follow _ _ _ _
  | miss => exact w.root_follow _ _ _ _
  | descend _ _ _ _ _ hd => exact w.root_descend _ _ _ _ _ hd

theorem Walk.Coherent.move (hw : w.Coherent r.excluded) (h : Move r w (.inl v)) :
    v.Coherent r.excluded := by
  cases h with
  | ascend _ ha => exact hw.ascend ha
  | skip => exact hw.follow (.refl _) hw.session hw.unsaid (hw.confirmed _ List.mem_cons_self) _ _
  | join _ _ hc =>
    have hu := hw.confirmed _ List.mem_cons_self
    exact hw.follow (.refl _) hw.session hw.unsaid (hu.union (hw.session.confirmed _ _ hc)) _ _
  | miss _ he hc hv hs =>
    have hk := Session.keeps_consult hs
    have hu := (hw.confirmed _ List.mem_cons_self).keeps hk
    exact hw.follow hk (hw.session.consult hc hs) (hw.unsaid_consult hv hs)
      (hu.insert (Session.isMissing_consult hs) he) _ _
  | descend _ _ hc hv hs hd => exact hw.descend hc hv hs _ hd

structure Session.Leaves (excluded : ClassName → Bool) (s : Session) (root : ClassName)
    (outcome : Except WalkError NameSet) (s' : Session) : Prop where
  coherent : s'.Coherent excluded
  keeps : s.Keeps s'
  memoised : ∀ u, outcome = .ok u → s'.cached? root = some u
  unmemoised : ∀ e, outcome = .error e → s'.cached? root = none

theorem Walk.Coherent.finish (hw : w.Coherent r.excluded) (h : Move r w (.inr f)) :
    w.session.Leaves r.excluded w.root f.outcome f.session := by
  have hroot := (hw.unsaid _ w.root_mem_path).1
  cases h with
  | finish _ ha =>
    have hcurrent : w.root = w.current.className := by simp [Walk.root, ha]
    refine ⟨hw.record, Session.keeps_record _ _ _, fun u hu => ?_, fun e he => by cases he⟩
    cases hu
    rw [hcurrent] at hroot ⊢
    exact Session.cached?_record_self hroot
  | cycle => exact ⟨hw.session, .refl _, fun u hu => (by cases hu), fun _ _ => hroot⟩
  | @tooDeep t rest d s' notes _ _ hc _ hs =>
    have hroot' : s'.cached? w.root = none := by rwa [Session.cached?_consult hs]
    exact ⟨hw.session.consult hc hs, Session.keeps_consult hs, fun u hu => (by cases hu),
      fun _ _ => hroot'⟩

end Moves

def Rules.over (r : Rules) (find : ClassName → Option ClassDescriptor) (resolver : String) :
    Rules :=
  { r with find := find, resolver := resolver }

/-- The walk that a request makes comes by a state. The resolver may answer each step in its own
way. -/
inductive Passes (r : Rules) (s : Session) (root : ClassName) : Walk r.maxDepth → Prop where
  | start {d : ClassDescriptor} {s' : Session} {notes : List Note} (hc : s.cached? root = none)
    (hs : s.consult r.find root = (some d, s', notes)) :
    Passes r s root (Walk.start r s' root d notes)
  | next {w v : Walk r.maxDepth} (find : ClassName → Option ClassDescriptor) (resolver : String)
    (h : Passes r s root w) (hv : step (r.over find resolver) w = .inl v) : Passes r s root v

theorem Passes.coherent {w : Walk r.maxDepth} (h : Passes r s root w)
    (hs : s.Coherent r.excluded) :
    w.Coherent r.excluded ∧ s.Keeps w.session ∧ w.root = root := by
  induction h with
  | @start d s' notes hc hd =>
    refine ⟨⟨hs.consult hc hd, fun n hn => ?_, List.nodup_singleton root, fun f hf => ?_⟩,
      Session.keeps_consult hd, rfl⟩
    · obtain ⟨hm, -, rfl, -⟩ := Session.consult_some hd
      rw [List.mem_singleton.mp hn]
      exact ⟨hc, hm⟩
    · rw [List.mem_singleton.mp hf]
      exact .empty _ _
  | @next w v find resolver _ hv ih =>
    obtain ⟨hw, hk, hroot⟩ := ih
    have hm := move_step (r.over find resolver) w
    rw [hv] at hm
    exact ⟨Walk.Coherent.move (r := r.over find resolver) hw hm, hk.trans hm.keeps,
      hm.root_eq.trans hroot⟩

theorem Passes.leaves {w : Walk r.maxDepth} (h : Passes r s root w) (hs : s.Coherent r.excluded)
    (resolver : String) (hf : step (r.over find resolver) w = .inr f) :
    s.Leaves r.excluded root f.outcome f.session := by
  obtain ⟨hw, hk, hroot⟩ := h.coherent hs
  have hm := move_step (r.over find resolver) w
  rw [hf] at hm
  have hl : w.session.Leaves r.excluded w.root f.outcome f.session :=
    Walk.Coherent.finish (r := r.over find resolver) hw hm
  rw [hroot] at hl
  exact ⟨hl.coherent, hk.trans hl.keeps, hl.memoised, hl.unmemoised⟩

theorem Passes.exists_last {w : Walk r.maxDepth} (h : Passes r s root w) :
    ∃ v, Passes r s root v ∧ step r v = .inr (run r w) := by
  fun_induction run r w with
  | case1 w v hv ih => exact ih (.next r.find r.resolver h hv)
  | case2 w f hf => exact ⟨w, h, hf⟩

theorem collect_leaves (hs : s.Coherent r.excluded) (c : ClassName) :
    s.Leaves r.excluded c (collect r s c).outcome (collect r s c).session := by
  cases hc : s.cached? c with
  | some known =>
    rw [collect_cached hc]
    exact ⟨hs, .refl s, fun u hu => (by cases hu; exact hc), fun e he => by cases he⟩
  | none =>
    rcases hd : s.consult r.find c with ⟨found, s', notes⟩
    cases found with
    | none =>
      have hc' : s'.cached? c = none := by rwa [Session.cached?_consult hd]
      rw [collect_notFound hc hd]
      exact ⟨hs.consult hc hd, Session.keeps_consult hd, fun u hu => (by cases hu), fun _ _ => hc'⟩
    | some d =>
      obtain ⟨v, hv, hf⟩ := (Passes.start hc hd).exists_last
      have hl := hv.leaves hs r.resolver hf
      simp only [collect, hc, hd]
      exact ⟨hl.coherent, hl.keeps, hl.memoised, hl.unmemoised⟩

structure Request where
  find : ClassName → Option ClassDescriptor
  resolver : String
  root : ClassName

namespace Rules

def serve (r : Rules) (s : Session) (q : Request) : Collection :=
  collect (r.over q.find q.resolver) s q.root

def served (r : Rules) (s : Session) (qs : List Request) : Session :=
  qs.foldl (fun s q => (r.serve s q).session) s

end Rules

theorem Session.Coherent.served (hs : s.Coherent r.excluded) (qs : List Request) :
    (r.served s qs).Coherent r.excluded := by
  induction qs generalizing s with
  | nil => exact hs
  | cons q qs ih => exact ih (collect_leaves (r := r.over q.find q.resolver) hs q.root).coherent

/-- However the resolver changes from request to request: a request takes back nothing of what the
session said before, and leaves a session that does not contradict itself, with an entry for its
class exactly if it is answered, and no memoised class in any entry. The class that a walk is at,
which is the one that a step may record, never has an entry yet. The walk may end no otherwise if
the resolver changes under it. -/
theorem serve_final (r : Rules) (earlier : List Request) (q : Request) :
    let s := r.served {} earlier
    let v := r.serve s q
    s.Leaves r.excluded q.root v.outcome v.session ∧
    (∀ n u, v.session.cached? n = some u → ∀ t ∈ u, v.session.cached? t = none) ∧
    ∀ w, Passes (r.over q.find q.resolver) s q.root w →
      w.session.cached? w.current.className = none ∧
      ∀ find resolver f, step (r.over find resolver) w = .inr f →
        s.Leaves r.excluded q.root f.outcome f.session := by
  intro s v
  have hs : s.Coherent r.excluded := (Session.Coherent.empty r.excluded).served earlier
  have hl : s.Leaves r.excluded q.root v.outcome v.session :=
    collect_leaves (r := r.over q.find q.resolver) hs q.root
  refine ⟨hl, fun n u hn t ht => ?_, fun w hw => ⟨?_, fun find resolver f hf => ?_⟩⟩
  · have hm := (hl.coherent.confirmed n u hn t ht).1
    by_contra hc
    rw [hl.coherent.apart t hc] at hm
    cases hm
  · exact ((hw.coherent hs).1.unsaid _ w.current_mem_path).1
  · exact hw.leaves hs resolver hf

def early : Request where
  find n := if n = "A" then some ⟨"A", some "B", []⟩ else none
  resolver := "sample"
  root := "A"

/-- `B`, which was not found for `A`, stays missing for `C` when the resolver knows it. -/
theorem serve_final_late :
    (looped.serve (looped.served {} [early]) ⟨looped.find, "sample", "C"⟩).session.cached? "C" =
        some ((∅ : NameSet).insert "B") ∧
      (looped.serve (looped.served {} [early]) ⟨looped.find, "sample", "C"⟩).session.cached? "A" =
        some ((∅ : NameSet).insert "B") := by
  have hl := (serve_final looped [early] ⟨looped.find, "sample", "C"⟩).1
  have hA : (looped.served {} [early]).cached? "A" = some ((∅ : NameSet).insert "B") := by cbv
  have hC : (looped.serve (looped.served {} [early]) ⟨looped.find, "sample", "C"⟩).outcome =
      .ok ((∅ : NameSet).insert "B") := by cbv
  exact ⟨hl.memoised _ hC, hl.keeps.cached _ _ hA⟩

end Linkage.Ancestry
