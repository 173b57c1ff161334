import Linkage.Proofs.Ancestry.Move

namespace Linkage.Ancestry

namespace Collection

def prepend (notes : List Note) (v : Collection) : Collection :=
  { v with notes := notes ++ v.notes }

def andThen (v : Collection) (k : NameSet → Session → Collection) : Collection :=
  match v.outcome with
  | .error _ => v
  | .ok u => (k u v.session).prepend v.notes

theorem prepend_prepend (ns ms : List Note) (v : Collection) :
    (v.prepend ms).prepend ns = v.prepend (ns ++ ms) := by
  simp only [prepend, List.append_assoc]

theorem andThen_ok {v : Collection} {u : NameSet} (h : v.outcome = .ok u)
    (k : NameSet → Session → Collection) : v.andThen k = (k u v.session).prepend v.notes := by
  simp only [andThen, h]

theorem andThen_error {v : Collection} {e : WalkError} (h : v.outcome = .error e)
    (k : NameSet → Session → Collection) : v.andThen k = v := by
  simp only [andThen, h]

theorem andThen_prepend (ns : List Note) (v : Collection) (k : NameSet → Session → Collection) :
    (v.prepend ns).andThen k = (v.andThen k).prepend ns := by
  obtain ⟨outcome, s, ms⟩ := v
  cases outcome with
  | error e => rfl
  | ok u => exact (prepend_prepend ns ms (k u s)).symm

end Collection

/-- The recursive walk at a class with these edges left, where `above` leads from the root to the
parent of the class, and `u` is what the edges before gave. An edge to an excluded name is skipped,
a memoised class adds what is known of it, a class on the path is a cycle, a name that is not found
is unresolved, and any other class is walked in turn and adds what that gives. -/
def explore (r : Rules) (root : ClassName) (above : List ClassName) (c : ClassName)
    (edges : List ClassName) (u : NameSet) (s : Session) : Collection :=
  match edges with
  | [] => ⟨.ok u, s.record c u, []⟩
  | t :: rest =>
    if r.excluded t then
      (explore r root above c rest u s).prepend [.excluded c t]
    else match s.cached? t with
      | some known => explore r root above c rest (u ∪ known) s
      | none =>
        let path := above ++ [c]
        if t ∈ path then
          ⟨.error (.cycle t (path ++ [t])), s, [.cycle root (path ++ [t])]⟩
        else match s.consult r.find t with
          | (none, s, notes) =>
            (explore r root above c rest (u.insert t) s).prepend (notes ++ [.unresolved c t])
          | (some d, s, notes) =>
            if r.maxDepth ≤ path.length then
              ⟨.error (.tooDeep root r.maxDepth), s, notes⟩
            else
              ((explore r root path t d.ancestors ∅ s).andThen fun known s =>
                explore r root above c rest (u ∪ known) s).prepend notes
-- a call goes down a level, or leaves one edge less on the same level
termination_by (r.maxDepth - above.length, edges.length)
decreasing_by all_goals grind

def closing (before : Session) (root : ClassName) (u : NameSet) (after : Session) : Collection :=
  ⟨.ok u, after, [.collected root u.size (after.lookups - before.lookups)]⟩

section Edges

variable {r : Rules} {root c t : ClassName} {above rest : List ClassName} {u : NameSet}
  {s s' : Session} {notes : List Note}

theorem explore_nil : explore r root above c [] u s = ⟨.ok u, s.record c u, []⟩ := by
  rw [explore]

theorem explore_skip (he : r.excluded t = true) :
    explore r root above c (t :: rest) u s =
      (explore r root above c rest u s).prepend [.excluded c t] := by
  rw [explore, if_pos he]

theorem explore_join {known : NameSet} (he : r.excluded t = false)
    (hc : s.cached? t = some known) :
    explore r root above c (t :: rest) u s = explore r root above c rest (u ∪ known) s := by
  rw [explore]
  simp only [he, hc, Bool.false_eq_true, ↓reduceIte]

theorem explore_cycle (he : r.excluded t = false) (hc : s.cached? t = none)
    (hv : t ∈ above ++ [c]) :
    explore r root above c (t :: rest) u s =
      ⟨.error (.cycle t (above ++ [c] ++ [t])), s, [.cycle root (above ++ [c] ++ [t])]⟩ := by
  rw [explore]
  simp only [he, hc, hv, Bool.false_eq_true, ↓reduceIte]

theorem explore_miss (he : r.excluded t = false) (hc : s.cached? t = none)
    (hv : t ∉ above ++ [c]) (hs : s.consult r.find t = (none, s', notes)) :
    explore r root above c (t :: rest) u s =
      (explore r root above c rest (u.insert t) s').prepend (notes ++ [.unresolved c t]) := by
  rw [explore]
  simp only [he, hc, hv, hs, Bool.false_eq_true, ↓reduceIte]

theorem explore_tooDeep {d : ClassDescriptor} (he : r.excluded t = false)
    (hc : s.cached? t = none) (hv : t ∉ above ++ [c])
    (hs : s.consult r.find t = (some d, s', notes)) (hd : r.maxDepth ≤ (above ++ [c]).length) :
    explore r root above c (t :: rest) u s =
      ⟨.error (.tooDeep root r.maxDepth), s', notes⟩ := by
  rw [explore]
  simp only [he, hc, hv, hs, hd, Bool.false_eq_true, ↓reduceIte]

theorem explore_descend {d : ClassDescriptor} (he : r.excluded t = false)
    (hc : s.cached? t = none) (hv : t ∉ above ++ [c])
    (hs : s.consult r.find t = (some d, s', notes)) (hd : ¬ r.maxDepth ≤ (above ++ [c]).length) :
    explore r root above c (t :: rest) u s =
      ((explore r root (above ++ [c]) t d.ancestors ∅ s').andThen fun known s =>
        explore r root above c rest (u ∪ known) s).prepend notes := by
  rw [explore]
  simp only [he, hc, hv, hs, hd, Bool.false_eq_true, ↓reduceIte]

end Edges

/-- How the recursive walk comes to its result, with a rule for each thing that an edge can be. -/
inductive Explores (r : Rules) (root : ClassName) : List ClassName → ClassName →
    List ClassName → NameSet → Session → Collection → Prop where
  | nil {above : List ClassName} {c : ClassName} {u : NameSet} {s : Session} :
    Explores r root above c [] u s ⟨.ok u, s.record c u, []⟩
  | skip {above rest : List ClassName} {c t : ClassName} {u : NameSet} {s : Session}
    {v : Collection} (he : r.excluded t = true) (h : Explores r root above c rest u s v) :
    Explores r root above c (t :: rest) u s (v.prepend [.excluded c t])
  | join {above rest : List ClassName} {c t : ClassName} {u known : NameSet} {s : Session}
    {v : Collection} (he : r.excluded t = false) (hc : s.cached? t = some known)
    (h : Explores r root above c rest (u ∪ known) s v) :
    Explores r root above c (t :: rest) u s v
  | cycle {above rest : List ClassName} {c t : ClassName} {u : NameSet} {s : Session}
    (he : r.excluded t = false) (hc : s.cached? t = none) (hv : t ∈ above ++ [c]) :
    Explores r root above c (t :: rest) u s
      ⟨.error (.cycle t (above ++ [c] ++ [t])), s, [.cycle root (above ++ [c] ++ [t])]⟩
  | miss {above rest : List ClassName} {c t : ClassName} {u : NameSet} {s s' : Session}
    {notes : List Note} {v : Collection} (he : r.excluded t = false) (hc : s.cached? t = none)
    (hv : t ∉ above ++ [c]) (hs : s.consult r.find t = (none, s', notes))
    (h : Explores r root above c rest (u.insert t) s' v) :
    Explores r root above c (t :: rest) u s (v.prepend (notes ++ [.unresolved c t]))
  | tooDeep {above rest : List ClassName} {c t : ClassName} {u : NameSet} {s s' : Session}
    {d : ClassDescriptor} {notes : List Note} (he : r.excluded t = false)
    (hc : s.cached? t = none) (hv : t ∉ above ++ [c])
    (hs : s.consult r.find t = (some d, s', notes)) (hd : r.maxDepth ≤ (above ++ [c]).length) :
    Explores r root above c (t :: rest) u s ⟨.error (.tooDeep root r.maxDepth), s', notes⟩
  | fail {above rest : List ClassName} {c t : ClassName} {u : NameSet} {s s' s'' : Session}
    {d : ClassDescriptor} {e : WalkError} {notes below : List Note}
    (he : r.excluded t = false) (hc : s.cached? t = none) (hv : t ∉ above ++ [c])
    (hs : s.consult r.find t = (some d, s', notes)) (hd : (above ++ [c]).length < r.maxDepth)
    (hb : Explores r root (above ++ [c]) t d.ancestors ∅ s' ⟨.error e, s'', below⟩) :
    Explores r root above c (t :: rest) u s ⟨.error e, s'', notes ++ below⟩
  | descend {above rest : List ClassName} {c t : ClassName} {u known : NameSet}
    {s s' s'' : Session} {d : ClassDescriptor} {notes below : List Note} {v : Collection}
    (he : r.excluded t = false) (hc : s.cached? t = none) (hv : t ∉ above ++ [c])
    (hs : s.consult r.find t = (some d, s', notes)) (hd : (above ++ [c]).length < r.maxDepth)
    (hb : Explores r root (above ++ [c]) t d.ancestors ∅ s' ⟨.ok known, s'', below⟩)
    (h : Explores r root above c rest (u ∪ known) s'' v) :
    Explores r root above c (t :: rest) u s (v.prepend (notes ++ below))

theorem explores_explore (r : Rules) (root : ClassName) (above : List ClassName) (c : ClassName)
    (edges : List ClassName) (u : NameSet) (s : Session) :
    Explores r root above c edges u s (explore r root above c edges u s) := by
  fun_induction explore r root above c edges u s with
  | case1 => exact .nil
  | case2 _ _ _ _ _ _ he ih => exact .skip he ih
  | case3 _ _ _ _ _ _ he _ hc ih => exact .join (by simpa using he) hc ih
  | case4 _ _ _ _ _ _ he hc _ hv => exact .cycle (by simpa using he) hc hv
  | case5 _ _ _ _ _ _ he hc _ hv _ _ hs ih => exact .miss (by simpa using he) hc hv hs ih
  | case6 _ _ _ _ _ _ he hc _ hv _ _ _ hs hd => exact .tooDeep (by simpa using he) hc hv hs hd
  | case7 above c u s t rest he hc path hv d s' notes hs hd ihb ih =>
    have he' : r.excluded t = false := by simpa using he
    generalize explore r root path t d.ancestors ∅ s' = v at ihb
    obtain ⟨outcome, s'', below⟩ := v
    cases outcome with
    | error e => exact .fail he' hc hv hs (Nat.lt_of_not_le hd) ihb
    | ok known =>
      rw [Collection.andThen_ok rfl, Collection.prepend_prepend]
      exact .descend he' hc hv hs (Nat.lt_of_not_le hd) ihb (ih known s'')

def Finish.collection (f : Finish) : Collection :=
  ⟨f.outcome, f.session, f.journal.reverse⟩

def lineage (above : List Frame) : List ClassName :=
  above.reverse.map (·.className)

theorem lineage_cons (f : Frame) (above : List Frame) :
    lineage (f :: above) = lineage above ++ [f.className] := by
  simp only [lineage, List.reverse_cons, List.map_append, List.map_cons, List.map_nil]

/-- Return the result of a class through the frames above it: each of them adds the set to its own
and follows the rest of its edges. -/
def resume (r : Rules) (root : ClassName) : List Frame → Collection → Collection
  | [], v => v
  | f :: above, v =>
    resume r root above (v.andThen fun known s =>
      explore r root (lineage above) f.className f.pending (f.unresolved ∪ known) s)

theorem resume_of_error (r : Rules) (root : ClassName) (above : List Frame) {v : Collection}
    {e : WalkError} (h : v.outcome = .error e) : resume r root above v = v := by
  induction above with
  | nil => rfl
  | cons f above ih => rw [resume, Collection.andThen_error h, ih]

namespace Walk

variable {r : Rules}

def focus (w : Walk r.maxDepth) : Collection :=
  (explore r w.root (lineage w.above) w.current.className w.current.pending w.current.unresolved
    w.session).prepend w.journal.reverse

def recursively (w : Walk r.maxDepth) : Collection :=
  resume r w.root w.above w.focus

theorem path_eq (w : Walk r.maxDepth) : w.path = lineage w.above ++ [w.current.className] := by
  simp only [path, lineage, List.reverse_cons, List.map_append, List.map_cons, List.map_nil]

theorem path_length (w : Walk r.maxDepth) : w.path.length = w.above.length + 1 := by
  simp only [path, List.length_map, List.length_reverse, List.length_cons]

theorem root_follow (w : Walk r.maxDepth) (pending : List ClassName) (u : NameSet) (s : Session)
    (notes : List Note) : (w.follow pending u s notes).root = w.root := by
  simp only [root, follow]
  cases w.above.getLast? <;> rfl

theorem root_descend (w : Walk r.maxDepth) (pending : List ClassName) (c : ClassName)
    (edges : List ClassName) (s : Session) (notes : List Note)
    (h : w.above.length + 2 ≤ r.maxDepth) :
    (w.descend pending c edges s notes h).root = w.root := by
  simp only [root, descend, List.getLast?_cons, Option.getD_some]
  cases w.above.getLast? <;> rfl

theorem root_ascend (w : Walk r.maxDepth) (parent : Frame) (above : List Frame)
    (h : w.above = parent :: above) : (w.ascend parent above h).root = w.root := by
  simp only [root, ascend, h, List.getLast?_cons, Option.getD_some]
  cases above.getLast? <;> rfl

theorem focus_follow (w : Walk r.maxDepth) (pending : List ClassName) (u : NameSet)
    (s : Session) (notes : List Note) :
    (w.follow pending u s notes).focus =
      ((explore r w.root (lineage w.above) w.current.className pending u s).prepend
        notes).prepend w.journal.reverse := by
  rw [focus, root_follow, Collection.prepend_prepend]
  simp only [follow, List.reverse_append, List.reverse_reverse]

theorem focus_descend (w : Walk r.maxDepth) (pending : List ClassName) (c : ClassName)
    (edges : List ClassName) (s : Session) (notes : List Note)
    (h : w.above.length + 2 ≤ r.maxDepth) :
    (w.descend pending c edges s notes h).focus =
      ((explore r w.root w.path c edges ∅ s).prepend notes).prepend w.journal.reverse := by
  rw [focus, root_descend, Collection.prepend_prepend]
  simp only [descend, lineage_cons, path_eq, List.reverse_append, List.reverse_reverse]

theorem focus_finish (w : Walk r.maxDepth) (h : w.current.pending = []) :
    w.focus = ⟨.ok w.current.unresolved,
      w.session.record w.current.className w.current.unresolved, w.journal.reverse⟩ := by
  simp only [focus, h, explore_nil, Collection.prepend, List.append_nil]

theorem recursively_ascend (w : Walk r.maxDepth) (parent : Frame) (above : List Frame)
    (h : w.above = parent :: above) (hp : w.current.pending = []) :
    (w.ascend parent above h).recursively = w.recursively := by
  simp only [recursively, root_ascend]
  rw [h, focus_finish w hp, focus, root_ascend]
  rfl

theorem recursively_follow (w : Walk r.maxDepth) {t : ClassName} {rest : List ClassName}
    (hp : w.current.pending = t :: rest) {u : NameSet} {s : Session} {notes : List Note}
    (h : explore r w.root (lineage w.above) w.current.className (t :: rest) w.current.unresolved
        w.session =
      (explore r w.root (lineage w.above) w.current.className rest u s).prepend notes) :
    (w.follow rest u s notes).recursively = w.recursively := by
  rw [recursively, root_follow, focus_follow, recursively, focus, hp, h]
  rfl

theorem recursively_descend (w : Walk r.maxDepth) {t : ClassName} {rest : List ClassName}
    (hp : w.current.pending = t :: rest) {d : ClassDescriptor} {s : Session} {notes : List Note}
    (hd : w.above.length + 2 ≤ r.maxDepth)
    (h : explore r w.root (lineage w.above) w.current.className (t :: rest) w.current.unresolved
        w.session =
      ((explore r w.root w.path t d.ancestors ∅ s).andThen fun known s =>
        explore r w.root (lineage w.above) w.current.className rest
          (w.current.unresolved ∪ known) s).prepend notes) :
    (w.descend rest t d.ancestors s notes hd).recursively = w.recursively := by
  rw [recursively, root_descend, focus_descend, recursively, focus, hp, h]
  simp only [descend, resume, Collection.andThen_prepend]

theorem recursively_error (w : Walk r.maxDepth) {t : ClassName} {rest : List ClassName}
    (hp : w.current.pending = t :: rest) {e : WalkError} {s : Session} {notes : List Note}
    (h : explore r w.root (lineage w.above) w.current.className (t :: rest) w.current.unresolved
      w.session = ⟨.error e, s, notes⟩) :
    w.recursively = ⟨.error e, s, w.journal.reverse ++ notes⟩ := by
  have hf : w.focus = ⟨.error e, s, w.journal.reverse ++ notes⟩ := by
    rw [focus, hp, h, Collection.prepend]
  have he : w.focus.outcome = .error e := congrArg Collection.outcome hf
  rw [recursively, resume_of_error r w.root w.above he, hf]

/-- A step leaves alone what the recursive walk gives, down to the notes and up to the end. -/
theorem recursively_step (w : Walk r.maxDepth) :
    (match step r w with
      | .inl v => v.recursively
      | .inr f => f.collection) = w.recursively := by
  have hm := move_step r w
  have hpath := w.path_eq
  have hlen := w.path_length
  generalize step r w = x at hm
  cases hm with
  | finish hp ha =>
    rw [recursively, ha, focus_finish w hp]
    rfl
  | ascend hp ha => exact w.recursively_ascend _ _ ha hp
  | skip hp he => exact w.recursively_follow hp (explore_skip he)
  | join hp he hc => exact w.recursively_follow hp (explore_join he hc)
  | miss hp he hc hv hs => exact w.recursively_follow hp (explore_miss he hc (hpath ▸ hv) hs)
  | descend hp he hc hv hs hd =>
    refine w.recursively_descend hp hd ?_
    rw [hpath] at hv hlen ⊢
    exact explore_descend he hc hv hs (by omega)
  | cycle hp he hc hv =>
    rw [hpath] at hv ⊢
    rw [w.recursively_error hp (explore_cycle he hc hv)]
    simp only [Finish.collection, List.reverse_cons]
  | tooDeep hp he hc hv hs hd =>
    rw [hpath] at hv hlen
    rw [w.recursively_error hp (explore_tooDeep he hc hv hs (by omega))]
    simp only [Finish.collection, List.reverse_append, List.reverse_reverse]

end Walk

theorem collection_run (r : Rules) (w : Walk r.maxDepth) :
    (run r w).collection = w.recursively := by
  fun_induction run r w with
  | case1 w v h ih =>
    have hs := w.recursively_step
    rw [h] at hs
    rw [ih, ← hs]
  | case2 w f h =>
    have hs := w.recursively_step
    rw [h] at hs
    exact hs

theorem collection_start (r : Rules) (session : Session) (root : ClassName) (c : ClassDescriptor)
    (notes : List Note) :
    (run r (Walk.start r session root c notes)).collection =
      (explore r root [] root c.ancestors ∅ session).prepend notes := by
  rw [collection_run]
  simp only [Walk.recursively, Walk.focus, Walk.start, Walk.root, resume, lineage,
    List.reverse_reverse, List.getLast?_nil, Option.getD_none, List.reverse_nil, List.map_nil]

section Requests

variable {r : Rules} {s s' : Session} {root : ClassName} {notes : List Note}

theorem collect_cached {known : NameSet} (hc : s.cached? root = some known) :
    collect r s root = ⟨.ok known, s, []⟩ := by
  simp only [collect, hc]

theorem collect_notFound (hc : s.cached? root = none)
    (hs : s.consult r.find root = (none, s', notes)) :
    collect r s root = ⟨.error (.notFound root r.resolver), s', notes⟩ := by
  simp only [collect, hc, hs]

theorem collect_found {d : ClassDescriptor} (hc : s.cached? root = none)
    (hs : s.consult r.find root = (some d, s', notes)) :
    collect r s root =
      ((explore r root [] root d.ancestors ∅ s').andThen (closing s' root)).prepend notes := by
  have h := collection_start r s' root d notes
  rw [← Collection.andThen_prepend, ← h]
  simp only [collect, hc, hs]
  cases hf : (run r (Walk.start r s' root d notes)).outcome with
  | error e => simp only [Finish.collection, Collection.andThen, hf, List.append_nil]
  | ok u => simp only [Finish.collection, Collection.andThen, hf, closing, Collection.prepend]

end Requests

inductive Answers (r : Rules) (s : Session) (root : ClassName) : Collection → Prop where
  | cached {known : NameSet} (hc : s.cached? root = some known) :
    Answers r s root ⟨.ok known, s, []⟩
  | notFound {s' : Session} {notes : List Note} (hc : s.cached? root = none)
    (hs : s.consult r.find root = (none, s', notes)) :
    Answers r s root ⟨.error (.notFound root r.resolver), s', notes⟩
  | failed {d : ClassDescriptor} {s' s'' : Session} {notes below : List Note} {e : WalkError}
    (hc : s.cached? root = none) (hs : s.consult r.find root = (some d, s', notes))
    (h : Explores r root [] root d.ancestors ∅ s' ⟨.error e, s'', below⟩) :
    Answers r s root ⟨.error e, s'', notes ++ below⟩
  | found {d : ClassDescriptor} {s' s'' : Session} {notes below : List Note} {u : NameSet}
    (hc : s.cached? root = none) (hs : s.consult r.find root = (some d, s', notes))
    (h : Explores r root [] root d.ancestors ∅ s' ⟨.ok u, s'', below⟩) :
    Answers r s root ⟨.ok u, s'',
      notes ++ (below ++ [.collected root u.size (s''.lookups - s'.lookups)])⟩

theorem answers_collect (r : Rules) (s : Session) (root : ClassName) :
    Answers r s root (collect r s root) := by
  cases hc : s.cached? root with
  | some known => exact collect_cached hc ▸ .cached hc
  | none =>
    rcases hs : s.consult r.find root with ⟨x, s', notes⟩
    cases x with
    | none => exact collect_notFound hc hs ▸ .notFound hc hs
    | some d =>
      have h := explores_explore r root [] root d.ancestors ∅ s'
      rw [collect_found hc hs]
      generalize explore r root [] root d.ancestors ∅ s' = v at h
      obtain ⟨outcome, s'', below⟩ := v
      cases outcome with
      | error e => exact .failed hc hs h
      | ok u => exact .found hc hs h

end Linkage.Ancestry
