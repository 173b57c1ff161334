import Linkage.Ancestry.Error
import Linkage.Ancestry.Rules

namespace Linkage.Ancestry

structure Frame where
  className : ClassName
  pending : List ClassName
  unresolved : NameSet := ∅

/-- A walk under way: the current class and those above it up to the root, nearest first. The journal
has the latest note first. -/
structure Walk (limit : Nat) where
  current : Frame
  above : List Frame
  session : Session
  journal : List Note
  depth_le : above.length + 1 ≤ max 1 limit

structure Finish where
  outcome : Except WalkError NameSet
  session : Session
  journal : List Note

namespace Walk

variable {limit : Nat}

def path (w : Walk limit) : List ClassName :=
  (w.current :: w.above).reverse.map (·.className)

def visits (w : Walk limit) (n : ClassName) : Bool :=
  (w.current :: w.above).any (·.className = n)

theorem visits_iff {w : Walk limit} {n : ClassName} : w.visits n = true ↔ n ∈ w.path := by
  simp only [visits, path, List.any_eq_true, decide_eq_true_eq, List.mem_map, List.mem_reverse]

def root (w : Walk limit) : ClassName :=
  (w.above.getLast?.getD w.current).className

/-- How many edges, and one for the frame itself, are left on each level below the root. The walk
goes on only to lists that come earlier in dictionary order. -/
def left (w : Walk limit) : List Nat :=
  (w.current :: w.above).reverse.map (·.pending.length + 1)

def follow (w : Walk limit) (pending : List ClassName) (unresolved : NameSet)
    (session : Session) (notes : List Note) : Walk limit :=
  { w with
    current := ⟨w.current.className, pending, unresolved⟩
    session := session
    journal := notes.reverse ++ w.journal }

def descend (w : Walk limit) (pending : List ClassName) (c : ClassName) (edges : List ClassName)
    (session : Session) (notes : List Note) (h : w.above.length + 2 ≤ limit) : Walk limit where
  current := { className := c, pending := edges }
  above := ⟨w.current.className, pending, w.current.unresolved⟩ :: w.above
  session := session
  journal := notes.reverse ++ w.journal
  depth_le := by simp only [List.length_cons]; omega

def ascend (w : Walk limit) (parent : Frame) (above : List Frame)
    (h : w.above = parent :: above) : Walk limit where
  current := { parent with unresolved := parent.unresolved ∪ w.current.unresolved }
  above := above
  session := w.session.record w.current.className w.current.unresolved
  journal := w.journal
  depth_le := by
    have := w.depth_le
    rw [h, List.length_cons] at this
    omega

end Walk

/-- One step: finish the current class, or look at its next edge. An edge to an excluded name is
skipped, a memoised class adds what is known of it, a class on the path is a cycle, a name that is
not found is unresolved, and any other class is gone down to. -/
def step (r : Rules) (w : Walk r.maxDepth) : Walk r.maxDepth ⊕ Finish :=
  match w.current.pending with
  | [] =>
    match h : w.above with
    | [] => .inr ⟨.ok w.current.unresolved,
        w.session.record w.current.className w.current.unresolved, w.journal⟩
    | parent :: above => .inl (w.ascend parent above h)
  | target :: rest =>
    if r.excluded target then
      .inl (w.follow rest w.current.unresolved w.session [.excluded w.current.className target])
    else match w.session.cached? target with
      | some known => .inl (w.follow rest (w.current.unresolved ∪ known) w.session [])
      | none =>
        if w.visits target then
          let path := w.path ++ [target]
          .inr ⟨.error (.cycle target path), w.session, .cycle w.root path :: w.journal⟩
        else match w.session.consult r.find target with
          | (none, session, notes) =>
            .inl (w.follow rest (w.current.unresolved.insert target) session
              (notes ++ [.unresolved w.current.className target]))
          | (some c, session, notes) =>
            if h : w.above.length + 2 ≤ r.maxDepth then
              .inl (w.descend rest target c.ancestors session notes h)
            else
              .inr ⟨.error (.tooDeep w.root r.maxDepth), session, notes.reverse ++ w.journal⟩

theorem acc_of_length_le (m : Nat) (l : List Nat) (h : l.length ≤ m) :
    Acc (fun a b : List Nat => a.length ≤ m ∧ a < b) l := by
  induction m generalizing l with
  | zero =>
    cases l with
    | nil => exact ⟨_, fun a h => absurd h.2 (List.not_lt_nil a)⟩
    | cons x xs => simp at h
  | succ m ih =>
    have hnil : Acc (fun a b : List Nat => a.length ≤ m + 1 ∧ a < b) [] :=
      ⟨_, fun a h => absurd h.2 (List.not_lt_nil a)⟩
    have hcons : ∀ x xs, xs.length ≤ m →
        Acc (fun a b : List Nat => a.length ≤ m + 1 ∧ a < b) (x :: xs) := by
      -- by the number in front, and for one number by what is behind it
      intro x
      induction x using Nat.strongRecOn with
      | ind x ihx =>
        intro xs hxs
        induction ih xs hxs with
        | intro xs _ ihxs =>
          refine ⟨_, fun a ha => ?_⟩
          cases a with
          | nil => exact hnil
          | cons y ys =>
            have hys : ys.length ≤ m := by simpa using ha.1
            rcases List.cons_lt_cons_iff.1 ha.2 with hlt | ⟨rfl, hlt⟩
            · exact ihx y hlt ys hys
            · exact ihxs ys ⟨hys, hlt⟩ hys
    cases l with
    | nil => exact hnil
    | cons x xs => exact hcons x xs (by simpa using h)

namespace Walk

variable {limit : Nat}

theorem length_left_le (w : Walk limit) : w.left.length ≤ max 1 limit := by
  simpa [left] using w.depth_le

instance : WellFoundedRelation (Walk limit) where
  rel v w := v.left.length ≤ max 1 limit ∧ v.left < w.left
  wf := ⟨fun w => InvImage.accessible left (acc_of_length_le (max 1 limit) w.left w.length_left_le)⟩

theorem left_follow_lt (w : Walk limit) {t : ClassName} {rest : List ClassName}
    (h : w.current.pending = t :: rest) (u : NameSet) (s : Session) (ns : List Note) :
    (w.follow rest u s ns).left < w.left := by
  simp only [left, follow, List.reverse_cons, List.map_append, List.map_cons, List.map_nil, h]
  exact List.append_left_lt (List.cons_lt_cons_iff.2 (Or.inl (Nat.lt_succ_self _)))

theorem left_descend_lt (w : Walk limit) {t : ClassName} {rest : List ClassName}
    (h : w.current.pending = t :: rest) (c : ClassName) (edges : List ClassName)
    (s : Session) (ns : List Note) (hd : w.above.length + 2 ≤ limit) :
    (w.descend rest c edges s ns hd).left < w.left := by
  simp only [left, descend, List.reverse_cons, List.map_append, List.map_cons, List.map_nil, h,
    List.append_assoc]
  exact List.append_left_lt (List.cons_lt_cons_iff.2 (Or.inl (Nat.lt_succ_self _)))

theorem left_ascend_lt (w : Walk limit) (parent : Frame) (above : List Frame)
    (h : w.above = parent :: above) : (w.ascend parent above h).left < w.left := by
  simp only [left, ascend, h, List.reverse_cons, List.map_append, List.map_cons, List.map_nil,
    List.append_assoc]
  apply List.append_left_lt
  simp

end Walk

theorem left_lt_of_step {r : Rules} {v w : Walk r.maxDepth} (h : step r w = .inl v) :
    v.left < w.left := by
  unfold step at h
  split at h
  · split at h
    · simp at h
    · simp only [Sum.inl.injEq] at h
      exact h ▸ w.left_ascend_lt _ _ _
  · next target rest hp =>
    split at h
    · simp only [Sum.inl.injEq] at h
      exact h ▸ w.left_follow_lt hp _ _ _
    · split at h
      · simp only [Sum.inl.injEq] at h
        exact h ▸ w.left_follow_lt hp _ _ _
      · split at h
        · simp at h
        · split at h
          · simp only [Sum.inl.injEq] at h
            exact h ▸ w.left_follow_lt hp _ _ _
          · split at h
            · simp only [Sum.inl.injEq] at h
              exact h ▸ w.left_descend_lt hp _ _ _ _ _
            · simp at h

def run (r : Rules) (w : Walk r.maxDepth) : Finish :=
  match _h : step r w with
  | .inl v => run r v
  | .inr f => f
termination_by w
decreasing_by exact ⟨v.length_left_le, left_lt_of_step _h⟩

structure Collection where
  outcome : Except WalkError NameSet
  session : Session
  notes : List Note

def Walk.start (r : Rules) (session : Session) (root : ClassName) (c : ClassDescriptor)
    (notes : List Note) : Walk r.maxDepth where
  current := { className := root, pending := c.ancestors }
  above := []
  session := session
  journal := notes.reverse
  depth_le := by simp only [List.length_nil]; omega

/-- The ancestors of a class, over superclasses and interfaces, that are not excluded and that the
resolver does not find. What a failed walk finished before stays in the session. -/
def collect (r : Rules) (session : Session) (root : ClassName) : Collection :=
  match session.cached? root with
  | some known => ⟨.ok known, session, []⟩
  | none =>
    match session.consult r.find root with
    | (none, session, notes) => ⟨.error (.notFound root r.resolver), session, notes⟩
    | (some c, session, notes) =>
      let finish := run r (Walk.start r session root c notes)
      let closing := match finish.outcome with
        | .ok unresolved =>
          [.collected root unresolved.size (finish.session.lookups - session.lookups)]
        | .error _ => []
      ⟨finish.outcome, finish.session, finish.journal.reverse ++ closing⟩

end Linkage.Ancestry
