import Linkage.Ancestry.Walk

namespace Linkage.Ancestry

/-- The moves of a walk, each with the state that asks for it and with what it leads to. -/
inductive Move (r : Rules) (w : Walk r.maxDepth) : Walk r.maxDepth ⊕ Finish → Prop where
  | finish (hp : w.current.pending = []) (ha : w.above = []) :
    Move r w (.inr ⟨.ok w.current.unresolved,
      w.session.record w.current.className w.current.unresolved, w.journal⟩)
  | ascend {parent : Frame} {above : List Frame} (hp : w.current.pending = [])
    (ha : w.above = parent :: above) : Move r w (.inl (w.ascend parent above ha))
  | skip {t : ClassName} {rest : List ClassName} (hp : w.current.pending = t :: rest)
    (he : r.excluded t = true) :
    Move r w (.inl (w.follow rest w.current.unresolved w.session
      [.excluded w.current.className t]))
  | join {t : ClassName} {rest : List ClassName} {known : NameSet}
    (hp : w.current.pending = t :: rest) (he : r.excluded t = false)
    (hc : w.session.cached? t = some known) :
    Move r w (.inl (w.follow rest (w.current.unresolved ∪ known) w.session []))
  | cycle {t : ClassName} {rest : List ClassName} (hp : w.current.pending = t :: rest)
    (he : r.excluded t = false) (hc : w.session.cached? t = none) (hv : t ∈ w.path) :
    Move r w (.inr ⟨.error (.cycle t (w.path ++ [t])), w.session,
      .cycle w.root (w.path ++ [t]) :: w.journal⟩)
  | miss {t : ClassName} {rest : List ClassName} {s : Session} {notes : List Note}
    (hp : w.current.pending = t :: rest) (he : r.excluded t = false)
    (hc : w.session.cached? t = none) (hv : t ∉ w.path)
    (hs : w.session.consult r.find t = (none, s, notes)) :
    Move r w (.inl (w.follow rest (w.current.unresolved.insert t) s
      (notes ++ [.unresolved w.current.className t])))
  | descend {t : ClassName} {rest : List ClassName} {d : ClassDescriptor} {s : Session}
    {notes : List Note} (hp : w.current.pending = t :: rest) (he : r.excluded t = false)
    (hc : w.session.cached? t = none) (hv : t ∉ w.path)
    (hs : w.session.consult r.find t = (some d, s, notes))
    (hd : w.above.length + 2 ≤ r.maxDepth) :
    Move r w (.inl (w.descend rest t d.ancestors s notes hd))
  | tooDeep {t : ClassName} {rest : List ClassName} {d : ClassDescriptor} {s : Session}
    {notes : List Note} (hp : w.current.pending = t :: rest) (he : r.excluded t = false)
    (hc : w.session.cached? t = none) (hv : t ∉ w.path)
    (hs : w.session.consult r.find t = (some d, s, notes))
    (hd : ¬ w.above.length + 2 ≤ r.maxDepth) :
    Move r w (.inr ⟨.error (.tooDeep w.root r.maxDepth), s, notes.reverse ++ w.journal⟩)

theorem move_step (r : Rules) (w : Walk r.maxDepth) : Move r w (step r w) := by
  unfold step
  split
  · next hp =>
    split
    · next ha => exact .finish hp ha
    · next ha => exact .ascend hp ha
  · next hp =>
    split
    · next he => exact .skip hp he
    · next he =>
      rw [Bool.not_eq_true] at he
      split
      · next hc => exact .join hp he hc
      · next hc =>
        split
        · next hv => exact .cycle hp he hc (Walk.visits_iff.mp hv)
        · next hv =>
          have hv' := fun h => hv (Walk.visits_iff.mpr h)
          split
          · next hs => exact .miss hp he hc hv' hs
          · next hs =>
            split
            · next hd => exact .descend hp he hc hv' hs hd
            · next hd => exact .tooDeep hp he hc hv' hs hd

theorem Move.step_eq {r : Rules} {w : Walk r.maxDepth} {x : Walk r.maxDepth ⊕ Finish}
    (h : Move r w x) : step r w = x := by
  cases h with
  | finish hp ha =>
    simp only [step, hp]
    split
    · rfl
    · next h => cases ha.symm.trans h
  | ascend hp ha =>
    simp only [step, hp]
    split
    · next h => cases ha.symm.trans h
    · next h =>
      cases ha.symm.trans h
      rfl
  | skip hp he => simp only [step, hp, he, ↓reduceIte]
  | join hp he hc => simp only [step, hp, he, hc, Bool.false_eq_true, ↓reduceIte]
  | cycle hp he hc hv =>
    simp only [step, hp, he, hc, Walk.visits_iff.mpr hv, Bool.false_eq_true, ↓reduceIte]
  | miss hp he hc hv hs =>
    have hv' : ¬ w.visits _ = true := fun h => hv (Walk.visits_iff.mp h)
    simp only [step, hp, he, hc, hv', hs, Bool.false_eq_true, ↓reduceIte]
  | descend hp he hc hv hs hd =>
    have hv' : ¬ w.visits _ = true := fun h => hv (Walk.visits_iff.mp h)
    simp only [step, hp, he, hc, hv', hs, hd, Bool.false_eq_true, ↓reduceIte, ↓reduceDIte]
  | tooDeep hp he hc hv hs hd =>
    have hv' : ¬ w.visits _ = true := fun h => hv (Walk.visits_iff.mp h)
    simp only [step, hp, he, hc, hv', hs, hd, Bool.false_eq_true, ↓reduceIte, ↓reduceDIte]

end Linkage.Ancestry
