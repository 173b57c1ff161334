import Linkage.Proofs.Ancestry.Steady

namespace Linkage.Ancestry

variable {r : Rules} {s : Session} {root : ClassName} {w v : Walk r.maxDepth} {f : Finish} {n : Nat}

/-- A walk after so many steps, each with a resolver of its own, or how it has ended by then. -/
def Walk.turns (r : Rules) : Nat → (Nat → ClassName → Option ClassDescriptor) →
    Walk r.maxDepth → Walk r.maxDepth ⊕ Finish
  | 0, _, w => .inl w
  | n + 1, finds, w =>
    match step (r.over (finds 0) r.resolver) w with
    | .inl v => Walk.turns r n (fun i => finds (i + 1)) v
    | .inr f => .inr f

theorem Move.nodup (h : Move r w (.inl v)) (hw : w.path.Nodup) : v.path.Nodup := by
  cases h with
  | ascend _ ha =>
    rw [w.path_ascend _ _ ha] at hw
    exact hw.of_append_left
  | skip | join | miss => rwa [w.path_follow]
  | descend _ _ _ hv =>
    rw [w.path_descend]
    exact hw.append (List.nodup_singleton _) (List.disjoint_singleton.mpr hv)

theorem Passes.nodup (h : Passes r s root w) : w.path.Nodup := by
  induction h with
  | start => exact List.nodup_singleton root
  | @next w v find resolver _ hv ih =>
    have hm := move_step (r.over find resolver) w
    rw [hv] at hm
    exact Move.nodup (r := r.over find resolver) hm ih

theorem turns_of_inl (finds : Nat → ClassName → Option ClassDescriptor)
    (h : step (r.over (finds 0) r.resolver) w = .inl v) (n : Nat) :
    w.turns r (n + 1) finds = v.turns r n fun i => finds (i + 1) := by
  rw [Walk.turns, h]

theorem turns_of_inr (finds : Nat → ClassName → Option ClassDescriptor)
    (h : step (r.over (finds 0) r.resolver) w = .inr f) (n : Nat) :
    w.turns r (n + 1) finds = .inr f := by
  rw [Walk.turns, h]

/-- Whoever answers a step, it leaves fewer edges at some level and as many at the levels above it,
and there are never more levels than the limit allows. -/
theorem exists_turns_eq_inr (w : Walk r.maxDepth)
    (finds : Nat → ClassName → Option ClassDescriptor) : ∃ n f, w.turns r n finds = .inr f := by
  induction WellFoundedRelation.wf.apply w generalizing finds with
  | intro w _ ih =>
    cases h : step (r.over (finds 0) r.resolver) w with
    | inl v =>
      have hlt : v.left < w.left := left_lt_of_step (r := r.over (finds 0) r.resolver) h
      -- the first resolver has answered this step, and the others answer those behind it
      obtain ⟨n, f, hf⟩ := ih v ⟨v.length_left_le, hlt⟩ fun i => finds (i + 1)
      exact ⟨n + 1, f, (turns_of_inl finds h n).trans hf⟩
    | inr f => exact ⟨1, f, turns_of_inr finds h 0⟩

theorem run_of_turns (h : w.turns r n (fun _ => r.find) = .inr f) : run r w = f := by
  induction n generalizing w with
  | zero => cases h
  | succ n ih =>
    cases hs : step r w with
    | inl v =>
      rw [turns_of_inl (fun _ => r.find) hs] at h
      rw [run_of_inl hs, ih h]
    | inr g =>
      rw [turns_of_inr (fun _ => r.find) hs] at h
      rw [run_of_inr hs]
      exact Sum.inr.inj h

/-- A walk comes to an end after finitely many steps, whatever the session holds, and whatever the
resolver answers at each step, be it about classes without number or otherwise than before. On its
way it holds no more classes than the limit allows, or one, and no class twice. What a request gives
is the end that its walk comes to. -/
theorem collect_ends (r : Rules) (s : Session) (root : ClassName) :
    (∀ w, Passes r s root w → (w.path.length ≤ max 1 r.maxDepth ∧ w.path.Nodup) ∧
      ∀ finds, ∃ n f, w.turns r n finds = .inr f) ∧
    ∀ d s' notes, s.cached? root = none → s.consult r.find root = (some d, s', notes) →
      ∀ n f, (Walk.start r s' root d notes).turns r n (fun _ => r.find) = .inr f →
        (collect r s root).EndsAs f := by
  refine ⟨fun w hw => ⟨⟨?_, hw.nodup⟩, exists_turns_eq_inr w⟩, fun d s' notes hc hs n f h => ?_⟩
  · rw [w.path_length]
    exact w.depth_le
  · rw [← run_of_turns h]
    exact collect_endsAs hc hs

def endless : Rules where
  find n := some ⟨n, some (n ++ "^"), []⟩
  resolver := "endless"
  excluded _ := false
  maxDepth := 3

def restless (i : Nat) (n : ClassName) : Option ClassDescriptor :=
  some ⟨n, none, (List.range i).map fun k => n ++ toString k⟩

theorem collect_ends_endless :
    (∃ n f, (Walk.start endless ({} : Session).countLookup "A" ⟨"A", some "A^", []⟩
      [.lookup "A"]).turns endless n restless = .inr f) ∧
    (collect endless {} "A").outcome = .error (.tooDeep "A" 3) := by
  have hs : ({} : Session).consult endless.find "A" =
      (some ⟨"A", some "A^", []⟩, ({} : Session).countLookup, [.lookup "A"]) := by rfl
  have h := collect_ends endless {} "A"
  refine ⟨(h.1 _ (.start rfl hs)).2 restless, ?_⟩
  have hturns : ∃ f, (Walk.start endless ({} : Session).countLookup "A" ⟨"A", some "A^", []⟩
      [.lookup "A"]).turns endless 3 (fun _ => endless.find) = .inr f ∧
      f.outcome = .error (.tooDeep "A" 3) := ⟨_, rfl, rfl⟩
  obtain ⟨f, hf, hout⟩ := hturns
  rw [(h.2 _ _ _ rfl hs 3 f hf).outcome, hout]

end Linkage.Ancestry
