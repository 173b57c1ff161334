import Linkage.Proofs.Ancestry.Hierarchy
import Linkage.Proofs.Ancestry.Recursion

namespace Linkage.Ancestry

variable {r : Rules} {root c n t : ClassName} {above edges : List ClassName} {u k : NameSet}
  {s s' s'' : Session} {v : Collection} {d : ClassDescriptor} {notes : List Note}

namespace Session

def Within (s s' : Session) : Prop :=
  ∀ n, s.cached? n ≠ none → s'.cached? n ≠ none

theorem Within.refl (s : Session) : s.Within s := fun _ h => h

theorem Within.trans (h : s.Within s') (h' : s'.Within s'') : s.Within s'' :=
  fun n hn => h' n (h n hn)

theorem within_empty (s : Session) : Session.Within {} s := fun _ h => absurd rfl h

theorem within_record (s : Session) (c : ClassName) (u : NameSet) : s.Within (s.record c u) :=
  fun _ h => cached?_record_ne_none.mpr (.inr h)

theorem Within.record (h : s.Within s') (c : ClassName) (u k : NameSet) :
    (s.record c u).Within (s'.record c k) := by
  intro n hn
  rcases cached?_record_ne_none.mp hn with rfl | hn
  · exact cached?_record_ne_none.mpr (.inl rfl)
  · exact cached?_record_ne_none.mpr (.inr (h n hn))

theorem cached?_consult {find : ClassName → Option ClassDescriptor} {x : Option ClassDescriptor}
    (h : s.consult find n = (x, s', notes)) (m : ClassName) : s'.cached? m = s.cached? m := by
  cases x with
  | none =>
    rcases consult_none h with ⟨-, rfl, -⟩ | ⟨-, -, rfl, -⟩
    · rfl
    · simp
  | some d =>
    obtain ⟨-, -, rfl, -⟩ := consult_some h
    rfl

theorem within_consult {find : ClassName → Option ClassDescriptor} {x : Option ClassDescriptor}
    (h : s.consult find n = (x, s', notes)) : s.Within s' := by
  intro m hm
  rwa [cached?_consult h]

theorem Within.consult {find : ClassName → Option ClassDescriptor} {x y : Option ClassDescriptor}
    {s₁ s₂ : Session} {notes' : List Note} (hw : s.Within s')
    (h : s.consult find n = (x, s₁, notes)) (h' : s'.consult find n = (y, s₂, notes')) :
    s₁.Within s₂ := by
  intro m hm
  rw [cached?_consult h] at hm
  rw [cached?_consult h']
  exact hw m hm

/-- Of these edges, each one that a walk may follow to a found class leads to a memoised class. -/
def Covers (r : Rules) (s : Session) (edges : List ClassName) : Prop :=
  ∀ e ∈ edges, r.excluded e = false → r.find e = none ∨ s.cached? e ≠ none

theorem Covers.nil : s.Covers r [] := fun _ he => absurd he List.not_mem_nil

theorem Covers.snoc (h : s.Covers r edges)
    (ht : r.excluded t = false → r.find t = none ∨ s.cached? t ≠ none) :
    s.Covers r (edges ++ [t]) := by
  intro e he hx
  cases List.mem_append.mp he with
  | inl he => exact h e he hx
  | inr he =>
    rw [List.mem_singleton] at he
    subst he
    exact ht hx

theorem Covers.within (h : s.Covers r edges) (hw : s.Within s') : s'.Covers r edges :=
  fun e he hx => (h e he hx).imp_right (hw e)

end Session

theorem Explores.within (h : Explores r root above c edges u s v) : s.Within v.session := by
  induction h with
  | nil => exact Session.within_record _ _ _
  | skip _ _ ih => exact ih
  | join _ _ _ ih => exact ih
  | cycle => exact .refl _
  | miss _ _ _ hs _ ih => exact (Session.within_consult hs).trans ih
  | tooDeep _ _ _ hs _ => exact Session.within_consult hs
  | fail _ _ _ hs _ _ ih => exact (Session.within_consult hs).trans ih
  | descend _ _ _ hs _ _ _ ihb ih => exact ((Session.within_consult hs).trans ihb).trans ih

/-- A class whose edges have all been followed is memoised. -/
theorem Explores.memoised (h : Explores r root above c edges u s v) (hv : v.outcome = .ok k) :
    v.session.cached? c ≠ none := by
  induction h with
  | nil => exact Session.cached?_record_ne_none.mpr (.inl rfl)
  | skip _ _ ih => exact ih hv
  | join _ _ _ ih => exact ih hv
  | miss _ _ _ _ _ ih => exact ih hv
  | descend _ _ _ _ _ _ _ _ ih => exact ih hv
  | cycle => cases hv
  | tooDeep => cases hv
  | fail => cases hv

theorem Explores.leads (h : Explores r root above c edges u s v) (hd : r.find c = some d)
    (hsub : edges ⊆ d.ancestors) (hn : v.session.cached? n ≠ none) :
    s.cached? n ≠ none ∨ r.find n ≠ none ∧ r.Leads c n := by
  induction h generalizing d with
  | nil =>
    rcases Session.cached?_record_ne_none.mp hn with rfl | hn
    · exact .inr ⟨by simp [hd], .refl⟩
    · exact .inl hn
  | skip _ _ ih => exact ih hd (List.subset_of_cons_subset hsub) hn
  | join _ _ _ ih => exact ih hd (List.subset_of_cons_subset hsub) hn
  | cycle => exact .inl hn
  | miss _ _ _ hs _ ih =>
    rw [← Session.cached?_consult hs]
    exact ih hd (List.subset_of_cons_subset hsub) hn
  | tooDeep _ _ _ hs _ =>
    rw [Session.cached?_consult hs] at hn
    exact .inl hn
  | fail he _ _ hs _ _ ih =>
    obtain ⟨-, ht, -⟩ := Session.consult_some hs
    have hedge := (Rules.liveEdge_iff hd).mpr ⟨hsub List.mem_cons_self, he⟩
    rw [← Session.cached?_consult hs]
    exact (ih ht (List.Subset.refl _) hn).imp_right fun hl => ⟨hl.1, .head hedge hl.2⟩
  | descend he _ _ hs _ _ _ ihb ih =>
    obtain ⟨-, ht, -⟩ := Session.consult_some hs
    have hedge := (Rules.liveEdge_iff hd).mpr ⟨hsub List.mem_cons_self, he⟩
    rw [← Session.cached?_consult hs]
    cases ih hd (List.subset_of_cons_subset hsub) hn with
    | inl hn => exact (ihb ht (List.Subset.refl _) hn).imp_right fun hl => ⟨hl.1, .head hedge hl.2⟩
    | inr hl => exact .inr hl

end Linkage.Ancestry
