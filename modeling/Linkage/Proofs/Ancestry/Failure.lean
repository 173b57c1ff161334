import Mathlib.Data.List.Chain
import Mathlib.Data.List.Nodup
import Linkage.Proofs.Ancestry.Hierarchy
import Linkage.Proofs.Ancestry.Recursion

namespace Linkage.Ancestry

variable {r : Rules} {root c t : ClassName} {above path edges : List ClassName} {u : NameSet}
  {s : Session} {v : Collection} {d : ClassDescriptor} {e : WalkError}

/-- A chain of live edges down from a root, through classes that are found, each of them once. -/
structure Rules.Trail (r : Rules) (root : ClassName) (path : List ClassName) : Prop where
  head : path.head? = some root
  linked : path.IsChain r.LiveEdge
  nodup : path.Nodup
  found : ∀ n ∈ path, r.find n ≠ none

/-- What stands in the way of a walk: a trail that comes back to one of its own classes, or one
with more classes than the walk may hold. -/
inductive Rules.Obstacle (r : Rules) (root : ClassName) : WalkError → Prop where
  | cycle {path : List ClassName} {t : ClassName} (hp : r.Trail root path) (ht : t ∈ path)
    (hc : (path ++ [t]).IsChain r.LiveEdge) (hl : path.length ≤ max 1 r.maxDepth) :
    Obstacle r root (.cycle t (path ++ [t]))
  | tooDeep {path : List ClassName} (hp : r.Trail root path)
    (hl : path.length = max 1 r.maxDepth + 1) : Obstacle r root (.tooDeep root r.maxDepth)

namespace Rules.Trail

theorem single (hc : r.find c ≠ none) : r.Trail c [c] where
  head := rfl
  linked := List.isChain_singleton c
  nodup := List.nodup_singleton c
  found n hn := by
    rw [List.mem_singleton.mp hn]
    exact hc

theorem linked_snoc (h : r.Trail root (above ++ [c])) (he : r.LiveEdge c t) :
    (above ++ [c] ++ [t]).IsChain r.LiveEdge := by
  refine h.linked.append (List.isChain_singleton t) fun x hx y hy => ?_
  simp only [List.getLast?_concat, Option.mem_some_iff] at hx
  simp only [List.head?_singleton, Option.mem_some_iff] at hy
  exact hx ▸ hy ▸ he

theorem snoc (h : r.Trail root (above ++ [c])) (he : r.LiveEdge c t) (hv : t ∉ above ++ [c])
    (ht : r.find t ≠ none) : r.Trail root (above ++ [c] ++ [t]) where
  head := by rw [List.head?_append, h.head, Option.some_or]
  linked := h.linked_snoc he
  nodup := List.nodup_append.mpr ⟨h.nodup, List.nodup_singleton t, fun a ha b hb =>
    fun hab => hv (List.mem_singleton.mp hb ▸ hab ▸ ha)⟩
  found n hn := by
    cases List.mem_append.mp hn with
    | inl hn => exact h.found n hn
    | inr hn => exact List.mem_singleton.mp hn ▸ ht

end Rules.Trail

theorem Explores.obstacle (h : Explores r root above c edges u s v) (hd : r.find c = some d)
    (hsub : edges ⊆ d.ancestors) (ht : r.Trail root (above ++ [c]))
    (hl : (above ++ [c]).length ≤ max 1 r.maxDepth) (hv : v.outcome = .error e) :
    r.Obstacle root e := by
  induction h generalizing d with
  | nil => cases hv
  | skip _ _ ih => exact ih hd (List.subset_of_cons_subset hsub) ht hl hv
  | join _ _ _ ih => exact ih hd (List.subset_of_cons_subset hsub) ht hl hv
  | miss _ _ _ _ _ ih => exact ih hd (List.subset_of_cons_subset hsub) ht hl hv
  | cycle he _ hm =>
    cases hv
    have hedge := (Rules.liveEdge_iff hd).mpr ⟨hsub List.mem_cons_self, he⟩
    exact .cycle ht hm (ht.linked_snoc hedge) hl
  | tooDeep he _ hm hs hdeep =>
    cases hv
    have hedge := (Rules.liveEdge_iff hd).mpr ⟨hsub List.mem_cons_self, he⟩
    obtain ⟨-, hf, -⟩ := Session.consult_some hs
    refine .tooDeep (ht.snoc hedge hm (by simp [hf])) ?_
    simp only [List.length_append, List.length_singleton] at hdeep hl ⊢
    omega
  | fail he _ hm hs hroom _ ih =>
    have hedge := (Rules.liveEdge_iff hd).mpr ⟨hsub List.mem_cons_self, he⟩
    obtain ⟨-, hf, -⟩ := Session.consult_some hs
    refine ih hf (List.Subset.refl _) (ht.snoc hedge hm (by simp [hf])) ?_ hv
    simp only [List.length_append, List.length_singleton] at hroom ⊢
    omega
  | descend _ _ _ _ _ _ _ _ ih => exact ih hd (List.subset_of_cons_subset hsub) ht hl hv

end Linkage.Ancestry
