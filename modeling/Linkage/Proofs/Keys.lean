import Mathlib.Data.List.Nodup

namespace Linkage

variable {α κ : Type} [DecidableEq κ] {key : α → κ} {xs : List α} {a : α} {k : κ}

theorem find?_key_eq_some_iff (hn : (xs.map key).Nodup) :
    xs.find? (key · = k) = some a ↔ a ∈ xs ∧ key a = k := by
  have hkey {b : α} (h : xs.find? (key · = k) = some b) : b ∈ xs ∧ key b = k := by
    have hb := List.find?_some h
    rw [decide_eq_true_eq] at hb
    exact ⟨List.mem_of_find?_eq_some h, hb⟩
  constructor
  · exact hkey
  · rintro ⟨ha, rfl⟩
    have hsome : (xs.find? (key · = key a)).isSome = true :=
      List.find?_isSome.mpr ⟨a, ha, decide_eq_true rfl⟩
    obtain ⟨b, h⟩ := Option.isSome_iff_exists.mp hsome
    obtain ⟨hb, heq⟩ := hkey h
    rw [h, List.inj_on_of_nodup_map hn hb ha heq]

theorem lookup_eq_some_iff {fields : List (κ × α)} (hn : (fields.map Prod.fst).Nodup) :
    fields.lookup k = some a ↔ (k, a) ∈ fields := by
  rw [List.lookup_eq_some_iff]
  constructor
  · rintro ⟨front, back, rfl, -⟩
    simp
  · intro h
    obtain ⟨front, back, rfl⟩ := List.append_of_mem h
    refine ⟨front, back, rfl, fun f hf => bne_iff_ne.mpr fun heq => ?_⟩
    rw [List.map_append, List.nodup_append] at hn
    exact hn.2.2 f.1 (List.mem_map_of_mem hf) k (by simp) heq.symm

end Linkage
