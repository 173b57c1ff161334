import Mathlib.Data.List.Induction
import Linkage.Log.Filter
import Linkage.Proofs.Keys

namespace Linkage.Log

namespace Directive

variable {d : Directive} {s t u : Option String} {target : String}

theorem precedes_some_iff {s t : String} : precedes (some s) (some t) = true ↔
    t.utf8ByteSize < s.utf8ByteSize ∨ s.utf8ByteSize = t.utf8ByteSize ∧ t < s := by
  simp only [precedes, Bool.or_eq_true, Bool.and_eq_true, decide_eq_true_eq]

theorem precedes_irrefl (t : Option String) : ¬ precedes t t = true := by
  cases t with
  | none => exact Bool.false_ne_true
  | some t =>
    rw [precedes_some_iff]
    rintro (h | ⟨-, h⟩)
    · exact Nat.lt_irrefl _ h
    · exact String.lt_irrefl _ h

theorem precedes_trans (h : precedes s t = true) (h' : precedes t u = true) :
    precedes s u = true := by
  cases s with
  | none => cases h
  | some s =>
    cases u with
    | none => rfl
    | some u =>
      cases t with
      | none => cases h'
      | some t =>
        rw [precedes_some_iff] at h h' ⊢
        rcases h with h | ⟨he, h⟩ <;> rcases h' with h' | ⟨he', h'⟩
        · exact .inl (Nat.lt_trans h' h)
        · exact .inl (he' ▸ h)
        · exact .inl (he ▸ h')
        · exact .inr ⟨he.trans he', String.lt_trans h' h⟩

theorem precedes_of_not_precedes (hne : s ≠ t) (h : ¬ precedes s t = true) :
    precedes t s = true := by
  cases t with
  | none =>
    cases s with
    | none => exact absurd rfl hne
    | some s => exact absurd rfl h
  | some t =>
    cases s with
    | none => rfl
    | some s =>
      rw [precedes_some_iff, not_or, not_and] at h
      rw [precedes_some_iff]
      obtain hlt | heq | hlt := Nat.lt_trichotomy s.utf8ByteSize t.utf8ByteSize
      · exact .inl hlt
      · obtain hs | hs | hs := Std.lt_trichotomy s t
        · exact .inr ⟨heq.symm, hs⟩
        · exact absurd (congrArg some hs) hne
        · exact absurd hs (h.2 heq)
      · exact absurd hlt h.1

def Covers (t : Option String) (target : String) : Prop :=
  ∀ s ∈ t, s.toList <+: target.toList

theorem applies_iff : d.applies target = true ↔ Covers d.target target := by
  obtain ⟨t, v⟩ := d
  cases t with
  | none => simp [applies, Covers]
  | some t => simp [applies, Covers, List.isPrefixOf_iff_prefix]

/-- How narrow a target is. The longer of two is the narrower one, and any is narrower than none. -/
def width : Option String → Nat
  | none => 0
  | some s => s.length + 1

/-- Of two targets that a record's target starts with, the one that is looked at first is not
shorter: the shorter one is the front of the longer one, so that it has fewer bytes. -/
theorem width_le_of_precedes (h : precedes s t = true) (hs : Covers s target)
    (ht : Covers t target) : width t ≤ width s := by
  cases s with
  | none => cases h
  | some s =>
    cases t with
    | none => exact Nat.zero_le _
    | some t =>
      rw [precedes_some_iff] at h
      have hs := hs s rfl
      have ht := ht t rfl
      by_contra hlt
      simp only [width, ← String.length_toList, Nat.add_le_add_iff_right, Nat.not_le] at hlt
      obtain ⟨rest, hrest⟩ := List.prefix_of_prefix_length_le hs ht (Nat.le_of_lt hlt)
      have happend : s ++ String.ofList rest = t := by
        rw [← String.toList_inj, String.toList_append, String.toList_ofList, hrest]
      have hsize := String.utf8ByteSize_append (s := s) (t := String.ofList rest)
      rw [happend] at hsize
      rcases h with h | ⟨heq, -⟩
      · omega
      · have hnil : String.ofList rest = "" := by
          rw [← String.utf8ByteSize_eq_zero_iff]
          omega
        rw [hnil, String.append_empty] at happend
        rw [happend] at hlt
        exact Nat.lt_irrefl _ hlt

theorem eq_of_width_eq (h : width s = width t) (hs : Covers s target) (ht : Covers t target) :
    s = t := by
  cases s with
  | none =>
    cases t with
    | none => rfl
    | some t => simp [width] at h
  | some s =>
    cases t with
    | none => simp [width] at h
    | some t =>
      have hlen : s.toList.length = t.toList.length := by
        simpa only [width, String.length_toList, Nat.add_right_cancel_iff] using h
      have hst := List.prefix_of_prefix_length_le (hs s rfl) (ht t rfl) (Nat.le_of_eq hlen)
      rw [String.toList_inj.mp (hst.eq_of_length hlen)]

end Directive

namespace Filter

open Directive

variable {f : Filter} {d e : Directive} {ds es : List Directive} {t : Option String}
  {v : Verbosity} {target : String} {level : Level}

/-! ### The order of the directives -/

def Ordered (ds : List Directive) : Prop :=
  ds.Pairwise fun a b => precedes a.target b.target = true

theorem mem_of_mem_place (h : e ∈ place d ds) : e = d ∨ e ∈ ds := by
  induction ds with
  | nil => exact .inl (List.mem_singleton.mp h)
  | cons c ds ih =>
    simp only [place] at h
    split at h
    · rcases List.mem_cons.mp h with rfl | h
      · exact .inl rfl
      · exact .inr (List.mem_cons_of_mem _ h)
    · split at h
      · exact List.mem_cons.mp h
      · rcases List.mem_cons.mp h with rfl | h
        · exact .inr List.mem_cons_self
        · exact (ih h).imp_right (List.mem_cons_of_mem _)

theorem Ordered.place (h : Ordered ds) (d : Directive) : Ordered (place d ds) := by
  induction ds with
  | nil => exact List.pairwise_singleton _ _
  | cons c ds ih =>
    obtain ⟨hc, hds⟩ := List.pairwise_cons.mp h
    simp only [Filter.place]
    split
    · next heq => exact List.pairwise_cons.mpr ⟨fun e he => heq ▸ hc e he, hds⟩
    · next hne =>
      split
      · next hp =>
        refine List.pairwise_cons.mpr ⟨fun e he => ?_, h⟩
        rcases List.mem_cons.mp he with rfl | he
        · exact hp
        · exact precedes_trans hp (hc e he)
      · next hp =>
        refine List.pairwise_cons.mpr ⟨fun e he => ?_, ih hds⟩
        rcases mem_of_mem_place he with rfl | he
        · exact precedes_of_not_precedes hne hp
        · exact hc e he

theorem ofDirectives_concat (ds : List Directive) (d : Directive) :
    ofDirectives (ds ++ [d]) = (ofDirectives ds).add d := by
  rw [ofDirectives, List.foldl_append]
  rfl

theorem ordered_ofDirectives (ds : List Directive) : Ordered (ofDirectives ds).directives := by
  induction ds using List.reverseRecOn with
  | nil => exact List.Pairwise.nil
  | append_singleton ds d ih =>
    rw [ofDirectives_concat]
    exact ih.place d

theorem Ordered.find?_eq_some_iff (h : Ordered ds) {p : Directive → Bool} :
    ds.find? p = some d ↔ d ∈ ds ∧ p d = true ∧
      ∀ e ∈ ds, p e = true → e = d ∨ precedes d.target e.target = true := by
  induction ds with
  | nil => simp
  | cons c ds ih =>
    obtain ⟨hc, hds⟩ := List.pairwise_cons.mp h
    cases hp : p c with
    | true =>
      rw [List.find?_cons_of_pos hp, Option.some.injEq]
      constructor
      · rintro rfl
        refine ⟨List.mem_cons_self, hp, fun e he _ => ?_⟩
        exact (List.mem_cons.mp he).imp_right (hc e)
      · rintro ⟨hd, -, hfirst⟩
        rcases List.mem_cons.mp hd with rfl | hd
        · rfl
        · rcases hfirst c List.mem_cons_self hp with rfl | hpc
          · rfl
          · exact absurd (precedes_trans hpc (hc d hd)) (precedes_irrefl _)
    | false =>
      rw [List.find?_cons_of_neg (by simp [hp]), ih hds]
      constructor
      · rintro ⟨hd, hpd, hfirst⟩
        refine ⟨List.mem_cons_of_mem _ hd, hpd, fun e he hpe => ?_⟩
        rcases List.mem_cons.mp he with rfl | he
        · rw [hp] at hpe
          cases hpe
        · exact hfirst e he hpe
      · rintro ⟨hd, hpd, hfirst⟩
        rcases List.mem_cons.mp hd with rfl | hd
        · rw [hp] at hpd
          cases hpd
        · exact ⟨hd, hpd, fun e he => hfirst e (List.mem_cons_of_mem _ he)⟩

/-! ### The table of a filter -/

def table (f : Filter) (t : Option String) : Option Verbosity :=
  (f.directives.find? (·.target = t)).map (·.verbosity)

theorem find?_place (d : Directive) (ds : List Directive) (t : Option String) :
    (place d ds).find? (·.target = t) =
      if d.target = t then some d else ds.find? (·.target = t) := by
  induction ds with
  | nil => by_cases h : d.target = t <;> simp [place, h]
  | cons c ds ih =>
    simp only [place]
    split
    · next heq => by_cases h : d.target = t <;> simp [h, ← heq]
    · next hne =>
      split
      · by_cases h : d.target = t <;> simp [h]
      · rw [List.find?_cons, ih]
        by_cases h : c.target = t
        · have hd : d.target ≠ t := fun heq => hne (heq.trans h.symm)
          simp [h, hd]
        · simp [h]

theorem table_add (f : Filter) (d : Directive) (t : Option String) :
    (f.add d).table t = if d.target = t then some d.verbosity else f.table t := by
  rw [table, add, find?_place]
  by_cases h : d.target = t
  · rw [if_pos h, if_pos h]
    rfl
  · rw [if_neg h, if_neg h]
    rfl

/-- The last directive of a target decides what is asked for it. -/
theorem table_ofDirectives (ds : List Directive) (t : Option String) :
    (ofDirectives ds).table t = ((ds.filter (·.target = t)).getLast?).map (·.verbosity) := by
  induction ds using List.reverseRecOn with
  | nil => rfl
  | append_singleton ds d ih =>
    rw [ofDirectives_concat, table_add, ih, List.filter_append]
    by_cases h : d.target = t <;> simp [h]

theorem table_append (ds es : List Directive) (t : Option String) :
    (ofDirectives (ds ++ es)).table t =
      ((ofDirectives es).table t).or ((ofDirectives ds).table t) := by
  simp only [table_ofDirectives, List.filter_append, List.getLast?_append, Option.map_or]

theorem Ordered.nodup (h : Ordered ds) : (ds.map (·.target)).Nodup := by
  refine List.pairwise_map.mpr (h.imp fun {a b} hab (heq : a.target = b.target) => ?_)
  rw [heq] at hab
  exact precedes_irrefl _ hab

theorem Ordered.table_eq_some_iff (h : Ordered f.directives) :
    f.table t = some v ↔ ⟨t, v⟩ ∈ f.directives := by
  rw [table, Option.map_eq_some_iff]
  simp only [find?_key_eq_some_iff h.nodup]
  constructor
  · rintro ⟨d, ⟨hd, rfl⟩, rfl⟩
    exact hd
  · exact fun hd => ⟨_, ⟨hd, rfl⟩, rfl⟩

/-! ### What is let through -/

/-- Of the targets in a table that the target of a record starts with, the longest, and the level
that is asked for it. -/
structure Decides (table : Option String → Option Verbosity) (target : String)
    (t : Option String) (v : Verbosity) : Prop where
  entry : table t = some v
  covers : Covers t target
  longest : ∀ t' v', table t' = some v' → Covers t' target → width t' ≤ width t

theorem Decides.unique {table : Option String → Option Verbosity} {t' : Option String}
    {v' : Verbosity} (h : Decides table target t v) (h' : Decides table target t' v') :
    t = t' ∧ v = v' := by
  have hle := h.longest _ _ h'.entry h'.covers
  have hge := h'.longest _ _ h.entry h.covers
  obtain rfl := eq_of_width_eq (Nat.le_antisymm hge hle) h.covers h'.covers
  exact ⟨rfl, Option.some.inj (h.entry.symm.trans h'.entry)⟩

theorem decides_iff_find? (h : Ordered f.directives) :
    Decides f.table target t v ↔ f.directives.find? (·.applies target) = some ⟨t, v⟩ := by
  have hdecides {d : Directive} (hd : f.directives.find? (·.applies target) = some d) :
      Decides f.table target d.target d.verbosity := by
    obtain ⟨hmem, happ, hfirst⟩ := h.find?_eq_some_iff.mp hd
    refine ⟨h.table_eq_some_iff.mpr hmem, applies_iff.mp happ, fun t' v' ht' hc => ?_⟩
    rcases hfirst _ (h.table_eq_some_iff.mp ht') (applies_iff.mpr hc) with rfl | hp
    · exact Nat.le_refl _
    · exact width_le_of_precedes hp (applies_iff.mp happ) hc
  constructor
  · intro hd
    have happ : (⟨t, v⟩ : Directive).applies target = true := applies_iff.mpr hd.covers
    have hsome : (f.directives.find? (·.applies target)).isSome = true :=
      List.find?_isSome.mpr ⟨_, h.table_eq_some_iff.mp hd.entry, happ⟩
    obtain ⟨d, hfind⟩ := Option.isSome_iff_exists.mp hsome
    obtain ⟨rfl, rfl⟩ := hd.unique (hdecides hfind)
    exact hfind
  · exact hdecides

theorem exists_decides (hf : Ordered f.directives)
    (h : f.table t = some v) (hc : Covers t target) :
    ∃ t' v', Decides f.table target t' v' := by
  have hsome : (f.directives.find? (·.applies target)).isSome = true :=
    List.find?_isSome.mpr ⟨_, hf.table_eq_some_iff.mp h, applies_iff.mpr hc⟩
  obtain ⟨d, hd⟩ := Option.isSome_iff_exists.mp hsome
  exact ⟨d.target, d.verbosity, (decides_iff_find? hf).mpr hd⟩

theorem passes_iff (h : Ordered f.directives) : f.passes target level = true ↔
    ∃ t v, Decides f.table target t v ∧ v.admits level = true := by
  simp only [decides_iff_find? h, passes]
  cases hfind : f.directives.find? (·.applies target) with
  | none => simp
  | some d =>
    constructor
    · exact fun hv => ⟨d.target, d.verbosity, rfl, hv⟩
    · rintro ⟨t, v, hd, hv⟩
      cases hd
      exact hv

theorem passes_of_decides (hf : Ordered f.directives)
    (h : Decides f.table target t v) : f.passes target level = v.admits level := by
  rw [passes, (decides_iff_find? hf).mp h]

theorem passes_of_not_covered (hf : Ordered f.directives)
    (h : ∀ t v, f.table t = some v → ¬ Covers t target) : f.passes target level = false := by
  rw [Bool.eq_false_iff]
  intro hp
  obtain ⟨t, v, hd, -⟩ := (passes_iff hf).mp hp
  exact h t v hd.entry hd.covers

end Filter

end Linkage.Log
