import Linkage.Document.Read
import Linkage.Proofs.Keys

namespace Linkage.Document

variable {α : Type}

theorem ok_bind {β : Type} (x : α) (f : α → Reading β) : (Except.ok x >>= f) = f x := rfl

theorem mapM_eq_ok {read : Node → Reading α} {write : α → Node} {xs : List α}
    (h : ∀ x ∈ xs, read (write x) = .ok x) : (xs.map write).mapM read = .ok xs := by
  induction xs with
  | nil => rfl
  | cons x xs ih =>
    have hx := h x List.mem_cons_self
    have hxs := ih fun y hy => h y (List.mem_cons_of_mem _ hy)
    rw [List.map_cons, List.mapM_cons, hx, hxs]
    rfl

theorem readList_map {read : Node → Reading α} {write : α → Node} {xs : List α}
    (h : ∀ x ∈ xs, read (write x) = .ok x) (wanted : String) :
    readList wanted read (.sequence (xs.map write) none) = .ok xs := by
  rw [readList, mapM_eq_ok h]
  rfl

theorem Parsed.read_eq_ok_iff {t : Parsed} {value : Node → Reading α} {x : α} :
    t.read value = .ok x ↔ value t.root = .ok x ∧ t.trailing = false := by
  rw [Parsed.read]
  cases value t.root with
  | error e => simp [bind, Except.bind]
  | ok y =>
    rw [ok_bind]
    cases t.trailing with
    | true => simp [bind, Except.bind]
    | false => simp [pure, Except.pure]

theorem readList_wanted {item : Node → Reading α} {n : Node} {xs : List α}
    {wanted : String} (h : readList wanted item n = .ok xs) (wanted' : String) :
    readList wanted' item n = .ok xs := by
  cases n with
  | sequence items flaw => exact h
  | _ => cases h

theorem check_of {name : String} {read : Node → Reading α} {n : Node} {x : α}
    (h : read n = .ok x) : (FieldRule.of name read).check n = .ok () := by
  simp only [FieldRule.of, h]
  rfl

theorem check_of_error {name : String} {read : Node → Reading α} {n : Node} {e : ReadError}
    (h : read n = .error e) : (FieldRule.of name read).check n = .error e := by
  simp only [FieldRule.of, h]
  rfl

namespace RecordRule

variable {r : RecordRule} {fields : List (String × Node)} {seen : List String}

/-- Each of the fields belongs to the record and has a value that it takes. -/
def Accepts (r : RecordRule) (fields : List (String × Node)) : Prop :=
  ∀ f ∈ fields, ∃ rule, r.fields.find? (·.name = f.1) = some rule ∧ rule.check f.2 = .ok ()

theorem checkFields_of_accepts (h : r.Accepts fields) (hn : (fields.map Prod.fst).Nodup)
    (hs : ∀ f ∈ fields, f.1 ∉ seen) : r.checkFields seen fields = .ok () := by
  induction fields generalizing seen with
  | nil => rfl
  | cons f fields ih =>
    obtain ⟨rule, hf, hc⟩ := h f List.mem_cons_self
    rw [List.map_cons, List.nodup_cons] at hn
    have hrest : r.checkFields (f.1 :: seen) fields = .ok () := by
      refine ih (fun g hg => h g (List.mem_cons_of_mem _ hg)) hn.2 fun g hg hmem => ?_
      rcases List.mem_cons.mp hmem with heq | hmem
      · exact hn.1 (heq ▸ List.mem_map_of_mem hg)
      · exact hs g (List.mem_cons_of_mem _ hg) hmem
    simp only [checkFields, hf, hs f List.mem_cons_self, hc, ↓reduceIte]
    exact hrest

theorem fieldsOf_table (h : r.Accepts fields) (hn : (fields.map Prod.fst).Nodup)
    (source : Source) : r.fieldsOf source (.table fields none) = .ok fields := by
  simp only [fieldsOf, checkFields_of_accepts h hn fun _ _ => List.not_mem_nil]
  rfl

theorem accepts_iff (hn : r.names.Nodup) : r.Accepts fields ↔
    ∀ f ∈ fields, ∃ rule ∈ r.fields, rule.name = f.1 ∧ rule.check f.2 = .ok () := by
  simp only [Accepts, find?_key_eq_some_iff hn, and_assoc]

/-- A record that may not have other fields says how a table with a wrong one differs. -/
theorem checkFields_of_not_accepts (hs : r.sparse = true) (h : ¬ r.Accepts fields)
    (hf : ∀ f ∈ fields, ∀ rule ∈ r.fields, rule.check f.2 ≠ .error .malformed) :
    ∃ m, r.checkFields seen fields = .error (.mismatch m) := by
  induction fields generalizing seen with
  | nil => exact absurd (fun f hf => absurd hf List.not_mem_nil) h
  | cons f fields ih =>
    obtain ⟨hfirst, hrest⟩ := List.forall_mem_cons.mp hf
    rw [checkFields]
    cases hfind : r.fields.find? (·.name = f.1) with
    | none =>
      simp only [hs, ↓reduceIte]
      exact ⟨_, rfl⟩
    | some rule =>
      dsimp only
      split
      · exact ⟨_, rfl⟩
      · cases hcheck : rule.check f.2 with
        | error e =>
          cases e with
          | malformed => exact absurd hcheck (hfirst rule (List.mem_of_find?_eq_some hfind))
          | mismatch m => exact ⟨m, rfl⟩
        | ok _ =>
          refine ih (fun hrest => h ?_) hrest
          exact List.forall_mem_cons.mpr ⟨⟨rule, hfind, hcheck⟩, hrest⟩

theorem fieldsOf_of_not_accepts (hs : r.sparse = true) (h : ¬ r.Accepts fields)
    (hf : ∀ f ∈ fields, ∀ rule ∈ r.fields, rule.check f.2 ≠ .error .malformed) (source : Source) :
    ∃ m, r.fieldsOf source (.table fields none) = .error (.mismatch m) := by
  obtain ⟨m, hm⟩ : ∃ m, r.checkFields [] fields = .error (.mismatch m) :=
    checkFields_of_not_accepts hs h hf
  exact ⟨m, by rw [fieldsOf, hm]; rfl⟩

end RecordRule

/-! ### Fields that may be left out -/

variable {fields : List (String × Node)} {name : String} {n : Node} {read : Node → Reading α}

theorem optional_of_mem (hn : (fields.map Prod.fst).Nodup) (h : (name, n) ∈ fields) (default : α) :
    optional fields name read default = read n := by
  rw [optional, (lookup_eq_some_iff hn).mpr h]

theorem optional_of_absent (h : ∀ n, (name, n) ∉ fields) (default : α) :
    optional fields name read default = .ok default := by
  have hlookup : fields.lookup name = none := by
    rw [List.lookup_eq_none_iff]
    exact fun f hf => bne_iff_ne.mpr fun he => h f.2 (he ▸ hf)
  rw [optional, hlookup]

end Linkage.Document
