import Linkage.Proofs.Document.Record
import Linkage.Toml.Value

namespace Linkage.Toml

open Document

theorem itemNodes_eq_map (items : List Value) : itemNodes items = items.map Value.node := by
  induction items with
  | nil => rfl
  | cons v items ih => rw [itemNodes, ih, List.map_cons]

theorem fieldNodes_eq_map (fields : List (String × Value)) :
    fieldNodes fields = fields.map fun f => (f.1, f.2.node) := by
  induction fields with
  | nil => rfl
  | cons f fields ih => rw [fieldNodes, ih, List.map_cons]

theorem map_fst_fieldNodes (fields : List (String × Value)) :
    (fieldNodes fields).map Prod.fst = fields.map Prod.fst := by
  rw [fieldNodes_eq_map, List.map_map]
  rfl

namespace Value

def count (n : Nat) : Value := .integer n

def texts (ss : List String) : Value := .array (ss.map .string)

end Value

variable {α : Type} {read : Node → Reading α} {write : α → Value} {items : List Value}

/-- A reader takes the values that are written in one way, and says of all others how they
differ. -/
structure Reads (read : Node → Reading α) (write : α → Value) : Prop where
  read_write : ∀ x, read (write x).node = .ok x
  refuses : ∀ v, (∀ x, v ≠ write x) → ∃ m, read v.node = .error (.mismatch m)

theorem reads_string : Reads readString .string := by
  refine ⟨fun _ => rfl, fun v h => ?_⟩
  cases v with
  | string s => exact absurd rfl (h s)
  | _ => exact ⟨_, rfl⟩

theorem reads_boolean : Reads readBoolean .boolean := by
  refine ⟨fun _ => rfl, fun v h => ?_⟩
  cases v with
  | boolean b => exact absurd rfl (h b)
  | _ => exact ⟨_, rfl⟩

theorem reads_count : Reads readCount .count := by
  refine ⟨fun n => ?_, fun v h => ?_⟩
  · rw [Value.count, Value.node, readCount, if_neg (by omega), Int.toNat_natCast]
  · cases v with
    | integer n =>
      cases Int.lt_or_le n 0 with
      | inl hneg => exact ⟨_, by rw [Value.node, readCount, if_pos hneg]⟩
      | inr hn => exact absurd (by rw [Value.count, Int.toNat_of_nonneg hn]) (h n.toNat)
    | _ => exact ⟨_, rfl⟩

theorem Reads.mapM_refuses (h : Reads read write) (hitems : ∀ xs : List α, items ≠ xs.map write) :
    ∃ m, (items.map Value.node).mapM read = .error (.mismatch m) := by
  induction items with
  | nil => exact absurd rfl (hitems [])
  | cons v items ih =>
    rw [List.map_cons, List.mapM_cons]
    by_cases hv : ∃ x, v = write x
    · obtain ⟨x, rfl⟩ := hv
      obtain ⟨m, hm⟩ := ih fun xs hxs => hitems (x :: xs) (by rw [hxs, List.map_cons])
      exact ⟨m, by rw [h.read_write, hm]; rfl⟩
    · obtain ⟨m, hm⟩ := h.refuses v fun x hx => hv ⟨x, hx⟩
      exact ⟨m, by rw [hm]; rfl⟩

theorem Reads.list (h : Reads read write) (wanted : String) :
    Reads (readList wanted read) fun xs => .array (xs.map write) := by
  refine ⟨fun xs => ?_, fun v hv => ?_⟩
  · rw [Value.node, itemNodes_eq_map, List.map_map]
    exact readList_map (fun x _ => h.read_write x) wanted
  · cases v with
    | array items =>
      obtain ⟨m, hm⟩ := h.mapM_refuses fun xs hxs => hv xs (congrArg Value.array hxs)
      exact ⟨m, by rw [Value.node, itemNodes_eq_map, readList, hm]; rfl⟩
    | _ => exact ⟨_, rfl⟩

theorem reads_strings : Reads readStrings .texts := reads_string.list "a sequence"

/-- A field that may be left out is what a reader makes of its value, or the default where the field
is not there. -/
theorem exists_optional {fields : List (String × Value)} {Means : Value → α → Prop} {key : String}
    (hn : (fields.map Prod.fst).Nodup)
    (h : ∀ v, (key, v) ∈ fields → ∃ x, read v.node = .ok x ∧ Means v x) (default : α) :
    ∃ x, optional (fieldNodes fields) key read default = .ok x ∧
      ((∃ v, (key, v) ∈ fields ∧ Means v x) ∨ (∀ v, (key, v) ∉ fields) ∧ x = default) := by
  have hnodes : ((fieldNodes fields).map Prod.fst).Nodup := map_fst_fieldNodes fields ▸ hn
  by_cases hkey : ∃ v, (key, v) ∈ fields
  · obtain ⟨v, hv⟩ := hkey
    obtain ⟨x, hx, hmeans⟩ := h v hv
    have hmem : (key, v.node) ∈ fieldNodes fields := by
      rw [fieldNodes_eq_map]
      exact List.mem_map.mpr ⟨_, hv, rfl⟩
    exact ⟨x, by rw [optional_of_mem hnodes hmem, hx], .inl ⟨v, hv, hmeans⟩⟩
  · have habsent : ∀ n, (key, n) ∉ fieldNodes fields := by
      intro n hn
      rw [fieldNodes_eq_map] at hn
      obtain ⟨f, hf, heq⟩ := List.mem_map.mp hn
      exact hkey ⟨f.2, (Prod.mk.inj heq).1 ▸ hf⟩
    exact ⟨default, optional_of_absent habsent default, .inr ⟨fun v hv => hkey ⟨v, hv⟩, rfl⟩⟩

/-! ### Records that say how a table differs -/

variable {β : Type} {c : Reading Unit} {P : Prop} {r : RecordRule} {known : List (String × β)}
  {Takes : β → Value → Prop} {v : Value} {fields : List (String × Value)}

def Judges (c : Reading Unit) (P : Prop) : Prop :=
  P ∧ c = .ok () ∨ ¬ P ∧ ∃ m, c = .error (.mismatch m)

theorem Judges.ok_iff (h : Judges c P) : c = .ok () ↔ P := by
  obtain ⟨hP, rfl⟩ | ⟨hP, m, rfl⟩ := h <;> simp [hP]

theorem Judges.ne_malformed (h : Judges c P) : c ≠ .error .malformed := by
  obtain ⟨-, rfl⟩ | ⟨-, m, rfl⟩ := h <;> simp

theorem Reads.judges (h : Reads read write) (name : String) (v : Value) :
    Judges ((FieldRule.of name read).check v.node) (∃ x, v = write x) := by
  by_cases hv : ∃ x, v = write x
  · obtain ⟨x, rfl⟩ := hv
    exact .inl ⟨⟨x, rfl⟩, check_of (h.read_write x)⟩
  · obtain ⟨m, hm⟩ := h.refuses v fun x hx => hv ⟨x, hx⟩
    exact .inr ⟨hv, m, check_of_error hm⟩

/-- The fields of a record have the names of a list, and hold a value to what the list says. -/
def Guards (r : RecordRule) (known : List (String × β)) (Takes : β → Value → Prop) (v : Value) :
    Prop :=
  List.Forall₂ (fun f k => f.name = k.1 ∧ Judges (f.check v.node) (Takes k.2 v)) r.fields known

theorem exists_mem_congr {P : α → Prop} {Q : β → Prop} {as : List α} {bs : List β}
    (h : List.Forall₂ (fun a b => P a ↔ Q b) as bs) : (∃ a ∈ as, P a) ↔ ∃ b ∈ bs, Q b := by
  induction h with
  | nil => simp
  | cons hab _ ih => simp only [List.mem_cons, exists_eq_or_imp, hab, ih]

theorem Guards.exists_iff (h : Guards r known Takes v) (name : String) :
    (∃ f ∈ r.fields, f.name = name ∧ f.check v.node = .ok ()) ↔
      ∃ k, (name, k) ∈ known ∧ Takes k v := by
  have hfield : List.Forall₂ (fun f k => (f.name = name ∧ f.check v.node = .ok ()) ↔
      k.1 = name ∧ Takes k.2 v) r.fields known :=
    h.imp fun f k hf => by rw [hf.1, hf.2.ok_iff]
  rw [exists_mem_congr hfield]
  constructor
  · rintro ⟨k, hk, rfl, htakes⟩
    exact ⟨k.2, hk, htakes⟩
  · rintro ⟨k, hk, htakes⟩
    exact ⟨_, hk, rfl, htakes⟩

theorem Guards.ne_malformed (h : Guards r known Takes v) :
    ∀ f ∈ r.fields, f.check v.node ≠ .error .malformed := by
  have hfield : List.Forall₂ (fun f _ => f.check v.node = .error .malformed ↔ False)
      r.fields known := h.imp fun f k hf => iff_false_intro hf.2.ne_malformed
  intro f hf hcheck
  obtain ⟨_, _, hfalse⟩ := (exists_mem_congr hfield).mp ⟨f, hf, hcheck⟩
  exact hfalse

theorem accepts_iff_of_guards (hn : r.names.Nodup) (h : ∀ f ∈ fields, Guards r known Takes f.2) :
    r.Accepts (fieldNodes fields) ↔ ∀ f ∈ fields, ∃ k, (f.1, k) ∈ known ∧ Takes k f.2 := by
  rw [RecordRule.accepts_iff hn, fieldNodes_eq_map, List.forall_mem_map]
  exact forall₂_congr fun f hf => (h f hf).exists_iff f.1

theorem fieldsOf_of_guards (hn : r.names.Nodup) (h : ∀ f ∈ fields, Guards r known Takes f.2)
    (hfields : (fields.map Prod.fst).Nodup)
    (htakes : ∀ f ∈ fields, ∃ k, (f.1, k) ∈ known ∧ Takes k f.2) :
    r.fieldsOf .toml (Value.table fields).node = .ok (fieldNodes fields) :=
  RecordRule.fieldsOf_table ((accepts_iff_of_guards hn h).mpr htakes)
    (map_fst_fieldNodes fields ▸ hfields) .toml

theorem refuses_of_guards (hs : r.sparse = true) (hn : r.names.Nodup)
    (h : ∀ f ∈ fields, Guards r known Takes f.2)
    (htakes : ¬ ∀ f ∈ fields, ∃ k, (f.1, k) ∈ known ∧ Takes k f.2) :
    ∃ m, r.fieldsOf .toml (Value.table fields).node = .error (.mismatch m) := by
  have haccepts : ¬ r.Accepts (fieldNodes fields) := mt (accepts_iff_of_guards hn h).mp htakes
  refine RecordRule.fieldsOf_of_not_accepts hs haccepts ?_ .toml
  rw [fieldNodes_eq_map, List.forall_mem_map]
  exact fun f hf => (h f hf).ne_malformed

end Linkage.Toml
