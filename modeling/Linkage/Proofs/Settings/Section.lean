import Linkage.Proofs.Toml.Reading
import Linkage.Settings.Form

namespace Linkage.Settings

open Document Toml

inductive Kind where
  | texts
  | count
  | text
  | switch
deriving DecidableEq, Repr

def Kind.Takes : Kind → Value → Prop
  | .texts, v => ∃ ss, v = .texts ss
  | .count, v => ∃ n, v = .count n
  | .text, v => ∃ s, v = .string s
  | .switch, v => ∃ b, v = .boolean b

abbrev Keys := List (String × Kind)

abbrev Entries := List (String × Value)

def Fits (keys : Keys) (entries : Entries) : Prop :=
  ∀ e ∈ entries, ∃ kind, (e.1, kind) ∈ keys ∧ kind.Takes e.2

variable {α : Type} {read : Node → Reading α} {write : α → Value} {r : RecordRule} {keys : Keys}
  {kind : Kind} {entries : Entries} {key : String}

structure IsSection (r : RecordRule) (keys : Keys) : Prop where
  guards : ∀ v, Guards r keys Kind.Takes v
  names : r.names.Nodup
  keyNames : (keys.map Prod.fst).Nodup
  sparse : r.sparse = true

theorem IsSection.fieldsOf (h : IsSection r keys) (hn : (entries.map Prod.fst).Nodup)
    (hfits : Fits keys entries) :
    r.fieldsOf .toml (Value.table entries).node = .ok (fieldNodes entries) :=
  fieldsOf_of_guards h.names (fun e _ => h.guards e.2) hn hfits

theorem IsSection.refuses (h : IsSection r keys) (hfits : ¬ Fits keys entries) :
    ∃ m, r.fieldsOf .toml (Value.table entries).node = .error (.mismatch m) :=
  refuses_of_guards h.sparse h.names (fun e _ => h.guards e.2) hfits

/-- The value of a key in a section, or the default where the key is not there. -/
def Given (entries : Entries) (key : String) (write : α → Value) (default x : α) : Prop :=
  (key, write x) ∈ entries ∨ (∀ v, (key, v) ∉ entries) ∧ x = default

theorem exists_given (hread : Reads read write) (hn : (entries.map Prod.fst).Nodup)
    (h : ∀ v, (key, v) ∈ entries → ∃ x, v = write x) (default : α) :
    ∃ x, optional (fieldNodes entries) key read default = .ok x ∧
      Given entries key write default x := by
  have hvalue (v : Value) (hv : (key, v) ∈ entries) :
      ∃ x, read v.node = .ok x ∧ v = write x := by
    obtain ⟨x, rfl⟩ := h v hv
    exact ⟨x, hread.read_write x, rfl⟩
  obtain ⟨x, hx, hgiven⟩ := exists_optional hn hvalue default
  refine ⟨x, hx, hgiven.imp_left ?_⟩
  rintro ⟨v, hv, rfl⟩
  exact hv

theorem Fits.takes (h : Fits keys entries) (hn : (keys.map Prod.fst).Nodup)
    (hk : (key, kind) ∈ keys) (v : Value) (hv : (key, v) ∈ entries) : kind.Takes v := by
  obtain ⟨kind', hk', htakes⟩ := h _ hv
  cases List.inj_on_of_nodup_map hn hk hk' rfl
  exact htakes

/-- A reader takes the sections that have some keys, and says of all others how they differ. -/
structure ReadsSection (read : Node → Reading α) (keys : Keys) (Means : Entries → α → Prop) :
    Prop where
  reads : ∀ entries, (entries.map Prod.fst).Nodup → Fits keys entries →
    ∃ x, read (Value.table entries).node = .ok x ∧ Means entries x
  refuses : ∀ entries, ¬ Fits keys entries →
    ∃ m, read (Value.table entries).node = .error (.mismatch m)

theorem readsSection_exclusions :
    ReadsSection (Exclusions.ofNode .toml) [("packages", .texts), ("classes", .texts)]
      fun entries e => ∃ ps cs, Given entries "packages" .texts [] ps ∧
        Given entries "classes" .texts [] cs ∧ e = .ofEntries ps cs := by
  have hs : IsSection Exclusions.rule [("packages", .texts), ("classes", .texts)] :=
    ⟨fun v => .cons ⟨rfl, reads_strings.judges _ v⟩ (.cons ⟨rfl, reads_strings.judges _ v⟩ .nil),
      by decide, by decide, rfl⟩
  refine ⟨fun entries hn hfits => ?_, fun entries hfits => ?_⟩
  · have hpackages : ∀ v, ("packages", v) ∈ entries → Kind.Takes .texts v :=
      hfits.takes hs.keyNames (by decide)
    have hclasses : ∀ v, ("classes", v) ∈ entries → Kind.Takes .texts v :=
      hfits.takes hs.keyNames (by decide)
    obtain ⟨ps, hps, hgivenp⟩ := exists_given reads_strings hn hpackages []
    obtain ⟨cs, hcs, hgivenc⟩ := exists_given reads_strings hn hclasses []
    refine ⟨.ofEntries ps cs, ?_, ps, cs, hgivenp, hgivenc, rfl⟩
    rw [Exclusions.ofNode, hs.fieldsOf hn hfits, ok_bind, hps, ok_bind, hcs]
    rfl
  · obtain ⟨m, hm⟩ := hs.refuses hfits
    exact ⟨m, by rw [Exclusions.ofNode, hm]; rfl⟩

theorem readsSection_traversal :
    ReadsSection (TraversalSettings.ofNode .toml) [("max_depth", .count)]
      fun entries t => Given entries "max_depth" .count 1024 t.maxDepth := by
  have hs : IsSection TraversalSettings.rule [("max_depth", .count)] :=
    ⟨fun v => .cons ⟨rfl, reads_count.judges _ v⟩ .nil, by decide, by decide, rfl⟩
  refine ⟨fun entries hn hfits => ?_, fun entries hfits => ?_⟩
  · have hdepth : ∀ v, ("max_depth", v) ∈ entries → Kind.Takes .count v :=
      hfits.takes hs.keyNames (by decide)
    obtain ⟨n, hread, hgiven⟩ := exists_given reads_count hn hdepth 1024
    refine ⟨⟨n⟩, ?_, hgiven⟩
    rw [TraversalSettings.ofNode, hs.fieldsOf hn hfits, ok_bind, hread]
    rfl
  · obtain ⟨m, hm⟩ := hs.refuses hfits
    exact ⟨m, by rw [TraversalSettings.ofNode, hm]; rfl⟩

theorem readsSection_report :
    ReadsSection (ReportSettings.ofNode .toml) [("too_many_problems_threshold", .count)]
      fun entries r => Given entries "too_many_problems_threshold" .count 100
        r.tooManyProblemsThreshold := by
  have hs : IsSection ReportSettings.rule [("too_many_problems_threshold", .count)] :=
    ⟨fun v => .cons ⟨rfl, reads_count.judges _ v⟩ .nil, by decide, by decide, rfl⟩
  refine ⟨fun entries hn hfits => ?_, fun entries hfits => ?_⟩
  · have hthreshold : ∀ v, ("too_many_problems_threshold", v) ∈ entries → Kind.Takes .count v :=
      hfits.takes hs.keyNames (by decide)
    obtain ⟨n, hread, hgiven⟩ := exists_given reads_count hn hthreshold 100
    refine ⟨⟨n⟩, ?_, hgiven⟩
    rw [ReportSettings.ofNode, hs.fieldsOf hn hfits, ok_bind, hread]
    rfl
  · obtain ⟨m, hm⟩ := hs.refuses hfits
    exact ⟨m, by rw [ReportSettings.ofNode, hm]; rfl⟩

theorem readsSection_logging :
    ReadsSection (LogSettings.ofNode .toml) [("level", .text), ("json", .switch)]
      fun entries l => Given entries "level" .string "info" l.level ∧
        Given entries "json" .boolean false l.json := by
  have hs : IsSection LogSettings.rule [("level", .text), ("json", .switch)] :=
    ⟨fun v => .cons ⟨rfl, reads_string.judges _ v⟩ (.cons ⟨rfl, reads_boolean.judges _ v⟩ .nil),
      by decide, by decide, rfl⟩
  refine ⟨fun entries hn hfits => ?_, fun entries hfits => ?_⟩
  · have hlevel : ∀ v, ("level", v) ∈ entries → Kind.Takes .text v :=
      hfits.takes hs.keyNames (by decide)
    have hjson : ∀ v, ("json", v) ∈ entries → Kind.Takes .switch v :=
      hfits.takes hs.keyNames (by decide)
    obtain ⟨level, hl, hgivenl⟩ := exists_given reads_string hn hlevel "info"
    obtain ⟨json, hj, hgivenj⟩ := exists_given reads_boolean hn hjson false
    refine ⟨⟨level, json⟩, ?_, hgivenl, hgivenj⟩
    rw [LogSettings.ofNode, hs.fieldsOf hn hfits, ok_bind, hl, ok_bind, hj]
    rfl
  · obtain ⟨m, hm⟩ := hs.refuses hfits
    exact ⟨m, by rw [LogSettings.ofNode, hm]; rfl⟩

end Linkage.Settings
