import Linkage.Proofs.Exclusions.Entry
import Linkage.Proofs.Settings.Section
import Linkage.Proofs.Toml.Distinct
import Linkage.Settings.Load

namespace Linkage

open Document Toml

namespace Settings

abbrev Sections := List (String × Entries)

def known : List (String × Keys) :=
  [("exclusions", [("packages", .texts), ("classes", .texts)]),
   ("traversal", [("max_depth", .count)]),
   ("report", [("too_many_problems_threshold", .count)]),
   ("logging", [("level", .text), ("json", .switch)])]

/-- Every section is a known one, with known keys and with values of their kinds. -/
def Documented (d : Sections) : Prop :=
  ∀ s ∈ d, ∃ keys, (s.1, keys) ∈ known ∧ Fits keys s.2

def document (d : Sections) : Value :=
  .table (d.map fun s => (s.1, .table s.2))

def Written (d : Sections) (name key : String) (v : Value) : Prop :=
  ∃ entries, (name, entries) ∈ d ∧ (key, v) ∈ entries

/-- A setting is what its key is given, or its default where the key is not there. -/
def Setting {α : Type} (d : Sections) (name key : String) (write : α → Value) (default x : α) :
    Prop :=
  Written d name key (write x) ∨ (∀ v, ¬ Written d name key v) ∧ x = default

/-- Settings are what a document says, key by key. -/
structure Described (d : Sections) (s : Settings) : Prop where
  exclusions : ∃ packages classes, Setting d "exclusions" "packages" .texts [] packages ∧
    Setting d "exclusions" "classes" .texts [] classes ∧
    Exclusions.Normalised packages classes s.exclusions
  maxDepth : Setting d "traversal" "max_depth" .count 1024 s.traversal.maxDepth
  threshold : Setting d "report" "too_many_problems_threshold" .count 100
    s.report.tooManyProblemsThreshold
  level : Setting d "logging" "level" .string "info" s.logging.level
  json : Setting d "logging" "json" .boolean false s.logging.json

variable {α : Type} {read : Node → Reading α} {write : α → Value} {keys : Keys} {entries : Entries}
  {Means : Entries → α → Prop} {key name : String} {v : Value} {d : Sections}

structure Distinct (d : Sections) : Prop where
  sections : (d.map Prod.fst).Nodup
  keys : ∀ s ∈ d, (s.2.map Prod.fst).Nodup

theorem distinct_of_document (h : (document d).Distinct) : Distinct d := by
  have hnames : (d.map fun s => (s.1, Value.table s.2)).map Prod.fst = d.map Prod.fst := by
    rw [List.map_map]
    rfl
  cases h with
  | table hn htables =>
    refine ⟨hnames ▸ hn, fun s hs => ?_⟩
    cases htables _ (List.mem_map_of_mem hs) with
    | table hkeys _ => exact hkeys

/-! ### The whole document -/

theorem ReadsSection.judges (h : ReadsSection read keys Means) (name : String)
    (hn : (entries.map Prod.fst).Nodup) :
    Judges ((FieldRule.of name read).check (Value.table entries).node)
      (∃ es, Value.table entries = .table es ∧ Fits keys es) := by
  by_cases hfits : Fits keys entries
  · obtain ⟨x, hx, -⟩ := h.reads entries hn hfits
    exact .inl ⟨⟨entries, rfl, hfits⟩, check_of hx⟩
  · obtain ⟨m, hm⟩ := h.refuses entries hfits
    refine .inr ⟨?_, m, check_of_error hm⟩
    rintro ⟨es, hes, hfits'⟩
    cases hes
    exact hfits hfits'

theorem guards_rule (hn : (entries.map Prod.fst).Nodup) :
    Guards (rule .toml) known (fun keys v => ∃ es, v = .table es ∧ Fits keys es)
      (.table entries) :=
  .cons ⟨rfl, readsSection_exclusions.judges _ hn⟩ <|
    .cons ⟨rfl, readsSection_traversal.judges _ hn⟩ <|
    .cons ⟨rfl, readsSection_report.judges _ hn⟩ <|
    .cons ⟨rfl, readsSection_logging.judges _ hn⟩ .nil

theorem known_names : (known.map Prod.fst).Nodup := by decide

theorem names_rule (source : Source) : (rule source).names = known.map Prod.fst := rfl

abbrev sectionFields (d : Sections) : List (String × Value) :=
  d.map fun s => (s.1, .table s.2)

theorem map_fst_sectionFields (d : Sections) : (sectionFields d).map Prod.fst = d.map Prod.fst := by
  rw [List.map_map]
  rfl

theorem guards_sectionFields (hd : Distinct d) : ∀ f ∈ sectionFields d, Guards (rule .toml) known
    (fun keys v => ∃ es, v = .table es ∧ Fits keys es) f.2 :=
  List.forall_mem_map.mpr fun s hs => guards_rule (hd.keys s hs)

theorem takes_sectionFields_iff :
    (∀ f ∈ sectionFields d, ∃ keys, (f.1, keys) ∈ known ∧ ∃ es, f.2 = .table es ∧ Fits keys es) ↔
      Documented d := by
  rw [List.forall_mem_map]
  refine forall₂_congr fun s _ => exists_congr fun keys => and_congr_right fun _ => ?_
  constructor
  · rintro ⟨es, hes, hfits⟩
    cases hes
    exact hfits
  · exact fun hfits => ⟨s.2, rfl, hfits⟩

def InSection (d : Sections) (name : String) (Means : Entries → α → Prop) (default x : α) : Prop :=
  (∃ entries, (name, entries) ∈ d ∧ Means entries x) ∨
    (∀ entries, (name, entries) ∉ d) ∧ x = default

theorem ReadsSection.exists_inSection (h : ReadsSection read keys Means) (hd : Distinct d)
    (hdoc : Documented d) (name : String) (hk : (name, keys) ∈ known) (default : α) :
    ∃ x, optional (fieldNodes (sectionFields d)) name read default = .ok x ∧
      InSection d name Means default x := by
  have hsection (v : Value) (hv : (name, v) ∈ sectionFields d) :
      ∃ x, read v.node = .ok x ∧ ∃ entries, v = .table entries ∧ Means entries x := by
    obtain ⟨⟨_, entries⟩, hs, heq⟩ := List.mem_map.mp hv
    cases heq
    obtain ⟨keys', hk', hfits⟩ := hdoc _ hs
    cases List.inj_on_of_nodup_map known_names hk hk' rfl
    obtain ⟨x, hx, hmeans⟩ := h.reads entries (hd.keys _ hs) hfits
    exact ⟨x, hx, entries, rfl, hmeans⟩
  have hnames : ((sectionFields d).map Prod.fst).Nodup := map_fst_sectionFields d ▸ hd.sections
  obtain ⟨x, hx, hin⟩ := exists_optional hnames hsection default
  refine ⟨x, hx, hin.imp ?_ (And.imp_left ?_)⟩
  · rintro ⟨v, hv, entries, rfl, hmeans⟩
    obtain ⟨⟨_, entries'⟩, hs, heq⟩ := List.mem_map.mp hv
    cases heq
    exact ⟨_, hs, hmeans⟩
  · intro habsent entries hs
    exact habsent _ (List.mem_map.mpr ⟨_, hs, rfl⟩)

theorem InSection.setting {β : Type} {write : β → Value} {f : α → β} {default x : α} {y : β}
    (hd : Distinct d) (h : InSection d name Means default x)
    (hmeans : ∀ entries, Means entries x → Given entries key write y (f x))
    (hdefault : f default = y) : Setting d name key write y (f x) := by
  rcases h with ⟨entries, hs, hx⟩ | ⟨habsent, rfl⟩
  · refine (hmeans entries hx).imp (fun hmem => ⟨entries, hs, hmem⟩) (And.imp_left ?_)
    rintro hnone v ⟨entries', hs', hv⟩
    cases List.inj_on_of_nodup_map hd.sections hs hs' rfl
    exact hnone v hv
  · refine .inr ⟨?_, hdefault⟩
    rintro v ⟨entries, hs, -⟩
    exact habsent entries hs

theorem read_document (hd : Distinct d) (hdoc : Documented d) :
    ∃ s, ofNode .toml (document d).node = .ok s ∧ Described d s := by
  have hfields :
      (rule .toml).fieldsOf .toml (document d).node = .ok (fieldNodes (sectionFields d)) :=
    fieldsOf_of_guards (names_rule .toml ▸ known_names) (guards_sectionFields hd)
      (map_fst_sectionFields d ▸ hd.sections) (takes_sectionFields_iff.mpr hdoc)
  obtain ⟨e, he, hexclusions⟩ :=
    readsSection_exclusions.exists_inSection hd hdoc "exclusions" (by simp [known]) {}
  obtain ⟨t, ht, htraversal⟩ :=
    readsSection_traversal.exists_inSection hd hdoc "traversal" (by simp [known]) {}
  obtain ⟨r, hr, hreport⟩ :=
    readsSection_report.exists_inSection hd hdoc "report" (by simp [known]) {}
  obtain ⟨l, hl, hlogging⟩ :=
    readsSection_logging.exists_inSection hd hdoc "logging" (by simp [known]) {}
  refine ⟨⟨e, t, r, l⟩, ?_, ?_⟩
  · rw [ofNode, hfields, ok_bind, he, ok_bind, ht, ok_bind, hr, ok_bind, hl]
    rfl
  · have hentries : ∃ ps cs, InSection d "exclusions" (fun entries p =>
        Given entries "packages" .texts [] p.1 ∧ Given entries "classes" .texts [] p.2)
        ([], []) (ps, cs) ∧ e = .ofEntries ps cs := by
      -- a section that is absent comes to the same as one without entries
      rcases hexclusions with ⟨entries, hs, ps, cs, hps, hcs, rfl⟩ | ⟨habsent, rfl⟩
      · exact ⟨ps, cs, .inl ⟨entries, hs, hps, hcs⟩, rfl⟩
      · exact ⟨[], [], .inr ⟨habsent, rfl⟩, rfl⟩
    obtain ⟨ps, cs, hp, rfl⟩ := hentries
    exact {
      exclusions := ⟨ps, cs, hp.setting hd (f := Prod.fst) (fun _ h => h.1) rfl,
        hp.setting hd (f := Prod.snd) (fun _ h => h.2) rfl, Exclusions.normalised_iff.mpr rfl⟩
      maxDepth := htraversal.setting hd (fun _ h => h) rfl
      threshold := hreport.setting hd (fun _ h => h) rfl
      level := hlogging.setting hd (fun _ h => h.1) rfl
      json := hlogging.setting hd (fun _ h => h.2) rfl }

theorem refuse_document (hd : Distinct d) (hdoc : ¬ Documented d) :
    ∃ m, ofNode .toml (document d).node = .error (.mismatch m) := by
  obtain ⟨m, hm⟩ := refuses_of_guards (r := rule .toml) rfl (names_rule .toml ▸ known_names)
    (guards_sectionFields hd) (mt takes_sectionFields_iff.mp hdoc)
  exact ⟨m, by rw [ofNode, document, hm]; rfl⟩

/-! ### Texts -/

theorem Written.unique {w : Value} (hd : Distinct d) (h : Written d name key v)
    (h' : Written d name key w) : v = w := by
  obtain ⟨entries, hs, hv⟩ := h
  obtain ⟨entries', hs', hw⟩ := h'
  cases List.inj_on_of_nodup_map hd.sections hs hs' rfl
  exact (Prod.mk.inj (List.inj_on_of_nodup_map (hd.keys _ hs) hv hw rfl)).2

theorem Setting.unique {default x y : α} (hd : Distinct d) (hw : write.Injective)
    (h : Setting d name key write default x) (h' : Setting d name key write default y) :
    x = y := by
  rcases h with h | ⟨hnone, rfl⟩ <;> rcases h' with h' | ⟨hnone', rfl⟩
  · exact hw (h.unique hd h')
  · exact absurd h (hnone' _)
  · exact absurd h' (hnone _)
  · rfl

theorem texts_injective : Value.texts.Injective := fun _ _ h =>
  List.map_injective_iff.mpr (fun _ _ => Value.string.inj) (Value.array.inj h)

theorem count_injective : Value.count.Injective := fun _ _ h => Int.ofNat.inj (Value.integer.inj h)

theorem Described.unique {s s' : Settings} (hd : Distinct d) (h : Described d s)
    (h' : Described d s') : s = s' := by
  obtain ⟨ps, cs, hps, hcs, he⟩ := h.exclusions
  obtain ⟨ps', cs', hps', hcs', he'⟩ := h'.exclusions
  have hexclusions : s.exclusions = s'.exclusions := by
    rw [Exclusions.normalised_iff.mp he, Exclusions.normalised_iff.mp he',
      hps.unique hd texts_injective hps', hcs.unique hd texts_injective hcs']
  have hdepth := h.maxDepth.unique hd count_injective h'.maxDepth
  have hthreshold := h.threshold.unique hd count_injective h'.threshold
  have hlevel := h.level.unique hd (fun _ _ => Value.string.inj) h'.level
  have hjson := h.json.unique hd (fun _ _ => Value.boolean.inj) h'.json
  obtain ⟨e, ⟨n⟩, ⟨t⟩, ⟨l, j⟩⟩ := s
  obtain ⟨e', ⟨n'⟩, ⟨t'⟩, ⟨l', j'⟩⟩ := s'
  cases hexclusions
  cases hdepth
  cases hthreshold
  cases hlevel
  cases hjson
  rfl

theorem ofToml_of_ok {text : String} {x : α} (hp : Toml.parse text = some v)
    (h : read v.node = .ok x) : ofToml read text = .ok x := by
  rw [ofToml, hp]
  simp only [h]

theorem ofToml_of_mismatch {text : String} {m : Mismatch} (hp : Toml.parse text = some v)
    (h : read v.node = .error (.mismatch m)) : ofToml read text = .error (.mismatch m) := by
  rw [ofToml, hp]
  simp only [h]

theorem ofText_eq (text : String) : ofText text =
    match ofToml (ofNode .toml) text with
    | .error e => .error e
    | .ok s => if s.traversal.maxDepth = 0 then .error .zeroDepth else .ok s := by
  rw [ofText]
  cases ofToml (ofNode .toml) text with
  | error e => rfl
  | ok s =>
    by_cases hz : s.traversal.maxDepth = 0 <;>
      simp [bind, Except.bind, pure, Except.pure, validate, isValid, hz]

theorem one_le_maxDepth {text : String} {s : Settings} (h : ofText text = .ok s) :
    1 ≤ s.traversal.maxDepth := by
  rw [ofText_eq] at h
  split at h
  · cases h
  · split at h
    · cases h
    · next hz =>
      cases h
      exact Nat.one_le_iff_ne_zero.mpr hz

theorem Setting.congr {d' : Sections} {default x : α}
    (hw : ∀ name key v, Written d' name key v ↔ Written d name key v)
    (h : Setting d' name key write default x) : Setting d name key write default x := by
  simpa only [Setting, hw] using h

theorem Described.congr {d' : Sections} {s : Settings}
    (hw : ∀ name key v, Written d' name key v ↔ Written d name key v) (h : Described d' s) :
    Described d s := by
  obtain ⟨ps, cs, hps, hcs, he⟩ := h.exclusions
  exact ⟨⟨ps, cs, hps.congr hw, hcs.congr hw, he⟩, h.maxDepth.congr hw, h.threshold.congr hw,
    h.level.congr hw, h.json.congr hw⟩

theorem Described.maxDepth_eq_zero_iff {s : Settings} (hd : Distinct d) (h : Described d s) :
    s.traversal.maxDepth = 0 ↔ Written d "traversal" "max_depth" (.count 0) := by
  constructor
  · intro hz
    have hdepth := h.maxDepth
    rw [hz] at hdepth
    exact hdepth.resolve_right fun h => absurd h.2 (by decide)
  · exact fun hw => h.maxDepth.unique hd count_injective (.inl hw)

/-- What a text that consists of sections is read as. It does not fit exactly if it has a section
that is not documented, a key that its section does not have, or a value that is not what its key
asks for. One that fits is refused exactly if it asks for no depth at all. All others give the
settings that they describe key by key, whatever else they say and in whatever order, and no settings
that are read from a text ask for no depth. -/
theorem ofText_documented (text : String) :
    (∀ d, Toml.parse text = some (document d) →
      ((∃ m, ofText text = .error (.mismatch m)) ↔ ¬ Documented d) ∧
      (Documented d → (ofText text = .error .zeroDepth ↔
        Written d "traversal" "max_depth" (.count 0))) ∧
      (Documented d → ¬ Written d "traversal" "max_depth" (.count 0) →
        ∃ s, ofText text = .ok s ∧ ∀ s', Described d s' ↔ s' = s) ∧
      ∀ text' d', Toml.parse text' = some (document d') → Documented d → Documented d' →
        (∀ name key v, Written d' name key v ↔ Written d name key v) → ofText text' = ofText text) ∧
    ∀ s, ofText text = .ok s → 1 ≤ s.traversal.maxDepth := by
  have hok {text : String} {d : Sections} (hp : Toml.parse text = some (document d))
      (hdoc : Documented d) : ∃ s, Described d s ∧
        ofText text = if s.traversal.maxDepth = 0 then .error .zeroDepth else .ok s := by
    obtain ⟨s, hs, hdescribed⟩ := read_document (distinct_of_document (parse_distinct hp)) hdoc
    exact ⟨s, hdescribed, by rw [ofText_eq, ofToml_of_ok hp hs]⟩
  refine ⟨fun d hp => ?_, fun s hs => one_le_maxDepth hs⟩
  have hd := distinct_of_document (parse_distinct hp)
  refine ⟨⟨?_, fun hdoc => ?_⟩, fun hdoc => ?_, fun hdoc hz => ?_, ?_⟩
  · rintro ⟨m, hm⟩ hdoc
    obtain ⟨s, -, hs⟩ := hok hp hdoc
    rw [hs] at hm
    split at hm <;> cases hm
  · obtain ⟨m, hm⟩ := refuse_document hd hdoc
    exact ⟨m, by rw [ofText_eq, ofToml_of_mismatch hp hm]⟩
  · obtain ⟨s, hdescribed, hs⟩ := hok hp hdoc
    rw [← hdescribed.maxDepth_eq_zero_iff hd, hs]
    by_cases hz : s.traversal.maxDepth = 0 <;> simp [hz]
  · obtain ⟨s, hdescribed, hs⟩ := hok hp hdoc
    rw [← hdescribed.maxDepth_eq_zero_iff hd] at hz
    rw [if_neg hz] at hs
    exact ⟨s, hs, fun s' => ⟨fun h => h.unique hd hdescribed, fun h => h ▸ hdescribed⟩⟩
  · intro text' d' hp' hdoc hdoc' hw
    obtain ⟨s, hdescribed, hs⟩ := hok hp hdoc
    obtain ⟨s', hdescribed', hs'⟩ := hok hp' hdoc'
    rw [hs, hs', (hdescribed'.congr hw).unique hd hdescribed]

def sparse : Sections :=
  [("traversal", [("max_depth", .count 3)]),
    ("exclusions", [("packages", .texts ["a.b."]), ("classes", .texts [" x.Y"])])]

def sparseText : String :=
  "[traversal]\nmax_depth = 3\n[exclusions]\npackages = [\"a.b.\"]\nclasses = [\" x.Y\"]\n"

def isSparse : Option Value → Bool
  | some (.table [("traversal", .table [("max_depth", .integer (.ofNat 3))]),
      ("exclusions", .table [("packages", .array [.string "a.b."]),
        ("classes", .array [.string " x.Y"])])]) => true
  | _ => false

theorem parse_sparseText : Toml.parse sparseText = some (document sparse) := by
  have h : isSparse (Toml.parse sparseText) = true := by decide +kernel
  rw [isSparse.eq_def] at h
  split at h
  · assumption
  · cases h

theorem written_sparse_iff : Written sparse name key v ↔
    (name = "traversal" ∧ key = "max_depth" ∧ v = .count 3) ∨
      name = "exclusions" ∧
        (key = "packages" ∧ v = .texts ["a.b."] ∨ key = "classes" ∧ v = .texts [" x.Y"]) := by
  simp only [Written, sparse, List.mem_cons, List.not_mem_nil, or_false, Prod.mk.injEq]
  constructor
  · rintro ⟨entries, ⟨rfl, rfl⟩ | ⟨rfl, rfl⟩, h⟩
    · exact .inl ⟨rfl, by simpa using h⟩
    · exact .inr ⟨rfl, by simpa using h⟩
  · rintro (⟨rfl, rfl, rfl⟩ | ⟨rfl, h⟩)
    · exact ⟨_, .inl ⟨rfl, rfl⟩, by simp⟩
    · exact ⟨_, .inr ⟨rfl, rfl⟩, by simpa using h⟩

theorem documented_sparse : Documented sparse := by
  intro s hs
  simp only [sparse, List.mem_cons, List.not_mem_nil, or_false] at hs
  rcases hs with rfl | rfl
  · refine ⟨[("max_depth", .count)], by simp [known], fun e he => ⟨.count, ?_⟩⟩
    rw [List.mem_singleton.mp he]
    exact ⟨by simp, 3, rfl⟩
  · refine ⟨[("packages", .texts), ("classes", .texts)], by simp [known], fun e he => ⟨.texts, ?_⟩⟩
    simp only [List.mem_cons, List.not_mem_nil, or_false] at he
    rcases he with rfl | rfl
    · exact ⟨by simp, _, rfl⟩
    · exact ⟨by simp, _, rfl⟩

theorem ofEntries_sparse :
    Exclusions.ofEntries ["a.b."] [" x.Y"] = ⟨["a/b"], ["x/Y"]⟩ := by
  decide +kernel

theorem described_sparse : Described sparse
    { exclusions := ⟨["a/b"], ["x/Y"]⟩, traversal := { maxDepth := 3 } } where
  exclusions := ⟨["a.b."], [" x.Y"], by simp [Setting, written_sparse_iff],
    by simp [Setting, written_sparse_iff], Exclusions.normalised_iff.mpr ofEntries_sparse.symm⟩
  maxDepth := by simp [Setting, written_sparse_iff]
  threshold := by simp [Setting, written_sparse_iff]
  level := by simp [Setting, written_sparse_iff]
  json := by simp [Setting, written_sparse_iff]

def misspelt : Sections := [("traversal", [("max_dept", .count 3)])]

def misspeltText : String := "[traversal]\nmax_dept = 3\n"

def isMisspelt : Option Value → Bool
  | some (.table [("traversal", .table [("max_dept", .integer (.ofNat 3))])]) => true
  | _ => false

theorem parse_misspeltText : Toml.parse misspeltText = some (document misspelt) := by
  have h : isMisspelt (Toml.parse misspeltText) = true := by decide +kernel
  rw [isMisspelt.eq_def] at h
  split at h
  · assumption
  · cases h

theorem not_documented_misspelt : ¬ Documented misspelt := by
  intro h
  obtain ⟨keys, hk, hfits⟩ := h ("traversal", [("max_dept", .count 3)]) (by simp [misspelt])
  obtain ⟨kind, hkind, -⟩ := hfits ("max_dept", .count 3) (by simp)
  simp only [known, List.mem_cons, List.not_mem_nil, or_false, Prod.mk.injEq] at hk
  rcases hk with hk | hk | hk | hk
  · simp at hk
  · simp [hk.2] at hkind
  · simp at hk
  · simp at hk

theorem ofText_documented_sparse :
    (Toml.parse sparseText = some (document sparse) ∧ Documented sparse ∧
      ¬ Written sparse "traversal" "max_depth" (.count 0) ∧
      ofText sparseText = .ok
        { exclusions := { packages := ["a/b"], classes := ["x/Y"] }
          traversal := { maxDepth := 3 } }) ∧
    Toml.parse misspeltText = some (document misspelt) ∧ ¬ Documented misspelt ∧
      ∃ m, ofText misspeltText = .error (.mismatch m) := by
  have hz : ¬ Written sparse "traversal" "max_depth" (.count 0) := by
    rw [written_sparse_iff]
    simp [Value.count]
  obtain ⟨s, hs, hdescribed⟩ :=
    ((ofText_documented sparseText).1 sparse parse_sparseText).2.2.1 documented_sparse hz
  refine ⟨⟨parse_sparseText, documented_sparse, hz, ?_⟩, parse_misspeltText,
    not_documented_misspelt,
    ((ofText_documented _).1 misspelt parse_misspeltText).1.mpr not_documented_misspelt⟩
  rw [hs, (hdescribed _).mp described_sparse]

end Settings

end Linkage
