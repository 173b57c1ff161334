import Linkage.Proofs.Log.Table
import Linkage.Settings.Logging

namespace Linkage

namespace Text

theorem pieces_ne_nil (sep : Char) (xs : List Char) : pieces sep xs ≠ [] := by
  cases xs with
  | nil => simp [pieces]
  | cons c cs =>
    simp only [pieces]
    split
    · simp
    · split <;> simp

theorem pieces_append (sep : Char) (xs ys : List Char) :
    pieces sep (xs ++ sep :: ys) = pieces sep xs ++ pieces sep ys := by
  induction xs with
  | nil => simp [pieces]
  | cons c cs ih =>
    simp only [List.cons_append, pieces, ih]
    split
    · rfl
    · obtain ⟨p, ps, hps⟩ := List.exists_cons_of_ne_nil (pieces_ne_nil sep cs)
      simp only [hps, List.cons_append]

end Text

open Log Directive

namespace Log.Filter

variable {read : PieceReader} {s t : String} {c r : Option String → Option Verbosity}
  {f : Filter} {target : String} {level : Level}

/-! ### Texts behind one another -/

def read? (read : PieceReader) (s : String) : Option (List Piece) :=
  (pieces s).mapM read

theorem parse?_eq_map (read : PieceReader) (s : String) :
    parse? read s = (read? read s).map ofPieces := rfl

theorem read?_eq_none_iff : read? read s = none ↔ parse? read s = none := by
  rw [parse?_eq_map, Option.map_eq_none_iff]

theorem pieces_append_comma (s t : String) : pieces (s ++ "," ++ t) = pieces s ++ pieces t := by
  have hlist : (s ++ "," ++ t).toList = s.toList ++ ',' :: t.toList := by
    simp [String.toList_append]
  rw [pieces, hlist, Text.pieces_append, List.filter_append]
  rfl

theorem read?_append (read : PieceReader) (s t : String) :
    read? read (s ++ "," ++ t) =
      (read? read s).bind fun ps => (read? read t).map fun qs => ps ++ qs := by
  rw [read?, pieces_append_comma, List.mapM_append]
  show (read? read s >>= fun ps => read? read t >>= fun qs => pure (ps ++ qs)) = _
  cases read? read s <;> cases read? read t <;> rfl

theorem parse?_append_eq_none_iff : parse? read (s ++ "," ++ t) = none ↔
    parse? read s = none ∨ parse? read t = none := by
  simp only [← read?_eq_none_iff, read?_append]
  cases read? read s <;> cases read? read t <;> simp

theorem filterMap_of_mapM {α β : Type} {g : α → Option β} {as : List α} {bs : List β}
    (h : as.mapM g = some bs) : as.filterMap g = bs := by
  induction as generalizing bs with
  | nil =>
    cases h
    rfl
  | cons a as ih =>
    rw [List.mapM_cons] at h
    cases ha : g a with
    | none =>
      rw [ha] at h
      cases h
    | some b =>
      cases has : as.mapM g with
      | none =>
        rw [ha, has] at h
        cases h
      | some cs =>
        rw [ha, has] at h
        cases h
        rw [List.filterMap_cons_some ha, ih has]

theorem ofText_of_parse? (h : parse? read s = some f) : ofText read s = f := by
  rw [parse?_eq_map, Option.map_eq_some_iff] at h
  obtain ⟨ps, hps, rfl⟩ := h
  rw [ofText, filterMap_of_mapM hps]

theorem directives_ofPieces (ps : List Piece) : (ofPieces ps).directives =
    (ofDirectives (ps.filterMap Piece.directive?)).directives := by
  induction ps using List.reverseRecOn with
  | nil => rfl
  | append_singleton ps p ih =>
    rw [ofPieces, List.foldl_append, List.filterMap_append]
    cases p with
    | directive d =>
      have hd : ([.directive d] : List Piece).filterMap Piece.directive? = [d] := rfl
      rw [hd, ofDirectives_concat]
      exact congrArg (place d) ih
    | inScope d =>
      have hd : ([.inScope d] : List Piece).filterMap Piece.directive? = [] := rfl
      rw [hd, List.append_nil]
      exact ih

theorem table_ofPieces (ps : List Piece) :
    (ofPieces ps).table = (ofDirectives (ps.filterMap Piece.directive?)).table := by
  funext t
  rw [table, table, directives_ofPieces]

theorem ordered_ofPieces (ps : List Piece) : Ordered (ofPieces ps).directives := by
  rw [directives_ofPieces]
  apply ordered_ofDirectives

theorem ordered_parse? (h : parse? read s = some f) : Ordered f.directives := by
  rw [parse?_eq_map, Option.map_eq_some_iff] at h
  obtain ⟨ps, -, rfl⟩ := h
  apply ordered_ofPieces

/-! ### One table over another -/

/-- A table where what another asks for a target comes first. -/
def override (r c : Option String → Option Verbosity) (t : Option String) : Option Verbosity :=
  (r t).or (c t)

theorem override_of_append (ps qs : List Piece) :
    (ofPieces (ps ++ qs)).table = override (ofPieces qs).table (ofPieces ps).table := by
  funext t
  rw [override, table_ofPieces, table_ofPieces, table_ofPieces, List.filterMap_append]
  apply table_append

theorem parse?_append {c r : Filter} (hc : parse? read s = some c) (hr : parse? read t = some r) :
    ∃ f, parse? read (s ++ "," ++ t) = some f ∧ f.table = override r.table c.table := by
  rw [parse?_eq_map, Option.map_eq_some_iff] at hc hr
  obtain ⟨ps, hps, rfl⟩ := hc
  obtain ⟨qs, hqs, rfl⟩ := hr
  refine ⟨ofPieces (ps ++ qs), ?_, override_of_append ps qs⟩
  rw [parse?_eq_map, read?_append, hps, hqs]
  rfl

/-- A table has a target that the target of a record starts with and that is longer than all such
targets of another table. -/
def Outranks (c r : Option String → Option Verbosity) (target : String) : Prop :=
  ∃ t v, c t = some v ∧ Covers t target ∧
    ∀ t' v', r t' = some v' → Covers t' target → width t' < width t

theorem Decides.override_of_outranks {t : Option String} {v : Verbosity}
    (h : Decides c target t v) (ho : Outranks c r target) :
    Decides (override r c) target t v := by
  obtain ⟨u, w, hu, hcu, hlonger⟩ := ho
  have hlt (t' : Option String) (v' : Verbosity) (hr : r t' = some v') (hc : Covers t' target) :
      width t' < width t :=
    Nat.lt_of_lt_of_le (hlonger t' v' hr hc) (h.longest u w hu hcu)
  refine ⟨?_, h.covers, fun t' v' ht' hc => ?_⟩
  · cases hr : r t with
    | none => rw [override, hr, Option.none_or, h.entry]
    | some v' => exact absurd (hlt t v' hr h.covers) (Nat.lt_irrefl _)
  · rcases Option.or_eq_some_iff.mp ht' with hr | ⟨-, hct⟩
    · exact Nat.le_of_lt (hlt t' v' hr hc)
    · exact h.longest t' v' hct hc

theorem Decides.override_of_not_outranks {t : Option String} {v : Verbosity}
    (h : Decides r target t v) (ho : ¬ Outranks c r target) :
    Decides (override r c) target t v := by
  refine ⟨by rw [override, h.entry, Option.some_or], h.covers, fun t' v' ht' hc => ?_⟩
  rcases Option.or_eq_some_iff.mp ht' with hr | ⟨-, hct⟩
  · exact h.longest t' v' hr hc
  · by_contra hlt
    refine ho ⟨t', v', hct, hc, fun u w hu hcu => ?_⟩
    exact Nat.lt_of_le_of_lt (h.longest u w hu hcu) (Nat.lt_of_not_le hlt)

theorem passes_override {m c r : Filter} (hm : Ordered m.directives) (hc : Ordered c.directives)
    (hr : Ordered r.directives) (h : m.table = override r.table c.table) (target : String)
    (level : Level) :
    (Outranks c.table r.table target → m.passes target level = c.passes target level) ∧
    (¬ Outranks c.table r.table target → m.passes target level = r.passes target level) := by
  constructor
  · intro ho
    obtain ⟨t, v, hct, hcov, -⟩ := id ho
    obtain ⟨t, v, hd⟩ := exists_decides hc hct hcov
    have hdm := hd.override_of_outranks ho
    rw [← h] at hdm
    rw [passes_of_decides hm hdm, passes_of_decides hc hd]
  · intro ho
    by_cases hcov : ∃ t v, r.table t = some v ∧ Covers t target
    · obtain ⟨t, v, hrt, hcov⟩ := hcov
      obtain ⟨t, v, hd⟩ := exists_decides hr hrt hcov
      have hdm := hd.override_of_not_outranks ho
      rw [← h] at hdm
      rw [passes_of_decides hm hdm, passes_of_decides hr hd]
    · -- without a target in the upper table, any one in the lower would outrank it
      have hnone (t : Option String) (v : Verbosity) (hrt : r.table t = some v) :
          ¬ Covers t target := fun hcv => hcov ⟨t, v, hrt, hcv⟩
      rw [passes_of_not_covered hr hnone, passes_of_not_covered hm]
      intro t v hmt hcv
      rw [h] at hmt
      rcases Option.or_eq_some_iff.mp hmt with hrt | ⟨-, hct⟩
      · exact hnone t v hrt hcv
      · exact ho ⟨t, v, hct, hcv, fun t' v' hrt' hcv' => absurd hcv' (hnone t' v' hrt')⟩

end Log.Filter

open Log.Filter

namespace LogSettings

variable {l : LogSettings} {environment : Option String} {read : PieceReader} {text : String}
  {c r : Filter}

/-! ### The filter in force -/

theorem combined_of_blank (h : ∀ text ∈ environment, Text.trim text = "") :
    l.combined environment = l.directives := by
  cases environment with
  | none => rfl
  | some text => simp [combined, h text rfl]

theorem combined_of_text (h : Text.trim text ≠ "") :
    l.combined (some text) = l.directives ++ "," ++ Text.trim text := by
  rw [combined, Option.map_some]
  split
  · next heq => cases heq
  · next heq => exact absurd (Option.some.inj heq) h
  · next heq => rw [Option.some.inj heq]

theorem filter_of_parse? (h : Filter.parse? read (l.combined environment) = some c) :
    l.filter environment read = c := by
  rw [filter, h]

theorem filter_of_unreadable (h : Filter.parse? read (l.combined environment) = none)
    (hc : Filter.parse? read l.directives = some c) : l.filter environment read = c := by
  rw [filter, h, hc]

theorem libraryOnly_info : libraryOnly .info = "warn,pv=info" := rfl

theorem filter_of_unreadable_directives (hc : Filter.parse? read l.directives = none)
    (environment : Option String) :
    l.filter environment read = Filter.ofText read "warn,pv=info" := by
  have hcombined : Filter.parse? read (l.combined environment) = none := by
    by_cases hblank : ∀ text ∈ environment, Text.trim text = ""
    · rw [combined_of_blank hblank, hc]
    · push Not at hblank
      obtain ⟨text, rfl, htext⟩ := hblank
      rw [combined_of_text htext]
      exact parse?_append_eq_none_iff.mpr (.inl hc)
  rw [filter, hcombined, hc, libraryOnly_info]

theorem filter_of_unreadable_environment (hc : Filter.parse? read l.directives = some c)
    (h : ∀ text ∈ environment,
      Text.trim text = "" ∨ Filter.parse? read (Text.trim text) = none) :
    l.filter environment read = c := by
  cases environment with
  | none => exact filter_of_parse? (by rw [combined_of_blank (by simp), hc])
  | some text =>
    by_cases htext : Text.trim text = ""
    · exact filter_of_parse? (by rw [combined_of_blank (by simpa using htext), hc])
    · refine filter_of_unreadable ?_ hc
      rw [combined_of_text htext]
      exact parse?_append_eq_none_iff.mpr (.inr ((h text rfl).resolve_left htext))

theorem table_filter (hc : Filter.parse? read l.directives = some c)
    (htext : Text.trim text ≠ "") (hr : Filter.parse? read (Text.trim text) = some r) :
    Ordered (l.filter (some text) read).directives ∧
      (l.filter (some text) read).table = override r.table c.table := by
  obtain ⟨f, hf, htable⟩ := parse?_append hc hr
  rw [← combined_of_text htext] at hf
  rw [filter_of_parse? hf]
  exact ⟨ordered_parse? hf, htable⟩

/-- What comes of the configured text and the one of the environment, whatever pieces can be read. A
configured text that cannot be read is replaced by the one for `info`, whatever the environment
says. One that can be read stands alone if the environment says nothing or its text cannot be read.
If both can be read, their pieces stand behind one another, what the environment asks for a target
replaces what is configured for it and nothing else, and for each record the longest of all these
targets decides. -/
theorem filter_merges (read : PieceReader) (l : LogSettings) (environment : Option String) :
    (Filter.parse? read l.directives = none →
      ∀ f, Filter.parse? read "warn,pv=info" = some f → l.filter environment read = f) ∧
    (∀ c, Filter.parse? read l.directives = some c →
      (∀ text ∈ environment,
        Text.trim text = "" ∨ Filter.parse? read (Text.trim text) = none) →
        l.filter environment read = c) ∧
    ∀ text ∈ environment, Text.trim text ≠ "" →
      ∀ cs rs, read? read l.directives = some cs → read? read (Text.trim text) = some rs →
        read? read (l.combined environment) = some (cs ++ rs) ∧
        (l.filter environment read).table = override (ofPieces rs).table (ofPieces cs).table ∧
        ∀ target level, (l.filter environment read).passes target level = true ↔
          ∃ t v, Decides (override (ofPieces rs).table (ofPieces cs).table) target t v ∧
            v.admits level = true := by
  refine ⟨fun hc f hf => ?_, fun c hc h => filter_of_unreadable_environment hc h, ?_⟩
  · rw [filter_of_unreadable_directives hc, ofText_of_parse? hf]
  · rintro text rfl htext cs rs hcs hrs
    have hc : Filter.parse? read l.directives = some (ofPieces cs) := by
      rw [parse?_eq_map, hcs, Option.map_some]
    have hr : Filter.parse? read (Text.trim text) = some (ofPieces rs) := by
      rw [parse?_eq_map, hrs, Option.map_some]
    obtain ⟨hordered, htable⟩ := table_filter hc htext hr
    refine ⟨?_, htable, fun target level => ?_⟩
    · rw [combined_of_text htext, read?_append, hcs, hrs]
      rfl
    · rw [← htable]
      exact passes_iff hordered

def layered : LogSettings := { level := " pv.ancestors=trace,pv[check]=debug,pv=info,warn " }

def layers : List Piece :=
  [.directive ⟨some "pv.ancestors", .trace⟩, .inScope ⟨"pv[check]", .debug⟩,
    .directive ⟨some "pv", .info⟩, .directive ⟨none, .warn⟩]

def quieter : List Piece := [.directive ⟨some "pv", .error⟩, .directive ⟨none, .off⟩]

theorem read?_layers : read? Piece.parse? layered.directives = some layers := by decide +kernel

theorem read?_quieter : read? Piece.parse? (Text.trim " pv=error,off ") = some quieter := by
  decide +kernel

theorem filter_merges_layered :
    let loud : LogSettings := { level := "pv=loud" }
    let read := Piece.parse?
    (Filter.parse? read loud.directives = none ∧
      loud.filter (some "trace") read =
        ofPieces [.directive ⟨none, .warn⟩, .directive ⟨some "pv", .info⟩]) ∧
    (Filter.parse? read (Text.trim "pv=error,a[") = none ∧
      layered.filter (some "pv=error,a[") read = ofPieces layers) ∧
    read? read (layered.combined (some " pv=error,off ")) = some (layers ++ quieter) ∧
    (layered.filter (some " pv=error,off ") read).table =
      override (ofPieces quieter).table (ofPieces layers).table ∧
    ∃ t v, Decides (override (ofPieces quieter).table (ofPieces layers).table)
      "pv.ancestors" t v ∧ v.admits .trace = true := by
  intro loud read
  have hloud : Filter.parse? read loud.directives = none := by decide +kernel
  have hinfo : Filter.parse? read "warn,pv=info" =
      some (ofPieces [.directive ⟨none, .warn⟩, .directive ⟨some "pv", .info⟩]) := by
    decide +kernel
  have hspoilt : Filter.parse? read (Text.trim "pv=error,a[") = none := by decide +kernel
  have hlayers : Filter.parse? read layered.directives = some (ofPieces layers) := by
    rw [parse?_eq_map, read?_layers, Option.map_some]
  have halone := (filter_merges read layered (some "pv=error,a[")).2.1 _ hlayers
    (by simpa using .inr hspoilt)
  obtain ⟨hread, htable, hpasses⟩ := (filter_merges read layered (some " pv=error,off ")).2.2 _ rfl
    (by decide +kernel) _ _ read?_layers read?_quieter
  exact ⟨⟨hloud, (filter_merges read loud (some "trace")).1 hloud _ hinfo⟩, ⟨hspoilt, halone⟩,
    hread, htable, (hpasses "pv.ancestors" .trace).mp (by decide +kernel)⟩

/-- A record is let through as the text of the environment alone says, unless the configured text
has a longer target for it; then the configured text alone says. So the environment has the last
word on a target exactly if there is no such longer one or it says the same. -/
theorem filter_precedence (read : PieceReader) (l : LogSettings) {text : String} {c r : Filter}
    (hc : Filter.parse? read l.directives = some c) (htext : Text.trim text ≠ "")
    (hr : Filter.parse? read (Text.trim text) = some r) (target : String) :
    (∀ level, Outranks c.table r.table target →
      (l.filter (some text) read).passes target level = c.passes target level) ∧
    (∀ level, ¬ Outranks c.table r.table target →
      (l.filter (some text) read).passes target level = r.passes target level) ∧
    ((∀ level, (l.filter (some text) read).passes target level = r.passes target level) ↔
      (Outranks c.table r.table target →
        ∀ level, c.passes target level = r.passes target level)) := by
  obtain ⟨hordered, htable⟩ := table_filter hc htext hr
  have h := passes_override hordered (ordered_parse? hc) (ordered_parse? hr) htable target
  refine ⟨fun level => (h level).1, fun level => (h level).2, fun heq ho level => ?_,
    fun heq level => ?_⟩
  · rw [← heq level, (h level).1 ho]
  · by_cases ho : Outranks c.table r.table target
    · rw [(h level).1 ho, heq ho level]
    · exact (h level).2 ho

theorem filter_precedence_layered :
    Outranks (ofPieces layers).table (ofPieces quieter).table "pv.ancestors" ∧
      ∀ level, (layered.filter (some " pv=error,off ")).passes "pv.ancestors" level =
        (ofPieces layers).passes "pv.ancestors" level := by
  have hlayers : Filter.parse? Piece.parse? layered.directives = some (ofPieces layers) := by
    rw [parse?_eq_map, read?_layers, Option.map_some]
  have hquieter : Filter.parse? Piece.parse? (Text.trim " pv=error,off ") =
      some (ofPieces quieter) := by
    rw [parse?_eq_map, read?_quieter, Option.map_some]
  have houtranks : Outranks (ofPieces layers).table (ofPieces quieter).table "pv.ancestors" := by
    refine ⟨some "pv.ancestors", .trace, by decide +kernel, ?_, fun t v ht _ => ?_⟩
    · intro s hs
      cases hs
      exact List.prefix_refl _
    · have hmem := (ordered_ofPieces quieter).table_eq_some_iff.mp ht
      have hall : ∀ d ∈ (ofPieces quieter).directives, width d.target < 13 := by decide +kernel
      exact hall _ hmem
  exact ⟨houtranks, fun level =>
    (filter_precedence _ layered hlayers (by decide +kernel) hquieter "pv.ancestors").1 level
      houtranks⟩

def debugging : LogSettings := { level := "debug" }

/-- A level on its own is configured for the targets of the library only, and so for a longer target
than a level on its own in the environment speaks of. The later text does not quieten the library
then. -/
theorem environment_outranked :
    Filter.parse? Piece.parse? debugging.directives =
        some (ofDirectives [⟨none, .warn⟩, ⟨some "pv", .debug⟩]) ∧
      Filter.parse? Piece.parse? (Text.trim "warn") = some (ofDirectives [⟨none, .warn⟩]) ∧
      (∃ d ∈ (ofDirectives [⟨none, .warn⟩]).directives, d.applies "pv" = true) ∧
      (debugging.filter (some "warn")).passes "pv" .debug = true ∧
      (ofDirectives [⟨none, .warn⟩]).passes "pv" .debug = false := by
  decide +kernel

end LogSettings

end Linkage
