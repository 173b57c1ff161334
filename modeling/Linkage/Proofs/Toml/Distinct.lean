import Linkage.Toml.Parse

namespace Linkage.Toml

inductive Value.Distinct : Value → Prop
  | string (s : String) : Distinct (.string s)
  | integer (n : Int) : Distinct (.integer n)
  | float (text : String) : Distinct (.float text)
  | boolean (b : Bool) : Distinct (.boolean b)
  | dateTime (text : String) : Distinct (.dateTime text)
  | array {items : List Value} (h : ∀ v ∈ items, v.Distinct) : Distinct (.array items)
  | table {fields : List (String × Value)} (names : (fields.map Prod.fst).Nodup)
      (h : ∀ f ∈ fields, f.2.Distinct) : Distinct (.table fields)

structure Draft.Distinct (d : Draft) : Prop where
  names : (d.map Prod.fst).Nodup
  items : ∀ f ∈ d, f.2.finish.Distinct

theorem finishFields_eq_map (d : Draft) :
    finishFields d = d.map fun f => (f.1, f.2.finish) := by
  induction d with
  | nil => rfl
  | cons f d ih => rw [finishFields, ih, List.map_cons]

theorem finishAll_eq_map (ds : List Draft) :
    finishAll ds = ds.map fun d => .table (finishFields d) := by
  induction ds with
  | nil => rfl
  | cons d ds ih => rw [finishAll, ih, List.map_cons]

theorem distinct_finishFields_iff {d : Draft} :
    (Value.table (finishFields d)).Distinct ↔ d.Distinct := by
  have hnames : (finishFields d).map Prod.fst = d.map Prod.fst := by
    rw [finishFields_eq_map, List.map_map]
    rfl
  constructor
  · intro h
    cases h with
    | table hn h =>
      refine ⟨hnames ▸ hn, fun f hf => h (f.1, f.2.finish) ?_⟩
      rw [finishFields_eq_map]
      exact List.mem_map.mpr ⟨f, hf, rfl⟩
  · rintro ⟨hn, h⟩
    refine .table (hnames ▸ hn) fun f hf => ?_
    rw [finishFields_eq_map] at hf
    obtain ⟨g, hg, rfl⟩ := List.mem_map.mp hf
    exact h g hg

theorem distinct_table_iff {origin : Origin} {d : Draft} :
    (Item.table origin d).finish.Distinct ↔ d.Distinct := by
  rw [Item.finish, distinct_finishFields_iff]

theorem distinct_tables_iff {earlier : List Draft} {last : Draft} :
    (Item.tables earlier last).finish.Distinct ↔ (∀ d ∈ earlier, d.Distinct) ∧ last.Distinct := by
  rw [Item.finish, finishAll_eq_map]
  constructor
  · intro h
    cases h with
    | array h =>
      refine ⟨fun d hd => distinct_finishFields_iff.mp (h _ ?_),
        distinct_finishFields_iff.mp (h _ (by simp))⟩
      exact List.mem_append_left _ (List.mem_map.mpr ⟨d, hd, rfl⟩)
  · rintro ⟨he, hl⟩
    refine .array fun v hv => ?_
    rcases List.mem_append.mp hv with hv | hv
    · obtain ⟨d, hd, rfl⟩ := List.mem_map.mp hv
      exact distinct_finishFields_iff.mpr (he d hd)
    · rw [List.mem_singleton.mp hv]
      exact distinct_finishFields_iff.mpr hl

namespace Draft

variable {d d' : Draft} {k : String} {i : Item} {v : Value} {path : List String} {isOpen : Bool}

/-! ### Drafts -/

theorem Distinct.nil : Distinct [] := ⟨List.nodup_nil, by simp⟩

theorem Distinct.concat (h : d.Distinct) (hk : d.lookup k = none) (hi : i.finish.Distinct) :
    Distinct (d ++ [(k, i)]) := by
  constructor
  · rw [List.map_append, List.nodup_append]
    refine ⟨h.names, by simp, fun a ha b hb => ?_⟩
    obtain ⟨f, hf, rfl⟩ := List.mem_map.mp ha
    have hne := List.lookup_eq_none_iff.mp hk f hf
    rw [List.mem_singleton.mp hb]
    exact fun he => absurd he.symm (by simpa using hne)
  · intro f hf
    rcases List.mem_append.mp hf with hf | hf
    · exact h.items f hf
    · rw [List.mem_singleton.mp hf]
      exact hi

theorem map_fst_replace (k : String) (i : Item) (d : Draft) :
    (d.replace k i).map Prod.fst = d.map Prod.fst := by
  induction d with
  | nil => rfl
  | cons f d ih =>
    obtain ⟨l, j⟩ := f
    simp only [replace]
    split
    · rfl
    · rw [List.map_cons, ih, List.map_cons]

theorem mem_replace {f : String × Item} (h : f ∈ d.replace k i) : f = (k, i) ∨ f ∈ d := by
  induction d with
  | nil => cases h
  | cons g d ih =>
    obtain ⟨l, j⟩ := g
    simp only [replace] at h
    split at h
    · next heq =>
      rcases List.mem_cons.mp h with rfl | h
      · exact .inl (by rw [heq])
      · exact .inr (List.mem_cons_of_mem _ h)
    · rcases List.mem_cons.mp h with rfl | h
      · exact .inr List.mem_cons_self
      · exact (ih h).imp_right (List.mem_cons_of_mem _)

theorem Distinct.replace (h : d.Distinct) (k : String) (hi : i.finish.Distinct) :
    (d.replace k i).Distinct := by
  refine ⟨map_fst_replace k i d ▸ h.names, fun f hf => ?_⟩
  rcases mem_replace hf with rfl | hf
  · exact hi
  · exact h.items f hf

theorem Distinct.of_lookup (h : d.Distinct) (hk : d.lookup k = some i) : i.finish.Distinct := by
  obtain ⟨before, behind, rfl, -⟩ := List.lookup_eq_some_iff.mp hk
  exact h.items (k, i) (by simp)

theorem Distinct.remove (h : d.Distinct) (k : String) :
    (d.remove k).Distinct ∧ (d.remove k).lookup k = none := by
  refine ⟨⟨(List.filter_sublist.map Prod.fst).nodup h.names, fun f hf => ?_⟩, ?_⟩
  · exact h.items f (List.mem_filter.mp hf).1
  · rw [List.lookup_eq_none_iff]
    intro f hf
    have hne := of_decide_eq_true (List.mem_filter.mp hf).2
    exact bne_iff_ne.mpr hne.symm

theorem Distinct.enter (h : d.Distinct) (hv : v.Distinct)
    (he : enter v isOpen path d = some d') : d'.Distinct := by
  fun_induction Draft.enter v isOpen path d generalizing d' with
  | case1 => cases he
  | case2 isOpen k d hfree =>
    cases he
    rw [Bool.and_eq_true, Option.isNone_iff_eq_none] at hfree
    exact h.concat hfree.2 hv
  | case3 => cases he
  | case4 isOpen k ks d hks hk ih =>
    obtain ⟨t, ht, rfl⟩ := Option.map_eq_some_iff.mp he
    exact h.concat hk (distinct_table_iff.mpr (ih .nil ht))
  | case5 => cases he
  | case6 isOpen k ks d hks origin t hne hk ih =>
    obtain ⟨t, ht, rfl⟩ := Option.map_eq_some_iff.mp he
    exact h.replace k (distinct_table_iff.mpr (ih (distinct_table_iff.mp (h.of_lookup hk)) ht))
  | case7 isOpen k ks d hks earlier last hk ih =>
    obtain ⟨t, ht, rfl⟩ := Option.map_eq_some_iff.mp he
    obtain ⟨hearlier, hlast⟩ := distinct_tables_iff.mp (h.of_lookup hk)
    exact h.replace k (distinct_tables_iff.mpr ⟨hearlier, ih hlast ht⟩)
  | case8 => cases he

theorem Distinct.descend {f : Draft → Option Draft}
    (hf : ∀ {d d'}, d.Distinct → f d = some d' → d'.Distinct) (h : d.Distinct)
    (he : descend f path d = some d') : d'.Distinct := by
  fun_induction Draft.descend f path d generalizing d' with
  | case1 d => exact hf h he
  | case2 k ks d hk ih =>
    obtain ⟨t, ht, rfl⟩ := Option.map_eq_some_iff.mp he
    exact h.concat hk (distinct_table_iff.mpr (ih .nil ht))
  | case3 k ks d origin t hk ih =>
    obtain ⟨t, ht, rfl⟩ := Option.map_eq_some_iff.mp he
    exact h.replace k (distinct_table_iff.mpr (ih (distinct_table_iff.mp (h.of_lookup hk)) ht))
  | case4 k ks d earlier last hk ih =>
    obtain ⟨t, ht, rfl⟩ := Option.map_eq_some_iff.mp he
    obtain ⟨hearlier, hlast⟩ := distinct_tables_iff.mp (h.of_lookup hk)
    exact h.replace k (distinct_tables_iff.mpr ⟨hearlier, ih hlast ht⟩)
  | case5 => cases he

theorem Distinct.openTable (h : d.Distinct) (he : openTable k d = some d') : d'.Distinct := by
  rw [Draft.openTable] at he
  split at he
  · next hk =>
    cases he
    exact h.concat hk (distinct_table_iff.mpr .nil)
  · next t hk =>
    cases he
    obtain ⟨hrest, hfree⟩ := h.remove k
    exact hrest.concat hfree (distinct_table_iff.mpr (distinct_table_iff.mp (h.of_lookup hk)))
  · cases he

theorem Distinct.openElement (h : d.Distinct) (he : openElement k d = some d') :
    d'.Distinct := by
  rw [Draft.openElement] at he
  split at he
  · next hk =>
    cases he
    exact h.concat hk (distinct_tables_iff.mpr ⟨by simp, .nil⟩)
  · next earlier last hk =>
    cases he
    obtain ⟨hearlier, hlast⟩ := distinct_tables_iff.mp (h.of_lookup hk)
    refine h.replace k (distinct_tables_iff.mpr ⟨fun t ht => ?_, .nil⟩)
    rcases List.mem_append.mp ht with ht | ht
    · exact hearlier t ht
    · rw [List.mem_singleton.mp ht]
      exact hlast
  · cases he

end Draft

/-! ### Values and documents -/

/-- A scanner of values gives none but those whose names are distinct. -/
def Tidy (item : (cs : List Char) → Option (Value × Shorter cs)) : Prop :=
  ∀ cs v s, item cs = some (v, s) → v.Distinct

variable {item : (cs : List Char) → Option (Value × Shorter cs)} {cs : List Char} {v : Value}

theorem distinct_of_scalar? (h : scalar? cs = some v) : v.Distinct := by
  simp only [scalar?] at h
  split at h
  · cases h
    exact .boolean true
  · split at h
    · cases h
      exact .boolean false
    · split at h
      · cases h
        exact .dateTime _
      · split at h
        · cases h
          exact .integer _
        · obtain ⟨text, -, rfl⟩ := Option.map_eq_some_iff.mp h
          exact .float text

theorem tidy_scalar : Tidy scalar := by
  intro cs v s h
  simp only [scalar, Option.bind_eq_bind] at h
  split at h
  · split at h
    · split at h
      · cases h
        exact .dateTime _
      · cases h
    · simp only [Option.bind_eq_some_iff, Option.some.injEq] at h
      obtain ⟨w, hw, r, -, he⟩ := h
      cases he
      exact distinct_of_scalar? hw
  · simp only [Option.bind_eq_some_iff, Option.some.injEq] at h
    obtain ⟨w, hw, r, -, he⟩ := h
    cases he
    exact distinct_of_scalar? hw

theorem distinct_of_arrayItems {vs : List Value} {s : Shorter cs} (hitem : Tidy item)
    (h : arrayItems item cs = some (vs, s)) : ∀ v ∈ vs, v.Distinct := by
  fun_induction arrayItems item cs generalizing vs with
  | case1 =>
    cases h
    simp
  | case2 cs r hclose =>
    rename_i ih
    obtain ⟨⟨v, s⟩, hv, h⟩ := Option.bind_eq_some_iff.mp h
    have hfirst := hitem _ _ _ hv
    dsimp only at h
    split at h
    · obtain ⟨⟨ws, u⟩, hws, h⟩ := Option.bind_eq_some_iff.mp h
      cases h
      exact List.forall_mem_cons.mpr ⟨hfirst, ih s _ hws⟩
    · obtain ⟨t, -, h⟩ := Option.bind_eq_some_iff.mp h
      cases h
      simpa using hfirst

theorem distinct_of_pair {k : List String} {s : Shorter cs} (hitem : Tidy item)
    (h : pair item cs = some ((k, v), s)) : v.Distinct := by
  obtain ⟨⟨path, r⟩, -, h⟩ := Option.bind_eq_some_iff.mp h
  dsimp only at h
  split at h
  · cases h
  · obtain ⟨s, -, h⟩ := Option.bind_eq_some_iff.mp h
    obtain ⟨⟨w, t⟩, hw, h⟩ := Option.bind_eq_some_iff.mp h
    cases h
    exact hitem _ _ _ hw

theorem distinct_of_tableEntries {es : List (List String × Value)} {s : Shorter cs}
    (hitem : Tidy item) (h : tableEntries item cs = some (es, s)) : ∀ e ∈ es, e.2.Distinct := by
  fun_induction tableEntries item cs generalizing es with
  | case1 cs ih =>
    obtain ⟨⟨e, s⟩, he, h⟩ := Option.bind_eq_some_iff.mp h
    have hfirst := distinct_of_pair hitem he
    dsimp only at h
    split at h
    · obtain ⟨⟨fs, u⟩, hfs, h⟩ := Option.bind_eq_some_iff.mp h
      cases h
      exact List.forall_mem_cons.mpr ⟨hfirst, ih s _ hfs⟩
    · obtain ⟨t, -, h⟩ := Option.bind_eq_some_iff.mp h
      cases h
      simpa using hfirst

theorem of_foldlM {α β : Type} {P : β → Prop} {f : β → α → Option β} {as : List α} {b b' : β}
    (hf : ∀ a ∈ as, ∀ b b', P b → f b a = some b' → P b') (hb : P b)
    (h : as.foldlM f b = some b') : P b' := by
  induction as generalizing b with
  | nil =>
    cases h
    exact hb
  | cons a as ih =>
    rw [List.foldlM_cons] at h
    obtain ⟨c, hc, h⟩ := Option.bind_eq_some_iff.mp h
    obtain ⟨ha, has⟩ := List.forall_mem_cons.mp hf
    exact ih has (ha b c hb hc) h

theorem distinct_of_tableOf {es : List (List String × Value)} (hes : ∀ e ∈ es, e.2.Distinct)
    (h : tableOf es = some v) : v.Distinct := by
  obtain ⟨d, hd, rfl⟩ := Option.map_eq_some_iff.mp h
  exact distinct_finishFields_iff.mpr
    (of_foldlM (fun e he _ _ h h' => h.enter (hes e he) h') Draft.Distinct.nil hd)

theorem tidy_value (depth : Nat) : Tidy (value depth) := by
  induction depth using Nat.strongRecOn with
  | ind depth ih =>
    intro cs v s h
    fun_cases value depth cs with
    | case1 depth rest =>
      rw [value] at h
      obtain ⟨r, -, h⟩ := Option.map_eq_some_iff.mp h
      cases h
      exact .string _
    | case2 depth rest =>
      rw [value] at h
      obtain ⟨r, -, h⟩ := Option.map_eq_some_iff.mp h
      cases h
      exact .string _
    | case3 depth rest =>
      obtain ⟨⟨vs, t⟩, hvs, h⟩ := Option.bind_eq_some_iff.mp h
      cases h
      exact .array (distinct_of_arrayItems (ih depth (Nat.lt_succ_self depth)) hvs)
    | case4 depth rest r t ht =>
      simp only [value, r] at h ht
      rw [ht] at h
      cases h
      exact .table List.nodup_nil (by simp)
    | case5 depth rest r ht =>
      simp only [value, r] at h ht
      rw [ht] at h
      obtain ⟨⟨es, t⟩, hes, h⟩ := Option.bind_eq_some_iff.mp h
      obtain ⟨w, hw, h⟩ := Option.bind_eq_some_iff.mp h
      cases h
      have hentries := distinct_of_tableEntries (ih depth (Nat.lt_succ_self depth)) hes
      exact distinct_of_tableOf hentries hw
    | case6 depth cs h1 h2 h3 h4 =>
      rw [value] at h
      · exact tidy_scalar _ _ _ h
      all_goals assumption

def Statement.Distinct : Statement → Prop
  | .entry _ v => v.Distinct
  | .table _ | .element _ => True

theorem distinct_of_statement {st : Statement} {s : Shorter cs}
    (h : statement cs = some (st, s)) : st.Distinct := by
  rw [statement] at h
  split at h
  · obtain ⟨⟨path, t⟩, -, h⟩ := Option.bind_eq_some_iff.mp h
    cases h
    trivial
  · obtain ⟨⟨path, t⟩, -, h⟩ := Option.bind_eq_some_iff.mp h
    cases h
    trivial
  · obtain ⟨⟨⟨path, v⟩, t⟩, hv, h⟩ := Option.bind_eq_some_iff.mp h
    obtain ⟨u, -, h⟩ := Option.bind_eq_some_iff.mp h
    cases h
    exact distinct_of_pair (tidy_value maxDepth) hv

theorem distinct_of_statements {sts : List Statement} (h : statements cs = some sts) :
    ∀ st ∈ sts, st.Distinct := by
  fun_induction statements cs generalizing sts with
  | case1 =>
    cases h
    simp
  | case2 cs r hne =>
    rename_i ih
    obtain ⟨⟨st, s⟩, hst, h⟩ := Option.bind_eq_some_iff.mp h
    obtain ⟨rest, hrest, h⟩ := Option.bind_eq_some_iff.mp h
    cases h
    exact List.forall_mem_cons.mpr ⟨distinct_of_statement hst, ih s hrest⟩

theorem Building.distinct_add {b b' : Building} {st : Statement} (hst : st.Distinct)
    (hb : b.root.Distinct) (h : b.add st = some b') : b'.root.Distinct := by
  cases st with
  | table path =>
    obtain ⟨d, hd, rfl⟩ := Option.map_eq_some_iff.mp h
    exact hb.descend Draft.Distinct.openTable hd
  | element path =>
    obtain ⟨d, hd, rfl⟩ := Option.map_eq_some_iff.mp h
    exact hb.descend Draft.Distinct.openElement hd
  | entry path v =>
    obtain ⟨d, hd, rfl⟩ := Option.map_eq_some_iff.mp h
    exact hb.descend (fun h he => h.enter hst he) hd

/-- No table of a document has a name twice. -/
theorem parse_distinct {text : String} (h : parse text = some v) : v.Distinct := by
  obtain ⟨sts, hsts, h⟩ := Option.bind_eq_some_iff.mp h
  obtain ⟨b, hb, h⟩ := Option.bind_eq_some_iff.mp h
  cases h
  have hadd := distinct_of_statements hsts
  exact distinct_finishFields_iff.mpr (of_foldlM (P := fun b : Building => b.root.Distinct)
    (fun st hst _ _ => Building.distinct_add (hadd st hst)) Draft.Distinct.nil hb)

end Linkage.Toml
