import Linkage.Exclusions.Form
import Linkage.Proofs.Json.RoundTrip
import Linkage.Proofs.Text.Ends

namespace Linkage.Exclusions

open Document Text

variable {entry : String} {e : Exclusions} {packages classes : List String}

/-- An entry between whose last separators and what stands in front of them there is a blank. -/
def GapAtEnd (text : List Char) : Prop :=
  ∃ front b seps behind, text = front ++ b :: (seps ++ behind) ∧ isBlank b = true ∧
    seps ≠ [] ∧ (∀ c ∈ seps, isSeparator c = true) ∧ (∀ c ∈ behind, isBlank c = true) ∧
    ∃ c ∈ front, isBlank c = false

structure Tidy (entry : String) : Prop where
  nonempty : entry ≠ ""
  internal : '.' ∉ entry.toList
  start : ¬ StartsIn isBlank entry.toList

theorem isBlank_internal (c : Char) : isBlank (if c = '.' then '/' else c) = isBlank c := by
  split
  · next h => subst h; decide
  · rfl

theorem isSeparator_internal (c : Char) :
    isSeparator (if c = '.' then '/' else c) = isSeparator c := by
  split
  · next h => subst h; decide
  · rfl

theorem not_isBlank_of_isSeparator {c : Char} (h : isSeparator c = true) : isBlank c = false := by
  simp only [isSeparator, Bool.or_eq_true, decide_eq_true_eq] at h
  rcases h with rfl | rfl <;> decide

theorem startsIn_ofBinary : StartsIn isBlank (ClassName.ofBinary entry).toList ↔
    StartsIn isBlank entry.toList := by
  rw [ClassName.toList_ofBinary, startsIn_map isBlank_internal]

theorem endsIn_ofBinary {p : Char → Bool} (hp : ∀ c, p (if c = '.' then '/' else c) = p c) :
    EndsIn p (ClassName.ofBinary entry).toList ↔ EndsIn p entry.toList := by
  rw [ClassName.toList_ofBinary, endsIn_map hp]

/-! ### Packages -/

theorem not_startsIn_normalPackage (entry : String) :
    ¬ StartsIn isBlank (normalPackage entry).toList := by
  rw [normalPackage, startsIn_ofBinary, String.toList_ofList]
  exact fun h => not_startsIn_strip _ (h.of_isPrefix (dropEndWhile_isPrefix _ _))

theorem not_endsIn_normalPackage (entry : String) :
    ¬ EndsIn isSeparator (normalPackage entry).toList := by
  rw [normalPackage, endsIn_ofBinary isSeparator_internal, String.toList_ofList]
  exact not_endsIn_dropEndWhile _ _

theorem normalPackage_eq_self (hd : '.' ∉ entry.toList) (hs : ¬ StartsIn isBlank entry.toList)
    (hb : ¬ EndsIn isBlank entry.toList) (he : ¬ EndsIn isSeparator entry.toList) :
    normalPackage entry = entry := by
  rw [normalPackage, strip_of_bare hs hb, dropEndWhile_of_not_endsIn he, String.ofList_toList,
    ClassName.ofBinary_eq_self hd]

theorem length_normalPackage_le (entry : String) :
    (normalPackage entry).toList.length ≤ (strip entry.toList).length := by
  rw [normalPackage, ClassName.toList_ofBinary, List.length_map, String.toList_ofList]
  exact (dropEndWhile_isPrefix _ _).length_le

theorem normalPackage_ne_self (hs : ¬ StartsIn isBlank entry.toList)
    (hb : EndsIn isBlank entry.toList) : normalPackage entry ≠ entry := by
  intro h
  have hle := length_normalPackage_le entry
  have hlt := length_dropEndWhile_lt hb
  rw [h, strip, dropWhile_of_not_startsIn hs] at hle
  omega

theorem endsIn_of_gapAtEnd {text : String} (h : GapAtEnd text.toList) :
    EndsIn isBlank (normalPackage text).toList := by
  obtain ⟨front, b, seps, behind, htext, hb, hne, hseps, hbehind, c, hc, hcb⟩ := h
  have hfront : (front.dropWhile isBlank).isEmpty = false := by
    obtain ⟨blanks, hblanks, hall⟩ := exists_append_dropWhile isBlank front
    rw [List.isEmpty_eq_false_iff]
    intro hnil
    rw [hnil, List.append_nil] at hblanks
    rw [hall c (hblanks ▸ hc)] at hcb
    cases hcb
  have hlast : ¬ EndsIn isBlank (front.dropWhile isBlank ++ b :: seps) := by
    rw [← List.dropLast_concat_getLast hne, ← List.cons_append, ← List.append_assoc, endsIn_concat,
      not_isBlank_of_isSeparator (hseps _ (List.getLast_mem hne))]
    exact Bool.false_ne_true
  have hstrip : strip text.toList = front.dropWhile isBlank ++ b :: seps := by
    rw [strip, htext, List.dropWhile_append, hfront, if_neg Bool.false_ne_true,
      ← List.cons_append, ← List.append_assoc, dropEndWhile_append _ _ _ hbehind,
      dropEndWhile_of_not_endsIn hlast]
  -- the separators keep the blank from being trimmed, and then leave it at the end
  have hsep : ¬ EndsIn isSeparator (front.dropWhile isBlank ++ [b]) := by
    rw [endsIn_concat]
    intro hs
    rw [not_isBlank_of_isSeparator hs] at hb
    cases hb
  rw [normalPackage, endsIn_ofBinary isBlank_internal, String.toList_ofList, hstrip,
    List.append_cons, dropEndWhile_append _ _ _ hseps, dropEndWhile_of_not_endsIn hsep,
    endsIn_concat]
  exact hb

theorem gapAtEnd_of_endsIn {text : String} (h : EndsIn isBlank (normalPackage text).toList) :
    GapAtEnd text.toList := by
  rw [normalPackage, endsIn_ofBinary isBlank_internal, String.toList_ofList] at h
  obtain ⟨before, hbefore, hblank⟩ := exists_append_dropWhile isBlank text.toList
  obtain ⟨behind, hbehind, hblank'⟩ :=
    exists_dropEndWhile_append isBlank (text.toList.dropWhile isBlank)
  obtain ⟨seps, hseps, hsep⟩ := exists_dropEndWhile_append isSeparator (strip text.toList)
  obtain ⟨front, b, hfront, hb⟩ := h.exists_concat
  have hstart := not_startsIn_strip text.toList
  have hstop := not_endsIn_strip text.toList
  rw [hfront] at hseps
  refine ⟨before ++ front, b, seps, behind, ?_, hb, ?_, hsep, hblank', ?_⟩
  · rw [hbefore, hbehind]
    show before ++ (strip text.toList ++ behind) = _
    rw [hseps]
    simp
  · rintro rfl
    rw [hseps, List.append_nil, endsIn_concat] at hstop
    exact hstop hb
  · cases front with
    | nil =>
      rw [hseps, List.nil_append, List.singleton_append, startsIn_cons] at hstart
      exact absurd hb hstart
    | cons c front =>
      rw [hseps, List.cons_append, List.cons_append, startsIn_cons] at hstart
      exact ⟨c, by simp, by simpa using hstart⟩

theorem gapAtEnd_iff (text : String) :
    GapAtEnd text.toList ↔ EndsIn isBlank (normalPackage text).toList :=
  ⟨endsIn_of_gapAtEnd, gapAtEnd_of_endsIn⟩

theorem normalClass_eq_self (hd : '.' ∉ entry.toList) (hs : ¬ StartsIn isBlank entry.toList)
    (hb : ¬ EndsIn isBlank entry.toList) : normalClass entry = entry := by
  rw [normalClass, trim, strip_of_bare hs hb, String.ofList_toList, ClassName.ofBinary_eq_self hd]

theorem tidy_of_mem_packages {p : String} (h : p ∈ (ofEntries packages classes).packages) :
    Tidy p ∧ ¬ EndsIn isSeparator p.toList := by
  simp only [ofEntries, List.mem_filter, List.mem_map, decide_eq_true_eq] at h
  obtain ⟨⟨text, -, rfl⟩, hne⟩ := h
  exact ⟨⟨hne, ClassName.dot_notMem_ofBinary _, not_startsIn_normalPackage text⟩,
    not_endsIn_normalPackage text⟩

theorem tidy_of_mem_classes {c : ClassName} (h : c ∈ (ofEntries packages classes).classes) :
    Tidy c ∧ ¬ EndsIn isBlank c.toList := by
  simp only [ofEntries, List.mem_filter, List.mem_map, decide_eq_true_eq] at h
  obtain ⟨⟨text, -, rfl⟩, hne⟩ := h
  refine ⟨⟨hne, ClassName.dot_notMem_ofBinary _, ?_⟩, ?_⟩
  · rw [normalClass, startsIn_ofBinary, trim, String.toList_ofList]
    exact not_startsIn_strip _
  · rw [normalClass, endsIn_ofBinary isBlank_internal, trim, String.toList_ofList]
    exact not_endsIn_strip _

theorem filter_map_eq_self_iff {f : String → String} {ss : List String} (hne : "" ∉ ss) :
    (ss.map f).filter (· ≠ "") = ss ↔ ∀ s ∈ ss, f s = s := by
  constructor
  · intro h
    have hlen : ((ss.map f).filter (· ≠ "")).length = (ss.map f).length := by
      rw [h, List.length_map]
    rw [List.filter_eq_self.mpr (List.length_filter_eq_length_iff.mp hlen)] at h
    exact List.map_inj_left.mp (h.trans (List.map_id' ss).symm)
  · intro h
    have hmap : ss.map f = ss := (List.map_congr_left h).trans (List.map_id' ss)
    rw [hmap, List.filter_eq_self]
    exact fun s hs => decide_eq_true fun he => hne (he ▸ hs)

theorem ofEntries_entries_iff (packages classes : List String) :
    let e := ofEntries packages classes
    ofEntries e.packages e.classes = e ↔ ∀ p ∈ e.packages, ¬ EndsIn isBlank p.toList := by
  intro e
  have hpackages : "" ∉ e.packages := fun h => (tidy_of_mem_packages h).1.nonempty rfl
  have hclasses : (e.classes.map normalClass).filter (· ≠ "") = e.classes := by
    rw [filter_map_eq_self_iff fun h => (tidy_of_mem_classes h).1.nonempty rfl]
    intro c hc
    obtain ⟨ht, hb⟩ := tidy_of_mem_classes hc
    exact normalClass_eq_self ht.internal ht.start hb
  have hsplit : ofEntries e.packages e.classes = e ↔
      (e.packages.map normalPackage).filter (· ≠ "") = e.packages := by
    refine ⟨congrArg Exclusions.packages, fun h => ?_⟩
    rw [ofEntries, h, hclasses]
  rw [hsplit, filter_map_eq_self_iff hpackages]
  constructor
  · intro h p hp hb
    exact normalPackage_ne_self (tidy_of_mem_packages hp).1.start hb (h p hp)
  · intro h p hp
    obtain ⟨ht, hsep⟩ := tidy_of_mem_packages hp
    exact normalPackage_eq_self ht.internal ht.start (h p hp) hsep

theorem no_blank_at_end_iff (packages classes : List String) :
    (∀ p ∈ (ofEntries packages classes).packages, ¬ EndsIn isBlank p.toList) ↔
      ∀ text ∈ packages, ¬ GapAtEnd text.toList := by
  simp only [ofEntries, List.mem_filter, List.mem_map, decide_eq_true_eq, gapAtEnd_iff]
  constructor
  · intro h text ht hb
    refine h _ ⟨⟨text, ht, rfl⟩, fun hnil => ?_⟩ hb
    obtain ⟨front, b, hfront, -⟩ := hb.exists_concat
    simp [hnil] at hfront
  · rintro h p ⟨⟨text, ht, rfl⟩, -⟩
    exact h text ht

theorem ofNode_node (source : Source) (e : Exclusions) :
    ofNode source e.toJson.node = .ok (ofEntries e.packages e.classes) := by
  have hpackages := Json.readStrings_node e.packages
  have hclasses := Json.readStrings_node e.classes
  rw [ofNode, toJson, Json.fieldsOf_object]
  · simp only [ok_bind, Document.optional, Json.fieldNodes, List.lookup_cons, String.reduceBEq]
    simp only [ok_bind, hpackages, hclasses]
    rfl
  · simp only [RecordRule.Accepts, Json.fieldNodes, List.forall_mem_cons]
    exact ⟨⟨_, rfl, check_of hpackages⟩, ⟨_, rfl, check_of hclasses⟩, by simp⟩
  · simp [Json.fieldNodes]

theorem read_written (e : Exclusions) : (Json.parse e.toJson.render).read (ofNode .json) =
    .ok (ofEntries e.packages e.classes) := by
  have hdepth : e.toJson.depth ≤ 2 := by
    have hpackages := Json.depth_strings_le e.packages
    have hclasses := Json.depth_strings_le e.classes
    simp only [toJson, Json.depth, Json.fieldDepth]
    omega
  exact Json.read_parse_render ⟨Json.inWords_strings _, Json.inWords_strings _, trivial⟩
    (Nat.le_trans hdepth (by decide)) (ofNode_node .json e)

/-- Whatever the texts are: an entry of exclusions is not empty, in internal form and without a
blank in front, no package ends in a separator, and no class in a blank. Made again from their own
entries, or written and read back, the exclusions are the same exactly if no package text has a gap
at its end, which is also exactly if no package ends in a blank. -/
theorem ofEntries_normal (packages classes : List String) :
    (∀ p ∈ (ofEntries packages classes).packages, Tidy p ∧ ¬ EndsIn isSeparator p.toList) ∧
    (∀ c ∈ (ofEntries packages classes).classes, Tidy c ∧ ¬ EndsIn isBlank c.toList) ∧
    let e := ofEntries packages classes
    ((∀ p ∈ e.packages, ¬ EndsIn isBlank p.toList) ↔ ∀ text ∈ packages, ¬ GapAtEnd text.toList) ∧
    (ofEntries e.packages e.classes = e ↔ ∀ text ∈ packages, ¬ GapAtEnd text.toList) ∧
    ((Json.parse e.toJson.render).read (ofNode .json) = .ok e ↔
      ∀ text ∈ packages, ¬ GapAtEnd text.toList) := by
  refine ⟨fun p hp => tidy_of_mem_packages hp, fun c hc => tidy_of_mem_classes hc, ?_⟩
  intro e
  have hgap := no_blank_at_end_iff packages classes
  have hagain : ofEntries e.packages e.classes = e ↔ ∀ text ∈ packages, ¬ GapAtEnd text.toList :=
    (ofEntries_entries_iff packages classes).trans hgap
  refine ⟨hgap, hagain, ?_⟩
  rw [read_written, Except.ok.injEq]
  exact hagain

def spaced : Exclusions := ofEntries [" a.b./ ", "c /"] ["x.Y"]

theorem ofEntries_normal_spaced :
    "a/b" ∈ spaced.packages ∧ ¬ EndsIn isSeparator "a/b".toList ∧
      "c /" ∈ [" a.b./ ", "c /"] ∧ GapAtEnd "c /".toList ∧
      ofEntries spaced.packages spaced.classes ≠ spaced := by
  have h := ofEntries_normal [" a.b./ ", "c /"] ["x.Y"]
  have hmem : "a/b" ∈ spaced.packages := by decide +kernel
  have hgap : GapAtEnd "c /".toList :=
    ⟨['c'], ' ', ['/'], [], by decide, by decide, by simp, by simp [isSeparator], by simp,
      'c', by simp, by decide⟩
  exact ⟨hmem, (h.1 _ hmem).2, by decide, hgap, fun he => h.2.2.2.1.mp he _ (by decide) hgap⟩

def gapped : Exclusions := ofEntries ["a /"] []

/-- A blank comes to stand at the end when the separators behind it are dropped, and stays there:
such exclusions are not the same when they are made again or read back, and leave other classes
alone then. -/
theorem blank_outlives_normalization :
    gapped.packages = ["a "] ∧ ofEntries gapped.packages gapped.classes ≠ gapped ∧
      (Json.parse gapped.toJson.render).read (ofNode .json) = .ok ⟨["a"], []⟩ ∧
      gapped.excludes "a /X" = true ∧ (⟨["a"], []⟩ : Exclusions).excludes "a /X" = false := by
  have hagain : ofEntries gapped.packages gapped.classes = ⟨["a"], []⟩ := by decide +kernel
  have hread := read_written gapped
  rw [hagain] at hread
  exact ⟨by decide +kernel, by decide +kernel, hread, by decide +kernel, by decide +kernel⟩

end Linkage.Exclusions
