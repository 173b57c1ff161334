import Mathlib.Data.List.Forall2
import Mathlib.Data.List.Induction
import Mathlib.Logic.Relation
import Linkage.Proofs.Exclusions.Entry
import Linkage.Proofs.Exclusions.Normal

namespace Linkage.Exclusions

open Text

variable {text text' : List Char} {entry entry' : String} {packages packages' : List String}
  {classes classes' : List String}

/-! ### Segments -/

def segments (n : ClassName) : List (List Char) :=
  n.toList.splitOn '/'

theorem intercalate_append (sep : Char) {xs ys : List (List Char)} (hx : xs ≠ []) (hy : ys ≠ []) :
    [sep].intercalate (xs ++ ys) = [sep].intercalate xs ++ sep :: [sep].intercalate ys := by
  induction xs with
  | nil => exact absurd rfl hx
  | cons x xs ih =>
    cases xs with
    | nil =>
      obtain ⟨y, ys, rfl⟩ := List.exists_cons_of_ne_nil hy
      simp [List.intercalate_cons_cons]
    | cons x' xs =>
      have hrest := ih (List.cons_ne_nil x' xs)
      rw [List.cons_append] at hrest
      rw [List.cons_append, List.cons_append, List.intercalate_cons_cons,
        List.intercalate_cons_cons, hrest]
      simp only [List.append_assoc]

theorem splitOn_append_cons (sep : Char) (xs ys : List Char) :
    (xs ++ sep :: ys).splitOn sep = xs.splitOn sep ++ ys.splitOn sep :=
  List.splitOnP_append_cons xs ys (beq_self_eq_true sep)

theorem concat_isPrefix_iff (sep : Char) (xs ys : List Char) :
    (xs ++ [sep]).IsPrefix ys ↔
      (xs.splitOn sep).IsPrefix (ys.splitOn sep) ∧ xs.splitOn sep ≠ ys.splitOn sep := by
  constructor
  · rintro ⟨rest, rfl⟩
    -- the separator cuts the longer text, and a piece, maybe an empty one, follows it
    rw [List.append_assoc, List.singleton_append, splitOn_append_cons]
    refine ⟨List.prefix_append _ _, fun he => ?_⟩
    exact List.splitOn_ne_nil sep rest (List.append_right_eq_self.mp he.symm)
  · rintro ⟨⟨rest, hrest⟩, hne⟩
    have hnil : rest ≠ [] := by
      rintro rfl
      exact hne (by rw [← hrest, List.append_nil])
    refine ⟨[sep].intercalate rest, ?_⟩
    calc xs ++ [sep] ++ [sep].intercalate rest
      _ = [sep].intercalate (xs.splitOn sep ++ rest) := by
        rw [intercalate_append sep (List.splitOn_ne_nil sep xs) hnil, List.intercalate_splitOn,
          List.append_assoc, List.singleton_append]
      _ = ys := by rw [hrest, List.intercalate_splitOn]

theorem covers_iff (package : String) (n : ClassName) :
    covers package n = true ↔
      (segments package).IsPrefix (segments n) ∧ segments package ≠ segments n := by
  rw [covers, List.isPrefixOf_iff_prefix]
  exact concat_isPrefix_iff '/' package.toList n.toList

theorem excludes_iff (e : Exclusions) (n : ClassName) :
    e.excludes n = true ↔ n ∈ e.classes ∨
      ∃ p ∈ e.packages, (segments p).IsPrefix (segments n) ∧ segments p ≠ segments n := by
  simp only [excludes, Bool.or_eq_true, decide_eq_true_eq, List.any_eq_true, covers_iff]

theorem covers_append_iff (package rest : String) :
    covers package (package ++ rest) = true ↔ rest.toList.head? = some '/' := by
  rw [covers, List.isPrefixOf_iff_prefix, String.toList_append, List.prefix_append_right_inj]
  cases rest.toList with
  | nil => simp
  | cons c cs => simp [eq_comm]

/-! ### Spellings -/

/-- The same entry written otherwise: with the other separator somewhere, or with blanks around. -/
inductive Respells : List Char → List Char → Prop where
  | separator (front back : List Char) {c d : Char} (hc : isSeparator c = true)
    (hd : isSeparator d = true) : Respells (front ++ c :: back) (front ++ d :: back)
  | blanks (before text behind : List Char) (hb : ∀ c ∈ before, isBlank c = true)
    (he : ∀ c ∈ behind, isBlank c = true) : Respells text (before ++ text ++ behind)

/-- A package may have separators behind it as well, where no blank stands at its ends. -/
inductive RespellsPackage : List Char → List Char → Prop where
  | entry {text text' : List Char} (h : Respells text text') : RespellsPackage text text'
  | separators (text seps : List Char) (hs : ¬ StartsIn isBlank text)
    (he : ¬ EndsIn isBlank text) (hseps : ∀ c ∈ seps, isSeparator c = true) :
    RespellsPackage text (text ++ seps)

def SameClass (entry entry' : String) : Prop :=
  Relation.EqvGen Respells entry.toList entry'.toList

def SamePackage (entry entry' : String) : Prop :=
  Relation.EqvGen RespellsPackage entry.toList entry'.toList

theorem internal_of_isSeparator {c : Char} (h : isSeparator c = true) : internal c = '/' := by
  simp only [isSeparator, Bool.or_eq_true, decide_eq_true_eq] at h
  cases h with
  | inl h => rw [internal, if_pos h]
  | inr h => rw [h]; rfl

theorem strip_respells (h : Respells text text') :
    (strip text).map internal = (strip text').map internal := by
  cases h with
  | separator front back hc hd =>
    have hmap := strip_map (f := internal) isBlank_internal
    rw [← hmap, ← hmap]
    simp [internal_of_isSeparator hc, internal_of_isSeparator hd]
  | blanks before text behind hb he => rw [strip_append_append hb he]

theorem strip_append_separators {seps : List Char} (hs : ¬ StartsIn isBlank text)
    (he : ¬ EndsIn isBlank text) (hseps : ∀ c ∈ seps, isSeparator c = true) :
    strip (text ++ seps) = text ++ seps := by
  apply strip_of_bare
  · cases text with
    | cons c text => exact fun h => hs (startsIn_cons.mpr (startsIn_cons.mp h))
    | nil =>
      cases seps with
      | nil => exact hs
      | cons c seps =>
        rw [List.nil_append, startsIn_cons, not_isBlank_of_isSeparator (hseps c List.mem_cons_self)]
        exact Bool.false_ne_true
  · cases seps using List.reverseRecOn with
    | nil => rwa [List.append_nil]
    | append_singleton seps c =>
      rw [← List.append_assoc, endsIn_concat, not_isBlank_of_isSeparator (hseps c (by simp))]
      exact Bool.false_ne_true

theorem dropEndWhile_respells (h : RespellsPackage text text') :
    (dropEndWhile isSeparator (strip text)).map internal =
      (dropEndWhile isSeparator (strip text')).map internal := by
  cases h with
  | entry h =>
    have hmap := dropEndWhile_map (f := internal) isSeparator_internal
    rw [← hmap, ← hmap, strip_respells h]
  | separators seps hs he hseps =>
    rw [strip_append_separators hs he hseps, strip_of_bare hs he,
      dropEndWhile_append isSeparator _ _ hseps]

theorem eq_of_eqvGen {α β : Type} {r : α → α → Prop} {f : α → β}
    (hf : ∀ a b, r a b → f a = f b) {a b : α} (h : Relation.EqvGen r a b) : f a = f b := by
  induction h with
  | rel a b h => exact hf a b h
  | refl a => rfl
  | symm a b _ ih => exact ih.symm
  | trans a b c _ _ ihab ihbc => exact ihab.trans ihbc

theorem normalClass_eq (h : SameClass entry entry') : normalClass entry = normalClass entry' := by
  apply String.toList_inj.mp
  rw [normalClass, normalClass, ClassName.toList_ofBinary, ClassName.toList_ofBinary, trim, trim,
    String.toList_ofList, String.toList_ofList]
  exact eq_of_eqvGen (f := fun cs => (strip cs).map internal) (fun _ _ hr => strip_respells hr) h

theorem normalPackage_eq (h : SamePackage entry entry') :
    normalPackage entry = normalPackage entry' := by
  apply String.toList_inj.mp
  rw [normalPackage, normalPackage, ClassName.toList_ofBinary, ClassName.toList_ofBinary,
    String.toList_ofList, String.toList_ofList]
  exact eq_of_eqvGen (f := fun cs => (dropEndWhile isSeparator (strip cs)).map internal)
    (fun _ _ hr => dropEndWhile_respells hr) h

theorem map_eq_of_forall₂ {f : String → String} {r : String → String → Prop} {ss ts : List String}
    (hf : ∀ s t, r s t → f s = f t) (h : List.Forall₂ r ss ts) : ss.map f = ts.map f := by
  induction h with
  | nil => rfl
  | cons hst _ ih => rw [List.map_cons, List.map_cons, hf _ _ hst, ih]

theorem ofEntries_eq (hp : List.Forall₂ SamePackage packages packages')
    (hc : List.Forall₂ SameClass classes classes') :
    ofEntries packages classes = ofEntries packages' classes' := by
  rw [ofEntries, ofEntries, map_eq_of_forall₂ (fun _ _ hr => normalPackage_eq hr) hp,
    map_eq_of_forall₂ (fun _ _ hr => normalClass_eq hr) hc]

/-- A name is excluded if it is one of the classes or goes on below the segments of a package, where
the classes and packages are what stands between blanks, in internal form. A package alone covers a
text with its own in front just if a slash follows, so neither its namesake nor a neighbour. How the
entries are spelled makes no difference. -/
theorem excludes_segments (packages classes : List String) :
    Normalised packages classes (ofEntries packages classes) ∧
    (∀ n, (ofEntries packages classes).excludes n = true ↔
      n ∈ (ofEntries packages classes).classes ∨ ∃ p ∈ (ofEntries packages classes).packages,
        (segments p).IsPrefix (segments n) ∧ segments p ≠ segments n) ∧
    (∀ entry, normalPackage entry ≠ "" → ∀ rest,
      (ofEntries [entry] []).excludes (normalPackage entry ++ rest) = true ↔
        rest.toList.head? = some '/') ∧
    ∀ packages' classes', List.Forall₂ SamePackage packages packages' →
      List.Forall₂ SameClass classes classes' →
      ofEntries packages' classes' = ofEntries packages classes := by
  refine ⟨normalised_iff.mpr rfl, excludes_iff _, ?_, ?_⟩
  · intro entry hne rest
    have halone : ofEntries [entry] [] = ⟨[normalPackage entry], []⟩ := by
      simp [ofEntries, hne]
    rw [halone, excludes]
    simp only [List.not_mem_nil, decide_false, Bool.false_or, List.any_cons, List.any_nil,
      Bool.or_false]
    exact covers_append_iff _ rest
  · exact fun packages' classes' hp hc => (ofEntries_eq hp hc).symm

theorem samePackage_dressed : SamePackage "a.b" " a/b./ " := by
  have hslash : RespellsPackage "a.b".toList "a/b".toList :=
    .entry (.separator ['a'] ['b'] (c := '.') (d := '/') rfl rfl)
  have hbehind : RespellsPackage "a/b".toList "a/b./".toList :=
    .separators _ ['.', '/'] (by simp [StartsIn, isBlank]) (by simp [EndsIn, isBlank])
      (by simp [isSeparator])
  have haround : RespellsPackage "a/b./".toList " a/b./ ".toList :=
    .entry (.blanks [' '] _ [' '] (by simp [isBlank]) (by simp [isBlank]))
  exact .trans _ _ _ (.rel _ _ hslash) (.trans _ _ _ (.rel _ _ hbehind) (.rel _ _ haround))

theorem excludes_segments_dressed :
    ofEntries [" a/b./ "] [" x.Y "] = ofEntries ["a.b"] [" x.Y "] ∧
      (ofEntries ["a.b"] []).excludes "a/b/c/D" = true ∧
      ¬ (ofEntries ["a.b"] []).excludes "a/bx/D" = true ∧
      (ofEntries ["a.b"] [" x.Y "]).excludes "x/Y" = true := by
  obtain ⟨-, hexcludes, halone, hspelled⟩ := excludes_segments ["a.b"] [" x.Y "]
  have hname : normalPackage "a.b" = "a/b" := by decide +kernel
  have hne : normalPackage "a.b" ≠ "" := by rw [hname]; decide
  have hbelow := halone "a.b" hne "/c/D"
  have hbeside := halone "a.b" hne "x/D"
  rw [hname] at hbelow hbeside
  refine ⟨hspelled _ _ (.cons samePackage_dressed .nil) (.cons (.refl _) .nil), ?_, ?_, ?_⟩
  · exact hbelow.mpr rfl
  · exact fun h => absurd (hbeside.mp h) (by decide)
  · exact (hexcludes "x/Y").mpr (.inl (by decide +kernel))

end Linkage.Exclusions
