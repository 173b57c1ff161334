import Mathlib.Data.List.Forall2
import Linkage.Exclusions
import Linkage.Proofs.Text.Ends

namespace Linkage

namespace Text

variable {p : Char → Bool} {cs body : List Char}

/-- A text between blanks, which has none at its own ends. -/
def Between (cs body : List Char) : Prop :=
  ∃ before behind, cs = before ++ body ++ behind ∧ (∀ c ∈ before, isBlank c = true) ∧
    (∀ c ∈ behind, isBlank c = true) ∧ ¬ StartsIn isBlank body ∧ ¬ EndsIn isBlank body

theorem strip_eq_iff : strip cs = body ↔ Between cs body := by
  constructor
  · rintro rfl
    obtain ⟨before, hbefore, hb⟩ := exists_append_dropWhile isBlank cs
    obtain ⟨behind, hbehind, he⟩ := exists_dropEndWhile_append isBlank (cs.dropWhile isBlank)
    refine ⟨before, behind, ?_, hb, he, not_startsIn_strip cs, not_endsIn_strip cs⟩
    calc cs
      _ = before ++ cs.dropWhile isBlank := hbefore
      _ = before ++ (strip cs ++ behind) := congrArg (before ++ ·) hbehind
      _ = before ++ strip cs ++ behind := (List.append_assoc ..).symm
  · rintro ⟨before, behind, rfl, hb, he, hstart, hend⟩
    rw [strip_append_append hb he, strip_of_bare hstart hend]

theorem dropEndWhile_eq_iff : dropEndWhile p cs = body ↔
    ¬ EndsIn p body ∧ ∃ rest, cs = body ++ rest ∧ ∀ c ∈ rest, p c = true := by
  constructor
  · rintro rfl
    exact ⟨not_endsIn_dropEndWhile p cs, exists_dropEndWhile_append p cs⟩
  · rintro ⟨hend, rest, rfl, hrest⟩
    rw [dropEndWhile_append p _ _ hrest, dropEndWhile_of_not_endsIn hend]

end Text

theorem forall₂_iff_eq_map {α β : Type} {r : α → β → Prop} {f : α → β} {as : List α} {bs : List β}
    (hf : ∀ a b, r a b ↔ b = f a) : List.Forall₂ r as bs ↔ bs = as.map f := by
  constructor
  · intro h
    induction h with
    | nil => rfl
    | cons hab _ ih => rw [List.map_cons, ih, (hf _ _).mp hab]
  · rintro rfl
    apply List.forall₂_map_right_iff.mpr
    apply List.forall₂_same.mpr
    exact fun a _ => (hf a (f a)).mpr rfl

namespace Exclusions

open Text

variable {text name : String} {packages classes : List String} {e : Exclusions}

def internal (c : Char) : Char := if c = '.' then '/' else c

def ClassForm (text name : String) : Prop :=
  ∃ body, Between text.toList body ∧ name.toList = body.map internal

/-- The package that a text stands for. Points and slashes behind it are dropped as well. -/
def PackageForm (text name : String) : Prop :=
  ∃ body seps, Between text.toList (body ++ seps) ∧ (∀ c ∈ seps, c = '.' ∨ c = '/') ∧
    ¬ EndsIn (fun c => c = '.' || c = '/') body ∧ name.toList = body.map internal

/-- Exclusions hold what the entries stand for, in their order, without those that come to
nothing. -/
structure Normalised (packages classes : List String) (e : Exclusions) : Prop where
  packages : ∃ ps, List.Forall₂ PackageForm packages ps ∧ e.packages = ps.filter (· ≠ "")
  classes : ∃ cs, List.Forall₂ ClassForm classes cs ∧ e.classes = cs.filter (· ≠ "")

theorem classForm_iff : ClassForm text name ↔ name = normalClass text := by
  have hname : (normalClass text).toList = (strip text.toList).map internal := by
    rw [normalClass, ClassName.toList_ofBinary, trim, String.toList_ofList]
    rfl
  rw [← String.toList_inj, hname]
  constructor
  · rintro ⟨body, hbody, h⟩
    rw [h, strip_eq_iff.mpr hbody]
  · exact fun h => ⟨_, strip_eq_iff.mp rfl, h⟩

theorem packageForm_iff : PackageForm text name ↔ name = normalPackage text := by
  have hname : (normalPackage text).toList =
      (dropEndWhile isSeparator (strip text.toList)).map internal := by
    rw [normalPackage, ClassName.toList_ofBinary, String.toList_ofList]
    rfl
  have hsep (c : Char) : isSeparator c = true ↔ c = '.' ∨ c = '/' := by
    simp only [isSeparator, Bool.or_eq_true, decide_eq_true_eq]
  rw [← String.toList_inj, hname]
  constructor
  · rintro ⟨body, seps, hbody, hseps, hend, h⟩
    have hdrop : dropEndWhile isSeparator (body ++ seps) = body :=
      dropEndWhile_eq_iff.mpr ⟨hend, seps, rfl, fun c hc => (hsep c).mpr (hseps c hc)⟩
    rw [h, strip_eq_iff.mpr hbody, hdrop]
  · intro h
    obtain ⟨hend, seps, hbody, hseps⟩ := dropEndWhile_eq_iff.mp
      (rfl : dropEndWhile isSeparator (strip text.toList) = _)
    exact ⟨_, seps, strip_eq_iff.mp hbody, fun c hc => (hsep c).mp (hseps c hc), hend, h⟩

theorem normalised_iff : Normalised packages classes e ↔ e = ofEntries packages classes := by
  have hpackages (ps : List String) :
      List.Forall₂ PackageForm packages ps ↔ ps = packages.map normalPackage :=
    forall₂_iff_eq_map fun _ _ => packageForm_iff
  have hclasses (cs : List String) :
      List.Forall₂ ClassForm classes cs ↔ cs = classes.map normalClass :=
    forall₂_iff_eq_map fun _ _ => classForm_iff
  obtain ⟨ps, cs⟩ := e
  constructor
  · rintro ⟨⟨ps', hps', hp⟩, cs', hcs', hc⟩
    rw [ofEntries, ← (hpackages ps').mp hps', ← (hclasses cs').mp hcs', ← hp, ← hc]
  · intro h
    cases h
    exact ⟨⟨_, (hpackages _).mpr rfl, rfl⟩, _, (hclasses _).mpr rfl, rfl⟩

end Exclusions

end Linkage
