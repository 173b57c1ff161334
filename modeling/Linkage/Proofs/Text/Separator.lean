import Mathlib.Data.List.Basic

namespace Linkage.Text

variable {α : Type} {a : α} {word gap back xs ys zs : List α}

def separator (a : α) (word : List α) : List α :=
  a :: (word ++ [a])

theorem separator_append (a : α) (word xs : List α) :
    separator a word ++ xs = a :: (word ++ a :: xs) := by
  simp only [separator, List.cons_append, List.append_assoc, List.nil_append]

theorem exists_append_of_notMem (ha : a ∉ word) (h : word ++ xs = ys ++ a :: zs) :
    ∃ rest, ys = word ++ rest ∧ xs = rest ++ a :: zs := by
  rcases List.append_eq_append_iff.mp h with ⟨rest, hys, hxs⟩ | ⟨rest, hword, hzs⟩
  · exact ⟨rest, hys, hxs⟩
  · cases rest with
    | nil => exact ⟨[], by simpa using hword.symm, hzs.symm⟩
    | cons b rest =>
      cases (List.cons.inj hzs).1
      exact absurd (by simp [hword]) ha

/-- Two separators that overlap have no more than one mark in common: if a text goes on with a
separator both at once and after a gap, then the gap and the mark behind it hold the first one, and
the mark that ends the first one and what follows it hold the second. -/
theorem separator_of_gap (ha : a ∉ word) (hgap : gap ≠ [])
    (h : separator a word ++ back = gap ++ (separator a word ++ xs)) :
    separator a word <+: gap ++ [a] ∧ separator a word <:+: a :: back := by
  obtain ⟨b, gap, rfl⟩ := List.exists_cons_of_ne_nil hgap
  rw [separator_append, separator_append, List.cons_append] at h
  obtain ⟨rfl, htail⟩ := List.cons.inj h
  obtain ⟨rest, rfl, hback⟩ := exists_append_of_notMem ha htail
  constructor
  · cases rest with
    | nil => exact ⟨[], by simp [separator]⟩
    | cons b rest =>
      cases (List.cons.inj hback).1
      exact ⟨rest ++ [a], by simp [separator]⟩
  · rw [hback, ← separator_append]
    exact List.infix_append' rest _ xs

/-- A text is cut at a separator in one way only, unless the separator can be found in the front part
and its mark, or in the mark and the back part. -/
theorem exists_cut_ne_iff (front back : List α) (ha : a ∉ word) :
    (∃ front' back', (front', back') ≠ (front, back) ∧
      front' ++ (separator a word ++ back') = front ++ (separator a word ++ back)) ↔
    separator a word <:+: front ++ [a] ∨ separator a word <:+: a :: back := by
  constructor
  · rintro ⟨front', back', hne, h⟩
    -- one front part is the other one and a gap, in which the next separator begins
    rcases List.append_eq_append_iff.mp h with ⟨gap, rfl, hgap⟩ | ⟨gap, rfl, hgap⟩
    · have hnil : gap ≠ [] := by
        rintro rfl
        exact hne (by simpa using hgap)
      left
      rw [List.append_assoc]
      exact (separator_of_gap ha hnil hgap).1.isInfix.trans (List.suffix_append _ _).isInfix
    · have hnil : gap ≠ [] := by
        rintro rfl
        exact hne (by simpa using hgap.symm)
      exact .inr (separator_of_gap ha hnil hgap).2
  · rintro (⟨before, after, h⟩ | ⟨before, after, h⟩)
    · refine ⟨before, after ++ (word ++ a :: back), fun he => ?_, ?_⟩
      · have hlen := congrArg List.length h
        rw [(Prod.mk.inj he).1] at hlen
        simp only [separator, List.length_append, List.length_cons, List.length_nil] at hlen
        omega
      · calc before ++ (separator a word ++ (after ++ (word ++ a :: back)))
          _ = before ++ separator a word ++ after ++ (word ++ a :: back) := by
            simp only [List.append_assoc]
          _ = front ++ [a] ++ (word ++ a :: back) := by rw [h]
          _ = front ++ (separator a word ++ back) := by
            simp only [separator_append, List.append_assoc, List.singleton_append]
    · refine ⟨front ++ a :: (word ++ before), after, fun he => ?_, ?_⟩
      · have hlen := congrArg List.length (Prod.mk.inj he).1
        simp only [List.length_append, List.length_cons] at hlen
        omega
      · calc front ++ a :: (word ++ before) ++ (separator a word ++ after)
          _ = front ++ a :: (word ++ (before ++ separator a word ++ after)) := by
            simp only [List.append_assoc, List.cons_append]
          _ = front ++ a :: (word ++ a :: back) := by rw [h]
          _ = front ++ (separator a word ++ back) := by rw [separator_append]

end Linkage.Text
