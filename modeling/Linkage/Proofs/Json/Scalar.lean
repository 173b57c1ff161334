import Linkage.Json.Token
import Linkage.Json.Value

namespace Linkage.Json

open Document

def Part.Means (p : Part) (c : Char) : Prop :=
  ∀ ps, joinParts (p :: ps) = (joinParts ps).map (c :: ·)

theorem Part.Means.char (c : Char) : (Part.char c).Means c := fun _ => by rw [joinParts]

theorem Part.Means.unit {c : Char} (h : c.toNat < 0x20) : (Part.unit c.toNat).Means c := by
  intro ps
  have hhigh : isHigh c.toNat = false := by simp [isHigh]; omega
  have hlow : isLow c.toNat = false := by simp [isLow]; omega
  have hchar := Char.ofNat_toNat c
  rcases ps with _ | ⟨_ | m, ps⟩
  all_goals simp [joinParts, hhigh, hlow, hchar]

theorem hexNumber_control {n : Nat} (h : n < 0x20) :
    Text.hexNumber ['0', '0', Nat.digitChar (n / 16), Nat.digitChar (n % 16)] = some n := by
  revert h
  revert n
  decide

theorem stringParts_control {n : Nat} (h : n < 0x20) (rest : List Char) :
    stringParts (['\\', 'u', '0', '0', Nat.digitChar (n / 16), Nat.digitChar (n % 16)] ++ rest) =
      (stringParts rest).map fun r => (.unit n :: r.1, r.2) := by
  simp only [List.cons_append, List.nil_append, stringParts, hexNumber_control h]
  cases stringParts rest <;> rfl

theorem stringParts_short {e c : Char} (he : simpleEscape e = some c) (rest : List Char) :
    stringParts (['\\', e] ++ rest) = (stringParts rest).map fun r => (.char c :: r.1, r.2) := by
  have hu : e ≠ 'u' := by
    rintro rfl
    cases he
  simp only [List.cons_append, List.nil_append]
  rw [stringParts, he]
  · cases stringParts rest <;> rfl
  · exact fun _ _ _ _ _ h _ => hu h

theorem stringParts_plain {c : Char} (hq : c ≠ '"') (hb : c ≠ '\\') (hc : ¬ c.toNat < 0x20)
    (rest : List Char) :
    stringParts ([c] ++ rest) = (stringParts rest).map fun r => (.char c :: r.1, r.2) := by
  simp only [List.cons_append, List.nil_append]
  rw [stringParts]
  · simp only [hb, hc, decide_false, Bool.or_self, Bool.false_eq_true, ↓reduceIte]
    cases stringParts rest <;> rfl
  · exact hq
  · exact fun _ _ _ _ _ h _ => hb h
  · exact fun _ _ h _ => hb h

/-- What a character is written as is one part of a string, which stands for the character. -/
theorem stringParts_escaped (c : Char) :
    ∃ p : Part, p.Means c ∧ ∀ rest, stringParts (escaped c ++ rest) =
      (stringParts rest).map fun r => (p :: r.1, r.2) := by
  unfold escaped
  split
  · next h =>
    rcases h with rfl | rfl
    · exact ⟨_, .char _, stringParts_short rfl⟩
    · exact ⟨_, .char _, stringParts_short rfl⟩
  next hq =>
  split
  · next h => subst h; exact ⟨_, .char _, stringParts_short rfl⟩
  split
  · next h => subst h; exact ⟨_, .char _, stringParts_short rfl⟩
  split
  · next h => subst h; exact ⟨_, .char _, stringParts_short rfl⟩
  split
  · next h => subst h; exact ⟨_, .char _, stringParts_short rfl⟩
  split
  · next h => subst h; exact ⟨_, .char _, stringParts_short rfl⟩
  split
  · next h => exact ⟨_, .unit h, stringParts_control h⟩
  · next h =>
    rw [not_or] at hq
    exact ⟨_, .char _, stringParts_plain hq.1 hq.2 h⟩

theorem stringParts_flatMap_escaped (cs rest : List Char) :
    ∃ ps, stringParts (cs.flatMap escaped ++ '"' :: rest) = some (ps, rest) ∧
      joinParts ps = some cs := by
  induction cs with
  | nil => exact ⟨[], by rw [List.flatMap_nil, List.nil_append, stringParts], by rw [joinParts]⟩
  | cons c cs ih =>
    obtain ⟨ps, hs, hj⟩ := ih
    obtain ⟨p, hp, he⟩ := stringParts_escaped c
    refine ⟨p :: ps, ?_, ?_⟩
    · rw [List.flatMap_cons, List.append_assoc, he, hs, Option.map_some]
    · rw [hp, hj, Option.map_some]

theorem next_stringChars (s : String) (rest : List Char) :
    Token.next (stringChars s ++ rest) = (.string (some s), rest) := by
  obtain ⟨ps, hs, hj⟩ := stringParts_flatMap_escaped s.toList rest
  simp only [stringChars, List.cons_append, List.append_assoc, List.nil_append, Token.next, hs, hj,
    Option.map_some, String.ofList_toList]

def EndsNumber (rest : List Char) : Prop :=
  ∀ c ∈ rest.head?, c.isDigit = false ∧ c ≠ '.' ∧ c ≠ 'e' ∧ c ≠ 'E'

theorem endsNumber_nil : EndsNumber [] := fun _ h => by cases h

theorem endsNumber_cons {c : Char} (rest : List Char)
    (h : c.isDigit = false ∧ c ≠ '.' ∧ c ≠ 'e' ∧ c ≠ 'E') : EndsNumber (c :: rest) := by
  intro d hd
  cases hd
  exact h

theorem someDigits_append {ds rest : List Char} (hne : ds ≠ []) (hd : ∀ c ∈ ds, c.isDigit = true)
    (hr : EndsNumber rest) : someDigits (ds ++ rest) = some (ds, rest) := by
  have hstop : rest.takeWhile Char.isDigit = [] ∧ rest.dropWhile Char.isDigit = rest := by
    cases rest with
    | nil => exact ⟨rfl, rfl⟩
    | cons c cs => simp [(hr c rfl).1]
  unfold someDigits
  rw [List.takeWhile_append_of_pos hd, List.dropWhile_append_of_pos hd, hstop.1, hstop.2,
    List.append_nil]
  cases ds with
  | nil => exact absurd rfl hne
  | cons d ds => rfl

theorem digitChar_ne_zero {n : Nat} (h : n < 10) (hn : n ≠ 0) : n.digitChar ≠ '0' := by
  revert hn
  revert h
  revert n
  decide

theorem head?_toDigits_ne_zero {n : Nat} (h : n ≠ 0) :
    (Nat.toDigits 10 n).head? ≠ some '0' := by
  induction n using Nat.strongRecOn with
  | ind n ih =>
    rw [Nat.toDigits_eq_if (by decide)]
    split
    · next hlt =>
      rw [List.head?_singleton, ne_eq, Option.some.injEq]
      exact digitChar_ne_zero hlt h
    · next hle =>
      have hne : (Nat.toDigits 10 (n / 10)).head?.isSome := by
        simp [Nat.toDigits_ne_nil]
      rw [List.head?_append, Option.or_of_isSome hne]
      exact ih (n / 10) (by omega) (by omega)

theorem absorb_of_le {ds : List Char} {n taken : Nat}
    (h : Nat.ofDigitChars 10 ds n ≤ maxWord) :
    absorb n taken ds = (Nat.ofDigitChars 10 ds n, taken + ds.length) := by
  induction ds generalizing n taken with
  | nil => rfl
  | cons d ds ih =>
    rw [Nat.ofDigitChars_cons] at h ⊢
    have hle : 10 * n + (d.toNat - '0'.toNat) ≤ maxWord := by
      refine Nat.le_trans ?_ h
      rw [Nat.ofDigitChars_eq_ofDigitChars_zero]
      exact Nat.le_add_right_of_le (Nat.le_mul_of_pos_left _ (Nat.pow_pos (by decide)))
    rw [absorb, if_pos hle, ih h, List.length_cons]
    congr 1
    omega

theorem wholePart_toDigits (n : Nat) {rest : List Char} (hr : EndsNumber rest) :
    wholePart (Nat.toDigits 10 n ++ rest) = some (Nat.toDigits 10 n, rest) := by
  have hd : ∀ c ∈ Nat.toDigits 10 n, c.isDigit = true :=
    fun c hc => Nat.isDigit_of_mem_toDigits (by decide) (by decide) hc
  unfold wholePart
  rw [someDigits_append Nat.toDigits_ne_nil hd hr]
  by_cases hn : n = 0
  · subst hn
    simp [Nat.toDigits_zero]
  · simp [head?_toDigits_ne_zero hn]

theorem fractionPart_of_ends {rest : List Char} (hr : EndsNumber rest) :
    fractionPart rest = some (none, rest) := by
  rw [fractionPart]
  rintro cs rfl
  exact (hr '.' rfl).2.1 rfl

theorem exponentPart_of_ends {rest : List Char} (hr : EndsNumber rest) :
    exponentPart rest = some (none, rest) := by
  cases rest with
  | nil => rfl
  | cons c cs =>
    obtain ⟨-, -, he, hE⟩ := hr c rfl
    simp [exponentPart, he, hE]

theorem numberOf_toDigits {n : Nat} (h : n ≤ maxWord) :
    numberOf false (Nat.toDigits 10 n) none none = .integer n := by
  have hn : Nat.ofDigitChars 10 (Nat.toDigits 10 n) 0 = n := Nat.ofDigitChars_ten_toDigits
  have ha : absorb 0 0 (Nat.toDigits 10 n) = (n, (Nat.toDigits 10 n).length) := by
    rw [absorb_of_le (Nat.le_trans (Nat.le_of_eq hn) h), hn, Nat.zero_add]
  simp [numberOf, ha]

theorem unsigned_toDigits {n : Nat} (h : n ≤ maxWord) {rest : List Char} (hr : EndsNumber rest) :
    unsigned false (Nat.toDigits 10 n ++ rest) = some (.integer n, rest) := by
  simp [unsigned, wholePart_toDigits n hr, fractionPart_of_ends hr, exponentPart_of_ends hr,
    numberOf_toDigits h]

theorem next_of_isDigit {c : Char} (hc : c.isDigit = true) {cs rest : List Char} {n : Node}
    (h : unsigned false (c :: cs) = some (n, rest)) :
    Token.next (c :: cs) = (.scalar n, rest) := by
  have hminus : readNumber (c :: cs) = some (n, rest) := by
    rw [readNumber, h]
    rintro ds heq
    cases heq
    cases hc
  rw [Token.next.eq_def]
  split
  all_goals simp_all

theorem next_number {n : Nat} (h : n ≤ maxWord) {rest : List Char} (hr : EndsNumber rest) :
    Token.next ((toString n).toList ++ rest) = (.scalar (.integer n), rest) := by
  have hu := unsigned_toDigits h hr
  rw [Nat.toString_eq_ofList_toDigits, String.toList_ofList]
  cases hd : Nat.toDigits 10 n with
  | nil => exact absurd hd Nat.toDigits_ne_nil
  | cons c cs =>
    rw [hd, List.cons_append] at hu
    refine next_of_isDigit ?_ hu
    exact Nat.isDigit_of_mem_toDigits (by decide) (by decide) (hd ▸ List.mem_cons_self)

end Linkage.Json
