import Linkage.Json.Number
import Linkage.Text.Hex

namespace Linkage.Json

open Document

inductive Token where
  | openArray | closeArray | openObject | closeObject | comma | colon
  | string (s : Option String)
  | scalar (n : Node)
  | bad

def isBlank (c : Char) : Bool :=
  c = ' ' || c = '\n' || c = '\t' || c = '\r'

def isHigh (n : Nat) : Bool := 0xD800 ≤ n && n ≤ 0xDBFF

def isLow (n : Nat) : Bool := 0xDC00 ≤ n && n ≤ 0xDFFF

inductive Part where
  | char (c : Char)
  | unit (n : Nat)
deriving DecidableEq, Repr

def simpleEscape (c : Char) : Option Char :=
  match c with
  | '"' => some '"'
  | '\\' => some '\\'
  | '/' => some '/'
  | 'b' => some '\x08'
  | 'f' => some '\x0c'
  | 'n' => some '\n'
  | 'r' => some '\r'
  | 't' => some '\t'
  | _ => none

def stringParts : List Char → Option (List Part × List Char)
  | [] => none
  | '"' :: rest => some ([], rest)
  | '\\' :: 'u' :: a :: b :: c :: d :: rest => do
    let n ← Text.hexNumber [a, b, c, d]
    let (ps, rest) ← stringParts rest
    some (.unit n :: ps, rest)
  | '\\' :: e :: rest => do
    let c ← simpleEscape e
    let (ps, rest) ← stringParts rest
    some (.char c :: ps, rest)
  | c :: rest =>
    if c = '\\' || c.toNat < 0x20 then none
    else do
      let (ps, rest) ← stringParts rest
      some (.char c :: ps, rest)

/-- The text of some parts. Units between 0xD800 and 0xDFFF mean something in pairs only. -/
def joinParts : List Part → Option (List Char)
  | [] => some []
  | .char c :: ps => (joinParts ps).map (c :: ·)
  | .unit n :: .unit m :: ps =>
    if isHigh n then
      if isLow m then
        (joinParts ps).map (Char.ofNat (0x10000 + (n - 0xD800) * 0x400 + (m - 0xDC00)) :: ·)
      else none
    else if isLow n then none
    else (joinParts (.unit m :: ps)).map (Char.ofNat n :: ·)
  | .unit n :: ps =>
    if isHigh n || isLow n then none else (joinParts ps).map (Char.ofNat n :: ·)

def Token.next : List Char → Token × List Char
  | [] => (.bad, [])
  | '[' :: cs => (.openArray, cs)
  | ']' :: cs => (.closeArray, cs)
  | '\x7b' :: cs => (.openObject, cs)
  | '\x7d' :: cs => (.closeObject, cs)
  | ',' :: cs => (.comma, cs)
  | ':' :: cs => (.colon, cs)
  | '"' :: cs =>
    match stringParts cs with
    | some (ps, rest) => (.string ((joinParts ps).map String.ofList), rest)
    | none => (.bad, [])
  | 'n' :: 'u' :: 'l' :: 'l' :: cs => (.scalar .null, cs)
  | 't' :: 'r' :: 'u' :: 'e' :: cs => (.scalar (.boolean true), cs)
  | 'f' :: 'a' :: 'l' :: 's' :: 'e' :: cs => (.scalar (.boolean false), cs)
  | cs =>
    match readNumber cs with
    | some (n, rest) => (.scalar n, rest)
    | none => (.bad, [])

theorem stringParts_length {cs rest : List Char} {ps : List Part}
    (h : stringParts cs = some (ps, rest)) : rest.length < cs.length := by
  fun_induction stringParts cs generalizing ps rest <;>
    simp_all [Option.bind_eq_some_iff] <;> grind

theorem someDigits_length {cs ds rest : List Char} (h : someDigits cs = some (ds, rest)) :
    rest.length < cs.length := by
  unfold someDigits at h
  split at h
  · simp at h
  · next hne =>
    simp only [Option.some.injEq, Prod.mk.injEq] at h
    have hsum := congrArg List.length (List.takeWhile_append_dropWhile (p := Char.isDigit) (l := cs))
    rw [List.length_append] at hsum
    have hpos : 0 < (cs.takeWhile Char.isDigit).length := List.length_pos_iff.2 (by simpa using hne)
    rw [← h.2]
    omega

theorem wholePart_length {cs ds rest : List Char} (h : wholePart cs = some (ds, rest)) :
    rest.length < cs.length := by
  simp only [wholePart, Option.bind_eq_bind, Option.bind_eq_some_iff] at h
  obtain ⟨⟨es, cs'⟩, hd, h⟩ := h
  split at h
  · simp at h
  · simp only [Option.some.injEq, Prod.mk.injEq] at h
    exact h.2 ▸ someDigits_length hd

theorem fractionPart_length {cs rest : List Char} {f : Option (List Char)}
    (h : fractionPart cs = some (f, rest)) : rest.length ≤ cs.length := by
  unfold fractionPart at h
  split at h
  · obtain ⟨⟨ds, r⟩, hd, h⟩ := Option.map_eq_some_iff.1 h
    simp only [Prod.mk.injEq] at h
    have := someDigits_length hd
    simp only [List.length_cons, ← h.2]
    omega
  · simp only [Option.some.injEq, Prod.mk.injEq] at h
    simp [h.2]

theorem exponentDigits_length {cs rest : List Char} {e : Bool × List Char}
    (h : exponentDigits cs = some (e, rest)) : rest.length ≤ cs.length := by
  unfold exponentDigits at h
  split at h <;>
  · obtain ⟨⟨ds, r⟩, hd, h⟩ := Option.map_eq_some_iff.1 h
    simp only [Prod.mk.injEq] at h
    have := someDigits_length hd
    simp only [List.length_cons, ← h.2]
    omega

theorem exponentPart_length {cs rest : List Char} {e : Option (Bool × List Char)}
    (h : exponentPart cs = some (e, rest)) : rest.length ≤ cs.length := by
  unfold exponentPart at h
  split at h
  · split at h
    · obtain ⟨⟨ds, r⟩, hd, h⟩ := Option.map_eq_some_iff.1 h
      simp only [Prod.mk.injEq] at h
      have := exponentDigits_length hd
      simp only [List.length_cons, ← h.2]
      omega
    · simp only [Option.some.injEq, Prod.mk.injEq] at h
      simp [← h.2]
  · simp only [Option.some.injEq, Prod.mk.injEq] at h
    simp [← h.2]

theorem unsigned_length {negative : Bool} {cs rest : List Char} {n : Node}
    (h : unsigned negative cs = some (n, rest)) : rest.length < cs.length := by
  simp only [unsigned, Option.bind_eq_bind, Option.bind_eq_some_iff] at h
  obtain ⟨⟨w, cs₁⟩, hw, ⟨f, cs₂⟩, hf, ⟨e, cs₃⟩, he, h⟩ := h
  simp only [Option.some.injEq, Prod.mk.injEq] at h
  have h1 := wholePart_length hw
  have h2 := fractionPart_length hf
  have h3 := exponentPart_length he
  simp only at h2 h3
  rw [← h.2]
  omega

theorem readNumber_length {cs rest : List Char} {n : Node}
    (h : readNumber cs = some (n, rest)) : rest.length < cs.length := by
  unfold readNumber at h
  split at h
  · have := unsigned_length h
    simp only [List.length_cons]
    omega
  · exact unsigned_length h

theorem Token.next_length {cs : List Char} (h : cs ≠ []) :
    (Token.next cs).2.length < cs.length := by
  fun_cases Token.next cs with
  | case1 => exact absurd rfl h
  | case8 cs ps rest hs =>
    have := stringParts_length hs
    simp only [List.length_cons]
    omega
  | case9 => simp
  | case13 =>
    rename_i hn
    exact readNumber_length hn
  | case14 => exact List.length_pos_iff.2 h
  | _ => simp only [List.length_cons]; omega

def tokens (cs : List Char) : List Token :=
  match _h : cs.dropWhile isBlank with
  | [] => []
  | c :: rest =>
    let r := Token.next (c :: rest)
    r.1 :: tokens r.2
termination_by cs.length
decreasing_by
  have hn := Token.next_length (List.cons_ne_nil c rest)
  have hd := (List.dropWhile_sublist isBlank (l := cs)).length_le
  rw [_h] at hd
  omega

end Linkage.Json
