namespace Linkage.Text

/-- The code points of the Unicode property White_Space. -/
def isBlank (c : Char) : Bool :=
  let n := c.toNat
  (9 ≤ n && n ≤ 13) || n == 0x20 || n == 0x85 || n == 0xA0 || n == 0x1680 ||
    (0x2000 ≤ n && n ≤ 0x200A) || n == 0x2028 || n == 0x2029 || n == 0x202F ||
    n == 0x205F || n == 0x3000

def dropEndWhile (p : Char → Bool) (cs : List Char) : List Char :=
  (cs.reverse.dropWhile p).reverse

def strip (cs : List Char) : List Char :=
  dropEndWhile isBlank (cs.dropWhile isBlank)

def trim (s : String) : String :=
  String.ofList (strip s.toList)

/-- The pieces between the occurrences of a separator; there is always at least one. -/
def pieces (sep : Char) : List Char → List (List Char)
  | [] => [[]]
  | c :: cs =>
    if c = sep then [] :: pieces sep cs
    else match pieces sep cs with
      | [] => [[c]]
      | p :: ps => (c :: p) :: ps

def lower (s : String) : String :=
  s.map Char.toLower

theorem dropEndWhile_append (p : Char → Bool) (cs ds : List Char) (h : ∀ c ∈ ds, p c = true) :
    dropEndWhile p (cs ++ ds) = dropEndWhile p cs := by
  simp only [dropEndWhile, List.reverse_append]
  rw [List.dropWhile_append_of_pos]
  simpa using h

end Linkage.Text
