import Linkage.Text.Hex

namespace Linkage.Toml

structure Remaining (cs : List Char) where
  rest : List Char
  le : rest.length ≤ cs.length

/-- What is behind a part of a text that is not empty. -/
structure Shorter (cs : List Char) where
  rest : List Char
  lt : rest.length < cs.length

variable {cs : List Char}

namespace Remaining

def whole (cs : List Char) : Remaining cs := ⟨cs, Nat.le_refl _⟩

def after (r : Remaining cs) (c : Char) : Shorter (c :: cs) :=
  ⟨r.rest, Nat.lt_succ_of_le r.le⟩

def remaining (r : Remaining cs) (s : Remaining r.rest) : Remaining cs :=
  ⟨s.rest, Nat.le_trans s.le r.le⟩

def shorter (r : Remaining cs) (s : Shorter r.rest) : Shorter cs :=
  ⟨s.rest, Nat.lt_of_lt_of_le s.lt r.le⟩

def shorter? (r : Remaining cs) : Option (Shorter cs) :=
  if h : r.rest.length < cs.length then some ⟨r.rest, h⟩ else none

end Remaining

namespace Shorter

def after (s : Shorter cs) (c : Char) : Shorter (c :: cs) :=
  ⟨s.rest, Nat.lt_succ_of_lt s.lt⟩

def atMost (s : Shorter cs) : Remaining cs :=
  ⟨s.rest, Nat.le_of_lt s.lt⟩

def remaining (s : Shorter cs) (r : Remaining s.rest) : Shorter cs :=
  ⟨r.rest, Nat.lt_of_le_of_lt r.le s.lt⟩

def shorter (s : Shorter cs) (t : Shorter s.rest) : Shorter cs :=
  ⟨t.rest, Nat.lt_trans t.lt s.lt⟩

end Shorter

def isBlank (c : Char) : Bool := c = ' ' || c = '\t'

def isText (c : Char) : Bool := c = '\t' || (0x20 ≤ c.toNat && c.toNat ≠ 0x7F)

def one (p : Char → Bool) : (cs : List Char) → Option (Shorter cs)
  | c :: rest => if p c then some ((Remaining.whole rest).after c) else none
  | [] => none

def marks : List Char → (cs : List Char) → Option (Remaining cs)
  | [], cs => some (.whole cs)
  | m :: ms, cs => do
    let s ← one (· = m) cs
    let r ← marks ms s.rest
    some (s.remaining r).atMost

def skipWhile (p : Char → Bool) (cs : List Char) : Remaining cs :=
  ⟨cs.dropWhile p, (List.dropWhile_sublist p).length_le⟩

def skipBlanks (cs : List Char) : Remaining cs := skipWhile isBlank cs

def newline : (cs : List Char) → Option (Shorter cs)
  | '\n' :: rest => some ((Remaining.whole rest).after '\n')
  | '\r' :: '\n' :: rest => some (((Remaining.whole rest).after '\n').after '\r')
  | _ => none

def comment (cs : List Char) : Option (Shorter cs) :=
  (one (· = '#') cs).map fun s => s.remaining (skipWhile isText s.rest)

def skipOne (part : (cs : List Char) → Option (Shorter cs)) (cs : List Char) : Remaining cs :=
  match part cs with
  | some s => s.atMost
  | none => .whole cs

def skipMany (part : (cs : List Char) → Option (Shorter cs)) (cs : List Char) : Remaining cs :=
  match part cs with
  | some s => (s.remaining (skipMany part s.rest)).atMost
  | none => .whole cs
termination_by cs.length
decreasing_by exact s.lt

def restOfLine (cs : List Char) : Option (Remaining cs) :=
  let r := skipBlanks cs
  let r := r.remaining (skipOne comment r.rest)
  if r.rest.isEmpty then some r
  else (newline r.rest).map fun s => (r.shorter s).atMost

def skipSpace (cs : List Char) : Remaining cs :=
  skipMany (fun cs => (one isBlank cs).or (newline cs)) cs

def skipLines (cs : List Char) : Remaining cs :=
  skipMany (fun cs => ((one isBlank cs).or (newline cs)).or (comment cs)) cs

/-- A piece of a string: a part of its text, or its end with what stands there before the closing
mark. -/
inductive Piece where
  | text (cs : List Char)
  | close (cs : List Char)

def gather (piece : (cs : List Char) → Option (Piece × Shorter cs)) (cs : List Char) :
    Option (List Char × Shorter cs) :=
  match piece cs with
  | none => none
  | some (.close t, s) => some (t, s)
  | some (.text t, s) => (gather piece s.rest).map fun r => (t ++ r.1, s.shorter r.2)
termination_by cs.length
decreasing_by exact s.lt

def charOf (n : Nat) : Option Char :=
  if n.isValidChar then some (Char.ofNat n) else none

def hexEscape (count : Nat) (cs : List Char) : Option (Piece × Remaining cs) :=
  if cs.length < count then none
  else do
    let c ← charOf (← Text.hexNumber (cs.take count))
    some (.text [c], ⟨cs.drop count, (List.drop_sublist count cs).length_le⟩)

def simpleEscape (c : Char) : Option Char :=
  match c with
  | 'b' => some '\x08'
  | 't' => some '\t'
  | 'n' => some '\n'
  | 'f' => some '\x0c'
  | 'r' => some '\r'
  | '"' => some '"'
  | '\\' => some '\\'
  | _ => none

def escape : (cs : List Char) → Option (Piece × Shorter cs)
  | 'u' :: rest => (hexEscape 4 rest).map fun r => (r.1, r.2.after 'u')
  | 'U' :: rest => (hexEscape 8 rest).map fun r => (r.1, r.2.after 'U')
  | e :: rest => (simpleEscape e).map fun c => (.text [c], (Remaining.whole rest).after e)
  | [] => none

def plainPiece : (cs : List Char) → Option (Piece × Shorter cs)
  | c :: rest => if isText c then some (.text [c], (Remaining.whole rest).after c) else none
  | [] => none

def basicPiece : (cs : List Char) → Option (Piece × Shorter cs)
  | '"' :: rest => some (.close [], (Remaining.whole rest).after '"')
  | '\\' :: rest => (escape rest).map fun r => (r.1, r.2.after '\\')
  | cs => plainPiece cs

def literalPiece : (cs : List Char) → Option (Piece × Shorter cs)
  | '\'' :: rest => some (.close [], (Remaining.whole rest).after '\'')
  | cs => plainPiece cs

/-- A mark of a string over several lines. Three end the string, and up to two before them still
belong to it. -/
def closing (mark : Char) (cs : List Char) : Option (Piece × Shorter cs) := do
  let first ← one (· = mark) cs
  match marks [mark, mark] first.rest with
  | none => some (.text [mark], first)
  | some r =>
    let s := first.remaining r
    match marks [mark, mark] s.rest, one (· = mark) s.rest with
    | some r, _ => some (.close [mark, mark], s.remaining r)
    | none, some t => some (.close [mark], s.shorter t)
    | none, none => some (.close [], s)

def lineBreak (cs : List Char) : Option (Piece × Shorter cs) :=
  (newline cs).map fun s => (.text ['\n'], s)

def continuation (cs : List Char) : Option (Piece × Shorter cs) :=
  let r := skipBlanks cs
  (newline r.rest).map fun s => (.text [], r.shorter (s.remaining (skipSpace s.rest)))

def longBasicPiece : (cs : List Char) → Option (Piece × Shorter cs)
  | '"' :: rest => closing '"' ('"' :: rest)
  | '\\' :: rest => ((continuation rest).or (escape rest)).map fun r => (r.1, r.2.after '\\')
  | cs => (plainPiece cs).or (lineBreak cs)

def longLiteralPiece : (cs : List Char) → Option (Piece × Shorter cs)
  | '\'' :: rest => closing '\'' ('\'' :: rest)
  | cs => (plainPiece cs).or (lineBreak cs)

def shortString : (cs : List Char) → Option (String × Shorter cs)
  | '"' :: rest => (gather basicPiece rest).map fun r => (String.ofList r.1, r.2.after '"')
  | '\'' :: rest => (gather literalPiece rest).map fun r => (String.ofList r.1, r.2.after '\'')
  | _ => none

/-- A string over several lines, behind its three marks. A line end right behind them is not part of
it. -/
def longString (piece : (cs : List Char) → Option (Piece × Shorter cs)) (r : Remaining cs) :
    Option (String × Shorter cs) :=
  let r := r.remaining (skipOne newline r.rest)
  (gather piece r.rest).map fun s => (String.ofList s.1, r.shorter s.2)

def string (cs : List Char) : Option (String × Shorter cs) :=
  match marks ['"', '"', '"'] cs, marks ['\'', '\'', '\''] cs with
  | some r, _ => longString longBasicPiece r
  | none, some r => longString longLiteralPiece r
  | none, none => shortString cs

def isBare (c : Char) : Bool := c.isAlphanum || c = '-' || c = '_'

def keyPart (cs : List Char) : Option (String × Shorter cs) :=
  match (skipWhile isBare cs).shorter? with
  | some s => some (String.ofList (cs.takeWhile isBare), s)
  | none => shortString cs

def keyPath (cs : List Char) : Option (List String × Shorter cs) := do
  let r := skipBlanks cs
  let (k, s) ← keyPart r.rest
  let s := r.shorter (s.remaining (skipBlanks s.rest))
  match one (· = '.') s.rest with
  | some t => do
    let (ks, u) ← keyPath t.rest
    some (k :: ks, s.shorter (t.shorter u))
  | none => some ([k], s)
termination_by cs.length
decreasing_by exact (s.shorter t).lt

end Linkage.Toml
