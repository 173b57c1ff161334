import Linkage.Document.Node
import Linkage.Number.Shortest

namespace Linkage.Json

open Document Number

def maxWord : Nat := 0xFFFFFFFFFFFFFFFF

def digitsValue (ds : List Char) : Nat :=
  ds.foldl (fun n c => 10 * n + (c.toNat - '0'.toNat)) 0

def absorb (n taken : Nat) : List Char → Nat × Nat
  | [] => (n, taken)
  | c :: cs =>
    let m := 10 * n + (c.toNat - '0'.toNat)
    if m ≤ maxWord then absorb m (taken + 1) cs else (n, taken)

def scaleDown (units k : Nat) : Nat :=
  if k ≤ 308 then divide units (nearest (Nat.pow 10 k) 1)
  else if units = 0 then 0
  else scaleDown (divide units (nearest (Nat.pow 10 308) 1)) (k - 308)
termination_by k

/-- The magnitude `n * 10 ^ e`, rounded once for the number, once for the power and once for the
result; none if it is too large. -/
def scale (n : Nat) (e : Int) : Option Nat :=
  let units := nearest n 1
  if e < 0 then some (scaleDown units (-e).toNat)
  else if 308 < e then if units = 0 then some 0 else none
  else
    let product := multiply units (nearest (Nat.pow 10 e.toNat) 1)
    if isInfinite product then none else some product

def floatText (negative : Bool) (units : Nat) : String :=
  let d := shortest .even units
  let text := if -5 < d.point && d.point ≤ 16 then d.positional else d.scientific
  if negative then "-" ++ text else text

def float (negative : Bool) (n : Nat) (e : Int) : Node :=
  match scale n e with
  | some units => .float (floatText negative units)
  | none => .flawed .unreadable

def maxExponent : Nat := 0x7FFFFFFF

/-- The number of an integer part, a fraction and an exponent. Digits that do not fit into 64 bits
are left out of the fraction and count as zeros in the integer part. -/
def numberOf (negative : Bool) (whole : List Char) (fraction : Option (List Char))
    (exponent : Option (Bool × List Char)) : Node :=
  let (n, taken) := absorb 0 0 whole
  let dropped := whole.length - taken
  if dropped = 0 && fraction.isNone && exponent.isNone then
    if !negative then .integer n
    else if n = 0 || 0x8000000000000000 < n then float true n 0
    else .integer (-n)
  else
    let (n, behind) := match fraction with
      | some ds => absorb n 0 ds
      | none => (n, 0)
    let start : Int := (dropped : Int) - behind
    match exponent with
    | none => float negative n start
    | some (below, ds) =>
      let e := digitsValue ds
      if e ≤ maxExponent then float negative n (if below then start - e else start + e)
      else if n = 0 || below then float negative 0 0
      else .flawed .unreadable

def someDigits (cs : List Char) : Option (List Char × List Char) :=
  match cs.takeWhile Char.isDigit with
  | [] => none
  | ds => some (ds, cs.dropWhile Char.isDigit)

def wholePart (cs : List Char) : Option (List Char × List Char) := do
  let (ds, rest) ← someDigits cs
  if ds.head? = some '0' && ds.length ≠ 1 then none else some (ds, rest)

def fractionPart : List Char → Option (Option (List Char) × List Char)
  | '.' :: cs => (someDigits cs).map fun r => (some r.1, r.2)
  | cs => some (none, cs)

def exponentDigits : List Char → Option ((Bool × List Char) × List Char)
  | '+' :: cs => (someDigits cs).map fun r => ((false, r.1), r.2)
  | '-' :: cs => (someDigits cs).map fun r => ((true, r.1), r.2)
  | cs => (someDigits cs).map fun r => ((false, r.1), r.2)

def exponentPart (cs : List Char) : Option (Option (Bool × List Char) × List Char) :=
  match cs with
  | c :: rest =>
    if c = 'e' || c = 'E' then (exponentDigits rest).map fun r => (some r.1, r.2)
    else some (none, cs)
  | [] => some (none, [])

def unsigned (negative : Bool) (cs : List Char) : Option (Node × List Char) := do
  let (whole, cs) ← wholePart cs
  let (fraction, cs) ← fractionPart cs
  let (exponent, cs) ← exponentPart cs
  some (numberOf negative whole fraction exponent, cs)

def readNumber : List Char → Option (Node × List Char)
  | '-' :: cs => unsigned true cs
  | cs => unsigned false cs

end Linkage.Json
