import Linkage.Number.Shortest
import Linkage.Toml.Value

namespace Linkage.Toml

def underscored (digit : Char → Bool) : List Char → Option (List Char)
  | [] => none
  | [c] => if digit c then some [c] else none
  | c :: '_' :: rest => if digit c then (underscored digit rest).map (c :: ·) else none
  | c :: rest => if digit c then (underscored digit rest).map (c :: ·) else none

def decimalDigits (cs : List Char) : Option (List Char) :=
  match underscored Char.isDigit cs with
  | some ds => if ds.head? = some '0' && cs.length ≠ 1 then none else some ds
  | none => none

def digitValue (c : Char) : Nat :=
  if c.isDigit then c.toNat - '0'.toNat
  else if 'a' ≤ c then c.toNat - 'a'.toNat + 10
  else c.toNat - 'A'.toNat + 10

def valueIn (base : Nat) (ds : List Char) : Nat :=
  ds.foldl (fun n c => base * n + digitValue c) 0

def signed : List Char → Bool × List Char
  | '+' :: cs => (false, cs)
  | '-' :: cs => (true, cs)
  | cs => (false, cs)

def inRange (n : Int) : Option Int :=
  if -0x8000000000000000 ≤ n && n < 0x8000000000000000 then some n else none

def isHexDigit (c : Char) : Bool :=
  c.isDigit || ('a' ≤ c && c ≤ 'f') || ('A' ≤ c && c ≤ 'F')

def isOctalDigit (c : Char) : Bool := '0' ≤ c && c ≤ '7'

def isBinaryDigit (c : Char) : Bool := c = '0' || c = '1'

def integer? (cs : List Char) : Option Int :=
  match cs with
  | '0' :: 'x' :: ds => ((underscored isHexDigit ds).map fun ds => (valueIn 16 ds : Int)).bind inRange
  | '0' :: 'o' :: ds =>
    ((underscored isOctalDigit ds).map fun ds => (valueIn 8 ds : Int)).bind inRange
  | '0' :: 'b' :: ds =>
    ((underscored isBinaryDigit ds).map fun ds => (valueIn 2 ds : Int)).bind inRange
  | cs =>
    let (negative, ds) := signed cs
    (decimalDigits ds).bind fun ds =>
      let n : Int := valueIn 10 ds
      inRange (if negative then -n else n)

open Number in
/-- The magnitude nearest to `n * 10 ^ e`; one beyond all finite ones if it is too large. Where the
exponent alone decides, no power is computed. -/
def magnitude (n : Nat) (e : Int) : Nat :=
  let top := ((Nat.toDigits 10 n).length : Int) + e
  if n = 0 || top < -400 then 0
  else if 400 < top then beyond
  else
    let (num, den) := tenTo e
    nearest (n * num) den

open Number in
def floatText (negative : Bool) (units : Nat) : String :=
  let text := if isInfinite units then "inf" else (shortest .up units).positional
  if negative then "-" ++ text else text

def exponent? (cs : List Char) : Option Int :=
  let (negative, ds) := signed cs
  (underscored Char.isDigit ds).map fun ds =>
    let n : Int := valueIn 10 ds
    if negative then -n else n

def isExponentMark (c : Char) : Bool := c = 'e' || c = 'E'

/-- A float; one that is too large is refused unless it is negative. -/
def float? (cs : List Char) : Option String :=
  let (negative, body) := signed cs
  if body = "inf".toList then some (if negative then "-inf" else "inf")
  else if body = "nan".toList then some "NaN"
  else
    let (mantissa, exponent) := body.span fun c => !isExponentMark c
    let (whole, fraction) := mantissa.span (· ≠ '.')
    if fraction.isEmpty && exponent.isEmpty then none
    else do
      let whole ← decimalDigits whole
      let fraction ← match fraction with
        | [] => some []
        | _ :: ds => underscored Char.isDigit ds
      let e ← match exponent with
        | [] => some 0
        | _ :: ds => exponent? ds
      let units := magnitude (valueIn 10 (whole ++ fraction)) (e - fraction.length)
      if Number.isInfinite units && !negative then none else some (floatText negative units)

def fixed (count : Nat) (cs : List Char) : Option (Nat × List Char) :=
  let ds := cs.take count
  if ds.length = count && ds.all Char.isDigit then some (valueIn 10 ds, cs.drop count) else none

def fixedWithin (count low high : Nat) (cs : List Char) : Option (Nat × List Char) := do
  let (n, rest) ← fixed count cs
  if low ≤ n && n ≤ high then some (n, rest) else none

def expect (c : Char) : List Char → Option (List Char)
  | d :: rest => if d = c then some rest else none
  | [] => none

def daysIn (year month : Nat) : Nat :=
  if month = 2 then
    if year % 4 = 0 && (year % 100 ≠ 0 || year % 400 = 0) then 29 else 28
  else if month = 4 || month = 6 || month = 9 || month = 11 then 30
  else 31

def afterDate (cs : List Char) : Option (List Char) := do
  let (year, cs) ← fixed 4 cs
  let cs ← expect '-' cs
  let (month, cs) ← fixedWithin 2 1 12 cs
  let cs ← expect '-' cs
  let (_, cs) ← fixedWithin 2 1 (daysIn year month) cs
  some cs

def afterTime (cs : List Char) : Option (List Char) := do
  let (_, cs) ← fixedWithin 2 0 23 cs
  let cs ← expect ':' cs
  let (_, cs) ← fixedWithin 2 0 59 cs
  let cs ← expect ':' cs
  let (_, cs) ← fixedWithin 2 0 60 cs
  match cs with
  | '.' :: ds => if (ds.takeWhile Char.isDigit).isEmpty then none else some (ds.dropWhile Char.isDigit)
  | cs => some cs

def afterOffset : List Char → Option (List Char)
  | 'Z' :: cs => some cs
  | 'z' :: cs => some cs
  | c :: cs =>
    if c = '+' || c = '-' then do
      let (_, cs) ← fixedWithin 2 0 23 cs
      let cs ← expect ':' cs
      let (_, cs) ← fixedWithin 2 0 59 cs
      some cs
    else none
  | [] => none

def isTime (cs : List Char) : Bool := afterTime cs = some []

def isDate (cs : List Char) : Bool := afterDate cs = some []

def isTimeOfDay (cs : List Char) : Bool :=
  match afterTime cs with
  | some [] => true
  | some rest => afterOffset rest = some []
  | none => false

def isDateTime (cs : List Char) : Bool :=
  match afterDate cs with
  | some (c :: rest) => (c = 'T' || c = 't') && isTimeOfDay rest
  | _ => false

def scalar? (cs : List Char) : Option Value :=
  if cs = "true".toList then some (.boolean true)
  else if cs = "false".toList then some (.boolean false)
  else if isDate cs || isTime cs || isDateTime cs then some (.dateTime (String.ofList cs))
  else match integer? cs with
    | some n => some (.integer n)
    | none => (float? cs).map .float

end Linkage.Toml
