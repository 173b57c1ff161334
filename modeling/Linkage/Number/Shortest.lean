import Linkage.Number.Binary64

namespace Linkage.Number

structure Decimal where
  digits : List Char
  point : Int
deriving DecidableEq, Repr

namespace Decimal

def positional (d : Decimal) : String :=
  if d.point ≤ 0 then
    "0." ++ "".pushn '0' (-d.point).toNat ++ String.ofList d.digits
  else
    let n := d.point.toNat
    if d.digits.length ≤ n then
      String.ofList d.digits ++ "".pushn '0' (n - d.digits.length) ++ ".0"
    else String.ofList (d.digits.take n) ++ "." ++ String.ofList (d.digits.drop n)

def scientific (d : Decimal) : String :=
  let e := d.point - 1
  let sign := if e < 0 then "-" else "+"
  let fraction := match d.digits.drop 1 with
    | [] => ""
    | ds => "." ++ String.ofList ds
  String.ofList (d.digits.take 1) ++ fraction ++ "e" ++ sign ++ toString e.natAbs

end Decimal

def tenTo (e : Int) : Nat × Nat :=
  if 0 ≤ e then (Nat.pow 10 e.toNat, 1) else (1, Nat.pow 10 (-e).toNat)

def decade (num den : Nat) : Int :=
  if den ≤ num then ((Nat.toDigits 10 (num / den)).length : Int) - 1
  else
    let n := (Nat.toDigits 10 (den / num)).length
    if den ≤ num * Nat.pow 10 (n - 1) then -((n : Int) - 1) else -(n : Int)

/-- Whether the decimal `d * 10 ^ e` reads back as a magnitude: it lies not further off than half way
to a neighbour, and half way only if the magnitude is the even one. -/
def readsBack (units d : Nat) (e : Int) : Bool :=
  let step := spacing units
  let below := if spacing (units - 1) < step then step else 2 * step
  let (num, den) := tenTo e
  let x := 4 * d * num * one
  let low := (4 * units - below) * den
  let high := (4 * units + 2 * step) * den
  if units / step % 2 = 0 then low ≤ x && x ≤ high else low < x && x < high

inductive Tie where
  | even
  | up
deriving DecidableEq, Repr

def Tie.nearer (tie : Tie) (num den : Nat) : Nat :=
  match tie with
  | .even => divideNearest num den
  | .up => (2 * num + den) / (2 * den)

def withDigits (tie : Tie) (units : Nat) (n : Nat) : Option (Nat × Int) :=
  let e := decade units one - (n : Int) + 1
  let (num, den) := tenTo e
  let scaled := units * den
  let grid := num * one
  let d := scaled / grid
  match readsBack units d e, readsBack units (d + 1) e with
  | true, true => some (tie.nearer scaled grid, e)
  | true, false => some (d, e)
  | false, true => some (d + 1, e)
  | false, false => none

/-- The decimal with the fewest digits that reads back as a magnitude. Seventeen are always
enough. -/
def shortest (tie : Tie) (units : Nat) : Decimal :=
  if units = 0 then ⟨['0'], 1⟩
  else
    let (d, e) := ((List.range 17).findSome? fun i => withDigits tie units (i + 1)).getD (0, 0)
    let digits := Nat.toDigits 10 d
    ⟨(digits.reverse.dropWhile (· = '0')).reverse, (digits.length : Int) + e⟩

end Linkage.Number
