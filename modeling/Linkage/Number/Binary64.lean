namespace Linkage.Number

/-!
Magnitudes of binary64 numbers, counted in units of `2 ^ -1074`, the smallest of them. A magnitude
has at most 53 significant bits.
-/

def one : Nat := Nat.pow 2 1074

/-- The distance of magnitudes of a size from one another. -/
def spacing (units : Nat) : Nat :=
  Nat.pow 2 (units.log2 - 52)

def divideNearest (num den : Nat) : Nat :=
  let q := num / den
  let r := num % den
  if 2 * r < den then q
  else if den < 2 * r then q + 1
  else q + q % 2

/-- The magnitude nearest to a quotient, and of two equally near the even one. -/
def nearest (num den : Nat) : Nat :=
  let step := spacing (num * one / den)
  divideNearest (num * one) (den * step) * step

def beyond : Nat := Nat.pow 2 1024 * one

def isInfinite (units : Nat) : Bool :=
  beyond ≤ units

def multiply (u v : Nat) : Nat :=
  nearest (u * v) (one * one)

def divide (u v : Nat) : Nat :=
  nearest u v

end Linkage.Number
