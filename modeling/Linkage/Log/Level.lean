namespace Linkage.Log

inductive Level where
  | error | warn | info | debug | trace
deriving DecidableEq, Repr

/-- How much is let through: nothing, or the records up to a level. -/
inductive Verbosity where
  | off | error | warn | info | debug | trace
deriving DecidableEq, Repr

def Level.rank : Level → Nat
  | .error => 1
  | .warn => 2
  | .info => 3
  | .debug => 4
  | .trace => 5

def Level.name : Level → String
  | .error => "ERROR"
  | .warn => "WARN"
  | .info => "INFO"
  | .debug => "DEBUG"
  | .trace => "TRACE"

def Level.all : List Level := [.error, .warn, .info, .debug, .trace]

namespace Verbosity

def rank : Verbosity → Nat
  | .off => 0
  | .error => 1
  | .warn => 2
  | .info => 3
  | .debug => 4
  | .trace => 5

def name : Verbosity → String
  | .off => "off"
  | .error => "error"
  | .warn => "warn"
  | .info => "info"
  | .debug => "debug"
  | .trace => "trace"

def all : List Verbosity := [.off, .error, .warn, .info, .debug, .trace]

def admits (v : Verbosity) (l : Level) : Bool :=
  l.rank ≤ v.rank

def max (v w : Verbosity) : Verbosity :=
  if v.rank < w.rank then w else v

def digitValue (c : Char) : Nat := c.toNat - '0'.toNat

def number? (cs : List Char) : Option Nat :=
  let digits := match cs with
    | '+' :: ds => ds
    | ds => ds
  if digits ≠ [] ∧ digits.all Char.isDigit then
    some (digits.foldl (fun n c => 10 * n + digitValue c) 0)
  else none

/-- A verbosity by its number or, in any case, by its name. -/
def parse? (s : String) : Option Verbosity :=
  match number? s.toList with
  | some n => all.find? fun v => v.rank = n
  | none => all.find? fun v => v.name = s.map Char.toLower

end Verbosity

end Linkage.Log
