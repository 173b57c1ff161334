import Linkage.Toml.Draft
import Linkage.Toml.Scalar
import Linkage.Toml.Scan

namespace Linkage.Toml

def maxDepth : Nat := 79

def isScalarChar (c : Char) : Bool :=
  c.isAlphanum || c = '+' || c = '-' || c = '_' || c = '.' || c = ':'

/-- A value without marks around it. A date and a time may have a blank between them. -/
def scalar (cs : List Char) : Option (Value × Shorter cs) := do
  let t := cs.takeWhile isScalarChar
  let r := skipWhile isScalarChar cs
  match one (· = ' ') r.rest with
  | some s =>
    if isDate t && s.rest.head?.any Char.isDigit then
      let u := s.rest.takeWhile isScalarChar
      if isTimeOfDay u then
        some (.dateTime (String.ofList (t ++ ' ' :: u)),
          r.shorter (s.remaining (skipWhile isScalarChar s.rest)))
      else none
    else some (← scalar? t, ← r.shorter?)
  | none => some (← scalar? t, ← r.shorter?)

def arrayItems (item : (cs : List Char) → Option (Value × Shorter cs)) (cs : List Char) :
    Option (List Value × Shorter cs) := do
  let r := skipLines cs
  match one (· = ']') r.rest with
  | some s => some ([], r.shorter s)
  | none => do
    let (v, s) ← item r.rest
    let s := r.shorter (s.remaining (skipLines s.rest))
    match one (· = ',') s.rest with
    | some t => do
      let (vs, u) ← arrayItems item t.rest
      some (v :: vs, s.shorter (t.shorter u))
    | none => do
      let t ← one (· = ']') s.rest
      some ([v], s.shorter t)
termination_by cs.length
decreasing_by exact (s.shorter t).lt

def pair (item : (cs : List Char) → Option (Value × Shorter cs)) (cs : List Char) :
    Option ((List String × Value) × Shorter cs) := do
  let (k, r) ← keyPath cs
  if maxDepth < k.length then none
  else
    let s ← one (· = '=') r.rest
    let s := s.remaining (skipBlanks s.rest)
    let (v, t) ← item s.rest
    some ((k, v), r.shorter (s.shorter t))

def tableEntries (item : (cs : List Char) → Option (Value × Shorter cs)) (cs : List Char) :
    Option (List (List String × Value) × Shorter cs) := do
  let (e, s) ← pair item cs
  let s := s.remaining (skipBlanks s.rest)
  match one (· = ',') s.rest with
  | some t => do
    let (es, u) ← tableEntries item t.rest
    some (e :: es, s.shorter (t.shorter u))
  | none => do
    let t ← one (· = '\x7d') s.rest
    some ([e], s.shorter t)
termination_by cs.length
decreasing_by exact (s.shorter t).lt

def tableOf (entries : List (List String × Value)) : Option Value :=
  (entries.foldlM (fun d e => Draft.enter e.2 true e.1 d) ([] : Draft)).map fun d =>
    .table (finishFields d)

def value (depth : Nat) (cs : List Char) : Option (Value × Shorter cs) :=
  match depth, cs with
  | _, '"' :: rest => (string ('"' :: rest)).map fun r => (.string r.1, r.2)
  | _, '\'' :: rest => (string ('\'' :: rest)).map fun r => (.string r.1, r.2)
  | depth + 1, '[' :: rest => do
    let (vs, s) ← arrayItems (value depth) rest
    some (.array vs, s.after '[')
  | depth + 1, '\x7b' :: rest => do
    let r := skipBlanks rest
    match one (· = '\x7d') r.rest with
    | some s => some (.table [], (r.shorter s).after '\x7b')
    | none => do
      let (es, s) ← tableEntries (value depth) r.rest
      let t ← tableOf es
      some (t, (r.shorter s).after '\x7b')
  | _, cs => scalar cs

inductive Statement where
  | table (path : List String)
  | element (path : List String)
  | entry (path : List String) (v : Value)

def header (close : List Char) (cs : List Char) : Option (List String × Shorter cs) := do
  let (path, s) ← keyPath cs
  if maxDepth < path.length then none
  else
    let s := s.remaining (← marks close s.rest)
    some (path, s.remaining (← restOfLine s.rest))

def statement (cs : List Char) : Option (Statement × Shorter cs) :=
  match marks ['[', '['] cs, marks ['['] cs with
  | some r, _ => do
    let (path, s) ← header [']', ']'] r.rest
    some (.element path, r.shorter s)
  | none, some r => do
    let (path, s) ← header [']'] r.rest
    some (.table path, r.shorter s)
  | none, none => do
    let ((path, v), s) ← pair (value maxDepth) cs
    some (.entry path v, s.remaining (← restOfLine s.rest))

def statements (cs : List Char) : Option (List Statement) :=
  let r := skipLines cs
  if r.rest.isEmpty then some []
  else do
    let (st, s) ← statement r.rest
    let sts ← statements s.rest
    some (st :: sts)
termination_by cs.length
decreasing_by exact (r.shorter s).lt

/-- A document under construction, and the path of the table that is being filled. -/
structure Building where
  root : Draft := []
  current : List String := []

def Building.add (b : Building) : Statement → Option Building
  | .table path =>
    (b.root.descend (Draft.openTable (path.getLastD "")) path.dropLast).map (⟨·, path⟩)
  | .element path =>
    (b.root.descend (Draft.openElement (path.getLastD "")) path.dropLast).map (⟨·, path⟩)
  | .entry path v =>
    (b.root.descend (Draft.enter v true path) b.current).map (⟨·, b.current⟩)

/-- The document of a text; a byte order mark in front of it is skipped. -/
def parse (s : String) : Option Value := do
  let cs := match s.toList with
    | '\ufeff' :: cs => cs
    | cs => cs
  let b ← (← statements cs).foldlM Building.add {}
  some (.table (finishFields b.root))

end Linkage.Toml
