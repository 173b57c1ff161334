import Linkage.Document.Read
import Linkage.Json.Token

namespace Linkage.Json

open Document

/-- An array or object that is not finished, with what it has so far, latest first. -/
inductive Open where
  | array (items : List Node)
  | object (fields : List (String × Node)) (name : Option String) (readable : Bool)

inductive Expect where
  | value
  | firstItem
  | firstName
  | name
  | colon
  | separator
deriving DecidableEq, Repr

inductive Progress where
  | going (stack : List Open) (expect : Expect)
  | finished (root : Node)
  | broken (root : Node)

def Open.cutOff (inner : Option Node) : Open → Node
  | .array items => .sequence (inner.toList ++ items).reverse (some .malformed)
  | .object fields (some name) true =>
    .table ((name, inner.getD (.flawed .malformed)) :: fields).reverse (some .malformed)
  | .object fields _ _ => .table fields.reverse (some .malformed)

def cutOffAll (inner : Option Node) : List Open → Node
  | [] => inner.getD (.flawed .malformed)
  | o :: os => cutOffAll (some (o.cutOff inner)) os

def breakOff (stack : List Open) : Progress :=
  .broken (cutOffAll none stack)

def put (n : Node) : List Open → Progress
  | [] => .finished n
  | .array items :: os => .going (.array (n :: items) :: os) .separator
  | .object fields (some name) true :: os =>
    .going (.object ((name, n) :: fields) none true :: os) .separator
  | .object fields _ readable :: os => .going (.object fields none readable :: os) .separator

def maxDepth : Nat := 127

def Open.finish : Open → Node
  | .array items => .sequence items.reverse none
  | .object fields _ readable =>
    .table fields.reverse (if readable then none else some .unreadable)

def finish (o : Open) (os : List Open) : Progress :=
  put (if os.length < maxDepth then o.finish else .flawed .unreadable) os

def beginValue (stack : List Open) : Token → Progress
  | .openArray => .going (.array [] :: stack) .firstItem
  | .openObject => .going (.object [] none true :: stack) .firstName
  | .string (some s) => put (.string s) stack
  | .string none => put (.flawed .unreadable) stack
  | .scalar n => put n stack
  | _ => breakOff stack

def beginField (s : Option String) : List Open → Progress
  | .object fields _ readable :: os =>
    .going (.object fields (if readable then s else none) (readable && s.isSome) :: os) .colon
  | stack => breakOff stack

def Progress.step (p : Progress) (t : Token) : Progress :=
  match p with
  | .finished n => .finished n
  | .broken n => .broken n
  | .going stack .value => beginValue stack t
  | .going stack .firstItem =>
    match t, stack with
    | .closeArray, o :: os => finish o os
    | t, _ => beginValue stack t
  | .going stack .firstName =>
    match t, stack with
    | .closeObject, o :: os => finish o os
    | .string s, _ => beginField s stack
    | _, _ => breakOff stack
  | .going stack .name =>
    match t with
    | .string s => beginField s stack
    | _ => breakOff stack
  | .going stack .colon =>
    match t with
    | .colon => .going stack .value
    | _ => breakOff stack
  | .going stack .separator =>
    match t, stack with
    | .comma, .array _ :: _ => .going stack .value
    | .comma, .object .. :: _ => .going stack .name
    | .closeArray, .array items :: os => finish (.array items) os
    | .closeObject, .object fields name readable :: os => finish (.object fields name readable) os
    | _, _ => breakOff stack

def run (p : Progress) : List Token → Parsed
  | [] =>
    match p with
    | .finished n => { root := n }
    | .broken n => { root := n }
    | .going stack _ => { root := cutOffAll none stack }
  | t :: ts =>
    match p with
    | .finished n => { root := n, trailing := true }
    | p => run (p.step t) ts

/-- Take a JSON text apart. Where it breaks off, what came before is still there. -/
def parse (s : String) : Parsed :=
  run (.going [] .value) (tokens s.toList)

end Linkage.Json
