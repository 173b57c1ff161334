import Linkage.Toml.Value

namespace Linkage.Toml

/-- How a table came to be, which decides about what may be added to it. -/
inductive Origin where
  | implicit
  | dotted
  | explicit
deriving DecidableEq, Repr

inductive Item where
  | value (v : Value)
  | table (origin : Origin) (fields : List (String × Item))
  | tables (earlier : List (List (String × Item))) (last : List (String × Item))

abbrev Draft := List (String × Item)

namespace Draft

def replace (k : String) (i : Item) : Draft → Draft
  | [] => []
  | (l, j) :: fs => if l = k then (l, i) :: fs else (l, j) :: replace k i fs

def remove (k : String) (d : Draft) : Draft :=
  d.filter fun f => f.1 ≠ k

/-- Change the table at the end of a header's path. Tables that are not there yet are made on the
way, and in an array of tables the way goes through the last one. -/
def descend (f : Draft → Option Draft) : List String → Draft → Option Draft
  | [], d => f d
  | k :: ks, d =>
    match d.lookup k with
    | none => (descend f ks []).map fun t => d ++ [(k, .table .implicit t)]
    | some (.table origin t) => (descend f ks t).map fun t => d.replace k (.table origin t)
    | some (.tables earlier last) =>
      (descend f ks last).map fun last => d.replace k (.tables earlier last)
    | some (.value _) => none

/-- Give a dotted key a value. The key may go through tables that have no header, but its last part
goes only into a table that a dotted key has made, or into the table where the key is written. -/
def enter (v : Value) (isOpen : Bool) : List String → Draft → Option Draft
  | [], _ => none
  | [k], d => if isOpen && (d.lookup k).isNone then some (d ++ [(k, .value v)]) else none
  | k :: ks, d =>
    match d.lookup k with
    | none => (enter v true ks []).map fun t => d ++ [(k, .table .dotted t)]
    | some (.table .explicit _) => none
    | some (.table origin t) =>
      (enter v (origin = .dotted) ks t).map fun t => d.replace k (.table origin t)
    | some (.tables earlier last) =>
      (enter v false ks last).map fun last => d.replace k (.tables earlier last)
    | some (.value _) => none

def openTable (k : String) (d : Draft) : Option Draft :=
  match d.lookup k with
  | none => some (d ++ [(k, .table .explicit [])])
  | some (.table .implicit t) => some (d.remove k ++ [(k, .table .explicit t)])
  | some _ => none

def openElement (k : String) (d : Draft) : Option Draft :=
  match d.lookup k with
  | none => some (d ++ [(k, .tables [] [])])
  | some (.tables earlier last) => some (d.replace k (.tables (earlier ++ [last]) []))
  | some _ => none

end Draft

mutual

def Item.finish : Item → Value
  | .value v => v
  | .table _ fields => .table (finishFields fields)
  | .tables earlier last => .array (finishAll earlier ++ [.table (finishFields last)])
termination_by structural i => i

def finishFields : List (String × Item) → List (String × Value)
  | [] => []
  | (k, i) :: fs => (k, i.finish) :: finishFields fs
termination_by structural fs => fs

def finishAll : List (List (String × Item)) → List Value
  | [] => []
  | t :: ts => .table (finishFields t) :: finishAll ts
termination_by structural ts => ts

end

end Linkage.Toml
