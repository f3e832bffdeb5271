import Checklist.Toml.Value

namespace Checklist.Toml

/-- How a table came to be, which decides what may still be added to it: by a header of its own, by
the header of a table below it, or by a key with dots. -/
inductive Origin
  | header
  | implied
  | dotted
  deriving DecidableEq

/-- A table under construction. Values in brackets or braces are closed. -/
inductive Node
  | leaf (value : Value)
  | table (origin : Origin) (entries : List (Text × Node))
  | elements (tables : List (List (Text × Node)))

abbrev Nodes := List (Text × Node)

namespace Nodes

def replace (key : Text) (node : Node) (nodes : Nodes) : Nodes :=
  nodes.map fun (k, old) => if k = key then (k, node) else (k, old)

def remove (key : Text) (nodes : Nodes) : Nodes :=
  nodes.filter fun (k, _) => k != key

def has (key : Text) (nodes : Nodes) : Bool :=
  nodes.any fun (k, _) => k == key

/-- Adds a pair below the path of its dotted key. A table made by a header is closed to it. -/
def addPair (key : Text) (value : Value) : List Text → Nodes → Option Nodes
  | [], nodes => if nodes.has key then none else some (nodes ++ [(key, .leaf value)])
  | step :: path, nodes =>
    match nodes.lookup step with
    | none =>
      (addPair key value path []).map fun inner => nodes ++ [(step, .table .dotted inner)]
    | some (.table origin inner) =>
      if origin == .header || (path.isEmpty && origin != .dotted) then none
      else (addPair key value path inner).map fun inner => nodes.replace step (.table origin inner)
    | some (.elements tables) =>
      match tables.getLast? with
      | some last =>
        if path.isEmpty then none
        else (addPair key value path last).map fun last =>
          nodes.replace step (.elements (tables.dropLast ++ [last]))
      | none => none
    | some (.leaf _) => none

/-- Changes the table at a path of headers, made where it is missing. Of an array of tables it is
the last one. -/
def changeAt (change : Nodes → Option (α × Nodes)) : List Text → Nodes → Option (α × Nodes)
  | [], nodes => change nodes
  | step :: path, nodes =>
    match nodes.lookup step with
    | none =>
      (changeAt change path []).map fun (a, inner) => (a, nodes ++ [(step, .table .implied inner)])
    | some (.table origin inner) =>
      (changeAt change path inner).map fun (a, inner) =>
        (a, nodes.replace step (.table origin inner))
    | some (.elements tables) =>
      match tables.getLast? with
      | some last =>
        (changeAt change path last).map fun (a, last) =>
          (a, nodes.replace step (.elements (tables.dropLast ++ [last])))
      | none => none
    | some (.leaf _) => none

/-- Takes out the table that a header opens: nothing, or what headers below it implied. -/
def openTable (key : Text) (nodes : Nodes) : Option (Nodes × Nodes) :=
  match nodes.lookup key with
  | none => some ([], nodes)
  | some (.table .implied inner) => some (inner, nodes.remove key)
  | some _ => none

/-- Checks that a header may open an element. -/
def openElement (key : Text) (nodes : Nodes) : Option (Nodes × Nodes) :=
  match nodes.lookup key with
  | none => some ([], nodes ++ [(key, .elements [])])
  | some (.elements _) => some ([], nodes)
  | some _ => none

def closeElement (key : Text) (contents nodes : Nodes) : Option (Unit × Nodes) :=
  match nodes.lookup key with
  | some (.elements tables) => some ((), nodes.replace key (.elements (tables ++ [contents])))
  | _ => none

end Nodes

mutual

def Node.value : Node → Value
  | .leaf value => value
  | .table _ entries => .table (entryValues entries)
  | .elements tables => .array (elementValues tables)

def entryValues : List (Text × Node) → List (Text × Value)
  | [] => []
  | (key, node) :: rest => (key, node.value) :: entryValues rest

def elementValues : List (List (Text × Node)) → List Value
  | [] => []
  | entries :: rest => .table (entryValues entries) :: elementValues rest

end

/-- A key with dots: the steps to a table, and the name in it. -/
structure Key where
  path : List Text
  name : Text
  deriving DecidableEq

/-- A line of a document. -/
inductive Statement
  | pair (key : Key) (value : Value)
  | table (key : Key)
  | element (key : Key)

/-- The document so far: the closed tables, and the one that is open with the header it has. -/
structure Assembly where
  closed : Nodes
  header : Option (Key × Bool)
  contents : Nodes

namespace Assembly

def start : Assembly := ⟨[], none, []⟩

/-- The tables with the open one put in its place. -/
def close (assembly : Assembly) : Option Nodes :=
  match assembly.header with
  | none => some assembly.contents
  | some (key, false) =>
    (Nodes.changeAt (fun nodes => some ((), nodes ++ [(key.name, .table .header assembly.contents)]))
      key.path assembly.closed).map (·.2)
  | some (key, true) =>
    (Nodes.changeAt (Nodes.closeElement key.name assembly.contents) key.path assembly.closed).map (·.2)

def add (assembly : Assembly) : Statement → Option Assembly
  | .pair key value =>
    (assembly.contents.addPair key.name value key.path).map fun contents =>
      { assembly with contents }
  | .table key => do
    let (contents, closed) ← Nodes.changeAt (Nodes.openTable key.name) key.path (← assembly.close)
    return ⟨closed, some (key, false), contents⟩
  | .element key => do
    let (contents, closed) ← Nodes.changeAt (Nodes.openElement key.name) key.path (← assembly.close)
    return ⟨closed, some (key, true), contents⟩

end Assembly

/-- The table that the lines of a document make, unless one of them contradicts another. -/
def assemble (statements : List Statement) : Option (List (Text × Value)) := do
  let assembly ← statements.foldlM Assembly.add Assembly.start
  return entryValues (← assembly.close)

/-- The table of the pairs between braces. -/
def inlineTable (pairs : List (Key × Value)) : Option Value := do
  let nodes ← pairs.foldlM
    (fun (nodes : Nodes) (key, value) => nodes.addPair key.name value key.path) []
  return .table (entryValues nodes)

end Checklist.Toml
