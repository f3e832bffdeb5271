import Checklist.Toml.Table

namespace Checklist.Toml

/-- Entries as lines of a document. -/
def pairs (entries : List (Text × Value)) : List Statement :=
  entries.map fun (key, value) => .pair ⟨[], key⟩ value

@[simp] theorem pairs_append (entries more : List (Text × Value)) :
    pairs (entries ++ more) = pairs entries ++ pairs more :=
  List.map_append

/-- Entries as a table under construction. -/
def leaves (entries : List (Text × Value)) : Nodes :=
  entries.map fun (key, value) => (key, .leaf value)

@[simp] theorem value_leaf (value : Value) : (Node.leaf value).value = value := rfl

@[simp] theorem value_elements (tables : List Nodes) :
    (Node.elements tables).value = .array (elementValues tables) := rfl

theorem entryValues_eq (nodes : Nodes) :
    entryValues nodes = nodes.map fun (key, node) => (key, node.value) := by
  induction nodes with
  | nil => rfl
  | cons entry nodes ih => simp [entryValues, ih]

theorem elementValues_eq (tables : List Nodes) :
    elementValues tables = tables.map fun nodes => .table (entryValues nodes) := by
  induction tables with
  | nil => rfl
  | cons nodes tables ih => simp [elementValues, ih]

@[simp] theorem entryValues_leaves (entries : List (Text × Value)) :
    entryValues (leaves entries) = entries := by
  simp [entryValues_eq, leaves, Function.comp_def]

namespace Nodes

/-- A key that no entry has. -/
def Lacks (nodes : Nodes) (key : Text) : Prop :=
  ∀ entry ∈ nodes, entry.1 ≠ key

variable {nodes : Nodes} {key : Text}

theorem Lacks.has_eq (h : nodes.Lacks key) : nodes.has key = false := by
  simpa [has] using fun k node hmem => h (k, node) hmem

theorem Lacks.lookup_eq (h : nodes.Lacks key) : nodes.lookup key = none := by
  rw [List.lookup_eq_none_iff]
  intro entry hmem
  simpa using (h entry hmem).symm

theorem Lacks.lookup_append (h : nodes.Lacks key) (node : Node) :
    (nodes ++ [(key, node)]).lookup key = some node := by
  simp [List.lookup_append, h.lookup_eq]

theorem Lacks.replace_append (h : nodes.Lacks key) (old node : Node) :
    replace key node (nodes ++ [(key, old)]) = nodes ++ [(key, node)] := by
  have hsame : replace key node nodes = nodes := by
    rw [replace, List.map_congr_left (g := id), List.map_id]
    intro entry hmem
    simp [h entry hmem]
  calc replace key node (nodes ++ [(key, old)])
      = replace key node nodes ++ replace key node [(key, old)] := List.map_append
    _ = nodes ++ [(key, node)] := by
      rw [hsame]
      simp [replace]

end Nodes

namespace Assembly

/-- Lines with keys that are all new go into the open table in their order. -/
theorem foldlM_pairs_append {entries : List (Text × Value)} (hnodup : (entries.map Prod.fst).Nodup)
    (assembly : Assembly) (hnew : ∀ entry ∈ entries, assembly.contents.Lacks entry.1) :
    (pairs entries).foldlM add assembly =
      some { assembly with contents := assembly.contents ++ leaves entries } := by
  induction entries generalizing assembly with
  | nil => simp [pairs, leaves]
  | cons entry entries ih =>
    have hadd : assembly.add (.pair ⟨[], entry.1⟩ entry.2) =
        some { assembly with contents := assembly.contents ++ [(entry.1, .leaf entry.2)] } := by
      simp [add, Nodes.addPair, (hnew entry List.mem_cons_self).has_eq]
    obtain ⟨hfirst, hrest⟩ := List.nodup_cons.mp hnodup
    have hlacks : ∀ later ∈ entries,
        Nodes.Lacks (assembly.contents ++ [(entry.1, .leaf entry.2)]) later.1 := by
      intro later hlater old hold
      rcases List.mem_append.mp hold with hmem | hmem
      · exact hnew later (List.mem_cons_of_mem _ hlater) old hmem
      · rw [List.mem_singleton.mp hmem]
        rintro heq
        exact hfirst (heq ▸ List.mem_map_of_mem hlater)
    rw [pairs, List.map_cons, List.foldlM_cons, hadd]
    simpa [pairs, leaves] using ih hrest
      { assembly with contents := assembly.contents ++ [(entry.1, .leaf entry.2)] } hlacks

/-- An empty table takes any lines with keys of their own. -/
theorem foldlM_pairs {entries : List (Text × Value)} (hnodup : (entries.map Prod.fst).Nodup)
    (closed : Nodes) (header : Option (Key × Bool)) :
    (pairs entries).foldlM add ⟨closed, header, []⟩ = some ⟨closed, header, leaves entries⟩ := by
  have hlacks : ∀ entry ∈ entries, Nodes.Lacks [] entry.1 := by simp [Nodes.Lacks]
  simpa using foldlM_pairs_append hnodup ⟨closed, header, []⟩ hlacks

/-- The assembly within an array of tables, with one element open. -/
def inElement (root : Nodes) (key : Text) (closed : List Nodes) (contents : Nodes) : Assembly :=
  ⟨root ++ [(key, .elements closed)], some (⟨[], key⟩, true), contents⟩

section Elements

variable {root : Nodes} {key : Text} (hroot : root.Lacks key)
include hroot

theorem close_inElement (closed : List Nodes) (contents : Nodes) :
    (inElement root key closed contents).close =
      some (root ++ [(key, .elements (closed ++ [contents]))]) := by
  simp [close, inElement, Nodes.changeAt, Nodes.closeElement, hroot.lookup_append,
    hroot.replace_append]

theorem add_first_element : add ⟨[], none, root⟩ (.element ⟨[], key⟩) =
    some (inElement root key [] []) := by
  simp [add, close, inElement, Nodes.changeAt, Nodes.openElement, hroot.lookup_eq]

theorem add_next_element (closed : List Nodes) (contents : Nodes) :
    (inElement root key closed contents).add (.element ⟨[], key⟩) =
      some (inElement root key (closed ++ [contents]) []) := by
  rw [add, close_inElement hroot]
  simp [inElement, Nodes.changeAt, Nodes.openElement, hroot.lookup_append]

/-- Each element closes the one before it. -/
theorem foldlM_elements {tables : List (List (Text × Value))}
    (hnodup : ∀ entries ∈ tables, (entries.map Prod.fst).Nodup) (closed : List Nodes)
    (contents : Nodes) :
    ((tables.flatMap fun entries => .element ⟨[], key⟩ :: pairs entries).foldlM add
      (inElement root key closed contents)).bind close =
      some (root ++ [(key, .elements (closed ++ contents :: tables.map leaves))]) := by
  induction tables generalizing closed contents with
  | nil => exact close_inElement hroot closed contents
  | cons entries tables ih =>
    have hpairs := foldlM_pairs (hnodup entries List.mem_cons_self)
      (root ++ [(key, .elements (closed ++ [contents]))]) (some (⟨[], key⟩, true))
    have hrest := ih (fun other hother => hnodup other (List.mem_cons_of_mem _ hother))
      (closed ++ [contents]) (leaves entries)
    rw [List.append_assoc, List.singleton_append] at hrest
    rw [List.flatMap_cons, List.cons_append, List.foldlM_cons, add_next_element hroot]
    simp only [Option.bind_eq_bind, Option.bind_some, List.foldlM_append, inElement, hpairs]
    exact hrest

end Elements

end Assembly

theorem assemble_eq (statements : List Statement) : assemble statements =
    ((statements.foldlM Assembly.add Assembly.start).bind Assembly.close).map entryValues := by
  rw [assemble]
  cases statements.foldlM Assembly.add Assembly.start with
  | none => rfl
  | some assembly => exact (Option.map_eq_bind (x := assembly.close)).symm

theorem assemble_pairs {root : List (Text × Value)} (hroot : (root.map Prod.fst).Nodup) :
    assemble (pairs root) = some root := by
  have hfold := Assembly.foldlM_pairs hroot [] none
  simp [assemble_eq, Assembly.start, hfold, Assembly.close]

/-- A document of root entries and then an array of tables. -/
theorem assemble_elements {root : List (Text × Value)} {key : Text}
    (hroot : (root.map Prod.fst).Nodup) (hkey : ∀ entry ∈ root, entry.1 ≠ key)
    {tables : List (List (Text × Value))}
    (htables : ∀ entries ∈ tables, (entries.map Prod.fst).Nodup) (hne : tables ≠ []) :
    assemble (pairs root ++ tables.flatMap fun entries => .element ⟨[], key⟩ :: pairs entries) =
      some (root ++ [(key, .array (tables.map .table))]) := by
  have hlacks : (leaves root).Lacks key := by
    intro entry hentry
    obtain ⟨written, hwritten, rfl⟩ := List.mem_map.mp hentry
    exact hkey written hwritten
  have hclosed : ((pairs root ++ tables.flatMap fun entries =>
      .element ⟨[], key⟩ :: pairs entries).foldlM Assembly.add Assembly.start).bind Assembly.close =
      some (leaves root ++ [(key, .elements (tables.map leaves))]) := by
    cases tables with
    | nil => exact absurd rfl hne
    | cons first rest =>
      obtain ⟨hfirst, hrest⟩ := List.forall_mem_cons.mp htables
      rw [List.foldlM_append, Assembly.start, Assembly.foldlM_pairs hroot]
      simp only [Option.bind_eq_bind, Option.bind_some, List.flatMap_cons, List.cons_append,
        List.foldlM_cons, Assembly.add_first_element hlacks, List.foldlM_append,
        Assembly.inElement, Assembly.foldlM_pairs hfirst]
      exact Assembly.foldlM_elements hlacks hrest [] (leaves first)
  have hvalues : entryValues (leaves root ++ [(key, .elements (tables.map leaves))]) =
      root ++ [(key, .array (tables.map .table))] := by
    rw [entryValues_eq, List.map_append, ← entryValues_eq, entryValues_leaves]
    simp [elementValues_eq]
  rw [assemble_eq, hclosed, Option.map_some, hvalues]

end Checklist.Toml
