import ArcAdmin.Flow.Git

/-!
# Sample trees

Two trees that are given row by row, on which the commands are evaluated.
-/

namespace ArcAdmin

namespace Flow

namespace Sample

/-- A path with its entries in the old tree and in the new one. -/
structure Row where
  path : String
  old : Option Entry
  new : Option Entry

def tree (rows : List Row) (entry : Row → Option Entry) : Tree := fun path =>
  (rows.find? fun row => utf8 row.path == path).bind entry

theorem mem_of_tree {rows : List Row} {entry : Row → Option Entry} {path : Path}
    (h : tree rows entry path ≠ none) : path ∈ rows.map fun row => utf8 row.path := by
  unfold tree at h
  cases hfind : rows.find? fun row => utf8 row.path == path with
  | none => exact absurd (by rw [hfind]; rfl) h
  | some row =>
    have hpath := List.find?_some hfind
    rw [← eq_of_beq hpath]
    exact List.mem_map_of_mem (List.mem_of_find?_eq_some hfind)

def entry (kind : EntryKind) (oid : Nat) : Option Entry := some ⟨kind, false, oid⟩

/-- The comparison of the two trees. -/
def comparison (rows : List Row) (renames : List (Path × Path))
    (named : ∀ path ∈ rows.map fun row => utf8 row.path, path ≠ [] ∧ 0 ∉ path)
    (renamed : ∀ r ∈ renames, tree rows Row.new r.1 = none ∧ tree rows Row.old r.2 = none) :
    Comparison where
  old := tree rows Row.old
  new := tree rows Row.new
  paths := rows.map fun row => utf8 row.path
  renames := renames
  mem_paths _ hthere := hthere.elim mem_of_tree mem_of_tree
  named := named
  renamed := renamed

end Sample

end Flow

end ArcAdmin
