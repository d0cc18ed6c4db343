import Mathlib.Data.List.Infix
import Mathlib.Tactic.Common

/-!
# Trees of files

A tree has at most one node at a path, and what is above a node is a directory. Nothing is known of
what lies behind a symbolic link: a `Host` answers for it.

* **`Tree.dir_of_above`** — what is above a node is a directory;
* **`Tree.nothing_below`** — nothing is below what is not a directory.
-/

namespace FileTree

variable {N C L : Type}

structure File (C : Type) where
  mode : Nat
  content : C
deriving DecidableEq, Repr

inductive Node (C L : Type) where
  | file (file : File C)
  | dir
  | link (target : L)
deriving DecidableEq, Repr

/-- A path is the list of the names on it. -/
structure Tree (N C L : Type) where
  node : List N → Option (Node C L)
  root : node [] = some .dir
  parent : ∀ path name, node (path ++ [name]) ≠ none → node path = some .dir

/-- `a` is one of the directories that `path` is in. -/
def Above (a path : List N) : Prop := a <+: path ∧ a ≠ path

instance [DecidableEq N] (a path : List N) : Decidable (Above a path) :=
  inferInstanceAs (Decidable (_ ∧ _))

/-- Neither path is the other or above it. -/
def Apart (a b : List N) : Prop := ¬ a <+: b ∧ ¬ b <+: a

theorem Above.ne {a path : List N} (h : Above a path) : a ≠ path := h.2

theorem above_dropLast {a path : List N} (h : Above a path) : a <+: path.dropLast := by
  obtain ⟨⟨rest, rfl⟩, hne⟩ := h
  have hrest : rest ≠ [] := by
    rintro rfl
    exact hne (List.append_nil a).symm
  rw [List.dropLast_append_of_ne_nil hrest]
  exact List.prefix_append a _

theorem dropLast_above {path : List N} (h : path ≠ []) : Above path.dropLast path := by
  refine ⟨List.dropLast_prefix path, fun hsame => ?_⟩
  have hlength := congrArg List.length hsame
  rw [List.length_dropLast] at hlength
  have hpos := List.length_pos_iff.2 h
  omega

/-- The directories that a path is in, its own parent with what is above that. -/
theorem prefix_dropLast {a path : List N} (h : path ≠ []) : a <+: path.dropLast ↔ Above a path := by
  refine ⟨fun ha => ⟨ha.trans (List.dropLast_prefix path), ?_⟩, above_dropLast⟩
  rintro rfl
  exact (dropLast_above h).ne ((List.dropLast_prefix a).eq_of_length_le ha.length_le)

theorem above_cons {a path : List N} (h : Above a path) : path ≠ [] := by
  rintro rfl
  exact h.ne (List.prefix_nil.1 h.1)

theorem apart_or {a b : List N} (h : ¬ Apart a b) : a = b ∨ Above a b ∨ Above b a := by
  unfold Apart at h
  unfold Above
  grind

namespace Tree

/-! ## What a tree holds

Files, directories and links at their paths, and what being well formed means for the paths around
them.
-/

def file (t : Tree N C L) (path : List N) : Option (File C) :=
  match t.node path with
  | some (.file file) => some file
  | _ => none

def isDir (t : Tree N C L) (path : List N) : Bool :=
  match t.node path with
  | some .dir => true
  | _ => false

def isLink (t : Tree N C L) (path : List N) : Bool :=
  match t.node path with
  | some (.link _) => true
  | _ => false

theorem file_eq_some {t : Tree N C L} {path : List N} {file : File C} :
    t.file path = some file ↔ t.node path = some (.file file) := by
  unfold Tree.file
  split <;> simp_all

theorem isDir_iff {t : Tree N C L} {path : List N} : t.isDir path = true ↔ t.node path = some .dir := by
  unfold isDir
  split <;> simp_all

theorem isLink_iff {t : Tree N C L} {path : List N} :
    t.isLink path = true ↔ ∃ target, t.node path = some (.link target) := by
  unfold isLink
  split <;> simp_all

theorem file_of_node {s t : Tree N C L} {path : List N} (h : s.node path = t.node path) :
    s.file path = t.file path := by
  unfold Tree.file
  rw [h]

theorem isLink_of_node {s t : Tree N C L} {path : List N} (h : s.node path = t.node path) :
    s.isLink path = t.isLink path := by
  unfold isLink
  rw [h]

theorem file_of_dir {t : Tree N C L} {path : List N} (h : t.node path = some .dir) :
    t.file path = none := by
  unfold Tree.file
  rw [h]

theorem file_of_none {t : Tree N C L} {path : List N} (h : t.node path = none) :
    t.file path = none := by
  unfold Tree.file
  rw [h]

theorem node_of_file_none {t : Tree N C L} {path : List N} (hfile : t.file path = none)
    (hlink : t.isLink path = false) (hdir : t.node path ≠ some .dir) : t.node path = none := by
  cases hnode : t.node path with
  | none => rfl
  | some node =>
    cases node with
    | file file =>
      rw [file_eq_some.2 hnode] at hfile
      cases hfile
    | dir => exact absurd hnode hdir
    | link target =>
      rw [isLink_iff.2 ⟨target, hnode⟩] at hlink
      cases hlink

/-- **What is above a node is a directory.** -/
theorem dir_of_above (t : Tree N C L) {a path : List N} (h : Above a path)
    (hnode : t.node path ≠ none) : t.node a = some .dir := by
  induction path using List.reverseRecOn with
  | nil => exact absurd rfl (above_cons h)
  | append_singleton path name ih =>
    have hparent := t.parent path name hnode
    have ha := above_dropLast h
    rw [List.dropLast_concat] at ha
    by_cases hsame : a = path
    · rw [hsame, hparent]
    · exact ih ⟨ha, hsame⟩ (by rw [hparent]; exact Option.some_ne_none _)

/-- **Nothing is below what is not a directory.** -/
theorem nothing_below (t : Tree N C L) {a path : List N} (h : Above a path)
    (hnode : t.node a ≠ some .dir) : t.node path = none := by
  by_contra hsome
  exact hnode (t.dir_of_above h hsome)

theorem nothing_below_file (t : Tree N C L) {a path : List N} (h : Above a path)
    (hfile : t.file a ≠ none) : t.node path = none := by
  refine t.nothing_below h fun hdir => ?_
  exact hfile (file_of_dir hdir)

/-- The tree of these files. -/
def ofFiles [DecidableEq N] (files : List (List N × File C))
    (h : ∀ a ∈ files, a.1 ≠ [] ∧ ∀ b ∈ files, ¬ Above a.1 b.1) : Tree N C L where
  node path :=
    match files.lookup path with
    | some file => some (.file file)
    | none => if path = [] ∨ ∃ b ∈ files, Above path b.1 then some .dir else none
  root := by
    split
    · next file hfile =>
      obtain ⟨_, _, rfl, -⟩ := List.lookup_eq_some_iff.1 hfile
      exact absurd rfl (h ([], file) (List.mem_append_right _ List.mem_cons_self)).1
    · exact if_pos (Or.inl rfl)
  parent path name hnode := by
    have hbelow : ∃ b ∈ files, Above path b.1 := by
      split at hnode
      · next file hfile =>
        obtain ⟨before, after, rfl, -⟩ := List.lookup_eq_some_iff.1 hfile
        refine ⟨(path ++ [name], file), List.mem_append_right _ List.mem_cons_self, ?_, ?_⟩
        · exact List.prefix_append path [name]
        · intro hsame
          simpa using congrArg List.length hsame
      · rw [ne_eq, ite_eq_right_iff] at hnode
        push Not at hnode
        obtain ⟨hnil | ⟨b, hb, habove⟩, -⟩ := hnode
        · exact absurd hnil (by simp)
        · refine ⟨b, hb, (List.prefix_append path [name]).trans habove.1, ?_⟩
          rintro rfl
          have hlength := habove.1.length_le
          rw [List.length_append] at hlength
          exact absurd hlength (by simp)
    obtain ⟨b, hb, habove⟩ := hbelow
    split
    · next file hfile =>
      obtain ⟨before, after, rfl, -⟩ := List.lookup_eq_some_iff.1 hfile
      exact absurd habove ((h (path, file) (List.mem_append_right _ List.mem_cons_self)).2 b hb)
    · exact if_pos (Or.inr ⟨b, hb, habove⟩)

def Node.isDir : Node C L → Bool
  | .dir => true
  | _ => false

/-- The tree of these nodes. -/
def ofNodes [DecidableEq N] (nodes : List (List N × Node C L))
    (h : ∀ a ∈ nodes, a.1.dropLast = [] ∨ (nodes.lookup a.1.dropLast).any Node.isDir = true) :
    Tree N C L where
  node path := if path = [] then some .dir else nodes.lookup path
  root := if_pos rfl
  parent path name hnode := by
    rw [if_neg (by simp)] at hnode
    obtain ⟨node, hlookup⟩ := Option.ne_none_iff_exists'.1 hnode
    obtain ⟨before, after, rfl, -⟩ := List.lookup_eq_some_iff.1 hlookup
    have habove := h (path ++ [name], node) (List.mem_append_right _ List.mem_cons_self)
    rw [List.dropLast_concat] at habove
    rcases habove with rfl | hdir
    · exact if_pos rfl
    · split
      · rfl
      · obtain ⟨node', hnode', hdir'⟩ := (Option.any_eq_true _ _).1 hdir
        rw [hnode']
        cases node' <;> first | rfl | cases hdir'

theorem mem_ofNodes [DecidableEq N] {nodes : List (List N × Node C L)}
    {h : ∀ a ∈ nodes, a.1.dropLast = [] ∨ (nodes.lookup a.1.dropLast).any Node.isDir = true}
    {path : List N} (hnode : (ofNodes nodes h).node path ≠ none) :
    path = [] ∨ path ∈ nodes.map Prod.fst := by
  by_cases hnil : path = []
  · exact Or.inl hnil
  · have hlookup : (ofNodes nodes h).node path = nodes.lookup path := if_neg hnil
    rw [hlookup] at hnode
    obtain ⟨node, hlookup⟩ := Option.ne_none_iff_exists'.1 hnode
    obtain ⟨before, after, rfl, -⟩ := List.lookup_eq_some_iff.1 hlookup
    exact Or.inr (by simp)

/-- No symbolic link stands on the way to the path or at it. -/
def Clear (t : Tree N C L) (path : List N) : Prop := ∀ a, a <+: path → t.isLink a = false

instance [DecidableEq N] (t : Tree N C L) (path : List N) : Decidable (t.Clear path) :=
  decidable_of_iff (∀ a ∈ path.inits, t.isLink a = false)
    ⟨fun h a ha => h a ((List.mem_inits a path).2 ha), fun h a ha => h a ((List.mem_inits a path).1 ha)⟩

/-- No symbolic link at all. -/
def NoLinks (t : Tree N C L) : Prop := ∀ path, t.isLink path = false

theorem noLinks_ofFiles [DecidableEq N] {files : List (List N × File C)}
    (h : ∀ a ∈ files, a.1 ≠ [] ∧ ∀ b ∈ files, ¬ Above a.1 b.1) :
    (ofFiles files h : Tree N C L).NoLinks := by
  intro path
  rw [Bool.eq_false_iff, Ne, isLink_iff]
  rintro ⟨target, htarget⟩
  unfold ofFiles at htarget
  dsimp only at htarget
  split at htarget
  · cases htarget
  · split at htarget <;> cases htarget

theorem NoLinks.clear {t : Tree N C L} (h : t.NoLinks) (path : List N) : t.Clear path :=
  fun a _ => h a

theorem Clear.above {t : Tree N C L} {a path : List N} (h : t.Clear path) (ha : a <+: path) :
    t.Clear a := fun b hb => h b (hb.trans ha)

/-- A file stands where the path needs a directory. -/
def Blocked (t : Tree N C L) (path : List N) : Prop := ∃ a, Above a path ∧ t.file a ≠ none

instance [DecidableEq N] (t : Tree N C L) (path : List N) : Decidable (t.Blocked path) :=
  decidable_of_iff (∃ a ∈ path.inits, a ≠ path ∧ (t.file a).isSome = true) <| by
    unfold Blocked Above
    simp only [List.mem_inits, Option.isSome_iff_ne_none]
    exact exists_congr fun a => by rw [and_assoc]

/-! ## How a tree changes

The three changes that calls make. Each keeps what is above a node a directory.
-/

section Change

variable [DecidableEq N]

/-- The file at the path, in a directory that exists. -/
def place (t : Tree N C L) (path : List N) (file : File C) : Option (Tree N C L) :=
  if h : t.isDir path = false ∧ t.isDir path.dropLast = true then
    some {
      node a := if a = path then some (.file file) else t.node a
      root := by
        have hne : [] ≠ path := by
          rintro rfl
          rw [isDir_iff.2 t.root] at h
          cases h.1
        rw [if_neg hne, t.root]
      parent a name hnode := by
        have hdir : t.node a = some .dir := by
          by_cases hsame : a ++ [name] = path
          · rw [← hsame, List.dropLast_concat] at h
            exact isDir_iff.1 h.2
          · rw [if_neg hsame] at hnode
            exact t.parent a name hnode
        have hne : a ≠ path := by
          rintro rfl
          rw [isDir_iff.2 hdir] at h
          cases h.1
        rw [if_neg hne, hdir] }
  else none

/-- Without the file or the link at the path. -/
def remove (t : Tree N C L) (path : List N) : Option (Tree N C L) :=
  if h : (t.file path).isSome = true ∨ t.isLink path = true then
    some {
      node a := if a = path then none else t.node a
      root := by
        have hne : [] ≠ path := by
          rintro rfl
          rw [file_of_dir t.root, isLink_iff, t.root] at h
          simp at h
        rw [if_neg hne, t.root]
      parent a name hnode := by
        have hdir : t.node a = some .dir := by
          by_cases hsame : a ++ [name] = path
          · rw [if_pos hsame] at hnode
            exact absurd rfl hnode
          · rw [if_neg hsame] at hnode
            exact t.parent a name hnode
        have hne : a ≠ path := by
          rintro rfl
          rw [file_of_dir hdir, isLink_iff, hdir] at h
          simp at h
        rw [if_neg hne, hdir] }
  else none

/-- A directory at the path and at everything above it. -/
def mkdirs (t : Tree N C L) (path : List N) : Tree N C L where
  node a := if a <+: path then some .dir else t.node a
  root := by rw [if_pos List.nil_prefix]
  parent a name hnode := by
    by_cases hinit : a <+: path
    · rw [if_pos hinit]
    · have hlonger : ¬ a ++ [name] <+: path := fun h => hinit ((List.prefix_append a [name]).trans h)
      rw [if_neg hlonger] at hnode
      rw [if_neg hinit, t.parent a name hnode]

theorem place_eq_some {t t' : Tree N C L} {path : List N} {file : File C}
    (h : t.place path file = some t') (a : List N) :
    t'.node a = if a = path then some (.file file) else t.node a := by
  unfold place at h
  split at h
  · cases h
    rfl
  · cases h

theorem exists_place {t : Tree N C L} {path : List N} (file : File C)
    (hpath : t.node path ≠ some .dir) (hparent : t.node path.dropLast = some .dir) :
    ∃ t', t.place path file = some t' := by
  unfold place
  have hdir : t.isDir path = false := by
    rw [Bool.eq_false_iff, Ne, isDir_iff]
    exact hpath
  rw [dif_pos ⟨hdir, isDir_iff.2 hparent⟩]
  exact ⟨_, rfl⟩

theorem place_of_dir {t : Tree N C L} {path : List N} {file : File C}
    (h : t.node path = some .dir) : t.place path file = none := by
  refine dif_neg fun hplace => ?_
  rw [isDir_iff.2 h] at hplace
  cases hplace.1

theorem remove_eq_some {t t' : Tree N C L} {path : List N} (h : t.remove path = some t')
    (a : List N) : t'.node a = if a = path then none else t.node a := by
  unfold remove at h
  split at h
  · cases h
    rfl
  · cases h

theorem exists_remove {t : Tree N C L} {path : List N} (h : t.file path ≠ none) :
    ∃ t', t.remove path = some t' := by
  unfold remove
  rw [dif_pos (Or.inl (Option.isSome_iff_ne_none.2 h))]
  exact ⟨_, rfl⟩

end Change

end Tree

end FileTree
