import ArcAdmin.FileTree.Tree

/-!
# Calls that change a tree

A program makes its calls one after the other and stops at the first that fails. What the calls before
it did stays.

* **`run_unlinks`** — files that exist can be deleted;
* **`run_store`** — a file is stored unless another file is in the way, and then nothing happens;
* **`run_stores`** — files at paths that lie apart are stored unless a file of the tree is in the way.
-/

namespace FileTree

variable {N C L : Type}

inductive Op (N C : Type) where
  | unlink (path : List N)
  | mkdirs (path : List N)
  | write (path : List N) (content : C)
  | chmod (path : List N) (mode : Nat)

/-- What one finds at a path, links followed. -/
inductive Seen (C : Type) where
  | absent
  | file (content : C)
  | other

/-- What the host does. The last three answer for paths with a symbolic link on them. -/
structure Host (N C L : Type) where
  /-- The mode of a file that a write creates. -/
  freshMode : Nat
  seen : Tree N C L → List N → Seen C
  /-- The path itself is a regular file. -/
  regular : Tree N C L → List N → Bool
  act : Tree N C L → Op N C → Option (Tree N C L)

namespace Host

variable [DecidableEq N]

/-- What is found at the path. -/
def look (host : Host N C L) (t : Tree N C L) (path : List N) : Seen C :=
  if t.Clear path then
    match t.node path with
    | some (.file file) => .file file.content
    | some .dir => .other
    | _ => .absent
  else host.seen t path

/-- The path itself is a regular file, and not a link to one. -/
def isRegular (host : Host N C L) (t : Tree N C L) (path : List N) : Bool :=
  if t.Clear path.dropLast then (t.file path).isSome else host.regular t path

/-- One call; `none` when it fails. -/
def step (host : Host N C L) (t : Tree N C L) : Op N C → Option (Tree N C L)
  | .unlink path =>
    if t.Clear path.dropLast then t.remove path else host.act t (.unlink path)
  | .mkdirs path =>
    if t.Clear path then
      if (path.inits.any fun a => (t.file a).isSome) then none else some (t.mkdirs path)
    else host.act t (.mkdirs path)
  | .write path content =>
    if t.Clear path then
      t.place path ⟨((t.file path).map File.mode).getD host.freshMode, content⟩
    else host.act t (.write path content)
  | .chmod path mode =>
    if t.Clear path then
      match t.node path with
      | some (.file file) => t.place path { file with mode := mode }
      -- the modes of directories are not kept
      | some .dir => some t
      | _ => none
    else host.act t (.chmod path mode)

/-- The calls in their order, and whether all of them succeeded. -/
def run (host : Host N C L) : List (Op N C) → Tree N C L → Tree N C L × Bool
  | [], t => (t, true)
  | op :: ops, t =>
    match host.step t op with
    | none => (t, false)
    | some t' => run host ops t'

theorem run_cons {host : Host N C L} {op : Op N C} {ops : List (Op N C)} {t t' : Tree N C L}
    (h : host.step t op = some t') : host.run (op :: ops) t = host.run ops t' := by
  rw [run, h]

theorem run_fails {host : Host N C L} {op : Op N C} {ops : List (Op N C)} {t : Tree N C L}
    (h : host.step t op = none) : host.run (op :: ops) t = (t, false) := by
  rw [run, h]

theorem run_append {host : Host N C L} {ops rest : List (Op N C)} {t t' : Tree N C L}
    (h : host.run ops t = (t', true)) : host.run (ops ++ rest) t = host.run rest t' := by
  induction ops generalizing t with
  | nil =>
    cases h
    rfl
  | cons op ops ih =>
    cases hstep : host.step t op with
    | none =>
      rw [run_fails hstep] at h
      cases h
    | some t₁ =>
      rw [run_cons hstep] at h
      rw [List.cons_append, run_cons hstep]
      exact ih h

/-! ## Single calls

When each of the calls succeeds, and what it leaves.
-/

theorem look_of_file {host : Host N C L} {t : Tree N C L} {path : List N} {file : File C}
    (hclear : t.Clear path) (h : t.file path = some file) :
    host.look t path = .file file.content := by
  unfold look
  rw [if_pos hclear, Tree.file_eq_some.1 h]

theorem look_of_dir {host : Host N C L} {t : Tree N C L} {path : List N}
    (hclear : t.Clear path) (h : t.node path = some .dir) : host.look t path = .other := by
  unfold look
  rw [if_pos hclear, h]

theorem look_of_none {host : Host N C L} {t : Tree N C L} {path : List N}
    (hclear : t.Clear path) (h : t.node path = none) : host.look t path = .absent := by
  unfold look
  rw [if_pos hclear, h]

theorem isRegular_of_clear {host : Host N C L} {t : Tree N C L} {path : List N}
    (hclear : t.Clear path) : host.isRegular t path = (t.file path).isSome := by
  unfold isRegular
  rw [if_pos (hclear.above (List.dropLast_prefix path))]

theorem step_unlink (host : Host N C L) {t : Tree N C L} {path : List N} (hclear : t.Clear path)
    (hfile : t.file path ≠ none) :
    ∃ t', host.step t (.unlink path) = some t' ∧
      ∀ a, t'.node a = if a = path then none else t.node a := by
  obtain ⟨t', ht'⟩ := Tree.exists_remove hfile
  refine ⟨t', ?_, Tree.remove_eq_some ht'⟩
  show (if _ then _ else _) = _
  rw [if_pos (hclear.above (List.dropLast_prefix path)), ht']

theorem step_mkdirs (host : Host N C L) {t : Tree N C L} {path : List N} (hclear : t.Clear path)
    (hfree : ∀ a, a <+: path → t.file a = none) :
    host.step t (.mkdirs path) = some (t.mkdirs path) := by
  show (if _ then _ else _) = _
  have hnone : (path.inits.any fun a => (t.file a).isSome) = false := by
    rw [List.any_eq_false]
    intro a ha
    rw [hfree a ((List.mem_inits a path).1 ha)]
    exact Bool.false_ne_true
  rw [if_pos hclear, hnone]
  rfl

theorem step_mkdirs_fails {host : Host N C L} {t : Tree N C L} {path a : List N}
    (hclear : t.Clear path) (ha : a <+: path) (hfile : t.file a ≠ none) :
    host.step t (.mkdirs path) = none := by
  show (if _ then _ else _) = _
  have hany : (path.inits.any fun a => (t.file a).isSome) = true :=
    List.any_eq_true.2 ⟨a, (List.mem_inits a path).2 ha, Option.isSome_iff_ne_none.2 hfile⟩
  rw [if_pos hclear, hany]
  rfl

theorem step_write (host : Host N C L) {t : Tree N C L} {path : List N} (content : C)
    (hclear : t.Clear path) (hpath : t.node path ≠ some .dir)
    (hparent : t.node path.dropLast = some .dir) :
    ∃ t', host.step t (.write path content) = some t' ∧
      ∀ a, t'.node a = if a = path then
        some (.file ⟨((t.file path).map File.mode).getD host.freshMode, content⟩) else t.node a := by
  obtain ⟨t', ht'⟩ := Tree.exists_place
    ⟨((t.file path).map File.mode).getD host.freshMode, content⟩ hpath hparent
  refine ⟨t', ?_, Tree.place_eq_some ht'⟩
  show (if _ then _ else _) = _
  rw [if_pos hclear, ht']

theorem step_write_fails {host : Host N C L} {t : Tree N C L} {path : List N} {content : C}
    (hclear : t.Clear path) (hdir : t.node path = some .dir) :
    host.step t (.write path content) = none := by
  show (if _ then _ else _) = _
  rw [if_pos hclear, Tree.place_of_dir hdir]

theorem step_chmod (host : Host N C L) {t : Tree N C L} {path : List N} (mode : Nat) {file : File C}
    (hclear : t.Clear path) (hfile : t.node path = some (.file file)) :
    ∃ t', host.step t (.chmod path mode) = some t' ∧
      ∀ a, t'.node a = if a = path then some (.file ⟨mode, file.content⟩) else t.node a := by
  have hnode : t.node path ≠ some .dir := by
    rw [hfile]
    rintro ⟨⟩
  have hpath : path ≠ [] := by
    rintro rfl
    exact hnode t.root
  have hparent : t.node path.dropLast = some .dir :=
    t.dir_of_above (dropLast_above hpath) (by rw [hfile]; exact Option.some_ne_none _)
  obtain ⟨t', ht'⟩ := Tree.exists_place ⟨mode, file.content⟩ hnode hparent
  refine ⟨t', ?_, Tree.place_eq_some ht'⟩
  show (if _ then _ else _) = _
  rw [if_pos hclear, hfile]
  exact ht'

end Host

/-! ## Files that are stored

Storing makes the directories first, so a file in the way is found before anything is written at
the path.
-/

/-- A file that a program wants at a path. -/
structure Store (N C : Type) where
  path : List N
  content : C
  mode : Nat
deriving DecidableEq

/-- The directories first, then the content, then the mode. -/
def Store.ops (w : Store N C) : List (Op N C) :=
  [.mkdirs w.path.dropLast, .write w.path w.content, .chmod w.path w.mode]

def Store.file (w : Store N C) : File C := ⟨w.mode, w.content⟩

/-- The tree with the file and the directories above it. -/
def Store.Done (w : Store N C) (t t' : Tree N C L) : Prop :=
  t'.node w.path = some (.file w.file) ∧ (∀ a, Above a w.path → t'.node a = some .dir) ∧
    ∀ a, ¬ a <+: w.path → t'.node a = t.node a

namespace Host

variable [DecidableEq N]

omit [DecidableEq N] in
theorem clear_of_links {t t' : Tree N C L} {path : List N}
    (h : ∀ a, a <+: path → t'.isLink a = true → t.isLink a = true) (hclear : t.Clear path) :
    t'.Clear path := by
  intro a ha
  rw [Bool.eq_false_iff]
  intro hlink
  have hold := h a ha hlink
  rw [hclear a ha] at hold
  cases hold

/-- **A file is stored where no file is in the way.** -/
theorem run_store (host : Host N C L) {t : Tree N C L} {w : Store N C} (hclear : t.Clear w.path)
    (hfree : ¬ t.Blocked w.path) (hdir : t.node w.path ≠ some .dir) :
    ∃ t', host.run w.ops t = (t', true) ∧ w.Done t t' := by
  have hpath : w.path ≠ [] := by
    intro hnil
    rw [hnil] at hdir
    exact hdir t.root
  have hnone : ∀ a, a <+: w.path.dropLast → t.file a = none := by
    intro a ha
    by_contra hfile
    exact hfree ⟨a, (prefix_dropLast hpath).1 ha, hfile⟩
  -- `mkdirs`: the directories above, none of which is a file
  have hmkdirs := step_mkdirs host (hclear.above (List.dropLast_prefix w.path)) hnone
  set t₁ := t.mkdirs w.path.dropLast with ht₁
  have hnode₁ : ∀ a, t₁.node a = if a <+: w.path.dropLast then some .dir else t.node a := fun a => rfl
  have hself : ¬ w.path <+: w.path.dropLast := fun h =>
    (dropLast_above hpath).ne ((List.dropLast_prefix w.path).eq_of_length_le h.length_le)
  have hclear₁ : t₁.Clear w.path := by
    refine clear_of_links (fun a _ hlink => ?_) hclear
    obtain ⟨target, htarget⟩ := Tree.isLink_iff.1 hlink
    rw [hnode₁] at htarget
    split at htarget
    · cases htarget
    · exact Tree.isLink_iff.2 ⟨target, htarget⟩
  -- the file is written where no link and no directory stands in the way
  obtain ⟨t₂, hwrite, hnode₂⟩ := step_write host w.content hclear₁
    (by rw [hnode₁, if_neg hself]; exact hdir) (by rw [hnode₁, if_pos (List.prefix_refl _)])
  have hclear₂ : t₂.Clear w.path := by
    refine clear_of_links (fun a _ hlink => ?_) hclear₁
    obtain ⟨target, htarget⟩ := Tree.isLink_iff.1 hlink
    rw [hnode₂] at htarget
    split at htarget
    · cases htarget
    · exact Tree.isLink_iff.2 ⟨target, htarget⟩
  -- and gets its mode, through the same path
  obtain ⟨t₃, hchmod, hnode₃⟩ := step_chmod host w.mode hclear₂
    (by rw [hnode₂, if_pos rfl])
  refine ⟨t₃, ?_, ?_, ?_, ?_⟩
  · unfold Store.ops
    rw [run_cons hmkdirs, run_cons hwrite, run_cons hchmod]
    rfl
  · rw [hnode₃, if_pos rfl]
    rfl
  · intro a ha
    rw [hnode₃, if_neg ha.ne, hnode₂, if_neg ha.ne, hnode₁, if_pos ((prefix_dropLast hpath).2 ha)]
  · intro a ha
    have hne : a ≠ w.path := by
      rintro rfl
      exact ha (List.prefix_refl _)
    have hnot : ¬ a <+: w.path.dropLast := fun h => ha (h.trans (List.dropLast_prefix _))
    rw [hnode₃, if_neg hne, hnode₂, if_neg hne, hnode₁, if_neg hnot]

/-- **With a file in the way nothing is stored.** -/
theorem run_store_fails {host : Host N C L} {t : Tree N C L} {w : Store N C} {rest : List (Op N C)}
    (hclear : t.Clear w.path) (hblocked : t.Blocked w.path) :
    host.run (w.ops ++ rest) t = (t, false) := by
  obtain ⟨a, ha, hfile⟩ := hblocked
  refine run_fails (step_mkdirs_fails (hclear.above (List.dropLast_prefix w.path)) ?_ hfile)
  exact above_dropLast ha

/-- The tree with the files of the list and the directories above them. -/
def Stored (ws : List (Store N C)) (t t' : Tree N C L) : Prop :=
  (∀ w ∈ ws, t'.node w.path = some (.file w.file)) ∧
    (∀ w ∈ ws, ∀ a, Above a w.path → t'.node a = some .dir) ∧
    ∀ a, (∀ w ∈ ws, ¬ a <+: w.path) → t'.node a = t.node a

/-- The paths of the list lie apart. -/
def PathsApart (ws : List (Store N C)) : Prop := ws.Pairwise fun a b => Apart a.path b.path

/-- Storing a file does not get in the way of one that lies apart. -/
theorem blocked_of_done {t t' : Tree N C L} {w : Store N C} {path : List N} (h : w.Done t t')
    (hapart : Apart w.path path) (hfree : ¬ t.Blocked w.path) :
    t'.Blocked path ↔ t.Blocked path := by
  obtain ⟨hself, habove, hother⟩ := h
  have hfile : ∀ a, Above a path → t'.file a = t.file a := by
    intro a ha
    by_cases hinit : a <+: w.path
    · have hne : a ≠ w.path := by
        rintro rfl
        exact hapart.1 ha.1
      rw [Tree.file_of_dir (habove a ⟨hinit, hne⟩)]
      by_contra hfile
      exact hfree ⟨a, ⟨hinit, hne⟩, Ne.symm hfile⟩
    · exact Tree.file_of_node (hother a hinit)
  exact exists_congr fun a => and_congr_right fun ha => by rw [hfile a ha]

theorem clear_of_done {t t' : Tree N C L} {w : Store N C} {path : List N} (h : w.Done t t')
    (hclear : t.Clear path) : t'.Clear path := by
  obtain ⟨hself, habove, hother⟩ := h
  refine clear_of_links (fun a _ hlink => ?_) hclear
  by_cases hsame : a = w.path
  · subst hsame
    rw [Tree.isLink_iff, hself] at hlink
    simp at hlink
  · by_cases hinit : a <+: w.path
    · rw [Tree.isLink_iff, habove a ⟨hinit, hsame⟩] at hlink
      simp at hlink
    · rw [Tree.isLink_of_node (hother a hinit)] at hlink
      exact hlink

omit [DecidableEq N] in
/-- Storing a file makes no directory at a path that lies apart. -/
theorem node_of_done {t t' : Tree N C L} {w : Store N C} {path : List N} (h : w.Done t t')
    (hapart : Apart w.path path) : t'.node path = t.node path := h.2.2 path hapart.2

/-- **Files at paths that lie apart are stored** where no file of the tree is in the way. -/
theorem run_stores (host : Host N C L) {ws : List (Store N C)} {t : Tree N C L}
    (happart : PathsApart ws) (hclear : ∀ w ∈ ws, t.Clear w.path)
    (hfree : ∀ w ∈ ws, ¬ t.Blocked w.path) (hdir : ∀ w ∈ ws, t.node w.path ≠ some .dir) :
    ∃ t', host.run (ws.flatMap Store.ops) t = (t', true) ∧ Stored ws t t' := by
  induction ws generalizing t with
  | nil => exact ⟨t, rfl, fun w hw => (nomatch hw), fun w hw => (nomatch hw), fun a _ => rfl⟩
  | cons w ws ih =>
    have hw := List.mem_cons_self (a := w) (l := ws)
    obtain ⟨hhead, htail⟩ := List.pairwise_cons.1 happart
    -- the first file alone; the paths of the others are as clear and as free as before
    obtain ⟨t₁, hrun, hdone⟩ := run_store host (hclear w hw) (hfree w hw) (hdir w hw)
    obtain ⟨t', hrest, hfiles, hdirs, hother⟩ := ih htail
      (fun v hv => clear_of_done hdone (hclear v (List.mem_cons_of_mem _ hv)))
      (fun v hv => by
        rw [blocked_of_done hdone (hhead v hv) (hfree w hw)]
        exact hfree v (List.mem_cons_of_mem _ hv))
      (fun v hv => by
        rw [node_of_done hdone (hhead v hv)]
        exact hdir v (List.mem_cons_of_mem _ hv))
    refine ⟨t', ?_, ?_, ?_, ?_⟩
    · rw [List.flatMap_cons, run_append hrun, hrest]
    · intro v hv
      rcases List.mem_cons.1 hv with rfl | hv
      · rw [hother v.path fun u hu => (hhead u hu).1]
        exact hdone.1
      · exact hfiles v hv
    · intro v hv a ha
      rcases List.mem_cons.1 hv with rfl | hv
      · -- a later file may lie in the same directory
        by_cases hlater : ∃ u ∈ ws, a <+: u.path
        · obtain ⟨u, hu, hinit⟩ := hlater
          refine hdirs u hu a ⟨hinit, ?_⟩
          rintro rfl
          exact (hhead u hu).2 ha.1
        · push Not at hlater
          rw [hother a hlater]
          exact hdone.2.1 a ha
      · exact hdirs v hv a ha
    · intro a ha
      rw [hother a fun u hu => ha u (List.mem_cons_of_mem _ hu)]
      exact hdone.2.2 a (ha w hw)

/-- **Files that exist can be deleted.** -/
theorem run_unlinks (host : Host N C L) {paths : List (List N)} {t : Tree N C L}
    (hnodup : paths.Nodup) (hclear : ∀ path ∈ paths, t.Clear path)
    (hfile : ∀ path ∈ paths, t.file path ≠ none) :
    ∃ t', host.run (paths.map .unlink) t = (t', true) ∧
      ∀ a, t'.node a = if a ∈ paths then none else t.node a := by
  induction paths generalizing t with
  | nil =>
    refine ⟨t, rfl, fun a => ?_⟩
    rw [if_neg List.not_mem_nil]
  | cons path paths ih =>
    have hpath := List.mem_cons_self (a := path) (l := paths)
    obtain ⟨hnotin, hrest⟩ := List.nodup_cons.1 hnodup
    obtain ⟨t₁, hstep, hnode⟩ := step_unlink host (hclear path hpath) (hfile path hpath)
    have hclear₁ : ∀ a ∈ paths, t₁.Clear a := by
      intro a ha
      refine clear_of_links (fun b _ hlink => ?_) (hclear a (List.mem_cons_of_mem _ ha))
      obtain ⟨target, htarget⟩ := Tree.isLink_iff.1 hlink
      rw [hnode] at htarget
      split at htarget
      · cases htarget
      · exact Tree.isLink_iff.2 ⟨target, htarget⟩
    have hfile₁ : ∀ a ∈ paths, t₁.file a ≠ none := by
      intro a ha
      have hne : a ≠ path := by
        rintro rfl
        exact hnotin ha
      rw [Tree.file_of_node ((hnode a).trans (if_neg hne))]
      exact hfile a (List.mem_cons_of_mem _ ha)
    obtain ⟨t', hrun, hnode'⟩ := ih hrest hclear₁ hfile₁
    refine ⟨t', ?_, fun a => ?_⟩
    · rw [List.map_cons, run_cons hstep, hrun]
    · rw [hnode', hnode]
      grind

end Host

end FileTree
