import ArcAdmin.Flow.RepoPath
import Mathlib.Data.List.TakeWhile

/-!
# Repository paths stay in the repository

The path that `resolve_repo_path` accepts is inside as far as it exists, unless it ends in a slash: then
the last link on it is not looked at when it leads to no directory.

* **`existingAncestor_longest`** — the loop finds the longest prefix that exists;
* **`symlinkMetadata_slash`** — what a slash at the end asks for;
* **`acceptedInside_iff`** — when what is accepted is inside.
-/

namespace ArcAdmin

namespace Flow

open FileTree StdPath

namespace FileSystem

variable {C : Type} {fs : FileSystem C} {root path : Segments}

/-! ## Inside

What inside means: for the part of the path that exists, by following links; for the rest, by its
names. The last definition names the one kind of path for which the check and this meaning differ.
-/

/-- The components of a path. -/
def names (path : Segments) : List Name := path.filter (! isVoid ·)

/-- Something is there, be it a link that leads nowhere. -/
def Existing (fs : FileSystem C) (path : Segments) : Prop := (fs.symlinkMetadata path).isSome = true

/-- The path leads to a place inside the root. -/
def LeadsInside (fs : FileSystem C) (root path : Segments) : Prop :=
  ∃ place, fs.canonicalize path = some place ∧ root <+: place

/-- The longest prefix of the path that exists leads inside, and the rest goes nowhere up. -/
def Contained (fs : FileSystem C) (root path : Segments) : Prop :=
  ∃ front rest, names path = front ++ rest ∧ fs.Existing front ∧
    (∀ front', front' <+: names path → fs.Existing front' → front' <+: front) ∧
    fs.LeadsInside root front ∧ parentName ∉ rest

/-- What is accepted is inside, and exists where it must. -/
def AcceptedInside (fs : FileSystem C) (root : Segments) (path : Text) (label : String)
    (mustExist : Bool) : Prop :=
  ∀ returned, fs.resolveRepoPath root path label mustExist = .ok returned →
    fs.Contained root returned ∧ (mustExist = true → (fs.canonicalize returned).isSome = true)

/-- A path that the first two checks let through. -/
def IsRelative (path : Text) : Prop :=
  path ≠ [] ∧ isAbsolute path = false ∧ parentName ∉ segments path

/-- The path ends in a slash, or in a slash and a dot, behind a link in the repository that leads
neither to a directory nor inside. -/
def HiddenLink (fs : FileSystem C) (root : Segments) (path : Text) : Prop :=
  (∃ segment, (segments path).getLast? = some segment ∧ isVoid segment = true) ∧
    ∃ link, fs.symlinkMetadata (names (root ++ segments path)) = some link ∧
      fs.tree.isLink link = true ∧ root <+: link ∧
      ∀ place, fs.canonicalize (names (root ++ segments path)) = some place →
        fs.tree.isDir place = false ∧ ¬ root <+: place

/-! ## Components

A path as a text, as its components, and without the slashes at its end. The checks of the
function look at different ones of these.
-/

section Components

theorem isVoid_parentName : isVoid parentName = false := by decide

/-- What the second check of `resolve_repo_path` looks for. -/
theorem parentDir_mem_components {path : Text} (hrel : isAbsolute path = false) :
    .parentDir ∈ components path ∨ .rootDir ∈ components path ↔ parentName ∈ segments path := by
  have hcomponent : ∀ segment : Name, component segment ≠ .rootDir ∧ (component segment = .parentDir ↔
      segment = parentName) := by
    intro segment
    unfold component parentName
    by_cases h : segment = ['.', '.'] <;> simp [h]
  have hfront : ∀ c ∈ (if isAbsolute path then [Component.rootDir]
      else if (segments path).head? = some ['.'] then [.curDir] else []), c = .curDir := by
    intro c hc
    rw [hrel, if_neg (by simp)] at hc
    split at hc
    · simpa using hc
    · simp at hc
  unfold components
  simp only [List.mem_append, List.mem_map, List.mem_filter]
  constructor
  · rintro ((hc | ⟨segment, ⟨hmem, -⟩, heq⟩) | (hc | ⟨segment, -, heq⟩))
    · cases hfront _ hc
    · exact ((hcomponent segment).2.1 heq) ▸ hmem
    · cases hfront _ hc
    · exact absurd heq (hcomponent segment).1
  · intro hmem
    exact Or.inl (Or.inr ⟨parentName, ⟨hmem, by decide⟩, (hcomponent parentName).2.2 rfl⟩)

theorem moves_step (segment : Name) : Moves (step segment) = ! isVoid segment := by
  unfold step
  by_cases hvoid : isVoid segment = true
  · simp [hvoid, Moves]
  · by_cases hup : segment = parentName <;> simp [hvoid, hup, Moves, isVoid_parentName]

theorem filter_steps (path : Segments) : (path.map step).filter Moves = (names path).map step := by
  rw [List.filter_map, names]
  congr 1
  apply List.filter_congr
  intro segment _
  exact moves_step segment

/-- The path does not end in a slash. -/
def Tidy (path : Segments) : Prop := ∀ segment, path.getLast? = some segment → isVoid segment = false

theorem Tidy.ends (h : Tidy path) : Ends (path.map step) := by
  intro s hs
  rw [List.getLast?_map, Option.map_eq_some_iff] at hs
  obtain ⟨segment, hsegment, rfl⟩ := hs
  rw [moves_step, h segment hsegment]
  rfl

theorem Tidy.locate (h : Tidy path) (ending : Ending) :
    locate fs.tree ending fs.limit (path.map step) =
      locate fs.tree ending fs.limit ((names path).map step) := by
  unfold FileTree.locate
  rw [← filter_steps, walk_filter h.ends]

/-- The path without the slashes at its end. -/
def tidied (path : Segments) : Segments := (path.reverse.dropWhile isVoid).reverse

theorem tidied_append (path : Segments) :
    ∃ back, path = tidied path ++ back ∧ ∀ segment ∈ back, isVoid segment = true := by
  refine ⟨(path.reverse.takeWhile isVoid).reverse, ?_, ?_⟩
  · rw [tidied, ← List.reverse_append, List.takeWhile_append_dropWhile, List.reverse_reverse]
  · intro segment hsegment
    exact List.mem_takeWhile_imp (List.mem_reverse.1 hsegment)

theorem tidy_tidied (path : Segments) : Tidy (tidied path) := by
  intro segment hsegment
  rw [tidied, List.getLast?_reverse] at hsegment
  have hnot := List.head?_dropWhile_not isVoid path.reverse
  rw [hsegment] at hnot
  simpa using hnot

theorem names_append (front back : Segments) : names (front ++ back) = names front ++ names back :=
  List.filter_append _ _

theorem names_void {back : Segments} (h : ∀ segment ∈ back, isVoid segment = true) : names back = [] := by
  unfold names
  rw [List.filter_eq_nil_iff]
  intro segment hsegment
  simp [h segment hsegment]

theorem names_tidied (path : Segments) : names (tidied path) = names path := by
  obtain ⟨back, hpath, hvoid⟩ := tidied_append path
  conv_rhs => rw [hpath]
  rw [names_append, names_void hvoid, List.append_nil]

theorem names_of_mem {path : Segments} (h : ∀ segment ∈ path, isVoid segment = false) :
    names path = path := by
  unfold names
  rw [List.filter_eq_self]
  intro segment hsegment
  simp [h segment hsegment]

/-- `Path::parent` takes the last component off. -/
theorem parent_spec (path : Segments) :
    (parent path = none ∧ names path = []) ∨
      ∃ front, parent path = some front ∧ Tidy front ∧ names path ≠ [] ∧
        names front = (names path).dropLast := by
  have htidied : (path.reverse.dropWhile isVoid).reverse = tidied path := rfl
  unfold parent
  cases hlast : path.reverse.dropWhile isVoid with
  | nil =>
    rw [hlast] at htidied
    refine Or.inl ⟨rfl, ?_⟩
    rw [← names_tidied, ← htidied]
    rfl
  | cons last rest =>
    rw [hlast, List.reverse_cons] at htidied
    have hnot : isVoid last = false := by
      apply tidy_tidied path last
      rw [← htidied]
      simp
    have hfront : (rest.dropWhile isVoid).reverse = tidied rest.reverse := by
      rw [tidied, List.reverse_reverse]
    have hnames : names path = names rest.reverse ++ [last] := by
      rw [← names_tidied, ← htidied, names_append]
      simp [names, hnot]
    refine Or.inr ⟨_, rfl, ?_, ?_, ?_⟩
    · rw [hfront]
      exact tidy_tidied _
    · rw [hnames]
      simp
    · rw [hfront, names_tidied, hnames, List.dropLast_concat]

end Components

/-! ## What is at a path

`symlink_metadata` does not follow a link at the end of a path, unless a slash behind it asks for
a directory.
-/

section Places

theorem existing_nil (fs : FileSystem C) : fs.Existing [] := by
  unfold Existing symlinkMetadata locate
  simp

theorem Tidy.symlinkMetadata (h : Tidy path) :
    fs.symlinkMetadata path = fs.symlinkMetadata (names path) := h.locate .entry

theorem Tidy.canonicalize (h : Tidy path) :
    fs.canonicalize path = fs.canonicalize (names path) := h.locate .target

/-- A slash at the end asks for a directory, links followed. -/
theorem locate_slash (h : ¬ Tidy path) (ending : Ending) :
    locate fs.tree ending fs.limit (path.map step) =
      (fs.canonicalize (names path)).filter (fs.tree.isDir ·) := by
  obtain ⟨back, hpath, hvoid⟩ := tidied_append path
  have hback : back ≠ [] := by
    rintro rfl
    rw [List.append_nil] at hpath
    rw [hpath] at h
    exact h (tidy_tidied path)
  have hstays : ∀ s ∈ back.map step, s = .here := by
    intro s hs
    obtain ⟨segment, hsegment, rfl⟩ := List.mem_map.1 hs
    rw [step, if_pos (hvoid segment hsegment)]
  have hfront : fs.canonicalize (names path) = fs.canonicalize (tidied path) := by
    rw [(tidy_tidied path).canonicalize, names_tidied]
  rw [hfront]
  conv_lhs => rw [hpath]
  unfold canonicalize locate
  rw [List.map_append, walk_stays hstays (by simpa using hback)]
  cases hwalk : walk fs.tree .target fs.limit [] ((tidied path).map step) with
  | none => rfl
  | some arrival =>
    cases hdir : fs.tree.isDir arrival.1 <;> simp [hdir, Option.filter]

/-- **What a slash at the end asks for.** -/
theorem symlinkMetadata_slash (h : ¬ Tidy path) :
    fs.symlinkMetadata path = (fs.canonicalize (names path)).filter (fs.tree.isDir ·) :=
  locate_slash h .entry

theorem canonicalize_names {place : List Name} (h : fs.canonicalize path = some place) :
    fs.canonicalize (names path) = some place := by
  by_cases htidy : Tidy path
  · rw [← htidy.canonicalize]
    exact h
  · have hslash : fs.canonicalize path = _ := locate_slash htidy .target
    rw [hslash, Option.filter_eq_some_iff] at h
    exact h.1

/-- Names that lead down. -/
def Downward (path : Segments) : Prop := ∀ name ∈ path, isVoid name = false ∧ name ≠ parentName

theorem Downward.steps (h : Downward path) : path.map step = path.map .down := by
  apply List.map_congr_left
  intro name hname
  obtain ⟨hvoid, hup⟩ := h name hname
  rw [step, if_neg (by simp [hvoid]), if_neg hup]

theorem Downward.names (h : Downward path) : names path = path :=
  names_of_mem fun name hname => (h name hname).1

theorem downward_of_node (h : fs.tree.node path ≠ none) : Downward path := by
  intro name hname
  obtain ⟨hvoid, hup, -⟩ := fs.named path h name hname
  exact ⟨hvoid, hup⟩

/-- The place that a canonical path names is the one it leads to. -/
theorem canonicalize_solid (h : Solid fs.tree path) : fs.canonicalize path = some path := by
  unfold FileSystem.canonicalize locate
  rw [(downward_of_node h.1).steps, walk_names (by simpa using h.1) (Or.inl (by simpa using h.2))]
  rfl

theorem solid_of_canonicalize {place : List Name} (h : fs.canonicalize path = some place) :
    Solid fs.tree place := by
  obtain ⟨arrival, hwalk, rfl⟩ := Option.map_eq_some_iff.1 h
  exact solid_of_walk (solid_of_dir (isDir_nil fs.tree)) hwalk

/-- The last name of a path. -/
theorem symlinkMetadata_last {front : Segments} {name : Name} (h : Downward (front ++ [name]))
    {place : List Name} (hplace : fs.symlinkMetadata (front ++ [name]) = some place) :
    ∃ dir, fs.canonicalize front = some dir ∧ place = dir ++ [name] ∧
      fs.tree.node place ≠ none ∧
      (fs.tree.isLink place = false → fs.canonicalize (front ++ [name]) = some place) := by
  -- all steps go downward, so the walk ends with this name
  have hsteps : (front ++ [name]).map step = front.map step ++ [.down name] := by
    have hname := h name (by simp)
    rw [List.map_append, List.map_singleton, step, if_neg (by simp [hname.1]), if_neg hname.2]
  unfold FileSystem.symlinkMetadata locate at hplace
  unfold FileSystem.canonicalize locate
  rw [hsteps, walk_last] at hplace
  rw [hsteps, walk_last]
  cases hwalk : walk fs.tree .target fs.limit [] (front.map step) with
  | none =>
    rw [hwalk] at hplace
    cases hplace
  | some arrival =>
    rw [hwalk, Option.bind_some] at hplace
    cases hdir : fs.tree.isDir arrival.1 with
    | false =>
      rw [hdir] at hplace
      cases hplace
    | true =>
      rw [hdir, if_pos rfl] at hplace
      cases hnode : fs.tree.node (arrival.1 ++ [name]) with
      | none =>
        rw [hnode] at hplace
        cases hplace
      | some node =>
        rw [hnode] at hplace
        have heq : place = arrival.1 ++ [name] := by
          cases node <;> exact (Option.some.inj hplace).symm
        refine ⟨arrival.1, rfl, heq, by rw [heq, hnode]; exact Option.some_ne_none _, fun hlink => ?_⟩
        rw [Option.bind_some, hdir, if_pos rfl, hnode]
        cases node with
        | file file => rw [heq]; rfl
        | dir => rw [heq]; rfl
        -- a link is excluded
        | link target =>
          rw [heq, Bool.eq_false_iff, Ne, Tree.isLink_iff] at hlink
          exact absurd ⟨target, hnode⟩ hlink

theorem existing_of_canonicalize (h : Downward path) {place : List Name}
    (hplace : fs.canonicalize path = some place) : fs.Existing path := by
  rcases List.eq_nil_or_concat' path with rfl | ⟨front, name, rfl⟩
  · exact existing_nil fs
  · have hsteps : (front ++ [name]).map step = front.map step ++ [.down name] := by
      have hname := h name (by simp)
      rw [List.map_append, List.map_singleton, step, if_neg (by simp [hname.1]), if_neg hname.2]
    unfold FileSystem.canonicalize locate at hplace
    unfold Existing FileSystem.symlinkMetadata locate
    rw [hsteps, walk_last] at hplace ⊢
    cases hwalk : walk fs.tree .target fs.limit [] (front.map step) with
    | none =>
      rw [hwalk] at hplace
      cases hplace
    | some arrival =>
      rw [hwalk, Option.bind_some] at hplace
      rw [Option.bind_some]
      cases hdir : fs.tree.isDir arrival.1 with
      | false =>
        rw [hdir] at hplace
        cases hplace
      | true =>
        rw [hdir, if_pos rfl] at hplace
        rw [if_pos rfl]
        cases hnode : fs.tree.node (arrival.1 ++ [name]) with
        | none =>
          rw [hnode] at hplace
          cases hplace
        | some node => cases node <;> rfl

/-- **The loop finds the longest prefix that exists.** -/
theorem existingAncestor_longest (htidy : Tidy path) {fuel : Nat} (hfuel : (names path).length < fuel) :
    ∃ ancestor, fs.existingAncestor fuel path = some ancestor ∧ Tidy ancestor ∧
      names ancestor <+: names path ∧ fs.Existing (names ancestor) ∧
      ∀ front, front <+: names path → fs.Existing front → front <+: names ancestor := by
  induction fuel generalizing path with
  | zero => omega
  | succ fuel ih =>
    rw [existingAncestor]
    by_cases hexists : (fs.symlinkMetadata path).isSome = true
    · rw [if_pos hexists]
      rw [htidy.symlinkMetadata] at hexists
      exact ⟨path, rfl, htidy, List.prefix_refl _, hexists, fun front hfront _ => hfront⟩
    · rw [if_neg hexists]
      rw [htidy.symlinkMetadata] at hexists
      rcases parent_spec path with ⟨-, hnil⟩ | ⟨above, habove, htidyAbove, hne, hnames⟩
      · rw [hnil] at hexists
        exact absurd (existing_nil fs) hexists
      · rw [habove]
        dsimp only
        have hlength : (names above).length < fuel := by
          have hpos := List.length_pos_iff.2 hne
          rw [hnames, List.length_dropLast]
          omega
        obtain ⟨ancestor, hloop, htidyAncestor, hinitial, hexistsAncestor, hlongest⟩ :=
          ih htidyAbove hlength
        rw [hnames] at hinitial hlongest
        refine ⟨ancestor, hloop, htidyAncestor, hinitial.trans (List.dropLast_prefix _),
          hexistsAncestor, fun front hfront hexistsFront => ?_⟩
        apply hlongest front _ hexistsFront
        -- the path itself does not exist
        rw [FileTree.prefix_dropLast hne]
        refine ⟨hfront, ?_⟩
        rintro rfl
        exact hexists hexistsFront

end Places

/-! ## What is accepted

The result of `resolve_repo_path`, case by case: something is at the path, nothing is, or a slash
at the end hides what is.
-/

section Accepted

variable {path : Text} {label : String} {mustExist : Bool}

theorem downward_candidate (hroot : fs.tree.isDir root = true) (hrel : IsRelative path) :
    Downward (names (root ++ segments path)) := by
  intro name hname
  obtain ⟨hmem, hvoid⟩ := List.mem_filter.1 hname
  have hvoid : isVoid name = false := by simpa using hvoid
  refine ⟨hvoid, ?_⟩
  rcases List.mem_append.1 hmem with hmem | hmem
  · exact (downward_of_node (solid_of_dir hroot).1 name hmem).2
  · rintro rfl
    exact hrel.2.2 hmem

/-- What is accepted where something is at the path. -/
theorem contained_of_canonicalize {place : List Name}
    (h : fs.canonicalize (root ++ segments path) = some place) (hinside : root <+: place) :
    fs.Contained root place ∧ (fs.canonicalize place).isSome = true := by
  have hsolid := solid_of_canonicalize h
  have hdown := downward_of_node hsolid.1
  have hcanonical := canonicalize_solid hsolid
  refine ⟨⟨place, [], ?_, existing_of_canonicalize hdown hcanonical, ?_, ⟨place, hcanonical, hinside⟩,
    by simp⟩, by rw [hcanonical]; rfl⟩
  · rw [hdown.names, List.append_nil]
  · intro front hfront _
    rwa [hdown.names] at hfront

theorem contained_of_longest (hdown : Downward (names (root ++ segments path))) {front : List Name}
    (hfront : front <+: names (root ++ segments path)) (hexists : fs.Existing front)
    (hlongest : ∀ front', front' <+: names (root ++ segments path) → fs.Existing front' →
      front' <+: front)
    (hinside : fs.LeadsInside root front) : fs.Contained root (root ++ segments path) := by
  obtain ⟨rest, hrest⟩ := hfront
  refine ⟨front, rest, hrest.symm, hexists, hlongest, hinside, fun hup => ?_⟩
  have hmem : parentName ∈ names (root ++ segments path) := by
    rw [← hrest]
    exact List.mem_append_right _ hup
  exact (hdown parentName hmem).2 rfl

/-- Past the checks of the text. -/
theorem resolveRepoPath_relative (hrel : IsRelative path) (label : String) (mustExist : Bool) :
    fs.resolveRepoPath root path label mustExist =
      if (fs.symlinkMetadata (root ++ segments path)).isSome then
        match fs.canonicalize (root ++ segments path) with
        | none => .error s!"resolve {label} {display (root ++ segments path)}"
        | some resolved =>
          if root <+: resolved then .ok resolved
          else .error s!"{label} escapes the repository: {display (root ++ segments path)}"
      else if mustExist then .error s!"{label} is missing: {display (root ++ segments path)}"
      else
        match fs.existingAncestor ((root ++ segments path).length + 1) (root ++ segments path) with
        | none => .error s!"cannot resolve {label}: {display (root ++ segments path)}"
        | some ancestor =>
          match fs.canonicalize ancestor with
          | none => .error s!"resolve {label} parent {display ancestor}"
          | some resolvedAncestor =>
            if root <+: resolvedAncestor then .ok (root ++ segments path)
            else .error s!"{label} escapes the repository: {display (root ++ segments path)}" := by
  obtain ⟨hne, habsolute, hup⟩ := hrel
  have h1 : ¬ (path = [] ∨ isAbsolute path = true) := by simp [hne, habsolute]
  have h2 : ¬ (.parentDir ∈ components path ∨ .rootDir ∈ components path) := by
    rw [parentDir_mem_components habsolute]
    exact hup
  unfold resolveRepoPath
  rw [if_neg h1]
  exact if_neg h2

theorem not_ok_of_not_relative (hrel : ¬ IsRelative path) {returned : Segments} :
    fs.resolveRepoPath root path label mustExist ≠ .ok returned := by
  intro h
  unfold resolveRepoPath at h
  split at h
  · cases h
  · rename_i htext
    rw [not_or, Bool.not_eq_true] at htext
    split at h
    · cases h
    · rename_i hup
      rw [parentDir_mem_components htext.2] at hup
      exact hrel ⟨htext.1, htext.2, hup⟩

/-- The path as it is, where its last existing ancestor leads inside. -/
theorem resolveRepoPath_missing (hrel : IsRelative path)
    (hmissing : fs.symlinkMetadata (root ++ segments path) = none) {ancestor : Segments}
    (hancestor : fs.existingAncestor ((root ++ segments path).length + 1) (root ++ segments path) =
      some ancestor) {returned : Segments} :
    fs.resolveRepoPath root path label false = .ok returned ↔
      returned = root ++ segments path ∧ fs.LeadsInside root ancestor := by
  rw [resolveRepoPath_relative hrel, hmissing, if_neg (by simp), if_neg (by simp), hancestor]
  dsimp only
  unfold LeadsInside
  cases hcanonical : fs.canonicalize ancestor with
  | none => simp
  | some place =>
    dsimp only
    by_cases hinside : root <+: place
    · rw [if_pos hinside, Except.ok.injEq, eq_comm]
      exact (and_iff_left ⟨place, rfl, hinside⟩).symm
    · rw [if_neg hinside]
      refine ⟨fun h => (by cases h), ?_⟩
      rintro ⟨-, place', hplace', hinside'⟩
      cases hplace'
      exact absurd hinside' hinside

/-- A path at which nothing is, and that does not end in a slash. -/
theorem contained_of_tidy (hroot : fs.tree.isDir root = true) (hrel : IsRelative path)
    (hmissing : fs.symlinkMetadata (root ++ segments path) = none)
    (htidy : Tidy (root ++ segments path)) {returned : Segments}
    (h : fs.resolveRepoPath root path label false = .ok returned) : fs.Contained root returned := by
  have hfuel : (names (root ++ segments path)).length < (root ++ segments path).length + 1 :=
    Nat.lt_succ_of_le (List.length_filter_le _ _)
  obtain ⟨ancestor, hloop, htidyAncestor, hinitial, hexists, hlongest⟩ :
      ∃ ancestor, fs.existingAncestor _ _ = some ancestor ∧ _ :=
    existingAncestor_longest htidy hfuel
  obtain ⟨rfl, place, hplace, hinside⟩ := (resolveRepoPath_missing hrel hmissing hloop).1 h
  rw [htidyAncestor.canonicalize] at hplace
  exact contained_of_longest (downward_candidate hroot hrel) hinitial hexists hlongest
    ⟨place, hplace, hinside⟩

/-- Behind a slash at the end, the loop begins at the parent. -/
theorem existingAncestor_slash
    (hmissing : fs.symlinkMetadata (root ++ segments path) = none) :
    ∃ ancestor, fs.existingAncestor ((root ++ segments path).length + 1) (root ++ segments path) =
        some ancestor ∧ Tidy ancestor ∧ names (root ++ segments path) ≠ [] ∧
      names ancestor <+: (names (root ++ segments path)).dropLast ∧ fs.Existing (names ancestor) ∧
      ∀ front, front <+: (names (root ++ segments path)).dropLast → fs.Existing front →
        front <+: names ancestor := by
  have hlength : (names (root ++ segments path)).length ≤ (root ++ segments path).length :=
    List.length_filter_le _ _
  have hnot : ¬ (fs.symlinkMetadata (root ++ segments path)).isSome = true := by simp [hmissing]
  rw [existingAncestor, if_neg hnot]
  rcases parent_spec (root ++ segments path) with ⟨-, hnil⟩ | ⟨above, habove, htidy, hne, hnames⟩
  · -- nothing but slashes leads to the root, which exists
    by_cases htidy : Tidy (root ++ segments path)
    · rw [htidy.symlinkMetadata, hnil] at hmissing
      have hexists := existing_nil fs
      rw [Existing, hmissing] at hexists
      cases hexists
    · rw [symlinkMetadata_slash htidy, hnil] at hmissing
      have hrootDir : fs.canonicalize [] = some [] := by
        unfold FileSystem.canonicalize locate
        simp
      rw [hrootDir, Option.filter_some, isDir_nil, if_pos rfl] at hmissing
      cases hmissing
  · have hpos := List.length_pos_iff.2 hne
    have hfuel : (names above).length < (root ++ segments path).length := by
      rw [hnames, List.length_dropLast]
      omega
    obtain ⟨ancestor, hloop, htidyAncestor, hinitial, hexists, hlongest⟩ :
        ∃ ancestor, fs.existingAncestor _ _ = some ancestor ∧ _ :=
      existingAncestor_longest htidy hfuel
    rw [hnames] at hinitial hlongest
    rw [habove]
    exact ⟨ancestor, hloop, htidyAncestor, hne, hinitial, hexists, hlongest⟩

/-- The path with a slash at its end, where something that is no directory is in front of the slash:
whether it is accepted depends on the directory that it is in. -/
theorem resolveRepoPath_slash (hroot : fs.tree.isDir root = true) (hrel : IsRelative path)
    (hmissing : fs.symlinkMetadata (root ++ segments path) = none) {place : List Name}
    (hplace : fs.symlinkMetadata (names (root ++ segments path)) = some place) {returned : Segments} :
    fs.resolveRepoPath root path label false = .ok returned ↔
      returned = root ++ segments path ∧ root <+: place.dropLast := by
  obtain ⟨ancestor, hloop, htidy, hne, hinitial, hexists, hlongest⟩ :=
    existingAncestor_slash hmissing
  obtain ⟨front, name, hnames⟩ := (List.eq_nil_or_concat' _).resolve_left hne
  have hdown := downward_candidate hroot hrel
  rw [hnames] at hdown hplace hinitial hlongest
  obtain ⟨dir, hdir, rfl, -, -⟩ := symlinkMetadata_last hdown hplace
  rw [List.dropLast_concat] at hinitial hlongest ⊢
  have hfrontDown : Downward front := fun n hn => hdown n (List.mem_append_left _ hn)
  have hsame : names ancestor = front := by
    apply hinitial.eq_of_length_le
    exact (hlongest front (List.prefix_refl _)
      (existing_of_canonicalize hfrontDown hdir)).length_le
  rw [resolveRepoPath_missing hrel hmissing hloop, LeadsInside, htidy.canonicalize, hsame, hdir]
  simp

theorem segments_ne_nil (path : Text) : segments path ≠ [] := List.splitOnP_ne_nil _ _

/-- A slash at the end hides what leads to no directory. -/
theorem contained_slash_iff (hroot : fs.tree.isDir root = true) (hrel : IsRelative path)
    (htidy : ¬ Tidy (root ++ segments path))
    (hmissing : fs.symlinkMetadata (root ++ segments path) = none) :
    (∀ returned, fs.resolveRepoPath root path label false = .ok returned →
        fs.Contained root returned) ↔ ¬ HiddenLink fs root path := by
  have hdown := downward_candidate hroot hrel
  -- the last segment is void, so the place it names is the one before
  have hvoid : ∃ segment, (segments path).getLast? = some segment ∧ isVoid segment = true := by
    have hne := segments_ne_nil path
    unfold Tidy at htidy
    push Not at htidy
    obtain ⟨segment, hsegment, hvoid⟩ := htidy
    rw [List.getLast?_append_of_ne_nil _ hne] at hsegment
    exact ⟨segment, hsegment, by simpa using hvoid⟩
  cases hplace : fs.symlinkMetadata (names (root ++ segments path)) with
  | none =>
    refine iff_of_true (fun returned h => ?_) ?_
    · -- nothing is there: the check judges the longest part that exists
      obtain ⟨ancestor, hloop, htidyAncestor, hne, hinitial, hexists, hlongest⟩ :=
        existingAncestor_slash hmissing
      obtain ⟨rfl, hinside⟩ := (resolveRepoPath_missing hrel hmissing hloop).1 h
      rw [LeadsInside, htidyAncestor.canonicalize] at hinside
      refine contained_of_longest hdown (hinitial.trans (List.dropLast_prefix _)) hexists ?_ hinside
      intro front hfront hexistsFront
      apply hlongest front _ hexistsFront
      rw [FileTree.prefix_dropLast hne]
      refine ⟨hfront, ?_⟩
      rintro rfl
      rw [Existing, hplace] at hexistsFront
      cases hexistsFront
    · rintro ⟨-, link, hlink, -⟩
      rw [hplace] at hlink
      cases hlink
  | some place =>
    have hexists : fs.Existing (names (root ++ segments path)) := by
      rw [Existing, hplace]
      rfl
    have hne : names (root ++ segments path) ≠ [] := (existingAncestor_slash hmissing).choose_spec.2.2.1
    obtain ⟨front, name, hnames⟩ := (List.eq_nil_or_concat' _).resolve_left hne
    have hlast := hplace
    rw [hnames] at hlast hdown
    obtain ⟨dir, -, hconcat, -, hfile⟩ := symlinkMetadata_last hdown hlast
    rw [← hnames] at hfile hdown
    have hplaceNe : place ≠ [] := by simp [hconcat]
    simp only [resolveRepoPath_slash hroot hrel hmissing hplace]
    cases hlink : fs.tree.isLink place with
    -- a plain entry is where its path says
    | false =>
      refine iff_of_true ?_ ?_
      · rintro returned ⟨rfl, hinside⟩
        exact contained_of_longest hdown (List.prefix_refl _) hexists (fun _ h _ => h)
          ⟨place, hfile hlink, hinside.trans (List.dropLast_prefix _)⟩
      · rintro ⟨-, link, hat, hlink', -⟩
        obtain rfl : place = link := Option.some.inj (hplace.symm.trans hat)
        rw [hlink] at hlink'
        cases hlink'
    | true =>
      -- a link is looked at as such, never followed: its target is not seen
      have hnotRoot : root ≠ place := by
        rintro rfl
        rw [(solid_of_dir hroot).2] at hlink
        cases hlink
      have hinside : root <+: place.dropLast ↔ root <+: place := by
        rw [FileTree.prefix_dropLast hplaceNe]
        exact and_iff_left hnotRoot
      have hnotDir : ∀ q, fs.canonicalize (names (root ++ segments path)) = some q →
          fs.tree.isDir q = false := by
        intro q hq
        rw [symlinkMetadata_slash htidy, hq] at hmissing
        simpa [Option.filter] using hmissing
      rw [hinside]
      constructor
      · -- if all accepted results are inside, the target of the link is not outside
        rintro hall ⟨-, link, hat, -, hlinkInside, hout⟩
        obtain rfl : place = link := Option.some.inj (hplace.symm.trans hat)
        obtain ⟨front', rest, hparts, -, hlongest, ⟨q, hq, hqInside⟩, -⟩ :=
          hall _ ⟨rfl, hlinkInside⟩
        have hwhole := hlongest _ (List.prefix_refl _) hexists
        have hsame : front' = names (root ++ segments path) :=
          (hparts ▸ List.prefix_append front' rest).eq_of_length_le hwhole.length_le
        rw [hsame] at hq
        exact (hout q hq).2 hqInside
      · rintro hvisible returned ⟨rfl, hplaceInside⟩
        refine contained_of_longest hdown (List.prefix_refl _) hexists (fun _ h _ => h) ?_
        by_contra hout
        refine hvisible ⟨hvoid, place, hplace, hlink, hplaceInside, fun q hq => ⟨hnotDir q hq, ?_⟩⟩
        exact fun hqInside => hout ⟨q, hq, hqInside⟩

/-- **What `resolve_repo_path` accepts is inside the repository**, unless a slash at the end of the
path hides a link that leads out. -/
theorem acceptedInside_iff (hroot : fs.tree.isDir root = true) :
    AcceptedInside fs root path label mustExist ↔
      ¬ (mustExist = false ∧ IsRelative path ∧ HiddenLink fs root path) := by
  by_cases hrel : IsRelative path
  case neg =>
    exact iff_of_true (fun returned h => absurd h (not_ok_of_not_relative hrel)) fun h => hrel h.2.1
  have hlast : ∀ segment, (segments path).getLast? = some segment →
      (root ++ segments path).getLast? = some segment := by
    intro segment hsegment
    rw [List.getLast?_append, hsegment]
    rfl
  have hslash : HiddenLink fs root path → ¬ Tidy (root ++ segments path) := by
    rintro ⟨⟨segment, hsegment, hvoid⟩, -⟩ htidy
    have hnot := htidy segment (hlast segment hsegment)
    rw [hvoid] at hnot
    cases hnot
  cases hexists : fs.symlinkMetadata (root ++ segments path) with
  | some place =>
    -- something is there: it is looked at with all links followed
    have hvisible : ¬ HiddenLink fs root path := by
      intro hhidden
      have hfilter := hexists
      rw [symlinkMetadata_slash (hslash hhidden), Option.filter_eq_some_iff] at hfilter
      obtain ⟨-, link, -, -, -, hout⟩ := hhidden
      have hfile := (hout place hfilter.1).1
      rw [hfilter.2] at hfile
      cases hfile
    refine iff_of_true (fun returned h => ?_) fun h => hvisible h.2.2
    rw [resolveRepoPath_relative hrel, hexists, Option.isSome_some, if_pos rfl] at h
    cases hcanonical : fs.canonicalize (root ++ segments path) with
    | none => rw [hcanonical] at h; cases h
    | some resolved =>
      rw [hcanonical] at h
      dsimp only at h
      split at h
      · rename_i hinside
        cases h
        obtain ⟨hcontained, hpresent⟩ := contained_of_canonicalize hcanonical hinside
        exact ⟨hcontained, fun _ => hpresent⟩
      · cases h
  | none =>
    cases mustExist with
    | true =>
      refine iff_of_true (fun returned h => ?_) fun h => by cases h.1
      rw [resolveRepoPath_relative hrel, hexists, if_neg (by simp), if_pos rfl] at h
      cases h
    | false =>
      have hiff : AcceptedInside fs root path label false ↔ ∀ returned,
          fs.resolveRepoPath root path label false = .ok returned → fs.Contained root returned :=
        forall_congr' fun returned => forall_congr' fun _ => and_iff_left (fun h => by cases h)
      rw [hiff]
      by_cases htidy : Tidy (root ++ segments path)
      · exact iff_of_true (fun returned h => contained_of_tidy hroot hrel hexists htidy h)
          fun h => hslash h.2.2 htidy
      · rw [contained_slash_iff hroot hrel htidy hexists]
        exact ⟨fun h hall => h hall.2.2, fun h hhidden => h ⟨rfl, hrel, hhidden⟩⟩

/-- What is read at a path that is inside is inside. -/
theorem Contained.reads {returned : Segments} (h : fs.Contained root returned)
    (hdown : Downward (names returned)) {place : List Name}
    (hplace : fs.canonicalize returned = some place) : root <+: place := by
  have hnames := canonicalize_names hplace
  obtain ⟨front, rest, hparts, -, hlongest, ⟨q, hq, hinside⟩, -⟩ := h
  have hwhole := hlongest _ (List.prefix_refl _) (existing_of_canonicalize hdown hnames)
  have hsame : front = names returned :=
    (hparts ▸ List.prefix_append front rest).eq_of_length_le hwhole.length_le
  rw [hsame, hnames] at hq
  cases hq
  exact hinside

end Accepted

/-! ## A repository with a link to a file outside

The same link, with a slash behind it and without.
-/

def sampleNodes : List (List Name × Node Unit (Target Name)) :=
  [(["repo".toList], .dir), (["repo".toList, "docs".toList], .dir),
    (["secrets".toList], .file ⟨0, ()⟩),
    (["repo".toList, "link".toList], .link ⟨true, [.down "secrets".toList]⟩)]

/-- `/repo/link` points to `/secrets`. -/
def sampleFiles : FileSystem Unit where
  tree := .ofNodes sampleNodes (by decide +kernel)
  limit := 40
  named path h name hname := by
    have hall : ∀ path ∈ sampleNodes.map Prod.fst, ∀ name ∈ path,
        isVoid name = false ∧ name ≠ parentName ∧ '/' ∉ name := by
      decide +kernel
    rcases Tree.mem_ofNodes h with rfl | hmem
    · simp at hname
    · exact hall path hmem name hname

def sampleRoot : Segments := ["repo".toList]

/-- A directory of the repository. -/
theorem acceptedInside_docs :
    AcceptedInside sampleFiles sampleRoot "docs/new.md".toList "reports" false :=
  (acceptedInside_iff (by decide +kernel)).2 fun h => by
    obtain ⟨⟨segment, hlast, hvoid⟩, -⟩ := h.2.2
    have hname : (segments "docs/new.md".toList).getLast? = some "new.md".toList := by decide +kernel
    obtain rfl := Option.some.inj (hname.symm.trans hlast)
    revert hvoid
    decide +kernel

/-- **`link/`** is accepted, and leads to a file outside; `link` is not accepted. -/
theorem acceptedInside_slash :
    sampleFiles.resolveRepoPath sampleRoot "link/".toList "audit excluded path" false =
        .ok ["repo".toList, "link".toList, []] ∧
      ¬ AcceptedInside sampleFiles sampleRoot "link/".toList "audit excluded path" false ∧
      ∀ returned, sampleFiles.resolveRepoPath sampleRoot "link".toList "audit excluded path" false ≠
        .ok returned := by
  have hhidden : HiddenLink sampleFiles sampleRoot "link/".toList := by
    refine ⟨⟨[], by decide +kernel, rfl⟩, ["repo".toList, "link".toList], by decide +kernel,
      by decide +kernel, by decide +kernel, fun place hplace => ?_⟩
    have houtside : sampleFiles.canonicalize (names (sampleRoot ++ segments "link/".toList)) =
        some ["secrets".toList] := by
      decide +kernel
    obtain rfl := Option.some.inj (houtside.symm.trans hplace)
    exact ⟨by decide +kernel, by decide +kernel⟩
  refine ⟨by decide +kernel, fun h => ?_, fun returned h => ?_⟩
  · have hrel : IsRelative "link/".toList := ⟨by decide +kernel, by decide +kernel, by decide +kernel⟩
    exact (acceptedInside_iff (by decide +kernel)).1 h ⟨rfl, hrel, hhidden⟩
  · have herror : sampleFiles.resolveRepoPath sampleRoot "link".toList "audit excluded path" false =
        .error "audit excluded path escapes the repository: /repo/link" := by
      decide +kernel
    rw [herror] at h
    cases h

end FileSystem

end Flow

end ArcAdmin
