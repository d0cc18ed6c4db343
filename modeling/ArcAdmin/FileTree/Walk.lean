import ArcAdmin.FileTree.Tree

/-!
# Walking through symbolic links

A path is walked step by step from a directory. A link on the way is replaced by what it points to, as
long as the budget of links lasts.

* **`walk_append`** — a path is walked in two parts;
* **`walk_filter`** — steps that stay where they are do not matter, unless they end the path;
* **`walk_names`** — a path without links leads to itself;
* **`node_of_walk`** — what a walk ends at exists, and is a link only where links are not followed.
-/

namespace FileTree

inductive Step (N : Type) where
  | here
  | up
  | down (name : N)
  deriving DecidableEq

/-- What a link points to, from the directory that it is in or from the root. -/
structure Target (N : Type) where
  absolute : Bool
  steps : List (Step N)

/-- What is wanted at the end of a path. -/
inductive Ending where
  /-- the entry of that name, be it a link -/
  | entry
  /-- what the links lead to -/
  | target
  /-- the same, or the place where it can be created -/
  | place
  deriving DecidableEq

/-- A place, and how many links may still be followed. -/
abbrev Arrival (N : Type) := List N × Nat

variable {N C : Type}

section Walk

variable (t : Tree N C (Target N)) (ending : Ending)

/-- The walk up to the next link. -/
def walkWith (again : List N → List (Step N) → Option (Arrival N)) (budget : Nat) :
    List N → List (Step N) → Option (Arrival N)
  | cur, [] => some (cur, budget)
  | cur, step :: rest =>
    if t.isDir cur then
      match step with
      | .here => walkWith again budget cur rest
      | .up => walkWith again budget cur.dropLast rest
      | .down name =>
        match t.node (cur ++ [name]) with
        | none => if rest.isEmpty && ending == .place then some (cur ++ [name], budget) else none
        | some (.link target) =>
          if rest.isEmpty && ending == .entry then some (cur ++ [name], budget)
          else again (if target.absolute then [] else cur) (target.steps ++ rest)
        | some _ => walkWith again budget (cur ++ [name]) rest
    else none

/-- The walk from `cur`. -/
def walk : Nat → List N → List (Step N) → Option (Arrival N)
  | 0 => walkWith t ending (fun _ _ => none) 0
  | budget + 1 => walkWith t ending (walk budget) (budget + 1)

/-- The walk from the root, to the place where it ends. -/
def locate (budget : Nat) (path : List (Step N)) : Option (List N) :=
  (walk t ending budget [] path).map Prod.fst

end Walk

section Steps

variable {t : Tree N C (Target N)} {ending : Ending} {budget : Nat} {cur place : List N}
  {rest : List (Step N)} {name : N}

/-- The walk goes on at what a link points to. -/
def jump (t : Tree N C (Target N)) (ending : Ending) (budget : Nat) (cur : List N)
    (target : Target N) (rest : List (Step N)) : Option (Arrival N) :=
  match budget with
  | 0 => none
  | budget + 1 => walk t ending budget (if target.absolute then [] else cur) (target.steps ++ rest)

@[simp] theorem walk_nil : walk t ending budget cur [] = some (cur, budget) := by
  cases budget <;> rfl

theorem walk_of_not_dir {step : Step N} (h : t.isDir cur = false) :
    walk t ending budget cur (step :: rest) = none := by
  cases budget <;> simp [walk, walkWith, h]

theorem walk_here (h : t.isDir cur = true) :
    walk t ending budget cur (.here :: rest) = walk t ending budget cur rest := by
  cases budget <;> simp [walk, walkWith, h]

theorem walk_up (h : t.isDir cur = true) :
    walk t ending budget cur (.up :: rest) = walk t ending budget cur.dropLast rest := by
  cases budget <;> simp [walk, walkWith, h]

theorem walk_down (h : t.isDir cur = true) :
    walk t ending budget cur (.down name :: rest) =
      match t.node (cur ++ [name]) with
      | none => if rest.isEmpty && ending == .place then some (cur ++ [name], budget) else none
      | some (.link target) =>
        if rest.isEmpty && ending == .entry then some (cur ++ [name], budget)
        else jump t ending budget cur target rest
      | some _ => walk t ending budget (cur ++ [name]) rest := by
  cases budget <;> simp only [walk, walkWith, h, if_true] <;> rfl

theorem walk_missing (h : t.isDir cur = true) (hnode : t.node (cur ++ [name]) = none) :
    walk t ending budget cur (.down name :: rest) =
      if rest.isEmpty && ending == .place then some (cur ++ [name], budget) else none := by
  rw [walk_down h, hnode]

theorem walk_link {target : Target N} (h : t.isDir cur = true)
    (hnode : t.node (cur ++ [name]) = some (.link target)) :
    walk t ending budget cur (.down name :: rest) =
      if rest.isEmpty && ending == .entry then some (cur ++ [name], budget)
      else jump t ending budget cur target rest := by
  rw [walk_down h, hnode]

theorem walk_found {node : Node C (Target N)} (h : t.isDir cur = true)
    (hnode : t.node (cur ++ [name]) = some node) (hlink : t.isLink (cur ++ [name]) = false) :
    walk t ending budget cur (.down name :: rest) = walk t ending budget (cur ++ [name]) rest := by
  rw [walk_down h, hnode]
  cases node with
  | file file => rfl
  | dir => rfl
  | link target => rw [Tree.isLink_iff.2 ⟨target, hnode⟩] at hlink; cases hlink

/-- Induction along a walk. -/
theorem walk_induction (t : Tree N C (Target N)) {motive : Nat → List N → List (Step N) → Prop}
    (nil : ∀ b cur, motive b cur [])
    (blocked : ∀ b cur step rest, t.isDir cur = false → motive b cur (step :: rest))
    (here : ∀ b cur rest, t.isDir cur = true → motive b cur rest → motive b cur (.here :: rest))
    (up : ∀ b cur rest, t.isDir cur = true → motive b cur.dropLast rest → motive b cur (.up :: rest))
    (missing : ∀ b cur name rest, t.isDir cur = true → t.node (cur ++ [name]) = none →
      motive b cur (.down name :: rest))
    (link : ∀ b cur name rest target, t.isDir cur = true →
      t.node (cur ++ [name]) = some (.link target) →
      (∀ b', b = b' + 1 →
        motive b' (if target.absolute then [] else cur) (target.steps ++ rest)) →
      motive b cur (.down name :: rest))
    (found : ∀ b cur name rest node, t.isDir cur = true → t.node (cur ++ [name]) = some node →
      t.isLink (cur ++ [name]) = false → motive b (cur ++ [name]) rest →
      motive b cur (.down name :: rest))
    (b : Nat) (cur : List N) (steps : List (Step N)) : motive b cur steps := by
  -- for a given number of links, the induction is on the steps that are left
  have hsteps : ∀ b, (∀ b', b = b' + 1 → ∀ cur steps, motive b' cur steps) →
      ∀ steps cur, motive b cur steps := by
    intro b hfewer steps
    induction steps with
    | nil => exact nil b
    | cons step rest ih =>
      intro cur
      cases hdir : t.isDir cur with
      | false => exact blocked b cur step rest hdir
      | true =>
        cases step with
        | here => exact here b cur rest hdir (ih cur)
        | up => exact up b cur rest hdir (ih _)
        | down name =>
          cases hnode : t.node (cur ++ [name]) with
          | none => exact missing b cur name rest hdir hnode
          | some node =>
            cases hlink : t.isLink (cur ++ [name]) with
            | false => exact found b cur name rest node hdir hnode hlink (ih _)
            | true =>
              obtain ⟨target, htarget⟩ := Tree.isLink_iff.1 hlink
              exact link b cur name rest target hdir htarget fun b' hb => hfewer b' hb _ _
  -- the number of links decreases where a link is followed
  induction b generalizing cur steps with
  | zero => exact hsteps 0 (fun b' hb => absurd hb (by omega)) steps cur
  | succ b ih =>
    refine hsteps (b + 1) (fun b' hb => ?_) steps cur
    obtain rfl : b = b' := Nat.succ.inj hb
    exact fun cur steps => ih cur steps

/-- **A path is walked in two parts**; links at the end of the first are followed. -/
theorem walk_append {path more : List (Step N)} (hmore : more ≠ []) :
    walk t ending budget cur (path ++ more) =
      (walk t .target budget cur path).bind fun arrival => walk t ending arrival.2 arrival.1 more := by
  induction budget, cur, path using walk_induction t with
  | nil b cur => simp
  | blocked b cur step rest hdir =>
    rw [List.cons_append, walk_of_not_dir hdir, walk_of_not_dir hdir]
    rfl
  | here b cur rest hdir ih => rw [List.cons_append, walk_here hdir, walk_here hdir, ih]
  | up b cur rest hdir ih => rw [List.cons_append, walk_up hdir, walk_up hdir, ih]
  | missing b cur name rest hdir hnode =>
    rw [List.cons_append, walk_missing hdir hnode, walk_missing hdir hnode]
    simp [hmore]
  | link b cur name rest target hdir hnode ih =>
    rw [List.cons_append, walk_link hdir hnode, walk_link hdir hnode]
    have hrest : (rest ++ more).isEmpty = false := by simp [hmore]
    rw [hrest, Bool.false_and, if_neg (by simp), if_neg (by simp)]
    cases b with
    | zero => rfl
    | succ b =>
      have hjump := ih b rfl
      rw [List.append_assoc] at hjump
      exact hjump
  | found b cur name rest node hdir hnode hlink ih =>
    rw [List.cons_append, walk_found hdir hnode hlink, walk_found hdir hnode hlink, ih]

/-- Steps that stay where they are. -/
def Moves (step : Step N) : Bool :=
  match step with
  | .here => false
  | _ => true

/-- The path does not end with a step that stays. -/
def Ends (path : List (Step N)) : Prop := ∀ step, path.getLast? = some step → Moves step = true

theorem Ends.tail {step : Step N} {path : List (Step N)} (h : Ends (step :: path)) : Ends path := by
  intro s hs
  apply h s
  cases path with
  | nil => simp at hs
  | cons first path => rw [List.getLast?_cons_cons, hs]

theorem Ends.isEmpty_filter {path : List (Step N)} (h : Ends path) :
    (path.filter Moves).isEmpty = path.isEmpty := by
  cases hlast : path.getLast? with
  | none =>
    rw [List.getLast?_eq_none_iff] at hlast
    rw [hlast]
    rfl
  | some step =>
    have hmem := List.mem_of_getLast? hlast
    have hfilter : step ∈ path.filter Moves := List.mem_filter.2 ⟨hmem, h step hlast⟩
    rw [List.isEmpty_eq_false_iff.2 (List.ne_nil_of_mem hfilter),
      List.isEmpty_eq_false_iff.2 (List.ne_nil_of_mem hmem)]

/-- Links are used up. -/
theorem walk_le {path : List (Step N)} {arrival : Arrival N}
    (h : walk t ending budget cur path = some arrival) : arrival.2 ≤ budget := by
  induction budget, cur, path using walk_induction t with
  | nil b cur =>
    cases (walk_nil.symm.trans h)
    exact Nat.le_refl b
  | blocked b cur step rest hdir => rw [walk_of_not_dir hdir] at h; cases h
  | here b cur rest hdir ih => rw [walk_here hdir] at h; exact ih h
  | up b cur rest hdir ih => rw [walk_up hdir] at h; exact ih h
  | missing b cur name rest hdir hnode =>
    rw [walk_missing hdir hnode] at h
    split at h
    · cases h
      exact Nat.le_refl b
    · cases h
  | link b cur name rest target hdir hnode ih =>
    rw [walk_link hdir hnode] at h
    split at h
    · cases h
      exact Nat.le_refl b
    · cases b with
      | zero => cases h
      | succ b => exact Nat.le_succ_of_le (ih b rfl h)
  | found b cur name rest node hdir hnode hlink ih =>
    rw [walk_found hdir hnode hlink] at h
    exact ih h

/-- **Steps that stay where they are** do not matter, unless they end the path. -/
theorem walk_filter {path : List (Step N)} (hends : Ends path) :
    walk t ending budget cur (path.filter Moves) = walk t ending budget cur path := by
  -- the outer induction is on the links that may be followed, the inner one on the path
  induction budget using Nat.strong_induction_on generalizing cur path with
  | _ budget ihBudget =>
    induction path generalizing cur with
    | nil => rfl
    | cons step rest ih =>
      have hempty := hends.isEmpty_filter
      cases hdir : t.isDir cur with
      | false =>
        have hne : (step :: rest).filter Moves ≠ [] := by
          rw [← List.isEmpty_eq_false_iff, hempty]
          rfl
        obtain ⟨first, more, heq⟩ := List.exists_cons_of_ne_nil hne
        rw [heq, walk_of_not_dir hdir, walk_of_not_dir hdir]
      | true =>
        cases step with
        | here => rw [walk_here hdir, List.filter_cons_of_neg (by simp [Moves]), ih hends.tail]
        | up => rw [List.filter_cons_of_pos rfl, walk_up hdir, walk_up hdir, ih hends.tail]
        | down name =>
          have hrest : ∀ target, jump t ending budget cur target (rest.filter Moves) =
              jump t ending budget cur target rest := by
            intro target
            cases budget with
            | zero => rfl
            | succ budget =>
              by_cases hnil : rest = []
              · rw [hnil]
                rfl
              · -- behind the link, the rest is walked with fewer links
                have hfilter : rest.filter Moves ≠ [] := by
                  rw [← List.isEmpty_eq_false_iff, hends.tail.isEmpty_filter]
                  exact List.isEmpty_eq_false_iff.2 hnil
                dsimp only [jump]
                rw [walk_append hnil, walk_append hfilter]
                cases harrival : walk t .target budget (if target.absolute then [] else cur)
                    target.steps with
                | none => rfl
                | some arrival =>
                  exact ihBudget arrival.2 (Nat.lt_succ_of_le (walk_le harrival)) hends.tail
          rw [List.filter_cons_of_pos rfl, walk_down hdir, walk_down hdir,
            hends.tail.isEmpty_filter]
          simp only [hrest, ih hends.tail]

theorem dir_dropLast {path : List N} (h : t.isDir path = true) : t.isDir path.dropLast = true := by
  by_cases hnil : path = []
  · rw [hnil] at h ⊢
    exact h
  · rw [Tree.isDir_iff] at h ⊢
    exact t.dir_of_above (dropLast_above hnil) (by rw [h]; exact Option.some_ne_none _)

/-- **A path without links** leads to itself. -/
theorem walk_names {names : List N} (hnode : t.node (cur ++ names) ≠ none)
    (hlink : t.isLink (cur ++ names) = false ∨ ending = .entry) :
    walk t ending budget cur (names.map .down) = some (cur ++ names, budget) := by
  induction names generalizing cur with
  | nil => simp
  | cons name names ih =>
    have hassoc : cur ++ name :: names = (cur ++ [name]) ++ names := by simp
    have hdir : t.isDir cur = true := by
      rw [Tree.isDir_iff]
      apply t.dir_of_above ⟨List.prefix_append _ _, _⟩ hnode
      intro hsame
      simpa using congrArg List.length hsame
    rw [hassoc] at hnode hlink ⊢
    cases names with
    | nil =>
      rw [List.append_nil] at hnode hlink ⊢
      cases h : t.node (cur ++ [name]) with
      | none => exact absurd h hnode
      | some node =>
        cases hl : t.isLink (cur ++ [name]) with
        | false =>
          rw [List.map_cons, walk_found hdir h hl]
          exact walk_nil
        | true =>
          obtain ⟨target, htarget⟩ := Tree.isLink_iff.1 hl
          obtain rfl : ending = .entry := hlink.resolve_left (by simp [hl])
          rw [List.map_cons, walk_link hdir htarget]
          rfl
    | cons second names =>
      have hfirst : t.node (cur ++ [name]) = some .dir := by
        apply t.dir_of_above ⟨List.prefix_append _ _, _⟩ hnode
        intro hsame
        simpa using congrArg List.length hsame
      have hl : t.isLink (cur ++ [name]) = false := by
        rw [Bool.eq_false_iff, Ne, Tree.isLink_iff, hfirst]
        rintro ⟨_, ⟨⟩⟩
      rw [List.map_cons, walk_found hdir hfirst hl]
      exact ih hnode hlink

/-- Something is at the place, and it is not a link. -/
def Solid (t : Tree N C (Target N)) (place : List N) : Prop :=
  t.node place ≠ none ∧ t.isLink place = false

theorem solid_of_dir (h : t.isDir cur = true) : Solid t cur := by
  rw [Tree.isDir_iff] at h
  refine ⟨by rw [h]; exact Option.some_ne_none _, ?_⟩
  rw [Bool.eq_false_iff, Ne, Tree.isLink_iff, h]
  rintro ⟨_, ⟨⟩⟩

theorem isDir_nil (t : Tree N C (Target N)) : t.isDir [] = true := Tree.isDir_iff.2 t.root

theorem isDir_start {target : Target N} (h : t.isDir cur = true) :
    t.isDir (if target.absolute then [] else cur) = true := by
  split
  · exact isDir_nil t
  · exact h

/-- **What a walk ends at.** -/
theorem node_of_walk {path : List (Step N)} {arrival : Arrival N} (hcur : Solid t cur)
    (h : walk t ending budget cur path = some arrival) :
    Solid t arrival.1 ∨ ending = .entry ∧ t.isLink arrival.1 = true ∨
      ending = .place ∧ t.node arrival.1 = none ∧ arrival.1 ≠ [] ∧
        t.isDir arrival.1.dropLast = true := by
  induction budget, cur, path using walk_induction t with
  | nil b cur =>
    cases (walk_nil.symm.trans h)
    exact Or.inl hcur
  | blocked b cur step rest hdir => rw [walk_of_not_dir hdir] at h; cases h
  | here b cur rest hdir ih => rw [walk_here hdir] at h; exact ih hcur h
  | up b cur rest hdir ih => rw [walk_up hdir] at h; exact ih (solid_of_dir (dir_dropLast hdir)) h
  | missing b cur name rest hdir hnode =>
    rw [walk_missing hdir hnode] at h
    split at h
    · rename_i hplace
      cases h
      simp only [Bool.and_eq_true, beq_iff_eq] at hplace
      refine Or.inr (Or.inr ⟨hplace.2, hnode, by simp, ?_⟩)
      rw [List.dropLast_concat]
      exact hdir
    · cases h
  | link b cur name rest target hdir hnode ih =>
    rw [walk_link hdir hnode] at h
    split at h
    · rename_i hentry
      cases h
      simp only [Bool.and_eq_true, beq_iff_eq] at hentry
      exact Or.inr (Or.inl ⟨hentry.2, Tree.isLink_iff.2 ⟨target, hnode⟩⟩)
    · cases b with
      | zero => cases h
      | succ b => exact ih b rfl (solid_of_dir (isDir_start hdir)) h
  | found b cur name rest node hdir hnode hlink ih =>
    rw [walk_found hdir hnode hlink] at h
    exact ih ⟨by rw [hnode]; exact Option.some_ne_none _, hlink⟩ h

theorem solid_of_walk {path : List (Step N)} {arrival : Arrival N} (hcur : Solid t cur)
    (h : walk t .target budget cur path = some arrival) : Solid t arrival.1 := by
  rcases node_of_walk hcur h with hsolid | ⟨hfalse, -⟩ | ⟨hfalse, -⟩
  · exact hsolid
  · cases hfalse
  · cases hfalse

/-- The end of a path that ends with a name. -/
theorem walk_last {path : List (Step N)} :
    walk t ending budget cur (path ++ [.down name]) =
      (walk t .target budget cur path).bind fun arrival =>
        if t.isDir arrival.1 then
          match t.node (arrival.1 ++ [name]) with
          | none => if ending == .place then some (arrival.1 ++ [name], arrival.2) else none
          | some (.link target) =>
            if ending == .entry then some (arrival.1 ++ [name], arrival.2)
            else jump t ending arrival.2 arrival.1 target []
          | some _ => some (arrival.1 ++ [name], arrival.2)
        else none := by
  rw [walk_append (by simp)]
  congr 1
  funext arrival
  cases hdir : t.isDir arrival.1 with
  | false =>
    rw [walk_of_not_dir hdir]
    rfl
  | true =>
    rw [walk_down hdir]
    simp only [List.isEmpty_nil, Bool.true_and, walk_nil, if_true]

/-- The end of a path that stays where it is. -/
theorem walk_stays {path stays : List (Step N)} (hstays : ∀ s ∈ stays, s = .here) (hne : stays ≠ []) :
    walk t ending budget cur (path ++ stays) =
      (walk t .target budget cur path).bind fun arrival =>
        if t.isDir arrival.1 then some arrival else none := by
  have hall : ∀ arrival : Arrival N, stays ≠ [] → walk t ending arrival.2 arrival.1 stays =
      if t.isDir arrival.1 then some arrival else none := by
    intro arrival
    induction stays with
    | nil => simp
    | cons s stays ih =>
      obtain ⟨rfl, hrest⟩ := List.forall_mem_cons.1 hstays
      intro _
      cases hdir : t.isDir arrival.1 with
      | false => rw [walk_of_not_dir hdir, if_neg (by simp)]
      | true =>
        rw [walk_here hdir, if_pos rfl]
        cases stays with
        | nil => exact walk_nil
        | cons second stays =>
          rw [ih hrest (by simp) (by simp), hdir, if_pos rfl]
  rw [walk_append hne]
  congr 1
  funext arrival
  exact hall arrival hne

end Steps

end FileTree
