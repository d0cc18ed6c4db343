import Mathlib.Data.List.TakeWhile
import ArcAdmin.Flow.Project

/-!
# Expanding templates

`expand` replaces one name after the other in the whole text. Where no value brings in a placeholder
of a name that is still to come, this is the same as replacing every placeholder once.

* **`template_eq`** — a validated template is literal text and placeholders of the project;
* **`expand_eq_iff`** — when the expansion is one pass over the template;
* **`expandsOnce_iff`** — the same for every order in which the aliases are stored.
-/

namespace ArcAdmin

namespace Flow

open Replacement

/-! ## Templates

The specification: a template is taken apart once, and the values are put in.
-/

/-- The placeholders of a template, each with the literal text behind it. The fuel bounds their
number; a template has no more of them than symbols. -/
def holesOf : Nat → Text → List (Text × Text)
  | 0, _ => []
  | fuel + 1, rest =>
    match rest.dropWhile (· != '\x7b') with
    | [] => []
    | _ :: tail =>
      match tail.dropWhile (· != '\x7d') with
      | [] => []
      | _ :: rest =>
        (tail.takeWhile (· != '\x7d'), rest.takeWhile (· != '\x7b')) :: holesOf fuel rest

def holes (value : Text) : List (Text × Text) := holesOf (value.length + 1) value

/-- The literal text in front of the first placeholder. -/
def lead (value : Text) : Text := value.takeWhile (· != '\x7b')

/-- No placeholder begins in the text. -/
def Literal (text : Text) : Prop := '\x7b' ∉ text

theorem literal_lead (value : Text) : Literal (lead value) := fun h => by
  simpa using List.mem_takeWhile_imp h

theorem literal_of_mem_holesOf {fuel : Nat} {value : Text} {hole : Text × Text}
    (h : hole ∈ holesOf fuel value) : Literal hole.2 := by
  induction fuel generalizing value with
  | zero => exact absurd h List.not_mem_nil
  | succ fuel ih =>
    rw [holesOf] at h
    split at h
    · exact absurd h List.not_mem_nil
    · split at h
      · exact absurd h List.not_mem_nil
      · rcases List.mem_cons.1 h with rfl | h
        · exact literal_lead _
        · exact ih h

namespace ProjectPaths

variable {project : ProjectPaths}

/-- The value of a placeholder. -/
def valueOf (project : ProjectPaths) (name : Text) : Text :=
  (project.path name).getD (placeholder name)

/-- The simultaneous substitution: one pass, with the name that is being read. Outside of a
placeholder the text is copied; inside, the name is collected up to its brace. A name that is
never closed is literal text. -/
def substituteFrom (project : ProjectPaths) : Option Text → Text → Text
  | none, [] => []
  | none, c :: rest =>
    if c = '\x7b' then project.substituteFrom (some []) rest
    else c :: project.substituteFrom none rest
  | some name, [] => '\x7b' :: name
  | some name, c :: rest =>
    if c = '\x7d' then project.valueOf name ++ project.substituteFrom none rest
    else project.substituteFrom (some (name ++ [c])) rest

def substitute (project : ProjectPaths) (value : Text) : Text := project.substituteFrom none value

/-! ## The names of a project

Names consist of harmless symbols, and values are absolute paths.
-/

/-- The names that `expand` replaces last, in this order. -/
def fixedNames : List Text := [auditConfigName, secretsConfigName, reportsName, rootName]

/-- The name of a placeholder has no symbol of a placeholder or of a path. -/
structure IsName (name : Text) : Prop where
  open_not_mem : '\x7b' ∉ name
  close_not_mem : '\x7d' ∉ name
  slash_not_mem : '/' ∉ name

theorem isName_of_isId {name : Text} (h : isId name = true) : IsName name := by
  have hall : ∀ c ∈ name,
      (isAsciiLowercase c || isAsciiDigit c || ".-_".toList.contains c) = true := by
    rw [isId, Bool.and_eq_true] at h
    exact List.all_eq_true.1 h.2
  constructor
  · intro hmem
    exact absurd (hall _ hmem) (by decide +kernel)
  · intro hmem
    exact absurd (hall _ hmem) (by decide +kernel)
  · intro hmem
    exact absurd (hall _ hmem) (by decide +kernel)

theorem isName_of_mem_fixedNames {name : Text} (h : name ∈ fixedNames) : IsName name := by
  have hfixed : ∀ name ∈ fixedNames, isId name = true := by decide +kernel
  exact isName_of_isId (by
    by_cases hid : isId name = true
    · exact hid
    · exact hfixed name h)

theorem isName_of_mem_names {name : Text} (h : name ∈ project.names) : IsName name := by
  rcases List.mem_append.1 h with halias | hfixed
  · exact isName_of_isId (project.aliases_valid name halias).1
  · exact isName_of_mem_fixedNames hfixed

theorem not_mem_fixedNames {name : Text} (h : name ∈ project.aliases.map Prod.fst) :
    name ∉ fixedNames := by
  intro hfixed
  have hreserved : ∀ name ∈ fixedNames, isReserved name = true := by decide +kernel
  have hnot := (project.aliases_valid name h).2
  rw [hreserved name hfixed] at hnot
  exact Bool.noConfusion hnot

theorem names_nodup : project.names.Nodup := by
  refine List.nodup_append.2 ⟨project.aliases_nodup, by decide +kernel, ?_⟩
  rintro name halias _ hfixed rfl
  exact not_mem_fixedNames halias hfixed

theorem allowedPlaceholder_iff {name : Text} :
    project.allowedPlaceholder name = true ↔ name ∈ project.names := by
  rw [allowedPlaceholder, names, Bool.or_eq_true, List.contains_iff_mem, List.contains_iff_mem,
    List.mem_append]
  simp only [List.mem_cons, List.not_mem_nil, or_false]
  tauto

/-- **Every name of the project has an absolute path.** -/
theorem path_of_mem_names {name : Text} (h : name ∈ project.names) :
    ∃ path, project.path name = some path ∧ path.head? = some '/' := by
  have habsolute := project.absolute
  simp only [List.forall_mem_cons] at habsolute
  obtain ⟨hroot, hreports, haudit, hsecrets, haliases⟩ := habsolute
  unfold path
  split
  · exact ⟨_, rfl, hroot⟩
  split
  · exact ⟨_, rfl, hreports⟩
  split
  · exact ⟨_, rfl, haudit⟩
  split
  · exact ⟨_, rfl, hsecrets⟩
  rcases List.mem_append.1 h with halias | hfixed
  · cases hlookup : project.aliases.lookup name with
    | none =>
      obtain ⟨entry, hentry, rfl⟩ := List.mem_map.1 halias
      have := List.lookup_eq_none_iff.1 hlookup entry hentry
      simp at this
    | some path =>
      obtain ⟨before, after, heq, -⟩ := List.lookup_eq_some_iff.1 hlookup
      refine ⟨path, rfl, haliases path (List.mem_map.2 ⟨(name, path), ?_, rfl⟩)⟩
      rw [heq]
      simp
  · simp_all [List.mem_cons]

theorem valueOf_head {name : Text} (h : name ∈ project.names) :
    (project.valueOf name).head? = some '/' := by
  obtain ⟨path, hpath, hhead⟩ := path_of_mem_names h
  rw [valueOf, hpath]
  exact hhead

theorem replaceName_eq {name text : Text} (h : name ∈ project.names) :
    project.replaceName text name = replaceAll (placeholder name) (project.valueOf name) text := by
  obtain ⟨path, hpath, -⟩ := path_of_mem_names h
  rw [replaceName, valueOf, hpath]
  rfl

/-! ## Placeholders in a text

Where a placeholder can begin, and where none can reach across.
-/

theorem placeholder_ne_nil (name : Text) : placeholder name ≠ [] := List.cons_ne_nil _ _

theorem slash_not_mem_placeholder {name : Text} (hname : IsName name) : '/' ∉ placeholder name := by
  have hslash := hname.slash_not_mem
  simp [placeholder, hslash]

theorem not_occurs_of_literal {name text : Text} (htext : Literal text) :
    ¬ Occurs (placeholder name) text :=
  fun h => htext (h.subset List.mem_cons_self)

/-- In front of a literal text stands no other placeholder than its own. -/
theorem occurs_placeholder {name other text : Text} (hname : IsName name) (hother : IsName other)
    (htext : Literal text) (h : Occurs (placeholder other) (placeholder name ++ text)) :
    other = name := by
  have hclose : ∀ {name : Text}, IsName name → ∀ rest,
      (name ++ '\x7d' :: rest).takeWhile (· != '\x7d') = name := by
    intro name hname rest
    have hall : ∀ c ∈ name, (c != '\x7d') = true := fun c hc => by
      rw [bne_iff_ne]
      rintro rfl
      exact hname.close_not_mem hc
    rw [List.takeWhile_append_of_pos hall]
    simp
  have heq : placeholder name ++ text = '\x7b' :: (name ++ '\x7d' :: text) := by simp [placeholder]
  rw [heq] at h
  rcases List.infix_cons_iff.1 h with hstart | hrest
  · obtain ⟨rest, hrest⟩ := hstart
    have htail : other ++ '\x7d' :: rest = name ++ '\x7d' :: text := by
      simpa [placeholder] using hrest
    rw [← hclose hother rest, htail, hclose hname text]
  · -- behind the opening brace no placeholder begins
    refine absurd hrest (not_occurs_of_literal ?_)
    have hopen := hname.open_not_mem
    simpa [Literal, hopen] using htext

/-- Where one of the symbols stands at which no placeholder can be crossed. -/
def Opens (text : Text) : Prop := text.head? = some '\x7b' ∨ text.head? = some '/'

theorem Opens.ne_nil {text : Text} (h : Opens text) : text ≠ [] := by
  rintro rfl
  rcases h with h | h <;> exact nomatch h

theorem Opens.bordered {name text : Text} (hname : IsName name) (h : Opens text) :
    Bordered (placeholder name) text := by
  intro c hc
  have hopen := hname.open_not_mem
  have hslash := hname.slash_not_mem
  rcases h with h | h <;> rw [h] at hc <;> cases hc <;> simp [placeholder, hopen, hslash]

theorem opens_replaceName {name text : Text} (hname : name ∈ project.names) (h : Opens text) :
    Opens (project.replaceName text name) := by
  rw [replaceName_eq hname]
  cases text with
  | nil => exact absurd rfl h.ne_nil
  | cons c rest =>
    rw [replaceAll, replaceFrom]
    split
    · right
      have hhead := valueOf_head hname
      rw [List.head?_append, hhead]
      rfl
    · exact h

/-! ## Literal texts and placeholders apart

A replacement works on each part of the template by itself, since no placeholder reaches from one
part into another.
-/

/-- **One replacement** goes through the parts of the template one by one. -/
theorem replaceName_flatMap {name front : Text} {xs : List (Text × Text)} {f : Text × Text → Text}
    (hname : name ∈ project.names) (hfront : Literal front) (hf : ∀ x ∈ xs, Opens (f x)) :
    project.replaceName (front ++ xs.flatMap f) name =
      front ++ xs.flatMap fun x => project.replaceName (f x) name := by
  have hborder : ∀ x ∈ xs, f x ≠ [] ∧ Bordered (placeholder name) (f x) := fun x hx =>
    ⟨(hf x hx).ne_nil, (hf x hx).bordered (isName_of_mem_names hname)⟩
  simp only [replaceName_eq hname]
  rw [replaceAll_flatMap hborder, replaceAll_of_not_occurs (not_occurs_of_literal hfront)]

/-- **All replacements** go through the parts of the template one by one. -/
theorem foldl_flatMap {names : List Text} {front : Text} {xs : List (Text × Text)}
    {f : Text × Text → Text} (hnames : ∀ name ∈ names, name ∈ project.names)
    (hfront : Literal front) (hf : ∀ x ∈ xs, Opens (f x)) :
    names.foldl project.replaceName (front ++ xs.flatMap f) =
      front ++ xs.flatMap fun x => names.foldl project.replaceName (f x) := by
  induction names generalizing f with
  | nil => rfl
  | cons name names ih =>
    obtain ⟨hname, hnames⟩ := List.forall_mem_cons.1 hnames
    rw [List.foldl_cons, replaceName_flatMap hname hfront hf,
      ih hnames fun x hx => opens_replaceName hname (hf x hx)]
    rfl

/-! ## One placeholder

The fate of one placeholder through all replacements.
-/

theorem foldl_of_not_occurs {names : List Text} {text : Text}
    (hnames : ∀ name ∈ names, name ∈ project.names)
    (h : ∀ name ∈ names, ¬ Occurs (placeholder name) text) :
    names.foldl project.replaceName text = text := by
  induction names with
  | nil => rfl
  | cons name names ih =>
    obtain ⟨hname, hnames⟩ := List.forall_mem_cons.1 hnames
    obtain ⟨hnot, h⟩ := List.forall_mem_cons.1 h
    rw [List.foldl_cons, replaceName_eq hname, replaceAll_of_not_occurs hnot]
    exact ih hnames h

theorem count_le_foldl {names : List Text} {text : Text}
    (hnames : ∀ name ∈ names, name ∈ project.names) :
    text.count '/' ≤ (names.foldl project.replaceName text).count '/' := by
  induction names generalizing text with
  | nil => exact Nat.le_refl _
  | cons name names ih =>
    obtain ⟨hname, hnames⟩ := List.forall_mem_cons.1 hnames
    have hslash := slash_not_mem_placeholder (isName_of_mem_names hname)
    refine le_trans ?_ (ih hnames)
    rw [replaceName_eq hname]
    exact count_le_replaceAll (placeholder_ne_nil name) hslash

/-- **A placeholder that is replaced leaves a trace**: every value begins with a slash, and no
placeholder has one. -/
theorem not_occurs_of_count {names : List Text} {text : Text}
    (hnames : ∀ name ∈ names, name ∈ project.names)
    (h : (names.foldl project.replaceName text).count '/' = text.count '/') :
    ∀ name ∈ names, ¬ Occurs (placeholder name) text := by
  induction names with
  | nil => exact fun name hname => absurd hname List.not_mem_nil
  | cons first names ih =>
    obtain ⟨hfirst, hnames⟩ := List.forall_mem_cons.1 hnames
    have hslash := slash_not_mem_placeholder (isName_of_mem_names hfirst)
    rw [List.foldl_cons, replaceName_eq hfirst] at h
    have hfirst' : ¬ Occurs (placeholder first) text := by
      intro hoccurs
      have hmem : '/' ∈ project.valueOf first := List.mem_of_head? (valueOf_head hfirst)
      have hlt := count_lt_replaceAll (placeholder_ne_nil first) hslash hmem hoccurs
      have hle : (replaceAll (placeholder first) (project.valueOf first) text).count '/' ≤
          (names.foldl project.replaceName
            (replaceAll (placeholder first) (project.valueOf first) text)).count '/' :=
        count_le_foldl hnames
      omega
    rw [replaceAll_of_not_occurs hfirst'] at h
    exact List.forall_mem_cons.2 ⟨hfirst', ih hnames h⟩

/-- What the placeholder of a template becomes when its turn has come. -/
theorem foldl_placeholder {before after : List Text} {name text : Text}
    (hnames : project.names = before ++ name :: after) (htext : Literal text) :
    project.names.foldl project.replaceName (placeholder name ++ text) =
      after.foldl project.replaceName (project.valueOf name ++ text) := by
  have hmem : ∀ other ∈ before ++ name :: after, other ∈ project.names := hnames ▸ fun _ h => h
  have hname : name ∈ project.names := hmem name (by simp)
  have hbefore : ∀ other ∈ before, ¬ Occurs (placeholder other) (placeholder name ++ text) := by
    intro other hother hoccurs
    have hmem' : other ∈ project.names := hmem other (by simp [hother])
    have heq := occurs_placeholder (isName_of_mem_names hname) (isName_of_mem_names hmem') htext
      hoccurs
    have hnodup := project.names_nodup
    rw [hnames] at hnodup
    exact (List.nodup_append.1 hnodup).2.2 other hother name List.mem_cons_self heq
  rw [hnames, List.foldl_append, List.foldl_cons,
    foldl_of_not_occurs (fun other hother => hmem other (by simp [hother])) hbefore,
    replaceName_eq hname, replaceAll_pat (placeholder_ne_nil name),
    replaceAll_of_not_occurs (not_occurs_of_literal htext)]

/-! ## Validated templates

Validation goes from brace to brace, so it takes the template apart in the same way.
-/

/-- A template in parts: literal text, and the placeholders with what stands behind each. -/
structure InParts (project : ProjectPaths) (front : Text) (parts : List (Text × Text)) : Prop where
  front : Literal front
  literal : ∀ part ∈ parts, Literal part.2
  name : ∀ part ∈ parts, part.1 ∈ project.names

/-- The parts put together, each placeholder as `f` says. -/
def assemble (front : Text) (parts : List (Text × Text)) (f : Text → Text) : Text :=
  front ++ parts.flatMap fun part => f part.1 ++ part.2

theorem eq_of_dropWhile {c d : Char} {text rest : Text}
    (h : text.dropWhile (· != c) = d :: rest) :
    text = text.takeWhile (· != c) ++ c :: rest := by
  have hsplit := List.takeWhile_append_dropWhile (p := (· != c)) (l := text)
  have hhead := List.head?_dropWhile_not (· != c) text
  rw [h] at hsplit hhead
  obtain rfl : d = c := by simpa using hhead
  exact hsplit.symm

/-- **A template that is validated** is literal text and placeholders of the project. -/
theorem validatePlaceholders_ok {owner : String} {value rest : Text} {fuel : Nat}
    (hfuel : rest.length < fuel)
    (h : project.validatePlaceholders owner value fuel rest = .ok ()) :
    rest = assemble (lead rest) (holesOf fuel rest) placeholder ∧
      ∀ hole ∈ holesOf fuel rest, hole.1 ∈ project.names := by
  induction fuel generalizing rest with
  | zero => exact absurd hfuel (Nat.not_lt_zero _)
  | succ fuel ih =>
    rw [validatePlaceholders] at h
    cases hopen : rest.dropWhile (· != '\x7b') with
    -- no opening brace: the rest is text
    | nil =>
      have hsplit := List.takeWhile_append_dropWhile (p := (· != '\x7b')) (l := rest)
      have hnone : holesOf (fuel + 1) rest = [] := by
        rw [holesOf]
        simp only [hopen]
      rw [hopen] at hsplit
      rw [hnone]
      exact ⟨hsplit.symm, fun hole hhole => absurd hhole List.not_mem_nil⟩
    | cons c tail =>
      simp only [hopen] at h
      cases hclose : tail.dropWhile (· != '\x7d') with
      -- an opening brace that is never closed is an error
      | nil =>
        simp only [hclose] at h
        exact nomatch h
      | cons d behind =>
        simp only [hclose] at h
        obtain ⟨_, hallowed, hbehind⟩ := bind_ok.1 h
        have hrest := eq_of_dropWhile hopen
        have htail := eq_of_dropWhile hclose
        -- the tail behind the closing brace is shorter, so the fuel lasts
        have hshort : behind.length < fuel := by
          have hlength := congrArg List.length hrest
          have hlength' := congrArg List.length htail
          simp only [List.length_append, List.length_cons] at hlength hlength'
          omega
        obtain ⟨heq, hnames⟩ := ih hshort hbehind
        have hholes : holesOf (fuel + 1) rest =
            (tail.takeWhile (· != '\x7d'), lead behind) :: holesOf fuel behind := by
          rw [holesOf]
          simp only [hopen, hclose]
          rfl
        rw [hholes]
        constructor
        · calc rest = lead rest ++ '\x7b' :: tail := hrest
            _ = lead rest ++ '\x7b' :: (tail.takeWhile (· != '\x7d') ++ '\x7d' :: behind) := by
              rw [← htail]
            _ = lead rest ++ '\x7b' :: (tail.takeWhile (· != '\x7d') ++
                  '\x7d' :: assemble (lead behind) (holesOf fuel behind) placeholder) := by
              rw [← heq]
            _ = _ := by simp [assemble, placeholder]
        · refine List.forall_mem_cons.2 ⟨?_, hnames⟩
          have hok := FlowConfig.bailIf_ok.1 hallowed
          exact allowedPlaceholder_iff.1 (by simpa using hok)

theorem template_eq {owner : String} {value : Text}
    (h : project.validateTemplate owner value = .ok ()) :
    value = assemble (lead value) (holes value) placeholder ∧
      InParts project (lead value) (holes value) := by
  obtain ⟨_, -, h⟩ := bind_ok.1 h
  obtain ⟨heq, hnames⟩ := validatePlaceholders_ok (Nat.lt_succ_self _) h
  exact ⟨heq, literal_lead value, fun hole hhole => literal_of_mem_holesOf hhole, hnames⟩

/-! ## The simultaneous substitution of a template

On a template in parts the substitution is immediate.
-/

theorem substituteFrom_literal {front rest : Text} (h : Literal front) :
    project.substituteFrom none (front ++ rest) = front ++ project.substituteFrom none rest := by
  induction front with
  | nil => rfl
  | cons c front ih =>
    have hc : c ≠ '\x7b' := fun hc => h (hc ▸ List.mem_cons_self)
    have hfront : Literal front := fun hmem => h (List.mem_cons_of_mem _ hmem)
    rw [List.cons_append, substituteFrom, if_neg hc, ih hfront, List.cons_append]

theorem substituteFrom_name {name read rest : Text} (h : '\x7d' ∉ name) :
    project.substituteFrom (some read) (name ++ '\x7d' :: rest) =
      project.valueOf (read ++ name) ++ project.substituteFrom none rest := by
  induction name generalizing read with
  | nil => rw [List.nil_append, substituteFrom, if_pos rfl, List.append_nil]
  | cons c name ih =>
    have hc : c ≠ '\x7d' := fun hc => h (hc ▸ List.mem_cons_self)
    have hname : '\x7d' ∉ name := fun hmem => h (List.mem_cons_of_mem _ hmem)
    rw [List.cons_append, substituteFrom, if_neg hc, ih hname, List.append_assoc]
    rfl

theorem substituteFrom_placeholder {name rest : Text} (h : IsName name) :
    project.substituteFrom none (placeholder name ++ rest) =
      project.valueOf name ++ project.substituteFrom none rest := by
  have heq : placeholder name ++ rest = '\x7b' :: (name ++ '\x7d' :: rest) := by simp [placeholder]
  rw [heq, substituteFrom, if_pos rfl, substituteFrom_name h.close_not_mem, List.nil_append]

/-- **The substitution** puts the value of each placeholder in its place. -/
theorem substitute_assemble {front : Text} {parts : List (Text × Text)}
    (h : InParts project front parts) :
    project.substitute (assemble front parts placeholder) =
      assemble front parts project.valueOf := by
  rw [substitute, assemble, substituteFrom_literal h.front, assemble]
  congr 1
  have hname := h.name
  have hliteral := h.literal
  clear h
  induction parts with
  | nil => rfl
  | cons part parts ih =>
    obtain ⟨hpart, hname⟩ := List.forall_mem_cons.1 hname
    obtain ⟨htext, hliteral⟩ := List.forall_mem_cons.1 hliteral
    rw [List.flatMap_cons, List.append_assoc,
      substituteFrom_placeholder (isName_of_mem_names hpart), substituteFrom_literal htext,
      ih hname hliteral, List.flatMap_cons, List.append_assoc]

/-! ## The expansion of a template

The parts are expanded apart, so the whole is right exactly if each part is.
-/

theorem opens_placeholder (part : Text × Text) : Opens (placeholder part.1 ++ part.2) := Or.inl rfl

theorem expand_assemble {front : Text} {parts : List (Text × Text)}
    (h : InParts project front parts) :
    project.expand (assemble front parts placeholder) =
      front ++ parts.flatMap fun part =>
        project.names.foldl project.replaceName (placeholder part.1 ++ part.2) :=
  foldl_flatMap (fun _ hname => hname) h.front fun part _ => opens_placeholder part

/-- The second name has its turn after the first. -/
def Follows (project : ProjectPaths) (name other : Text) : Prop :=
  List.Sublist [name, other] project.names

theorem follows_iff {before after : List Text} {name other : Text}
    (hnames : project.names = before ++ name :: after) :
    project.Follows name other ↔ other ∈ after := by
  have hnodup := project.names_nodup
  rw [hnames] at hnodup
  rw [Follows, hnames]
  have hbefore : name ∉ before := fun hmem =>
    (List.nodup_append.1 hnodup).2.2 name hmem name List.mem_cons_self rfl
  have hafter : name ∉ after := (List.nodup_cons.1 (List.nodup_append.1 hnodup).2.1).1
  constructor
  · intro hsub
    obtain ⟨front, back, heq, hfront, hback⟩ := List.sublist_append_iff.1 hsub
    cases front with
    | cons first front =>
      obtain rfl : name = first := (List.cons.inj heq).1
      exact absurd (hfront.subset List.mem_cons_self) hbefore
    | nil =>
      rw [List.nil_append] at heq
      rw [← heq] at hback
      rcases List.cons_sublist_cons'.1 hback with hback | hback
      · exact absurd (hback.subset List.mem_cons_self) hafter
      · exact hback.2.subset List.mem_cons_self
  · intro hother
    exact List.nil_sublist before |>.append
      ((List.singleton_sublist.2 hother).cons_cons name)

theorem block_count_le {name text : Text} (hname : name ∈ project.names) (htext : Literal text) :
    (project.valueOf name ++ text).count '/' ≤
      (project.names.foldl project.replaceName (placeholder name ++ text)).count '/' := by
  obtain ⟨before, after, hnames⟩ := List.append_of_mem hname
  rw [foldl_placeholder hnames htext]
  exact count_le_foldl fun other hother => by simp [hnames, hother]

theorem block_of_not_occurs {name text : Text} (hname : name ∈ project.names)
    (htext : Literal text)
    (h : ∀ other, project.Follows name other →
      ¬ Occurs (placeholder other) (project.valueOf name ++ text)) :
    project.names.foldl project.replaceName (placeholder name ++ text) =
      project.valueOf name ++ text := by
  obtain ⟨before, after, hnames⟩ := List.append_of_mem hname
  rw [foldl_placeholder hnames htext]
  apply foldl_of_not_occurs
  · intro other hother
    simp [hnames, hother]
  · intro other hother
    exact h other ((follows_iff hnames).2 hother)

theorem not_occurs_of_block {name text : Text} (hname : name ∈ project.names)
    (htext : Literal text)
    (h : (project.names.foldl project.replaceName (placeholder name ++ text)).count '/' ≤
      (project.valueOf name ++ text).count '/') {other : Text} (hother : project.Follows name other) :
    ¬ Occurs (placeholder other) (project.valueOf name ++ text) := by
  have hle := block_count_le hname htext
  obtain ⟨before, after, hnames⟩ := List.append_of_mem hname
  rw [foldl_placeholder hnames htext] at h hle
  refine not_occurs_of_count ?_ (Nat.le_antisymm h hle) other ((follows_iff hnames).1 hother)
  intro other hother
  simp [hnames, hother]

theorem count_flatMap_le {parts : List (Text × Text)} {f g : Text × Text → Text}
    (hle : ∀ part ∈ parts, (f part).count '/' ≤ (g part).count '/') :
    (parts.flatMap f).count '/' ≤ (parts.flatMap g).count '/' := by
  induction parts with
  | nil => exact Nat.le_refl _
  | cons part parts ih =>
    obtain ⟨hpart, hparts⟩ := List.forall_mem_cons.1 hle
    have hrest := ih hparts
    rw [List.flatMap_cons, List.flatMap_cons, List.count_append, List.count_append]
    omega

theorem count_le_of_flatMap {parts : List (Text × Text)} {f g : Text × Text → Text}
    (hle : ∀ part ∈ parts, (f part).count '/' ≤ (g part).count '/')
    (h : (parts.flatMap g).count '/' ≤ (parts.flatMap f).count '/') :
    ∀ part ∈ parts, (g part).count '/' ≤ (f part).count '/' := by
  induction parts with
  | nil => exact fun part hpart => absurd hpart List.not_mem_nil
  | cons part parts ih =>
    obtain ⟨hpart, hparts⟩ := List.forall_mem_cons.1 hle
    have hrest := count_flatMap_le hparts
    rw [List.flatMap_cons, List.flatMap_cons, List.count_append, List.count_append] at h
    exact List.forall_mem_cons.2 ⟨by omega, ih hparts (by omega)⟩

/-- **The expansion is one pass** unless a value, with the literal text behind it, holds a placeholder
whose turn comes later. -/
theorem expand_eq_iff {owner : String} {value : Text}
    (h : project.validateTemplate owner value = .ok ()) :
    project.expand value = project.substitute value ↔
      ∀ hole ∈ holes value, ∀ other, project.Follows hole.1 other →
        ¬ Occurs (placeholder other) (project.valueOf hole.1 ++ hole.2) := by
  obtain ⟨heq, hparts⟩ := template_eq h
  have hexpand := expand_assemble hparts
  have hsubstitute := substitute_assemble hparts
  rw [← heq] at hexpand hsubstitute
  rw [hexpand, hsubstitute, assemble, List.append_cancel_left_eq]
  constructor
  · intro hflat hole hhole other
    have hle : ∀ hole ∈ holes value, (project.valueOf hole.1 ++ hole.2).count '/' ≤
        (project.names.foldl project.replaceName (placeholder hole.1 ++ hole.2)).count '/' :=
      fun hole hhole => block_count_le (hparts.name hole hhole) (hparts.literal hole hhole)
    have hcount := count_le_of_flatMap hle (Nat.le_of_eq (congrArg (List.count '/') hflat)) hole hhole
    exact not_occurs_of_block (hparts.name hole hhole) (hparts.literal hole hhole) hcount
  · intro hnone
    refine List.flatMap_congr fun hole hhole => ?_
    exact block_of_not_occurs (hparts.name hole hhole) (hparts.literal hole hhole) (hnone hole hhole)

/-! ## The order of the aliases

Aliases are stored in some order, which decides what comes later.
-/

/-- The same project, with its aliases stored in another order. -/
def reordered (project : ProjectPaths) {aliases : List (Text × Text)}
    (h : aliases.Perm project.aliases) : ProjectPaths where
  root := project.root
  reports := project.reports
  auditConfig := project.auditConfig
  secretsConfig := project.secretsConfig
  aliases := aliases
  aliases_nodup := (h.map Prod.fst).nodup_iff.2 project.aliases_nodup
  aliases_valid := fun name hname => project.aliases_valid name ((h.map Prod.fst).mem_iff.1 hname)
  absolute := fun path hpath => project.absolute path (by
    simpa only [List.mem_cons, (h.map Prod.snd).mem_iff] using hpath)

/-- Whatever the order of the aliases, the expansion is the simultaneous substitution. -/
def ExpandsOnce (project : ProjectPaths) (value : Text) : Prop :=
  ∀ (aliases : List (Text × Text)) (h : aliases.Perm project.aliases),
    (project.reordered h).expand value = project.substitute value

/-- In some order of the aliases the second name has its turn after the first. -/
def MayFollow (project : ProjectPaths) (name other : Text) : Prop :=
  (name ∈ project.aliases.map Prod.fst ∧ other ∈ project.names ∧ other ≠ name) ∨
    List.Sublist [name, other] fixedNames

theorem lookup_iff_mem {aliases : List (Text × Text)} (h : (aliases.map Prod.fst).Nodup)
    {name path : Text} : aliases.lookup name = some path ↔ (name, path) ∈ aliases := by
  induction aliases with
  | nil => simp
  | cons entry aliases ih =>
    obtain ⟨first, value⟩ := entry
    obtain ⟨hfirst, hrest⟩ := List.nodup_cons.1 h
    rw [List.lookup_cons, List.mem_cons]
    by_cases heq : name = first
    · subst heq
      have hnot : (name, path) ∉ aliases := fun hmem =>
        hfirst (List.mem_map.2 ⟨(name, path), hmem, rfl⟩)
      simp [hnot, eq_comm]
    · have hbeq : (name == first) = false := beq_eq_false_iff_ne.2 heq
      simp [hbeq, heq, ih hrest]

theorem valueOf_reordered {aliases : List (Text × Text)} (h : aliases.Perm project.aliases)
    (name : Text) : (project.reordered h).valueOf name = project.valueOf name := by
  have hlookup : aliases.lookup name = project.aliases.lookup name := by
    apply Option.ext
    intro path
    have hnodup : (aliases.map Prod.fst).Nodup := (project.reordered h).aliases_nodup
    rw [lookup_iff_mem hnodup, lookup_iff_mem project.aliases_nodup, h.mem_iff]
  unfold valueOf path
  show (if name = rootName then _ else _ : Option Text).getD _ = _
  rw [reordered]
  simp only [hlookup]

theorem mem_names_reordered {aliases : List (Text × Text)} (h : aliases.Perm project.aliases)
    {name : Text} : name ∈ (project.reordered h).names ↔ name ∈ project.names := by
  rw [names, names, List.mem_append, List.mem_append]
  exact or_congr_left (h.map Prod.fst).mem_iff

theorem validatePlaceholders_reordered {aliases : List (Text × Text)}
    (h : aliases.Perm project.aliases) (owner : String) (value : Text) (fuel : Nat) (rest : Text) :
    (project.reordered h).validatePlaceholders owner value fuel rest =
      project.validatePlaceholders owner value fuel rest := by
  have hallowed : ∀ name,
      (project.reordered h).allowedPlaceholder name = project.allowedPlaceholder name := by
    intro name
    rw [Bool.eq_iff_iff, allowedPlaceholder_iff, allowedPlaceholder_iff, mem_names_reordered h]
  induction fuel generalizing rest with
  | zero => rfl
  | succ fuel ih =>
    rw [validatePlaceholders, validatePlaceholders]
    simp only [hallowed, ih]

theorem validateTemplate_reordered {aliases : List (Text × Text)}
    (h : aliases.Perm project.aliases) (owner : String) (value : Text) :
    (project.reordered h).validateTemplate owner value = project.validateTemplate owner value := by
  rw [validateTemplate, validateTemplate, validatePlaceholders_reordered h]

theorem substitute_reordered {aliases : List (Text × Text)} (h : aliases.Perm project.aliases)
    (value : Text) : (project.reordered h).substitute value = project.substitute value := by
  have hfrom : ∀ (state : Option Text) (rest : Text),
      (project.reordered h).substituteFrom state rest = project.substituteFrom state rest := by
    intro state rest
    induction rest generalizing state with
    | nil => cases state <;> rfl
    | cons c rest ih =>
      cases state <;> rw [substituteFrom, substituteFrom] <;> simp only [ih, valueOf_reordered h]
  exact hfrom none value

/-- Which names can come later in some order of the aliases. -/
theorem mayFollow_iff {name other : Text} :
    project.MayFollow name other ↔
      ∃ (aliases : List (Text × Text)) (h : aliases.Perm project.aliases),
        (project.reordered h).Follows name other := by
  constructor
  · rintro (⟨hname, hother, hne⟩ | hfixed)
    · -- the other name is stored last
      have hperm := List.filter_append_perm (fun entry => entry.1 != other) project.aliases
      refine ⟨_, hperm, ?_⟩
      have hfirst : name ∈ (project.aliases.filter fun entry => entry.1 != other).map Prod.fst := by
        obtain ⟨entry, hentry, rfl⟩ := List.mem_map.1 hname
        exact List.mem_map.2 ⟨entry, List.mem_filter.2 ⟨hentry, bne_iff_ne.2 hne.symm⟩, rfl⟩
      have hsecond : other ∈ (project.aliases.filter fun entry => !(entry.1 != other)).map Prod.fst ++
          fixedNames := by
        rcases List.mem_append.1 hother with halias | hfixed
        · obtain ⟨entry, hentry, rfl⟩ := List.mem_map.1 halias
          refine List.mem_append_left _ (List.mem_map.2 ⟨entry, ?_, rfl⟩)
          simp [List.mem_filter, hentry]
        · exact List.mem_append_right _ hfixed
      show List.Sublist [name, other] (List.map Prod.fst (_ ++ _) ++ fixedNames)
      rw [List.map_append, List.append_assoc]
      exact (List.singleton_sublist.2 hfirst).append (List.singleton_sublist.2 hsecond)
    · exact ⟨_, List.Perm.refl _, hfixed.trans (List.sublist_append_right _ _)⟩
  · rintro ⟨aliases, h, hfollows⟩
    have hnodup : [name, other].Nodup := hfollows.nodup (project.reordered h).names_nodup
    have hne : other ≠ name := fun heq => by simp [heq] at hnodup
    have hother : other ∈ project.names :=
      (mem_names_reordered h).1 (hfollows.subset (by simp))
    obtain ⟨front, back, heq, hfront, hback⟩ := List.sublist_append_iff.1 hfollows
    cases front with
    | nil =>
      rw [List.nil_append] at heq
      rw [← heq] at hback
      exact Or.inr hback
    | cons first front =>
      obtain rfl : name = first := (List.cons.inj heq).1
      have hname := hfront.subset List.mem_cons_self
      exact Or.inl ⟨(h.map Prod.fst).mem_iff.1 hname, hother, hne⟩

/-- **The expansion is the simultaneous substitution** in every order of the aliases, unless the value
of some placeholder, with the literal text behind it, holds a placeholder whose turn may come later. -/
theorem expandsOnce_iff {project : ProjectPaths} {owner : String} {value : Text}
    (h : project.validateTemplate owner value = .ok ()) :
    project.ExpandsOnce value ↔
      ∀ hole ∈ holes value, ∀ other, project.MayFollow hole.1 other →
        ¬ Occurs (placeholder other) (project.valueOf hole.1 ++ hole.2) := by
  have hone : ∀ (aliases : List (Text × Text)) (hperm : aliases.Perm project.aliases),
      (project.reordered hperm).expand value = project.substitute value ↔
        ∀ hole ∈ holes value, ∀ other, (project.reordered hperm).Follows hole.1 other →
          ¬ Occurs (placeholder other) (project.valueOf hole.1 ++ hole.2) := by
    intro aliases hperm
    have hvalid := (validateTemplate_reordered hperm owner value).trans h
    rw [← substitute_reordered hperm, expand_eq_iff hvalid]
    simp only [valueOf_reordered hperm]
  constructor
  · intro hall hole hhole other hmay
    obtain ⟨aliases, hperm, hfollows⟩ := mayFollow_iff.1 hmay
    exact (hone aliases hperm).1 (hall aliases hperm) hole hhole other hfollows
  · intro hnone aliases hperm
    refine (hone aliases hperm).2 fun hole hhole other hfollows => ?_
    exact hnone hole hhole other (mayFollow_iff.2 ⟨aliases, hperm, hfollows⟩)

theorem mem_names_of_mayFollow {name other : Text} (h : project.MayFollow name other) :
    other ∈ project.names := by
  rcases h with ⟨-, hother, -⟩ | hfixed
  · exact hother
  · exact List.mem_append_right _ (hfixed.subset (by simp))

/-- A project in `/repo` with the alias `app`. -/
def withApp (app : Text) (happ : app.head? = some '/') : ProjectPaths where
  root := "/repo".toList
  reports := "/repo/.arc-flow/reports".toList
  auditConfig := "/repo/.arc-flow/audit.toml".toList
  secretsConfig := "/repo/.arc-flow/secrets.toml".toList
  aliases := [("app".toList, app)]
  aliases_nodup := by simp
  aliases_valid := by
    simp only [List.map_cons, List.map_nil, List.forall_mem_singleton]
    decide +kernel
  absolute := by
    simp only [List.forall_mem_cons, List.map_cons, List.map_nil]
    exact ⟨rfl, rfl, rfl, rfl, happ, fun _ h => absurd h List.not_mem_nil⟩

theorem expandsOnce_app :
    (withApp "/repo/app".toList rfl).ExpandsOnce "\x7bapp\x7d/src".toList := by
  have hvalid : (withApp "/repo/app".toList rfl).validateTemplate "step"
      "\x7bapp\x7d/src".toList = .ok () := by decide +kernel
  have hnone : ∀ hole ∈ holes "\x7bapp\x7d/src".toList,
      ∀ other ∈ (withApp "/repo/app".toList rfl).names,
        ¬ Occurs (placeholder other) ((withApp "/repo/app".toList rfl).valueOf hole.1 ++ hole.2) := by
    decide +kernel
  exact (expandsOnce_iff hvalid).2 fun hole hhole other hmay =>
    hnone hole hhole other (mem_names_of_mayFollow hmay)

/-- The directory `x{root}` is named by the alias `app`: its name is expanded again. -/
theorem expandsOnce_braces :
    (withApp "/repo/x\x7broot\x7d".toList rfl).validateTemplate "step"
        "\x7bapp\x7d".toList = .ok () ∧
      (withApp "/repo/x\x7broot\x7d".toList rfl).substitute "\x7bapp\x7d".toList =
        "/repo/x\x7broot\x7d".toList ∧
      (withApp "/repo/x\x7broot\x7d".toList rfl).expand "\x7bapp\x7d".toList =
        "/repo/x/repo".toList ∧
      ¬ (withApp "/repo/x\x7broot\x7d".toList rfl).ExpandsOnce "\x7bapp\x7d".toList := by
  refine ⟨by decide +kernel, by decide +kernel, by decide +kernel, fun h => ?_⟩
  have hother : (withApp "/repo/x\x7broot\x7d".toList rfl).expand "\x7bapp\x7d".toList ≠
      (withApp "/repo/x\x7broot\x7d".toList rfl).substitute "\x7bapp\x7d".toList := by
    decide +kernel
  exact hother (h _ (List.Perm.refl _))

end ProjectPaths

end Flow

end ArcAdmin
