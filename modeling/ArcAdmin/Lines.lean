import Mathlib.Data.List.Infix
import Mathlib.Data.List.Count
import Mathlib.Data.List.Forall2
import Mathlib.Data.List.TakeWhile
import Mathlib.Tactic.Common
import ArcAdmin.Replacement

/-!
# Texts as lines

A text is cut into lines at its terminators. Every line is kept with the terminator in front of it;
the first line has one that is not in the text.

* **`render_cut`**, **`cut_append`** — cutting and putting together;
* **`eq_of_render`** — the lines are found again in the text;
* **`search_render`** — the first line with a key, as a search in multi-line mode finds it.
-/

namespace Lines

variable {α : Type} (ends : α → Bool)

/-- The terminator in front of a line, and the line. -/
abbrev Line (α : Type) := α × List α

def render (lines : List (Line α)) : List α := lines.flatMap fun line => line.1 :: line.2

/-- One more symbol in the first line. -/
def consFirst (c : α) : List (Line α) → List (Line α)
  | [] => []
  | line :: more => (line.1, c :: line.2) :: more

/-- The lines of a text that stands behind `t`. -/
def cut (t : α) : List α → List (Line α)
  | [] => [(t, [])]
  | c :: rest => if ends c then (t, []) :: cut c rest else consFirst c (cut t rest)

/-- Without terminator. -/
def Plain (text : List α) : Prop := ∀ c ∈ text, ends c = false

/-- A text that ends a line in front of it. -/
def Behind (text : List α) : Prop := ∀ c, text.head? = some c → ends c = true

/-- The lines stand behind terminators. -/
def Ended (lines : List (Line α)) : Prop := ∀ line ∈ lines, ends line.1 = true

variable {ends} {t d : α} {a b text key : List α} {lines more : List (Line α)}

@[simp] theorem render_nil : render ([] : List (Line α)) = [] := rfl

@[simp] theorem render_cons (line : Line α) (lines : List (Line α)) :
    render (line :: lines) = line.1 :: (line.2 ++ render lines) := rfl

@[simp] theorem render_append (lines more : List (Line α)) :
    render (lines ++ more) = render lines ++ render more := by
  unfold render
  rw [List.flatMap_append]

theorem Ended.behind (h : Ended ends lines) : Behind ends (render lines) := by
  intro c hc
  cases lines with
  | nil => simp at hc
  | cons line lines =>
    obtain rfl : line.1 = c := by simpa using hc
    exact h line List.mem_cons_self

section Cut

theorem cut_ne_nil (t : α) (text : List α) : cut ends t text ≠ [] := by
  induction text generalizing t with
  | nil => simp [cut]
  | cons c rest ih =>
    rw [cut]
    by_cases hc : ends c = true
    · simp [hc]
    · rw [if_neg hc]
      cases h : cut ends t rest with
      | nil => exact absurd h (ih t)
      | cons line more => simp [consFirst]

theorem cut_cons_end (hd : ends d = true) : cut ends t (d :: text) = (t, []) :: cut ends d text := by
  rw [cut, if_pos hd]

/-- **Cutting at a terminator.** -/
theorem cut_append (hd : ends d = true) :
    cut ends t (a ++ d :: b) = cut ends t a ++ cut ends d b := by
  induction a generalizing t with
  | nil => rw [List.nil_append, cut_cons_end hd]; rfl
  | cons c rest ih =>
    rw [List.cons_append, cut, cut]
    by_cases hc : ends c = true
    · rw [if_pos hc, if_pos hc, ih, List.cons_append]
    · rw [if_neg hc, if_neg hc, ih]
      cases h : cut ends t rest with
      | nil => exact absurd h (cut_ne_nil t rest)
      | cons line more => rfl

theorem render_consFirst {c : α} (h : lines ≠ []) :
    ∃ first rest, lines = first :: rest ∧
      render (consFirst c lines) = first.1 :: c :: (first.2 ++ render rest) := by
  cases lines with
  | nil => exact absurd rfl h
  | cons first rest => exact ⟨first, rest, rfl, rfl⟩

/-- **The lines make up the text.** -/
theorem render_cut (t : α) (text : List α) : render (cut ends t text) = t :: text := by
  induction text generalizing t with
  | nil => rfl
  | cons c rest ih =>
    rw [cut]
    by_cases hc : ends c = true
    · rw [if_pos hc, render_cons, ih]
      rfl
    · rw [if_neg hc]
      have hne : cut ends t rest ≠ [] := cut_ne_nil t rest
      obtain ⟨first, others, hcut, hrender⟩ := render_consFirst (c := c) hne
      have hrest := ih t
      rw [hcut, render_cons, List.cons.injEq] at hrest
      rw [hrender, hrest.1, hrest.2]

theorem cut_injective (h : cut ends t a = cut ends t b) : a = b := by
  have hrender := congrArg render h
  rw [render_cut, render_cut, List.cons.injEq] at hrender
  exact hrender.2

theorem cut_plain (h : Plain ends text) : cut ends t text = [(t, text)] := by
  induction text with
  | nil => rfl
  | cons c rest ih =>
    obtain ⟨hc, hrest⟩ := List.forall_mem_cons.1 h
    rw [cut, if_neg (by simp [hc]), ih hrest]
    rfl

theorem plain_of_mem_cut {line : Line α} (h : line ∈ cut ends t text) : Plain ends line.2 := by
  induction text generalizing t line with
  | nil =>
    obtain rfl : line = (t, []) := by simpa [cut] using h
    intro c hc
    simp at hc
  | cons c rest ih =>
    rw [cut] at h
    by_cases hc : ends c = true
    · rw [if_pos hc, List.mem_cons] at h
      rcases h with rfl | h
      · intro c hc
        simp at hc
      · exact ih h
    · rw [if_neg hc] at h
      cases hcut : cut ends t rest with
      | nil => exact absurd hcut (cut_ne_nil t rest)
      | cons first more =>
        rw [hcut, consFirst, List.mem_cons] at h
        rcases h with rfl | h
        · have hfirst := ih (hcut ▸ List.mem_cons_self)
          exact List.forall_mem_cons.2 ⟨by simpa using hc, hfirst⟩
        · exact ih (hcut ▸ List.mem_cons_of_mem _ h)

theorem ended_cut (ht : ends t = true) : Ended ends (cut ends t text) := by
  induction text generalizing t with
  | nil =>
    intro line h
    obtain rfl : line = (t, []) := by simpa [cut] using h
    exact ht
  | cons c rest ih =>
    rw [cut]
    by_cases hc : ends c = true
    · rw [if_pos hc]
      exact List.forall_mem_cons.2 ⟨ht, ih hc⟩
    · rw [if_neg hc]
      cases hcut : cut ends t rest with
      | nil => exact absurd hcut (cut_ne_nil t rest)
      | cons first more =>
        have hall := ih ht
        rw [hcut] at hall
        obtain ⟨hfirst, hmore⟩ := List.forall_mem_cons.1 hall
        exact List.forall_mem_cons.2 ⟨hfirst, hmore⟩

variable (ends) in
/-- Induction along the lines of a text. -/
theorem text_induction {motive : List α → Prop} (line : ∀ a, Plain ends a → motive a)
    (more : ∀ a d b, Plain ends a → ends d = true → motive b → motive (a ++ d :: b))
    (text : List α) : motive text := by
  have hmore : ∀ b a, Plain ends a → motive (a ++ b) := by
    intro b
    induction b with
    | nil =>
      intro a ha
      rw [List.append_nil]
      exact line a ha
    | cons c b ih =>
      intro a ha
      by_cases hc : ends c = true
      · exact more a c b ha hc (ih [] (by simp [Plain]))
      · have hplain : Plain ends (a ++ [c]) := by
          intro e he
          rcases List.mem_append.1 he with he | he
          · exact ha e he
          · obtain rfl : e = c := by simpa using he
            simpa using hc
        have happend := ih (a ++ [c]) hplain
        rwa [List.append_assoc] at happend
  exact hmore text [] (by simp [Plain])

end Cut

section Count

/-- The number of terminators. -/
def count (ends : α → Bool) (text : List α) : Nat := text.countP ends

@[simp] theorem count_nil : count ends ([] : List α) = 0 := rfl

@[simp] theorem count_append (a b : List α) : count ends (a ++ b) = count ends a + count ends b :=
  List.countP_append

theorem count_cons_end (hd : ends d = true) : count ends (d :: text) = count ends text + 1 :=
  List.countP_cons_of_pos hd

theorem count_eq_zero_iff : count ends text = 0 ↔ Plain ends text := by
  unfold count Plain
  rw [List.countP_eq_zero]
  simp

theorem Plain.count_eq_zero (h : Plain ends text) : count ends text = 0 := count_eq_zero_iff.2 h

/-- A text with `n` terminators in front of a line end is determined by what follows it. -/
theorem eq_of_append_eq {a' b' : List α} (h : a ++ b = a' ++ b')
    (hcount : count ends a = count ends a') (hb : Behind ends b) (hb' : Behind ends b') :
    a = a' ∧ b = b' := by
  have hshort : ∀ {x y z w : List α}, x ++ y = (x ++ z) ++ w → count ends x = count ends (x ++ z) →
      Behind ends y → z = [] := by
    intro x y z w heq hxz hy
    rw [List.append_assoc, List.append_cancel_left_eq] at heq
    cases z with
    | nil => rfl
    | cons c z =>
      have hc : ends c = true := hy c (by rw [heq]; rfl)
      rw [count_append, count_cons_end hc] at hxz
      omega
  rcases List.append_eq_append_iff.1 h with ⟨z, rfl, rfl⟩ | ⟨z, rfl, rfl⟩
  · obtain rfl := hshort h hcount hb
    simp
  · obtain rfl := hshort h.symm hcount.symm hb'
    simp

/-- The lines with other texts. -/
def onLines (f : List α → List α) (lines : List (Line α)) : List (Line α) :=
  lines.map fun line => (line.1, f line.2)

theorem Ended.onLines {f : List α → List α} (h : Ended ends lines) : Ended ends (onLines f lines) := by
  intro line hline
  obtain ⟨l, hl, rfl⟩ := List.mem_map.1 hline
  exact h l hl

theorem count_render_le {f g : List α → List α}
    (h : ∀ line ∈ lines, count ends (f line.2) ≤ count ends (g line.2)) :
    count ends (render (onLines f lines)) ≤ count ends (render (onLines g lines)) := by
  induction lines with
  | nil => exact Nat.le_refl _
  | cons line lines ih =>
    obtain ⟨hline, hrest⟩ := List.forall_mem_cons.1 h
    have hle := ih hrest
    simp only [onLines, List.map_cons, render_cons, count, List.countP_cons, List.countP_append]
      at hline hle ⊢
    omega

/-- **The lines are found again in the text**, where the terminators in them do not get fewer. -/
theorem eq_of_render {f g : List α → List α} (hends : Ended ends lines)
    (hle : ∀ line ∈ lines, count ends (f line.2) ≤ count ends (g line.2))
    (h : render (onLines g lines) = render (onLines f lines)) : ∀ line ∈ lines, g line.2 = f line.2 := by
  induction lines with
  | nil => simp
  | cons line lines ih =>
    obtain ⟨-, hendsRest⟩ := List.forall_mem_cons.1 hends
    obtain ⟨hline, hrest⟩ := List.forall_mem_cons.1 hle
    have htexts : g line.2 ++ render (onLines g lines) = f line.2 ++ render (onLines f lines) := by
      have htail := congrArg List.tail h
      exact htail
    have hcount : count ends (g line.2) = count ends (f line.2) := by
      have htotal := congrArg (count ends) htexts
      have hmore := count_render_le hrest
      rw [count_append, count_append] at htotal
      omega
    obtain ⟨hbody, htail⟩ := eq_of_append_eq htexts hcount (Ended.behind (Ended.onLines hendsRest))
      (Ended.behind (Ended.onLines hendsRest))
    exact List.forall_mem_cons.2 ⟨hbody, ih hendsRest hrest htail⟩

/-- Lines without terminators in them. -/
theorem count_render (h : ∀ line ∈ lines, ends line.1 = true ∧ Plain ends line.2) :
    count ends (render lines) = lines.length := by
  induction lines with
  | nil => rfl
  | cons line lines ih =>
    obtain ⟨⟨hends, hplain⟩, hrest⟩ := List.forall_mem_cons.1 h
    rw [render_cons, count_cons_end hends, count_append, hplain.count_eq_zero, ih hrest]
    simp

end Count

/-! ## Searching

`^key(.*)$` in multi-line mode looks at the beginnings of lines only, so it can be followed line
by line.
-/

section Search

variable [DecidableEq α]

/-- The first line that begins with `key`, as `^key(.*)$` finds it in multi-line mode: the text in
front of it, the rest of the line, and the text behind it. -/
def search (ends : α → Bool) (key : List α) : Bool → List α → Option (List α × List α × List α)
  | _, [] => none
  | start, c :: rest =>
    if start = true ∧ key <+: c :: rest then
      let behind := (c :: rest).drop key.length
      some ([], behind.takeWhile (! ends ·), behind.dropWhile (! ends ·))
    else (search ends key (ends c) rest).map fun found => (c :: found.1, found.2)

omit [DecidableEq α] in
theorem takeWhile_append_end (hd : ends d = true) :
    (a ++ d :: b).takeWhile (! ends ·) = a.takeWhile (! ends ·) ∧
      (a ++ d :: b).dropWhile (! ends ·) = a.dropWhile (! ends ·) ++ d :: b := by
  induction a with
  | nil => simp [hd]
  | cons c rest ih =>
    by_cases hc : ends c = true
    · simp [hc]
    · simp [hc, ih.1, ih.2]

theorem prefix_append_end (hkey : Plain ends key) (hd : ends d = true) {c : α} :
    key <+: c :: (a ++ d :: b) ↔ key <+: c :: a := by
  apply Replacement.prefix_append_iff
  intro e he hmem
  obtain rfl : d = e := by simpa using he
  have hplain := hkey d (List.mem_of_mem_tail hmem)
  simp [hd] at hplain

/-- **Searching behind a terminator** goes on where nothing is found in front of it. -/
theorem search_append (hkey : Plain ends key) (hne : key ≠ []) (hd : ends d = true) {start : Bool} :
    search ends key start (a ++ d :: b) =
      ((search ends key start a).map fun found => (found.1, found.2.1, found.2.2 ++ d :: b)).or
        ((search ends key true b).map fun found => (a ++ d :: found.1, found.2)) := by
  induction a generalizing start with
  | nil =>
    have hhead : ¬ key <+: d :: b := by
      intro hpre
      cases key with
      | nil => exact hne rfl
      | cons k ks =>
        obtain rfl : k = d := (List.cons_prefix_cons.1 hpre).1
        have hplain := hkey k List.mem_cons_self
        simp [hd] at hplain
    rw [List.nil_append, search.eq_def]
    simp only [hhead, and_false, if_false, hd]
    simp [search]
  | cons c rest ih =>
    rw [List.cons_append, search, search]
    simp only [prefix_append_end hkey hd]
    by_cases hat : start = true ∧ key <+: c :: rest
    · have hdrop : (c :: (rest ++ d :: b)).drop key.length =
          (c :: rest).drop key.length ++ d :: b := by
        rw [← List.cons_append, List.drop_append_of_le_length hat.2.length_le]
      rw [if_pos hat, if_pos hat, hdrop, (takeWhile_append_end hd).1, (takeWhile_append_end hd).2]
      rfl
    · rw [if_neg hat, if_neg hat, ih]
      cases search ends key (ends c) rest <;> simp [Option.map_map, Function.comp_def]

/-- A line. -/
theorem search_line (hplain : Plain ends text) (hne : key ≠ []) :
    search ends key true text =
      if key <+: text then some ([], text.drop key.length, []) else none := by
  have hnot : ∀ {rest : List α}, Plain ends rest → search ends key false rest = none := by
    intro rest hrest
    induction rest with
    | nil => rfl
    | cons c rest ih =>
      obtain ⟨hc, hrest⟩ := List.forall_mem_cons.1 hrest
      rw [search, if_neg (by simp), hc, ih hrest]
      rfl
  cases text with
  | nil =>
    rw [if_neg fun h => hne (List.prefix_nil.1 h)]
    rfl
  | cons c rest =>
    rw [search]
    by_cases hkey : key <+: c :: rest
    · have hall : ∀ e ∈ (c :: rest).drop key.length, (! ends e) = true := by
        intro e he
        simp [hplain e (List.mem_of_mem_drop he)]
      rw [if_pos ⟨rfl, hkey⟩, if_pos hkey]
      dsimp only
      rw [List.takeWhile_eq_self_iff.2 hall, List.dropWhile_eq_nil_iff.2 hall]
    · obtain ⟨hc, hrest⟩ := List.forall_mem_cons.1 hplain
      rw [if_neg fun h => hkey h.2, if_neg hkey, hc, hnot hrest]
      rfl

/-- What is found. -/
theorem search_some {start : Bool} {before old behind : List α}
    (h : search ends key start text = some (before, old, behind)) :
    text = before ++ (key ++ old) ++ behind ∧ Plain ends old ∧ Behind ends behind ∧
      (before = [] ∨ ∃ front d, before = front ++ [d] ∧ ends d = true) := by
  induction text generalizing start before with
  | nil => simp [search] at h
  | cons c rest ih =>
    rw [search] at h
    by_cases hat : start = true ∧ key <+: c :: rest
    · rw [if_pos hat] at h
      -- the key stands here, at the start of a line
      obtain ⟨rfl, rfl, rfl⟩ : [] = before ∧ _ = old ∧ _ = behind := by simpa using h
      refine ⟨?_, ?_, ?_, Or.inl rfl⟩
      · rw [List.nil_append, List.append_assoc, List.takeWhile_append_dropWhile]
        obtain ⟨tail, htail⟩ := hat.2
        rw [← htail, List.drop_left]
      · intro e he
        have hpos := List.mem_takeWhile_imp he
        simpa using hpos
      · intro e he
        have hneg := List.head?_dropWhile_not (! ends ·) ((c :: rest).drop key.length)
        rw [he] at hneg
        simpa using hneg
    · rw [if_neg hat] at h
      -- it stands further behind
      obtain ⟨⟨front, old', behind'⟩, hfound, heq⟩ := Option.map_eq_some_iff.1 h
      obtain ⟨rfl, rfl, rfl⟩ : c :: front = before ∧ old' = old ∧ behind' = behind := by
        simpa using heq
      obtain ⟨htext, hold, hbehind, hfront⟩ := ih hfound
      refine ⟨by rw [htext]; simp, hold, hbehind, Or.inr ?_⟩
      rcases hfront with rfl | ⟨front, d, rfl, hd⟩
      · -- found at the very next symbol: `c` ends a line
        cases hc : ends c with
        | true => exact ⟨[], c, rfl, hc⟩
        | false =>
          rw [hc] at hfound
          cases rest with
          | nil => simp [search] at hfound
          | cons e rest =>
            rw [search, if_neg (by simp)] at hfound
            simp at hfound
      · exact ⟨c :: front, d, rfl, hd⟩

/-- The line that is found is one of the lines, and another can be put in its place. -/
theorem search_cut {before old behind : List α}
    (hkey : Plain ends key) (h : search ends key true text = some (before, old, behind)) :
    ∃ front s back, cut ends t text = front ++ (s, key ++ old) :: back ∧
      ∀ new, Plain ends new →
        cut ends t (before ++ (key ++ new) ++ behind) = front ++ (s, key ++ new) :: back := by
  obtain ⟨rfl, hold, hbehind, hbefore⟩ := search_some h
  have hline : ∀ new, Plain ends new → Plain ends (key ++ new) := by
    intro new hnew c hc
    exact (List.mem_append.1 hc).elim (hkey c) (hnew c)
  have hback : ∃ back, ∀ (s : α) new, Plain ends new →
      cut ends s (key ++ new ++ behind) = (s, key ++ new) :: back := by
    cases behind with
    | nil =>
      refine ⟨[], fun s new hnew => ?_⟩
      rw [List.append_nil, cut_plain (hline new hnew)]
    | cons d rest =>
      refine ⟨cut ends d rest, fun s new hnew => ?_⟩
      rw [cut_append (hbehind d rfl), cut_plain (hline new hnew)]
      rfl
  obtain ⟨back, hback⟩ := hback
  rcases hbefore with rfl | ⟨front, d, rfl, hd⟩
  · refine ⟨[], t, back, ?_, fun new hnew => ?_⟩
    · exact hback t old hold
    · exact hback t new hnew
  · have hcut : ∀ new, Plain ends new →
        cut ends t (front ++ [d] ++ (key ++ new) ++ behind) =
          cut ends t front ++ (d, key ++ new) :: back := by
      intro new hnew
      have htext : front ++ [d] ++ (key ++ new) ++ behind = front ++ d :: (key ++ new ++ behind) := by
        simp
      rw [htext, cut_append hd, hback d new hnew]
    exact ⟨cut ends t front, d, back, hcut old hold, hcut⟩

/-- **The first line with the key**, among lines of which those in front are without it. -/
theorem search_render (hkey : Plain ends key) (hne : key ≠ []) {body before old behind : List α}
    (hends : Ended ends (lines ++ (t, body) :: more))
    (hfront : ∀ line ∈ lines, search ends key true line.2 = none)
    (hbody : search ends key true body = some (before, old, behind)) :
    search ends key false (render (lines ++ (t, body) :: more)) =
      some (render lines ++ t :: before, old, behind ++ render more) := by
  have hline : ∀ {first : Line α} {others : List (Line α)}, Ended ends (first :: others) →
      search ends key false (render (first :: others)) =
        ((search ends key true first.2).map fun found =>
            (first.1 :: found.1, found.2.1, found.2.2 ++ render others)).or
          ((search ends key false (render others)).map fun found =>
            (first.1 :: (first.2 ++ found.1), found.2)) := by
    intro first others hended
    obtain ⟨hfirst, hothers⟩ := List.forall_mem_cons.1 hended
    rw [render_cons, search, if_neg (by simp), hfirst]
    cases others with
    | nil => simp [search]
    | cons second others =>
      obtain ⟨hsecond, -⟩ := List.forall_mem_cons.1 hothers
      rw [render_cons, search_append hkey hne hsecond]
      have hfalse : search ends key false (second.1 :: (second.2 ++ render others)) =
          (search ends key true (second.2 ++ render others)).map fun found =>
            (second.1 :: found.1, found.2) := by
        rw [search, if_neg (by simp), hsecond]
      rw [hfalse]
      cases search ends key true first.2 <;> simp [Option.map_map, Function.comp_def]
  induction lines with
  | nil =>
    rw [List.nil_append, hline hends, hbody]
    simp
  | cons line lines ih =>
    obtain ⟨hnone, hfront⟩ := List.forall_mem_cons.1 hfront
    have hrest := ih (List.forall_mem_cons.1 hends).2 hfront
    rw [List.cons_append] at hends ⊢
    rw [hline hends, hnone, hrest]
    simp

end Search

end Lines
