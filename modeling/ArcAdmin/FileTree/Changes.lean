import ArcAdmin.FileTree.Run

/-!
# Deleting and then storing

A change deletes files and then stores others, at paths that lie apart. It stops at the first file
that cannot be stored because another one, which it does not delete, is in the way.

* **`Host.run_changes`** — nothing in the way, and the whole change is made;
* **`Host.run_changes_fails`** — else what comes before the first such file is made;
* **`Changed.sameFiles_iff`** — when the files are as before.
-/

namespace FileTree

variable {N C L : Type}

/-- Both trees have the same files and the same links. -/
def SameFiles (t t' : Tree N C L) : Prop :=
  ∀ path, t'.file path = t.file path ∧ t'.isLink path = t.isLink path

theorem sameFiles_refl (t : Tree N C L) : SameFiles t t := fun _ => ⟨rfl, rfl⟩

structure Changes (N C : Type) where
  deletes : List (List N)
  stores : List (Store N C)

namespace Changes

/-- A file that stays stands where the path needs a directory. -/
def Obstructed (c : Changes N C) (t : Tree N C L) (path : List N) : Prop :=
  ∃ a, Above a path ∧ t.file a ≠ none ∧ a ∉ c.deletes

instance [DecidableEq N] (c : Changes N C) (t : Tree N C L) (path : List N) :
    Decidable (c.Obstructed t path) :=
  decidable_of_iff (∃ a ∈ path.inits, a ≠ path ∧ (t.file a).isSome = true ∧ a ∉ c.deletes) <| by
    unfold Obstructed Above
    simp only [List.mem_inits, Option.isSome_iff_ne_none]
    exact exists_congr fun a => by rw [and_assoc]

/-- The change is about files of the tree and about paths where no directory is. -/
structure Sound (c : Changes N C) (t : Tree N C L) : Prop where
  nodup : c.deletes.Nodup
  exist : ∀ path ∈ c.deletes, t.file path ≠ none
  clearDeletes : ∀ path ∈ c.deletes, t.Clear path
  apart : Host.PathsApart c.stores
  noDir : ∀ w ∈ c.stores, t.node w.path ≠ some .dir
  clearStores : ∀ w ∈ c.stores, t.Clear w.path
  disjoint : ∀ w ∈ c.stores, w.path ∉ c.deletes

def ops (c : Changes N C) : List (Op N C) := c.deletes.map .unlink ++ c.stores.flatMap Store.ops

theorem Sound.init {deletes : List (List N)} {before after : List (Store N C)} {t : Tree N C L}
    (h : Sound ⟨deletes, before ++ after⟩ t) : Sound ⟨deletes, before⟩ t where
  nodup := h.nodup
  exist := h.exist
  clearDeletes := h.clearDeletes
  apart := (List.pairwise_append.1 h.apart).1
  noDir w hw := h.noDir w (List.mem_append_left _ hw)
  clearStores w hw := h.clearStores w (List.mem_append_left _ hw)
  disjoint w hw := h.disjoint w (List.mem_append_left _ hw)

end Changes

/-- The tree after the change. -/
structure Changed (c : Changes N C) (t t' : Tree N C L) : Prop where
  stored : ∀ w ∈ c.stores, t'.node w.path = some (.file w.file)
  above : ∀ w ∈ c.stores, ∀ a, Above a w.path → t'.node a = some .dir
  deleted : ∀ a ∈ c.deletes, (∀ w ∈ c.stores, ¬ a <+: w.path) → t'.node a = none
  other : ∀ a, a ∉ c.deletes → (∀ w ∈ c.stores, ¬ a <+: w.path) → t'.node a = t.node a

namespace Host

variable [DecidableEq N] (host : Host N C L)

/-- The tree between the deletions and the writes. -/
theorem run_deletes {c : Changes N C} {t : Tree N C L} (hsound : c.Sound t) :
    ∃ t₁, host.run (c.deletes.map .unlink) t = (t₁, true) ∧
      (∀ a, t₁.node a = if a ∈ c.deletes then none else t.node a) ∧
      (∀ w ∈ c.stores, t₁.Clear w.path) ∧ (∀ w ∈ c.stores, t₁.node w.path ≠ some .dir) ∧
      ∀ path, t₁.Blocked path ↔ c.Obstructed t path := by
  obtain ⟨t₁, hrun, hnode⟩ := run_unlinks host hsound.nodup hsound.clearDeletes hsound.exist
  refine ⟨t₁, hrun, hnode, ?_, ?_, ?_⟩
  · intro w hw
    refine clear_of_links (fun a _ hlink => ?_) (hsound.clearStores w hw)
    obtain ⟨target, htarget⟩ := Tree.isLink_iff.1 hlink
    rw [hnode] at htarget
    split at htarget
    · cases htarget
    · exact Tree.isLink_iff.2 ⟨target, htarget⟩
  · intro w hw
    rw [hnode, if_neg (hsound.disjoint w hw)]
    exact hsound.noDir w hw
  · intro path
    have hfile : ∀ a, t₁.file a ≠ none ↔ t.file a ≠ none ∧ a ∉ c.deletes := by
      intro a
      by_cases hin : a ∈ c.deletes
      · have hnone : t₁.node a = none := (hnode a).trans (if_pos hin)
        rw [Tree.file_of_none hnone]
        exact ⟨fun h => absurd rfl h, fun h => absurd hin h.2⟩
      · rw [Tree.file_of_node ((hnode a).trans (if_neg hin))]
        exact ⟨fun h => ⟨h, hin⟩, And.left⟩
    exact exists_congr fun a => and_congr_right fun _ => hfile a

theorem changed_of_stored {c : Changes N C} {t t₁ t' : Tree N C L}
    (hnode : ∀ a, t₁.node a = if a ∈ c.deletes then none else t.node a)
    (h : Stored c.stores t₁ t') : Changed c t t' where
  stored := h.1
  above := h.2.1
  deleted a ha hapart := by rw [h.2.2 a hapart, hnode, if_pos ha]
  other a ha hapart := by rw [h.2.2 a hapart, hnode, if_neg ha]

/-- **With nothing in the way the whole change is made.** -/
theorem run_changes {c : Changes N C} {t : Tree N C L} (hsound : c.Sound t)
    (hfree : ∀ w ∈ c.stores, ¬ c.Obstructed t w.path) :
    ∃ t', host.run c.ops t = (t', true) ∧ Changed c t t' := by
  obtain ⟨t₁, hdeletes, hnode, hclear, hdir, hblocked⟩ := run_deletes host hsound
  have hfree₁ : ∀ w ∈ c.stores, ¬ t₁.Blocked w.path := by
    intro w hw
    rw [hblocked]
    exact hfree w hw
  obtain ⟨t', hstores, hstored⟩ := run_stores host hsound.apart hclear hfree₁ hdir
  refine ⟨t', ?_, changed_of_stored hnode hstored⟩
  unfold Changes.ops
  rw [run_append hdeletes, hstores]

/-- **What comes before the first file that cannot be stored is made.** -/
theorem run_changes_fails {deletes : List (List N)} {before after : List (Store N C)}
    {w : Store N C} {rest : List (Op N C)} {t : Tree N C L}
    (hsound : Changes.Sound ⟨deletes, before ++ w :: after⟩ t)
    (hfree : ∀ v ∈ before, ¬ Changes.Obstructed ⟨deletes, before ++ w :: after⟩ t v.path)
    (hblocked : Changes.Obstructed ⟨deletes, before ++ w :: after⟩ t w.path) :
    ∃ t', host.run (Changes.ops ⟨deletes, before ++ w :: after⟩ ++ rest) t = (t', false) ∧
      Changed ⟨deletes, before⟩ t t' := by
  have hw : w ∈ before ++ w :: after := List.mem_append_right _ List.mem_cons_self
  obtain ⟨t₁, hdeletes, hnode, hclear, hdir, hiff⟩ := run_deletes host hsound
  obtain ⟨hbefore, -, hapart⟩ := List.pairwise_append.1 hsound.apart
  have hfree₁ : ∀ v ∈ before, ¬ t₁.Blocked v.path := by
    intro v hv
    rw [hiff]
    exact hfree v hv
  obtain ⟨t', hstores, hstored⟩ := run_stores host hbefore
    (fun v hv => hclear v (List.mem_append_left _ hv)) hfree₁
    (fun v hv => hdir v (List.mem_append_left _ hv))
  refine ⟨t', ?_, changed_of_stored hnode hstored⟩
  -- the file in the way is none of those that were stored
  obtain ⟨a, ha, hfile, hstays⟩ := hblocked
  have hother : t'.node a = t.node a := by
    have hnot : ∀ v ∈ before, ¬ a <+: v.path := by
      intro v hv hinit
      by_cases hsame : a = v.path
      · exact (hapart v hv w List.mem_cons_self).1 (hsame ▸ ha.1)
      · exact hfree v hv ⟨a, ⟨hinit, hsame⟩, hfile, hstays⟩
    rw [hstored.2.2 a hnot, hnode, if_neg hstays]
  have hclear' : t'.Clear w.path := by
    refine clear_of_links (fun b _ hlink => ?_) (hclear w hw)
    by_cases hin : ∃ v ∈ before, b <+: v.path
    · obtain ⟨v, hv, hinit⟩ := hin
      by_cases hsame : b = v.path
      · rw [hsame, Tree.isLink_iff, hstored.1 v hv] at hlink
        simp at hlink
      · rw [Tree.isLink_iff, hstored.2.1 v hv b ⟨hinit, hsame⟩] at hlink
        simp at hlink
    · push Not at hin
      rw [← Tree.isLink_of_node (hstored.2.2 b hin)]
      exact hlink
  have hblocked' : t'.Blocked w.path := ⟨a, ha, by rw [Tree.file_of_node hother]; exact hfile⟩
  have hops : Changes.ops ⟨deletes, before ++ w :: after⟩ ++ rest =
      deletes.map Op.unlink ++ (before.flatMap Store.ops ++
        (w.ops ++ (after.flatMap Store.ops ++ rest))) := by
    simp [Changes.ops]
  rw [hops, run_append hdeletes, run_append hstores, run_store_fails hclear' hblocked']

end Host

/-! ## What a change does to a file

After the change a path holds what was stored there, nothing if it was deleted, and otherwise what
it held.
-/

namespace Changed

variable {c : Changes N C} {t t' : Tree N C L}

theorem file_stored (h : Changed c t t') {w : Store N C} (hw : w ∈ c.stores) :
    t'.file w.path = some w.file := Tree.file_eq_some.2 (h.stored w hw)

/-- A deleted file is gone, also where a directory takes its place. -/
theorem file_deleted (h : Changed c t t') (hsound : c.Sound t) {path : List N}
    (hpath : path ∈ c.deletes) : t'.file path = none := by
  by_cases hin : ∃ w ∈ c.stores, path <+: w.path
  · obtain ⟨w, hw, hinit⟩ := hin
    have hne : path ≠ w.path := by
      rintro rfl
      exact hsound.disjoint w hw hpath
    exact Tree.file_of_dir (h.above w hw path ⟨hinit, hne⟩)
  · push Not at hin
    exact Tree.file_of_none (h.deleted path hpath hin)

/-- A file that the change is not about stays. -/
theorem file_other (h : Changed c t t') (hfree : ∀ w ∈ c.stores, ¬ c.Obstructed t w.path)
    {path : List N} (hdelete : path ∉ c.deletes) (hstore : ∀ w ∈ c.stores, path ≠ w.path) :
    t'.file path = t.file path := by
  by_cases hin : ∃ w ∈ c.stores, path <+: w.path
  · obtain ⟨w, hw, hinit⟩ := hin
    have habove : Above path w.path := ⟨hinit, hstore w hw⟩
    rw [Tree.file_of_dir (h.above w hw path habove)]
    by_contra hfile
    exact hfree w hw ⟨path, habove, Ne.symm hfile, hdelete⟩
  · push Not at hin
    exact Tree.file_of_node (h.other path hdelete hin)

theorem isLink_eq (h : Changed c t t') (hsound : c.Sound t) (path : List N) :
    t'.isLink path = t.isLink path := by
  by_cases hin : ∃ w ∈ c.stores, path <+: w.path
  · obtain ⟨w, hw, hinit⟩ := hin
    rw [hsound.clearStores w hw path hinit, Bool.eq_false_iff, Ne, Tree.isLink_iff]
    by_cases hsame : path = w.path
    · rw [hsame, h.stored w hw]
      simp
    · rw [h.above w hw path ⟨hinit, hsame⟩]
      simp
  · push Not at hin
    by_cases hdelete : path ∈ c.deletes
    · rw [hsound.clearDeletes path hdelete path (List.prefix_refl _), Bool.eq_false_iff, Ne,
        Tree.isLink_iff, h.deleted path hdelete hin]
      simp
    · exact Tree.isLink_of_node (h.other path hdelete hin)

/-- **The files are as before** exactly if nothing was deleted and every file that was stored was
there. -/
theorem sameFiles_iff (h : Changed c t t') (hsound : c.Sound t)
    (hfree : ∀ w ∈ c.stores, ¬ c.Obstructed t w.path) :
    SameFiles t t' ↔ c.deletes = [] ∧ ∀ w ∈ c.stores, t.file w.path = some w.file := by
  constructor
  · intro hsame
    refine ⟨List.eq_nil_iff_forall_not_mem.2 fun path hpath => ?_, fun w hw => ?_⟩
    · refine hsound.exist path hpath ?_
      rw [← (hsame path).1]
      exact h.file_deleted hsound hpath
    · rw [← (hsame w.path).1]
      exact h.file_stored hw
  · rintro ⟨hdeletes, hstores⟩ path
    refine ⟨?_, h.isLink_eq hsound path⟩
    by_cases hin : ∃ w ∈ c.stores, path = w.path
    · obtain ⟨w, hw, rfl⟩ := hin
      rw [h.file_stored hw, hstores w hw]
    · push Not at hin
      refine h.file_other hfree ?_ hin
      rw [hdeletes]
      exact List.not_mem_nil

end Changed

end FileTree
