import Mathlib.Data.List.Chain
import Mathlib.Data.List.Perm.Subperm
import Mathlib.Logic.Function.Basic
import Mathlib.Logic.Relation
import Mathlib.Order.Basic

/-!
# Forests by parent pointers

A forest is given by a partial map from each node to its parent. Nothing keeps such a map from
having cycles but the check that is made when a node gets another parent.

* **`acyclic_move_iff`** — a new parent closes a cycle if and only if it stands under the node;
* **`Acyclic.length_le`** — a chain of children is no longer than there are nodes;
* **`Acyclic.rooted`** — without cycles, every one of finitely many nodes is connected to a root.
-/

namespace Forest

open Relation (ReflTransGen TransGen)

variable {ι : Type}

/-- `b` is the parent of `a`. -/
def Child (parent : ι → Option ι) (a b : ι) : Prop := parent a = some b

/-- `a` is `b`, or one of its descendants. -/
abbrev Under (parent : ι → Option ι) (a b : ι) : Prop := ReflTransGen (Child parent) a b

/-- No node is its own ancestor. -/
def Acyclic (parent : ι → Option ι) : Prop := ∀ a, ¬ TransGen (Child parent) a a

/-- The node is connected to a root. -/
def Rooted (parent : ι → Option ι) (a : ι) : Prop := ∃ r, Under parent a r ∧ parent r = none

variable {parent parent' : ι → Option ι} {a b c d p : ι}

/-- Taking parents away closes no cycle. -/
theorem Acyclic.mono (h : Acyclic parent) (hsub : ∀ a b, parent' a = some b → parent a = some b) :
    Acyclic parent' :=
  fun a hcycle => h a (TransGen.mono hsub a a hcycle)

/-- A node that is reached from a cycle lies on one. -/
theorem cycle_of_under (hcycle : TransGen (Child parent) a a) (h : Under parent a b) :
    TransGen (Child parent) b b := by
  induction h with
  | refl => exact hcycle
  | @tail x y _ hxy ih =>
    obtain ⟨c, hxc, hcx⟩ := TransGen.head'_iff.1 ih
    have hc : c = y := Option.some.inj (hxc.symm.trans hxy)
    subst hc
    exact .tail' hcx hxc

/-- **A path that avoids the changed nodes stays.** -/
theorem Under.congr (h : Under parent a b)
    (hsame : ∀ x, Under parent a x → TransGen (Child parent) x b → parent' x = parent x) :
    Under parent' a b := by
  induction h using ReflTransGen.head_induction_on with
  | refl => exact .refl
  | head hac hcb ih =>
    have hstep : parent' _ = some _ := (hsame _ .refl (.head' hac hcb)).trans hac
    exact .head hstep (ih fun x hx => hsame x (.head hac hx))

/-! ## Moving a node

The move changes the parent of one node. Paths that do not pass that node are as before, and the
others pass it exactly once if there is no cycle.
-/

section Move

variable [DecidableEq ι]

/-- Give the node `d` the parent `p`. -/
def move (parent : ι → Option ι) (d p : ι) : ι → Option ι := Function.update parent d (some p)

@[simp] theorem move_self : move parent d p d = some p := Function.update_self _ _ _

theorem move_of_ne (h : a ≠ d) : move parent d p a = parent a := Function.update_of_ne h _ _

/-- What does not stand under the moved node keeps its ancestors. -/
theorem under_move (h : ¬ Under parent a d) (hab : Under parent a b) :
    Under (move parent d p) a b := by
  refine hab.congr fun x hx _ => move_of_ne ?_
  rintro rfl
  exact h hx

/-- A path that does not come to the moved node was there before. -/
theorem under_of_move (h : ¬ Under (move parent d p) a d) (hab : Under (move parent d p) a b) :
    Under parent a b := by
  refine hab.congr fun x hx _ => (move_of_ne ?_).symm
  rintro rfl
  exact h hx

theorem under_move_iff (h : ¬ Under parent a d) :
    Under (move parent d p) a b ↔ Under parent a b := by
  refine ⟨fun hab => ?_, under_move h⟩
  induction hab with
  | refl => exact .refl
  | @tail x y _ hxy ih =>
    have hne : x ≠ d := by
      rintro rfl
      exact h ih
    have hstep : parent x = some y := (move_of_ne hne).symm.trans hxy
    exact ih.tail hstep

/-- A node keeps its path to the moved node. -/
theorem under_move_self (h : Acyclic parent) (had : Under parent a d) :
    Under (move parent d p) a d := by
  refine had.congr fun x _ hx => move_of_ne ?_
  rintro rfl
  exact h _ hx

/-- **A new parent closes a cycle** if and only if it stands under the node. -/
theorem acyclic_move_iff (h : Acyclic parent) :
    Acyclic (move parent d p) ↔ ¬ Under parent p d := by
  constructor
  · intro hmove hunder
    exact hmove d (.head' move_self (under_move_self h hunder))
  · intro hnot a hcycle
    have hback : ¬ Under (move parent d p) p d := by rwa [under_move_iff hnot]
    -- a cycle through `d` leads from `p` back to it; one that avoids `d` was there before
    have haway : ¬ Under (move parent d p) a d := by
      intro had
      obtain ⟨c, hdc, hcd⟩ := TransGen.head'_iff.1 (cycle_of_under hcycle had)
      have hc : p = c := Option.some.inj (move_self.symm.trans hdc)
      subst hc
      exact hback hcd
    obtain ⟨c, hac, hca⟩ := TransGen.head'_iff.1 hcycle
    have hne : a ≠ d := by
      rintro rfl
      exact haway .refl
    have hstep : parent a = some c := (move_of_ne hne).symm.trans hac
    exact h a (.head' hstep (under_of_move (fun hcd => haway (.head hac hcd)) hca))

end Move

/-! ## Chains

Without cycles a chain of children visits no node twice. So the recursion along parents ends, in
as many steps as there are nodes at most.
-/

/-- The nodes of a chain of children are distinct. -/
theorem Acyclic.nodup (h : Acyclic parent) {l : List ι}
    (hchain : l.IsChain fun a b => Child parent b a) : l.Nodup := by
  have htrans : l.IsChain fun a b => TransGen (Child parent) b a := hchain.imp fun _ _ => .single
  have : IsTrans ι fun a b => TransGen (Child parent) b a := ⟨fun _ _ _ hab hbc => hbc.trans hab⟩
  refine htrans.pairwise.imp ?_
  rintro a b hab rfl
  exact h a hab

/-- **A chain of children** is no longer than there are nodes. -/
theorem Acyclic.length_le (h : Acyclic parent) {l nodes : List ι}
    (hchain : l.IsChain fun a b => Child parent b a) (hnodes : ∀ a ∈ l, a ∈ nodes) :
    l.length ≤ nodes.length :=
  (List.subperm_of_subset (h.nodup hchain) hnodes).length_le

/-- There is no cycle where parents come first in an order. -/
theorem acyclic_of_lt [Preorder ι] (h : ∀ a b, parent a = some b → b < a) : Acyclic parent := by
  have hlt : ∀ {a b}, TransGen (Child parent) a b → b < a := by
    intro a b hab
    induction hab with
    | single hstep => exact h _ _ hstep
    | tail _ hstep ih => exact (h _ _ hstep).trans ih
  exact fun a ha => lt_irrefl a (hlt ha)

/-- **Among finitely many nodes, each is connected to a root** if there is no cycle. -/
theorem Acyclic.rooted [DecidableEq ι] (h : Acyclic parent) {nodes : List ι}
    (hclosed : ∀ a ∈ nodes, ∀ b, parent a = some b → b ∈ nodes) (ha : a ∈ nodes) :
    Rooted parent a := by
  by_contra hnot
  -- a node that is not connected to a root has a chain of ancestors of any length above it
  have hchain : ∀ n, ∃ l : List ι, l.length = n + 1 ∧ (∀ b ∈ l, b ∈ nodes) ∧
      (l.IsChain fun x y => Child parent y x) ∧ ∃ top, l.head? = some top ∧ Under parent a top := by
    intro n
    induction n with
    | zero => exact ⟨[a], rfl, by simpa using ha, .singleton a, a, rfl, .refl⟩
    | succ n ih =>
      obtain ⟨l, hlen, hnodes, hl, top, htop, hunder⟩ := ih
      cases hparent : parent top with
      | none => exact absurd ⟨top, hunder, hparent⟩ hnot
      | some b =>
        have hb : b ∈ nodes := hclosed top (hnodes top (List.mem_of_mem_head? htop)) b hparent
        refine ⟨b :: l, by simp [hlen], ?_, ?_, b, rfl, hunder.tail hparent⟩
        · intro x hx
          rcases List.mem_cons.1 hx with rfl | hx
          · exact hb
          · exact hnodes x hx
        · refine hl.cons fun y hy => ?_
          rw [htop] at hy
          cases hy
          exact hparent
  obtain ⟨l, hlen, hnodes, hl, _⟩ := hchain nodes.length
  have hle := h.length_le hl hnodes
  omega

end Forest
