import Mathlib.Data.List.Infix
import Mathlib.Tactic.Common

/-!
# Runs of a system that takes one event at a time

An event is possible in a state or it is not, and a run takes one after the other.

* **`run_append`** — runs compose;
* **`invariant_of_run`** — what good steps preserve holds behind every run of good steps;
* **`safe_iff_good`** — where every other step is seen, a run is safe exactly when its steps are good.
-/

namespace Runs

variable {S E : Type} (step : S → E → Option S)

/-- The state behind the events; `none` when one of them is not possible. -/
def run (s : S) (events : List E) : Option S := events.foldlM step s

/-- Every state on the way, the last one included. -/
def Throughout (s : S) (events : List E) (P : S → Prop) : Prop :=
  ∀ front m, front <+: events → run step s front = some m → P m

/-- Every event, with the state that it happens in. -/
def EveryStep (s : S) (events : List E) (good : S → E → Prop) : Prop :=
  ∀ front e m, front ++ [e] <+: events → run step s front = some m → good m e

variable {step} {s m : S} {e : E} {front events : List E} {I safe : S → Prop} {good : S → E → Prop}

@[simp] theorem run_nil (s : S) : run step s [] = some s := rfl

theorem run_append (s : S) (front back : List E) :
    run step s (front ++ back) = (run step s front).bind fun m => run step m back :=
  List.foldlM_append

theorem run_snoc (h : run step s front = some m) : run step s (front ++ [e]) = step m e := by
  rw [run_append, h, Option.bind_some]
  cases hstep : step m e <;> simp [run, hstep]

theorem EveryStep.of_append {more : List E} (h : EveryStep step s (events ++ more) good) :
    EveryStep step s events good := by
  intro front e m hfront hrun
  exact h front e m (hfront.trans (List.prefix_append events more)) hrun

/-- **An invariant of the good steps** holds behind every run of them. -/
theorem invariant_of_run (hinit : I s)
    (hstep : ∀ m e m', I m → good m e → step m e = some m' → I m')
    (hgood : EveryStep step s events good) : run step s events = some m → I m := by
  induction events using List.reverseRecOn generalizing m with
  | nil =>
    intro hrun
    rw [run_nil, Option.some.injEq] at hrun
    exact hrun ▸ hinit
  | append_singleton front e ih =>
    intro hrun
    cases hmiddle : run step s front with
    | none => simp [run_append, hmiddle] at hrun
    | some middle =>
      rw [run_snoc hmiddle] at hrun
      have hI : I middle := ih hgood.of_append hmiddle
      exact hstep middle e m hI (hgood front e middle (List.prefix_refl _) hmiddle) hrun

/-- **A run is safe exactly when its steps are good**, where a step that is not good is possible and
leads to a state that is not safe. -/
theorem safe_iff_good (hinit : I s) (hsafe : ∀ m, I m → safe m)
    (hstep : ∀ m e m', I m → good m e → step m e = some m' → I m')
    (hbad : ∀ m e, I m → ¬ good m e → ∃ m', step m e = some m' ∧ ¬ safe m') :
    Throughout step s events safe ↔ EveryStep step s events good := by
  constructor
  · induction events using List.reverseRecOn with
    | nil =>
      intro _ front e m hfront
      simp at hfront
    | append_singleton events last ih =>
      intro hall front e m hfront hrun
      have hshorter : EveryStep step s events good :=
        ih fun front m hfront => hall front m (hfront.trans (List.prefix_append _ _))
      rcases List.prefix_concat_iff.1 hfront with heq | hfront
      · obtain ⟨rfl, heq⟩ := List.append_inj' heq rfl
        obtain rfl : e = last := by simpa using heq
        by_contra hnot
        have hI : I m := invariant_of_run hinit hstep hshorter hrun
        obtain ⟨m', hnext, hunsafe⟩ := hbad m e hI hnot
        exact hunsafe (hall _ m' (List.prefix_refl _) ((run_snoc hrun).trans hnext))
      · exact hshorter front e m hfront hrun
  · intro hgood front m hfront hrun
    obtain ⟨more, rfl⟩ := hfront
    exact hsafe m (invariant_of_run hinit hstep hgood.of_append hrun)

end Runs
