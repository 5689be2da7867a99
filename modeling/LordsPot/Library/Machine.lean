import Mathlib.Logic.Function.Basic

/-!
# Machines whose actions carry every choice

A machine is a set of initial states and a partial step function: the action names
the process that moves and everything the environment decides (answers, failures,
clock readings), so a run is a list of actions and can be evaluated. `ReachableBy ok`
is reachability by steps that all meet a condition on the state before the step and
the action; plain reachability is the condition that always holds. Invariants are
proved once per step (`ReachableBy.invariant`). `Machine.blocks` is the machine whose
one action runs a whole block of actions with nothing in between; its runs are runs of
the machine it is built from (`ReachableBy.of_blocks`).
-/

namespace Transition

/-- Initial states and a step function that is undefined where an action is disabled. -/
structure Machine (σ α : Type) where
  init : σ → Prop
  step : σ → α → Option σ

namespace Machine

variable {σ α β : Type}

/-- States reached by steps that all meet `ok`. -/
inductive ReachableBy (M : Machine σ α) (ok : σ → α → Prop) : σ → Prop where
  | start {s : σ} : M.init s → M.ReachableBy ok s
  | next {s s' : σ} {a : α} : M.ReachableBy ok s → ok s a → M.step s a = some s' →
      M.ReachableBy ok s'

/-- States reached by any steps. -/
abbrev Reachable (M : Machine σ α) : σ → Prop := M.ReachableBy fun _ _ => True

/-- Take the actions of a list in order. -/
def run (M : Machine σ α) : σ → List α → Option σ
  | s, [] => some s
  | s, a :: as => (M.step s a).bind (M.run · as)

/-- Take the actions of a list in order as long as each meets `ok`. -/
def runBy (M : Machine σ α) (ok : σ → α → Bool) : σ → List α → Option σ
  | s, [] => some s
  | s, a :: as => if ok s a then (M.step s a).bind (M.runBy ok · as) else none

variable {M : Machine σ α}

@[simp] theorem run_nil (s : σ) : M.run s [] = some s := rfl

theorem run_cons {s s' : σ} {a : α} {as : List α} :
    M.run s (a :: as) = some s' ↔ ∃ t, M.step s a = some t ∧ M.run t as = some s' := by
  simp only [run, Option.bind_eq_some_iff]

theorem ReachableBy.mono {ok ok' : σ → α → Prop} (weaker : ∀ s a, ok s a → ok' s a) {s : σ}
    (h : M.ReachableBy ok s) : M.ReachableBy ok' s := by
  induction h with
  | start h0 => exact .start h0
  | next _ hok hs ih => exact .next ih (weaker _ _ hok) hs

/-- **The projection rule**: a machine whose steps are stutters or steps of another, seen through
`view`, reaches only what the other reaches. -/
theorem ReachableBy.project {τ : Type} {N : Machine τ β} {ok : σ → α → Prop} {ok' : τ → β → Prop}
    (view : τ → σ) (h0 : ∀ t, N.init t → M.init (view t))
    (hs : ∀ t b t', ok' t b → N.step t b = some t' →
      view t' = view t ∨ ∃ a, ok (view t) a ∧ M.step (view t) a = some (view t')) {t : τ}
    (h : N.ReachableBy ok' t) : M.ReachableBy ok (view t) := by
  induction h with
  | start hi => exact .start (h0 _ hi)
  | next _ hok hst ih =>
    rcases hs _ _ _ hok hst with same | ⟨a, allowed, stepped⟩
    · rw [same]
      exact ih
    · exact .next ih allowed stepped

/-- **The invariant rule**: what holds initially and survives every allowed step holds
in every state reached. -/
theorem ReachableBy.invariant {ok : σ → α → Prop} {I : σ → Prop} (h0 : ∀ s, M.init s → I s)
    (hs : ∀ s a s', I s → ok s a → M.step s a = some s' → I s') {s : σ}
    (h : M.ReachableBy ok s) : I s := by
  induction h with
  | start hi => exact h0 _ hi
  | next _ hok hst ih => exact hs _ _ _ ih hok hst

/-- The invariant rule along a run. -/
theorem run_invariant {I : σ → Prop} (hs : ∀ s a s', I s → M.step s a = some s' → I s') {s s' : σ}
    {as : List α} (h : I s) (hr : M.run s as = some s') : I s' := by
  induction as generalizing s with
  | nil => cases hr; exact h
  | cons a as ih =>
    obtain ⟨t, ht, hr⟩ := run_cons.1 hr
    exact ih (hs _ _ _ h ht) hr

/-- A run from a reachable state stays reachable. -/
theorem ReachableBy.run {s s' : σ} {as : List α} (h : M.Reachable s) (hr : M.run s as = some s') :
    M.Reachable s' := by
  induction as generalizing s with
  | nil => cases hr; exact h
  | cons a as ih =>
    obtain ⟨t, ht, hr⟩ := run_cons.1 hr
    exact ih (.next h trivial ht) hr

/-- A checked run from a reachable state stays reachable by checked steps. -/
theorem ReachableBy.runBy {ok : σ → α → Bool} {s s' : σ} {as : List α}
    (h : M.ReachableBy (fun s a => ok s a = true) s) (hr : M.runBy ok s as = some s') :
    M.ReachableBy (fun s a => ok s a = true) s' := by
  induction as generalizing s with
  | nil => cases hr; exact h
  | cons a as ih =>
    simp only [Machine.runBy] at hr
    split at hr
    · rename_i hok
      obtain ⟨t, ht, hr⟩ := Option.bind_eq_some_iff.1 hr
      exact ih (.next h hok ht) hr
    · cases hr

/-- A run whose end passes a check ends in a reachable state that passes it. -/
theorem exists_reachable_of_run {s : σ} (hi : M.init s) (as : List α) (p : σ → Bool)
    (h : (M.run s as).any p = true) : ∃ s', M.Reachable s' ∧ p s' = true := by
  obtain ⟨s', hr, hp⟩ := (Option.any_eq_true ..).1 h
  exact ⟨s', .run (.start hi) hr, hp⟩

/-- A checked run whose end passes a check ends in a state reached by checked steps. -/
theorem exists_reachableBy_of_runBy (ok : σ → α → Bool) {s : σ} (hi : M.init s) (as : List α)
    (p : σ → Bool) (h : (M.runBy ok s as).any p = true) :
    ∃ s', M.ReachableBy (fun s a => ok s a = true) s' ∧ p s' = true := by
  obtain ⟨s', hr, hp⟩ := (Option.any_eq_true ..).1 h
  exact ⟨s', .runBy (.start hi) hr, hp⟩

/-- One action of the block machine runs the block `f b` and must end in a state where
the block is closed. -/
def blocks (M : Machine σ α) (f : β → List α) (closed : β → σ → Bool) : Machine σ β where
  init := M.init
  step s b := (M.run s (f b)).filter (closed b)

/-- Runs of the block machine are runs of the machine underneath, provided each block
meets the condition step by step. `J` is what holds between blocks. -/
theorem ReachableBy.of_blocks {f : β → List α} {closed : β → σ → Bool} {ok : σ → α → Prop}
    {ok' : σ → β → Prop} {J : σ → Prop} (h0 : ∀ s, M.init s → J s)
    (hb : ∀ s b s', M.ReachableBy ok s → J s → ok' s b → M.run s (f b) = some s' →
      closed b s' = true → M.ReachableBy ok s' ∧ J s') {s : σ}
    (h : (M.blocks f closed).ReachableBy ok' s) : M.ReachableBy ok s ∧ J s := by
  induction h with
  | start hi => exact ⟨.start hi, h0 _ hi⟩
  | next _ hok hst ih =>
    obtain ⟨hr, hc⟩ := Option.filter_eq_some_iff.1 hst
    exact hb _ _ _ ih.1 ih.2 hok hr hc

end Machine

end Transition
