import Mathlib.Algebra.GroupWithZero.Nat
import Mathlib.Algebra.Order.BigOperators.Group.List
import LordsPot.Library.Machine

/-!
# A machine with a log

`audited M emits` is `M` with everything its steps emit kept in order. The log is for statements
only: it does not disturb the machine (`reachable_of_audited`). `balanced` is the rule of bookkeeping:
where each step moves a level by what it credits and debits, the level is what the log says.
-/

namespace Transition

/-- A state, with the log of the run that led to it. -/
structure Audited (σ ε : Type) where
  state : σ
  log : List ε := []

namespace Machine

variable {σ α ε : Type}

def audited (M : Machine σ α) (emits : σ → α → List ε) : Machine (Audited σ ε) α where
  init s := M.init s.state ∧ s.log = []
  step s a := (M.step s.state a).map fun t => ⟨t, s.log ++ emits s.state a⟩

variable {M : Machine σ α} {emits : σ → α → List ε}

theorem audited_step {s s' : Audited σ ε} {a : α} : (M.audited emits).step s a = some s' ↔
    M.step s.state a = some s'.state ∧ s'.log = s.log ++ emits s.state a := by
  simp only [audited, Option.map_eq_some_iff]
  constructor
  · rintro ⟨t, ht, rfl⟩
    exact ⟨ht, rfl⟩
  · rintro ⟨ht, hl⟩
    refine ⟨s'.state, ht, ?_⟩
    rw [← hl]

/-- The state of an audited run is one of the machine itself. -/
theorem reachable_of_audited {ok : σ → α → Prop} {s : Audited σ ε}
    (h : (M.audited emits).ReachableBy (fun s a => ok s.state a) s) : M.ReachableBy ok s.state := by
  induction h with
  | start h0 => exact .start h0.1
  | next _ allowed hs ih => exact .next ih allowed (audited_step.1 hs).1

/-- What the entries of a log add up to. -/
def total (amount : ε → Nat) (log : List ε) : Nat := (log.map amount).sum

@[simp] theorem total_nil (amount : ε → Nat) : total amount [] = 0 := rfl

@[simp] theorem total_append (amount : ε → Nat) (log log' : List ε) :
    total amount (log ++ log') = total amount log + total amount log' := by
  simp [total]

@[simp] theorem total_singleton (amount : ε → Nat) (e : ε) : total amount [e] = amount e := by
  simp [total]

/-- **The rule of bookkeeping**: where every step moves the level by what it emits, the level is at
every time what the log adds up to. -/
theorem balanced (level : σ → Nat) {credit debit : ε → Nat} (h0 : ∀ s, M.init s → level s = 0)
    (hs : ∀ s a s', M.Reachable s → M.step s a = some s' →
      level s' + total debit (emits s a) = level s + total credit (emits s a))
    {s : Audited σ ε} (h : (M.audited emits).Reachable s) :
    level s.state + total debit s.log = total credit s.log := by
  induction h with
  | start hi => rw [h0 _ hi.1, hi.2, total_nil, total_nil]
  | @next s s' a hr _ hst ih =>
    obtain ⟨stepped, logged⟩ := audited_step.1 hst
    have moved := hs _ _ _ (reachable_of_audited hr) stepped
    rw [logged, total_append, total_append]
    omega

end Machine

end Transition
