import Mathlib.Init

/-!
# Nested calls with rollback

A call that is open has a snapshot of the world it was entered in and a note of what it waits for.
Reverting it restores the snapshot; what it did, and what others did inside it, is gone. An invariant
of such a system relates the world to the open calls, and has to hold of every snapshot with the calls
below it as well; what a call waits for may also say something of its own snapshot. `Sound` says both,
with one rule for each way the stack can move.
-/

namespace Rollback

variable {ω κ : Type}

/-- An open call. -/
structure Frame (ω κ : Type) where
  snapshot : ω
  waits : κ

/-- What the open calls wait for, innermost first. -/
def waiting (stack : List (Frame ω κ)) : List κ := stack.map (·.waits)

/-- `I` holds of the world, and of each snapshot with the calls below it; `P` holds of each open
call. -/
def Sound (I : ω → List κ → Prop) (P : ω → κ → Prop) : ω → List (Frame ω κ) → Prop
  | w, [] => I w []
  | w, frame :: stack => I w (frame.waits :: waiting stack) ∧ P frame.snapshot frame.waits ∧
      Sound I P frame.snapshot stack

variable {I : ω → List κ → Prop} {P : ω → κ → Prop} {w w' : ω} {frame : Frame ω κ}
  {stack : List (Frame ω κ)}

theorem Sound.now (h : Sound I P w stack) : I w (waiting stack) := by
  cases stack with
  | nil => exact h
  | cons frame stack => exact h.1

/-- The innermost call. -/
theorem Sound.call (h : Sound I P w (frame :: stack)) : P frame.snapshot frame.waits := h.2.1

/-- The world changes, and no call opens or ends. -/
theorem Sound.change (h : Sound I P w stack) (kept : I w' (waiting stack)) : Sound I P w' stack := by
  cases stack with
  | nil => exact kept
  | cons frame stack => exact ⟨kept, h.2⟩

/-- A call is entered, or goes on to its next wait. -/
theorem Sound.push {waits : κ} (h : Sound I P w stack) (own : P w waits)
    (entered : I w' (waits :: waiting stack)) :
    Sound I P w' ({ snapshot := w, waits := waits } :: stack) :=
  ⟨entered, own, h⟩

/-- The innermost call reverts. -/
theorem Sound.revert (h : Sound I P w (frame :: stack)) : Sound I P frame.snapshot stack := h.2.2

end Rollback
