import Mathlib.Init

/-!
# States that a log replays to

A log of events is replayed over the state it began with. `Sourced` says that a state is the replay
of its log and that every event was lawful where it was logged, that is in the replay of those before
it; so what lawful events keep holds of the state, whatever else the system does in between.
-/

namespace EventLog

variable {γ ε : Type}

/-- The state after the events of a log. -/
def replay (apply : γ → ε → γ) (c : γ) (log : List ε) : γ := log.foldl apply c

/-- Each event is lawful after those before it. -/
def LawfulLog (apply : γ → ε → γ) (Lawful : γ → ε → Prop) : γ → List ε → Prop
  | _, [] => True
  | c, e :: log => Lawful c e ∧ LawfulLog apply Lawful (apply c e) log

variable {apply : γ → ε → γ} {Lawful : γ → ε → Prop} {start c : γ} {log : List ε} {e : ε}

theorem replay_append (log' : List ε) :
    replay apply c (log ++ log') = replay apply (replay apply c log) log' := List.foldl_append ..

theorem lawfulLog_append {log' : List ε} : LawfulLog apply Lawful c (log ++ log') ↔
    LawfulLog apply Lawful c log ∧ LawfulLog apply Lawful (replay apply c log) log' := by
  induction log generalizing c with
  | nil => simp [LawfulLog, replay]
  | cons e log ih =>
    rw [List.cons_append, LawfulLog, LawfulLog, ih, and_assoc]
    rfl

/-- The state is what its log replays to, and the log is lawful. -/
structure Sourced (apply : γ → ε → γ) (Lawful : γ → ε → Prop) (start c : γ) (log : List ε) :
    Prop where
  replayed : replay apply start log = c
  lawful : LawfulLog apply Lawful start log

/-- A lawful event is logged and takes effect. -/
theorem Sourced.emit (h : Sourced apply Lawful start c log) (lawful : Lawful c e) :
    Sourced apply Lawful start (apply c e) (log ++ [e]) where
  replayed := by rw [replay_append, h.replayed]; rfl
  lawful := lawfulLog_append.2 ⟨h.lawful, by rw [h.replayed]; exact ⟨lawful, trivial⟩⟩

/-- What lawful events keep. -/
theorem Sourced.invariant {I : γ → Prop} (h : Sourced apply Lawful start c log) (h0 : I start)
    (keep : ∀ c e, I c → Lawful c e → I (apply c e)) : I c := by
  obtain ⟨replayed, lawful⟩ := h
  subst replayed
  induction log generalizing start with
  | nil => exact h0
  | cons e log ih => exact ih (keep _ _ h0 lawful.1) lawful.2

end EventLog
