import Mathlib.Data.List.Basic

/-!
# Collecting from a list with a state

`collect f xs s` runs over `xs` with a state and joins what each element gives. The
lemmas say what it is over a concatenation and where a collected element came from, with
the state its element was read in.
-/

namespace Collect

variable {α β σ : Type} (f : α → σ → List β × σ)

/-- Join what the elements give, each read in the state the ones before it left. -/
def collect : List α → σ → List β × σ
  | [], s => ([], s)
  | x :: xs, s =>
    let (ys, s') := f x s
    let (zs, s'') := collect xs s'
    (ys ++ zs, s'')

@[simp] theorem collect_nil (s : σ) : collect f [] s = ([], s) := rfl

theorem collect_cons (x : α) (xs : List α) (s : σ) : collect f (x :: xs) s =
    ((f x s).1 ++ (collect f xs (f x s).2).1, (collect f xs (f x s).2).2) := rfl

theorem collect_append (xs ys : List α) (s : σ) : collect f (xs ++ ys) s =
    ((collect f xs s).1 ++ (collect f ys (collect f xs s).2).1,
      (collect f ys (collect f xs s).2).2) := by
  induction xs generalizing s with
  | nil => rfl
  | cons x xs ih => simp only [List.cons_append, collect_cons, ih, List.append_assoc]

variable {f}

/-- What is collected comes from an element, read in the state left by those before it. -/
theorem mem_collect {xs : List α} {s : σ} {y : β} : y ∈ (collect f xs s).1 ↔
    ∃ i x, xs[i]? = some x ∧ y ∈ (f x (collect f (xs.take i) s).2).1 := by
  induction xs generalizing s with
  | nil => simp
  | cons x xs ih =>
    rw [collect_cons, List.mem_append, ih]
    constructor
    · rintro (h | ⟨i, z, hz, h⟩)
      · exact ⟨0, x, rfl, h⟩
      · exact ⟨i + 1, z, hz, h⟩
    · rintro ⟨_ | i, z, hz, h⟩
      · cases hz
        exact .inl h
      · exact .inr ⟨i, z, hz, h⟩

/-- A property of the state that every element keeps holds at the end. -/
theorem collect_state {I : σ → Prop} (keep : ∀ x s, I s → I (f x s).2) (xs : List α) {s : σ}
    (h : I s) : I (collect f xs s).2 := by
  induction xs generalizing s with
  | nil => exact h
  | cons x xs ih => exact ih (keep x s h)

/-- A position of the longest accepted prefix of the first `n` elements. -/
theorem getElem?_takeWhile_take {p : α → Bool} {xs : List α} {n i : Nat} {x : α} :
    ((xs.take n).takeWhile p)[i]? = some x ↔
      xs[i]? = some x ∧ i < n ∧ ∀ y ∈ xs.take (i + 1), p y = true := by
  induction xs generalizing n i with
  | nil => simp
  | cons z xs ih =>
    cases n with
    | zero => simp
    | succ n =>
      rw [List.take_succ_cons, List.takeWhile_cons, List.take_succ_cons]
      by_cases hz : p z = true
      · rw [if_pos hz]
        cases i with
        | zero => simp [hz]
        | succ i =>
          rw [List.getElem?_cons_succ, List.getElem?_cons_succ, ih]
          simp [hz]
      · simp [hz]

/-- The elements before a position of that prefix are those before it in the list. -/
theorem take_takeWhile_take {p : α → Bool} {xs : List α} {n i : Nat}
    (h : i ≤ ((xs.take n).takeWhile p).length) : ((xs.take n).takeWhile p).take i = xs.take i := by
  have front : (xs.take n).takeWhile p <+: xs :=
    (List.takeWhile_prefix p).trans (List.take_prefix n xs)
  rw [List.prefix_iff_eq_take.1 front, List.take_take, Nat.min_eq_left h]

end Collect
