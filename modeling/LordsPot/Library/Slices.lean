import Mathlib.Algebra.BigOperators.Group.List.Basic
import Mathlib.Tactic.Ring

/-!
# Cutting a list into slices

`slices k xs` is `xs.slice(i, i + k)` for `i = 0, k, 2k, …` below the length: the loop that sends a
list off in portions. Its slices are the list again, in order, each of between one and `k` elements,
and a cost that is affine in a slice's length adds up to the cost of the list and one base cost for
each started portion.
-/

namespace Slices

variable {α : Type} (k : Nat)

def slices (xs : List α) : List (List α) :=
  (List.range ((xs.length + k - 1) / k)).map fun i => (xs.drop (i * k)).take k

variable {k} {xs : List α}

/-- The slices of a list that is not empty: the first portion, and those of the rest. -/
theorem slices_eq (positive : 0 < k) (some : xs ≠ []) :
    slices k xs = xs.take k :: slices k (xs.drop k) := by
  have length := List.length_pos_iff.2 some
  have count : (xs.length + k - 1) / k = ((xs.drop k).length + k - 1) / k + 1 := by
    rw [List.length_drop]
    rcases Nat.lt_or_ge xs.length k with short | long
    · have last : (xs.length + k - 1) / k = 1 := by
        rw [Nat.div_eq_iff positive]
        omega
      have none : (xs.length - k + k - 1) / k = 0 := Nat.div_eq_of_lt (by omega)
      omega
    · rw [show xs.length + k - 1 = xs.length - k + k - 1 + k by omega,
        Nat.add_div_right _ positive]
  simp only [slices, count, List.range_succ_eq_map, List.map_cons, List.map_map, Nat.zero_mul,
    List.drop_zero, List.cons.injEq, true_and]
  refine List.map_congr_left fun i _ => ?_
  simp only [Function.comp_apply, List.drop_drop, Nat.succ_mul, Nat.add_comm k]

theorem slices_nil (positive : 0 < k) : slices k ([] : List α) = [] := by
  have none : (0 + k - 1) / k = 0 := Nat.div_eq_of_lt (by omega)
  rw [slices, List.length_nil, none]
  rfl

/-- **The portions of a list**: what holds of the empty list, and of a list if it holds of the list
without its first portion. -/
theorem slices_induction (positive : 0 < k) {P : List α → Prop} (nil : P [])
    (portion : ∀ xs, xs ≠ [] → P (xs.drop k) → P xs) (xs : List α) : P xs := by
  induction h : xs.length using Nat.strong_induction_on generalizing xs with
  | _ n ih =>
    by_cases empty : xs = []
    · exact empty ▸ nil
    · have := List.length_pos_iff.2 empty
      exact portion xs empty (ih _ (by rw [List.length_drop]; omega) _ rfl)

theorem flatten_slices (positive : 0 < k) (xs : List α) : (slices k xs).flatten = xs := by
  induction xs using slices_induction positive with
  | nil => rw [slices_nil positive, List.flatten_nil]
  | portion xs some ih =>
    rw [slices_eq positive some, List.flatten_cons, ih, List.take_append_drop]

theorem length_of_mem_slices (positive : 0 < k) {slice : List α} (h : slice ∈ slices k xs) :
    1 ≤ slice.length ∧ slice.length ≤ k := by
  induction xs using slices_induction positive with
  | nil =>
    rw [slices_nil positive] at h
    cases h
  | portion xs some ih =>
    rw [slices_eq positive some] at h
    rcases List.mem_cons.1 h with rfl | h
    · have := List.length_pos_iff.2 some
      rw [List.length_take]
      omega
    · exact ih h

/-- A list of at most one portion. -/
theorem slices_of_le (some : xs ≠ []) (short : xs.length ≤ k) : slices k xs = [xs] := by
  have length := List.length_pos_iff.2 some
  have positive : 0 < k := by omega
  rw [slices_eq positive some, List.take_of_length_le short, List.drop_of_length_le short,
    slices_nil positive]

theorem length_slices : (slices k xs).length = (xs.length + k - 1) / k := by
  rw [slices, List.length_map, List.length_range]

/-- **The cost of the portions**, where each has a base cost and a cost for each element. -/
theorem sum_slices (positive : 0 < k) (each base : Nat) (xs : List α) :
    ((slices k xs).map fun slice => slice.length * each + base).sum =
      xs.length * each + (slices k xs).length * base := by
  induction xs using slices_induction positive with
  | nil =>
    rw [slices_nil positive]
    simp
  | portion xs some ih =>
    have split : xs.length = (xs.take k).length + (xs.drop k).length := by
      rw [← List.length_append, List.take_append_drop]
    rw [slices_eq positive some, List.map_cons, List.sum_cons, ih, List.length_cons]
    conv_rhs => rw [split]
    ring

/-- What is made of every slice, if all of it can be made. -/
theorem forall₂_of_mapM {ε β : Type} {f : α → Except ε β} {ys : List β} (h : xs.mapM f = .ok ys) :
    List.Forall₂ (fun x y => f x = .ok y) xs ys := by
  induction xs generalizing ys with
  | nil =>
    cases h
    exact .nil
  | cons x xs ih =>
    rw [List.mapM_cons] at h
    cases first : f x with
    | error e =>
      rw [first] at h
      cases h
    | ok y =>
      rw [first] at h
      cases others : xs.mapM f with
      | error e =>
        simp only [others] at h
        cases h
      | ok rest =>
        simp only [others] at h
        cases h
        exact .cons first (ih others)

end Slices
