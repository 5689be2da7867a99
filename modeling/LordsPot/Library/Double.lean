import Mathlib.Data.Nat.Log
import Mathlib.Tactic.NormNum

/-!
# Doubles that are whole numbers

`double n` is the double nearest to `n`, the even one of two that are as near: of the bits of `n`, it
keeps the first 53. A double is an `n` with `double n = n`, and the whole numbers up to 2^53 all are.
-/

namespace Double

/-- What the last bit that is kept stands for. -/
def unit (n : Nat) : Nat := 2 ^ (n.log2 + 1 - 53)

def double (n : Nat) : Nat :=
  let kept := n / unit n
  let rest := n % unit n
  if 2 * rest < unit n then kept * unit n
  else if unit n < 2 * rest then (kept + 1) * unit n
  else (kept + kept % 2) * unit n

theorem unit_pos (n : Nat) : 0 < unit n := Nat.two_pow_pos _

/-- A multiple of what its last bit stands for is kept. -/
theorem double_of_dvd {n : Nat} (h : unit n ∣ n) : double n = n := by
  have none : n % unit n = 0 := Nat.mod_eq_zero_of_dvd h
  have some := unit_pos n
  unfold double
  simp only [none, Nat.mul_zero, if_pos some]
  exact Nat.div_mul_cancel h

theorem unit_eq_one {n : Nat} (h : n < 2 ^ 53) : unit n = 1 := by
  have few : n.log2 < 53 := by
    by_cases zero : n = 0
    · rw [zero]
      decide
    · exact (Nat.log2_lt zero).2 h
  rw [unit, show n.log2 + 1 - 53 = 0 by omega, Nat.pow_zero]

theorem double_of_le {n : Nat} (h : n ≤ 2 ^ 53) : double n = n := by
  rcases Nat.lt_or_eq_of_le h with less | rfl
  · exact double_of_dvd (unit_eq_one less ▸ Nat.one_dvd n)
  · rfl

end Double
