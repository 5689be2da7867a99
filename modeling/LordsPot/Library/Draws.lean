import Mathlib.Data.List.Nodup
import Mathlib.Data.List.Perm.Subperm
import Mathlib.Order.Nat

/-!
# Drawing until there are enough

`fill` draws values into a set until it has a given size: the rejection loop of a random choice
without repetition. The set is a list in the order of insertion, and `none` is a loop that the draws
at hand do not end. It ends on a source that gives enough values (`exists_fill`), and on no source
whose values are too few (`fill_eq_none`).
-/

namespace Draws

variable {α β : Type} [DecidableEq β]

/-- Add to a set that keeps the order of insertion. -/
def add (set : List β) (b : β) : List β := if b ∈ set then set else set ++ [b]

/-- Draw into the set until it has `size` elements, and give back the draws that are left. -/
def fill (size : Nat) (value : α → β) : List β → List α → Option (List β × List α)
  | set, [] => if set.length < size then none else some (set, [])
  | set, a :: draws =>
      if set.length < size then fill size value (add set (value a)) draws else some (set, a :: draws)

/-- The set after all the draws, whatever its size. -/
def absorb (value : α → β) (set : List β) (draws : List α) : List β :=
  draws.foldl (fun set a => add set (value a)) set

variable {size : Nat} {value : α → β} {set : List β} {draws : List α}

@[simp] theorem mem_add {b c : β} : c ∈ add set b ↔ c ∈ set ∨ c = b := by
  unfold add
  split
  · rename_i present
    constructor
    · exact .inl
    · rintro (old | rfl)
      · exact old
      · exact present
  · rw [List.mem_append, List.mem_singleton]

theorem nodup_add {b : β} (h : set.Nodup) : (add set b).Nodup := by
  unfold add
  split
  · exact h
  · rename_i absent
    rw [← List.concat_eq_append]
    exact h.concat absent

theorem length_add_le {b : β} : (add set b).length ≤ set.length + 1 := by
  unfold add
  split
  · omega
  · simp

theorem le_length_add {b : β} : set.length ≤ (add set b).length := by
  unfold add
  split
  · omega
  · simp

/-! ## What it gives -/

/-- Distinct values, of the draws and the set before, and exactly as many as were asked for. -/
structure Filled (size : Nat) (value : α → β) (set : List β) (draws : List α) (filled : List β) :
    Prop where
  length : filled.length = size
  nodup : filled.Nodup
  mem : ∀ b ∈ filled, b ∈ set ∨ ∃ a ∈ draws, value a = b

theorem filled_of_fill {filled : List β} {rest : List α} (small : set.length ≤ size)
    (distinct : set.Nodup) (h : fill size value set draws = some (filled, rest)) :
    Filled size value set draws filled := by
  induction draws generalizing set with
  | nil =>
    simp only [fill] at h
    split at h
    · cases h
    · cases h
      exact ⟨by omega, distinct, fun b hb => .inl hb⟩
  | cons a draws ih =>
    simp only [fill] at h
    split at h
    · have grown : (add set (value a)).length ≤ set.length + 1 := length_add_le
      have later := ih (by omega) (nodup_add distinct) h
      refine ⟨later.length, later.nodup, fun b hb => ?_⟩
      rcases later.mem b hb with old | ⟨c, hc, same⟩
      · rcases mem_add.1 old with old | rfl
        · exact .inl old
        · exact .inr ⟨a, List.mem_cons_self, rfl⟩
      · exact .inr ⟨c, List.mem_cons_of_mem _ hc, same⟩
    · cases h
      exact ⟨by omega, distinct, fun b hb => .inl hb⟩

/-- Draws that come later are left over. -/
theorem fill_append {filled : List β} {rest : List α} (more : List α)
    (h : fill size value set draws = some (filled, rest)) :
    fill size value set (draws ++ more) = some (filled, rest ++ more) := by
  induction draws generalizing set with
  | nil =>
    simp only [fill] at h
    split at h
    · cases h
    · rename_i enough
      cases h
      cases more with
      | nil => simp [fill, enough]
      | cons a more => simp [fill, enough]
  | cons a draws ih =>
    simp only [fill, List.cons_append] at h ⊢
    split at h
    · rename_i few
      rw [if_pos few]
      exact ih h
    · rename_i enough
      cases h
      rw [if_neg enough]
      rfl

/-! ## Whether it ends -/

theorem mem_absorb {b : β} : b ∈ absorb value set draws ↔ b ∈ set ∨ ∃ a ∈ draws, value a = b := by
  unfold absorb
  induction draws generalizing set with
  | nil => simp
  | cons a draws ih =>
    rw [List.foldl_cons, ih, mem_add, List.exists_mem_cons_iff, or_assoc, @eq_comm _ b (value a)]

theorem nodup_absorb (h : set.Nodup) : (absorb value set draws).Nodup := by
  unfold absorb
  induction draws generalizing set with
  | nil => exact h
  | cons a draws ih => exact ih (nodup_add h)

theorem le_length_absorb : set.length ≤ (absorb value set draws).length := by
  unfold absorb
  induction draws generalizing set with
  | nil => exact le_rfl
  | cons a draws ih => exact le_length_add.trans ih

/-- The loop has ended once everything drawn would be enough. -/
theorem fill_isSome_iff :
    (fill size value set draws).isSome ↔ size ≤ (absorb value set draws).length := by
  induction draws generalizing set with
  | nil =>
    simp only [fill, absorb, List.foldl_nil]
    split
    · simp only [Option.isSome_none, Bool.false_eq_true, false_iff]
      omega
    · simp only [Option.isSome_some, true_iff]
      omega
  | cons a draws ih =>
    simp only [fill]
    split
    · exact ih
    · have grown : set.length ≤ (absorb value set (a :: draws)).length := le_length_absorb
      simp only [Option.isSome_some, true_iff]
      omega

/-- **The loop ends** on a source that gives at least as many values as it needs. -/
theorem exists_fill (random : Nat → α) {targets : List β} (distinct : targets.Nodup)
    (enough : size ≤ targets.length) (fair : ∀ b ∈ targets, ∃ i, value (random i) = b) :
    ∃ n, (fill size value [] ((List.range n).map random)).isSome := by
  -- far enough, every target has been drawn
  obtain ⟨bound, drawn⟩ : ∃ bound, ∀ b ∈ targets, ∃ i < bound, value (random i) = b := by
    clear distinct enough
    induction targets with
    | nil => exact ⟨0, fun b hb => by cases hb⟩
    | cons b targets ih =>
      obtain ⟨i, hi⟩ := fair b List.mem_cons_self
      obtain ⟨bound, drawn⟩ := ih fun c hc => fair c (List.mem_cons_of_mem _ hc)
      refine ⟨max bound (i + 1), fun c hc => ?_⟩
      rcases List.mem_cons.1 hc with rfl | hc
      · exact ⟨i, by omega, hi⟩
      · obtain ⟨j, hj, same⟩ := drawn c hc
        exact ⟨j, by omega, same⟩
  refine ⟨bound, fill_isSome_iff.2 (enough.trans ?_)⟩
  refine (List.subperm_of_subset distinct fun b hb => mem_absorb.2 (.inr ?_)).length_le
  obtain ⟨i, hi, same⟩ := drawn b hb
  exact ⟨random i, List.mem_map.2 ⟨i, List.mem_range.2 hi, rfl⟩, same⟩

/-- **The loop never ends** on a source whose values are too few. -/
theorem fill_eq_none {few : List β} (short : few.length < size)
    (among : ∀ a ∈ draws, value a ∈ few) : fill size value [] draws = none := by
  rw [← Option.not_isSome_iff_eq_none, fill_isSome_iff, not_le]
  refine lt_of_le_of_lt (List.subperm_of_subset (nodup_absorb List.nodup_nil) fun b hb => ?_).length_le
    short
  obtain ⟨a, ha, rfl⟩ := (mem_absorb.1 hb).resolve_left List.not_mem_nil
  exact among a ha

end Draws
