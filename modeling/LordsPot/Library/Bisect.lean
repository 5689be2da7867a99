import Mathlib.Data.List.Basic
import Mathlib.Data.List.Perm.Basic
import Mathlib.Data.Nat.Log
import Mathlib.Tactic.Ring

/-!
# Bisecting a list with a test that may throw

`bisect answer l` tests a list whole and, where the test throws, tests its two halves the
same way down to single elements. What passes is good, and an element that is rejected alone
is bad. A test is known by its place in the recursion, the path of halves that leads to it,
so the answers of any sequence of tests are one function of the path.
-/

namespace Bisection

variable {α ε : Type}

/-- The first half of a list, or the rest; the first is the longer one. -/
def half (second : Bool) (l : List α) : List α :=
  if second then l.drop ((l.length + 1) / 2) else l.take ((l.length + 1) / 2)

theorem half_append (l : List α) : half false l ++ half true l = l :=
  List.take_append_drop ..

theorem length_half_false (l : List α) : (half false l).length = (l.length + 1) / 2 := by
  simp only [half, Bool.false_eq_true, if_false, List.length_take]
  omega

theorem length_half_true (l : List α) : (half true l).length = l.length / 2 := by
  simp only [half, if_true, List.length_drop]
  omega

/-- Both halves of a list of two and more are shorter than the list. -/
theorem length_half_lt (second : Bool) {l : List α} (two : 2 ≤ l.length) :
    (half second l).length < l.length := by
  cases second with
  | false => rw [length_half_false]; omega
  | true => rw [length_half_true]; omega

theorem mem_of_mem_half {second : Bool} {l : List α} {a : α} (h : a ∈ half second l) : a ∈ l := by
  rw [← half_append l, List.mem_append]
  cases second with
  | false => exact .inl h
  | true => exact .inr h

/-- What a bisection makes of a list: what passed, what was rejected alone, and the tests
it made, in their order, with what each threw. -/
structure Split (α ε : Type) where
  good : List α
  bad : List α
  calls : List (List α × Option ε)
  deriving Repr, DecidableEq

/-- The bisection of a list. `answer p b` is what the test at the path `p` throws on its
batch `b`, none when it passes. -/
def bisect (answer : List Bool → List α → Option ε) (l : List α) : Split α ε :=
  if l.length = 0 then ⟨[], [], []⟩
  else match answer [] l with
    | none => ⟨l, [], [(l, none)]⟩
    | some e =>
      if l.length = 1 then ⟨[], l, [(l, some e)]⟩
      else
        let left := bisect (fun p => answer (false :: p)) (half false l)
        let right := bisect (fun p => answer (true :: p)) (half true l)
        ⟨left.good ++ right.good, left.bad ++ right.bad,
          (l, some e) :: (left.calls ++ right.calls)⟩
termination_by l.length
decreasing_by all_goals exact length_half_lt _ (by omega)

variable {answer : List Bool → List α → Option ε} {l : List α}

/-! ## The four ways a bisection goes -/

@[simp] theorem bisect_nil : bisect answer [] = ⟨[], [], []⟩ := by
  rw [bisect, if_pos List.length_nil]

theorem bisect_passed (nonempty : l ≠ []) (passed : answer [] l = none) :
    bisect answer l = ⟨l, [], [(l, none)]⟩ := by
  have length : ¬ l.length = 0 := fun h => nonempty (List.length_eq_zero_iff.1 h)
  rw [bisect, if_neg length]
  simp only [passed]

theorem bisect_alone {a : α} {e : ε} (threw : answer [] [a] = some e) :
    bisect answer [a] = ⟨[], [a], [([a], some e)]⟩ := by
  rw [bisect, if_neg (by simp)]
  simp only [threw, List.length_singleton, if_true]

theorem bisect_halves {e : ε} (two : 2 ≤ l.length) (threw : answer [] l = some e) :
    bisect answer l =
      ⟨(bisect (fun p => answer (false :: p)) (half false l)).good ++
          (bisect (fun p => answer (true :: p)) (half true l)).good,
        (bisect (fun p => answer (false :: p)) (half false l)).bad ++
          (bisect (fun p => answer (true :: p)) (half true l)).bad,
        (l, some e) :: ((bisect (fun p => answer (false :: p)) (half false l)).calls ++
          (bisect (fun p => answer (true :: p)) (half true l)).calls)⟩ := by
  rw [bisect, if_neg (by omega)]
  simp only [threw]
  rw [if_neg (by omega)]

/-- The induction a bisection follows: nothing to test, a list that passes, an element that
is rejected alone, and a longer list that is rejected and halved. -/
theorem bisect_induction {motive : (List Bool → List α → Option ε) → List α → Prop}
    (nil : ∀ answer, motive answer [])
    (passed : ∀ answer l, l ≠ [] → answer [] l = none → motive answer l)
    (alone : ∀ answer a e, answer [] [a] = some e → motive answer [a])
    (halves : ∀ answer l e, 2 ≤ l.length → answer [] l = some e →
      motive (fun p => answer (false :: p)) (half false l) →
      motive (fun p => answer (true :: p)) (half true l) → motive answer l)
    (answer : List Bool → List α → Option ε) (l : List α) : motive answer l := by
  induction hn : l.length using Nat.strong_induction_on generalizing answer l with
  | h n ih =>
    obtain rfl | nonempty := eq_or_ne l []
    · exact nil answer
    · cases threw : answer [] l with
      | none => exact passed answer l nonempty threw
      | some e =>
        have pos := List.length_pos_iff.2 nonempty
        by_cases one : l.length = 1
        · obtain ⟨a, rfl⟩ := List.length_eq_one_iff.1 one
          exact alone answer a e threw
        · have two : 2 ≤ l.length := by omega
          have left := length_half_lt false two
          have right := length_half_lt true two
          exact halves answer l e two threw (ih _ (by omega) _ _ rfl) (ih _ (by omega) _ _ rfl)

/-! ## Nothing is lost and the order is kept -/

theorem bisect_perm (answer : List Bool → List α → Option ε) (l : List α) :
    ((bisect answer l).good ++ (bisect answer l).bad).Perm l := by
  induction answer, l using bisect_induction with
  | nil answer => rw [bisect_nil]; exact .refl _
  | passed answer l nonempty passed =>
    rw [bisect_passed nonempty passed, List.append_nil]
  | alone answer a e threw => rw [bisect_alone threw]; exact .refl _
  | halves answer l e two threw left right =>
    rw [bisect_halves two threw]
    have parts := left.append right
    rw [half_append] at parts
    refine List.Perm.trans ?_ parts
    simp only [List.append_assoc]
    refine List.Perm.append_left _ ?_
    simp only [← List.append_assoc]
    exact List.Perm.append_right _ List.perm_append_comm

theorem good_sublist (answer : List Bool → List α → Option ε) (l : List α) :
    (bisect answer l).good.Sublist l := by
  induction answer, l using bisect_induction with
  | nil answer => rw [bisect_nil]
  | passed answer l nonempty passed => rw [bisect_passed nonempty passed]
  | alone answer a e threw => rw [bisect_alone threw]; exact List.nil_sublist _
  | halves answer l e two threw left right =>
    rw [bisect_halves two threw]
    have parts := left.append right
    rwa [half_append] at parts

theorem bad_sublist (answer : List Bool → List α → Option ε) (l : List α) :
    (bisect answer l).bad.Sublist l := by
  induction answer, l using bisect_induction with
  | nil answer => rw [bisect_nil]
  | passed answer l nonempty passed =>
    rw [bisect_passed nonempty passed]
    exact List.nil_sublist _
  | alone answer a e threw => rw [bisect_alone threw]
  | halves answer l e two threw left right =>
    rw [bisect_halves two threw]
    have parts := left.append right
    rwa [half_append] at parts

/-! ## A test that agrees with its elements -/

/-- A list passes exactly when each of its elements is fine. -/
def Agrees (answer : List Bool → List α → Option ε) (fine : α → Bool) : Prop :=
  ∀ p l, l ≠ [] → (answer p l = none ↔ ∀ a ∈ l, fine a = true)

theorem Agrees.under {fine : α → Bool} (h : Agrees answer fine) (second : Bool) :
    Agrees (fun p => answer (second :: p)) fine :=
  fun p => h (second :: p)

/-- Where the test agrees with the elements, bisecting is filtering. -/
theorem bisect_exact {fine : α → Bool} (agrees : Agrees answer fine) :
    (bisect answer l).good = l.filter fine ∧
      (bisect answer l).bad = l.filter fun a => !fine a := by
  induction answer, l using bisect_induction with
  | nil answer => simp
  | passed answer l nonempty passed =>
    have all := (agrees [] l nonempty).1 passed
    rw [bisect_passed nonempty passed]
    constructor
    · exact (List.filter_eq_self.2 all).symm
    · symm
      rw [List.filter_eq_nil_iff]
      intro a ha
      simp [all a ha]
  | alone answer a e threw =>
    have bad : fine a = false := by
      have alone := agrees [] [a] (by simp)
      simpa [threw] using alone
    rw [bisect_alone threw]
    simp [bad]
  | halves answer l e two threw left right =>
    obtain ⟨leftGood, leftBad⟩ := left (agrees.under false)
    obtain ⟨rightGood, rightBad⟩ := right (agrees.under true)
    rw [bisect_halves two threw]
    constructor
    · rw [leftGood, rightGood, ← List.filter_append, half_append]
    · rw [leftBad, rightBad, ← List.filter_append, half_append]

/-- A list that is rejected has an element that is not fine. -/
theorem Agrees.countP_pos {fine : α → Bool} (agrees : Agrees answer fine) (nonempty : l ≠ [])
    {e : ε} (threw : answer [] l = some e) : 0 < l.countP fun a => !fine a := by
  have rejected : ¬ ∀ a ∈ l, fine a = true := by
    rw [← agrees [] l nonempty, threw]
    simp
  rw [List.countP_pos_iff]
  simpa using rejected

/-- Halving a list takes one off the logarithm of its length. -/
theorem clog_length_half (second : Bool) (two : 2 ≤ l.length) :
    Nat.clog 2 (half second l).length + 1 ≤ Nat.clog 2 l.length := by
  have longer : (half second l).length ≤ (l.length + 2 - 1) / 2 := by
    cases second with
    | false => rw [length_half_false]; omega
    | true => rw [length_half_true]; omega
  have mono := Nat.clog_mono_right 2 longer
  rw [Nat.clog_of_two_le (by decide) two]
  omega

/-- The tests a bisection makes: one for each level above each bad element, and its sibling. -/
theorem length_calls_le {fine : α → Bool} (agrees : Agrees answer fine) :
    (bisect answer l).calls.length ≤
      2 * (l.countP fun a => !fine a) * Nat.clog 2 l.length + 1 := by
  induction answer, l using bisect_induction with
  | nil answer => simp
  | passed answer l nonempty passed =>
    rw [bisect_passed nonempty passed]
    simp
  | alone answer a e threw =>
    rw [bisect_alone threw]
    simp
  | halves answer l e two threw left right =>
    have bad := agrees.countP_pos (by rw [← List.length_pos_iff]; omega) threw
    have count : (l.countP fun a => !fine a) =
        ((half false l).countP fun a => !fine a) + (half true l).countP fun a => !fine a := by
      rw [← List.countP_append, half_append]
    have left := left (agrees.under false)
    have right := right (agrees.under true)
    rw [bisect_halves two threw]
    simp only [List.length_cons, List.length_append]
    have leftLog := clog_length_half false two
    have rightLog := clog_length_half true two
    generalize (half false l).countP (fun a => !fine a) = k₁ at *
    generalize (half true l).countP (fun a => !fine a) = k₂ at *
    obtain ⟨log, hlog⟩ : ∃ log, Nat.clog 2 l.length = log + 1 :=
      ⟨Nat.clog 2 l.length - 1, by omega⟩
    have left' : 2 * k₁ * Nat.clog 2 (half false l).length ≤ 2 * k₁ * log :=
      Nat.mul_le_mul_left _ (by omega)
    have right' : 2 * k₂ * Nat.clog 2 (half true l).length ≤ 2 * k₂ * log :=
      Nat.mul_le_mul_left _ (by omega)
    have total : 2 * (k₁ + k₂) * (log + 1) = 2 * k₁ * log + 2 * k₂ * log + 2 * (k₁ + k₂) := by
      ring
    rw [hlog, count, total]
    omega

/-! ## Which tests are made -/

/-- The part of a list that a path of halves leads to. -/
def part (l : List α) : List Bool → List α
  | [] => l
  | second :: p => part (half second l) p

/-- The bisection comes to the test at a path: every test above it threw, on a list that
could be halved. -/
def Reached (answer : List Bool → List α → Option ε) (l : List α) : List Bool → Prop
  | [] => l ≠ []
  | second :: p =>
    2 ≤ l.length ∧ answer [] l ≠ none ∧
      Reached (fun q => answer (second :: q)) (half second l) p

theorem reached_nil : Reached answer l [] ↔ l ≠ [] := Iff.rfl

theorem mem_of_mem_part {p : List Bool} {a : α} (h : a ∈ part l p) : a ∈ l := by
  induction p generalizing l with
  | nil => exact h
  | cons second p ih => exact mem_of_mem_half (ih h)

/-- The tests made are those at the paths that are reached. -/
theorem mem_calls {b : List α} {o : Option ε} : (b, o) ∈ (bisect answer l).calls ↔
    ∃ p, Reached answer l p ∧ part l p = b ∧ answer p b = o := by
  induction answer, l using bisect_induction with
  | nil answer =>
    rw [bisect_nil]
    constructor
    · intro h
      simp at h
    · rintro ⟨_ | ⟨second, p⟩, reached, -⟩
      · exact absurd rfl reached
      · exact absurd reached.1 (by simp)
  | passed answer l nonempty passed =>
    rw [bisect_passed nonempty passed]
    constructor
    · intro h
      obtain ⟨rfl, rfl⟩ : b = l ∧ o = none := by simpa using h
      exact ⟨[], nonempty, rfl, passed⟩
    · rintro ⟨_ | ⟨second, p⟩, reached, rfl, rfl⟩
      · simp [part, passed]
      · exact absurd passed reached.2.1
  | alone answer a e threw =>
    rw [bisect_alone threw]
    constructor
    · intro h
      obtain ⟨rfl, rfl⟩ : b = [a] ∧ o = some e := by simpa using h
      exact ⟨[], by simp [Reached], rfl, threw⟩
    · rintro ⟨_ | ⟨second, p⟩, reached, rfl, rfl⟩
      · simp [part, threw]
      · exact absurd reached.1 (by simp)
  | halves answer l e two threw left right =>
    rw [bisect_halves two threw, List.mem_cons, List.mem_append, left, right]
    constructor
    · rintro (h | ⟨p, reached, rfl, rfl⟩ | ⟨p, reached, rfl, rfl⟩)
      · obtain ⟨rfl, rfl⟩ : b = l ∧ o = some e := by simpa using h
        exact ⟨[], by rw [reached_nil, ← List.length_pos_iff]; omega, rfl, threw⟩
      · exact ⟨false :: p, ⟨two, by simp [threw], reached⟩, rfl, rfl⟩
      · exact ⟨true :: p, ⟨two, by simp [threw], reached⟩, rfl, rfl⟩
    · rintro ⟨_ | ⟨_ | _, p⟩, reached, rfl, rfl⟩
      · exact .inl (by simp [part, threw])
      · exact .inr (.inl ⟨p, reached.2.2, rfl, rfl⟩)
      · exact .inr (.inr ⟨p, reached.2.2, rfl, rfl⟩)

/-- What is bad was tested alone, and that test threw. -/
theorem mem_bad {a : α} : a ∈ (bisect answer l).bad ↔
    ∃ e, ([a], some e) ∈ (bisect answer l).calls := by
  induction answer, l using bisect_induction with
  | nil answer => simp
  | passed answer l nonempty passed =>
    rw [bisect_passed nonempty passed]
    simp
  | alone answer b e threw =>
    rw [bisect_alone threw]
    simp
  | halves answer l e two threw left right =>
    rw [bisect_halves two threw]
    have longer : ∀ e', ([a], some e') ≠ (l, some e) := by
      intro e' h
      simp only [Prod.mk.injEq] at h
      have length : [a].length = l.length := by rw [h.1]
      simp at length
      omega
    simp only [List.mem_append, List.mem_cons, left, right, longer, false_or, exists_or]

/-- Distinct elements are each tested alone at one place. -/
theorem reached_unique (distinct : l.Nodup) {a : α} {p q : List Bool}
    (hp : Reached answer l p) (hq : Reached answer l q) (partP : part l p = [a])
    (partQ : part l q = [a]) : p = q := by
  induction p generalizing l answer q with
  | nil =>
    cases q with
    | nil => rfl
    | cons second q =>
      obtain rfl : l = [a] := partP
      exact absurd hq.1 (by simp)
  | cons second p ih =>
    cases q with
    | nil =>
      obtain rfl : l = [a] := partQ
      exact absurd hp.1 (by simp)
    | cons second' q =>
      have inP : a ∈ half second l := mem_of_mem_part (p := p) (by rw [part] at partP; simp [partP])
      have inQ : a ∈ half second' l := mem_of_mem_part (p := q) (by rw [part] at partQ; simp [partQ])
      have halves : (half false l ++ half true l).Nodup := by rwa [half_append]
      obtain ⟨distinctLeft, distinctRight, disjoint⟩ := List.nodup_append.1 halves
      have same : second = second' := by
        cases second <;> cases second'
        · rfl
        · exact absurd rfl (disjoint a inP a inQ)
        · exact absurd rfl (disjoint a inQ a inP)
        · rfl
      subst same
      have distinctHalf : (half second l).Nodup := by
        cases second
        · exact distinctLeft
        · exact distinctRight
      rw [ih distinctHalf hp.2.2 hq.2.2 partP partQ]

end Bisection
