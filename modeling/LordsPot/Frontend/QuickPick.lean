import LordsPot.Frontend.Tickets
import LordsPot.Program.Settings

/-!
# Whether a quick pick ends

`generateQuickPick` rejects repetitions until it has five normals, so it needs a range of five. The
setters of the program admit any range, and on a smaller one the page goes on for ever; on an empty
bonus range it ends with a ball that the program refuses.
-/

namespace LordsPot.Frontend

open Program Transition

/-- The source produces every ball of the range again and again. -/
def Fair (random : Nat → Random) (max : Nat) : Prop :=
  ∀ v : Nat, 1 ≤ v → v ≤ max → ∀ n, ∃ i, n ≤ i ∧ ball max (random i) = v

/-- A quick pick from the source ends, with a ticket that the program accepts. -/
def Sells (coder : Coder) (state : LordsPotState) (random : Nat → Random) : Prop :=
  ∃ n t rest, generateQuickPick state.normalMax state.bonusMax ((List.range n).map random) =
    some (t, rest) ∧ Accepted coder state t

/-- Five normals to choose from, and a bonus ball. -/
def Roomy (ranges : Nat × Nat) : Prop := 5 ≤ ranges.1 ∧ 1 ≤ ranges.2

/-- The ranges that an action sets. -/
def setRanges? : Action → Option (Nat × Nat)
  | .invoke _ (.initializeState _ _ normalMax bonusMax _ _ _ _ _ _ _ _)
  | .invoke _ (.updateEpoch _ normalMax bonusMax) => some (normalMax, bonusMax)
  | _ => none

/-- Whoever sets the ranges sets such ranges. -/
def setsOnly (p : Nat × Nat → Bool) (a : Action) : Bool := (setRanges? a).all p

/-- The ranges are bytes, as their types insist. -/
def u8 (ranges : Nat × Nat) : Bool := decide (ranges.1 < 256 ∧ ranges.2 < 256)

/-- There is room for a ticket besides. -/
def roomy (ranges : Nat × Nat) : Bool := u8 ranges && decide (5 ≤ ranges.1 ∧ 1 ≤ ranges.2)

section Pick

variable {coder : Coder} {state : LordsPotState} {random : Nat → Random} {normalMax bonusMax : Nat}

theorem Picked.complete {t : StagedTicket} (h : Picked normalMax bonusMax t)
    (roomy : Roomy (normalMax, bonusMax)) : Complete t normalMax bonusMax := by
  obtain ⟨next, picked⟩ := h.bonus
  refine ⟨h.five, h.ascending.imp fun less => less.ne, fun n hn => ?_, _, picked, ball_bounds roomy.2 next⟩
  obtain ⟨drawn, rfl⟩ := h.normals n hn
  exact ball_bounds (by have := roomy.1; simp only at this; omega) drawn

/-- Enough values are drawn in the end, and one more draw is the bonus ball. -/
theorem exists_generate (fair : Fair random normalMax) (enough : 5 ≤ normalMax) :
    ∃ n t rest, generateQuickPick normalMax bonusMax ((List.range n).map random) = some (t, rest) := by
  have distinct : ((List.range normalMax).map fun v => ((v + 1 : Nat) : Int)).Nodup :=
    List.nodup_range.map fun v w same => by
      simp only [Int.natCast_inj] at same
      omega
  obtain ⟨n, ended⟩ : ∃ n, (Draws.fill 5 (ball normalMax) [] ((List.range n).map random)).isSome := by
    refine Draws.exists_fill random distinct (by simpa using enough) fun b hb => ?_
    obtain ⟨v, hv, rfl⟩ := List.mem_map.1 hb
    have := List.mem_range.1 hv
    obtain ⟨i, -, drawn⟩ := fair (v + 1) (by omega) (by omega) 0
    exact ⟨i, drawn⟩
  obtain ⟨⟨normals, rest⟩, filled⟩ := Option.isSome_iff_exists.1 ended
  have more := Draws.fill_append [random n] filled
  refine ⟨n + 1, ?_⟩
  rw [List.range_succ, List.map_append, List.map_singleton]
  unfold generateQuickPick
  rw [show TICKET_RULES.NORMALS_PER_TICKET = 5 from rfl, more]
  cases rest with
  | nil => exact ⟨_, _, rfl⟩
  | cons next rest => exact ⟨_, _, rfl⟩

/-- On fewer than five normals there is no end. -/
theorem generate_eq_none (few : normalMax < 5) (random : List Random) :
    generateQuickPick normalMax bonusMax random = none := by
  have never : Draws.fill 5 (ball normalMax) [] random = none := by
    have small : ((List.range 4).map fun v => ((v + 1 : Nat) : Int)).length < 5 := by decide
    refine Draws.fill_eq_none small fun drawn _ => ?_
    have bounds : 1 ≤ ball normalMax drawn ∧ ball normalMax drawn ≤ 4 := by
      rcases Nat.eq_zero_or_pos normalMax with rfl | some
      · rw [ball_zero]
        omega
      · have := ball_bounds some drawn
        omega
    refine List.mem_map.2 ⟨(ball normalMax drawn).toNat - 1, List.mem_range.2 (by omega), ?_⟩
    omega
  unfold generateQuickPick
  rw [show TICKET_RULES.NORMALS_PER_TICKET = 5 from rfl, never]

/-- **A quick pick sells** exactly where there is room for a ticket. -/
theorem sells_iff (u8 : state.normalMax < 256 ∧ state.bonusMax < 256)
    (fair : Fair random state.normalMax) :
    Sells coder state random ↔ Roomy (state.normalMax, state.bonusMax) := by
  constructor
  · rintro ⟨n, t, rest, generated, accepted⟩
    have picked := picked_of_generate generated
    constructor
    · by_contra few
      rw [generate_eq_none (Nat.lt_of_not_le few)] at generated
      cases generated
    · by_contra none
      have empty : state.bonusMax = 0 := by
        simp only at none
        omega
      obtain ⟨next, bonus⟩ := picked.bonus
      rw [empty, ball_zero] at bonus
      obtain ⟨ticket, formatted, checked⟩ := accepted
      rw [formatTicket, bonus, Option.bind_eq_bind, Option.bind_some,
        show coder.u8 1 = some 1 from coder.u8_byte 1 (by decide)] at formatted
      cases formatted
      have := (checkTicket_iff.1 checked).bonus
      simp only at this
      omega
  · intro roomy
    obtain ⟨n, t, rest, generated⟩ := @exists_generate _ _ state.bonusMax fair roomy.1
    have picked := picked_of_generate generated
    exact ⟨n, t, rest, generated,
      ((complete_iff_accepted u8 picked.ascending).1 (picked.complete roomy)).2⟩

end Pick

/-! ## Over all runs of the program -/

def ranges (state : LordsPotState) : Nat × Nat := (state.normalMax, state.bonusMax)

/-- The ranges in the state account are ranges that were set. -/
theorem ranges_of_reachable {p : Nat × Nat → Bool} {s : Chain}
    (h : machine.ReachableBy (fun _ a => setsOnly p a = true) s) :
    ∀ state, s.Holds state → p (ranges state) = true := by
  have new : ∀ {a : Action} {data : LordsPotState}, setsOnly p a = true →
      setRanges? a = some (ranges data) → p (ranges data) = true := by
    intro a data sets same
    rwa [setsOnly, same, Option.all_some] at sets
  refine settings_of_reachable (P := fun state => p (ranges state) = true) ?_ ?_ h
  · intro _ _ _ sets _ opened
    cases opened
    exact new sets rfl
  · intro _ _ _ _ sets _ old updated
    cases updated with
    | updateEpoch => exact new sets rfl
    | _ => exact old

/-- **Quick picks on every configuration.** Where every setter leaves room for a ticket, a quick pick
sells in every state; and in whatever state the program is, it sells exactly if there is room. -/
theorem quickPick_sells (coder : Coder) (random : Nat → Random) :
    (∀ s, machine.ReachableBy (fun _ a => setsOnly roomy a = true) s → ∀ state, s.Holds state →
      Fair random state.normalMax → Fair random state.bonusMax → Sells coder state random) ∧
    ∀ s, machine.ReachableBy (fun _ a => setsOnly u8 a = true) s → ∀ state, s.Holds state →
      Fair random state.normalMax → Fair random state.bonusMax →
      (Sells coder state random ↔ Roomy (state.normalMax, state.bonusMax)) := by
  constructor
  · intro s h state holds fair _
    have room := ranges_of_reachable h state holds
    rw [roomy, Bool.and_eq_true, decide_eq_true_eq] at room
    exact (sells_iff (of_decide_eq_true room.1) fair).2 room.2
  · intro s h state holds fair _
    exact sells_iff (of_decide_eq_true (ranges_of_reachable h state holds)) fair

/-! ## Sources -/

/-- Every ball comes up once in a turn. -/
theorem fair_cycle {max : Nat} (some : 0 < max) : Fair (cycle max some) max := by
  intro v low high n
  have nonzero : (max : Rat) ≠ 0 := by exact_mod_cast some.ne'
  refine ⟨max * n + (v - 1), by nlinarith, ?_⟩
  have turn : (max * n + (v - 1)) % max = v - 1 := by
    rw [Nat.mul_add_mod, Nat.mod_eq_of_lt (by omega)]
  have value : (cycle max some (max * n + (v - 1))).value * max = ((v - 1 : Nat) : Rat) := by
    simp only [cycle, turn]
    exact div_mul_cancel₀ _ nonzero
  rw [ball, value, Int.floor_natCast]
  omega

/-- A range of one is produced by every source. -/
theorem fair_one (random : Nat → Random) : Fair random 1 := by
  intro v low high n
  have : 1 ≤ ball 1 (random n) ∧ ball 1 (random n) ≤ (1 : Nat) := ball_bounds le_rfl _
  exact ⟨n, le_rfl, by omega⟩

/-- A program with these ranges. -/
def opening (normalMax bonusMax : Nat) : List Action :=
  [.invoke ["admin"] (.initializeState "admin" USDC_MINT_ADDRESS normalMax bonusMax 100 1 0 0 "admin"
    65 500 "treasury")]

/-- On four normals the quick pick never ends. -/
theorem endless : ¬ ∀ (coder : Coder) (random : Nat → Random) (s : Chain), machine.Reachable s →
    ∀ state, s.Holds state → Fair random state.normalMax → Fair random state.bonusMax →
    Sells coder state random := by
  intro all
  obtain ⟨s, hs, hp⟩ := Machine.exists_reachable_of_run (M := machine)
    (s := ⟨none, fun _ => none, []⟩) ⟨rfl, rfl, rfl⟩ (opening 4 1)
    (fun s => s.lordsPotState.any fun account => decide (STATE_SIZE ≤ account.dataLen) &&
      account.data.normalMax == 4 && account.data.bonusMax == 1) (by decide +kernel)
  simp only [Option.any_eq_true, Bool.and_eq_true, decide_eq_true_eq, beq_iff_eq] at hp
  obtain ⟨account, present, ⟨long, normals⟩, bonus⟩ := hp
  have sells := all coder (cycle 4 (by decide)) s hs account.data ⟨account, present, long, rfl⟩
    (by rw [normals]; exact fair_cycle _) (by rw [bonus]; exact fair_one _)
  obtain ⟨n, t, rest, generated, -⟩ := sells
  rw [generate_eq_none (by omega)] at generated
  cases generated

/-- On five normals and one bonus ball it sells. -/
theorem quickPick_sells_five :
    (∃ state : LordsPotState, state.normalMax = 5 ∧ Sells coder state (cycle 5 (by decide))) ∧
      ∃ state : LordsPotState, state.normalMax = 5 ∧
        (Sells coder state (cycle 5 (by decide)) ↔ Roomy (state.normalMax, state.bonusMax)) := by
  have opened : ∀ p : Nat × Nat → Bool,
      (machine.runBy (fun _ a => setsOnly p a) ⟨none, fun _ => none, []⟩ (opening 5 1)).any
        (fun s => s.lordsPotState.any fun account => decide (STATE_SIZE ≤ account.dataLen) &&
          account.data.normalMax == 5 && account.data.bonusMax == 1) = true →
      ∃ s state, machine.ReachableBy (fun _ a => setsOnly p a = true) s ∧ s.Holds state ∧
        state.normalMax = 5 ∧ state.bonusMax = 1 := by
    intro p run
    obtain ⟨s, hs, hp⟩ := Machine.exists_reachableBy_of_runBy (M := machine)
      (fun _ a => setsOnly p a) ⟨rfl, rfl, rfl⟩ (opening 5 1) _ run
    simp only [Option.any_eq_true, Bool.and_eq_true, decide_eq_true_eq, beq_iff_eq] at hp
    obtain ⟨account, present, ⟨long, normals⟩, bonus⟩ := hp
    exact ⟨s, account.data, hs, ⟨account, present, long, rfl⟩, normals, bonus⟩
  constructor
  · obtain ⟨s, state, hs, holds, normals, bonus⟩ := opened roomy (by decide +kernel)
    refine ⟨state, normals, (quickPick_sells coder _).1 s hs state holds ?_ ?_⟩
    · rw [normals]
      exact fair_cycle _
    · rw [bonus]
      exact fair_one _
  · obtain ⟨s, state, hs, holds, normals, bonus⟩ := opened u8 (by decide +kernel)
    refine ⟨state, normals, (quickPick_sells coder _).2 s hs state holds ?_ ?_⟩
    · rw [normals]
      exact fair_cycle _
    · rw [bonus]
      exact fair_one _

end LordsPot.Frontend
