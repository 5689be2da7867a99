import Mathlib.Data.List.Dedup
import Mathlib.Data.List.Sort
import Mathlib.Data.Rat.Floor
import LordsPot.Library.Draws
import LordsPot.Program.Purchase

/-!
# Staged tickets

`ticketUtils.ts`, and how `buyTickets` encodes a ticket. A ball is whatever number it was picked as;
the program is sent its lowest byte. A result of `Math.random()` is a fraction, and a quick pick
reads the results one after the other.
-/

namespace LordsPot.Frontend

open Program

namespace TICKET_RULES

def NORMALS_PER_TICKET : Nat := 5
def MAX_TICKETS_PER_IX : Nat := 65

end TICKET_RULES

structure StagedTicket where
  normals : List Int
  /-- None while it has not been picked. -/
  bonus : Option Int
  isQuickPick : Bool
  deriving Repr, DecidableEq

/-! ## Quick picks -/

/-- A result of `Math.random()`. -/
structure Random where
  value : Rat
  nonneg : 0 ≤ value
  lt_one : value < 1

/-- `1 + Math.floor(Math.random() * max)`. -/
def ball (max : Nat) (random : Random) : Int := 1 + ⌊random.value * max⌋

/-- `(a, b) => a - b`. -/
def sortedNormals (normals : List Int) : List Int := normals.insertionSort (· ≤ ·)

/-- The ticket and the results that are left, unless the loop goes on after those at hand. -/
def generateQuickPick (normalMax bonusMax : Nat) (random : List Random) :
    Option (StagedTicket × List Random) :=
  match Draws.fill TICKET_RULES.NORMALS_PER_TICKET (ball normalMax) [] random with
  | some (normals, next :: rest) =>
      some ({ normals := sortedNormals normals, bonus := some (ball bonusMax next),
              isQuickPick := true }, rest)
  | _ => none

def emptyTicket : StagedTicket := { normals := [], bonus := none, isQuickPick := false }

/-! ## Validation -/

def validateTicket (normals : List Int) (bonus : Option Int) (normalMax bonusMax : Nat) :
    Option String :=
  if normals.length ≠ TICKET_RULES.NORMALS_PER_TICKET then some "Pick exactly 5 numbers"
  else match bonus with
    | none => some "Pick 1 bonus number"
    | some bonus =>
      if normals.dedup.length ≠ normals.length then some "Numbers must be unique"
      else if normals.any fun n => n < 1 || n > normalMax then
        some s!"Numbers must be between 1 and {normalMax}"
      else if bonus < 1 ∨ bonus > bonusMax then some s!"Bonus must be between 1 and {bonusMax}"
      else none

def isTicketComplete (t : StagedTicket) (normalMax bonusMax : Nat) : Bool :=
  (validateTicket t.normals t.bonus normalMax bonusMax).isNone

/-! ## The encoding -/

/-- What the page relies on of Anchor's coder and of BN: a byte is written as it is, and a number
that is read is the one on chain. Either may throw. -/
structure Coder where
  u8 : Int → Option Nat
  toNumber : Nat → Option Nat
  u8_byte : ∀ b : Nat, b < 256 → u8 b = some b
  toNumber_eq : ∀ n m, toNumber n = some m → m = n

/-- An element of `Buffer.from`. -/
def toUint8 (n : Int) : Nat := (n % 256).toNat

/-- The ticket as `buyTickets` formats it; a ticket without a bonus ball is never formatted. -/
def formatTicket (coder : Coder) (t : StagedTicket) : Option Program.Ticket := do
  let bonus ← t.bonus
  let bonusBall ← coder.u8 bonus
  some { normalBall := t.normals.map toUint8, bonusBall := bonusBall }

/-- The program's checks accept the ticket as it is encoded. -/
def Accepted (coder : Coder) (state : LordsPotState) (t : StagedTicket) : Prop :=
  ∃ ticket, formatTicket coder t = some ticket ∧ checkTicket state ticket = .ok ()

/-! ## What a quick pick is -/

theorem ball_zero (random : Random) : ball 0 random = 1 := by
  rw [ball, Nat.cast_zero, mul_zero, Int.floor_zero, add_zero]

theorem ball_bounds {max : Nat} (some : 1 ≤ max) (random : Random) :
    1 ≤ ball max random ∧ ball max random ≤ max := by
  have positive : (0 : Rat) < max := by exact_mod_cast some
  have low : 0 ≤ ⌊random.value * max⌋ := Int.floor_nonneg.2 (mul_nonneg random.nonneg positive.le)
  have high : ⌊random.value * max⌋ < max := by
    rw [Int.floor_lt, Int.cast_natCast]
    exact mul_lt_of_lt_one_left positive random.lt_one
  unfold ball
  omega

/-- Five ascending balls and a bonus ball, each drawn from its range. -/
structure Picked (normalMax bonusMax : Nat) (t : StagedTicket) : Prop where
  five : t.normals.length = 5
  ascending : t.normals.Pairwise (· < ·)
  normals : ∀ n ∈ t.normals, ∃ random, ball normalMax random = n
  bonus : ∃ random, t.bonus = some (ball bonusMax random)

theorem ascending_sortedNormals {normals : List Int} (distinct : normals.Nodup) :
    (sortedNormals normals).Pairwise (· < ·) := by
  have sorted := List.pairwise_insertionSort (· ≤ ·) normals
  have nodup : (sortedNormals normals).Nodup := (List.perm_insertionSort _ _).nodup_iff.2 distinct
  exact (sorted.and nodup).imp fun h => lt_of_le_of_ne h.1 h.2

theorem picked_of_generate {normalMax bonusMax : Nat} {random rest : List Random} {t : StagedTicket}
    (h : generateQuickPick normalMax bonusMax random = some (t, rest)) :
    Picked normalMax bonusMax t := by
  unfold generateQuickPick at h
  split at h
  · rename_i normals next left filled
    cases h
    have spec := Draws.filled_of_fill (by decide) List.nodup_nil filled
    refine ⟨(List.length_insertionSort _ _).trans spec.length, ascending_sortedNormals spec.nodup,
      fun n hn => ?_, next, rfl⟩
    obtain ⟨drawn, -, same⟩ := (spec.mem n ((List.mem_insertionSort _).1 hn)).resolve_left
      List.not_mem_nil
    exact ⟨drawn, same⟩
  · cases h

/-! ## What is complete and what is accepted -/

/-- Five distinct normals within the bounds, and a bonus ball within its own. -/
structure Complete (t : StagedTicket) (normalMax bonusMax : Nat) : Prop where
  five : t.normals.length = 5
  distinct : t.normals.Nodup
  normals : ∀ n ∈ t.normals, 1 ≤ n ∧ n ≤ normalMax
  bonus : ∃ b, t.bonus = some b ∧ 1 ≤ b ∧ b ≤ bonusMax

/-- A check that fails leaves a message. -/
theorem message_eq_none {c : Prop} [Decidable c] {message : String} {rest : Option String} :
    (if c then some message else rest) = none ↔ ¬c ∧ rest = none := by
  split
  · rename_i failed
    simp [failed]
  · rename_i passed
    simp [passed]

theorem dedup_length_iff {normals : List Int} :
    normals.dedup.length = normals.length ↔ normals.Nodup := by
  constructor
  · intro same
    rw [← (List.dedup_sublist normals).eq_of_length same]
    exact List.nodup_dedup _
  · intro nodup
    rw [List.dedup_eq_self.2 nodup]

theorem within_iff {normals : List Int} {normalMax : Nat} :
    ¬(normals.any fun n => n < 1 || n > normalMax) = true ↔ ∀ n ∈ normals, 1 ≤ n ∧ n ≤ normalMax := by
  rw [Bool.not_eq_true, List.any_eq_false]
  refine forall₂_congr fun n _ => ?_
  simp only [Bool.or_eq_true, decide_eq_true_eq]
  omega

theorem isTicketComplete_iff {t : StagedTicket} {normalMax bonusMax : Nat} :
    isTicketComplete t normalMax bonusMax = true ↔ Complete t normalMax bonusMax := by
  rw [isTicketComplete, Option.isNone_iff_eq_none]
  unfold validateTicket
  rw [message_eq_none, not_not]
  cases picked : t.bonus with
  | none =>
    refine ⟨fun h => (by cases h.2), fun h => ?_⟩
    obtain ⟨b, some, -⟩ := h.bonus
    rw [picked] at some
    cases some
  | some b =>
    simp only [message_eq_none, not_not, dedup_length_iff, within_iff, and_true]
    constructor
    · rintro ⟨five, distinct, normals, bonus⟩
      exact ⟨five, distinct, normals, b, picked, by omega⟩
    · rintro ⟨five, distinct, normals, b', picked', bonus⟩
      cases picked.symm.trans picked'
      exact ⟨five, distinct, normals, by omega⟩

/-- Every number of the ticket is a byte, so that it is sent as it is. -/
structure Bytes (t : StagedTicket) : Prop where
  normals : ∀ n ∈ t.normals, 0 ≤ n ∧ n < 256
  bonus : ∀ b, t.bonus = some b → 0 ≤ b ∧ b < 256

theorem toUint8_byte {n : Int} (byte : 0 ≤ n ∧ n < 256) : (toUint8 n : Int) = n := by
  unfold toUint8
  omega

section Accepted

variable {coder : Coder} {state : LordsPotState} {t : StagedTicket}

theorem formatTicket_bytes (bytes : Bytes t) {b : Int} (picked : t.bonus = some b) :
    formatTicket coder t = some ⟨t.normals.map toUint8, b.toNat⟩ := by
  have byte := bytes.bonus b picked
  have written : coder.u8 b = some b.toNat := by
    rw [← coder.u8_byte b.toNat (by omega), Int.toNat_of_nonneg byte.1]
  rw [formatTicket, picked, Option.bind_eq_bind, Option.bind_some, written]
  rfl

/-- **Complete and accepted are the same** of an ascending ticket whose numbers are bytes. -/
theorem complete_iff_accepted (u8 : state.normalMax < 256 ∧ state.bonusMax < 256)
    (ascending : t.normals.Pairwise (· < ·)) :
    Complete t state.normalMax state.bonusMax ↔ Bytes t ∧ Accepted coder state t := by
  constructor
  · rintro ⟨five, -, normals, b, picked, bonus⟩
    have bytes : Bytes t := by
      refine ⟨fun n hn => ?_, fun b' picked' => ?_⟩
      · have := normals n hn
        omega
      · rw [picked] at picked'
        cases picked'
        omega
    refine ⟨bytes, _, formatTicket_bytes bytes picked, checkTicket_iff.2 ?_⟩
    refine ⟨(List.length_map _).trans five, List.pairwise_map.2 ?_, fun ball mem => ?_, ?_⟩
    · refine ascending.imp_of_mem fun {m n} hm hn less => ?_
      have := toUint8_byte (bytes.normals m hm)
      have := toUint8_byte (bytes.normals n hn)
      omega
    · obtain ⟨n, hn, rfl⟩ := List.mem_map.1 mem
      have := toUint8_byte (bytes.normals n hn)
      have := normals n hn
      omega
    · show 1 ≤ b.toNat ∧ b.toNat ≤ state.bonusMax
      omega
  · rintro ⟨bytes, ticket, formatted, checked⟩
    obtain ⟨b, picked⟩ : ∃ b, t.bonus = some b := by
      refine Option.ne_none_iff_exists'.1 fun none => ?_
      rw [formatTicket, none] at formatted
      cases formatted
    rw [formatTicket_bytes bytes picked] at formatted
    cases formatted
    have playable := checkTicket_iff.1 checked
    refine ⟨(List.length_map _).symm.trans playable.five, ascending.imp fun less => less.ne,
      fun n hn => ?_, b, picked, ?_⟩
    · have := toUint8_byte (bytes.normals n hn)
      have := playable.normals _ (List.mem_map_of_mem hn)
      omega
    · have := bytes.bonus b picked
      have := playable.bonus
      simp only at this
      omega

end Accepted

/-! ## A source and a coder -/

/-- The source that goes through a range in turn. -/
def cycle (max : Nat) (some : 0 < max) (i : Nat) : Random where
  value := (i % max : Nat) / (max : Rat)
  nonneg := div_nonneg (Nat.cast_nonneg _) (Nat.cast_nonneg _)
  lt_one := by
    rw [div_lt_one (by exact_mod_cast some)]
    exact_mod_cast Nat.mod_lt i some

/-- The coder for bytes, and numbers below 2^53. -/
def coder : Coder where
  u8 b := if 0 ≤ b ∧ b < 256 then some b.toNat else none
  toNumber n := if n < 2 ^ 53 then some n else none
  u8_byte b hb := by
    rw [if_pos ⟨Int.natCast_nonneg b, by omega⟩, Int.toNat_natCast]
  toNumber_eq n m h := by
    split at h
    · exact (Option.some.inj h).symm
    · cases h

end LordsPot.Frontend
