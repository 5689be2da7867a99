import LordsPot.Payout.Voucher
import LordsPot.System.OnSolana

/-!
# Claims on record

The events of a whole transaction, and the payout path's view of the program. A claim goes through
only by the admin's signature: a transaction that has none of these leaves no claim on record.
-/

namespace LordsPot.OnSolana

open Transition Program

/-- What the instructions of a transaction that goes through leave on record. -/
def record : Chain → List Program.Action → List Entry
  | _, [] => []
  | s, a :: rest => entries s a ++ (Program.step s a).elim [] (record · rest)

/-- A transaction that fails leaves nothing. -/
def recorded (s : Chain) (instructions : List Program.Action) : List Entry :=
  if (executeAll s instructions).isSome then record s instructions else []

/-- A claim that the admin has signed. -/
def signsClaim (s : Chain) : Program.Action → Bool
  | .invoke signers (.claimWinnings ..) =>
      match loadState s with
      | .ok state => signers.contains state.admin
      | .error _ => false
  | _ => false

/-- The admin has signed no claim of the transaction. -/
def withholds : Chain → List Program.Action → Bool
  | _, [] => true
  | s, a :: rest => !signsClaim s a && (Program.step s a).all (withholds · rest)

/-- The payout path's view of the program; without an account nothing can be claimed. -/
def payoutProgram (s : Chain) : Payout.Program :=
  match loadState s with
  | .ok state => ⟨state.admin, state.isLordsPotPaused, state.maxClaimAmount, s.amount vaultUsdc⟩
  | .error _ => ⟨defaultKey, true, 0, s.amount vaultUsdc⟩

def claim? : Entry → Option (Wallet × Nat)
  | .WinningsClaimed user amount => some (user, amount)
  | _ => none

/-- Who has claimed how much, in order. -/
def claims (log : List Entry) : List (Wallet × Nat) := log.filterMap claim?

/-- What a withdrawal takes out of the vault. -/
def withdrawn : Entry → Nat
  | .VaultWithdrawal _ _ amount => amount
  | _ => 0

section

variable {s s' : Chain} {a : Program.Action} {actions : List Program.Action}

@[simp] theorem claims_append (log more : List Entry) : claims (log ++ more) = claims log ++ claims more :=
  List.filterMap_append ..

/-- What goes out of the vault is claimed or withdrawn. -/
theorem total_debit (log : List Entry) :
    Machine.total Entry.debit log = ((claims log).map (·.2)).sum + Machine.total withdrawn log := by
  induction log with
  | nil => rfl
  | cons e log ih =>
    have one : e.debit = ((claims [e]).map (·.2)).sum + withdrawn e := by
      cases e with
      | WinningsClaimed => rfl
      | VaultWithdrawal => exact (Nat.zero_add _).symm
      | TicketPurchase | deposit => rfl
    rw [← List.singleton_append, Machine.total_append, Machine.total_append, claims_append, List.map_append,
      List.sum_append, Machine.total_singleton, Machine.total_singleton, ih, one]
    omega

theorem loadState_of_holds {state : LordsPotState} (holds : s.Holds state) : loadState s = .ok state := by
  obtain ⟨account, present, long, rfl⟩ := holds
  rw [loadState, present]
  exact if_neg (by omega)

theorem payoutProgram_of_holds {state : LordsPotState} (holds : s.Holds state) : payoutProgram s =
    ⟨state.admin, state.isLordsPotPaused, state.maxClaimAmount, s.amount vaultUsdc⟩ := by
  rw [payoutProgram, loadState_of_holds holds]

/-- An instruction of a transaction that goes through is a step of the program. -/
theorem executeAll_cons (h : executeAll s (a :: actions) = some s') :
    ∃ s₁, Program.step s a = some s₁ ∧ executeAll s₁ actions = some s' ∧
      ∀ signers ix, a = .invoke signers ix → execute s signers ix = .ok s₁ := by
  cases a with
  | invoke signers ix =>
    simp only [executeAll] at h
    split at h
    · cases h
    · rename_i unsigned
      rw [Bool.or_eq_true, not_or] at unsigned
      split at h
      · rename_i s₁ executed
        refine ⟨s₁, ?_, h, fun _ _ same => ?_⟩
        · simp only [Program.step, if_neg unsigned.1, executed]
        · cases same
          exact executed
      · cases h
  | token | deposit =>
    obtain ⟨s₁, stepped, h⟩ := Option.bind_eq_some_iff.1 h
    refine ⟨s₁, stepped, h, fun _ _ same => ?_⟩
    cases same

/-- Without the admin's signature nothing is claimed. -/
theorem claims_entries (unsigned : signsClaim s a = false) : claims (entries s a) = [] := by
  cases a with
  | invoke signers ix =>
    rw [entries]
    split
    · rename_i s' executed
      cases ix with
      | claimWinnings =>
        cases execute_succeeds executed with
        | claimWinnings holds _ admin =>
          rw [signsClaim, loadState_of_holds holds] at unsigned
          exact absurd (List.contains_iff_mem.2 admin) (Bool.eq_false_iff.1 unsigned)
      | buyTicket =>
        refine List.filterMap_eq_nil_iff.2 fun e mem => ?_
        obtain ⟨p, -, rfl⟩ := List.mem_map.1 mem
        rfl
      | _ => rfl
    · rfl
  | token => rfl
  | deposit =>
    rw [entries]
    split <;> rfl

/-- **Claims need the admin**: a transaction of whose claims the admin has signed none leaves none. -/
theorem claims_recorded (unsigned : withholds s actions = true) : claims (recorded s actions) = [] := by
  have none : claims (record s actions) = [] := by
    induction actions generalizing s with
    | nil => rfl
    | cons a actions ih =>
      rw [withholds, Bool.and_eq_true, Bool.not_eq_true'] at unsigned
      rw [record, claims_append, claims_entries unsigned.1, List.nil_append]
      cases stepped : Program.step s a with
      | none => rfl
      | some s₁ =>
        rw [stepped] at unsigned
        exact ih unsigned.2
  rw [recorded]
  split
  · exact none
  · rfl

/-- The transaction of a voucher. -/
def redeem (v : Payout.Voucher) : Program.Action :=
  .invoke [v.wallet, v.admin] (.claimWinnings v.wallet v.admin (.associated v.wallet USDC_MINT_ADDRESS)
    vaultUsdc USDC_MINT_ADDRESS v.amount)

/-- A voucher's transaction that goes through is a claim that the payout path's program accepts. -/
theorem redeemed {v : Payout.Voucher} (h : executeAll s [redeem v] = some s') :
    Payout.claimWinnings (payoutProgram s) v.admin v.wallet v.amount =
      .ok (payoutProgram s', v.wallet, v.amount) ∧
    claims (recorded s [redeem v]) = [(v.wallet, v.amount)] := by
  obtain ⟨s₁, stepped, done, executed⟩ := executeAll_cons h
  cases done
  have executed := executed _ _ rfl
  have unsigned : vaultAuthority ∉ [v.wallet, v.admin] := by
    intro signed
    rw [redeem, Program.step, if_pos (List.contains_iff_mem.2 signed)] at stepped
    cases stepped
  obtain ⟨state, before, after, accepted⟩ := (execute_succeeds executed).payout unsigned
  constructor
  · rw [payoutProgram_of_holds before, payoutProgram_of_holds after]
    exact accepted
  · have events : entries s (redeem v) = [.WinningsClaimed v.wallet v.amount] := by
      rw [redeem, entries, executed]
      rfl
    rw [recorded, h, record, stepped, events]
    rfl

/-- A run of instructions moves the vault by what it leaves on record. -/
theorem amount_of_executeAll (reached : Program.machine.Reachable s) (h : executeAll s actions = some s') :
    s'.amount vaultUsdc + Machine.total Entry.debit (record s actions) =
      s.amount vaultUsdc + Machine.total Entry.credit (record s actions) := by
  induction actions generalizing s with
  | nil =>
    cases h
    rfl
  | cons a actions ih =>
    obtain ⟨s₁, stepped, h, -⟩ := executeAll_cons h
    have first := amount_of_step (sized reached) stepped
    have rest := ih (.next reached trivial stepped) h
    rw [record, stepped, Option.elim_some, Machine.total_append, Machine.total_append]
    omega

end

/-- **The books of a transaction**: whether it goes through or not, it moves the vault by what it leaves
on record. -/
theorem amount_of_transact {logs : Signature → List String} {parseLogs : List String → List Ingest.AnchorEvent}
    {keccak256 : String → Bytes32} {adminPublicKey : Wallet} {s s' : State} {signature : Signature}
    {instructions : List Program.Action} {timestamp : Nat} (reached : Program.machine.Reachable s.chain)
    (hs : step logs parseLogs keccak256 adminPublicKey s (.transact signature instructions timestamp) = some s') :
    s'.chain.amount vaultUsdc + Machine.total Entry.debit (recorded s.chain instructions) =
      s.chain.amount vaultUsdc + Machine.total Entry.credit (recorded s.chain instructions) := by
  obtain ⟨-, ⟨failed, rfl⟩ | ⟨chain, _, executed, rfl⟩⟩ := transact_cases hs
  · rw [recorded, failed]
    rfl
  · rw [recorded, executed]
    exact amount_of_executeAll reached executed

end LordsPot.OnSolana
