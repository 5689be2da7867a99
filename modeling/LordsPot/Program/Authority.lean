import LordsPot.Payout.Program
import LordsPot.Program.Succeeds

/-!
# Who can move the vault

The vault only goes down by a claim that the admin and the user both signed, or by a withdrawal
that the treasury key signed. The treasury key passes on by its own signature only, so a stolen
admin key drains no more than claims, one ceiling at a time.
-/

namespace LordsPot.Program

open Transition

/-! ## Transfers -/

section Transfer

variable {tokens tokens' : TokenAddress → Option TokenAccount} {source destination : TokenAddress}
  {mint : Pubkey} {amount : Nat}

theorem transferChecked_self (h : transferChecked tokens source source mint amount = .ok tokens') :
    tokens' = tokens := by
  unfold transferChecked at h
  split at h
  · split_ifs at h with refused
    · cases h
      rfl
    · rename_i same
      exact absurd rfl same
  · cases h

/-- A transfer takes exactly the amount from one account and gives it to the other. -/
theorem transferChecked_moves (differ : source ≠ destination)
    (h : transferChecked tokens source destination mint amount = .ok tokens') :
    balance tokens' source + amount = balance tokens source ∧
      balance tokens' destination = balance tokens destination + amount ∧
      ∀ address, address ≠ source → address ≠ destination → tokens' address = tokens address := by
  unfold transferChecked at h
  split at h
  · rename_i a b ha hb
    split_ifs at h with refused
    cases h
    have enough : amount ≤ a.amount := by
      have := mt (fun poor => Or.inr (Or.inr poor)) refused
      omega
    refine ⟨?_, ?_, ?_⟩
    · simp only [balance, ha, Option.elim_some, Function.update_of_ne differ, Function.update_self]
      omega
    · simp [balance, hb]
    · intro address source destination
      rw [Function.update_of_ne destination, Function.update_of_ne source]
  · cases h

/-- Only the source of a transfer can lose. -/
theorem transferChecked_le {address : TokenAddress} (other : address ≠ source)
    (h : transferChecked tokens source destination mint amount = .ok tokens') :
    balance tokens address ≤ balance tokens' address := by
  by_cases self : source = destination
  · subst self
    rw [transferChecked_self h]
  · obtain ⟨-, credit, rest⟩ := transferChecked_moves self h
    by_cases paid : address = destination
    · rw [paid, credit]
      omega
    · rw [balance, balance, rest address other paid]

end Transfer

/-! ## The two ways out -/

/-- What an action that lowers the vault must be. -/
inductive Outflow (s s' : Chain) : Action → Prop where
  | claim {signers : List Pubkey} {user : Pubkey} {amount : Nat} {state : LordsPotState}
      (holds : s.Holds state) (unpaused : state.isLordsPotPaused = false) (positive : 0 < amount)
      (ceiling : amount ≤ state.maxClaimAmount) (admin : state.admin ∈ signers)
      (signed : user ∈ signers) (debit : s'.amount vaultUsdc + amount = s.amount vaultUsdc)
      (credit : s'.amount (.associated user USDC_MINT_ADDRESS) =
        s.amount (.associated user USDC_MINT_ADDRESS) + amount) :
      Outflow s s' (.invoke signers (.claimWinnings user state.admin
        (.associated user USDC_MINT_ADDRESS) vaultUsdc USDC_MINT_ADDRESS amount))
  | withdrawal {signers : List Pubkey} {destination : TokenAddress} {amount : Nat}
      {state : LordsPotState} (holds : s.Holds state) (treasury : state.treasuryAuthority ∈ signers)
      (debit : s'.amount vaultUsdc + amount = s.amount vaultUsdc) :
      Outflow s s' (.invoke signers (.withdrawVaultFunds state.treasuryAuthority vaultUsdc
        destination USDC_MINT_ADDRESS amount))

section Vault

variable {s s' : Chain} {signers : List Pubkey}

theorem associated_ne_vault {user : Pubkey} (unsigned : vaultAuthority ∉ signers)
    (signed : user ∈ signers) : vaultUsdc ≠ .associated user USDC_MINT_ADDRESS := by
  intro same
  cases same
  exact unsigned signed

/-- Opening an account with nothing in it changes no balance. -/
theorem balance_opened {tokens : TokenAddress → Option TokenAccount} (user address : TokenAddress)
    (mint : Pubkey) :
    balance (if (tokens user).isSome then tokens
      else Function.update tokens user (some { mint := mint, amount := 0 })) address =
    balance tokens address := by
  split
  · rfl
  · rename_i absent
    by_cases same : address = user
    · subst same
      simp [balance, Option.not_isSome_iff_eq_none.1 absent]
    · rw [balance, Function.update_of_ne same, balance]

/-- A purchase is paid into the vault and out of the buyer's account only. -/
theorem Paid.vault {state : LordsPotState} {signer : Pubkey} {event : TicketPurchaseEvent}
    {tokens : TokenAddress → Option TokenAccount} (paid : Paid s state signer event tokens)
    (unsigned : vaultAuthority ∉ signers) (signed : signer ∈ signers) :
    s.amount vaultUsdc ≤ balance tokens vaultUsdc := by
  have other := associated_ne_vault unsigned signed
  obtain ⟨tokens₁, fee, price, same | relay⟩ := paid.transfers
  · subst same
    exact transferChecked_le other price
  · exact (transferChecked_le other price).trans (transferChecked_le other relay)

/-- **The outflow rule.** -/
theorem Succeeds.outflow {ix : Instruction} (sized : Sized s) (unsigned : vaultAuthority ∉ signers)
    (h : Succeeds s signers ix s') (less : s'.amount vaultUsdc < s.amount vaultUsdc) :
    Outflow s s' (.invoke signers ix) := by
  cases h with
  | initializeState _ noVault =>
    simp [Chain.amount, balance, noVault] at less
  | migrated => exact absurd less (lt_irrefl _)
  | migrateState present legacy => exact absurd legacy (sized.not_legacy present)
  | setAdmin | setTreasuryAuthority | setRelayConfig | pauseProtocol | resumeProtocol
  | updateEpoch => exact absurd less (lt_irrefl _)
  | buyTicket _ signed _ paid => exact absurd (paid.vault unsigned signed) (not_le_of_gt less)
  | claimWinnings holds signed admin unpaused positive ceiling _ opens moved =>
    obtain ⟨debit, credit, -⟩ := transferChecked_moves (associated_ne_vault unsigned signed) moved
    rw [opens, balance_opened] at debit credit
    exact .claim holds unpaused positive ceiling admin signed debit credit
  | withdrawVaultFunds holds treasury other moved =>
    exact .withdrawal holds treasury (transferChecked_moves other moved).1

/-- A claim that executes is accepted by the payout path's view of the program. -/
theorem Succeeds.payout {user admin : Pubkey} {mint : Pubkey} {account vault : TokenAddress}
    {amount : Nat} (unsigned : vaultAuthority ∉ signers)
    (h : Succeeds s signers (.claimWinnings user admin account vault mint amount) s') :
    ∃ state, s.Holds state ∧ s'.Holds state ∧ Payout.claimWinnings
      ⟨state.admin, state.isLordsPotPaused, state.maxClaimAmount, s.amount vaultUsdc⟩ admin user amount =
      .ok (⟨state.admin, state.isLordsPotPaused, state.maxClaimAmount, s'.amount vaultUsdc⟩, user,
        amount) := by
  cases h with
  | claimWinnings holds signed cosigned unpaused positive ceiling covered opens moved =>
    rename_i state opened tokens
    obtain ⟨debit, -, -⟩ := transferChecked_moves (associated_ne_vault unsigned signed) moved
    rw [opens, balance_opened] at debit
    refine ⟨state, holds, holds.of_eq rfl, ?_⟩
    have left : balance tokens vaultUsdc = s.amount vaultUsdc - amount := by
      simp only [Chain.amount] at *
      omega
    have poor : ¬ s.amount vaultUsdc < amount := not_lt_of_ge covered
    simp only [Chain.amount] at left poor
    simp [Payout.claimWinnings, unpaused, positive.ne', not_lt_of_ge ceiling, poor, Chain.amount, left]

end Vault

/-! ## The treasury key -/

/-- The key is among the signers of the action's transaction. -/
def Action.signedBy (key : Pubkey) : Action → Bool
  | .invoke signers _ => signers.contains key
  | .token .. | .deposit _ => false

section Treasury

variable {s s' : Chain} {state : LordsPotState}

/-- An instruction that the treasury key has not signed leaves it in its place. -/
theorem Succeeds.treasury {signers : List Pubkey} {ix : Instruction} (sized : Sized s)
    (holds : s.Holds state) (real : state.treasuryAuthority ≠ defaultKey)
    (unsigned : state.treasuryAuthority ∉ signers) (h : Succeeds s signers ix s') :
    ∃ state', s'.Holds state' ∧ state'.treasuryAuthority = state.treasuryAuthority := by
  cases h with
  | initializeState fresh => exact absurd fresh holds.ne_none
  | migrated => exact ⟨state, holds, rfl⟩
  | migrateState present legacy => exact absurd legacy (sized.not_legacy present)
  | setTreasuryAuthority holds' signed entitled =>
    cases holds.unique holds'
    rcases entitled with bootstrap | itself
    · exact absurd bootstrap real
    · exact absurd (itself ▸ signed) unsigned
  | setAdmin holds' | setRelayConfig holds' | pauseProtocol holds' | resumeProtocol holds'
  | updateEpoch holds' =>
    cases holds.unique holds'
    exact ⟨_, holds.store, rfl⟩
  | buyTicket | claimWinnings | withdrawVaultFunds => exact ⟨state, holds.of_eq rfl, rfl⟩

theorem treasury_step {a : Action} (sized : Sized s) (holds : s.Holds state)
    (real : state.treasuryAuthority ≠ defaultKey)
    (unsigned : a.signedBy state.treasuryAuthority = false)
    (hs : machine.step s a = some s') :
    ∃ state', s'.Holds state' ∧ state'.treasuryAuthority = state.treasuryAuthority := by
  obtain ⟨signers, ix, rfl, -, succeeds⟩ | ⟨same, -, -⟩ := step_cases hs
  · refine succeeds.treasury sized holds real fun signed => ?_
    simp [Action.signedBy, signed] at unsigned
  · exact ⟨state, holds.of_eq same, rfl⟩

/-- **The treasury key stays** along a run in which it never signs. -/
theorem treasury_run {as : List Action} (h : machine.Reachable s) (holds : s.Holds state)
    (real : state.treasuryAuthority ≠ defaultKey)
    (unsigned : ∀ a ∈ as, a.signedBy state.treasuryAuthority = false)
    (hr : machine.run s as = some s') :
    ∃ state', s'.Holds state' ∧ state'.treasuryAuthority = state.treasuryAuthority := by
  induction as generalizing s state with
  | nil =>
    cases hr
    exact ⟨state, holds, rfl⟩
  | cons a as ih =>
    obtain ⟨t, ht, hr⟩ := Machine.run_cons.1 hr
    obtain ⟨state₁, holds₁, same⟩ := treasury_step (sized h) holds real
      (unsigned a List.mem_cons_self) ht
    obtain ⟨state₂, holds₂, same₂⟩ := ih (.next h trivial ht) holds₁ (same ▸ real)
      (fun b mem => same ▸ unsigned b (List.mem_cons_of_mem _ mem)) hr
    exact ⟨state₂, holds₂, same₂.trans same⟩

end Treasury

/-- **The vault and its keys**: in every state the program can be in, only the two outflows lower
the vault, and a treasury key that does not sign is still the treasury key afterwards. -/
theorem vault_and_treasury {s : Chain} (h : machine.Reachable s) :
    (∀ a s', machine.step s a = some s' → s'.amount vaultUsdc < s.amount vaultUsdc →
      Outflow s s' a) ∧
    ∀ state as s', s.Holds state → state.treasuryAuthority ≠ defaultKey →
      (∀ a ∈ as, a.signedBy state.treasuryAuthority = false) → machine.run s as = some s' →
      ∃ state', s'.Holds state' ∧ state'.treasuryAuthority = state.treasuryAuthority := by
  constructor
  · intro a s' hs less
    obtain ⟨signers, ix, rfl, unsigned, succeeds⟩ | ⟨-, -, no⟩ := step_cases hs
    · exact succeeds.outflow (sized h) unsigned less
    · exact absurd less (not_lt_of_ge no)
  · intro state as s' holds real unsigned hr
    exact treasury_run h holds real unsigned hr

/-- A program that has just been opened, with 1000 in the vault. -/
def funded : List Action :=
  [.invoke ["admin"] (.initializeState "admin" USDC_MINT_ADDRESS 30 10 100 1 0 0 "fees" 50 500
    "treasury"),
   .deposit 1000]

/-- A claim of 200 goes through, and a new admin does not touch the treasury key. -/
theorem vault_and_treasury_claim : ∃ (s s' s'' : Chain) (a : Action) (state : LordsPotState), machine.step s a = some s' ∧
    s'.amount vaultUsdc < s.amount vaultUsdc ∧ Outflow s s' a ∧ s''.Holds state ∧
      state.treasuryAuthority = "treasury" := by
  obtain ⟨s, hs, hp⟩ := Machine.exists_reachable_of_run (M := machine)
    (s := ⟨none, fun _ => none, []⟩) ⟨rfl, rfl, rfl⟩ funded
    (fun s => (s.lordsPotState.any fun account => decide (STATE_SIZE ≤ account.dataLen) &&
        account.data.treasuryAuthority == "treasury") &&
      ((machine.step s (.invoke ["user", "admin"] (.claimWinnings "user" "admin"
        (.associated "user" USDC_MINT_ADDRESS) vaultUsdc USDC_MINT_ADDRESS 200))).any fun s' =>
          decide (s'.amount vaultUsdc < s.amount vaultUsdc)) &&
      (machine.run s [.invoke ["admin", "next"] (.setAdmin "admin" "next"),
        .invoke ["next"] (.migrateState "next" 0 0 "fees" 50 500 "next"),
        .invoke ["next"] (.setTreasuryAuthority "next" "next")]).isSome) (by decide +kernel)
  simp only [Bool.and_eq_true, Option.any_eq_true, decide_eq_true_eq, beq_iff_eq] at hp
  obtain ⟨⟨⟨account, present, long, treasury⟩, s', claimed, less⟩, ran⟩ := hp
  obtain ⟨s'', hr⟩ := Option.isSome_iff_exists.1 ran
  have both := vault_and_treasury hs
  obtain ⟨state, holds, same⟩ := both.2 account.data _ s'' ⟨account, present, long, rfl⟩
    (by rw [treasury]; decide) (by rw [treasury]; decide) hr
  exact ⟨s, s', s'', _, state, claimed, less, both.1 _ s' claimed less, holds, same.trans treasury⟩

end LordsPot.Program
