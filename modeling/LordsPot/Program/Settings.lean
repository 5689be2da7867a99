import LordsPot.Program.Succeeds

/-!
# Where the settings come from

The settings in the state account are those that `initialize` was called with, changed by the
setters since. `Updated` says what each of them changes; no other instruction changes anything.
-/

namespace LordsPot.Program

open Transition

/-- What an action makes of the settings in the state account. -/
inductive Updated (state : LordsPotState) : Action → LordsPotState → Prop where
  | same {a : Action} : Updated state a state
  | setAdmin {signers : List Pubkey} {newAdmin : Pubkey} :
      Updated state (.invoke signers (.setAdmin state.admin newAdmin)) { state with admin := newAdmin }
  | setTreasuryAuthority {signers : List Pubkey} {authority newTreasury : Pubkey} :
      Updated state (.invoke signers (.setTreasuryAuthority authority newTreasury))
        { state with treasuryAuthority := newTreasury }
  | setRelayConfig {signers : List Pubkey} {relayFeeBase relayFeePerTicket : Nat}
      {feeRecipient : Pubkey} {maxTicketsPerPurchase maxClaimAmount : Nat} :
      Updated state
        (.invoke signers (.setRelayConfig state.admin relayFeeBase relayFeePerTicket feeRecipient
          maxTicketsPerPurchase maxClaimAmount))
        { state with
          relayFeeBase := relayFeeBase
          relayFeePerTicket := relayFeePerTicket
          feeRecipient := feeRecipient
          maxTicketsPerPurchase := maxTicketsPerPurchase
          maxClaimAmount := maxClaimAmount }
  | pauseProtocol {signers : List Pubkey} :
      Updated state (.invoke signers (.pauseProtocol state.admin))
        { state with isLordsPotPaused := true }
  | resumeProtocol {signers : List Pubkey} {nextEpoch : Nat} :
      Updated state (.invoke signers (.resumeProtocol state.admin nextEpoch))
        { state with isLordsPotPaused := false, ongoingEpoch := nextEpoch }
  | updateEpoch {signers : List Pubkey} {normalMax bonusMax : Nat} :
      Updated state (.invoke signers (.updateEpoch state.admin normalMax bonusMax))
        { state with normalMax := normalMax, bonusMax := bonusMax }

/-- What `initialize` is called with is what it stores. -/
inductive Opened : Action → LordsPotState → Prop where
  | initializeState {signers : List Pubkey} {signer usdcMint : Pubkey}
      {normalMax bonusMax ticketPrice startingEpoch relayFeeBase relayFeePerTicket : Nat}
      {feeRecipient : Pubkey} {maxTicketsPerPurchase maxClaimAmount : Nat}
      {treasuryAuthority : Pubkey} :
      Opened
        (.invoke signers (.initializeState signer usdcMint normalMax bonusMax ticketPrice startingEpoch
          relayFeeBase relayFeePerTicket feeRecipient maxTicketsPerPurchase maxClaimAmount
          treasuryAuthority))
        { normalMax := normalMax
          bonusMax := bonusMax
          ticketPrice := ticketPrice
          ongoingEpoch := startingEpoch
          isLordsPotPaused := false
          admin := signer
          version := STATE_VERSION
          relayFeeBase := relayFeeBase
          relayFeePerTicket := relayFeePerTicket
          feeRecipient := feeRecipient
          maxTicketsPerPurchase := maxTicketsPerPurchase
          maxClaimAmount := maxClaimAmount
          treasuryAuthority := treasuryAuthority }

section Step

variable {s s' : Chain} {state data : LordsPotState}

theorem opened_of_execute {signers : List Pubkey} {signer usdcMint : Pubkey}
    {normalMax bonusMax ticketPrice startingEpoch relayFeeBase relayFeePerTicket : Nat}
    {feeRecipient : Pubkey} {maxTicketsPerPurchase maxClaimAmount : Nat} {treasuryAuthority : Pubkey}
    (h : execute s signers (.initializeState signer usdcMint normalMax bonusMax ticketPrice
      startingEpoch relayFeeBase relayFeePerTicket feeRecipient maxTicketsPerPurchase maxClaimAmount
      treasuryAuthority) = .ok s') (holds : s'.Holds data) :
    Opened (.invoke signers (.initializeState signer usdcMint normalMax bonusMax ticketPrice
      startingEpoch relayFeeBase relayFeePerTicket feeRecipient maxTicketsPerPurchase maxClaimAmount
      treasuryAuthority)) data := by
  simp only [execute] at h
  obtain ⟨-, h⟩ := of_require h
  obtain ⟨-, h⟩ := of_require h
  obtain ⟨-, h⟩ := of_require h
  obtain ⟨-, h⟩ := of_require h
  obtain ⟨_, -, h⟩ := of_bind h
  obtain ⟨-, h⟩ := of_validateTreasury h
  cases h
  obtain ⟨account, present, -, rfl⟩ := holds
  cases present
  exact .initializeState

/-- **The settings rule**: the settings after a step are those that `initialize` opened with, where
there were none, or the ones before it as the action has changed them. -/
theorem settings_step {a : Action} (sized : Sized s) (hs : step s a = some s')
    (holds : s'.Holds data) :
    (s.lordsPotState = none ∧ Opened a data) ∨ ∃ state, s.Holds state ∧ Updated state a data := by
  have stored : ∀ {state new : LordsPotState}, s.Holds state → (s.store new).Holds data →
      data = new := fun before after => after.unique before.store
  obtain ⟨signers, ix, rfl, unsigned, succeeds⟩ | ⟨same, -, -⟩ := step_cases hs
  · cases succeeds with
    | initializeState fresh =>
      simp only [step] at hs
      split at hs
      · cases hs
      · split at hs
        · -- a call that fails leaves no state account behind
          have none := congrArg Chain.lordsPotState (Option.some.inj hs)
          rw [fresh] at none
          cases none
        · rename_i executed
          rw [Option.some.inj hs] at executed
          exact .inl ⟨fresh, opened_of_execute executed holds⟩
    | migrated => exact .inr ⟨data, holds, .same⟩
    | migrateState present legacy => exact absurd legacy (sized.not_legacy present)
    | setAdmin before => exact .inr ⟨_, before, stored before holds ▸ .setAdmin⟩
    | setTreasuryAuthority before => exact .inr ⟨_, before, stored before holds ▸ .setTreasuryAuthority⟩
    | setRelayConfig before => exact .inr ⟨_, before, stored before holds ▸ .setRelayConfig⟩
    | pauseProtocol before => exact .inr ⟨_, before, stored before holds ▸ .pauseProtocol⟩
    | resumeProtocol before => exact .inr ⟨_, before, stored before holds ▸ .resumeProtocol⟩
    | updateEpoch before => exact .inr ⟨_, before, stored before holds ▸ .updateEpoch⟩
    | buyTicket | claimWinnings | withdrawVaultFunds => exact .inr ⟨data, holds.of_eq rfl, .same⟩
  · exact .inr ⟨data, holds.of_eq same.symm, .same⟩

/-- **The settings rule over runs**: what holds of the settings that `initialize` opens with, and of
those that an action makes of settings it holds of, holds in every state reached. -/
theorem settings_of_reachable {ok : Chain → Action → Prop} {P : LordsPotState → Prop}
    (opened : ∀ s a data, ok s a → s.lordsPotState = none → Opened a data → P data)
    (updated : ∀ s a state data, ok s a → s.Holds state → P state → Updated state a data → P data)
    (h : machine.ReachableBy ok s) : ∀ state, s.Holds state → P state := by
  have inv : Sized s ∧ ∀ state, s.Holds state → P state := by
    refine h.invariant (I := fun s => Sized s ∧ ∀ state, s.Holds state → P state) ?_ ?_
    · intro s initial
      refine ⟨sized (.start initial), fun state holds => ?_⟩
      exact absurd initial.noState holds.ne_none
    · rintro s a s' ⟨size, old⟩ allowed hs
      constructor
      · obtain ⟨_, _, -, -, succeeds⟩ | ⟨same, -, -⟩ := step_cases hs
        · exact size.succeeds succeeds
        · exact size.of_eq same
      · intro data holds
        rcases settings_step size hs holds with ⟨fresh, first⟩ | ⟨state, before, change⟩
        · exact opened s a data allowed fresh first
        · exact updated s a state data allowed before (old state before) change
  exact inv.2

end Step

end LordsPot.Program
