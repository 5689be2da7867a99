import LordsPot.Schema

/-!
# `claim_winnings` on Solana

What the program's payout instruction checks and moves. The token program moves exactly
the requested amount; the event is emitted after the transfer, so a reverted claim emits
nothing.
-/

namespace LordsPot.Payout

/-- The errors of `ClaimWinnings` and `claim_winnings`. -/
inductive LordsPotError where
  | Unauthorized | ProtocolPaused | InvalidAmount | ClaimExceedsMaxAmount | InsufficientVaultFunds
  deriving Repr, DecidableEq

/-- The fields of `LordsPotState` the instruction reads, and the vault's balance. -/
structure Program where
  admin : Wallet
  isLordsPotPaused : Bool := false
  maxClaimAmount : Nat
  vaultUsdc : Nat
  deriving Repr, DecidableEq

/-- A successful claim leaves the vault lower by `amount` and emits `(user, amount)`. -/
def claimWinnings (p : Program) (admin user : Wallet) (amount : Nat) :
    Except LordsPotError (Program × Wallet × Nat) :=
  if admin ≠ p.admin then .error .Unauthorized
  else if p.isLordsPotPaused then .error .ProtocolPaused
  else if amount = 0 then .error .InvalidAmount
  else if p.maxClaimAmount < amount then .error .ClaimExceedsMaxAmount
  else if p.vaultUsdc < amount then .error .InsufficientVaultFunds
  else .ok ({ p with vaultUsdc := p.vaultUsdc - amount }, user, amount)

/-- An accepted claim was signed by the admin, unpaused, positive, within the ceiling and
covered, and moved exactly its amount. -/
theorem claimWinnings_ok {p p' : Program} {admin user u : Wallet} {amount a : Nat}
    (h : claimWinnings p admin user amount = .ok (p', u, a)) :
    admin = p.admin ∧ p.isLordsPotPaused = false ∧ 0 < amount ∧ amount ≤ p.maxClaimAmount ∧
      p'.vaultUsdc + amount = p.vaultUsdc ∧ u = user ∧ a = amount := by
  unfold claimWinnings at h
  split_ifs at h with h1 h2 h3 h4 h5
  cases h
  refine ⟨by simpa using h1, by simpa using h2, by omega, by omega, ?_, rfl, rfl⟩
  simp only
  omega

end LordsPot.Payout
