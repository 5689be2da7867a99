import Mathlib.Logic.Function.Basic
import LordsPot.Library.Machine
import LordsPot.Library.Rollback
import LordsPot.Schema

/-!
# The vault on Base

`LordsPotBaseVault` with `Ownable` and `Pausable`, as steps between its external calls. Anyone calls
the vault, directly or out of another contract's call; while the vault waits for Megapot or USDC,
these may call anything, the vault included, and return or revert. A call that reverts leaves nothing
of what it did; whoever made it may catch that and go on.
-/

namespace LordsPot.Vault

open Transition Rollback

abbrev Address := Nat

def MAX_UINT256 : Nat := 2 ^ 256 - 1

/-! ## Storage and logs -/

structure VaultInfo where
  relayer : Address
  megapotAddress : Address
  usdcAddress : Address
  referrerAddress : Address
  deriving Repr, DecidableEq

inductive Event where
  | TicketsRouted (orderId : Bytes32) (ticketCount : Nat) (source : Bytes32) (ticketIds : List Nat)
  | WinningsHarvested (ticketCount amountHarvested : Nat)
  | UsdcWithdrawn (recipient : Address) (amount : Nat)
  | RelayerUpdated (oldRelayer newRelayer : Address)
  | MegapotAddressUpdated (oldMegapot newMegapot : Address)
  | UsdcAddressUpdated (oldUsdc newUsdc : Address)
  | ReferrerAddressUpdated (oldReferrer newReferrer : Address)
  | Paused (account : Address)
  | Unpaused (account : Address)
  | OwnershipTransferred (previousOwner newOwner : Address)
  deriving Repr, DecidableEq

/-- The vault's storage, the events it has logged, and its allowances by token and spender. -/
structure World where
  owner : Address
  paused : Bool := false
  isOrderFulfilled : Bytes32 → Bool := fun _ => false
  vaultInfo : VaultInfo
  logs : List Event := []
  allowance : Address → Address → Nat

def World.setAllowance (w : World) (token spender : Address) (value : Nat) : World :=
  let spenders := Function.update (w.allowance token) spender value
  { w with allowance := Function.update w.allowance token spenders }

def World.emit (w : World) (event : Event) : World := { w with logs := w.logs ++ [event] }

/-! ## Calls -/

structure JackpotTicket where
  normals : List Nat
  bonusball : Nat
  deriving Repr, DecidableEq

/-- The functions that change state. What `buyTickets` only hands on to Megapot is left out. -/
inductive VaultCall where
  | buyTickets (orderId : Bytes32) (tickets : List JackpotTicket) (source : Bytes32)
  | claimWinnings (ticketIds : List Nat)
  | withdrawUsdc (recipient : Address) (amount : Nat)
  | pause
  | unPause
  | setVaultRelayer (newRelayer : Address)
  | setVaultMegapotAddress (newMegapotAddress : Address)
  | setVaultUsdcAddress (newUsdcAddress : Address)
  | setVaultReferrerAddress (referrerAddress : Address)
  | transferOwnership (newOwner : Address)
  | renounceOwnership
  deriving Repr, DecidableEq

/-- The external call that a call of the vault waits for, with the locals it goes on with; `other` is
a call of another contract. -/
inductive Waits where
  | buying (orderId : Bytes32) (ticketCount : Nat) (source : Bytes32)
  | balanceBefore (ticketCount : Nat)
  | claiming (ticketCount balanceBefore : Nat)
  | balanceAfter (ticketCount balanceBefore : Nat)
  | transferring (recipient : Address) (amount : Nat)
  /-- The two approvals of `setVaultMegapotAddress`. -/
  | revokingMegapot (token oldMegapot newMegapot : Address)
  | grantingMegapot (token oldMegapot newMegapot : Address)
  /-- The two approvals of `setVaultUsdcAddress`. -/
  | revokingUsdc (oldUsdc newUsdc currentMegapot : Address)
  | grantingUsdc (oldUsdc newUsdc currentMegapot : Address)
  | other
  deriving Repr, DecidableEq

/-- `balanceOf` is called statically: nothing inside it can change state. -/
def Waits.static : Waits → Bool
  | .balanceBefore _ | .balanceAfter .. => true
  | _ => false

/-- The vault is at `forceApprove`. -/
def Waits.approving : Waits → Bool
  | .revokingMegapot .. | .grantingMegapot .. | .revokingUsdc .. | .grantingUsdc .. => true
  | _ => false

/-! ## The functions -/

/-- A call up to its first external call, or none when it reverts; without an external call it
returns at once. -/
def enter (w : World) (msgSender : Address) : VaultCall → Option (World × Option Waits)
  | .buyTickets orderId tickets source =>
      if w.paused then none
      else if msgSender ≠ w.vaultInfo.relayer then none
      else if w.isOrderFulfilled orderId then none
      else some ({ w with isOrderFulfilled := Function.update w.isOrderFulfilled orderId true },
        some (.buying orderId tickets.length source))
  | .claimWinnings ticketIds =>
      if msgSender ≠ w.vaultInfo.relayer then none
      else if ticketIds.length = 0 then none
      else some (w, some (.balanceBefore ticketIds.length))
  | .withdrawUsdc recipient amount =>
      if msgSender ≠ w.owner then none
      else if recipient = 0 then none
      else some (w, some (.transferring recipient amount))
  | .pause =>
      if msgSender ≠ w.owner then none
      else if w.paused then none
      else some ({ w with paused := true }.emit (.Paused msgSender), none)
  | .unPause =>
      if msgSender ≠ w.owner then none
      else if !w.paused then none
      else some ({ w with paused := false }.emit (.Unpaused msgSender), none)
  | .setVaultRelayer newRelayer =>
      if msgSender ≠ w.owner then none
      else if newRelayer = 0 then none
      else if newRelayer = w.vaultInfo.relayer then none
      else some ({ w with vaultInfo := { w.vaultInfo with relayer := newRelayer } }.emit
        (.RelayerUpdated w.vaultInfo.relayer newRelayer), none)
  | .setVaultMegapotAddress newMegapotAddress =>
      if msgSender ≠ w.owner then none
      else if newMegapotAddress = 0 then none
      else if newMegapotAddress = w.vaultInfo.megapotAddress then none
      else some (w, some (.revokingMegapot w.vaultInfo.usdcAddress w.vaultInfo.megapotAddress
        newMegapotAddress))
  | .setVaultUsdcAddress newUsdcAddress =>
      if msgSender ≠ w.owner then none
      else if newUsdcAddress = 0 then none
      else if newUsdcAddress = w.vaultInfo.usdcAddress then none
      else some (w, some (.revokingUsdc w.vaultInfo.usdcAddress newUsdcAddress
        w.vaultInfo.megapotAddress))
  | .setVaultReferrerAddress referrerAddress =>
      if msgSender ≠ w.vaultInfo.referrerAddress then none
      else if referrerAddress = 0 then none
      else if referrerAddress = w.vaultInfo.referrerAddress then none
      else some ({ w with vaultInfo := { w.vaultInfo with referrerAddress := referrerAddress } }.emit
        (.ReferrerAddressUpdated w.vaultInfo.referrerAddress referrerAddress), none)
  | .transferOwnership newOwner =>
      if msgSender ≠ w.owner then none
      else if newOwner = 0 then none
      else some ({ w with owner := newOwner }.emit (.OwnershipTransferred w.owner newOwner), none)
  | .renounceOwnership =>
      if msgSender ≠ w.owner then none
      else some ({ w with owner := 0 }.emit (.OwnershipTransferred w.owner 0), none)

/-- A call after its external call has returned words, up to the next one, or none when it reverts.
`forceApprove` sets the allowance when it returns. -/
def resume (w : World) (returned : List Nat) : Waits → Option (World × Option Waits)
  | .buying orderId ticketCount source =>
      some (w.emit (.TicketsRouted orderId ticketCount source returned), none)
  | .balanceBefore ticketCount =>
      returned.head?.map fun balance => (w, some (.claiming ticketCount balance))
  | .claiming ticketCount balanceBefore => some (w, some (.balanceAfter ticketCount balanceBefore))
  | .balanceAfter ticketCount balanceBefore => do
      let balance ← returned.head?
      -- The subtraction is checked.
      if balance < balanceBefore then none
      else some (w.emit (.WinningsHarvested ticketCount (balance - balanceBefore)), none)
  | .transferring recipient amount => some (w.emit (.UsdcWithdrawn recipient amount), none)
  | .revokingMegapot token oldMegapot newMegapot =>
      some (w.setAllowance token oldMegapot 0,
        some (.grantingMegapot w.vaultInfo.usdcAddress oldMegapot newMegapot))
  | .grantingMegapot token oldMegapot newMegapot =>
      let w := w.setAllowance token newMegapot MAX_UINT256
      some ({ w with vaultInfo := { w.vaultInfo with megapotAddress := newMegapot } }.emit
        (.MegapotAddressUpdated oldMegapot newMegapot), none)
  | .revokingUsdc oldUsdc newUsdc currentMegapot =>
      some (w.setAllowance oldUsdc currentMegapot 0,
        some (.grantingUsdc oldUsdc newUsdc currentMegapot))
  | .grantingUsdc oldUsdc newUsdc currentMegapot =>
      let w := w.setAllowance newUsdc currentMegapot MAX_UINT256
      some ({ w with vaultInfo := { w.vaultInfo with usdcAddress := newUsdc } }.emit
        (.UsdcAddressUpdated oldUsdc newUsdc), none)
  | .other => some (w, none)

/-- The constructor, or none when it reverts. -/
def constructed (initialOwner relayer megapotAddress usdcAddress referrerAddress : Address) :
    Option World :=
  if initialOwner = 0 ∨ relayer = 0 ∨ megapotAddress = 0 ∨ usdcAddress = 0 ∨ referrerAddress = 0 then none
  else
    let w : World :=
      { owner := initialOwner
        vaultInfo := { relayer := relayer, megapotAddress := megapotAddress
                       usdcAddress := usdcAddress, referrerAddress := referrerAddress }
        logs := [.OwnershipTransferred 0 initialOwner]
        allowance := fun _ _ => 0 }
    some (w.setAllowance usdcAddress megapotAddress MAX_UINT256)

/-! ## Runs -/

structure State where
  world : World
  /-- The open calls, innermost first. -/
  stack : List (Frame World Waits) := []

inductive Action where
  | call (msgSender : Address) (call : VaultCall)
  /-- A call of another contract begins. -/
  | enterOther
  /-- The innermost open call's external call returns; a call of another contract ends. -/
  | ret (returned : List Nat)
  /-- The innermost open call reverts. -/
  | revert
  /-- A token takes from an allowance. -/
  | spend (token spender : Address) (amount : Nat)
  deriving Repr

/-- The calls that are open when the innermost one has gone on to its next wait, or ended. -/
def rest (snapshot : World) (stack : List (Frame World Waits)) : Option Waits → List (Frame World Waits)
  | none => stack
  | some waits => { snapshot := snapshot, waits := waits } :: stack

/-- The innermost open call cannot change state. -/
def static (stack : List (Frame World Waits)) : Bool := stack.head?.any (·.waits.static)

def step (s : State) : Action → Option State
  | .call msgSender call =>
      if static s.stack then some s
      else match enter s.world msgSender call with
        | none => some s
        | some (w, waits) => some { world := w, stack := rest s.world s.stack waits }
  | .enterOther =>
      if static s.stack then some s
      else some { s with stack := { snapshot := s.world, waits := .other } :: s.stack }
  | .ret returned => match s.stack with
      | [] => none
      | frame :: stack => match resume s.world returned frame.waits with
        | none => some { world := frame.snapshot, stack := stack }
        | some (w, waits) => some { world := w, stack := rest frame.snapshot stack waits }
  | .revert => match s.stack with
      | [] => none
      | frame :: stack => some { world := frame.snapshot, stack := stack }
  | .spend token spender amount =>
      let remaining := s.world.allowance token spender - amount
      if static s.stack then none
      else some { s with world := s.world.setAllowance token spender remaining }

/-- A vault that has just been constructed. -/
def Initial (s : State) : Prop :=
  s.stack = [] ∧ ∃ initialOwner relayer megapotAddress usdcAddress referrerAddress,
    constructed initialOwner relayer megapotAddress usdcAddress referrerAddress = some s.world

def machine : Machine State Action := ⟨Initial, step⟩

end LordsPot.Vault
