import LordsPot.Library.EventLog
import LordsPot.Vault.Orders

/-!
# The events tell the configuration

Who owns the vault, who relays, whether it is paused and which contracts it trusts can be read off its
events alone: they replay to its configuration in every state, inside open calls and after reverts as
well. Each event was lawful where it was logged. A reentrant change of Megapot or of USDC can log an
old address that is no longer the current one, and that is all that reentrancy can do to the log.
-/

namespace LordsPot.Vault

open Transition Rollback EventLog

/-! ## Replaying -/

structure Config where
  owner : Address
  paused : Bool
  vaultInfo : VaultInfo
  deriving Repr, DecidableEq

def World.config (w : World) : Config := ⟨w.owner, w.paused, w.vaultInfo⟩

/-- What an event says has changed. -/
def Config.apply (c : Config) : Event → Config
  | .RelayerUpdated _ newRelayer => { c with vaultInfo := { c.vaultInfo with relayer := newRelayer } }
  | .MegapotAddressUpdated _ newMegapot =>
      { c with vaultInfo := { c.vaultInfo with megapotAddress := newMegapot } }
  | .UsdcAddressUpdated _ newUsdc => { c with vaultInfo := { c.vaultInfo with usdcAddress := newUsdc } }
  | .ReferrerAddressUpdated _ newReferrer =>
      { c with vaultInfo := { c.vaultInfo with referrerAddress := newReferrer } }
  | .Paused _ => { c with paused := true }
  | .Unpaused _ => { c with paused := false }
  | .OwnershipTransferred _ newOwner => { c with owner := newOwner }
  | .TicketsRouted .. | .WinningsHarvested .. | .UsdcWithdrawn .. => c

/-- What an event says of the configuration it was logged in. The old address of the two changes that
call out first may be stale. -/
def Lawful (c : Config) : Event → Prop
  | .RelayerUpdated oldRelayer newRelayer =>
      oldRelayer = c.vaultInfo.relayer ∧ newRelayer ≠ 0 ∧ newRelayer ≠ oldRelayer
  | .ReferrerAddressUpdated oldReferrer newReferrer =>
      oldReferrer = c.vaultInfo.referrerAddress ∧ newReferrer ≠ 0 ∧ newReferrer ≠ oldReferrer
  | .MegapotAddressUpdated old new | .UsdcAddressUpdated old new => new ≠ 0 ∧ new ≠ old
  | .Paused account => account = c.owner ∧ c.paused = false
  | .Unpaused account => account = c.owner ∧ c.paused = true
  | .OwnershipTransferred previousOwner _ => previousOwner = c.owner
  | .UsdcWithdrawn recipient _ => recipient ≠ 0
  | .WinningsHarvested ticketCount _ => 0 < ticketCount
  | .TicketsRouted .. => True

/-- No address that the vault calls or obeys is the zero address. -/
structure VaultInfo.Real (info : VaultInfo) : Prop where
  relayer : info.relayer ≠ 0
  megapot : info.megapotAddress ≠ 0
  usdc : info.usdcAddress ≠ 0
  referrer : info.referrerAddress ≠ 0

theorem real_apply {c : Config} {event : Event} (real : c.vaultInfo.Real) (lawful : Lawful c event) :
    (c.apply event).vaultInfo.Real := by
  cases event with
  | RelayerUpdated old new => exact { real with relayer := lawful.2.1 }
  | MegapotAddressUpdated old new => exact { real with megapot := lawful.1 }
  | UsdcAddressUpdated old new => exact { real with usdc := lawful.1 }
  | ReferrerAddressUpdated old new => exact { real with referrer := lawful.2.1 }
  | _ => exact real

/-! ## The functions -/

/-- What a call that waits has checked of the addresses and counts it goes on with. -/
def Checked : Waits → Prop
  | .revokingMegapot _ old new | .grantingMegapot _ old new => new ≠ 0 ∧ new ≠ old
  | .revokingUsdc old new _ | .grantingUsdc old new _ => new ≠ 0 ∧ new ≠ old
  | .balanceBefore ticketCount | .claiming ticketCount _ | .balanceAfter ticketCount _ => 0 < ticketCount
  | .transferring recipient _ => recipient ≠ 0
  | .buying .. | .other => True

/-- A function leaves configuration and log alone, or logs a lawful event and does what it says. -/
inductive Logs (w w' : World) : Prop where
  | silent (config : w'.config = w.config) (logs : w'.logs = w.logs)
  | event (event : Event) (lawful : Lawful w.config event) (config : w'.config = w.config.apply event)
      (logs : w'.logs = w.logs ++ [event])

section

variable {w w' : World} {msgSender : Address} {call : VaultCall} {waits : Waits} {next : Option Waits}
  {returned : List Nat}

theorem Logs.sourced {start : Config} (h : Logs w w')
    (was : Sourced Config.apply Lawful start w.config w.logs) :
    Sourced Config.apply Lawful start w'.config w'.logs := by
  cases h with
  | silent config logs => rwa [config, logs]
  | event event lawful config logs =>
    rw [config, logs]
    exact was.emit lawful

theorem enter_logs (h : enter w msgSender call = some (w', next)) :
    Logs w w' ∧ ∀ waits, next = some waits → Checked waits := by
  cases call with
  | buyTickets orderId tickets source =>
    simp only [enter] at h
    split_ifs at h
    cases h
    exact ⟨.silent rfl rfl, fun _ same => by cases same; trivial⟩
  | claimWinnings ticketIds =>
    simp only [enter] at h
    split_ifs at h with _ some
    cases h
    exact ⟨.silent rfl rfl, fun _ same => by cases same; exact Nat.pos_of_ne_zero some⟩
  | withdrawUsdc recipient amount =>
    simp only [enter] at h
    split_ifs at h with _ real
    cases h
    exact ⟨.silent rfl rfl, fun _ same => by cases same; exact real⟩
  | pause =>
    simp only [enter] at h
    split_ifs at h with owner open?
    cases h
    exact ⟨.event (.Paused msgSender) ⟨not_not.1 owner, Bool.eq_false_iff.2 open?⟩ rfl rfl,
      fun _ same => by cases same⟩
  | unPause =>
    simp only [enter] at h
    split_ifs at h with owner open?
    cases h
    have paused : w.paused = true := by simpa using open?
    exact ⟨.event (.Unpaused msgSender) ⟨not_not.1 owner, paused⟩ rfl rfl, fun _ same => by cases same⟩
  | setVaultRelayer newRelayer =>
    simp only [enter] at h
    split_ifs at h with _ real differs
    cases h
    exact ⟨.event (.RelayerUpdated w.vaultInfo.relayer newRelayer) ⟨rfl, real, differs⟩ rfl rfl,
      fun _ same => by cases same⟩
  | setVaultMegapotAddress newMegapotAddress =>
    simp only [enter] at h
    split_ifs at h with _ real differs
    cases h
    exact ⟨.silent rfl rfl, fun _ same => by cases same; exact ⟨real, differs⟩⟩
  | setVaultUsdcAddress newUsdcAddress =>
    simp only [enter] at h
    split_ifs at h with _ real differs
    cases h
    exact ⟨.silent rfl rfl, fun _ same => by cases same; exact ⟨real, differs⟩⟩
  | setVaultReferrerAddress referrerAddress =>
    simp only [enter] at h
    split_ifs at h with _ real differs
    cases h
    exact ⟨.event (.ReferrerAddressUpdated w.vaultInfo.referrerAddress referrerAddress)
      ⟨rfl, real, differs⟩ rfl rfl, fun _ same => by cases same⟩
  | transferOwnership newOwner =>
    simp only [enter] at h
    split_ifs at h
    cases h
    exact ⟨.event (.OwnershipTransferred w.owner newOwner) rfl rfl rfl, fun _ same => by cases same⟩
  | renounceOwnership =>
    simp only [enter] at h
    split_ifs at h
    cases h
    exact ⟨.event (.OwnershipTransferred w.owner 0) rfl rfl rfl, fun _ same => by cases same⟩

theorem resume_logs (checked : Checked waits) (h : resume w returned waits = some (w', next)) :
    Logs w w' ∧ ∀ waits', next = some waits' → Checked waits' := by
  cases waits with
  | buying orderId ticketCount source =>
    cases h
    exact ⟨.event (.TicketsRouted orderId ticketCount source returned) trivial rfl rfl,
      fun _ same => by cases same⟩
  | balanceBefore ticketCount =>
    obtain ⟨balance, -, h⟩ := Option.map_eq_some_iff.1 h
    cases h
    exact ⟨.silent rfl rfl, fun _ same => by cases same; exact checked⟩
  | claiming ticketCount balanceBefore =>
    cases h
    exact ⟨.silent rfl rfl, fun _ same => by cases same; exact checked⟩
  | balanceAfter ticketCount balanceBefore =>
    obtain ⟨balance, -, h⟩ := Option.bind_eq_some_iff.1 h
    split_ifs at h
    cases h
    exact ⟨.event (.WinningsHarvested ticketCount (balance - balanceBefore)) checked rfl rfl,
      fun _ same => by cases same⟩
  | transferring recipient amount =>
    cases h
    exact ⟨.event (.UsdcWithdrawn recipient amount) checked rfl rfl, fun _ same => by cases same⟩
  | revokingMegapot token oldMegapot newMegapot =>
    cases h
    exact ⟨.silent rfl rfl, fun _ same => by cases same; exact checked⟩
  | grantingMegapot token oldMegapot newMegapot =>
    cases h
    exact ⟨.event (.MegapotAddressUpdated oldMegapot newMegapot) checked rfl rfl,
      fun _ same => by cases same⟩
  | revokingUsdc oldUsdc newUsdc currentMegapot =>
    cases h
    exact ⟨.silent rfl rfl, fun _ same => by cases same; exact checked⟩
  | grantingUsdc oldUsdc newUsdc currentMegapot =>
    cases h
    exact ⟨.event (.UsdcAddressUpdated oldUsdc newUsdc) checked rfl rfl, fun _ same => by cases same⟩
  | other =>
    cases h
    exact ⟨.silent rfl rfl, fun _ same => by cases same⟩

theorem checked_next {below : List Waits} (own : ∀ waits, next = some waits → Checked waits)
    (rest : ∀ waits ∈ below, Checked waits) : ∀ waits ∈ next.toList ++ below, Checked waits := by
  intro waits mem
  rcases List.mem_append.1 mem with new | old
  · exact own waits (Option.mem_toList.1 new)
  · exact rest waits old

end

/-! ## Runs -/

/-- What the constructor was given, before it hands the vault to its owner. -/
def unowned (info : VaultInfo) : Config := ⟨0, false, info⟩

theorem sourced_initial {s : State} (h : machine.init s) : s.stack = [] ∧ s.world.vaultInfo.Real ∧
    Sourced Config.apply Lawful (unowned s.world.vaultInfo) s.world.config s.world.logs := by
  obtain ⟨empty, initialOwner, relayer, megapotAddress, usdcAddress, referrerAddress, built⟩ := h
  unfold constructed at built
  split_ifs at built with zero
  simp only [not_or] at zero
  rw [← Option.some.inj built]
  exact ⟨empty, ⟨zero.2.1, zero.2.2.1, zero.2.2.2.1, zero.2.2.2.2⟩, rfl, rfl, trivial⟩

/-- **The events replay to the configuration**: in every state of every run the vault's configuration
is what its events make of the constructor's, each event was lawful in what those before it make, and
no address in it is zero. -/
theorem config_replayed {s₀ s : State} {as : List Action} (h : machine.init s₀)
    (hr : machine.run s₀ as = some s) :
    Sourced Config.apply Lawful (unowned s₀.world.vaultInfo) s.world.config s.world.logs ∧
      s.world.vaultInfo.Real := by
  obtain ⟨empty, real, sourced⟩ := sourced_initial h
  let I : World → List Waits → Prop := fun w waiting =>
    Sourced Config.apply Lawful (unowned s₀.world.vaultInfo) w.config w.logs ∧
      ∀ waits ∈ waiting, Checked waits
  have start : Sound I (fun _ _ => True) s₀.world s₀.stack := by
    rw [empty]
    exact ⟨sourced, fun _ mem => by cases mem⟩
  have sound : Sound I (fun _ _ => True) s.world s.stack := by
    refine Machine.run_invariant (I := fun s => Sound I (fun _ _ => True) s.world s.stack)
      (fun s a s' ih hs => ?_) start hr
    refine sound_step (fun _ _ => True) ih (fun _ _ _ => trivial) ?_ ?_ ?_ ?_ hs
    · intro w w' below msgSender call next now _ entered
      obtain ⟨logs, checked⟩ := enter_logs entered
      exact ⟨⟨logs.sourced now.1, checked_next checked now.2⟩, fun _ _ => trivial⟩
    · intro w w' below waits returned next now went
      obtain ⟨own, rest⟩ := List.forall_mem_cons.1 now.2
      obtain ⟨logs, checked⟩ := resume_logs own went
      exact ⟨⟨logs.sourced now.1, checked_next checked rest⟩, fun _ _ _ _ => trivial⟩
    · exact fun w below now => ⟨⟨now.1, List.forall_mem_cons.2 ⟨trivial, now.2⟩⟩, trivial⟩
    · exact fun w below token spender amount now => now
  exact ⟨sound.now.1, sound.now.1.invariant (I := fun c => c.vaultInfo.Real) real fun _ _ => real_apply⟩

/-- While the owner, a contract that USDC (8) calls back, moves the vault to one Megapot, it moves it
to another: the outer change lands last and logs an old address that is no longer current. -/
def movedTwice : List Action :=
  [.call 1 (.setVaultMegapotAddress 5), .call 1 (.setVaultMegapotAddress 6), .ret [], .ret [], .ret [],
    .ret []]

theorem config_replayed_twice : ∃ s : State, s.world.logs = [.OwnershipTransferred 0 1,
      .MegapotAddressUpdated 9 6, .MegapotAddressUpdated 9 5] ∧
    Sourced Config.apply Lawful (unowned selfRelayed.vaultInfo) s.world.config s.world.logs ∧
      s.world.vaultInfo.Real := by
  obtain ⟨s, ran, logged⟩ : ∃ s, machine.run { world := selfRelayed } movedTwice = some s ∧
      s.world.logs = [.OwnershipTransferred 0 1, .MegapotAddressUpdated 9 6,
        .MegapotAddressUpdated 9 5] := ⟨_, rfl, rfl⟩
  exact ⟨s, logged, config_replayed initial_selfRelayed ran⟩

end LordsPot.Vault
