import LordsPot.Relay.Effect
import LordsPot.Relay.AtMostOnce
import LordsPot.Vault.Replay

/-!
# The relay on the vault

The relay's chain is an abstraction: a transaction succeeds when no other one of its order id has, and
the ids in the events are those of the transactions. Here the service's transactions run on the vault
itself, one at a time, with whatever else calls it before, after and inside them. What the relay sees
is then a run of the relay's own machine, and the vault's flags and events are what that machine takes
them for. What is assumed is that nobody else has the key of the vault's relayer, and that Megapot
gives every ticket an id of its own.
-/

namespace LordsPot

open Transition Rollback

namespace Vault

/-- The order an event routes, with the ids it got. -/
def Event.routing? : Event → Option (Bytes32 × List Nat)
  | .TicketsRouted orderId _ _ ticketIds => some (orderId, ticketIds)
  | _ => none

def routings (logs : List Event) : List (Bytes32 × List Nat) := logs.filterMap Event.routing?

section Functions

variable {w w' : World} {msgSender : Address} {call : VaultCall} {waits : Waits} {next : Option Waits}
  {returned : List Nat}

theorem routings_append (logs logs' : List Event) :
    routings (logs ++ logs') = routings logs ++ routings logs' := List.filterMap_append

theorem routed_eq_map (logs : List Event) : routed logs = (routings logs).map (·.1) := by
  rw [routed, routings, List.map_filterMap]
  congr 1
  funext event
  cases event <;> rfl

/-- A function that logs no order's event logs no routing. -/
theorem Logs.routings (h : Logs w w') (same : routed w'.logs = routed w.logs) :
    routings w'.logs = routings w.logs := by
  cases h with
  | silent config logs => rw [logs]
  | event event lawful config logs =>
    rw [logs, routed, List.filterMap_append, ← routed] at same
    rw [logs, routings_append]
    cases event with
    | TicketsRouted => simp [Event.orderId?] at same
    | _ => exact List.append_nil _

theorem enter_routings (h : enter w msgSender call = some (w', next)) :
    Vault.routings w'.logs = Vault.routings w.logs := by
  refine (enter_logs h).1.routings ?_
  rcases enter_orders h with ⟨_, _, _, -, -, rfl⟩ | same
  · rfl
  · exact same.logs

/-- A call that has no order in flight goes on. -/
theorem resume_routings (idle : waits.orderId? = none)
    (h : resume w returned waits = some (w', next)) :
    Vault.routings w'.logs = Vault.routings w.logs ∧ next.bind Waits.orderId? = none := by
  rcases resume_orders h with ⟨orderId, own, -⟩ | ⟨-, same⟩
  · rw [idle] at own
    cases own
  · refine ⟨?_, same.idle⟩
    cases waits with
    | buying orderId ticketCount source => cases idle
    | balanceBefore ticketCount =>
      obtain ⟨balance, -, h⟩ := Option.map_eq_some_iff.1 h
      cases h
      rfl
    | balanceAfter ticketCount balanceBefore =>
      obtain ⟨balance, -, h⟩ := Option.bind_eq_some_iff.1 h
      split_ifs at h
      cases h
      exact (routings_append ..).trans (List.append_nil _)
    | claiming | revokingMegapot | revokingUsdc | other => cases h; rfl
    | transferring | grantingMegapot | grantingUsdc =>
      cases h
      exact (routings_append ..).trans (List.append_nil _)

/-- An attempt to buy by anybody but the vault's relayer fails. -/
theorem enter_stranger {orderId : Bytes32} {tickets : List JackpotTicket} {source : Bytes32}
    (stranger : msgSender ≠ w.vaultInfo.relayer) :
    enter w msgSender (.buyTickets orderId tickets source) = none := by
  simp only [enter]
  split_ifs <;> rfl

end Functions

/-- Whether the vault's relayer buys. -/
def Action.buys (w : World) : Action → Bool
  | .call msgSender (.buyTickets ..) => msgSender == w.vaultInfo.relayer
  | _ => false

/-- Whether the innermost call goes on or ends. -/
def Action.pops : Action → Bool
  | .ret _ | .revert => true
  | _ => false

/-- Above the calls of `bottom` no order is in flight, and all routings meet `P`, those that a revert
would go back to as well. -/
structure Calm (P : List (Bytes32 × List Nat) → Prop) (bottom : List (Frame World Waits)) (s : State) :
    Prop where
  above : ∃ above, s.stack = above ++ bottom ∧ ∀ frame ∈ above, frame.waits.orderId? = none
  world : P (routings s.world.logs)
  snapshots : ∀ frame ∈ s.stack, P (routings frame.snapshot.logs)

section Steps

variable {P : List (Bytes32 × List Nat) → Prop} {bottom : List (Frame World Waits)} {s s' : State}

/-- A call that is entered without an order, or goes on without one. -/
theorem Calm.rest {w snapshot : World} {above : List (Frame World Waits)} {next : Option Waits}
    (idle : next.bind Waits.orderId? = none) (calm : ∀ frame ∈ above, frame.waits.orderId? = none)
    (world : P (routings w.logs)) (own : P (routings snapshot.logs))
    (snapshots : ∀ frame ∈ above ++ bottom, P (routings frame.snapshot.logs)) :
    Calm P bottom { world := w, stack := Vault.rest snapshot (above ++ bottom) next } := by
  cases next with
  | none => exact ⟨⟨above, rfl, calm⟩, world, snapshots⟩
  | some waits =>
    exact ⟨⟨_ :: above, rfl, List.forall_mem_cons.2 ⟨idle, calm⟩⟩, world,
      List.forall_mem_cons.2 ⟨own, snapshots⟩⟩

/-- A step in which the relayer buys nothing and no call of `bottom` goes on. -/
theorem Calm.step (h : Calm P bottom s) {a : Action} (quiet : a.buys s.world = false)
    (deep : a.pops = true → s.stack = bottom → bottom = []) (hs : Vault.step s a = some s') :
    Calm P bottom s' := by
  obtain ⟨above, stack, calm⟩ := h.above
  have world := h.world
  have snapshots := h.snapshots
  rw [stack] at snapshots
  cases a with
  | call msgSender call =>
    simp only [Vault.step] at hs
    split_ifs at hs
    · cases hs; exact h
    · split at hs
      · cases hs; exact h
      · rename_i w next entered
        cases hs
        rw [stack]
        refine Calm.rest ?_ calm (enter_routings entered ▸ world) world snapshots
        rcases enter_orders entered with ⟨orderId, ticketCount, source, rfl, -⟩ | same
        · -- Only `buyTickets` leaves an order in flight, and that needs the relayer.
          cases call with
          | buyTickets =>
            rw [enter_stranger (by simpa [Action.buys] using quiet)] at entered
            cases entered
          | _ =>
            simp only [enter] at entered
            split_ifs at entered
            all_goals cases entered
        · exact same.idle
  | enterOther =>
    simp only [Vault.step] at hs
    split_ifs at hs
    · cases hs; exact h
    · cases hs
      rw [stack]
      exact ⟨⟨_ :: above, rfl, List.forall_mem_cons.2 ⟨rfl, calm⟩⟩, world,
        List.forall_mem_cons.2 ⟨world, snapshots⟩⟩
  | ret returned =>
    cases above with
    | nil =>
      have empty : s.stack = [] := stack.trans (deep rfl stack)
      simp [Vault.step, empty] at hs
    | cons frame above =>
      obtain ⟨idle, calm⟩ := List.forall_mem_cons.1 calm
      obtain ⟨own, snapshots⟩ := List.forall_mem_cons.1 snapshots
      simp only [Vault.step, stack, List.cons_append] at hs
      split at hs
      · cases hs
        exact ⟨⟨above, rfl, calm⟩, own, snapshots⟩
      · rename_i went
        cases hs
        obtain ⟨same, idle⟩ := resume_routings idle went
        exact Calm.rest idle calm (same ▸ world) own snapshots
  | revert =>
    cases above with
    | nil =>
      have empty : s.stack = [] := stack.trans (deep rfl stack)
      simp [Vault.step, empty] at hs
    | cons frame above =>
      obtain ⟨-, calm⟩ := List.forall_mem_cons.1 calm
      obtain ⟨own, snapshots⟩ := List.forall_mem_cons.1 snapshots
      simp only [Vault.step, stack, List.cons_append] at hs
      cases hs
      exact ⟨⟨above, rfl, calm⟩, own, snapshots⟩
  | spend token spender amount =>
    simp only [Vault.step] at hs
    split_ifs at hs
    cases hs
    exact { h with }

theorem Calm.mono {Q : List (Bytes32 × List Nat) → Prop} (weaker : ∀ logs, P logs → Q logs)
    (h : Calm P bottom s) : Calm Q bottom s :=
  ⟨h.above, weaker _ h.world, fun frame mem => weaker _ (h.snapshots frame mem)⟩

/-- Only the call at the bottom is open. -/
theorem Calm.alone {frame : Frame World Waits} (h : Calm P [frame] s) (last : s.stack.length = 1) :
    s.stack = [frame] := by
  obtain ⟨above, stack, -⟩ := h.above
  rw [stack, List.length_append, List.length_singleton, Nat.add_eq_right,
    List.length_eq_zero_iff] at last
  rw [stack, last, List.nil_append]

/-- A purchase out of no other call is refused, or waits for Megapot with its order not fulfilled. -/
theorem step_buyTickets {msgSender : Address} {orderId : Bytes32} {tickets : List JackpotTicket}
    {source : Bytes32} (committed : s.stack = [])
    (hs : Vault.step s (.call msgSender (.buyTickets orderId tickets source)) = some s') :
    s' = s ∨ ∃ w, routings w.logs = routings s.world.logs ∧
      s' = ⟨w, [⟨s.world, .buying orderId tickets.length source⟩]⟩ := by
  simp only [Vault.step, committed] at hs
  split at hs
  · cases hs
    exact .inl rfl
  · split at hs
    · cases hs
      exact .inl rfl
    · rename_i w next entered
      cases hs
      refine .inr ⟨w, enter_routings entered, ?_⟩
      simp only [enter] at entered
      split_ifs at entered
      cases entered
      rfl

/-- The purchase that has been waiting for Megapot logs its order with the ids. -/
theorem step_bought {frame : Frame World Waits} {orderId : Bytes32} {returned : List Nat}
    (open_ : s.stack = [frame]) (own : frame.waits.orderId? = some orderId)
    (hs : Vault.step s (.ret returned) = some s') :
    s'.stack = [] ∧ routings s'.world.logs = routings s.world.logs ++ [(orderId, returned)] := by
  simp only [Vault.step, open_] at hs
  split at hs
  · rename_i reverted
    cases waits : frame.waits <;> simp [waits, Waits.orderId?, resume] at own reverted
  · rename_i went
    cases hs
    rcases resume_orders went with ⟨other, same, rfl, -, -⟩ | ⟨idle, -⟩
    · refine ⟨rfl, ?_⟩
      cases waits : frame.waits <;> rw [waits] at own went <;> cases own
      cases went
      exact routings_append ..
    · rw [own] at idle
      cases idle

end Steps

end Vault

namespace Relay

/-- The steps of the chain; all others are the service's own. -/
def Action.onChain : Action → Bool
  | .mine .. | .revert _ => true
  | _ => false

/-- The service changes the transactions only by a broadcast. -/
theorem txs_of_step {keccak256 : String → Bytes32} {s s' : State} {a : Action}
    (own : a.onChain = false) (hs : step keccak256 s a = some s') :
    s'.txs = s.txs ∨ ∃ tx, s'.txs = s.txs ++ [tx] ∧ tx.outcome = .pending := by
  cases stepMove hs with
  | job | confirm | reset | requeue | rollover => exact .inl rfl
  | call here move =>
    rcases (procStep_effect move).txs with same | ⟨b, chunk, txHash, -, -, -, sent⟩
    · exact .inl same
    · exact .inr ⟨_, sent, rfl⟩
  | mine | revert => cases own

/-- Some transaction of this order id has been mined with these ids. -/
def MintedAs (txs : List BuyTx) (orderId : Bytes32) (ticketIds : List NftId) : Prop :=
  ∃ tx ∈ txs, tx.orderId = orderId ∧ tx.ticketIds = some ticketIds

section Txs

variable {txs : List BuyTx} {orderId : Bytes32} {ticketIds : List NftId}

theorem isOrderFulfilled_iff :
    isOrderFulfilled txs orderId = true ↔ ∃ ticketIds, MintedAs txs orderId ticketIds := by
  simp only [isOrderFulfilled, List.any_eq_true, Bool.and_eq_true, beq_iff_eq, Option.isSome_iff_exists]
  constructor
  · rintro ⟨tx, htx, same, ids, minted⟩
    exact ⟨ids, tx, htx, same, minted⟩
  · rintro ⟨ids, tx, htx, same, minted⟩
    exact ⟨tx, htx, same, ids, minted⟩

theorem mintedAs_append {tx : BuyTx} (pending : tx.outcome = .pending) :
    MintedAs (txs ++ [tx]) orderId ticketIds ↔ MintedAs txs orderId ticketIds := by
  have unmined : tx.ticketIds = none := by rw [BuyTx.ticketIds, pending]
  simp [MintedAs, or_and_right, exists_or, unmined]

theorem mintedAs_revert (hash : TxHash) :
    MintedAs (Table.updateMany (fun tx => tx.hash == hash && tx.outcome == .pending)
      (fun tx => { tx with outcome := .reverted }) txs) orderId ticketIds ↔
    MintedAs txs orderId ticketIds := by
  constructor
  · rintro ⟨tx', mem, same, minted⟩
    obtain ⟨tx, htx, rfl⟩ := Table.mem_updateMany.1 mem
    split at minted
    · cases minted
    · rename_i other
      rw [if_neg other] at same
      exact ⟨tx, htx, same, minted⟩
  · rintro ⟨tx, htx, same, minted⟩
    refine ⟨tx, Table.mem_updateMany.2 ⟨tx, htx, if_neg fun pending => ?_⟩, same, minted⟩
    rw [Bool.and_eq_true, beq_iff_eq, beq_iff_eq] at pending
    rw [BuyTx.ticketIds, pending.2] at minted
    cases minted

/-- One more order has been mined. -/
theorem mintedAs_mine {tx : BuyTx} {drawing : Nat} {ids : List NftId}
    (txHashes : (txs.map (·.hash)).Nodup) (htx : tx ∈ txs) (pending : tx.outcome = .pending) :
    MintedAs (Table.updateMany (·.hash == tx.hash)
      (fun tx => { tx with outcome := .minted drawing ids }) txs) orderId ticketIds ↔
    MintedAs txs orderId ticketIds ∨ (orderId, ticketIds) = (tx.orderId, ids) := by
  have only : ∀ x ∈ txs, x.hash = tx.hash → x = tx := fun x hx same =>
    List.inj_on_of_nodup_map txHashes hx htx same
  constructor
  · rintro ⟨tx', mem, same, minted⟩
    obtain ⟨x, hx, rfl⟩ := Table.mem_updateMany.1 mem
    split at minted
    · rename_i own
      rw [if_pos own] at same
      cases minted
      rw [← same, only x hx (beq_iff_eq.1 own)]
      exact .inr rfl
    · rename_i other
      rw [if_neg other] at same
      exact .inl ⟨x, hx, same, minted⟩
  · rintro (⟨x, hx, same, minted⟩ | own)
    · refine ⟨x, Table.mem_updateMany.2 ⟨x, hx, if_neg fun own => ?_⟩, same, minted⟩
      rw [only x hx (beq_iff_eq.1 own), BuyTx.ticketIds, pending] at minted
      cases minted
    · cases own
      exact ⟨_, Table.mem_updateMany.2 ⟨tx, htx, if_pos (beq_self_eq_true _)⟩, rfl, rfl⟩

end Txs

end Relay

/-! ## The service's transactions on the vault -/

namespace OnBase

/-- The service and the vault, and the transaction of the service that is executing. -/
structure State where
  relay : Relay.State
  vault : Vault.State
  executing : Option Relay.BuyTx := none

inductive Action where
  | relay (action : Relay.Action)
  | vault (action : Vault.Action)
  /-- A transaction of the service begins, sent from its wallet. -/
  | execute (msgSender : Vault.Address) (hash : TxHash)
  /-- Megapot's `buyTickets` returns to it. -/
  | bought (ticketIds : List NftId)
  /-- It reverts inside Megapot's `buyTickets`. -/
  | abort
  /-- A transaction of the service reverts before the vault is entered. -/
  | discard (hash : TxHash)
  deriving Repr

/-- A ticket as Megapot takes it. -/
def toJackpotTicket (t : Relay.ChunkTicket) : Vault.JackpotTicket := ⟨t.normalBalls, t.bonusBall⟩

/-- Megapot mints one NFT for each ticket, with ids of their own. -/
def issued (txs : List Relay.BuyTx) (tx : Relay.BuyTx) (ticketIds : List NftId) : Bool :=
  decide ticketIds.Nodup &&
    (txs.all fun tx => tx.ticketIds.all fun old => ticketIds.all fun n => !old.contains n) &&
    tx.tickets.length == ticketIds.length

/-- What is left to the steps of the service's transactions: that the relayer buys, and that the call
of the transaction that is executing goes on. -/
def State.reserved (s : State) (action : Vault.Action) : Bool :=
  action.buys s.vault.world ||
    s.executing.isSome && action.pops && s.vault.stack.length == 1

section Machine

variable (keccak256 : String → Bytes32) (source : Bytes32)

def step (s : State) : Action → Option State
  | .relay action =>
      if action.onChain then none
      else (Relay.step keccak256 s.relay action).map fun relay => { s with relay := relay }
  | .vault action =>
      if s.reserved action then none
      else (Vault.step s.vault action).map fun vault => { s with vault := vault }
  | .execute msgSender hash => do
      let tx ← s.relay.txs.find? fun tx => tx.hash == hash && tx.outcome == .pending
      if s.vault.stack.isEmpty then
        let tickets := tx.tickets.map toJackpotTicket
        let vault ← Vault.step s.vault (.call msgSender (.buyTickets tx.orderId tickets source))
        if vault.stack.isEmpty then
          let relay ← Relay.step keccak256 s.relay (.revert hash)
          pure { s with relay := relay, vault := vault }
        else pure { s with vault := vault, executing := some tx }
      else none
  | .bought ticketIds => do
      let tx ← s.executing
      if s.vault.stack.length = 1 ∧ issued s.relay.txs tx ticketIds then
        let vault ← Vault.step s.vault (.ret ticketIds)
        let txs := Table.updateMany (·.hash == tx.hash)
          (fun tx => { tx with outcome := .minted s.relay.drawing ticketIds }) s.relay.txs
        pure { relay := { s.relay with txs := txs }, vault := vault }
      else none
  | .abort => do
      let tx ← s.executing
      if s.vault.stack.length = 1 then
        let vault ← Vault.step s.vault .revert
        let relay ← Relay.step keccak256 s.relay (.revert tx.hash)
        pure { relay := relay, vault := vault }
      else none
  | .discard hash =>
      if s.executing.isSome then none
      else (Relay.step keccak256 s.relay (.revert hash)).map fun relay => { s with relay := relay }

/-- A vault that has just been deployed, and nothing mined yet. -/
def Initial (s : State) : Prop :=
  Relay.Initial keccak256 s.relay ∧ Vault.Initial s.vault ∧ s.executing = none

def machine : Machine State Action := ⟨Initial keccak256, step keccak256 source⟩

end Machine

/-! ## Every run -/

/-- The routings of a log are the orders that have been mined. -/
def Shows (txs : List Relay.BuyTx) (routings : List (Bytes32 × List Nat)) : Prop :=
  ∀ orderId ticketIds, (orderId, ticketIds) ∈ routings ↔ Relay.MintedAs txs orderId ticketIds

/-- The call at the bottom of the stack that belongs to the transaction that is executing. -/
inductive Bottom (txs : List Relay.BuyTx) :
    Option Relay.BuyTx → List (Frame Vault.World Vault.Waits) → Prop where
  | idle : Bottom txs none []
  | buying {tx : Relay.BuyTx} {frame : Frame Vault.World Vault.Waits} (mem : tx ∈ txs)
      (pending : tx.outcome = .pending) (own : frame.waits.orderId? = some tx.orderId) :
      Bottom txs (some tx) [frame]

/-- More transactions are broadcast. -/
theorem Bottom.mono {txs txs' : List Relay.BuyTx} {executing : Option Relay.BuyTx}
    {bottom : List (Frame Vault.World Vault.Waits)} (more : ∀ tx ∈ txs, tx ∈ txs')
    (h : Bottom txs executing bottom) : Bottom txs' executing bottom := by
  cases h with
  | idle => exact .idle
  | buying mem pending own => exact .buying (more _ mem) pending own

theorem Bottom.eq_nil {txs : List Relay.BuyTx} {executing : Option Relay.BuyTx}
    {bottom : List (Frame Vault.World Vault.Waits)} (h : Bottom txs executing bottom) :
    bottom = [] ∧ executing = none ∨ bottom.length = 1 ∧ executing.isSome := by
  cases h with
  | idle => exact .inl ⟨rfl, rfl⟩
  | buying => exact .inr ⟨rfl, rfl⟩

structure Agree (keccak256 : String → Bytes32) (s : State) : Prop where
  relay : (Relay.machine keccak256).Reachable s.relay
  vault : Vault.machine.Reachable s.vault
  agree : ∃ bottom, Bottom s.relay.txs s.executing bottom ∧
    Vault.Calm (Shows s.relay.txs) bottom s.vault

section

variable {keccak256 : String → Bytes32} {source : Bytes32} {s s' : State}

theorem agree_initial (h : Initial keccak256 s) : Agree keccak256 s := by
  obtain ⟨relay, vault, idle⟩ := h
  refine ⟨.start relay, .start vault, [], ?_, ⟨[], ?_, by simp⟩, ?_, ?_⟩
  · rw [idle]
    exact .idle
  · exact vault.1
  · intro orderId ticketIds
    have nothing : Vault.routings s.vault.world.logs = [] := by
      obtain ⟨-, _, _, _, _, _, built⟩ := vault
      unfold Vault.constructed at built
      split_ifs at built
      rw [← Option.some.inj built]
      rfl
    rw [nothing]
    refine iff_of_false List.not_mem_nil ?_
    rintro ⟨tx, htx, -, minted⟩
    rw [Relay.BuyTx.ticketIds, (relay.single tx htx).2.1] at minted
    cases minted
  · rw [vault.1]
    exact List.forall_mem_nil _

theorem shows_append {txs : List Relay.BuyTx} {tx : Relay.BuyTx} (pending : tx.outcome = .pending)
    (logs : List (Bytes32 × List Nat)) (h : Shows txs logs) : Shows (txs ++ [tx]) logs :=
  fun orderId ticketIds => (h orderId ticketIds).trans (Relay.mintedAs_append pending).symm

/-- A transaction of the service reverts while nothing of it is open. -/
theorem Agree.revert {vault : Vault.State} {hash : TxHash}
    (relay : (Relay.machine keccak256).Reachable s.relay) (reached : Vault.machine.Reachable vault)
    (calm : Vault.Calm (Shows s.relay.txs) [] vault) {relay' : Relay.State}
    (reverted : Relay.step keccak256 s.relay (.revert hash) = some relay') :
    Agree keccak256 { relay := relay', vault := vault } := by
  have next : (Relay.machine keccak256).Reachable relay' := relay.next (a := .revert hash) trivial reverted
  refine ⟨next, reached, [], .idle, calm.mono fun logs shows => ?_⟩
  cases reverted
  exact fun orderId ticketIds => (shows orderId ticketIds).trans (Relay.mintedAs_revert hash).symm

/-- The order of the transaction that is executing has not been mined: its flag was free. -/
theorem unfulfilled {txs : List Relay.BuyTx} {tx : Relay.BuyTx} {v : Vault.State}
    {frame : Frame Vault.World Vault.Waits} (reached : Vault.machine.Reachable v)
    (shows : Shows txs (Vault.routings v.world.logs)) (open_ : v.stack = [frame])
    (own : frame.waits.orderId? = some tx.orderId) : Relay.isOrderFulfilled txs tx.orderId = false := by
  have sound := Vault.idempotent_reachable reached
  rw [open_] at sound
  have once := sound.now.once
  rw [waiting, List.map_singleton, Vault.inFlight_cons, own] at once
  refine Bool.eq_false_iff.2 fun fulfilled => ?_
  obtain ⟨ticketIds, minted⟩ := Relay.isOrderFulfilled_iff.1 fulfilled
  have routed : tx.orderId ∈ Vault.routed v.world.logs := by
    rw [Vault.routed_eq_map]
    exact List.mem_map.2 ⟨_, (shows _ _).2 minted, rfl⟩
  exact List.disjoint_of_nodup_append once routed (List.mem_append_left _ (List.mem_singleton_self _))

theorem txHashes_nodup {relay : Relay.State} (h : (Relay.machine keccak256).Reachable relay) :
    (relay.txs.map (·.hash)).Nodup := by
  refine h.invariant (I := fun s => (s.txs.map (·.hash)).Nodup)
    (fun s (h0 : Relay.Initial keccak256 s) => h0.txHashes) fun s a s' ih _ hs => ?_
  cases Relay.stepMove hs with
  | job | confirm | reset | requeue | rollover => exact ih
  | call here move =>
    rcases (Relay.procStep_effect move).txs with same | ⟨b, chunk, txHash, -, -, fresh, sent⟩
    · exact same ▸ ih
    · rw [sent]
      refine Table.nodup_insert ih fun mem => ?_
      obtain ⟨tx, htx, same⟩ := List.mem_map.1 mem
      exact fresh tx htx same
  | mine | revert => exact Relay.txHashes_updateMany (fun _ => rfl) ih

/-- What the vault has let through is what the relay's chain lets through. -/
theorem mine_of_bought (keccak256 : String → Bytes32) {relay : Relay.State} {tx : Relay.BuyTx} {ticketIds : List NftId}
    (mem : tx ∈ relay.txs) (pending : tx.outcome = .pending)
    (free : Relay.isOrderFulfilled relay.txs tx.orderId = false)
    (ids : issued relay.txs tx ticketIds = true) :
    Relay.step keccak256 relay (.mine tx.hash ticketIds) = some { relay with
      txs := Table.updateMany (·.hash == tx.hash)
        (fun tx => { tx with outcome := .minted relay.drawing ticketIds }) relay.txs } := by
  simp only [issued, Bool.and_eq_true] at ids
  refine if_pos ?_
  rw [Relay.canMine, Bool.and_eq_true, Bool.and_eq_true]
  refine ⟨ids.1, List.any_eq_true.2 ⟨tx, mem, ?_⟩⟩
  simp [pending, free, beq_iff_eq.1 ids.2]

theorem agree_step (h : Agree keccak256 s) {a : Action} (hs : step keccak256 source s a = some s') :
    Agree keccak256 s' := by
  obtain ⟨bottom, kind, calm⟩ := h.agree
  cases a with
  | relay action =>
    simp only [step] at hs
    split at hs
    · cases hs
    · rename_i own
      obtain ⟨relay, stepped, rfl⟩ := Option.map_eq_some_iff.1 hs
      have next : (Relay.machine keccak256).Reachable relay := h.relay.next trivial stepped
      refine ⟨next, h.vault, bottom, ?_⟩
      rcases Relay.txs_of_step (Bool.eq_false_iff.2 own) stepped with same | ⟨tx, sent, pending⟩
      · rw [same]
        exact ⟨kind, calm⟩
      · rw [sent]
        exact ⟨kind.mono fun _ mem => List.mem_append_left _ mem, calm.mono (shows_append pending)⟩
  | vault action =>
    simp only [step] at hs
    split at hs
    · cases hs
    · rename_i free
      obtain ⟨vault, stepped, rfl⟩ := Option.map_eq_some_iff.1 hs
      have next : Vault.machine.Reachable vault := h.vault.next trivial stepped
      simp only [State.reserved, Bool.or_eq_true, not_or, Bool.not_eq_true] at free
      refine ⟨h.relay, next, bottom, kind, calm.step free.1 (fun pops top => ?_) stepped⟩
      rcases kind.eq_nil with ⟨empty, -⟩ | ⟨one, executing⟩
      · exact empty
      · simp [pops, top, one, executing] at free
  | execute msgSender hash =>
    obtain ⟨tx, found, hs⟩ := Option.bind_eq_some_iff.1 hs
    have pending := List.find?_some found
    rw [Bool.and_eq_true, beq_iff_eq, beq_iff_eq] at pending
    split at hs
    · rename_i committed
      rw [List.isEmpty_iff] at committed
      obtain ⟨vault, stepped, hs⟩ := Option.bind_eq_some_iff.1 hs
      have next : Vault.machine.Reachable vault :=
        h.vault.next (a := .call msgSender (.buyTickets _ _ source)) trivial stepped
      obtain ⟨above, stack, -⟩ := calm.above
      rw [committed] at stack
      obtain ⟨-, rfl⟩ := List.append_eq_nil_iff.1 stack.symm
      rcases Vault.step_buyTickets committed stepped with rfl | ⟨w, same, rfl⟩
      · -- The vault refuses: the order's flag is set, or the vault is paused, or has another relayer.
        rw [if_pos (by rw [committed]; rfl)] at hs
        obtain ⟨relay, reverted, hs⟩ := Option.bind_eq_some_iff.1 hs
        cases hs
        rcases kind.eq_nil with ⟨-, idle⟩ | ⟨one, -⟩
        · rw [idle]
          exact Agree.revert h.relay next calm reverted
        · cases one
      · cases hs
        refine ⟨h.relay, next, _, .buying (List.mem_of_find?_eq_some found) pending.2 rfl, ⟨[], rfl, by simp⟩,
          ?_, ?_⟩
        · rw [same]
          exact calm.world
        · intro frame mem
          cases List.mem_singleton.1 mem
          exact calm.world
    · cases hs
  | bought ticketIds =>
    obtain ⟨tx, executing, hs⟩ := Option.bind_eq_some_iff.1 hs
    rw [executing] at kind
    cases kind with
    | buying mem pending own =>
      split at hs
      · rename_i last
        obtain ⟨vault, stepped, hs⟩ := Option.bind_eq_some_iff.1 hs
        cases hs
        have open_ := calm.alone last.1
        obtain ⟨closed, logged⟩ := Vault.step_bought open_ own stepped
        have mined := mine_of_bought keccak256 mem pending (unfulfilled h.vault calm.world open_ own) last.2
        refine ⟨h.relay.next (a := .mine tx.hash ticketIds) trivial mined,
          h.vault.next (a := .ret ticketIds) trivial stepped, [], .idle,
          ⟨[], closed, by simp⟩, fun orderId ids => ?_, ?_⟩
        · rw [logged, List.mem_append, List.mem_singleton, calm.world,
            Relay.mintedAs_mine (txHashes_nodup h.relay) mem pending]
        · rw [closed]
          exact List.forall_mem_nil _
      · cases hs
  | abort =>
    obtain ⟨tx, executing, hs⟩ := Option.bind_eq_some_iff.1 hs
    rw [executing] at kind
    cases kind with
    | buying mem pending own =>
      split at hs
      · rename_i last
        obtain ⟨vault, stepped, hs⟩ := Option.bind_eq_some_iff.1 hs
        obtain ⟨relay, reverted, hs⟩ := Option.bind_eq_some_iff.1 hs
        cases hs
        have open_ := calm.alone last
        have snapshots := calm.snapshots
        have next : Vault.machine.Reachable vault := h.vault.next (a := .revert) trivial stepped
        simp only [open_, List.forall_mem_singleton] at snapshots
        simp only [Vault.step, open_, Option.some.injEq] at stepped
        subst stepped
        exact Agree.revert h.relay next ⟨⟨[], rfl, by simp⟩, snapshots, List.forall_mem_nil _⟩ reverted
      · cases hs
  | discard hash =>
    simp only [step] at hs
    split at hs
    · cases hs
    · rename_i idle
      obtain ⟨relay, reverted, rfl⟩ := Option.map_eq_some_iff.1 hs
      rcases kind.eq_nil with ⟨rfl, none?⟩ | ⟨-, executing⟩
      · have kept := Agree.revert h.relay h.vault calm reverted
        rwa [← none?] at kept
      · exact absurd executing idle

/-- **The vault is the relay's chain**: whatever else calls the vault, and however its calls nest and
revert, what the relay does and sees is a run of its own machine; and between transactions the vault
has flagged an order, and logged it with these ids, just when a transaction of the relay was mined for
it with these ids. -/
theorem relay_on_vault (h : (machine keccak256 source).Reachable s) :
    (Relay.machine keccak256).Reachable s.relay ∧ (s.vault.stack = [] → ∀ orderId,
      s.vault.world.isOrderFulfilled orderId = Relay.isOrderFulfilled s.relay.txs orderId ∧
      ∀ ticketIds, (orderId, ticketIds) ∈ Vault.routings s.vault.world.logs ↔
        ∃ tx ∈ s.relay.txs, tx.orderId = orderId ∧ tx.ticketIds = some ticketIds) := by
  have kept : Agree keccak256 s := by
    refine h.invariant (I := Agree keccak256) (fun _ => agree_initial) fun t a t' ih _ hs => ?_
    exact agree_step ih hs
  obtain ⟨bottom, -, calm⟩ := kept.agree
  refine ⟨kept.relay, fun committed orderId => ⟨?_, calm.world orderId⟩⟩
  have sound := Vault.idempotent_reachable kept.vault
  rw [committed] at sound
  have flag : s.vault.world.isOrderFulfilled orderId = true ↔
      orderId ∈ Vault.routed s.vault.world.logs := by
    simpa [waiting, Vault.inFlight] using sound.now.flag orderId
  rw [Bool.eq_iff_iff, flag, Vault.routed_eq_map, Relay.isOrderFulfilled_iff, List.mem_map]
  constructor
  · rintro ⟨⟨_, ticketIds⟩, mem, rfl⟩
    exact ⟨ticketIds, (calm.world _ _).1 mem⟩
  · rintro ⟨ticketIds, minted⟩
    exact ⟨_, (calm.world _ _).2 minted, rfl⟩

end

/-- Wallet 9 is the vault's relayer, and two tickets wait for it. -/
def deployed : State where
  relay := Relay.queued (Relay.alike ["1-", "2-"])
  vault := { world := Vault.selfRelayed }

/-- The first job is cut off after its broadcast, so the second one broadcasts the chunk again. While
the first transaction waits for Megapot, a stranger tries to buy and the owner pauses the vault for a
moment; the second one has the same order id, and the vault refuses it. -/
def contended : List Action :=
  (Relay.relayTwice (Relay.alike ["1-", "2-"]) (Relay.alike ["2-", "1-"])).map .relay ++
    [.execute 9 "0x1", .vault (.call 4 (.buyTickets "o" [] "s")), .vault (.call 1 .pause),
      .vault (.call 1 .unPause), .bought [1, 2], .execute 9 "0x2"]

theorem relay_on_vault_contended : ∃ s : State, s.vault.stack = [] ∧
    s.relay.txs.map (·.outcome) = [.minted 1 [1, 2], .reverted] ∧
    (Relay.machine id).Reachable s.relay ∧ (s.vault.stack = [] → ∀ orderId,
      s.vault.world.isOrderFulfilled orderId = Relay.isOrderFulfilled s.relay.txs orderId ∧
      ∀ ticketIds, (orderId, ticketIds) ∈ Vault.routings s.vault.world.logs ↔
        ∃ tx ∈ s.relay.txs, tx.orderId = orderId ∧ tx.ticketIds = some ticketIds) := by
  obtain ⟨s, reached, checked⟩ := Machine.exists_reachable_of_run (M := machine id "s")
    (s := deployed)
    ⟨Relay.initial_queued _ (by decide) (by decide +kernel), Vault.initial_selfRelayed, rfl⟩ contended
    (fun s => s.vault.stack.isEmpty &&
      s.relay.txs.map (·.outcome) == [.minted 1 [1, 2], .reverted]) (by decide +kernel)
  rw [Bool.and_eq_true, List.isEmpty_iff, beq_iff_eq] at checked
  exact ⟨s, checked.1, checked.2, relay_on_vault reached⟩

end OnBase

end LordsPot
