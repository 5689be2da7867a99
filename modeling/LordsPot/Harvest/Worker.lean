import Mathlib.Data.List.Sort
import LordsPot.Library.Machine
import LordsPot.Harvest.Batch

/-!
# The harvest worker

`runHarvestTick` as the steps between its awaits, over the database, the quarantine set and
the `claimWinnings` transactions broadcast so far. Every await can fail, every broadcast can
reach the network although its call threw, and a process can die anywhere. Ticks may
overlap: the lock that keeps them apart expires after `LOCK_TTL_SEC`.
-/

namespace LordsPot.Harvest

open Transition

def CHUNK_SIZE : Nat := 50
def PENDING_TIMEOUT_MS : Nat := 2 * 60000
def LOCK_TTL_SEC : Nat := 300
def UNKNOWN_HASH : TxHash := "UNKNOWN-recovered-see-alert"

/-- A ticket as `findHarvestableTickets` selects it; `megapotNftId` is not null there. -/
structure BatchTicket where
  id : Uuid
  megapotNftId : NftId
  winAmount : Nat
  deriving Repr, DecidableEq

/-- A `vault.claimWinnings` transaction, for the batch row it was broadcast for. `mined` is
the receipt's status once there is one. Megapot's claim loop is all-or-nothing. -/
structure ClaimTx where
  hash : TxHash
  batchId : Uuid
  nftIds : List NftId
  mined : Option Bool := none
  deriving Repr, DecidableEq

/-! ## The rehearsal -/

/-- `bisectClaimable`, where `rejects` are the id lists on which `estimateClaimGas` throws.
The recursion halves the list, so its length bounds the depth. -/
def bisect (rejects : List (List NftId)) : Nat → List BatchTicket → List BatchTicket × List BatchTicket
  | 0, tickets => ([], tickets)
  | fuel + 1, tickets =>
    if tickets.isEmpty then ([], [])
    else if !rejects.contains (tickets.map (·.megapotNftId)) then (tickets, [])
    else if tickets.length = 1 then ([], tickets)
    else
      let mid := (tickets.length + 1) / 2
      let left := bisect rejects fuel (tickets.take mid)
      let right := bisect rejects fuel (tickets.drop mid)
      (left.1 ++ right.1, left.2 ++ right.2)

/-- The pair of the claimable and the unclaimable tickets. -/
def bisectClaimable (rejects : List (List NftId)) (tickets : List BatchTicket) :
    List BatchTicket × List BatchTicket :=
  bisect rejects tickets.length tickets

/-! ## The reads -/

/-- Epochs that owe harvest work, in order. -/
def owingEpochs (db : Db) : List Nat :=
  ((db.megapotEpochs.filter fun e => e.ticketsSettledAt.isSome && e.ticketsHarvestedAt == none).map
    (·.megapotId)).insertionSort (· ≤ ·)

/-- The tickets that are still owed, whether or not they have an NFT id. -/
def owed (db : Db) (megapotId : Nat) (t : Ticket) : Bool :=
  harvestable t && t.harvestBatchId == none && db.ofEpoch megapotId t

/-- The selected columns of an owed ticket with an NFT id. -/
def select (t : Ticket) : Option BatchTicket :=
  t.megapotNftId.map fun n => { id := t.id, megapotNftId := n, winAmount := t.winAmount }

/-- `findHarvestableTickets` when the database returns the rows `ids`, in this order. -/
def findHarvestableTickets (db : Db) (megapotId : Nat) (quarantined ids : List Uuid) :
    Option (List BatchTicket) :=
  let rows := db.tickets.filter fun t => owed db megapotId t && t.megapotNftId.isSome
  if decide ids.Nodup && ids.all (fun i => rows.any (·.id == i)) &&
      ids.length == min rows.length (CHUNK_SIZE * 2) then
    some ((ids.filterMap fun i => (Table.findUnique Ticket.id i rows).bind select).filter
      fun t => !quarantined.contains t.id)
  else none

/-- The NFT ids of a batch's tickets; none when one is missing and `BigInt` throws. -/
def boundNftIds (db : Db) (batchId : Uuid) : Option (List NftId) :=
  (db.tickets.filter (·.harvestBatchId == some batchId)).mapM (·.megapotNftId)

/-! ## The tick -/

/-- Where a tick stands. `epochs` is what the loop has still to do, and `recovery` whether
the step is inside the recovery's `try`. -/
inductive Tick where
  | next (epochs : List Nat)
  | lost (batchId : Uuid) (epochs : List Nat)
  | rehearsing (batchId : Uuid) (nftIds : List NftId) (epochs : List Nat)
  | catching (batchId : Uuid) (epochs : List Nat)
  | receipt (batchId : Uuid) (txHash : TxHash) (ageMs : Nat) (epochs : List Nat)
  | mempool (batchId : Uuid) (epochs : List Nat)
  | landed (batchId : Uuid) (txHash : TxHash) (epochs : List Nat)
  | releasing (batchId : Uuid) (reason : String) (epochs : List Nat)
  | building (megapotId : Nat) (epochs : List Nat)
  | checkingOwed (megapotId : Nat) (epochs : List Nat)
  | watermark (megapotId : Nat) (epochs : List Nat)
  | found (megapotId : Nat) (tickets : List BatchTicket) (epochs : List Nat)
  | quarantining (megapotId : Nat) (good bad : List BatchTicket) (epochs : List Nat)
  | creating (megapotId : Nat) (good : List BatchTicket) (epochs : List Nat)
  | created (batchId : Uuid) (good : List BatchTicket) (epochs : List Nat)
  | deleting (batchId : Uuid) (epochs : List Nat)
  | submitting (recovery : Bool) (batchId : Uuid) (nftIds : List NftId) (epochs : List Nat)
  | recording (recovery : Bool) (batchId : Uuid) (txHash : TxHash) (epochs : List Nat)
  | ended
  deriving Repr, DecidableEq

structure State where
  now : Nat
  db : Db
  quarantined : List Uuid := []
  txs : List ClaimTx := []
  ticks : List Tick := []
  deriving Repr

/-- The awaited call a tick returns from, with the environment's part of it. -/
inductive TickAct where
  /-- `harvestBatch.findFirst`. -/
  | findInFlight (batch : Option Uuid)
  | readBound
  | estimate
  /-- The transaction is broadcast; the call may throw all the same. -/
  | submit (hash : TxHash) (throws : Bool)
  | record
  | getReceipt (status : Option Bool)
  | getTransaction (seen : Bool)
  | finalize
  | release
  | find (ids : List Uuid)
  | checkOwed
  | setWatermark
  | rehearse (rejects : List (List NftId))
  | quarantine
  | create (id : Uuid)
  | bind
  | delete
  /-- The awaited call throws, for whatever reason. -/
  | throw
  | crash
  deriving Repr, DecidableEq

inductive Action where
  | start
  | tick (i : Nat) (act : TickAct)
  | mine (hash : TxHash) (success : Bool)
  | clock (ms : Nat)
  /-- Settlement grades a drawn ticket and marks an epoch settled. -/
  | grade (ticketId : Uuid) (winStatus : WinStatus) (winAmount : Nat)
  | settled (megapotId : Nat)
  /-- An operator takes a ticket out of the quarantine set. -/
  | unquarantine (ticketId : Uuid)
  deriving Repr, DecidableEq

/-- The batch a tick has in hand. -/
def Tick.batchId? : Tick → Option Uuid
  | .lost b _ | .rehearsing b _ _ | .catching b _ | .receipt b _ _ _ | .mempool b _
  | .landed b _ _ | .releasing b _ _ | .created b _ _ | .deleting b _ | .submitting _ b _ _
  | .recording _ b _ _ => some b
  | .next _ | .building .. | .checkingOwed .. | .watermark .. | .found .. | .quarantining ..
  | .creating .. | .ended => none

/-- A uuid nobody has seen. -/
def freshBatch (s : State) (id : Uuid) : Bool :=
  s.db.harvestBatches.all (·.id != id) && s.db.tickets.all (·.harvestBatchId != some id) &&
    s.txs.all (·.batchId != id) && s.ticks.all (·.batchId? != some id)

/-- Where a tick goes when an await throws: into the recovery's `catch`, or to its end. -/
def Tick.thrown : Tick → Tick
  | .rehearsing b _ epochs | .submitting true b _ epochs | .recording true b _ epochs =>
      .catching b epochs
  | _ => .ended

def tickStep (s : State) : Tick → TickAct → Option (State × Tick)
  | .next (e :: epochs), .findInFlight none =>
      if s.db.harvestBatches.all fun b => b.megapotId != e || b.status != .SUBMITTED then
        some (s, .building e epochs)
      else none
  | .next (e :: epochs), .findInFlight (some id) =>
      match Table.findUnique HarvestBatch.id id s.db.harvestBatches with
      | none => none
      | some b =>
        if b.megapotId == e && b.status == .SUBMITTED then
          let ageMs := s.now - b.createdAt
          match b.txHash with
          | none => some (s, if ageMs < PENDING_TIMEOUT_MS then .next epochs else .lost id epochs)
          | some h => some (s, .receipt id h ageMs epochs)
        else none
  | .lost b epochs, .readBound =>
      match boundNftIds s.db b with
      | none => some (s, .catching b epochs)
      | some ids => some (s, .rehearsing b ids epochs)
  | .rehearsing b ids epochs, .estimate =>
      -- the vault reverts on an empty list (`NoTicketsToClaim`), so its estimate throws
      if ids.isEmpty then none else some (s, .submitting true b ids epochs)
  | .submitting recovery b ids epochs, .submit hash throws =>
      if s.txs.all (·.hash != hash) then
        some ({ s with txs := s.txs ++ [{ hash := hash, batchId := b, nftIds := ids }] },
          if throws then Tick.thrown (.submitting recovery b ids epochs)
          else .recording recovery b hash epochs)
      else none
  | .recording _ b hash epochs, .record =>
      some ({ s with db := setBatchTxHash s.db b hash }, .next epochs)
  | .catching b epochs, .finalize =>
      some ({ s with db := finalizeBatchSuccess s.db b UNKNOWN_HASH s.now }, .next epochs)
  | .receipt b _ ageMs epochs, .getReceipt none =>
      some (s, if ageMs < PENDING_TIMEOUT_MS then .next epochs else .mempool b epochs)
  | .receipt b hash _ epochs, .getReceipt (some status) =>
      if s.txs.any fun tx => tx.hash == hash && tx.mined == some status then
        some (s, if status then .landed b hash epochs
          else .releasing b s!"Harvest tx {hash} reverted on-chain" epochs)
      else none
  | .mempool b epochs, .getTransaction seen =>
      some (s, if seen then .next epochs
        else .releasing b "Harvest tx dropped from mempool — will rebuild" epochs)
  | .landed b hash epochs, .finalize =>
      some ({ s with db := finalizeBatchSuccess s.db b hash s.now }, .next epochs)
  | .releasing b reason epochs, .release =>
      some ({ s with db := releaseBatch s.db b reason }, .next epochs)
  | .building e epochs, .find ids =>
      match findHarvestableTickets s.db e s.quarantined ids with
      | none => none
      | some [] => some (s, .checkingOwed e epochs)
      | some (t :: ts) => some (s, .found e (t :: ts) epochs)
  | .checkingOwed e epochs, .checkOwed =>
      some (s, if s.db.tickets.any (owed s.db e) then .next epochs else .watermark e epochs)
  | .watermark e epochs, .setWatermark =>
      some ({ s with
        db := { s.db with
          megapotEpochs := Table.updateMany (·.megapotId == e)
            (fun r => { r with ticketsHarvestedAt := some s.now }) s.db.megapotEpochs } },
        .next epochs)
  | .found e tickets epochs, .rehearse rejects =>
      let (good, bad) := bisectClaimable rejects (tickets.take CHUNK_SIZE)
      some (s, if !bad.isEmpty then .quarantining e good bad epochs
        else if good.isEmpty then .next epochs else .creating e good epochs)
  | .quarantining e good bad epochs, .quarantine =>
      some ({ s with quarantined := s.quarantined ++ bad.map (·.id) },
        if good.isEmpty then .next epochs else .creating e good epochs)
  | .creating e good epochs, .create id =>
      if freshBatch s id then
        some ({ s with db := createBatch s.db id e (good.map (·.winAmount)).sum s.now },
          .created id good epochs)
      else none
  | .created b good epochs, .bind =>
      some ({ s with db := bindBatch s.db b (good.map (·.id)) },
        if bindCount s.db (good.map (·.id)) = 0 then .deleting b epochs
        else .submitting false b (good.map (·.megapotNftId)) epochs)
  | .deleting b epochs, .delete => some ({ s with db := deleteBatch s.db b }, .next epochs)
  | t, .throw => some (s, t.thrown)
  | _, .crash => some (s, .ended)
  | _, _ => none

/-- Settlement's guarded write of one ticket. -/
def gradeTicket (db : Db) (ticketId : Uuid) (winStatus : WinStatus) (winAmount : Nat) : Db :=
  { db with
    tickets := Table.updateMany (fun t => t.id == ticketId && t.winStatus == .DRAW_PENDING)
      (fun t => { t with winStatus := winStatus, winAmount := winAmount }) db.tickets }

def step (s : State) : Action → Option State
  | .start => some { s with ticks := s.ticks ++ [.next (owingEpochs s.db)] }
  | .tick i act => do
      let t ← s.ticks[i]?
      let (s', t') ← tickStep s t act
      pure { s' with ticks := s.ticks.set i t' }
  | .mine hash success =>
      if s.txs.any fun tx => tx.hash == hash && tx.mined == none then
        some { s with
          txs := Table.updateMany (fun tx => tx.hash == hash && tx.mined == none)
            (fun tx => { tx with mined := some success }) s.txs }
      else none
  | .clock ms => some { s with now := s.now + ms }
  | .grade ticketId winStatus winAmount =>
      if winStatus == .LOST || winStatus == .WON_UNCLAIMED || winStatus == .WON_FREE_TICKET then
        some { s with db := gradeTicket s.db ticketId winStatus winAmount }
      else none
  | .settled e =>
      some { s with
        db := { s.db with
          megapotEpochs := Table.updateMany (·.megapotId == e)
            (fun r => { r with ticketsSettledAt := some s.now }) s.db.megapotEpochs } }
  | .unquarantine ticketId =>
      some { s with quarantined := s.quarantined.filter (· != ticketId) }

/-- Any tickets, none of them harvested, and no harvest under way. -/
structure Initial (s : State) : Prop where
  ticketIds : (s.db.tickets.map (·.id)).Nodup
  unbound : ∀ t ∈ s.db.tickets, t.harvestBatchId = none
  unclaimed : ∀ t ∈ s.db.tickets, t.winStatus ≠ .CLAIMED_ON_BASE
  noBatches : s.db.harvestBatches = []
  noTxs : s.txs = []
  noTicks : s.ticks = []

/-- Every interleaving of the steps of ticks, chain and settlement. -/
def machine : Machine State Action := ⟨Initial, step⟩

/-! ## The rehearsal splits its tickets -/

theorem bisect_perm (rejects : List (List NftId)) (fuel : Nat) (tickets : List BatchTicket) :
    ((bisect rejects fuel tickets).1 ++ (bisect rejects fuel tickets).2).Perm tickets := by
  induction fuel generalizing tickets with
  | zero => exact .refl _
  | succ fuel ih =>
    rw [bisect]
    split
    · rename_i empty
      rw [List.isEmpty_iff.1 empty]
      exact .refl _
    · split
      · rw [List.append_nil]
      · split
        · exact .refl _
        · simp only
          generalize (tickets.length + 1) / 2 = mid
          have halves := (ih (tickets.take mid)).append (ih (tickets.drop mid))
          rw [List.take_append_drop] at halves
          refine List.Perm.trans ?_ halves
          generalize bisect rejects fuel (tickets.take mid) = left
          generalize bisect rejects fuel (tickets.drop mid) = right
          simp only [List.append_assoc]
          refine List.Perm.append_left _ ?_
          simp only [← List.append_assoc]
          exact List.Perm.append_right _ List.perm_append_comm

/-- The length of the list is depth enough. -/
theorem bisect_fuel (rejects : List (List NftId)) {fuel more : Nat} {tickets : List BatchTicket}
    (h : tickets.length ≤ fuel) : bisect rejects (fuel + more) tickets = bisect rejects fuel tickets := by
  induction fuel generalizing tickets more with
  | zero =>
    obtain rfl := List.length_eq_zero_iff.1 (Nat.le_zero.1 h)
    cases more <;> simp [bisect]
  | succ fuel ih =>
    rw [Nat.succ_add, bisect, bisect]
    by_cases one : tickets.length = 1
    · simp [one]
    · by_cases empty : tickets.isEmpty = true
      · simp [empty]
      · have pos : 0 < tickets.length := by
          rw [List.length_pos_iff]
          exact fun he => empty (by rw [he]; rfl)
        have left : (tickets.take ((tickets.length + 1) / 2)).length ≤ fuel := by
          rw [List.length_take]
          omega
        have right : (tickets.drop ((tickets.length + 1) / 2)).length ≤ fuel := by
          rw [List.length_drop]
          omega
        simp only [ih left, ih right]

/-- `bisectClaimable` on a list that is rejected and can be split. -/
theorem bisectClaimable_split {rejects : List (List NftId)} {tickets : List BatchTicket}
    (two : 2 ≤ tickets.length) (rejected : rejects.contains (tickets.map (·.megapotNftId)) = true) :
    bisectClaimable rejects tickets =
      ((bisectClaimable rejects (tickets.take ((tickets.length + 1) / 2))).1 ++
        (bisectClaimable rejects (tickets.drop ((tickets.length + 1) / 2))).1,
       (bisectClaimable rejects (tickets.take ((tickets.length + 1) / 2))).2 ++
        (bisectClaimable rejects (tickets.drop ((tickets.length + 1) / 2))).2) := by
  obtain ⟨fuel, hfuel⟩ : ∃ fuel, tickets.length = fuel + 1 := ⟨tickets.length - 1, by omega⟩
  have depth : ∀ half : List BatchTicket, half.length ≤ fuel →
      bisect rejects fuel half = bisectClaimable rejects half := by
    intro half h
    obtain ⟨more, rfl⟩ := Nat.exists_eq_add_of_le h
    exact bisect_fuel rejects le_rfl
  have nonempty : tickets.isEmpty = false := by
    rw [List.isEmpty_eq_false_iff, ← List.length_pos_iff]
    omega
  rw [bisectClaimable, hfuel, bisect, if_neg (by rw [nonempty]; decide),
    if_neg (by rw [rejected]; decide), if_neg (by omega)]
  simp only [← hfuel]
  rw [depth _ (by rw [List.length_take]; omega), depth _ (by rw [List.length_drop]; omega)]

/-- The rehearsal loses no ticket and makes none up. -/
theorem bisectClaimable_perm (rejects : List (List NftId)) (tickets : List BatchTicket) :
    ((bisectClaimable rejects tickets).1 ++ (bisectClaimable rejects tickets).2).Perm tickets :=
  bisect_perm ..

end LordsPot.Harvest
