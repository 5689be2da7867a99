import LordsPot.Ingest.Indexer
import LordsPot.Library.JobQueue

/-!
# From a signature to an order

`POST /helius`, `webhookIngestWorker` and `ticketWorker` as the steps between their awaits, beside
the backup indexer, which adds to the same queue. Any number of deliveries and jobs run at once.
Every await can fail, every call can take effect although its answer is lost, and a process can die
anywhere. The queue gives the job of a lost worker to another one, while the first may still run.
-/

namespace LordsPot.Ingest

open Transition

/-! ## What the logs of a transaction hold -/

structure TicketData where
  bonus_ball : Nat
  normal_ball : List Nat
  deriving Repr, DecidableEq

structure PurchaseData where
  buyer : Wallet
  amount_paid : Nat
  tickets_bought : Nat
  tickets_data : List TicketData
  timestamp : Nat
  epoch : Nat
  deriving Repr, DecidableEq

/-- An event that `eventParser` finds. The data is read of purchases only. -/
structure AnchorEvent where
  name : String
  data : PurchaseData
  deriving Repr, DecidableEq

def isTicketPurchaseEvent (eventName : String) : Bool :=
  eventName == "TicketPurchaseEvent" || eventName == "ticketPurchaseEvent"

/-- `BN.toNumber()`, which throws above 53 bits. -/
def toNumber (n : Nat) : Option Nat := if n < 2 ^ 53 then some n else none

inductive MergeError where
  | noEvent
  | disagree
  /-- `toNumber` threw. -/
  | unreadable
  deriving Repr, DecidableEq

/-- What the events of one transaction are merged into. -/
structure Purchase where
  buyer : Wallet
  epoch : Nat
  timestamp : Nat
  amount_paid : Nat := 0
  tickets_bought : Nat := 0
  tickets_data : List TicketData := []
  deriving Repr, DecidableEq

def Purchase.add (p : Purchase) (d : PurchaseData) : Purchase :=
  { p with
    amount_paid := p.amount_paid + d.amount_paid
    tickets_bought := p.tickets_bought + d.tickets_bought
    tickets_data := p.tickets_data ++ d.tickets_data }

/-- The check in the loop over the events, with what it throws. -/
def Purchase.check (p : Purchase) (d : PurchaseData) : Except MergeError Unit :=
  if d.buyer ≠ p.buyer then .error .disagree
  else
    match toNumber d.epoch, toNumber p.epoch with
    | some epoch, some first => if epoch ≠ first then .error .disagree else .ok ()
    | _, _ => .error .unreadable

def mergeLoop (p : Purchase) : List PurchaseData → Except MergeError Purchase
  | [] => .ok p
  | d :: events =>
      match p.check d with
      | .ok () => mergeLoop (p.add d) events
      | .error e => .error e

def purchaseEvents (events : List AnchorEvent) : List PurchaseData :=
  (events.filter (isTicketPurchaseEvent ·.name)).map (·.data)

def mergeEvents (purchases : List PurchaseData) : Except MergeError Purchase :=
  match purchases with
  | [] => .error .noEvent
  | first :: _ =>
      mergeLoop { buyer := first.buyer, epoch := first.epoch, timestamp := first.timestamp } purchases

/-! ## The stores -/

inductive WebhookStatus where
  | RECEIVED | PROCESSED | SKIPPED | FAILED
  deriving Repr, DecidableEq

structure WebhookInbox where
  signature : Signature
  status : WebhookStatus := .RECEIVED
  error : Option String := none
  deriving Repr, DecidableEq

structure TicketJob where
  signature : Signature
  logs : List String
  deriving Repr, DecidableEq

/-- The database, the `webhook:seen:` keys, the two queues, and every relay job ever added. -/
structure Store where
  db : Db := {}
  inbox : List WebhookInbox := []
  seen : List Signature := []
  webhookIngestQueue : List (JobQueue.Job Signature) := []
  ticketIngestQueue : List (JobQueue.Job TicketJob) := []
  relayed : List Bytes32 := []
  deriving Repr

namespace Store

/-- `webhookInbox.createMany({ skipDuplicates: true })`. -/
def createMany (s : Store) (signatures : List Signature) : Store :=
  { s with inbox := signatures.foldl (fun inbox signature =>
      if inbox.any (·.signature == signature) then inbox
      else inbox ++ [{ signature := signature }]) s.inbox }

/-- `webhookInbox.update`, which throws where there is no row. -/
def updateInbox (s : Store) (signature : Signature) (status : WebhookStatus)
    (error : Option String) : Option Store :=
  if s.inbox.any (·.signature == signature) then
    let inbox := Table.updateMany (·.signature == signature)
      (fun row => { row with status := status, error := error.or row.error }) s.inbox
    some { s with inbox := inbox }
  else none

def enqueueWebhook (s : Store) (signature : Signature) : Store :=
  { s with webhookIngestQueue := JobQueue.add ("wh-" ++ signature) signature s.webhookIngestQueue }

def enqueueTicket (s : Store) (job : TicketJob) : Store :=
  { s with ticketIngestQueue := JobQueue.add ("ticket-" ++ job.signature) job s.ticketIngestQueue }

end Store

/-- The row `ticketWorker` creates. -/
def Purchase.order (p : Purchase) (hash : Bytes32) (signature : Signature) : RelayOrder where
  hash := hash
  signature := signature
  buyer := p.buyer
  purchaseEpoch := p.epoch
  amountUsdc := p.amount_paid
  ticketCount := p.tickets_bought
  lastBought := p.timestamp * 1000
  status := .QUEUED

/-- The ticket rows created with it, under the ids the database gives them. -/
def Purchase.rows (p : Purchase) (hash : Bytes32) (ids : List Uuid) : List Ticket :=
  List.zipWith (fun id ticket =>
    { id := id, orderHash := hash, bonusBall := ticket.bonus_ball, normalBalls := ticket.normal_ball })
    ids p.tickets_data

/-- New ids, one for each row. -/
def freshIds (tickets : List Ticket) (ids : List Uuid) (n : Nat) : Bool :=
  ids.length == n && decide (ids.Nodup) && ids.all fun id => !tickets.any (·.id == id)

/-! ## The deliveries -/

/-- A transaction of a payload: its first signature and its fee payer, where it has them. -/
structure HeliusTx where
  signature : Option Signature
  feePayer : Option Wallet := none
  deriving Repr, DecidableEq

inductive PostPhase where
  | scanning (todo : List HeliusTx) (fresh : List Signature)
  | persisting (fresh : List Signature)
  | enqueuing (fresh : List Signature)
  /-- The marks of `Promise.all` that are still to come, and what is answered. -/
  | marking (todo : List Signature) (status : Nat)
  | responded (status : Nat)
  deriving Repr, DecidableEq

/-- What an await is answered, where the answer is not read off the stores. -/
inductive Call where
  | go
  | fetch (answer : Answer) (err : Bool)
  | create (ids : List Uuid)
  /-- One of the marks fails; the others go on. -/
  | unmarked
  deriving Repr, DecidableEq

section

variable (adminPublicKey : Wallet)

/-- A signature that is missing, seen already, or of a transaction of our own is passed over. -/
def passesOver (s : Store) (tx : HeliusTx) (signature : Signature) : Bool :=
  signature == "" || s.seen.contains signature || tx.feePayer == some adminPublicKey

def postStep (s : Store) : PostPhase → Call → Option (Store × PostPhase)
  | .scanning (tx :: todo) fresh, .go =>
      match tx.signature with
      | none => some (s, .scanning todo fresh)
      | some signature =>
          if passesOver adminPublicKey s tx signature then some (s, .scanning todo fresh)
          else some (s, .scanning todo (fresh ++ [signature]))
  | .scanning [] [], .go => some (s, .responded 200)
  | .scanning [] (signature :: fresh), .go => some (s, .persisting (signature :: fresh))
  | .persisting fresh, .go => some (s.createMany fresh, .enqueuing fresh)
  | .enqueuing fresh, .go => some (fresh.foldl Store.enqueueWebhook s, .marking fresh 200)
  | .marking (signature :: todo) status, .go =>
      some ({ s with seen := signature :: s.seen }, .marking todo status)
  | .marking (_ :: todo) _, .unmarked => some (s, .marking todo 500)
  | .marking [] status, .go => some (s, .responded status)
  | _, _ => none

end

/-! ## The workers -/

inductive WebhookPhase where
  | finding
  | verifying
  | skipping (error : Option String)
  | addingTicket (logs : List String)
  | markingProcessed
  | returned
  | thrown
  deriving Repr, DecidableEq

inductive TicketPhase where
  /-- The inbox row is marked before the job is given up. -/
  | rejecting (error : String)
  | creating (p : Purchase)
  | addingRelay
  | returned
  | unrecoverable
  | thrown
  deriving Repr, DecidableEq

section

variable (chain : Signature → List String) (parseLogs : List String → List AnchorEvent)
  (keccak256 : String → Bytes32)

/-- An inbox update, and where the job goes from it. -/
def updateThen {γ : Type} (s : Store) (updated : Option Store) (next thrown : γ) : Store × γ :=
  match updated with
  | some s' => (s', next)
  | none => (s, thrown)

def webhookStep (s : Store) (signature : Signature) :
    WebhookPhase → Call → Option (Store × WebhookPhase)
  | .finding, .go =>
      match s.inbox.find? (·.signature == signature) with
      | none => some (s, .returned)
      | some row => some (s, if row.status = .PROCESSED then .returned else .verifying)
  | .verifying, .fetch answer err =>
      if answer = .null then some (s, .thrown)
      else if err then some (s, .skipping (some "Transaction failed on-chain"))
      else
        let logs := answer.logMessages (chain signature)
        some (s, if buysTicket logs then .addingTicket logs else .skipping none)
  | .skipping error, .go => some (updateThen s (s.updateInbox signature .SKIPPED error) .returned .thrown)
  | .addingTicket logs, .go => some (s.enqueueTicket ⟨signature, logs⟩, .markingProcessed)
  | .markingProcessed, .go => some (updateThen s (s.updateInbox signature .PROCESSED none) .returned .thrown)
  | _, _ => none

/-- The work of `ticketWorker` before its first await. -/
def ticketStart (logs : List String) : TicketPhase :=
  match mergeEvents (purchaseEvents (parseLogs logs)) with
  | .ok p => .creating p
  | .error .noEvent => .rejecting "No TicketPurchaseEvent found in logs — needs manual review"
  | .error .disagree => .rejecting "TicketPurchaseEvents in one tx disagree on buyer/epoch"
  | .error .unreadable => .thrown

/-- `relayOrder.create` with its tickets: `none` where the hash or the signature is taken. -/
def createOrder (s : Store) (p : Purchase) (signature : Signature) (ids : List Uuid) : Option Store :=
  let hash := keccak256 signature
  if s.db.relayOrders.any (fun o => o.hash == hash || o.signature == signature) then none
  else some { s with db := { s.db with
    relayOrders := s.db.relayOrders ++ [p.order hash signature]
    tickets := s.db.tickets ++ p.rows hash ids } }

def ticketStep (s : Store) (signature : Signature) : TicketPhase → Call → Option (Store × TicketPhase)
  | .rejecting error, .go =>
      some (updateThen s (s.updateInbox signature .FAILED (some error)) .unrecoverable .thrown)
  | .creating p, .create ids =>
      if freshIds s.db.tickets ids p.tickets_data.length then
        if (toNumber p.timestamp).isNone then some (s, .thrown)
        else some (updateThen s (createOrder keccak256 s p signature ids) .addingRelay .addingRelay)
      else none
  | .addingRelay, .go => some ({ s with relayed := keccak256 signature :: s.relayed }, .returned)
  | _, _ => none

/-! ## The system -/

/-- A delivery or a job that is being worked on. -/
inductive Run where
  | post (p : PostPhase)
  | webhook (signature : Signature) (p : WebhookPhase)
  | ticket (signature : Signature) (p : TicketPhase)
  | ended
  deriving Repr, DecidableEq

/-- Where a run is after an error. -/
def Run.threw : Run → Run
  -- the answer is lost, and the marks that are left go on
  | .post (.marking todo _) => .post (.marking todo 500)
  | .post _ => .post (.responded 500)
  | .webhook signature _ => .webhook signature .thrown
  | .ticket signature _ => .ticket signature .thrown
  | .ended => .ended

/-- A delivery stays one. -/
theorem Run.threw_post (p : PostPhase) : ∃ p', (Run.post p).threw = .post p' := by
  cases p <;> exact ⟨_, rfl⟩

structure System where
  store : Store := {}
  indexer : State := {}
  runs : List Run := []
  deriving Repr

inductive Event where
  | deliver (body : List HeliusTx)
  | expireSeen (signature : Signature)
  | startWebhook (id : String)
  | startTicket (id : String)
  | call (i : Nat) (call : Call) (lost : Bool)
  /-- An await throws and nothing has happened. -/
  | throw (i : Nat)
  | crash (i : Nat)
  | webhookUpkeep (id : String) (act : JobQueue.Upkeep)
  | ticketUpkeep (id : String) (act : JobQueue.Upkeep)
  | poll (a : Action)
  deriving Repr, DecidableEq

variable (adminPublicKey : Wallet)

/-- A step of a run; a handler that has returned or thrown settles its job. -/
def runStep (s : Store) : Run → Call → Option (Store × Run)
  | .post p, call => (postStep adminPublicKey s p call).map fun (s', p') => (s', .post p')
  | .webhook signature .returned, .go =>
      let id := "wh-" ++ signature
      some ({ s with webhookIngestQueue := JobQueue.setStatus id .completed s.webhookIngestQueue }, .ended)
  | .webhook signature .thrown, .go =>
      let id := "wh-" ++ signature
      some ({ s with webhookIngestQueue := JobQueue.threw 6 id s.webhookIngestQueue }, .ended)
  | .webhook signature p, call =>
      (webhookStep chain s signature p call).map fun (s', p') => (s', .webhook signature p')
  | .ticket signature .returned, .go =>
      let id := "ticket-" ++ signature
      some ({ s with ticketIngestQueue := JobQueue.setStatus id .completed s.ticketIngestQueue }, .ended)
  | .ticket signature .unrecoverable, .go =>
      let id := "ticket-" ++ signature
      some ({ s with ticketIngestQueue := JobQueue.setStatus id .failed s.ticketIngestQueue }, .ended)
  | .ticket signature .thrown, .go =>
      let id := "ticket-" ++ signature
      some ({ s with ticketIngestQueue := JobQueue.threw 10 id s.ticketIngestQueue }, .ended)
  | .ticket signature p, call =>
      (ticketStep keccak256 s signature p call).map fun (s', p') => (s', .ticket signature p')
  | .ended, _ => none

namespace System

/-- The indexer's state, with the orders it finds in the database. -/
def polled (s : System) : State :=
  { s.indexer with orders := (s.store.db.relayOrders.map (·.signature)).reverse }

/-- The job a step of the indexer adds. -/
def pollAdds (s : State) : Action → Option TicketJob
  | .poll i .add =>
      match s.polls[i]? with
      | some (.adding _ sig _) => some ⟨sig.signature, chain sig.signature⟩
      | _ => none
  | _ => none

def addPolled (s : Store) : Option TicketJob → Store
  | some job => s.enqueueTicket job
  | none => s

def step (s : System) : Event → Option System
  | .deliver body => some { s with runs := s.runs ++ [.post (.scanning body [])] }
  | .expireSeen signature =>
      some { s with store := { s.store with seen := s.store.seen.filter (· != signature) } }
  | .startWebhook id => do
      let job ← JobQueue.take? id s.store.webhookIngestQueue
      let jobs := JobQueue.setStatus id .active s.store.webhookIngestQueue
      pure { s with
        store := { s.store with webhookIngestQueue := jobs }
        runs := s.runs ++ [.webhook job.data .finding] }
  | .startTicket id => do
      let job ← JobQueue.take? id s.store.ticketIngestQueue
      let jobs := JobQueue.setStatus id .active s.store.ticketIngestQueue
      pure { s with
        store := { s.store with ticketIngestQueue := jobs }
        runs := s.runs ++ [.ticket job.data.signature (ticketStart parseLogs job.data.logs)] }
  | .call i call lost => do
      let r ← s.runs[i]?
      let (store, r') ← runStep chain keccak256 adminPublicKey s.store r call
      pure { s with store := store, runs := s.runs.set i (if lost then r'.threw else r') }
  | .throw i => do
      let r ← s.runs[i]?
      pure { s with runs := s.runs.set i r.threw }
  | .crash i => some { s with runs := s.runs.set i .ended }
  | .webhookUpkeep id act =>
      let jobs := JobQueue.upkeep id s.store.webhookIngestQueue act
      some { s with store := { s.store with webhookIngestQueue := jobs } }
  | .ticketUpkeep id act =>
      let jobs := JobQueue.upkeep id s.store.ticketIngestQueue act
      some { s with store := { s.store with ticketIngestQueue := jobs } }
  | .poll (.order _) => none
  | .poll a => do
      let indexer ← Ingest.step chain s.polled a
      pure { s with indexer := indexer, store := addPolled s.store (pollAdds chain s.indexer a) }

/-- Nothing stored yet, and any history of the vault's account. -/
structure Initial (s : System) : Prop where
  store : s.store = {}
  distinct : (s.indexer.history.map (·.signature)).Nodup
  noCursor : s.indexer.cursor = none
  noPolls : s.indexer.polls = []
  noRuns : s.runs = []

def machine : Machine System Event :=
  ⟨Initial, step chain parseLogs keccak256 adminPublicKey⟩

end System

end

end LordsPot.Ingest
