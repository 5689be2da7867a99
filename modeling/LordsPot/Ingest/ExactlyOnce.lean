import Mathlib.Algebra.BigOperators.Group.List.Basic
import Mathlib.Logic.Equiv.Basic
import LordsPot.Ingest.Purchase

/-!
# Exactly once

An order is what its transaction's events add up to, and a job completes only behind an order whose
relay job was added. Both hold for every delivery, retry and crash, since what a run carries is read
off the chain and what it finds in the database does not go away.
-/

namespace LordsPot.Ingest

open Transition

/-! ## Merging -/

section

variable {p q : Purchase} {d : PurchaseData} {ds : List PurchaseData}

/-- What the loop has added to a purchase. -/
structure Merged (p : Purchase) (ds : List PurchaseData) (q : Purchase) : Prop where
  amount : q.amount_paid = p.amount_paid + (ds.map (·.amount_paid)).sum
  bought : q.tickets_bought = p.tickets_bought + (ds.map (·.tickets_bought)).sum
  tickets : q.tickets_data = p.tickets_data ++ ds.flatMap (·.tickets_data)

theorem merged_loop (h : mergeLoop p ds = .ok q) : Merged p ds q := by
  induction ds generalizing p with
  | nil =>
    cases h
    exact ⟨by simp, by simp, by simp⟩
  | cons d ds ih =>
    rw [mergeLoop] at h
    split at h
    · have rest := ih h
      refine ⟨?_, ?_, ?_⟩
      · rw [rest.amount, List.map_cons, List.sum_cons, ← Nat.add_assoc]
        rfl
      · rw [rest.bought, List.map_cons, List.sum_cons, ← Nat.add_assoc]
        rfl
      · rw [rest.tickets, List.flatMap_cons, ← List.append_assoc]
        rfl
    · cases h

/-- A merge that succeeds adds up all events. -/
theorem merged_events (h : mergeEvents ds = .ok q) :
    q.amount_paid = (ds.map (·.amount_paid)).sum ∧ q.tickets_bought = (ds.map (·.tickets_bought)).sum ∧
      q.tickets_data = ds.flatMap (·.tickets_data) := by
  unfold mergeEvents at h
  split at h
  · cases h
  · have merged := merged_loop h
    exact ⟨by simpa using merged.amount, by simpa using merged.bought, by simpa using merged.tickets⟩

end

/-! ## The property -/

def Store.ticketsOf (s : Store) (hash : Bytes32) : List Ticket :=
  s.db.tickets.filter (·.orderHash == hash)

/-- The numbers of a ticket row. -/
def ticketData (t : Ticket) : TicketData := ⟨t.bonusBall, t.normalBalls⟩

/-- There is an order of the signature, and its relay job was added. -/
def Ingested (s : Store) (signature : Signature) : Prop :=
  ∃ o ∈ s.db.relayOrders, o.signature = signature ∧ o.hash ∈ s.relayed

section

variable (chain : Signature → List String) (parseLogs : List String → List AnchorEvent)
  (keccak256 : String → Bytes32)

/-- The purchases of a transaction. -/
def purchasesOf (signature : Signature) : List PurchaseData :=
  purchaseEvents (parseLogs (chain signature))

/-- The order and its tickets are the sum of the transaction's purchases. -/
structure Faithful (s : Store) (o : RelayOrder) : Prop where
  tickets : ((s.ticketsOf o.hash).map ticketData).Perm
    ((purchasesOf chain parseLogs o.signature).flatMap (·.tickets_data))
  amount : o.amountUsdc = ((purchasesOf chain parseLogs o.signature).map (·.amount_paid)).sum
  count : o.ticketCount = (s.ticketsOf o.hash).length

structure ExactlyOnce (s : System) : Prop where
  once : ∀ signature, (s.store.db.relayOrders.filter (·.signature == signature)).length ≤ 1
  faithful : ∀ o ∈ s.store.db.relayOrders, Faithful chain parseLogs s.store o
  completed : ∀ job ∈ s.store.ticketIngestQueue, job.status = .completed →
    Ingested s.store job.data.signature
  returned : ∀ signature, .ticket signature .returned ∈ s.runs → Ingested s.store signature

/-! ## The invariant -/

/-- An order is the merged purchase of its signature. -/
structure Recorded (s : Store) (o : RelayOrder) : Prop where
  hash : o.hash = keccak256 o.signature
  purchase : ∃ p, mergeEvents (purchasesOf chain parseLogs o.signature) = .ok p ∧
    o = p.order o.hash o.signature ∧ (s.ticketsOf o.hash).map ticketData = p.tickets_data

structure JobOk (s : Store) (job : JobQueue.Job TicketJob) : Prop where
  id : job.id = "ticket-" ++ job.data.signature
  logs : job.data.logs = chain job.data.signature
  completed : job.status = .completed → Ingested s job.data.signature

structure StoreOk (s : Store) : Prop where
  signatures : (s.db.relayOrders.map (·.signature)).Nodup
  recorded : ∀ o ∈ s.db.relayOrders, Recorded chain parseLogs keccak256 s o
  owned : ∀ t ∈ s.db.tickets, ∃ o ∈ s.db.relayOrders, o.hash = t.orderHash
  jobs : ∀ job ∈ s.ticketIngestQueue, JobOk chain s job

/-- What a run carries was read off the chain, and what it found is there. -/
def RunOk (s : Store) : Run → Prop
  | .webhook signature (.addingTicket logs) => logs = chain signature
  | .ticket signature (.creating p) => mergeEvents (purchasesOf chain parseLogs signature) = .ok p
  | .ticket signature .addingRelay =>
      ∃ o ∈ s.db.relayOrders, o.signature = signature ∧ o.hash = keccak256 signature
  | .ticket signature .returned => Ingested s signature
  | _ => True

structure System.Inv (s : System) : Prop where
  store : StoreOk chain parseLogs keccak256 s.store
  runs : ∀ r ∈ s.runs, RunOk chain parseLogs keccak256 s.store r

end

section

variable {chain : Signature → List String} {parseLogs : List String → List AnchorEvent}
  {keccak256 : String → Bytes32} {adminPublicKey : Wallet} {s s' : Store} {signature : Signature}

/-- Orders and relay jobs do not go away. -/
structure Extends (s s' : Store) : Prop where
  orders : s.db.relayOrders ⊆ s'.db.relayOrders
  relayed : s.relayed ⊆ s'.relayed

theorem Extends.refl (s : Store) : Extends s s := ⟨List.Subset.refl _, List.Subset.refl _⟩

theorem Ingested.mono (e : Extends s s') (h : Ingested s signature) : Ingested s' signature := by
  obtain ⟨o, mem, same, relayed⟩ := h
  exact ⟨o, e.orders mem, same, e.relayed relayed⟩

theorem RunOk.mono (e : Extends s s') {r : Run} (h : RunOk chain parseLogs keccak256 s r) :
    RunOk chain parseLogs keccak256 s' r := by
  unfold RunOk at h ⊢
  split at h
  · exact h
  · exact h
  · obtain ⟨o, mem, same⟩ := h
    exact ⟨o, e.orders mem, same⟩
  · exact h.mono e
  · trivial

theorem RunOk.threw (s : Store) (r : Run) : RunOk chain parseLogs keccak256 s r.threw := by
  cases r with
  | post p =>
    obtain ⟨p', same⟩ := Run.threw_post p
    rw [same]
    trivial
  | _ => trivial

/-- What the stores keep from one step to the next, and that it loses nothing. -/
structure Steps (chain : Signature → List String) (parseLogs : List String → List AnchorEvent)
    (keccak256 : String → Bytes32) (s s' : Store) : Prop where
  ok : StoreOk chain parseLogs keccak256 s'
  extended : Extends s s'

/-- The database stays, and the jobs are in order. -/
theorem StoreOk.frame (h : StoreOk chain parseLogs keccak256 s) (db : s'.db = s.db)
    (relayed : s.relayed ⊆ s'.relayed) (jobs : ∀ job ∈ s'.ticketIngestQueue, JobOk chain s' job) :
    Steps chain parseLogs keccak256 s s' := by
  have same : ∀ hash, s'.ticketsOf hash = s.ticketsOf hash := fun hash => by
    rw [Store.ticketsOf, db, Store.ticketsOf]
  refine ⟨⟨by rw [db]; exact h.signatures, fun o mem => ?_, by rw [db]; exact h.owned, jobs⟩, ?_⟩
  · rw [db] at mem
    obtain ⟨hash, p, merged, created, tickets⟩ := h.recorded o mem
    exact ⟨hash, p, merged, created, by rw [same]; exact tickets⟩
  · exact ⟨by rw [db]; exact List.Subset.refl _, relayed⟩

theorem JobOk.mono (e : Extends s s') {job : JobQueue.Job TicketJob} (h : JobOk chain s job) :
    JobOk chain s' job :=
  ⟨h.id, h.logs, fun done => (h.completed done).mono e⟩

/-- A job that is kept, and completed only behind its order. -/
theorem JobOk.kept {completes : String → Prop} {old job : JobQueue.Job TicketJob}
    (h : JobOk chain s old) (kept : JobQueue.Kept completes old job)
    (done : completes old.id → Ingested s old.data.signature) : JobOk chain s job where
  id := by rw [kept.id, kept.data]; exact h.id
  logs := by rw [kept.data]; exact h.logs
  completed completed := by
    rw [kept.data]
    exact (kept.completed completed).elim h.completed done

/-- A change that the orders, the ticket queue and the relay jobs do not see. -/
structure Quiet (s s' : Store) : Prop where
  db : s'.db = s.db
  relayed : s'.relayed = s.relayed
  jobs : s'.ticketIngestQueue = s.ticketIngestQueue

theorem Quiet.refl (s : Store) : Quiet s s := ⟨rfl, rfl, rfl⟩

theorem StoreOk.quiet (h : StoreOk chain parseLogs keccak256 s) (q : Quiet s s') :
    Steps chain parseLogs keccak256 s s' := by
  have e : Extends s s' := by
    refine ⟨?_, ?_⟩
    · rw [q.db]
      exact List.Subset.refl _
    · rw [q.relayed]
      exact List.Subset.refl _
  refine h.frame q.db e.relayed fun job mem => ?_
  rw [q.jobs] at mem
  exact (h.jobs job mem).mono e

theorem StoreOk.enqueueTicket (h : StoreOk chain parseLogs keccak256 s) {job : TicketJob}
    (logs : job.logs = chain job.signature) : Steps chain parseLogs keccak256 s (s.enqueueTicket job) := by
  have e : Extends s (s.enqueueTicket job) := ⟨List.Subset.refl _, List.Subset.refl _⟩
  refine h.frame rfl e.relayed fun j mem => ?_
  rcases JobQueue.mem_add mem with old | rfl
  · exact (h.jobs j old).mono e
  · exact ⟨rfl, logs, fun done => by cases done⟩

/-- A change of the ticket queue that completes a job only behind its order. -/
theorem StoreOk.requeue (h : StoreOk chain parseLogs keccak256 s) {completes : String → Prop}
    {jobs : List (JobQueue.Job TicketJob)}
    (kept : ∀ job ∈ jobs, ∃ old ∈ s.ticketIngestQueue, JobQueue.Kept completes old job)
    (done : ∀ signature, completes ("ticket-" ++ signature) → Ingested s signature) :
    Steps chain parseLogs keccak256 s { s with ticketIngestQueue := jobs } := by
  have e : Extends s { s with ticketIngestQueue := jobs } := ⟨List.Subset.refl _, List.Subset.refl _⟩
  refine h.frame rfl e.relayed fun job mem => ?_
  obtain ⟨old, was, same⟩ := kept job mem
  have ok := h.jobs old was
  have next : JobOk chain s job := ok.kept same fun completes => done _ (ok.id ▸ completes)
  exact next.mono e

theorem StoreOk.relay (h : StoreOk chain parseLogs keccak256 s) (hash : Bytes32) :
    Steps chain parseLogs keccak256 s { s with relayed := hash :: s.relayed } := by
  have e : Extends s { s with relayed := hash :: s.relayed } :=
    ⟨List.Subset.refl _, List.subset_cons_self _ _⟩
  exact h.frame rfl e.relayed fun job mem => (h.jobs job mem).mono e

/-! ## Creating the order -/

theorem rows_ticketData {p : Purchase} {hash : Bytes32} {ids : List Uuid}
    (one : ids.length = p.tickets_data.length) : (p.rows hash ids).map ticketData = p.tickets_data := by
  unfold Purchase.rows
  generalize p.tickets_data = data at one
  induction ids generalizing data with
  | nil =>
    cases data with
    | nil => rfl
    | cons d data => simp at one
  | cons id ids ih =>
    cases data with
    | nil => rfl
    | cons d data =>
      have rest := ih data (by simpa using one)
      rw [List.zipWith_cons_cons, List.map_cons, rest]
      rfl

theorem orderHash_rows {p : Purchase} {hash : Bytes32} {ids : List Uuid} {t : Ticket}
    (h : t ∈ p.rows hash ids) : t.orderHash = hash := by
  obtain ⟨i, _, rfl⟩ := List.mem_iff_getElem.1 h
  simp [Purchase.rows]

/-- **The create rule**: a new order with the merged purchase of its signature. -/
theorem StoreOk.createOrder (h : StoreOk chain parseLogs keccak256 s) {p : Purchase} {ids : List Uuid}
    (merged : mergeEvents (purchasesOf chain parseLogs signature) = .ok p)
    (one : ids.length = p.tickets_data.length)
    (hs : Ingest.createOrder keccak256 s p signature ids = some s') :
    Steps chain parseLogs keccak256 s s' ∧
      ∃ o ∈ s'.db.relayOrders, o.signature = signature ∧ o.hash = keccak256 signature := by
  unfold Ingest.createOrder at hs
  dsimp only at hs
  split at hs
  · cases hs
  · rename_i free
    cases hs
    have free : ∀ o ∈ s.db.relayOrders, o.hash ≠ keccak256 signature ∧ o.signature ≠ signature := by
      simpa using free
    have mine : ∀ t ∈ s.db.tickets, t.orderHash ≠ keccak256 signature := fun t mem taken => by
      obtain ⟨o, was, same⟩ := h.owned t mem
      exact (free o was).1 (same.trans taken)
    let store : Store := { s with db := { s.db with
      relayOrders := s.db.relayOrders ++ [p.order (keccak256 signature) signature]
      tickets := s.db.tickets ++ p.rows (keccak256 signature) ids } }
    have e : Extends s store := ⟨List.subset_append_left _ _, List.Subset.refl _⟩
    refine ⟨⟨⟨?_, fun o mem => ?_, fun t mem => ?_, fun job mem => (h.jobs job mem).mono e⟩, e⟩, ?_⟩
    · refine Table.nodup_insert h.signatures fun taken => ?_
      obtain ⟨o, was, same⟩ := List.mem_map.1 taken
      exact (free o was).2 same
    · rcases List.mem_append.1 mem with was | new
      · obtain ⟨hash, q, merged, created, tickets⟩ := h.recorded o was
        refine ⟨hash, q, merged, created, ?_⟩
        have none : (p.rows (keccak256 signature) ids).filter (·.orderHash == o.hash) = [] := by
          refine List.filter_eq_nil_iff.2 fun t mem same => ?_
          rw [orderHash_rows mem, beq_iff_eq] at same
          exact (free o was).1 same.symm
        rw [Store.ticketsOf, List.filter_append, none, List.append_nil]
        exact tickets
      · cases List.mem_singleton.1 new
        refine ⟨rfl, p, merged, rfl, ?_⟩
        have none : s.db.tickets.filter (·.orderHash == keccak256 signature) = [] :=
          List.filter_eq_nil_iff.2 fun t mem same => mine t mem (beq_iff_eq.1 same)
        have all : (p.rows (keccak256 signature) ids).filter (·.orderHash == keccak256 signature) =
            p.rows (keccak256 signature) ids :=
          List.filter_eq_self.2 fun t mem => beq_iff_eq.2 (orderHash_rows mem)
        change (List.filter (·.orderHash == keccak256 signature) (_ ++ _)).map ticketData = _
        rw [List.filter_append, none, all, List.nil_append]
        exact rows_ticketData one
    · rcases List.mem_append.1 mem with was | new
      · obtain ⟨o, mem, same⟩ := h.owned t was
        exact ⟨o, List.mem_append_left _ mem, same⟩
      · exact ⟨_, List.mem_append_right _ (List.mem_singleton_self _), (orderHash_rows new).symm⟩
    · exact ⟨_, List.mem_append_right _ (List.mem_singleton_self _), rfl, rfl⟩

/-- Where the hash or the signature is taken, the order is there already. -/
theorem StoreOk.duplicate (inj : Function.Injective keccak256) (h : StoreOk chain parseLogs keccak256 s)
    {p : Purchase} {ids : List Uuid} (hs : Ingest.createOrder keccak256 s p signature ids = none) :
    ∃ o ∈ s.db.relayOrders, o.signature = signature ∧ o.hash = keccak256 signature := by
  unfold Ingest.createOrder at hs
  dsimp only at hs
  split at hs
  · rename_i taken
    obtain ⟨o, mem, same⟩ := List.any_eq_true.1 taken
    have hash := (h.recorded o mem).hash
    rw [Bool.or_eq_true, beq_iff_eq, beq_iff_eq, hash] at same
    have same : o.signature = signature := same.elim (fun hash => inj hash) id
    exact ⟨o, mem, same, by rw [hash, same]⟩
  · cases hs

/-! ## Steps -/

theorem quiet_enqueueWebhook (fresh : List Signature) : Quiet s (fresh.foldl Store.enqueueWebhook s) := by
  induction fresh generalizing s with
  | nil => exact Quiet.refl s
  | cons signature fresh ih =>
    have rest := ih (s := s.enqueueWebhook signature)
    exact ⟨rest.db, rest.relayed, rest.jobs⟩

theorem quiet_postStep {p p' : PostPhase} {call : Call}
    (hs : postStep adminPublicKey s p call = some (s', p')) : Quiet s s' := by
  unfold postStep at hs
  split at hs
  · split at hs
    · cases hs
      exact Quiet.refl s
    · split at hs <;> cases hs <;> exact Quiet.refl s
  · cases hs
    exact Quiet.refl s
  · cases hs
    exact Quiet.refl s
  · cases hs
    exact ⟨rfl, rfl, rfl⟩
  · cases hs
    exact quiet_enqueueWebhook _
  · cases hs
    exact ⟨rfl, rfl, rfl⟩
  · cases hs
    exact Quiet.refl s
  · cases hs
    exact Quiet.refl s
  · cases hs

/-- An inbox update is quiet, and the job goes one of two ways. -/
theorem quiet_updateThen {γ : Type} {status : WebhookStatus} {error : Option String}
    {next thrown went : γ}
    (hs : updateThen s (s.updateInbox signature status error) next thrown = (s', went)) :
    Quiet s s' ∧ (went = next ∨ went = thrown) := by
  unfold updateThen Store.updateInbox at hs
  split at hs
  · rename_i updated
    split at updated
    · cases updated
      cases hs
      exact ⟨⟨rfl, rfl, rfl⟩, .inl rfl⟩
    · cases updated
  · cases hs
    exact ⟨Quiet.refl s, .inr rfl⟩

theorem webhookStep_ok {p p' : WebhookPhase} {call : Call} (h : StoreOk chain parseLogs keccak256 s)
    (r : RunOk chain parseLogs keccak256 s (.webhook signature p))
    (hs : webhookStep chain s signature p call = some (s', p')) :
    Steps chain parseLogs keccak256 s s' ∧ RunOk chain parseLogs keccak256 s' (.webhook signature p') := by
  have stay := h.quiet (Quiet.refl s)
  unfold webhookStep at hs
  split at hs
  · split at hs
    · cases hs
      exact ⟨stay, trivial⟩
    · cases hs
      refine ⟨stay, ?_⟩
      split <;> trivial
  · rename_i answer err
    split at hs
    · cases hs
      exact ⟨stay, trivial⟩
    · split at hs
      · cases hs
        exact ⟨stay, trivial⟩
      · cases hs
        refine ⟨stay, ?_⟩
        split
        · rename_i bought
          -- only the transaction with its logs has the line
          cases answer with
          | full => rfl
          | null => simp [Answer.logMessages, buysTicket] at bought
          | withoutLogs => simp [Answer.logMessages, buysTicket] at bought
        · trivial
  · obtain ⟨q, rfl | rfl⟩ := quiet_updateThen (Option.some.inj hs)
    · exact ⟨h.quiet q, trivial⟩
    · exact ⟨h.quiet q, trivial⟩
  · cases hs
    exact ⟨h.enqueueTicket r, trivial⟩
  · obtain ⟨q, rfl | rfl⟩ := quiet_updateThen (Option.some.inj hs)
    · exact ⟨h.quiet q, trivial⟩
    · exact ⟨h.quiet q, trivial⟩
  · cases hs

theorem ticketStart_ok (s : Store) {logs : List String} (read : logs = chain signature) :
    RunOk chain parseLogs keccak256 s (.ticket signature (ticketStart parseLogs logs)) := by
  subst read
  unfold ticketStart
  split
  · assumption
  all_goals trivial

theorem ticketStep_ok (inj : Function.Injective keccak256) {p p' : TicketPhase} {call : Call}
    (h : StoreOk chain parseLogs keccak256 s)
    (r : RunOk chain parseLogs keccak256 s (.ticket signature p))
    (hs : ticketStep keccak256 s signature p call = some (s', p')) :
    Steps chain parseLogs keccak256 s s' ∧ RunOk chain parseLogs keccak256 s' (.ticket signature p') := by
  have stay := h.quiet (Quiet.refl s)
  unfold ticketStep at hs
  split at hs
  · obtain ⟨q, rfl | rfl⟩ := quiet_updateThen (Option.some.inj hs)
    · exact ⟨h.quiet q, trivial⟩
    · exact ⟨h.quiet q, trivial⟩
  · rename_i p ids
    split at hs
    · rename_i fresh
      split at hs
      · cases hs
        exact ⟨stay, trivial⟩
      · have went := Option.some.inj hs
        unfold updateThen at went
        split at went
        · rename_i created
          cases went
          have one : ids.length = p.tickets_data.length := by
            simp only [freshIds, Bool.and_eq_true, beq_iff_eq] at fresh
            exact fresh.1.1
          exact h.createOrder r one created
        · rename_i taken
          cases went
          exact ⟨stay, h.duplicate inj taken⟩
    · cases hs
  · cases hs
    obtain ⟨o, mem, same, hash⟩ := r
    exact ⟨h.relay _, o, mem, same, by rw [hash]; exact List.mem_cons_self⟩
  · cases hs

/-- **The run rule**: a step of a delivery or a job keeps the stores and what the run knows. -/
theorem runStep_ok (inj : Function.Injective keccak256) {r r' : Run} {call : Call}
    (h : StoreOk chain parseLogs keccak256 s) (ok : RunOk chain parseLogs keccak256 s r)
    (hs : runStep chain keccak256 adminPublicKey s r call = some (s', r')) :
    Steps chain parseLogs keccak256 s s' ∧ RunOk chain parseLogs keccak256 s' r' := by
  unfold runStep at hs
  split at hs
  case h_1 =>
    obtain ⟨⟨s₁, p'⟩, stepped, same⟩ := Option.map_eq_some_iff.1 hs
    cases same
    exact ⟨h.quiet (quiet_postStep stepped), trivial⟩
  case h_2 =>
    cases hs
    exact ⟨h.quiet ⟨rfl, rfl, rfl⟩, trivial⟩
  case h_3 =>
    cases hs
    exact ⟨h.quiet ⟨rfl, rfl, rfl⟩, trivial⟩
  case h_4 =>
    obtain ⟨⟨s₁, p'⟩, stepped, same⟩ := Option.map_eq_some_iff.1 hs
    cases same
    exact webhookStep_ok h ok stepped
  case h_5 =>
    cases hs
    refine ⟨h.requeue (fun job => JobQueue.mem_complete) fun signature same => ?_, trivial⟩
    rw [String.append_right_inj] at same
    rw [same]
    exact ok
  case h_6 =>
    cases hs
    exact ⟨h.requeue (fun job => JobQueue.mem_setStatus fun differs => by cases differs)
      fun _ none => none.elim, trivial⟩
  case h_7 =>
    cases hs
    exact ⟨h.requeue (fun job => JobQueue.mem_threw) fun _ none => none.elim, trivial⟩
  case h_8 =>
    obtain ⟨⟨s₁, p'⟩, stepped, same⟩ := Option.map_eq_some_iff.1 hs
    cases same
    exact ticketStep_ok inj h ok stepped
  case h_9 => cases hs

end

/-! ## Runs of the system -/

section

variable {chain : Signature → List String} {parseLogs : List String → List AnchorEvent}
  {keccak256 : String → Bytes32} {adminPublicKey : Wallet} {s s' : System}

theorem System.Inv.initial (h : System.Initial s) : System.Inv chain parseLogs keccak256 s := by
  refine ⟨?_, fun r mem => ?_⟩
  · rw [h.store]
    refine ⟨List.nodup_nil, ?_, ?_, ?_⟩ <;> exact fun _ mem => by cases mem
  · rw [h.noRuns] at mem
    cases mem

/-- The stores step, and every run is an old one or knows what it needs. -/
theorem System.Inv.next (h : System.Inv chain parseLogs keccak256 s)
    (steps : Steps chain parseLogs keccak256 s.store s'.store)
    (runs : ∀ r ∈ s'.runs, r ∈ s.runs ∨ RunOk chain parseLogs keccak256 s'.store r) :
    System.Inv chain parseLogs keccak256 s' :=
  ⟨steps.ok, fun r mem => (runs r mem).elim (fun old => (h.runs r old).mono steps.extended) id⟩

theorem ok_append {store : Store} {runs : List Run} {r q : Run}
    (ok : RunOk chain parseLogs keccak256 store r) (mem : q ∈ runs ++ [r]) :
    q ∈ runs ∨ RunOk chain parseLogs keccak256 store q := by
  refine (List.mem_append.1 mem).imp_right fun new => ?_
  rw [List.mem_singleton.1 new]
  exact ok

theorem ok_set {store : Store} {runs : List Run} {r q : Run} {i : Nat}
    (ok : RunOk chain parseLogs keccak256 store r) (mem : q ∈ runs.set i r) :
    q ∈ runs ∨ RunOk chain parseLogs keccak256 store q := by
  refine (List.mem_or_eq_of_mem_set mem).imp_right fun new => ?_
  rw [new]
  exact ok

/-- A step of the indexer, which adds the job it was about to add. -/
theorem System.poll_cases {a : Action}
    (hs : System.step chain parseLogs keccak256 adminPublicKey s (.poll a) = some s') :
    ∃ indexer, Ingest.step chain s.polled a = some indexer ∧
      s' = { s with indexer := indexer, store := addPolled s.store (pollAdds chain s.indexer a) } := by
  cases a with
  | order signature => cases hs
  | begin =>
    cases hs
    exact ⟨_, rfl, rfl⟩
  | arrive sig | poll i act =>
    obtain ⟨indexer, stepped, hs⟩ := Option.bind_eq_some_iff.1 hs
    cases hs
    exact ⟨indexer, stepped, rfl⟩

theorem StoreOk.addPolled {store : Store} (h : StoreOk chain parseLogs keccak256 store) (indexer : State)
    (a : Action) : Steps chain parseLogs keccak256 store
      (System.addPolled store (System.pollAdds chain indexer a)) := by
  unfold System.addPolled
  split
  · rename_i job added
    refine h.enqueueTicket ?_
    unfold System.pollAdds at added
    split at added
    · split at added
      · cases added
        rfl
      · cases added
    · cases added
  · exact h.quiet (Quiet.refl store)

theorem System.Inv.step (inj : Function.Injective keccak256) {e : Event}
    (h : System.Inv chain parseLogs keccak256 s)
    (hs : System.step chain parseLogs keccak256 adminPublicKey s e = some s') :
    System.Inv chain parseLogs keccak256 s' := by
  have stay := h.store.quiet (Quiet.refl s.store)
  cases e with
  | deliver body =>
    cases hs
    exact h.next stay fun q mem => ok_append (r := .post _) trivial mem
  | expireSeen signature =>
    cases hs
    exact h.next (h.store.quiet ⟨rfl, rfl, rfl⟩) fun r mem => .inl mem
  | startWebhook id =>
    obtain ⟨job, _, hs⟩ := Option.bind_eq_some_iff.1 hs
    cases hs
    exact h.next (h.store.quiet ⟨rfl, rfl, rfl⟩) fun q mem =>
      ok_append (r := .webhook job.data .finding) trivial mem
  | startTicket id =>
    obtain ⟨job, taken, hs⟩ := Option.bind_eq_some_iff.1 hs
    cases hs
    have ok := h.store.jobs job (JobQueue.mem_take taken).1
    have steps : Steps chain parseLogs keccak256 s.store
        { s.store with ticketIngestQueue := JobQueue.setStatus id .active s.store.ticketIngestQueue } :=
      h.store.requeue (fun _ => JobQueue.mem_setStatus fun differs => by cases differs)
        fun _ none => none.elim
    exact h.next steps fun r mem => ok_append (ticketStart_ok _ ok.logs) mem
  | call i call lost =>
    obtain ⟨r, at_i, hs⟩ := Option.bind_eq_some_iff.1 hs
    obtain ⟨⟨store, r'⟩, stepped, hs⟩ := Option.bind_eq_some_iff.1 hs
    cases hs
    obtain ⟨steps, ok⟩ := runStep_ok inj h.store (h.runs r (List.mem_of_getElem? at_i)) stepped
    refine h.next steps fun q mem => ok_set ?_ mem
    split
    · exact RunOk.threw _ _
    · exact ok
  | throw i =>
    obtain ⟨r, _, hs⟩ := Option.bind_eq_some_iff.1 hs
    cases hs
    exact h.next stay fun q mem => ok_set (RunOk.threw _ r) mem
  | crash i =>
    cases hs
    exact h.next stay fun q mem => ok_set (r := .ended) trivial mem
  | webhookUpkeep id act =>
    cases hs
    exact h.next (h.store.quiet ⟨rfl, rfl, rfl⟩) fun r mem => .inl mem
  | ticketUpkeep id act =>
    cases hs
    exact h.next (h.store.requeue (fun _ => JobQueue.mem_upkeep) fun _ none => none.elim)
      fun r mem => .inl mem
  | poll a =>
    obtain ⟨indexer, _, rfl⟩ := System.poll_cases hs
    exact h.next (h.store.addPolled s.indexer a) fun r mem => .inl mem

theorem Recorded.faithful (lengths : ∀ signature, ∀ d ∈ purchasesOf chain parseLogs signature,
      d.tickets_bought = d.tickets_data.length) {store : Store} {o : RelayOrder}
    (h : Recorded chain parseLogs keccak256 store o) : Faithful chain parseLogs store o := by
  obtain ⟨_, p, merged, created, tickets⟩ := h
  obtain ⟨amount, bought, data⟩ := merged_events merged
  have amountUsdc : o.amountUsdc = p.amount_paid := congrArg RelayOrder.amountUsdc created
  have ticketCount : o.ticketCount = p.tickets_bought := congrArg RelayOrder.ticketCount created
  refine ⟨?_, amountUsdc.trans amount, ?_⟩
  · rw [tickets, data]
  · have counted := List.map_congr_left (lengths o.signature)
    calc o.ticketCount
        = ((purchasesOf chain parseLogs o.signature).map (·.tickets_bought)).sum := ticketCount.trans bought
      _ = ((purchasesOf chain parseLogs o.signature).map (·.tickets_data.length)).sum := by rw [counted]
      _ = p.tickets_data.length := by rw [data, List.length_flatMap]
      _ = (store.ticketsOf o.hash).length := by rw [← tickets, List.length_map]

/-- **Ingestion is exactly once**: over any deliveries, polls, retries and crashes there is one order
at most for a signature, it is the sum of the transaction's purchases, and a job completes only behind
an order whose relay job was added. -/
theorem exactly_once (inj : Function.Injective keccak256)
    (lengths : ∀ signature, ∀ d ∈ purchasesOf chain parseLogs signature,
      d.tickets_bought = d.tickets_data.length)
    (h : (System.machine chain parseLogs keccak256 adminPublicKey).Reachable s) :
    ExactlyOnce chain parseLogs s := by
  have inv : System.Inv chain parseLogs keccak256 s := by
    refine h.invariant (fun s (hi : System.Initial s) => System.Inv.initial hi)
      fun _ _ _ inv _ hs => inv.step inj hs
  refine ⟨fun signature => ?_, fun o mem => ?_, fun job mem => ?_, fun signature mem => ?_⟩
  · refine Table.length_filter_le_one inv.store.signatures fun o _ o' _ same same' => ?_
    exact (beq_iff_eq.1 same).trans (beq_iff_eq.1 same').symm
  · exact (inv.store.recorded o mem).faithful lengths
  · exact (inv.store.jobs job mem).completed
  · exact inv.runs _ mem

end

/-! ## Two purchases in one transaction -/

def boughtTwice : Signature := "1111111111111111111111111111111111111111111111111111111111111111"

def buyInstruction (data : String) : List String :=
  ["Program 5M2BS7XuZgFtKWBBGdyNy4g3UkgdMvd7gvaFVvabcGWo invoke [1]",
    "Program log: Instruction: BuyTicket", "Program data: " ++ data,
    "Program 5M2BS7XuZgFtKWBBGdyNy4g3UkgdMvd7gvaFVvabcGWo success"]

def twoInstructions : List String :=
  buyInstruction "ahyrVCd3TvMAAAAAAAAAAAAAAAAAAAAAAAAAAAAAAAAAAAAAAAAAAICEHgAAAAAAAgAAAAIAAAAFAAAAAQIDBAUGBQAAAAcICQoLAgDxU2UAAAAABAAAAAAAAAA=" ++
    buyInstruction "ahyrVCd3TvMAAAAAAAAAAAAAAAAAAAAAAAAAAAAAAAAAAAAAAAAAAEBCDwAAAAAAAQAAAAEAAAAFAAAAAwgNFR4JAPFTZQAAAAAEAAAAAAAAAA=="

def twoEvents : List PurchaseData :=
  [{ buyer := "11111111111111111111111111111111", amount_paid := 2000000, tickets_bought := 2,
     tickets_data := [⟨6, [1, 2, 3, 4, 5]⟩, ⟨2, [7, 8, 9, 10, 11]⟩], timestamp := 1700000000, epoch := 4 },
   { buyer := "11111111111111111111111111111111", amount_paid := 1000000, tickets_bought := 1,
     tickets_data := [⟨9, [3, 8, 13, 21, 30]⟩], timestamp := 1700000000, epoch := 4 }]

/-- What the parser finds in these logs, and nothing in any other. -/
def parseTwo (logs : List String) : List AnchorEvent :=
  if logs = twoInstructions then twoEvents.map fun d => ⟨"TicketPurchaseEvent", d⟩ else []

/-- The hash of the signature; the two are exchanged and everything else is itself. -/
def hashTwo : String → Bytes32 :=
  Equiv.swap boughtTwice "0x01b2a6c0dd38f8fb49ea3594776c584a74321ecebe87a4e885636153c96f79fc"

theorem lengths_parseTwo (signature : Signature) :
    ∀ d ∈ purchasesOf (fun _ => twoInstructions) parseTwo signature,
      d.tickets_bought = d.tickets_data.length := by
  have both : ∀ d ∈ purchaseEvents (parseTwo twoInstructions),
      d.tickets_bought = d.tickets_data.length := by decide +kernel
  exact both

/-- A delivery with a repeated transaction, a poll that finds it too, and two workers at its job. -/
def twoWorkers : List Event :=
  .deliver [⟨some boughtTwice, none⟩, ⟨some boughtTwice, none⟩] ::
  List.replicate 8 (.call 0 .go false) ++
  [.startWebhook ("wh-" ++ boughtTwice), .call 1 .go false, .call 1 (.fetch .full false) false,
    .call 1 .go false, .call 1 .go false, .call 1 .go false] ++
  [.arrive { signature := boughtTwice }, .begin, .poll 0 .list, .poll 0 .check,
    .poll 0 (.fetch .full), .poll 0 .add, .poll 0 .finish].map .poll ++
  [.startTicket ("ticket-" ++ boughtTwice), .ticketUpkeep ("ticket-" ++ boughtTwice) .stall,
    .startTicket ("ticket-" ++ boughtTwice), .call 2 (.create ["t1", "t2", "t3"]) false,
    .call 3 (.create ["t4", "t5", "t6"]) false, .crash 2, .call 3 .go false, .call 3 .go false]

/-- The second worker finds the order there, and its job completes behind one order of three tickets. -/
theorem exactly_once_twoWorkers : ∃ s : System, s.store.db.tickets.length = 3 ∧
    s.store.ticketIngestQueue.any (·.status == .completed) = true ∧
    ExactlyOnce (fun _ => twoInstructions) parseTwo s := by
  obtain ⟨s, hs, hp⟩ := Machine.exists_reachable_of_run
    (M := System.machine (fun _ => twoInstructions) parseTwo hashTwo "admin") (s := {})
    ⟨rfl, List.nodup_nil, rfl, rfl, rfl⟩ twoWorkers
    (fun s => s.store.db.tickets.length == 3 && s.store.ticketIngestQueue.any (·.status == .completed))
    (by decide +kernel)
  rw [Bool.and_eq_true, beq_iff_eq] at hp
  exact ⟨s, hp.1, hp.2, exactly_once (Equiv.injective _) lengths_parseTwo hs⟩

end LordsPot.Ingest
