import LordsPot.Ingest.ExactlyOnce

/-!
# The rows as they were created

Of an order and its tickets ingestion reads only what it has written itself: the other workers may
make of the other columns what they like. Seen through `Db.created`, which takes every column back to
what `ticketWorker` created, a step is the same step.
-/

namespace LordsPot

def RelayOrder.created (o : RelayOrder) : RelayOrder where
  hash := o.hash
  signature := o.signature
  buyer := o.buyer
  purchaseEpoch := o.purchaseEpoch
  amountUsdc := o.amountUsdc
  ticketCount := o.ticketCount
  lastBought := o.lastBought
  status := .QUEUED

def Ticket.created (t : Ticket) : Ticket where
  id := t.id
  orderHash := t.orderHash
  bonusBall := t.bonusBall
  normalBalls := t.normalBalls

/-- The orders and tickets of the database as `ticketWorker` created them. -/
def Db.created (db : Db) : Db where
  relayOrders := db.relayOrders.map (·.created)
  tickets := db.tickets.map (·.created)

namespace Ingest

def Store.created (s : Store) : Store := { s with db := s.db.created }

def System.created (s : System) : System := { s with store := s.store.created }

section

variable {chain : Signature → List String} {parseLogs : List String → List AnchorEvent}
  {keccak256 : String → Bytes32} {adminPublicKey : Wallet}

section Store

variable {s s' : Store} {signature : Signature} {call : Call}

theorem created_enqueueWebhook (fresh : List Signature) :
    fresh.foldl Store.enqueueWebhook s.created = (fresh.foldl Store.enqueueWebhook s).created := by
  induction fresh generalizing s with
  | nil => rfl
  | cons signature fresh ih => exact ih (s := s.enqueueWebhook signature)

theorem created_postStep {p p' : PostPhase} (hs : postStep adminPublicKey s p call = some (s', p')) :
    postStep adminPublicKey s.created p call = some (s'.created, p') := by
  unfold postStep at hs
  split at hs
  case h_1 tx todo fresh =>
    cases named : tx.signature with
    | none =>
      rw [named] at hs
      cases hs
      simp only [postStep, named]
    | some signature =>
      simp only [named] at hs
      have same : passesOver adminPublicKey s.created tx signature = passesOver adminPublicKey s tx signature :=
        rfl
      simp only [postStep, named, same]
      split at hs <;> cases hs <;> rename_i passed <;> simp only [passed] <;> rfl
  case h_5 => cases hs; simp only [postStep, created_enqueueWebhook]
  case h_9 => cases hs
  all_goals
    cases hs
    rfl

theorem created_updateThen {γ : Type} {status : WebhookStatus} {error : Option String}
    {next thrown went : γ}
    (hs : updateThen s (s.updateInbox signature status error) next thrown = (s', went)) :
    updateThen s.created (s.created.updateInbox signature status error) next thrown =
      (s'.created, went) := by
  have same : s.created.updateInbox signature status error =
      (s.updateInbox signature status error).map Store.created := by
    unfold Store.updateInbox
    rw [apply_ite (Option.map Store.created)]
    rfl
  rw [same]
  unfold updateThen at hs ⊢
  split at hs <;> cases hs <;> rename_i updated <;> rw [updated] <;> rfl

theorem created_webhookStep {p p' : WebhookPhase}
    (hs : webhookStep chain s signature p call = some (s', p')) :
    webhookStep chain s.created signature p call = some (s'.created, p') := by
  unfold webhookStep at hs
  split at hs
  case h_1 =>
    have same : s.created.inbox = s.inbox := rfl
    split at hs <;> cases hs <;> rename_i found <;> simp only [webhookStep, same, found]
  case h_2 answer err =>
    simp only [webhookStep]
    split at hs
    · rename_i unknown
      cases hs
      rw [if_pos unknown]
    · rename_i known
      rw [if_neg known]
      split at hs
      · rename_i failed
        cases hs
        rw [if_pos failed]
      · rename_i fine
        cases hs
        rw [if_neg fine]
  case h_3 | h_5 =>
    simp only [webhookStep, created_updateThen (Option.some.inj hs)]
  case h_4 => cases hs; rfl
  case h_6 => cases hs

theorem created_createOrder (p : Purchase) (ids : List Uuid) :
    createOrder keccak256 s.created p signature ids =
      (createOrder keccak256 s p signature ids).map Store.created := by
  have same : (s.created.db.relayOrders.any fun o => o.hash == keccak256 signature || o.signature == signature) =
      s.db.relayOrders.any fun o => o.hash == keccak256 signature || o.signature == signature := by
    exact List.any_map
  have rows : (p.rows (keccak256 signature) ids).map Ticket.created = p.rows (keccak256 signature) ids := by
    rw [Purchase.rows, List.map_zipWith]
    rfl
  simp only [createOrder, same]
  split
  · rfl
  · simp only [Option.map_some, Store.created, Db.created, List.map_append, rows]
    rfl

theorem created_freshIds (ids : List Uuid) (n : Nat) :
    freshIds s.created.db.tickets ids n = freshIds s.db.tickets ids n := by
  have same : ∀ id, (s.created.db.tickets.any (·.id == id)) = s.db.tickets.any (·.id == id) :=
    fun _ => List.any_map
  simp only [freshIds, same]

theorem created_ticketStep {p p' : TicketPhase}
    (hs : ticketStep keccak256 s signature p call = some (s', p')) :
    ticketStep keccak256 s.created signature p call = some (s'.created, p') := by
  unfold ticketStep at hs
  split at hs
  case h_1 => simp only [ticketStep, created_updateThen (Option.some.inj hs)]
  case h_2 p ids =>
    simp only [ticketStep, created_freshIds, created_createOrder]
    split at hs
    · rename_i fresh
      rw [if_pos fresh]
      split at hs
      · rename_i unreadable
        cases hs
        rw [if_pos unreadable]
      · rename_i readable
        rw [if_neg readable]
        unfold updateThen at hs ⊢
        split at hs <;> cases hs <;> rename_i created <;> rw [created] <;> rfl
    · cases hs
  case h_3 => cases hs; rfl
  case h_4 => cases hs

theorem created_runStep {r r' : Run}
    (hs : runStep chain keccak256 adminPublicKey s r call = some (s', r')) :
    runStep chain keccak256 adminPublicKey s.created r call = some (s'.created, r') := by
  unfold runStep at hs
  split at hs
  case h_1 =>
    obtain ⟨⟨s₁, p'⟩, stepped, same⟩ := Option.map_eq_some_iff.1 hs
    cases same
    simp only [runStep, created_postStep stepped, Option.map_some]
  case h_4 =>
    obtain ⟨⟨s₁, p'⟩, stepped, same⟩ := Option.map_eq_some_iff.1 hs
    cases same
    simp only [runStep, created_webhookStep stepped, Option.map_some]
  case h_8 =>
    obtain ⟨⟨s₁, p'⟩, stepped, same⟩ := Option.map_eq_some_iff.1 hs
    cases same
    simp only [runStep, created_ticketStep stepped, Option.map_some]
  case h_9 => cases hs
  all_goals
    cases hs
    rfl

/-- The orders and tickets are as they were, unless the call is that of a job that creates an order. -/
theorem db_runStep {r r' : Run} (hs : runStep chain keccak256 adminPublicKey s r call = some (s', r')) :
    s'.db = s.db ∨ ∃ signature p ids, r = .ticket signature (.creating p) ∧ call = .create ids ∧
      freshIds s.db.tickets ids p.tickets_data.length = true ∧
        createOrder keccak256 s p signature ids = some s' := by
  unfold runStep at hs
  split at hs
  case h_1 =>
    obtain ⟨⟨s₁, p'⟩, stepped, same⟩ := Option.map_eq_some_iff.1 hs
    cases same
    exact .inl (quiet_postStep stepped).db
  case h_4 =>
    obtain ⟨⟨s₁, p'⟩, stepped, same⟩ := Option.map_eq_some_iff.1 hs
    cases same
    unfold webhookStep at stepped
    split at stepped
    case h_1 => split at stepped <;> cases stepped <;> exact .inl rfl
    case h_2 =>
      split at stepped
      · cases stepped
        exact .inl rfl
      · split at stepped <;> cases stepped <;> exact .inl rfl
    case h_3 | h_5 => exact .inl (quiet_updateThen (Option.some.inj stepped)).1.db
    case h_4 => cases stepped; exact .inl rfl
    case h_6 => cases stepped
  case h_8 =>
    obtain ⟨⟨s₁, p'⟩, stepped, same⟩ := Option.map_eq_some_iff.1 hs
    cases same
    unfold ticketStep at stepped
    split at stepped
    case h_1 => exact .inl (quiet_updateThen (Option.some.inj stepped)).1.db
    case h_2 =>
      split at stepped
      · rename_i fresh
        split at stepped
        · cases stepped
          exact .inl rfl
        · unfold updateThen at stepped
          split at stepped <;> cases stepped <;> rename_i created
          · exact .inr ⟨_, _, _, rfl, rfl, fresh, created⟩
          · exact .inl rfl
      · cases stepped
    case h_3 => cases stepped; exact .inl rfl
    case h_4 => cases stepped
  case h_9 => cases hs
  all_goals
    cases hs
    exact .inl rfl

theorem ids_rows {p : Purchase} {hash : Bytes32} {ids : List Uuid}
    (one : ids.length = p.tickets_data.length) : (p.rows hash ids).map (·.id) = ids := by
  unfold Purchase.rows
  generalize p.tickets_data = data at one
  induction ids generalizing data with
  | nil => rfl
  | cons id ids ih =>
    cases data with
    | nil => cases one
    | cons d data => exact congrArg (id :: ·) (ih data (Nat.succ.inj one))

/-- The ids of new rows are new. -/
theorem nodup_rows {tickets : List Ticket} {p : Purchase} (hash : Bytes32) {ids : List Uuid}
    (unique : (tickets.map (·.id)).Nodup) (fresh : freshIds tickets ids p.tickets_data.length = true) :
    (p.rows hash ids).map (·.id) = ids ∧ ((tickets ++ p.rows hash ids).map (·.id)).Nodup := by
  simp only [freshIds, Bool.and_eq_true, beq_iff_eq, decide_eq_true_eq] at fresh
  obtain ⟨⟨one, distinct⟩, apart⟩ := fresh
  refine ⟨ids_rows one, ?_⟩
  rw [List.map_append, ids_rows one]
  refine List.nodup_append.2 ⟨unique, distinct, ?_⟩
  rintro _ old id new rfl
  obtain ⟨t, ht, rfl⟩ := List.mem_map.1 old
  have free := List.all_eq_true.1 apart _ new
  rw [Bool.not_eq_true', List.any_eq_false] at free
  exact free t ht (beq_self_eq_true _)

end Store

section System

variable {s s' : System}

theorem created_addPolled (store : Store) (job : Option TicketJob) :
    System.addPolled store.created job = (System.addPolled store job).created := by
  cases job <;> rfl

/-- The indexer asks which signatures have orders. -/
theorem created_polled (s : System) : s.created.polled = s.polled := by
  simp only [System.polled, System.created, Store.created, Db.created, List.map_map]
  rfl

/-- **The erasure rule**: a step of ingestion is a step on the rows as they were created. -/
theorem System.created_step {e : Event}
    (hs : System.step chain parseLogs keccak256 adminPublicKey s e = some s') :
    System.step chain parseLogs keccak256 adminPublicKey s.created e = some s'.created := by
  cases e with
  | startWebhook id | startTicket id =>
    obtain ⟨job, taken, hs⟩ := Option.bind_eq_some_iff.1 hs
    cases hs
    exact Option.bind_eq_some_iff.2 ⟨job, taken, rfl⟩
  | call i call lost =>
    obtain ⟨r, here, hs⟩ := Option.bind_eq_some_iff.1 hs
    obtain ⟨⟨store, r'⟩, stepped, hs⟩ := Option.bind_eq_some_iff.1 hs
    cases hs
    exact Option.bind_eq_some_iff.2 ⟨r, here, Option.bind_eq_some_iff.2
      ⟨(store.created, r'), created_runStep stepped, rfl⟩⟩
  | throw i =>
    obtain ⟨r, here, hs⟩ := Option.bind_eq_some_iff.1 hs
    cases hs
    exact Option.bind_eq_some_iff.2 ⟨r, here, rfl⟩
  | poll a =>
    obtain ⟨indexer, stepped, rfl⟩ := System.poll_cases hs
    rw [← created_polled] at stepped
    cases a with
    | order signature => cases hs
    | begin =>
      cases stepped
      rfl
    | arrive sig | poll i act =>
      refine Option.bind_eq_some_iff.2 ⟨indexer, stepped, congrArg some ?_⟩
      exact congrArg (fun store => System.mk store indexer s.runs) (created_addPolled ..)
  | deliver | expireSeen | crash | webhookUpkeep | ticketUpkeep => cases hs; rfl

theorem System.db_step {e : Event}
    (hs : System.step chain parseLogs keccak256 adminPublicKey s e = some s') :
    s'.store.db = s.store.db ∨ ∃ i lost signature p ids, e = .call i (.create ids) lost ∧
      s.runs[i]? = some (.ticket signature (.creating p)) ∧
        freshIds s.store.db.tickets ids p.tickets_data.length = true ∧
          createOrder keccak256 s.store p signature ids = some s'.store := by
  cases e with
  | startWebhook id | startTicket id =>
    obtain ⟨job, taken, hs⟩ := Option.bind_eq_some_iff.1 hs
    cases hs
    exact .inl rfl
  | call i call lost =>
    obtain ⟨r, here, hs⟩ := Option.bind_eq_some_iff.1 hs
    obtain ⟨⟨store, r'⟩, stepped, hs⟩ := Option.bind_eq_some_iff.1 hs
    cases hs
    rcases db_runStep stepped with same | ⟨signature, p, ids, rfl, rfl, fresh, created⟩
    · exact .inl same
    · exact .inr ⟨i, lost, signature, p, ids, rfl, here, fresh, created⟩
  | throw i =>
    obtain ⟨r, here, hs⟩ := Option.bind_eq_some_iff.1 hs
    cases hs
    exact .inl rfl
  | poll a =>
    obtain ⟨indexer, stepped, rfl⟩ := System.poll_cases hs
    refine .inl ?_
    unfold addPolled
    split <;> rfl
  | deliver | expireSeen | crash | webhookUpkeep | ticketUpkeep => cases hs; exact .inl rfl

end System

end

end Ingest

end LordsPot
