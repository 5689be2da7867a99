import LordsPot.Payout.Tickets
import LordsPot.Reveal.Hide

/-!
# Answers from the hidden database

One lemma for each route: it answers from the hidden database as from the database itself. The
three gates see to it for what they guard. The sums that are not gated rest on what can be bound to
a claim and paid out.
-/

namespace LordsPot.Reveal

section Protocol

variable {db : Db} {now : Nat}

theorem getEpochs_hide (limit cursor : Int) :
    getEpochs (hide now db) now limit cursor = getEpochs db now limit cursor := by
  have rows := filter_hide_epochs db now
    fun n => cursor == 0 || decide ((n : Int) < cursor)
  simp only [getEpochs, rows]

/-- No unrevealed ticket is of a revealed epoch. -/
theorem orderOfEpoch_of_hidden {n : Nat} (revealed : n ∈ getRevealedEpochIds db now) {t : Ticket}
    (hidden : revealedTicket db now t ≠ true) :
    orderOfEpoch db n t = none ∧ orderOfEpoch db n (hideTicket db now t) = none := by
  obtain ⟨o, m, order, epoch, unrevealed⟩ := epoch_of_hidden hidden
  have other : m ≠ n := by
    rintro rfl
    exact unrevealed revealed
  constructor
  · simp [orderOfEpoch, order, epoch, other]
  · simp [orderOfEpoch, order, epoch, other]

theorem getWinners_hide (localeCompare : Wallet → Wallet → Ordering) (megapotId : Option Int)
    (limit offset : Int) : getWinners localeCompare (hide now db) now megapotId limit offset =
      getWinners localeCompare db now megapotId limit offset := by
  cases megapotId with
  | none => rfl
  | some n =>
    cases n with
    | negSucc n => rfl
    | ofNat n =>
      simp only [getWinners, isEpochRevealed_hide, orderOfEpoch_hide]
      by_cases gate : isEpochRevealed db now n = true
      · have rows : (hide now db).tickets.filterMap (fun t =>
              if WINNING_STATUSES.contains t.winStatus then
                (orderOfEpoch db n t).map fun o => (o.buyer, t.winAmount)
              else none) =
            db.tickets.filterMap fun t => if WINNING_STATUSES.contains t.winStatus then
              (orderOfEpoch db n t).map fun o => (o.buyer, t.winAmount) else none := by
          rw [hide_tickets, List.filterMap_map]
          refine List.filterMap_congr fun t _ => ?_
          rw [Function.comp_apply]
          by_cases revealed : revealedTicket db now t = true
          · rw [hideTicket_of_revealed revealed]
          · obtain ⟨before, after⟩ := orderOfEpoch_of_hidden (mem_of_isEpochRevealed gate) revealed
            rw [before, after]
            simp
        simp only [rows]
      · simp only [gate]
        rfl

theorem getWinnersOfBuyer_hide (idLe : Uuid → Uuid → Bool) (megapotId : Option Int)
    (buyer : Option Wallet) : getWinnersOfBuyer idLe (hide now db) now megapotId buyer =
      getWinnersOfBuyer idLe db now megapotId buyer := by
  cases megapotId with
  | none => rfl
  | some n =>
    cases n with
    | negSucc n => rfl
    | ofNat n =>
      simp only [getWinnersOfBuyer, isEpochRevealed_hide, orderOfEpoch_hide]
      by_cases gate : isEpochRevealed db now n = true
      · cases buyer with
        | none => rfl
        | some buyer =>
          have rows : (hide now db).tickets.filter (fun t => (orderOfEpoch db n t).any (·.buyer == buyer)) =
              db.tickets.filter fun t => (orderOfEpoch db n t).any (·.buyer == buyer) := by
            refine filter_hide_tickets fun t _ hidden => ?_
            obtain ⟨before, after⟩ := orderOfEpoch_of_hidden (mem_of_isEpochRevealed gate) hidden
            rw [before, after]
            exact ⟨rfl, rfl⟩
          simp only [rows]
      · simp only [gate]
        rfl

/-! ## `GET /tickets` -/

theorem revealedTicket_of_order (now : Nat) {o : RelayOrder} {t : Ticket} (order : db.relayOrder? t = some o) :
    revealedTicket db now t = o.fulfillEpoch.all (getRevealedEpochIds db now).contains := by
  rw [revealedTicket, ticketEpoch, order, Option.bind_some]

/-- A revealed epoch's row is not hidden. -/
theorem hideEpoch_of_mem (unique : (db.megapotEpochs.map (·.megapotId)).Nodup) {e : MegapotEpoch}
    (he : e ∈ db.megapotEpochs) (revealed : e.megapotId ∈ getRevealedEpochIds db now) :
    hideEpoch now e = e := by
  obtain ⟨e', he', id, passed⟩ := mem_getRevealedEpochIds.1 revealed
  obtain rfl : e' = e := List.inj_on_of_nodup_map unique he' he id
  exact if_pos passed

/-- One entry from hidden rows. -/
theorem ticketEntry_hide (unique : (db.megapotEpochs.map (·.megapotId)).Nodup)
    {epochs : List MegapotEpoch} (sub : ∀ e ∈ epochs, e ∈ db.megapotEpochs) {o : RelayOrder} {t : Ticket}
    (order : db.relayOrder? t = some o) :
    ticketEntry (fun n => Table.findUnique MegapotEpoch.megapotId n (epochs.map (hideEpoch now)))
        (getRevealedEpochIds db now) (o, hideTicket db now t) =
      ticketEntry (fun n => Table.findUnique MegapotEpoch.megapotId n epochs)
        (getRevealedEpochIds db now) (o, t) := by
  have gate := revealedTicket_of_order now order
  simp only [Table.findUnique_map hideEpoch_megapotId]
  by_cases revealed : revealedTicket db now t = true
  · rw [hideTicket_of_revealed revealed]
    have same : o.fulfillEpoch.bind (fun n =>
          (Table.findUnique MegapotEpoch.megapotId n epochs).map (hideEpoch now)) =
        o.fulfillEpoch.bind fun n => Table.findUnique MegapotEpoch.megapotId n epochs := by
      cases epoch : o.fulfillEpoch with
      | none => rfl
      | some n =>
        rw [Option.bind_some, Option.bind_some]
        cases found : Table.findUnique MegapotEpoch.megapotId n epochs with
        | none => rfl
        | some e =>
          have id := Table.key_of_findUnique found
          rw [Option.map_some, hideEpoch_of_mem unique (sub e (Table.mem_of_findUnique found))]
          rw [id]
          rw [gate, epoch] at revealed
          simpa using revealed
    simp only [ticketEntry, same]
  · have ended : ∀ n, ((Table.findUnique MegapotEpoch.megapotId n epochs).map (hideEpoch now)).bind
          (·.endedAt) = (Table.findUnique MegapotEpoch.megapotId n epochs).bind (·.endedAt) := by
      intro n
      cases Table.findUnique MegapotEpoch.megapotId n epochs with
      | none => rfl
      | some e => exact hideEpoch_endedAt e
    rw [gate] at revealed
    have hidden : hideTicket db now t = { t with
        winStatus := .DRAW_PENDING, winAmount := 0, isFreeTicketTier := false
        harvestBatchId := none } := if_neg (by rw [gate]; exact revealed)
    simp only [ticketEntry, revealed, hidden, Option.bind_assoc, ended]
    rfl

/-- The order of a row is its ticket's. -/
theorem order_of_ownTicket {wallet : Wallet} {t : Ticket} {row : RelayOrder × Ticket}
    (h : ownTicket db wallet t = some row) : row.2 = t ∧ db.relayOrder? t = some row.1 := by
  obtain ⟨o, ho, rfl⟩ := Option.map_eq_some_iff.1 h
  exact ⟨rfl, (Option.filter_eq_some_iff.1 ho).1⟩

theorem ownTickets_hide (wallet : Wallet) :
    (hide now db).tickets.filterMap (ownTicket (hide now db) wallet) =
      (db.tickets.filterMap (ownTicket db wallet)).map fun row => (row.1, hideTicket db now row.2) := by
  rw [hide_tickets, List.filterMap_map, List.map_filterMap]
  refine List.filterMap_congr fun t _ => ?_
  simp only [Function.comp_apply, ownTicket, relayOrder?_hide, relayOrder?_hideTicket, Option.map_map]
  rfl

/-- The order of the page does not read what is hidden. -/
theorem ticketPage_hide (idLe : Uuid → Uuid → Bool) (own : List (RelayOrder × Ticket))
    (limit offset : Int) :
    ticketPage idLe (own.map fun row => (row.1, hideTicket db now row.2)) limit offset =
      (ticketPage idLe own limit offset).map fun row => (row.1, hideTicket db now row.2) := by
  rw [ticketPage, ticketPage, List.map_take, List.map_drop]
  congr 2
  refine (List.map_insertionSort _ _ _ _ fun r _ r' _ => ?_).symm
  simp only [hideTicket_id]

theorem mem_of_ticketPage {idLe : Uuid → Uuid → Bool} {own : List (RelayOrder × Ticket)}
    {limit offset : Int} {row : RelayOrder × Ticket} (h : row ∈ ticketPage idLe own limit offset) :
    row ∈ own :=
  (List.mem_insertionSort _).1 (List.mem_of_mem_drop (List.mem_of_mem_take h))

theorem epochsOf_hide (tickets : List (RelayOrder × Ticket)) :
    epochsOf (hide now db) (tickets.map fun row => (row.1, hideTicket db now row.2)) =
      (epochsOf db tickets).map (hideEpoch now) := by
  simp only [epochsOf, List.filterMap_map, Function.comp_def]
  split
  · rfl
  · rw [hide, List.filter_map]
    congr 2
    funext e
    simp

theorem mem_of_epochsOf {tickets : List (RelayOrder × Ticket)} {e : MegapotEpoch}
    (h : e ∈ epochsOf db tickets) : e ∈ db.megapotEpochs := by
  simp only [epochsOf] at h
  split at h
  · cases h
  · exact (List.mem_filter.1 h).1

theorem getTickets_hide (unique : (db.megapotEpochs.map (·.megapotId)).Nodup)
    (idLe : Uuid → Uuid → Bool) (wallet : Option Wallet) (limit offset : Int) :
    getTickets idLe (hide now db) now wallet limit offset =
      getTickets idLe db now wallet limit offset := by
  cases wallet with
  | none => rfl
  | some wallet =>
    simp only [getTickets, ownTickets_hide, getRevealedEpochIds_hide, ticketPage_hide, epochsOf_hide,
      List.length_map, List.map_map]
    congr 1
    refine List.map_congr_left fun row hr => ?_
    obtain ⟨t, -, own⟩ := List.mem_filterMap.1 (mem_of_ticketPage hr)
    obtain ⟨rfl, order⟩ := order_of_ownTicket own
    exact ticketEntry_hide unique (fun _ => mem_of_epochsOf) order

end Protocol

/-! ## `GET /summary` -/

section Claims

variable {db : Db} {now : Nat}

/-- No unrevealed ticket can be claimed. -/
theorem claimable_of_hidden {w : Wallet} {epochs : List Nat}
    (revealed : ∀ n ∈ epochs, n ∈ getRevealedEpochIds db now) {t : Ticket}
    (hidden : revealedTicket db now t ≠ true) :
    Payout.claimable db w epochs t = false ∧
      Payout.claimable db w epochs (hideTicket db now t) = false := by
  obtain ⟨o, n, order, epoch, unrevealed⟩ := epoch_of_hidden hidden
  have other : n ∉ epochs := fun mem => unrevealed (revealed n mem)
  constructor
  · simp [Payout.claimable, order, epoch, other]
  · simp [Payout.claimable, order, epoch, other]

theorem getSummary_hide (bound : BoundRevealed db now) (wallet : Option Wallet) :
    getSummary (hide now db) now wallet = getSummary db now wallet := by
  cases wallet with
  | none => rfl
  | some wallet =>
    have cash : (hide now db).tickets.filter
          (Payout.claimable db wallet (getRevealedEpochIds db now)) =
        db.tickets.filter (Payout.claimable db wallet (getRevealedEpochIds db now)) :=
      filter_hide_tickets fun t _ hidden => claimable_of_hidden (fun _ mem => mem) hidden
    have freeTickets : (hide now db).tickets.filter (fun t => t.winStatus == .CLAIMED_ON_BASE &&
          t.isFreeTicketTier && (db.relayOrder? t).any fun o =>
            o.buyer == wallet && o.fulfillEpoch.any (getRevealedEpochIds db now).contains) =
        db.tickets.filter fun t => t.winStatus == .CLAIMED_ON_BASE && t.isFreeTicketTier &&
          (db.relayOrder? t).any fun o =>
            o.buyer == wallet && o.fulfillEpoch.any (getRevealedEpochIds db now).contains := by
      refine filter_hide_tickets fun t _ hidden => ?_
      obtain ⟨o, n, order, epoch, unrevealed⟩ := epoch_of_hidden hidden
      constructor
      · simp [order, epoch, unrevealed]
      · simp [order, epoch, unrevealed]
    have paidOut : (hide now db).tickets.filter (fun t => t.winStatus == .PAID_OUT_ON_SOLANA &&
          (db.relayOrder? t).any (·.buyer == wallet)) =
        db.tickets.filter fun t => t.winStatus == .PAID_OUT_ON_SOLANA &&
          (db.relayOrder? t).any (·.buyer == wallet) := by
      -- not gated: it rests on what is paid out
      refine filter_hide_tickets fun t ht hidden => ⟨?_, ?_⟩
      · have unpaid : t.winStatus ≠ .PAID_OUT_ON_SOLANA := fun paid => hidden (bound t ht (.inr paid))
        simp [unpaid]
      · simp [hideTicket_winStatus_of_hidden hidden]
    have claims : Payout.claimable (hide now db) wallet (getRevealedEpochIds db now) =
        Payout.claimable db wallet (getRevealedEpochIds db now) := rfl
    simp only [getSummary, getRevealedEpochIds_hide, Table.sumWhere, claims, relayOrder?_hide, cash,
      freeTickets, paidOut]
    rfl

/-! ## `POST /voucher` -/

/-- A handler binds by revealed epochs only. -/
def Known (db : Db) (now : Nat) (r : Payout.Request) : Prop :=
  ∀ epochs, r.epochs? = some epochs → ∀ n ∈ epochs, n ∈ getRevealedEpochIds db now

theorem hideTicket_bind (t : Ticket) (claim : Option Uuid) :
    hideTicket db now { t with payoutClaimId := claim } =
      { hideTicket db now t with payoutClaimId := claim } := by
  have gate : revealedTicket db now { t with payoutClaimId := claim } = revealedTicket db now t := rfl
  rw [hideTicket, hideTicket, gate]
  split <;> rfl

/-- A binding of tickets and hiding commute. -/
theorem map_hideTicket_bind (db : Db) (now : Nat) (claim : Option Uuid) {p : Ticket → Bool}
    (agree : ∀ t, p (hideTicket db now t) = p t) :
    (Table.updateMany p (fun t => { t with payoutClaimId := claim }) db.tickets).map
        (hideTicket db now) =
      Table.updateMany p (fun t => { t with payoutClaimId := claim })
        (db.tickets.map (hideTicket db now)) := by
  rw [Table.updateMany, Table.updateMany, List.map_map, List.map_map]
  refine List.map_congr_left fun t _ => ?_
  simp only [Function.comp_apply, agree]
  split
  · exact hideTicket_bind t claim
  · rfl

theorem boundTo_hideTicket (k : Uuid) (t : Ticket) :
    Payout.boundTo k (hideTicket db now t) = Payout.boundTo k t := by
  rw [Payout.boundTo, hideTicket_payoutClaimId, Payout.boundTo]

theorem hide_bindTickets {w : Wallet} {k : Uuid} {epochs : List Nat}
    (revealed : ∀ n ∈ epochs, n ∈ getRevealedEpochIds db now) :
    hide now (Payout.bindTickets db w epochs k) = Payout.bindTickets (hide now db) w epochs k := by
  have agree : ∀ t, Payout.claimable db w epochs (hideTicket db now t) =
      Payout.claimable db w epochs t := by
    intro t
    by_cases known : revealedTicket db now t = true
    · rw [hideTicket_of_revealed known]
    · obtain ⟨before, after⟩ := claimable_of_hidden (w := w) revealed known
      rw [before, after]
  have rows := map_hideTicket_bind db now (some k) agree
  exact congrArg (fun rows => { hide now db with tickets := rows }) rows

theorem hide_unbindTickets (k : Uuid) :
    hide now (Payout.unbindTickets db k) = Payout.unbindTickets (hide now db) k := by
  have rows := map_hideTicket_bind db now none (boundTo_hideTicket k)
  exact congrArg (fun rows => { hide now db with tickets := rows }) rows

/-- What is bound is revealed, so its sum is not hidden. -/
theorem filter_hide_bound (bound : BoundRevealed db now) (k : Uuid) :
    (hide now db).tickets.filter (Payout.boundTo k) = db.tickets.filter (Payout.boundTo k) := by
  refine filter_hide_tickets fun t ht hidden => ?_
  have free : Payout.boundTo k t = false := by
    by_contra held
    rw [Bool.not_eq_false, Payout.boundTo_eq_true] at held
    refine hidden (bound t ht (.inl ?_))
    rw [held]
    exact Option.some_ne_none k
  exact ⟨free, by rw [boundTo_hideTicket, free]⟩

section Handler

variable {program : Payout.Program} {adminKey : Wallet} {r r' : Payout.Request} {act : Payout.RouteAct}

/-- A handler's step on the hidden database. -/
theorem routeStep_hide (bound : BoundRevealed db now) (known : Known db now r) :
    Payout.routeStep now program adminKey (hide now db) r act =
      (Payout.routeStep now program adminKey db r act).map fun next =>
        (hide now next.1, next.2.1, next.2.2) := by
  unfold Payout.routeStep
  split
  case h_1 => rfl
  case h_2 w =>
    have same : Payout.findExisting (hide now db) w = Payout.findExisting db w := rfl
    rw [same]
    cases Payout.findExisting db w <;> rfl
  case h_3 => rw [getRevealedEpochIds_hide]; rfl
  case h_4 w epochs id =>
    show (if db.claim? id = none then _ else _) = _
    split <;> rfl
  case h_5 w k epochs =>
    rw [← hide_bindTickets (known epochs rfl)]
    rfl
  case h_6 w k =>
    rw [Payout.boundSum, Payout.boundIds, Table.sumWhere, filter_hide_bound bound]
    show (if Payout.boundSum db k = 0 then _ else _) = _
    split <;> rfl
  case h_7 =>
    split
    · split <;> rfl
    · rfl
  case h_8 => split <;> rfl
  case h_9 => split <;> rfl
  case h_10 => rfl
  case h_11 k status => rw [← hide_unbindTickets]; rfl
  case h_12 k status =>
    rw [Payout.deleteClaim, ← hide_unbindTickets]
    rfl
  case h_13 => rfl
  case h_14 => rfl

theorem response_hide : response (hide now db) r act = response db r act := rfl

theorem revealedTicket_congr {db' : Db} (orders : db'.relayOrders = db.relayOrders)
    (epochs : db'.megapotEpochs = db.megapotEpochs) {t t' : Ticket} (order : t'.orderHash = t.orderHash) :
    revealedTicket db' now t' = revealedTicket db now t := by
  rw [revealedTicket, ticketEpoch, Db.relayOrder?, Db.order?, orders, order, getRevealedEpochIds, epochs]
  rfl

/-- Handlers bind revealed tickets only, and the confirmer pays out bound ones. -/
theorem BoundRevealed.written {s : Payout.State} {db' : Db} (h : BoundRevealed s.db now)
    (known : ∀ r ∈ s.requests, Known s.db now r) (written : Payout.Written s db') :
    BoundRevealed db' now := by
  intro t' ht' held
  have later : ∀ t, t'.orderHash = t.orderHash → revealedTicket s.db now t = true →
      revealedTicket db' now t' = true := fun t order revealed =>
    (revealedTicket_congr written.orders written.epochs order).trans revealed
  have write := written.tickets
  generalize db'.tickets = rows at write ht'
  cases write with
  | nothing => exact later t' rfl (h t' ht' held)
  | bind handler =>
    rename_i i w k epochs
    obtain ⟨t, ht, row⟩ := Table.mem_updateMany.1 ht'
    refine later t (by rw [← row]; split <;> rfl) ?_
    rw [← row] at held
    split at held
    · rename_i taken
      by_contra hidden
      have revealed := known _ (List.mem_of_getElem? handler) epochs rfl
      rw [(claimable_of_hidden revealed hidden).1] at taken
      cases taken
    · exact h t ht held
  | unbind =>
    obtain ⟨t, ht, row⟩ := Table.mem_updateMany.1 ht'
    refine later t (by rw [← row]; split <;> rfl) (h t ht ?_)
    rw [← row] at held
    split at held
    · exact .inr (held.resolve_left fun bound => bound rfl)
    · exact held
  | payOut =>
    rename_i k
    obtain ⟨t, ht, row⟩ := Table.mem_updateMany.1 ht'
    refine later t (by rw [← row]; split <;> rfl) (h t ht ?_)
    rw [← row] at held
    split at held
    · rename_i due
      rw [Bool.and_eq_true, Payout.boundTo_eq_true] at due
      rw [due.1]
      exact .inl (Option.some_ne_none k)
    · exact held

theorem Known.routeStep {db' : Db} {handed : Option Payout.Voucher} (h : Known db now r)
    (hs : Payout.routeStep now program adminKey db r act = some (db', r', handed))
    (epochs : db'.megapotEpochs = db.megapotEpochs) : Known db' now r' := by
  intro ids held n hn
  rw [getRevealedEpochIds, epochs]
  rcases Payout.routeStep_epochs hs held with old | rfl
  · exact h ids old n hn
  · exact hn

/-- A handler run with nothing in between. -/
theorem serve_hide {acts : List Payout.RouteAct} (bound : BoundRevealed db now)
    (known : Known db now r) :
    serve now program adminKey (hide now db) r acts = serve now program adminKey db r acts := by
  induction acts generalizing db r with
  | nil => rfl
  | cons act acts ih =>
    rw [serve, serve, routeStep_hide bound known, response_hide]
    cases hs : Payout.routeStep now program adminKey db r act with
    | none => rfl
    | some next =>
      obtain ⟨db', r', handed⟩ := next
      let alone : Payout.State :=
        { now := now, height := 0, program := program, adminKey := adminKey, db := db, requests := [r] }
      have written : Payout.Written alone db' := Payout.routeStep_written (s := alone) (i := 0) rfl hs
      have only : ∀ x ∈ alone.requests, Known alone.db now x := by
        intro x hx
        rw [List.mem_singleton.1 hx]
        exact known
      have bound' : BoundRevealed db' now := BoundRevealed.written (s := alone) bound only written
      rw [Option.map_some, Option.bind_some, Option.bind_some,
        ih bound' (known.routeStep hs written.epochs)]

end Handler

theorem postVoucher_hide {program : Payout.Program} {adminKey : Wallet} (bound : BoundRevealed db now)
    (wallet : Option Wallet) (acts : List Payout.RouteAct) :
    postVoucher program adminKey (hide now db) now wallet acts =
      postVoucher program adminKey db now wallet acts := by
  cases wallet with
  | none => rfl
  | some wallet => exact serve_hide bound fun _ held => by cases held

end Claims

/-- **Every route answers from the hidden database** as from the database itself. -/
theorem answer_hide {env : Env} {db : Db} {now : Nat} (bound : BoundRevealed db now)
    (unique : (db.megapotEpochs.map (·.megapotId)).Nodup) (request : Request) :
    answer env (hide now db) now request = answer env db now request := by
  cases request with
  | epochs limit cursor => rw [answer, getEpochs_hide, answer]
  | winners megapotId limit offset => rw [answer, getWinners_hide, answer]
  | winnersOfBuyer megapotId buyer => rw [answer, getWinnersOfBuyer_hide, answer]
  | tickets wallet limit offset => rw [answer, getTickets_hide unique, answer]
  | summary wallet => rw [answer, getSummary_hide bound, answer]
  | voucher wallet acts => rw [answer, postVoucher_hide bound, answer]

end LordsPot.Reveal
