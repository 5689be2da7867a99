import LordsPot.Relay.Kept

/-!
# The drawing an order entered

An order is stamped with the round its job read at the start, or with the round cached when
an earlier fulfilment is found, and its transactions mint into the drawing current when they
are mined. The stamp is right as long as every round read is that of the mints so far, and
every transaction is mined in the drawing that the running jobs hold and that the order is
stamped with. A job that never comes to its stamp may hold any round.
-/

namespace LordsPot.Relay

open Transition

/-- The drawing a transaction minted its tickets into. -/
def BuyTx.drawing? (tx : BuyTx) : Option Nat :=
  match tx.outcome with
  | .minted drawing _ => some drawing
  | .pending | .reverted => none

/-- The ticket has been minted, and only into this drawing. -/
def MintedInto (txs : List BuyTx) (id : Uuid) (drawing : Nat) : Prop :=
  (∃ tx ∈ txs, tx.drawing? = some drawing ∧ id ∈ tx.tickets.map (·.id)) ∧
    ∀ tx ∈ txs, ∀ d, tx.drawing? = some d → id ∈ tx.tickets.map (·.id) → d = drawing

/-- Every ticket of a SUCCESS order was minted into the drawing the order is stamped with. -/
def EpochsTrue (s : State) : Prop :=
  ∀ o ∈ s.db.relayOrders, o.status = .SUCCESS → ∀ drawing, o.fulfillEpoch = some drawing →
    ∀ t ∈ s.db.tickets, t.orderHash = o.hash → MintedInto s.txs t.id drawing

/-- The transaction has a ticket of the order. -/
def BuyTx.hasTicketOf (tx : BuyTx) (db : Db) (hash : Bytes32) : Bool :=
  db.tickets.any fun t => t.orderHash == hash && (tx.tickets.map (·.id)).contains t.id

/-- So far the order's tickets have been minted into no other drawing. -/
def mintsIn (s : State) (hash : Bytes32) (drawing : Nat) : Bool :=
  s.txs.all fun tx => !tx.hasTicketOf s.db hash || tx.drawing?.all (· == drawing)

/-- The order a process works on, with the round it holds for it. -/
def Proc.round? : Proc → Option (Bytes32 × Nat)
  | .funding order round | .locking order round | .relaying order round _ => some (order.hash, round)
  | .finalizing order _ _ round => round.map fun n => (order.hash, n)
  | _ => none

/-- Every process that holds a round for an order of the transaction, those in `dies` apart, and every
SUCCESS order of the transaction has the current drawing. -/
def landsInRound (dies : List Nat) (s : State) (tx : BuyTx) : Bool :=
  (s.procs.zipIdx.all fun (p, i) => dies.contains i || p.round?.all fun held =>
      !tx.hasTicketOf s.db held.1 || held.2 == s.drawing) &&
    s.db.relayOrders.all fun o => o.status != .SUCCESS || !tx.hasTicketOf s.db o.hash ||
      o.fulfillEpoch.all (· == s.drawing)

/-- The processes in `dies` turn no order SUCCESS. For the others, a round that is read is the drawing
of the order's mints so far, a transaction is mined in the round that is held for it, and the worker's
SUCCESS update finds an id on every ticket. -/
def epochSafe (dies : List Nat) (s : State) : Action → Bool
  | .call i call _ =>
    if dies.contains i then (s.procs[i]?).all fun p => (p.succeeds s.db call).isNone
    else match s.procs[i]?, call with
    | some (.gating order), .gate round false => mintsIn s order.hash round
    | some (.readingRound order _ _), .roundState (some round) => mintsIn s order.hash round
    | some (.relaying order _ (.succeeding _)), .write =>
      s.db.tickets.all fun t => t.orderHash != order.hash || t.megapotNftId.isSome
    | _, _ => true
  | .mine hash _ => s.txs.all fun tx => tx.hash != hash || landsInRound dies s tx
  | _ => true

/-! ## Mints so far -/

section Mints

variable {keccak256 : String → Bytes32} {dies : List Nat} {s s' : State} {p p' : Proc} {call : Call}

theorem drawing?_isSome (tx : BuyTx) : tx.drawing?.isSome = tx.ticketIds.isSome := by
  unfold BuyTx.drawing? BuyTx.ticketIds
  cases tx.outcome <;> rfl

theorem hasTicketOf_iff {tx : BuyTx} {db : Db} {hash : Bytes32} : tx.hasTicketOf db hash = true ↔
    ∃ t ∈ db.tickets, t.orderHash = hash ∧ t.id ∈ tx.tickets.map (·.id) := by
  simp [BuyTx.hasTicketOf]

theorem mintsIn_iff {hash : Bytes32} {drawing : Nat} : mintsIn s hash drawing = true ↔
    ∀ tx ∈ s.txs, tx.hasTicketOf s.db hash = true → ∀ d, tx.drawing? = some d → d = drawing := by
  simp only [mintsIn, List.all_eq_true, Bool.or_eq_true, Bool.not_eq_true', Option.all_eq_true,
    beq_iff_eq]
  refine forall₂_congr fun tx _ => ?_
  cases tx.hasTicketOf s.db hash <;> simp

/-- Tickets keep their ids and orders, so a transaction has tickets of the orders it had. -/
theorem hasTicketOf_back (rows : ∀ t' ∈ s'.db.tickets, ∃ t ∈ s.db.tickets,
    t'.id = t.id ∧ t'.orderHash = t.orderHash) {tx tx' : BuyTx} (same : tx'.tickets = tx.tickets)
    {hash : Bytes32} (h : tx'.hasTicketOf s'.db hash = true) : tx.hasTicketOf s.db hash = true := by
  obtain ⟨t', ht', own, mem⟩ := hasTicketOf_iff.1 h
  obtain ⟨t, ht, hid, order⟩ := rows t' ht'
  exact hasTicketOf_iff.2 ⟨t, ht, order ▸ own, same ▸ hid ▸ mem⟩

/-- Where no transaction has been mined meanwhile, mints stay in their drawing. -/
theorem mintsIn_keeps (rows : ∀ t' ∈ s'.db.tickets, ∃ t ∈ s.db.tickets,
    t'.id = t.id ∧ t'.orderHash = t.orderHash)
    (back : ∀ tx' ∈ s'.txs, ∀ d, tx'.drawing? = some d →
      ∃ tx ∈ s.txs, tx.drawing? = some d ∧ tx'.tickets = tx.tickets) {hash : Bytes32} {drawing : Nat}
    (h : mintsIn s hash drawing = true) : mintsIn s' hash drawing = true := by
  refine mintsIn_iff.2 fun tx' htx' has d hd => ?_
  obtain ⟨tx, htx, hd', tickets⟩ := back tx' htx' d hd
  exact mintsIn_iff.1 h tx htx (hasTicketOf_back rows tickets has) d hd'

theorem round_released {order : OrderRead} {round : Nat} {held : Bytes32 × Nat} (loop : Loop)
    (hr : (loop.released order round).round? = some held) :
    (Proc.relaying order round .collecting).round? = some held := by
  cases loop with
  | stuck rest => exact hr
  | fresh batchIndex rest => cases hr

/-- A job holds one round from its gate to its end. -/
theorem phaseMove_round {order : OrderRead} {round : Nat} {phase : Phase}
    (move : PhaseMove keccak256 s order round phase call s' p') {held : Bytes32 × Nat}
    (hr : p'.round? = some held) : (Proc.relaying order round phase).round? = some held := by
  cases move with
  | release => exact round_released _ hr
  | succeed => cases hr
  | _ => exact hr

theorem round_thrown (held : Bytes32 × Nat) : p.thrown.round? ≠ some held := by
  unfold Proc.thrown
  split <;> nofun

theorem round_leaving (leaving : p.leaving = true) : p.round? = none := by
  cases p <;> first | rfl | cases leaving

/-- A round that is held after a call was held before, or has just been read. -/
theorem procStep_round {i : Nat} {lost : Bool} (hi : s.procs[i]? = some p) (lives : i ∉ dies)
    (ok : epochSafe dies s (.call i call lost) = true)
    (h : procStep keccak256 s p call = some (s', p')) {held : Bytes32 × Nat}
    (hr : p'.round? = some held) : p.round? = some held ∨ mintsIn s held.1 held.2 = true := by
  have living : dies.contains i = false := by simpa using lives
  cases procMove h with
  | gate =>
    cases hr
    simp only [epochSafe, living, Bool.false_eq_true, if_false, hi] at ok
    exact .inr ok
  | readRound =>
    rename_i order txHash ticketIds round
    cases round with
    | none => cases hr
    | some n =>
      cases hr
      simp only [epochSafe, living, Bool.false_eq_true, if_false, hi] at ok
      exact .inr ok
  | fund | lock => exact .inl hr
  | phase move => exact .inl (phaseMove_round move hr)
  | throw => exact absurd hr (round_thrown held)
  | leave leaving =>
    rw [round_leaving leaving] at hr
    cases hr
  | _ => cases hr

end Mints

/-! ## The stamps -/

structure Epochs (dies : List Nat) (s : State) : Prop where
  rounds : ∀ i p, s.procs[i]? = some p → i ∉ dies → ∀ held, p.round? = some held →
    mintsIn s held.1 held.2 = true
  stamps : ∀ o ∈ s.db.relayOrders, o.status = .SUCCESS → ∀ drawing, o.fulfillEpoch = some drawing →
    mintsIn s o.hash drawing = true ∧ ∀ t ∈ s.db.tickets, t.orderHash = o.hash →
      ∃ tx ∈ s.txs, tx.ticketIds.isSome ∧ t.id ∈ tx.tickets.map (·.id)

theorem Epochs.epochsTrue {dies : List Nat} {s : State} (h : Epochs dies s) : EpochsTrue s := by
  intro o ho hst drawing hd t ht own
  obtain ⟨mints, minted⟩ := h.stamps o ho hst drawing hd
  have only : ∀ tx ∈ s.txs, ∀ d, tx.drawing? = some d → t.id ∈ tx.tickets.map (·.id) → d = drawing :=
    fun tx htx d hd mem => mintsIn_iff.1 mints tx htx (hasTicketOf_iff.2 ⟨t, ht, own, mem⟩) d hd
  obtain ⟨tx, htx, some?, mem⟩ := minted t ht own
  obtain ⟨d, hd'⟩ := Option.isSome_iff_exists.1 ((drawing?_isSome tx).trans some?)
  exact ⟨⟨tx, htx, only tx htx d hd' mem ▸ hd', mem⟩, only⟩

section Steps

variable {keccak256 : String → Bytes32} {dies : List Nat} {s s' : State} {p p' : Proc} {call : Call}

/-- The tickets of an order that a call turns SUCCESS have been minted. -/
theorem minted_of_succeeds (book : Book keccak256 s) (injective : Function.Injective keccak256) {i : Nat}
    {lost : Bool} (hi : s.procs[i]? = some p) (lives : i ∉ dies)
    (ok : epochSafe dies s (.call i call lost) = true) {hash : Bytes32} {round : Option Nat}
    (hp : p.succeeds s.db call = some (hash, round)) {t : Ticket}
    (ht : t ∈ s.db.tickets) (own : t.orderHash = hash) :
    ∃ tx ∈ s.txs, tx.ticketIds.isSome ∧ t.id ∈ tx.tickets.map (·.id) := by
  have hmem := List.mem_of_getElem? hi
  have known := book.procs p hmem
  unfold Proc.succeeds at hp
  split at hp
  · cases hp
    have living : dies.contains i = false := by simpa using lives
    simp only [epochSafe, living, Bool.false_eq_true, if_false, hi, List.all_eq_true] at ok
    have stamped := ok t ht
    rw [own, bne_self_eq_false, Bool.false_or] at stamped
    obtain ⟨n, hn⟩ := Option.isSome_iff_exists.1 stamped
    exact book.stamped t ht n hn
  · split at hp
    case isFalse => cases hp
    cases hp
    obtain ⟨tx, htx, -, orderId, ids⟩ := known
    obtain ⟨listed, -⟩ := book.orders _ hmem _ rfl
    exact ⟨tx, htx, by rw [ids]; rfl,
      book.whole_of_orderId injective htx (orderId ▸ listed) ht (own.trans orderId.symm)⟩
  · cases hp

/-- A process that is to die stamps nothing. -/
theorem lives_of_succeeds {i : Nat} {lost : Bool} (hi : s.procs[i]? = some p)
    (ok : epochSafe dies s (.call i call lost) = true) {stamp : Bytes32 × Option Nat}
    (hp : p.succeeds s.db call = some stamp) : i ∉ dies := by
  intro doomed
  have dying : dies.contains i = true := List.contains_iff_mem.2 doomed
  simp only [epochSafe, dying, if_true, hi, Option.all_some, hp, Option.isNone_some] at ok
  cases ok

/-- The epoch that a call stamps is the round it holds. -/
theorem round_of_succeeds {hash : Bytes32} {drawing : Nat}
    (hp : p.succeeds s.db call = some (hash, some drawing)) : p.round? = some (hash, drawing) := by
  unfold Proc.succeeds at hp
  split at hp
  · cases hp
    rfl
  · split at hp
    case isFalse => cases hp
    cases hp
    rfl
  · cases hp

theorem Epochs.procCall (book : Book keccak256 s) (injective : Function.Injective keccak256)
    (h : Epochs dies s) {i : Nat} {lost : Bool} (hi : s.procs[i]? = some p)
    (ok : epochSafe dies s (.call i call lost) = true)
    (hs : procStep keccak256 s p call = some (s', p')) :
    Epochs dies { s' with procs := s.procs.set i (if lost then p.thrown else p') } := by
  have e := procStep_effect hs
  have rows : ∀ t' ∈ s'.db.tickets, ∃ t ∈ s.db.tickets, t'.id = t.id ∧ t'.orderHash = t.orderHash :=
    fun t' ht' =>
      have ⟨t, ht, rule⟩ := e.rows t' ht'
      ⟨t, ht, congrArg ChunkTicket.id rule.columns, rule.order⟩
  have back : ∀ tx' ∈ s'.txs, ∀ d, tx'.drawing? = some d →
      ∃ tx ∈ s.txs, tx.drawing? = some d ∧ tx'.tickets = tx.tickets := by
    intro tx' htx' d hd
    rcases e.txs with same | ⟨b, chunk, txHash, -, -, -, he⟩
    · exact ⟨tx', same ▸ htx', hd, rfl⟩
    · rw [he] at htx'
      rcases List.mem_append.1 htx' with old | new
      · exact ⟨tx', old, hd, rfl⟩
      · cases List.mem_singleton.1 new
        cases hd
  have keep : ∀ {hash : Bytes32} {drawing : Nat}, mintsIn s hash drawing = true →
      mintsIn { s' with procs := s.procs.set i (if lost then p.thrown else p') } hash drawing = true :=
    fun hm => mintsIn_keeps rows back hm
  refine ⟨fun j q hq lives held hr => ?_, fun o' ho' hst drawing hd => ?_⟩
  · by_cases own : i = j
    · subst own
      obtain rfl : q = if lost then p.thrown else p' := by
        simpa [(List.getElem?_eq_some_iff.1 hi).1] using hq.symm
      cases lost with
      | true => exact absurd hr (round_thrown held)
      | false =>
        rcases procStep_round hi lives ok hs hr with before | read
        · exact keep (h.rounds i p hi lives held before)
        · exact keep read
    · have old : s.procs[j]? = some q := by simpa [List.getElem?_set_ne own] using hq
      exact keep (h.rounds j q old lives held hr)
  · obtain ⟨o, ho, rule⟩ := e.orders o' ho'
    have stamped : mintsIn s o.hash drawing = true ∧ ∀ t ∈ s.db.tickets, t.orderHash = o.hash →
        ∃ tx ∈ s.txs, tx.ticketIds.isSome ∧ t.id ∈ tx.tickets.map (·.id) := by
      rcases rule.success hst with ⟨before, same⟩ | now
      · exact h.stamps o ho before drawing (same ▸ hd)
      · rw [hd] at now
        have lives := lives_of_succeeds hi ok now
        exact ⟨h.rounds i p hi lives _ (round_of_succeeds now),
          fun t ht own => minted_of_succeeds book injective hi lives ok now ht own⟩
    rw [rule.hash]
    refine ⟨keep stamped.1, fun t' ht' own => ?_⟩
    obtain ⟨t, ht, hid, order⟩ := rows t' ht'
    obtain ⟨tx, htx, some?, mem⟩ := stamped.2 t ht (order ▸ own)
    obtain ⟨tx', htx', -, -, tickets, -, ids⟩ := e.grown tx htx
    obtain ⟨ticketIds, hids⟩ := Option.isSome_iff_exists.1 some?
    exact ⟨tx', htx', by rw [ids _ hids]; rfl, tickets ▸ hid ▸ mem⟩

theorem Epochs.mine (book : Book keccak256 s) (h : Epochs dies s) {hash : TxHash}
    {ticketIds : List NftId} (can : canMine s hash ticketIds = true)
    (ok : epochSafe dies s (.mine hash ticketIds) = true) : Epochs dies { s with
      txs := Table.updateMany (·.hash == hash)
        (fun tx => { tx with outcome := .minted s.drawing ticketIds }) s.txs } := by
  have grown : Grown s.txs (Table.updateMany (·.hash == hash)
      (fun tx => { tx with outcome := .minted s.drawing ticketIds }) s.txs) :=
    .updateMany (book.later_mine can)
  have lands : ∀ tx ∈ s.txs, tx.hash = hash → landsInRound dies s tx = true := by
    intro tx htx he
    have here := List.all_eq_true.1 ok tx htx
    rwa [he, bne_self_eq_false, Bool.false_or] at here
  have keep : ∀ {order : Bytes32} {drawing : Nat}, mintsIn s order drawing = true →
      (∀ tx, landsInRound dies s tx = true → tx.hasTicketOf s.db order = true → drawing = s.drawing) →
      mintsIn { s with
        txs := Table.updateMany (·.hash == hash)
          (fun tx => { tx with outcome := .minted s.drawing ticketIds }) s.txs } order drawing = true := by
    intro order drawing hm round
    refine mintsIn_iff.2 fun tx' htx' has d hd => ?_
    obtain ⟨tx, htx, rfl⟩ := Table.mem_updateMany.1 htx'
    split at has
    · rename_i hq
      rw [if_pos hq] at hd
      cases hd
      exact (round tx (lands tx htx (beq_iff_eq.1 hq)) has).symm
    · rename_i hq
      rw [if_neg hq] at hd
      exact mintsIn_iff.1 hm tx htx has d hd
  refine ⟨fun i q hq lives held hr => keep (h.rounds i q hq lives held hr) fun tx land has => ?_,
    fun o ho hst drawing hd => ?_⟩
  · have held := List.all_eq_true.1 (Bool.and_eq_true_iff.1 land).1 _ (List.mk_mem_zipIdx_iff_getElem?.2 hq)
    simpa [lives, hr, has] using held
  · obtain ⟨mints, minted⟩ := h.stamps o ho hst drawing hd
    refine ⟨keep mints fun tx land has => ?_, fun t ht own => ?_⟩
    · have done := List.all_eq_true.1 (Bool.and_eq_true_iff.1 land).2 o ho
      simpa [hst, has, hd] using done
    · obtain ⟨tx, htx, some?, mem⟩ := minted t ht own
      obtain ⟨tx', htx', -, -, tickets, -, ids⟩ := grown tx htx
      obtain ⟨old, hids⟩ := Option.isSome_iff_exists.1 some?
      exact ⟨tx', htx', by rw [ids _ hids]; rfl, tickets ▸ mem⟩

theorem Epochs.revert (h : Epochs dies s) (hash : TxHash) : Epochs dies { s with
    txs := Table.updateMany (fun tx => tx.hash == hash && tx.outcome == .pending)
      (fun tx => { tx with outcome := .reverted }) s.txs } := by
  have grown := Grown.updateMany (later_revert (s := s) hash)
  have keep : ∀ {order : Bytes32} {drawing : Nat}, mintsIn s order drawing = true →
      mintsIn { s with
        txs := Table.updateMany (fun tx => tx.hash == hash && tx.outcome == .pending)
          (fun tx => { tx with outcome := .reverted }) s.txs } order drawing = true := by
    intro order drawing hm
    refine mintsIn_keeps (s := s) ?_ ?_ hm
    · exact fun t ht => ⟨t, ht, rfl, rfl⟩
    intro tx' htx' d hd
    obtain ⟨tx, htx, rfl⟩ := Table.mem_updateMany.1 htx'
    split at hd
    · cases hd
    · rename_i hq
      rw [if_neg hq]
      exact ⟨tx, htx, hd, rfl⟩
  refine ⟨fun i q hq lives held hr => keep (h.rounds i q hq lives held hr),
    fun o ho hst drawing hd => ?_⟩
  obtain ⟨mints, minted⟩ := h.stamps o ho hst drawing hd
  refine ⟨keep mints, fun t ht own => ?_⟩
  obtain ⟨tx, htx, some?, mem⟩ := minted t ht own
  obtain ⟨tx', htx', -, -, tickets, -, ids⟩ := grown tx htx
  obtain ⟨old, hids⟩ := Option.isSome_iff_exists.1 some?
  exact ⟨tx', htx', by rw [ids _ hids]; rfl, tickets ▸ mem⟩

theorem Epochs.start (h : Epochs dies s) (idle : p.round? = none) :
    Epochs dies { s with procs := s.procs ++ [p] } where
  rounds i q hq lives held hr := by
    rcases Table.of_getElem?_concat hq with old | ⟨-, rfl⟩
    · exact h.rounds i q old lives held hr
    · rw [idle] at hr
      cases hr
  stamps := h.stamps

/-- **The epoch rule**: a safe step keeps the stamps true. -/
theorem Epochs.step (book : Book keccak256 s) (injective : Function.Injective keccak256)
    (h : Epochs dies s) {a : Action} (ok : epochSafe dies s a = true)
    (hs : Relay.step keccak256 s a = some s') : Epochs dies s' := by
  cases stepMove hs with
  | job | confirm | reset => exact h.start rfl
  | requeue =>
    refine ⟨h.rounds, fun o' ho' hst drawing hd => ?_⟩
    obtain ⟨o, ho, rfl⟩ := Table.mem_updateMany.1 ho'
    split at hst
    · cases hst
    · rename_i hq
      rw [if_neg hq] at hd ⊢
      exact h.stamps o ho hst drawing hd
  | call here move => exact h.procCall book injective here ok move
  | mine can => exact h.mine book can ok
  | revert => exact h.revert _
  | rollover => exact ⟨h.rounds, h.stamps⟩

theorem Epochs.initial (h : Initial keccak256 s) : Epochs dies s where
  rounds i p hp := by
    rw [h.noProcs] at hp
    cases hp
  stamps o ho hst := absurd hst (h.notDone o ho)

end Steps

/-- **`fulfillEpoch` is the drawing the tickets entered**, as long as rounds are read and
transactions are mined in step, whatever the jobs hold that die before their stamp. -/
theorem epochs_true {keccak256 : String → Bytes32} (injective : Function.Injective keccak256)
    (dies : List Nat) {s : State}
    (h : (machine keccak256).ReachableBy (fun s a => epochSafe dies s a = true) s) : EpochsTrue s := by
  have all : Book keccak256 s ∧ Epochs dies s :=
    Machine.ReachableBy.invariant (I := fun s => Book keccak256 s ∧ Epochs dies s)
      (fun s hi => ⟨.initial hi, .initial hi⟩)
      (fun s a s' ⟨book, epochs⟩ ok hs =>
        ⟨book.step injective hs, epochs.step book injective ok hs⟩) h
  exact all.2.epochsTrue

/-- One job relays a ticket; Megapot may roll over before the transaction is mined. -/
def relayOne (rollover : List Action) : List Action :=
  lockJob 0 1 (alike ["1-"]) ++ [.call 0 (.findStuck []) false] ++
    sendChunk 0 (alike ["1-"]) "b" "0x1" ++ [.call 0 .write false] ++ rollover ++
    .mine "0x1" [101] ::
      [.receipt (some true), .write, .collect [101], .write].map fun call => .call 0 call false

def isDone (drawing : Nat) (s : State) : Bool :=
  s.db.relayOrders.any fun o => o.status == .SUCCESS && o.fulfillEpoch == some drawing

/-- The job has read round 1, and the chunk is mined in drawing 2. -/
theorem epoch_mistaken : ¬ ∀ keccak256 : String → Bytes32, Function.Injective keccak256 →
    ∀ s, (machine keccak256).Reachable s → EpochsTrue s := by
  intro all
  obtain ⟨s, hs, hp⟩ := Machine.exists_reachable_of_run (M := machine id)
    (initial_queued (alike ["1-"]) (by decide) (by decide +kernel)) (relayOne [.rollover 2])
    (fun s => isDone 1 s && (s.txs.all fun tx => tx.drawing? == some 2) &&
      s.db.relayOrders.all fun o => s.db.tickets.any fun t => t.orderHash == o.hash) (by decide +kernel)
  simp only [isDone, Bool.and_eq_true, List.any_eq_true, List.all_eq_true, beq_iff_eq] at hp
  obtain ⟨⟨⟨o, ho, hst, hd⟩, drawings⟩, owned⟩ := hp
  obtain ⟨t, ht, own⟩ := owned o ho
  obtain ⟨⟨tx, htx, one, -⟩, -⟩ := all id Function.injective_id s hs o ho hst 1 hd t ht own
  rw [drawings tx htx] at one
  cases one

/-- Job 0 has read round 1 and dies after the broadcast of the first chunk, which is mined in drawing
2; job 2 confirms it and relays the second chunk. -/
def relayLate : List Action :=
  lockJob 0 1 twoChunks ++ [.call 0 (.findStuck []) false] ++ sendChunk 0 twoChunks "b" "0x1" ++
    [.call 0 .write false, .rollover 2, .mine "0x1" (List.range 15), .call 0 .crash false] ++
    [.reset "signature", .call 1 .write false] ++ lockJob 2 2 twoChunks ++
    ([.findStuck [⟨"b", some "0x1", twoChunks.take 15⟩], .receipt (some true), .write].map
      fun call => .call 2 call false) ++
    sendChunk 2 (twoChunks.drop 15) "c" "0x2" ++ [.call 2 .write false, .mine "0x2" [15]] ++
    [.receipt (some true), .write, .collect (List.range 16), .write].map fun call => .call 2 call false

/-- The order is stamped with drawing 2, which both chunks entered. -/
theorem epochs_true_late : ∃ s, isDone 2 s = true ∧ EpochsTrue s := by
  obtain ⟨s, hs, hp⟩ := Machine.exists_reachableBy_of_runBy (M := machine id) (epochSafe [0])
    initial_twoChunks relayLate (isDone 2) (by decide +kernel)
  exact ⟨s, hp, epochs_true Function.injective_id [0] hs⟩

end LordsPot.Relay
