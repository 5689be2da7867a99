import LordsPot.Reveal.Answers
import LordsPot.System.LifeCycle

/-!
# The reveal gate

Until an epoch is revealed the routes must not tell two backends apart that differ in its results
only. What is not gated shows claims and payouts, so this rests on no ticket being bound or paid out
before its epoch is revealed. Handlers bind revealed tickets only, and a revealed epoch stays so as
long as its end is not changed; but an order that turns SUCCESS again can take its tickets into
another epoch.
-/

namespace LordsPot.Reveal

open Transition

/-! ## Databases that differ in hidden results -/

structure SameTicket (db : Db) (now : Nat) (t t' : Ticket) : Prop where
  rest : t' = { t with
    winStatus := t'.winStatus, winAmount := t'.winAmount, isFreeTicketTier := t'.isFreeTicketTier
    harvestBatchId := t'.harvestBatchId }
  revealed : revealedTicket db now t = true → t' = t

structure SameEpoch (now : Nat) (e e' : MegapotEpoch) : Prop where
  megapotId : e'.megapotId = e.megapotId
  endedAt : e'.endedAt = e.endedAt
  revealed : revealedEpochWhere now e = true → e' = e

/-- The databases agree on everything but the results of epochs that are not revealed. -/
structure Agree (now : Nat) (db db' : Db) : Prop where
  relayOrders : db'.relayOrders = db.relayOrders
  relayBatches : db'.relayBatches = db.relayBatches
  harvestBatches : db'.harvestBatches = db.harvestBatches
  payoutClaims : db'.payoutClaims = db.payoutClaims
  tickets : List.Forall₂ (SameTicket db now) db.tickets db'.tickets
  megapotEpochs : List.Forall₂ (SameEpoch now) db.megapotEpochs db'.megapotEpochs

section Agree

variable {now : Nat} {db db' : Db}

theorem SameEpoch.hide {e e' : MegapotEpoch} (same : SameEpoch now e e') :
    hideEpoch now e' = hideEpoch now e := by
  have gate : revealedEpochWhere now e' = revealedEpochWhere now e := by
    rw [revealedEpochWhere, same.endedAt, revealedEpochWhere]
  by_cases revealed : revealedEpochWhere now e = true
  · rw [same.revealed revealed]
  · rw [hideEpoch, hideEpoch, gate, if_neg revealed, if_neg revealed, same.megapotId, same.endedAt]

/-- Such databases hide to the same one. -/
theorem Agree.hide (agree : Agree now db db') : hide now db' = hide now db := by
  have epochs : db'.megapotEpochs.map (hideEpoch now) = db.megapotEpochs.map (hideEpoch now) :=
    Table.map_of_forall₂ _ (fun _ _ => SameEpoch.hide) agree.megapotEpochs
  have ids : getRevealedEpochIds db' now = getRevealedEpochIds db now := by
    calc getRevealedEpochIds db' now
        = getRevealedEpochIds (Reveal.hide now db') now := getRevealedEpochIds_hide.symm
      _ = getRevealedEpochIds (Reveal.hide now db) now := by
          rw [getRevealedEpochIds, Reveal.hide, epochs]
          rfl
      _ = getRevealedEpochIds db now := getRevealedEpochIds_hide
  have tickets : db'.tickets.map (hideTicket db' now) = db.tickets.map (hideTicket db now) := by
    have rows : db'.tickets.map (hideTicket db now) = db.tickets.map (hideTicket db now) := by
      refine Table.map_of_forall₂ _ (fun t t' same => ?_) agree.tickets
      by_cases revealed : revealedTicket db now t = true
      · rw [same.revealed revealed]
      · have gate : revealedTicket db now t' = revealedTicket db now t := by
          rw [same.rest]
          rfl
        rw [hideTicket, hideTicket, gate, if_neg revealed, if_neg revealed, same.rest]
    rw [← rows]
    refine List.map_congr_left fun t _ => ?_
    have gate : revealedTicket db' now t = revealedTicket db now t := by
      rw [revealedTicket, ticketEpoch, Db.relayOrder?, Db.order?, agree.relayOrders, ids]
      rfl
    rw [hideTicket, hideTicket, gate]
  simp only [Reveal.hide, tickets, epochs, agree.relayOrders, agree.relayBatches,
    agree.harvestBatches, agree.payoutClaims]

end Agree

/-! ## What is bound and paid out -/

/-- A saved round leaves the end of its epoch's row alone. -/
def endedKept (s : System.State) : System.Action → Bool
  | .settlement (.upsert round) | .settlement (.tick _ (.fetch (some round)) _) =>
      s.db.megapotEpochs.all fun e => e.megapotId != round.megapotId || e.endedAt == round.endedAt
  | _ => true

/-- An order with a ticket that is bound to a claim or paid out turns SUCCESS without an epoch or
with a revealed one. -/
def revealSafe (s : System.State) : System.Action → Bool
  | .settlement (.relay (.call i call _)) =>
      match s.settlement.relay.procs[i]?.bind (·.succeeds s.db call) with
      | some (hash, some megapotId) => (getRevealedEpochIds s.db s.now).contains megapotId ||
          s.db.tickets.all fun t => t.orderHash != hash ||
            t.payoutClaimId == none && t.winStatus != .PAID_OUT_ON_SOLANA
      | _ => true
  | _ => true

/-- What a step that is not of the payout path keeps of a row. -/
structure SameClaim (t t' : Ticket) : Prop where
  order : t'.orderHash = t.orderHash
  claim : t'.payoutClaimId = t.payoutClaimId
  paid : t'.winStatus = .PAID_OUT_ON_SOLANA → t.winStatus = .PAID_OUT_ON_SOLANA

theorem SameClaim.refl (t : Ticket) : SameClaim t t := ⟨rfl, rfl, id⟩

theorem SameClaim.trans {t t' t'' : Ticket} (h : SameClaim t t') (h' : SameClaim t' t'') :
    SameClaim t t'' :=
  ⟨h'.order.trans h.order, h'.claim.trans h.claim, h.paid ∘ h'.paid⟩

/-- What a step keeps of the epochs: each row with its end, and that ids are unique. -/
structure EpochsKept (db db' : Db) : Prop where
  rows : ∀ e ∈ db.megapotEpochs, ∃ e' ∈ db'.megapotEpochs,
    e'.megapotId = e.megapotId ∧ e'.endedAt = e.endedAt
  unique : (db.megapotEpochs.map (·.megapotId)).Nodup → (db'.megapotEpochs.map (·.megapotId)).Nodup

section Epochs

variable {db db' : Db}

theorem EpochsKept.of_eq (same : db'.megapotEpochs = db.megapotEpochs) : EpochsKept db db' :=
  ⟨fun e he => ⟨e, same ▸ he, rfl, rfl⟩, fun unique => same ▸ unique⟩

theorem EpochsKept.update {p : MegapotEpoch → Bool} {f : MegapotEpoch → MegapotEpoch}
    (rows : db'.megapotEpochs = Table.updateMany p f db.megapotEpochs)
    (keep : ∀ e ∈ db.megapotEpochs, p e = true →
      (f e).megapotId = e.megapotId ∧ (f e).endedAt = e.endedAt) : EpochsKept db db' := by
  refine ⟨fun e he => ⟨if p e then f e else e, ?_, ?_⟩, fun unique => ?_⟩
  · rw [rows]
    exact Table.mem_updateMany.2 ⟨e, he, rfl⟩
  · split
    · rename_i hit
      exact keep e he hit
    · exact ⟨rfl, rfl⟩
  · rw [rows, Table.map_updateMany (·.megapotId) fun e he hit => (keep e he hit).1]
    exact unique

theorem EpochsKept.upsert {round : SettledRound} (ended : (db.megapotEpochs.all fun e =>
    e.megapotId != round.megapotId || e.endedAt == round.endedAt) = true) :
    EpochsKept db (upsertSettledEpoch db round) := by
  unfold upsertSettledEpoch
  split
  · refine .update (f := upsertPayload round) rfl fun e he hit => ⟨rfl, ?_⟩
    have same := List.all_eq_true.1 ended e he
    rw [beq_iff_eq] at hit
    simp only [hit, bne_self_eq_false, Bool.false_or, beq_iff_eq] at same
    exact same.symm
  · rename_i absent
    refine ⟨fun e he => ⟨e, List.mem_append_left _ he, rfl, rfl⟩, fun unique => ?_⟩
    apply Table.nodup_insert unique
    intro mem
    apply absent
    obtain ⟨e, he, id⟩ := List.mem_map.1 mem
    exact List.any_eq_true.2 ⟨e, he, beq_iff_eq.2 id⟩

/-- What is revealed stays so. -/
theorem EpochsKept.revealed (kept : EpochsKept db db') {now now' n : Nat} (later : now ≤ now')
    (h : n ∈ getRevealedEpochIds db now) : n ∈ getRevealedEpochIds db' now' := by
  obtain ⟨e, he, id, revealed⟩ := mem_getRevealedEpochIds.1 h
  obtain ⟨e', he', id', ended⟩ := kept.rows e he
  refine mem_getRevealedEpochIds.2 ⟨e', he', id'.trans id, ?_⟩
  rw [revealedEpochWhere, ended]
  unfold revealedEpochWhere at revealed
  split at revealed
  · rfl
  · rename_i at_
    rw [decide_eq_true_iff] at revealed ⊢
    omega

end Epochs

/-! ## The gate is kept -/

/-- What is bound or paid out is revealed, and handlers bind revealed epochs only. -/
structure Gate (s : System.State) : Prop where
  orderHashes : (s.db.relayOrders.map (·.hash)).Nodup
  epochIds : (s.db.megapotEpochs.map (·.megapotId)).Nodup
  bound : BoundRevealed s.db s.now
  known : ∀ r ∈ s.requests, Known s.db s.now r

theorem revealedTicket_iff {db : Db} {now : Nat} {t : Ticket} : revealedTicket db now t = true ↔
    ∀ o n, db.relayOrder? t = some o → o.fulfillEpoch = some n → n ∈ getRevealedEpochIds db now := by
  simp only [revealedTicket, ticketEpoch]
  cases order : db.relayOrder? t with
  | none => simp
  | some o =>
    have own : (∀ o' n, some o = some o' → o'.fulfillEpoch = some n → n ∈ getRevealedEpochIds db now) ↔
        ∀ n, o.fulfillEpoch = some n → n ∈ getRevealedEpochIds db now := by
      constructor
      · exact fun all n => all o n rfl
      · intro all o' n same
        cases same
        exact all n
    rw [own, Option.bind_some]
    cases o.fulfillEpoch with
    | none => simp
    | some n => simp

section Steps

variable {stringToNumber : String → JsNumber} {keccak256 : String → Bytes32} {s s' : System.State}

/-- A step of any component but the relay's jobs and the payout path. -/
theorem Gate.frame (h : Gate s) (later : s.now ≤ s'.now) (epochs : EpochsKept s.db s'.db)
    (orders : s'.db.relayOrders = s.db.relayOrders)
    (rows : ∀ t' ∈ s'.db.tickets, ∃ t ∈ s.db.tickets, SameClaim t t')
    (requests : s'.requests = s.requests) : Gate s' where
  orderHashes := orders ▸ h.orderHashes
  epochIds := epochs.unique h.epochIds
  bound t' ht' held := by
    obtain ⟨t, ht, same⟩ := rows t' ht'
    rw [same.claim] at held
    have revealed := revealedTicket_iff.1 (h.bound t ht (held.imp_right same.paid))
    refine revealedTicket_iff.2 fun o n order epoch => epochs.revealed later ?_
    rw [Db.relayOrder?, Db.order?, orders, same.order] at order
    exact revealed o n order epoch
  known r hr ids held n hn := epochs.revealed later (h.known r (requests ▸ hr) ids held n hn)

theorem rows_refl (rows : List Ticket) : ∀ t' ∈ rows, ∃ t ∈ rows, SameClaim t t' :=
  fun t ht => ⟨t, ht, .refl t⟩

/-- A step of the relay: an order may turn SUCCESS with another epoch. -/
theorem Gate.relay (h : Gate s) {action : Relay.Action} {relay' : Relay.State}
    (ok : revealSafe s (.settlement (.relay action)) = true)
    (hs : Relay.step keccak256 s.settlement.relay action = some relay') :
    Gate { s with settlement := { s.settlement with relay := relay' } } := by
  have epochs := Settlement.relay_megapotEpochs hs
  have ids : getRevealedEpochIds relay'.db s.now = getRevealedEpochIds s.db s.now := by
    rw [getRevealedEpochIds, epochs]
    rfl
  constructor
  · show (relay'.db.relayOrders.map (·.hash)).Nodup
    rw [Relay.step_hashes hs]
    exact h.orderHashes
  · show (relay'.db.megapotEpochs.map (·.megapotId)).Nodup
    rw [epochs]
    exact h.epochIds
  · intro t' ht' held
    obtain ⟨t, ht, order, results⟩ := Relay.step_ticket hs ht'
    simp only [Ticket.results, Prod.mk.injEq] at results
    obtain ⟨status, -, -, -, claim⟩ := results
    rw [claim, status] at held
    have revealed := revealedTicket_iff.1 (h.bound t ht held)
    refine revealedTicket_iff.2 fun o' n found epoch => ?_
    show n ∈ getRevealedEpochIds relay'.db s.now
    rw [ids]
    have found : relay'.db.order? t'.orderHash = some o' := found
    obtain ⟨o, before, same | ⟨i, call, lost, p, rfl, hi, now⟩⟩ :=
      Relay.step_order hs h.orderHashes found
    · rw [order] at before
      exact revealed o n before (same ▸ epoch)
    · -- the order turns SUCCESS with this epoch, and the ticket is one of its own
      rw [revealSafe, hi, Option.bind_some, System.State.db, now, epoch] at ok
      rcases Bool.or_eq_true_iff.1 ok with revealed | free
      · exact List.contains_iff_mem.1 revealed
      · have own := List.all_eq_true.1 free t ht
        rw [order] at own
        simp only [bne_self_eq_false, Bool.false_or, Bool.and_eq_true, beq_iff_eq, bne_iff_ne] at own
        rcases held with claimed | paid
        · exact absurd own.1 claimed
        · exact absurd paid own.2
  · intro r hr epochs held n hn
    show n ∈ getRevealedEpochIds relay'.db s.now
    rw [ids]
    exact h.known r hr epochs held n hn

theorem sameClaim_settlementTick {db db' : Db} {now : Nat} {tick tick' : Settlement.Tick}
    {call : Settlement.Call}
    (hs : Settlement.tickStep stringToNumber db now tick call = some (db', tick')) :
    db'.relayOrders = db.relayOrders ∧ ∀ t' ∈ db'.tickets, ∃ t ∈ db.tickets, SameClaim t t' := by
  cases Settlement.tickStep_writes hs with
  | nothing | mark => exact ⟨rfl, rows_refl _⟩
  | upsert round =>
    rw [upsertSettledEpoch_tickets]
    exact ⟨upsertSettledEpoch_relayOrders .., rows_refl _⟩
  | settle grades =>
    refine ⟨rfl, Settlement.settlePage_rows .refl .trans (fun t _ => ⟨rfl, rfl, nofun⟩)
      fun t g _ => ⟨rfl, rfl, fun paid => ?_⟩⟩
    cases hg : g.status <;> simp [hg, Settlement.Prize.winStatus] at paid

/-- The epochs after a tick's step, if the round it saves leaves the end of its row alone. -/
theorem epochsKept_settlementTick {db db' : Db} {now : Nat} {tick tick' : Settlement.Tick}
    {call : Settlement.Call} (ended : ∀ round, call = .fetch (some round) →
      (db.megapotEpochs.all fun e => e.megapotId != round.megapotId || e.endedAt == round.endedAt) = true)
    (hs : Settlement.tickStep stringToNumber db now tick call = some (db', tick')) :
    EpochsKept db db' := by
  unfold Settlement.tickStep at hs
  split at hs
  case h_1 => split at hs <;> cases hs; exact .of_eq rfl
  case h_2 => cases hs; exact .of_eq rfl
  case h_3 => cases hs; exact .of_eq rfl
  case h_4 round =>
    cases hs
    cases round with
    | none => exact .of_eq rfl
    | some round => exact .upsert (ended round rfl)
  case h_5 => cases hs; exact .of_eq rfl
  case h_6 => split at hs <;> cases hs; exact .of_eq rfl
  case h_7 => cases hs; exact .of_eq rfl
  case h_8 => cases hs; exact .update rfl fun _ _ _ => ⟨rfl, rfl⟩
  case h_9 => cases hs; exact .of_eq rfl
  case h_10 => cases hs; exact .of_eq rfl
  case h_11 => cases hs

theorem Gate.settlement (h : Gate s) {action : Settlement.Action} {settlement : Settlement.State}
    (ended : endedKept s (.settlement action) = true) (ok : revealSafe s (.settlement action) = true)
    (hs : Settlement.step stringToNumber keccak256 s.settlement action = some settlement) :
    Gate { s with settlement := settlement } := by
  cases action with
  | relay action =>
    obtain ⟨relay', hr, rfl⟩ := Option.map_eq_some_iff.1 hs
    exact h.relay ok hr
  | start =>
    cases hs
    exact h.frame le_rfl (.of_eq rfl) rfl (rows_refl _) rfl
  | tick i call lost =>
    obtain ⟨tick, -, hs⟩ := Option.bind_eq_some_iff.1 hs
    obtain ⟨⟨db', tick'⟩, hstep, hs⟩ := Option.bind_eq_some_iff.1 hs
    cases hs
    obtain ⟨orders, rows⟩ := sameClaim_settlementTick hstep
    refine h.frame le_rfl (epochsKept_settlementTick (fun round fetch => ?_) hstep) orders rows rfl
    rw [fetch] at ended
    exact ended
  | upsert round =>
    cases hs
    refine h.frame le_rfl (.upsert ended) (upsertSettledEpoch_relayOrders ..) ?_ rfl
    rw [System.State.db, upsertSettledEpoch_tickets]
    exact rows_refl _
  | clock ms =>
    cases hs
    exact h.frame (Nat.le_add_right ..) (.of_eq rfl) rfl (rows_refl _) rfl

/-- What a harvest tick keeps. -/
theorem frame_harvest {h₁ h₂ : Harvest.State} {u u' : Harvest.Tick} {act : Harvest.TickAct}
    (effect : Harvest.Effect h₁ u act h₂ u') : h₂.now = h₁.now ∧ EpochsKept h₁.db h₂.db ∧
      h₂.db.relayOrders = h₁.db.relayOrders ∧
      ∀ t' ∈ h₂.db.tickets, ∃ t ∈ h₁.db.tickets, SameClaim t t' := by
  refine ⟨?_, ?_, ?_, fun t' ht' => ?_⟩
  · cases effect <;> rfl
  · cases effect with
    | setWatermark => exact .update rfl fun _ _ _ => ⟨rfl, rfl⟩
    | _ => exact .of_eq rfl
  · cases effect <;> rfl
  · obtain ⟨t, ht, rule⟩ := Table.exists_of_forall₂_right effect.rows ht'
    refine ⟨t, ht, by rw [rule.rest], by rw [rule.rest], fun paid => ?_⟩
    rcases rule.status with same | ⟨-, -, claimed⟩
    · exact same ▸ paid
    · rw [claimed] at paid
      cases paid

theorem Gate.harvest (h : Gate s) {action : Harvest.Action} {h₁ : Harvest.State}
    (own : action.own = true) (hs : Harvest.step s.harvest action = some h₁) :
    Gate (s.putHarvest h₁) := by
  cases Harvest.stepMove hs with
  | start | mine | unquarantine => exact h.frame le_rfl (.of_eq rfl) rfl (rows_refl _) rfl
  | tick here effect =>
    obtain ⟨-, epochs, orders, rows⟩ := frame_harvest effect
    exact h.frame le_rfl epochs orders rows rfl
  | clock | grade | settled => cases own

/-- A handler knows revealed epochs, and binds by them. -/
theorem Gate.payout (h : Gate s) {action : Payout.Action} {p : Payout.State}
    (own : action.own = true) (hs : Payout.step s.payout action = some p) :
    Gate (s.putPayout p) := by
  have written := System.payout_written own hs
  have known : ∀ r ∈ p.requests, Known s.db s.now r := by
    cases action with
    | request w =>
      cases hs
      intro r hr
      rcases List.mem_append.1 hr with old | new
      · exact h.known r old
      · cases List.mem_singleton.1 new
        exact fun _ held => by cases held
    | route i act =>
      obtain ⟨r, db, r', handed, hr, routed, rfl⟩ := Payout.step_route hs
      intro x hx
      rcases List.mem_or_eq_of_mem_set hx with old | rfl
      · exact h.known x old
      · have before := h.known r (List.mem_of_getElem? hr)
        intro ids held n hn
        rcases Payout.routeStep_epochs routed held with old | rfl
        · exact before ids old n hn
        · exact hn
    | tick act =>
      obtain ⟨db, tick, rfl, -⟩ := Payout.tickStep_frame hs
      exact h.known
    | land v sig slot bt =>
      obtain ⟨-, -, -, -, -, program, rfl⟩ := Payout.step_land hs
      exact h.known
    | blocks n => cases hs; exact h.known
    | program program => cases hs; exact h.known
    | clock | harvest | epoch => cases own
  constructor
  · rw [System.State.putPayout_db, written.orders]
    exact h.orderHashes
  · rw [System.State.putPayout_db, written.epochs]
    exact h.epochIds
  · exact BoundRevealed.written (s := s.payout) h.bound h.known written
  · intro r hr ids held n hn
    rw [System.State.putPayout_db, getRevealedEpochIds, written.epochs]
    exact known r hr ids held n hn

/-- **The gate rule**: a safe step keeps the gate. -/
theorem Gate.step (h : Gate s) {a : System.Action} (ended : endedKept s a = true)
    (ok : revealSafe s a = true) (hs : System.step stringToNumber keccak256 s a = some s') :
    Gate s' := by
  rcases System.step_cases hs with ⟨_, _, rfl, stepped, rfl⟩ | ⟨_, _, rfl, own, stepped, rfl⟩ |
    ⟨_, _, rfl, own, stepped, rfl⟩ | ⟨_, -, rfl⟩
  · exact h.settlement ended ok stepped
  · exact h.harvest own stepped
  · exact h.payout own stepped
  · exact ⟨h.orderHashes, h.epochIds, h.bound, h.known⟩

theorem Gate.initial (h : System.Initial keccak256 s) : Gate s where
  orderHashes := h.settlement.relay.orderHashes
  epochIds := h.epochIds
  bound t ht held := by
    rcases held with bound | paid
    · exact absurd (h.unclaimed t ht) bound
    · rw [h.pending t ht] at paid
      cases paid
  known := by rw [h.noRequests]; nofun

end Steps

/-! ## Noninterference -/

/-- Every request is answered the same in both states, and only tickets of revealed epochs are bound
to a claim or paid out. -/
def RevealGate (s s' : System.State) : Prop :=
  (∀ env request, answer env s.db s.now request = answer env s'.db s'.now request) ∧
    BoundRevealed s.db s.now

/-- **The answers do not depend on what is not revealed yet**, as long as no order takes tickets that
are bound or paid out into an epoch that is not revealed. -/
theorem reveal_gate {stringToNumber : String → JsNumber} {keccak256 : String → Bytes32}
    {s s' : System.State}
    (h : (System.machine stringToNumber keccak256).ReachableBy
      (fun s a => (endedKept s a && revealSafe s a) = true) s)
    (h' : (System.machine stringToNumber keccak256).ReachableBy
      (fun s a => (endedKept s a && revealSafe s a) = true) s')
    (sameTime : s'.now = s.now) (agree : Agree s.now s.db s'.db) : RevealGate s s' := by
  have gate : ∀ {s : System.State}, (System.machine stringToNumber keccak256).ReachableBy
      (fun s a => (endedKept s a && revealSafe s a) = true) s → Gate s := by
    refine fun h => Machine.ReachableBy.invariant (I := Gate) (fun _ => Gate.initial) ?_ h
    intro s a s' gate ok hs
    obtain ⟨ended, safe⟩ := Bool.and_eq_true_iff.1 ok
    exact gate.step ended safe hs
  have first := gate h
  have second := gate h'
  refine ⟨fun env request => ?_, first.bound⟩
  have bound : BoundRevealed s'.db s.now := sameTime ▸ second.bound
  calc answer env s.db s.now request
      = answer env (hide s.now s.db) s.now request :=
        (answer_hide first.bound first.epochIds request).symm
    _ = answer env (hide s.now s'.db) s.now request := by rw [agree.hide]
    _ = answer env s'.db s.now request := answer_hide bound second.epochIds request
    _ = answer env s'.db s'.now request := by rw [sameTime]

/-- A job of the next round locks the order again and finds all its tickets relayed. -/
def relayedAgain : List Relay.Action :=
  .call 1 .write false :: Relay.lockJob 2 2 (Relay.alike ["1-"]) ++
    ([.findStuck [], .findPending [], .collect [101], .write] : List Relay.Call).map fun call =>
      .call 2 call false

/-- The reconciler has read the order while it was in PROCESSING. Its ticket is graded, harvested and
paid out; then the reset is written, and the next round's job writes SUCCESS. -/
def restamped : List System.Action :=
  System.settle (Settlement.relayed.map .relay ++ .relay (.reset "signature") ::
      Settlement.succeed :: System.grade System.won) ++
    System.harvested ++ System.paid ++ System.settle (relayedAgain.map .relay)

theorem paid_before_reveal : ¬ ∀ (stringToNumber : String → JsNumber) (keccak256 : String → Bytes32)
    (s s' : System.State),
    (System.machine stringToNumber keccak256).ReachableBy (fun s a => endedKept s a = true) s →
    (System.machine stringToNumber keccak256).ReachableBy (fun s a => endedKept s a = true) s' →
    s'.now = s.now → Agree s.now s.db s'.db → RevealGate s s' := by
  intro all
  obtain ⟨s, hs, hp⟩ := Machine.exists_reachableBy_of_runBy
    (M := System.machine (fun _ => .other) id) endedKept System.initial_idle restamped
    (fun s => s.db.tickets.any fun t => t.winStatus == .PAID_OUT_ON_SOLANA &&
      !revealedTicket s.db s.now t) (by decide +kernel)
  simp only [List.any_eq_true, Bool.and_eq_true, beq_iff_eq, Bool.not_eq_true'] at hp
  obtain ⟨t, ht, paid, hidden⟩ := hp
  have same : Agree s.now s.db s.db :=
    ⟨rfl, rfl, rfl, rfl, List.forall₂_same.2 fun _ _ => ⟨rfl, fun _ => rfl⟩,
      List.forall₂_same.2 fun _ _ => ⟨rfl, rfl, fun _ => rfl⟩⟩
  rw [(all _ _ s s hs hs rfl same).2 t ht (.inr paid)] at hidden
  cases hidden

/-- The ticket is graded by a drawing with these numbers, which is not revealed before 100. -/
def drawn (winningNormals : List Nat) : List System.Action :=
  System.settle (Settlement.relayed.map .relay ++ Settlement.succeed ::
    System.grade { System.won with winningNormals := winningNormals, endedAt := some 100 })

/-- A way to see that two databases agree, with no row revealed. -/
def agreeHidden (now : Nat) (db db' : Db) : Bool :=
  db'.relayOrders == db.relayOrders && db'.relayBatches == db.relayBatches &&
    db'.harvestBatches == db.harvestBatches && db'.payoutClaims == db.payoutClaims &&
    db.tickets.length == db'.tickets.length &&
    ((db.tickets.zip db'.tickets).all fun (t, t') => !revealedTicket db now t &&
      t' == { t with
        winStatus := t'.winStatus, winAmount := t'.winAmount
        isFreeTicketTier := t'.isFreeTicketTier, harvestBatchId := t'.harvestBatchId }) &&
    db.megapotEpochs.length == db'.megapotEpochs.length &&
    (db.megapotEpochs.zip db'.megapotEpochs).all fun (e, e') => !revealedEpochWhere now e &&
      e'.megapotId == e.megapotId && e'.endedAt == e.endedAt

theorem Agree.of_hidden {now : Nat} {db db' : Db} (h : agreeHidden now db db' = true) :
    Agree now db db' := by
  simp only [agreeHidden, Bool.and_eq_true, List.all_eq_true, beq_iff_eq, Bool.not_eq_true',
    Prod.forall] at h
  obtain ⟨⟨⟨⟨⟨⟨⟨orders, relays⟩, harvests⟩, claims⟩, ticketCount⟩, tickets⟩, epochCount⟩, epochs⟩ := h
  refine ⟨orders, relays, harvests, claims, ?_, ?_⟩
  · refine List.forall₂_iff_zip.2 ⟨ticketCount, fun {t t'} mem => ?_⟩
    obtain ⟨hidden, rest⟩ := tickets t t' mem
    exact ⟨rest, fun revealed => absurd revealed (by simp [hidden])⟩
  · refine List.forall₂_iff_zip.2 ⟨epochCount, fun {e e'} mem => ?_⟩
    obtain ⟨⟨hidden, id⟩, ended⟩ := epochs e e' mem
    exact ⟨id, ended, fun revealed => absurd revealed (by simp [hidden])⟩

/-- The ticket of an epoch that is not revealed has won in one state and lost in the other. -/
theorem reveal_gate_won_lost : ∃ s s' : System.State,
    (s.db.tickets.map (·.winStatus), s'.db.tickets.map (·.winStatus)) =
      ([.WON_UNCLAIMED], [.LOST]) ∧ RevealGate s s' := by
  obtain ⟨s, hs, hp⟩ := Machine.exists_reachableBy_of_runBy
    (M := System.machine (fun _ => .other) id) (fun s a => endedKept s a && revealSafe s a)
    System.initial_idle (drawn [1, 2, 3, 4, 5])
    (fun s => (((System.machine (fun _ => .other) id).runBy
        (fun s a => endedKept s a && revealSafe s a) System.idle (drawn [6, 7, 8, 9, 10])).any fun s' =>
      (s.db.tickets.map (·.winStatus), s'.db.tickets.map (·.winStatus)) ==
          ([.WON_UNCLAIMED], [.LOST]) &&
        s'.now == s.now && agreeHidden s.now s.db s'.db)) (by decide +kernel)
  obtain ⟨s', hr, hp⟩ := (Option.any_eq_true ..).1 hp
  simp only [Bool.and_eq_true, beq_iff_eq] at hp
  obtain ⟨⟨results, sameTime⟩, agree⟩ := hp
  have hs' := Machine.ReachableBy.runBy (.start System.initial_idle) hr
  exact ⟨s, s', results, reveal_gate hs hs' sameTime (.of_hidden agree)⟩

end LordsPot.Reveal
