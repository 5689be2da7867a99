import LordsPot.Relay.Effect

/-!
# At-most-once relay

The vault fulfils an order id once, so a ticket is bought once as long as all
transactions it is broadcast in have one order id. A chunk's id is that of its ticket set:
it is the same for a chunk that is built again from the same tickets, and another when
a lost chunk's tickets are divided otherwise, which the order of the rows of a query
decides.
-/

namespace LordsPot.Relay

open Transition

/-- Some ticket row is in both. -/
def shareTicket (tickets tickets' : List ChunkTicket) : Bool :=
  tickets.any fun c => tickets'.any (·.id == c.id)

/-- Two transactions that both succeed have no ticket in common. -/
def AtMostOnce (s : State) : Prop :=
  ∀ tx ∈ s.txs, ∀ tx' ∈ s.txs, tx.ticketIds.isSome → tx'.ticketIds.isSome →
    shareTicket tx.tickets tx'.tickets = true → tx = tx'

/-- A chunk is broadcast only when every transaction with one of its tickets has reverted or
has the same order id. -/
def chunkSafe (keccak256 : String → Bytes32) (s : State) : Action → Bool
  | .call i (.submit _) _ => match (s.procs[i]?).bind Proc.submits with
    | some (_, chunk) => s.txs.all fun tx => tx.outcome == .reverted ||
        !shareTicket tx.tickets chunk || tx.orderId == deriveChunkOrderId keccak256 chunk
    | none => true
  | _ => true

theorem shareTicket_iff {tickets tickets' : List ChunkTicket} :
    shareTicket tickets tickets' = true ↔ ∃ c ∈ tickets, ∃ c' ∈ tickets', c'.id = c.id := by
  simp [shareTicket]

theorem shareTicket_comm (tickets tickets' : List ChunkTicket) :
    shareTicket tickets tickets' = shareTicket tickets' tickets := by
  rw [Bool.eq_iff_iff, shareTicket_iff, shareTicket_iff]
  constructor <;> rintro ⟨c, hc, c', hc', he⟩ <;> exact ⟨c', hc', c, hc, he.symm⟩

theorem not_reverted_of_minted {tx : BuyTx} (h : tx.ticketIds.isSome = true) :
    tx.outcome ≠ .reverted := by
  intro he
  simp [BuyTx.ticketIds, he] at h

/-- Transactions that can still share a fate: distinct hashes, one success for an order id,
one order id for a ticket. -/
structure OneId (s : State) : Prop where
  txHashes : (s.txs.map (·.hash)).Nodup
  fulfilledOnce : ∀ tx ∈ s.txs, ∀ tx' ∈ s.txs, tx.ticketIds.isSome → tx'.ticketIds.isSome →
    tx.orderId = tx'.orderId → tx = tx'
  oneId : ∀ tx ∈ s.txs, ∀ tx' ∈ s.txs, tx.outcome ≠ .reverted → tx'.outcome ≠ .reverted →
    shareTicket tx.tickets tx'.tickets = true → tx.orderId = tx'.orderId

theorem OneId.atMostOnce {s : State} (h : OneId s) : AtMostOnce s := fun tx htx tx' htx' ok ok' share =>
  h.fulfilledOnce tx htx tx' htx' ok ok'
    (h.oneId tx htx tx' htx' (not_reverted_of_minted ok) (not_reverted_of_minted ok') share)

section Steps

variable {keccak256 : String → Bytes32} {s s' : State}

/-- A broadcast with the order id of every live transaction that shares a ticket. -/
theorem OneId.submit (h : OneId s) (tx : BuyTx) (fresh : ∀ old ∈ s.txs, old.hash ≠ tx.hash)
    (pending : tx.outcome = .pending)
    (same : ∀ old ∈ s.txs, old.outcome ≠ .reverted → shareTicket old.tickets tx.tickets = true →
      old.orderId = tx.orderId) : OneId { s with txs := s.txs ++ [tx] } where
  txHashes := by
    refine Table.nodup_insert h.txHashes fun hx => ?_
    obtain ⟨old, hold, he⟩ := List.mem_map.1 hx
    exact fresh old hold he
  fulfilledOnce a ha b hb oka okb he := by
    have unmined : tx.ticketIds.isSome = false := by rw [BuyTx.ticketIds, pending]; rfl
    rcases List.mem_append.1 ha with olda | newa
    · rcases List.mem_append.1 hb with oldb | newb
      · exact h.fulfilledOnce a olda b oldb oka okb he
      · cases List.mem_singleton.1 newb
        rw [unmined] at okb
        cases okb
    · cases List.mem_singleton.1 newa
      rw [unmined] at oka
      cases oka
  oneId a ha b hb oka okb share := by
    rcases List.mem_append.1 ha with olda | newa <;> rcases List.mem_append.1 hb with oldb | newb
    · exact h.oneId a olda b oldb oka okb share
    · cases List.mem_singleton.1 newb
      exact same a olda oka share
    · cases List.mem_singleton.1 newa
      exact (same b oldb okb (shareTicket_comm .. ▸ share)).symm
    · rw [List.mem_singleton.1 newa, List.mem_singleton.1 newb]

theorem txHashes_updateMany {q : BuyTx → Bool} {f : BuyTx → BuyTx} {txs : List BuyTx}
    (keep : ∀ tx, (f tx).hash = tx.hash) (h : (txs.map (·.hash)).Nodup) :
    ((Table.updateMany q f txs).map (·.hash)).Nodup := by
  rwa [Table.map_updateMany _ fun tx _ _ => keep tx]

/-- A transaction reverts. -/
theorem OneId.revert (h : OneId s) (hash : TxHash) : OneId { s with
    txs := Table.updateMany (fun tx => tx.hash == hash && tx.outcome == .pending)
      (fun tx => { tx with outcome := .reverted }) s.txs } where
  txHashes := txHashes_updateMany (fun _ => rfl) h.txHashes
  fulfilledOnce a ha b hb oka okb he := by
    obtain ⟨x, hx, rfl⟩ := Table.mem_updateMany.1 ha
    obtain ⟨y, hy, rfl⟩ := Table.mem_updateMany.1 hb
    split at oka
    · cases oka
    · split at okb
      · cases okb
      · rename_i px py
        rw [if_neg px, if_neg py] at he ⊢
        exact h.fulfilledOnce x hx y hy oka okb he
  oneId a ha b hb oka okb share := by
    obtain ⟨x, hx, rfl⟩ := Table.mem_updateMany.1 ha
    obtain ⟨y, hy, rfl⟩ := Table.mem_updateMany.1 hb
    split at oka
    · exact absurd rfl oka
    · split at okb
      · exact absurd rfl okb
      · rename_i px py
        rw [if_neg px, if_neg py] at share ⊢
        exact h.oneId x hx y hy oka okb share

/-- The vault mines a transaction whose order id is not fulfilled. -/
theorem OneId.mine (h : OneId s) {hash : TxHash} {ticketIds : List NftId} {tx : BuyTx} (htx : tx ∈ s.txs)
    (hh : tx.hash = hash) (pending : tx.outcome = .pending)
    (unfulfilled : isOrderFulfilled s.txs tx.orderId = false) : OneId { s with
      txs := Table.updateMany (·.hash == hash)
        (fun tx => { tx with outcome := .minted s.drawing ticketIds }) s.txs } := by
  have only : ∀ x ∈ s.txs, x.hash = hash → x = tx := fun x hx he =>
    List.inj_on_of_nodup_map h.txHashes hx htx (he.trans hh.symm)
  have others : ∀ x ∈ s.txs, x.ticketIds.isSome → x.orderId ≠ tx.orderId := by
    intro x hx ok he
    have := List.any_eq_false.1 unfulfilled x hx
    simp [he, ok] at this
  refine ⟨txHashes_updateMany (fun _ => rfl) h.txHashes, ?_, ?_⟩
  · intro a ha b hb oka okb he
    obtain ⟨x, hx, rfl⟩ := Table.mem_updateMany.1 ha
    obtain ⟨y, hy, rfl⟩ := Table.mem_updateMany.1 hb
    by_cases px : x.hash = hash <;> by_cases py : y.hash = hash
    · rw [only x hx px, only y hy py]
    · obtain rfl := only x hx px
      simp only [px, py, beq_iff_eq, if_true, if_false] at okb he
      exact absurd he.symm (others y hy okb)
    · obtain rfl := only y hy py
      simp only [px, py, beq_iff_eq, if_true, if_false] at oka he
      exact absurd he (others x hx oka)
    · simp only [px, py, beq_iff_eq, if_false] at oka okb he ⊢
      exact h.fulfilledOnce x hx y hy oka okb he
  · have live : ∀ x ∈ s.txs, x.hash = hash → x.outcome ≠ .reverted := by
      intro x hx he
      rw [only x hx he, pending]
      nofun
    have back : ∀ x ∈ s.txs, ∀ a, (if x.hash == hash then
        { x with outcome := .minted s.drawing ticketIds } else x) = a → a.outcome ≠ .reverted →
        x.outcome ≠ .reverted ∧ a.tickets = x.tickets ∧ a.orderId = x.orderId := by
      rintro x hx a rfl ok
      by_cases px : x.hash = hash
      · simp [px, live x hx px]
      · simpa [px] using ok
    intro a ha b hb oka okb share
    obtain ⟨x, hx, hxa⟩ := Table.mem_updateMany.1 ha
    obtain ⟨y, hy, hyb⟩ := Table.mem_updateMany.1 hb
    obtain ⟨okx, ticketsx, idx⟩ := back x hx a hxa oka
    obtain ⟨oky, ticketsy, idy⟩ := back y hy b hyb okb
    rw [idx, idy]
    exact h.oneId x hx y hy okx oky (ticketsx ▸ ticketsy ▸ share)

/-- **The broadcast rule**: a safe step keeps one order id for a ticket. -/
theorem OneId.step (h : OneId s) {a : Action} (ok : chunkSafe keccak256 s a = true)
    (hs : Relay.step keccak256 s a = some s') : OneId s' := by
  cases stepMove hs with
  | job | confirm | reset | requeue | rollover => exact { h with }
  | call hi move =>
    rcases (procStep_effect move).txs with same | ⟨b, chunk, txHash, rfl, hp, fresh, he⟩
    · exact ⟨same ▸ h.txHashes, same ▸ h.fulfilledOnce, same ▸ h.oneId⟩
    · have alike : ∀ old ∈ s.txs, old.outcome ≠ .reverted →
          shareTicket old.tickets chunk = true → old.orderId = deriveChunkOrderId keccak256 chunk := by
        intro old hold live share
        simp only [chunkSafe, hi, Option.bind_some, hp, List.all_eq_true] at ok
        simpa [live, share] using ok old hold
      have kept := h.submit
        ⟨txHash, deriveChunkOrderId keccak256 chunk, chunk, some b, .pending⟩ fresh rfl alike
      exact ⟨he ▸ kept.txHashes, he ▸ kept.fulfilledOnce, he ▸ kept.oneId⟩
  | mine can =>
    rw [canMine, Bool.and_eq_true] at can
    obtain ⟨tx, htx, hmine⟩ := List.any_eq_true.1 can.2
    simp only [Bool.and_eq_true, beq_iff_eq, Bool.not_eq_true'] at hmine
    exact h.mine htx hmine.1.1.1 hmine.1.1.2 hmine.1.2
  | revert => exact h.revert _

theorem OneId.initial (h : Initial keccak256 s) : OneId s where
  txHashes := h.txHashes
  fulfilledOnce tx htx _ _ ok := by
    rw [BuyTx.ticketIds, (h.single tx htx).2.1] at ok
    cases ok
  oneId tx htx tx' htx' _ _ share := by
    obtain ⟨-, -, o, -, he, perm⟩ := h.single tx htx
    obtain ⟨-, -, o', -, he', perm'⟩ := h.single tx' htx'
    obtain ⟨c, hc, c', hc', hid⟩ := shareTicket_iff.1 share
    obtain ⟨t, ht, rfl⟩ := List.mem_map.1 (perm.mem_iff.1 hc)
    obtain ⟨t', ht', rfl⟩ := List.mem_map.1 (perm'.mem_iff.1 hc')
    rw [List.mem_filter] at ht ht'
    obtain rfl := List.inj_on_of_nodup_map h.ticketIds ht'.1 ht.1 hid
    rw [he, he', ← beq_iff_eq.1 ht.2, ← beq_iff_eq.1 ht'.2]

end Steps

/-- **At-most-once relay.** As long as every broadcast chunk has the order id of all live
transactions that share a ticket with it, no ticket is bought twice. -/
theorem at_most_once {keccak256 : String → Bytes32} {s : State}
    (h : (machine keccak256).ReachableBy (fun s a => chunkSafe keccak256 s a = true) s) :
    AtMostOnce s :=
  (Machine.ReachableBy.invariant (fun _ => OneId.initial)
    (fun _ _ _ kept ok hs => OneId.step kept ok hs) h).atMostOnce

/-- The first job dies between the broadcast and the write of the hash; the reconciler resets
the order, and the next job releases the batch and broadcasts the rows as it finds them. -/
def relayTwice (first second : List ChunkTicket) : List Action :=
  lockJob 0 1 first ++ [.call 0 (.findStuck []) false] ++ sendChunk 0 first "b1" "0x1" ++
    [.call 0 .crash false, .reset "signature", .call 1 .write false] ++ lockJob 2 1 second ++
    [.call 2 (.findStuck [⟨"b1", none, first.take baseTicketChunkSize⟩]) false,
     .call 2 .write false] ++ sendChunk 2 second "b2" "0x2"

def sixteen : List Uuid :=
  ["1-", "2-", "3-", "4-", "5-", "6-", "7-", "8-", "9-", "10-", "11-", "12-", "13-", "14-", "15-", "16-"]

/-- Sixteen tickets, fifteen to a chunk: the second job reads them in another order, its chunk
is another set with another id, and both transactions succeed. -/
theorem bought_twice : ¬ ∀ keccak256 : String → Bytes32, Function.Injective keccak256 →
    ∀ s, (machine keccak256).Reachable s → AtMostOnce s := by
  intro all
  obtain ⟨s, hs, hp⟩ := Machine.exists_reachable_of_run (M := machine id)
    (initial_queued (alike sixteen) (by decide) (by decide +kernel))
    (relayTwice (alike sixteen) (alike sixteen).reverse ++
      [.mine "0x1" (List.range 15), .mine "0x2" (List.range' 15 15)])
    (fun s => s.txs.any fun tx => s.txs.any fun tx' => tx.hash != tx'.hash &&
      tx.ticketIds.isSome && tx'.ticketIds.isSome && shareTicket tx.tickets tx'.tickets)
    (by decide +kernel)
  simp only [List.any_eq_true, Bool.and_eq_true, bne_iff_ne] at hp
  obtain ⟨tx, htx, tx', htx', ⟨⟨differ, ok⟩, ok'⟩, share⟩ := hp
  exact differ (congrArg BuyTx.hash
    (all id Function.injective_id s hs tx htx tx' htx' ok ok' share))

/-- Two tickets are one chunk in any order: the second transaction has the id of the first
and reverts. -/
theorem at_most_once_two : ∃ s, ((s.txs.map fun tx => tx.ticketIds.isSome) = [true, false]) ∧
    AtMostOnce s := by
  obtain ⟨s, hs, hp⟩ := Machine.exists_reachableBy_of_runBy (M := machine id) (chunkSafe id)
    (initial_queued (alike ["1-", "2-"]) (by decide) (by decide +kernel))
    (relayTwice (alike ["1-", "2-"]) (alike ["2-", "1-"]) ++ [.mine "0x1" [1, 2], .revert "0x2"])
    (fun s => (s.txs.map fun tx => tx.ticketIds.isSome) == [true, false])
    (by decide +kernel)
  exact ⟨s, beq_iff_eq.1 hp, at_most_once hs⟩

end LordsPot.Relay
