import LordsPot.Relay.Kept

/-!
# Tickets and their NFTs

The ids of a receipt stand in the order of the transaction's tickets, and every path stamps
them by position. A job that confirms its own broadcast has the tickets in that order. A
recovery has them in the order a query returned them: the ids go to the right tickets as
long as, position by position, its rows have the numbers of the transaction's tickets.
-/

namespace LordsPot.Relay

open Transition

/-- A transaction minted the NFT for these numbers. -/
def MintedFor (txs : List BuyTx) (n : NftId) (balls : List Nat × Nat) : Prop :=
  ∃ tx ∈ txs, ∃ ticketIds, tx.ticketIds = some ticketIds ∧
    ∃ c, (c, n) ∈ tx.tickets.zip ticketIds ∧ c.balls = balls

/-- Every stamped ticket has the id of an NFT that was minted for its numbers. -/
def Mapped (s : State) : Prop :=
  ∀ t ∈ s.db.tickets, ∀ n, t.megapotNftId = some n → MintedFor s.txs n (t.normalBalls, t.bonusBall)

/-- Position by position, the tickets have the numbers of the transaction's. -/
def inOrder (txs : List BuyTx) (txHash : TxHash) (tickets : List ChunkTicket) : Bool :=
  txs.all fun tx => tx.hash != txHash ||
    (tickets.zip tx.tickets).all fun pair => pair.1.balls == pair.2.balls

/-- The job confirms the transaction it has broadcast for this batch itself. -/
def ownBroadcast (txs : List BuyTx) (b : Uuid) (txHash : TxHash) : Loop → Bool
  | .stuck _ => false
  | .fresh .. => txs.any fun tx => tx.hash == txHash && tx.batchId == some b

/-- A recovery stamps tickets that stand in the order of the transaction. -/
def stampSafe (s : State) : Action → Bool
  | .call i .write _ => match s.procs[i]? with
    | some (.relaying _ _ (.confirming b tickets txHash _ loop)) =>
      ownBroadcast s.txs b txHash loop || inOrder s.txs txHash tickets
    | some (.finalizing order txHash _ _) =>
      !finalizable s.db order.hash || inOrder s.txs txHash order.tickets
    | _ => true
  | _ => true

/-- An id for every ticket. -/
def Sized (txs : List BuyTx) : Prop :=
  ∀ tx ∈ txs, ∀ ticketIds, tx.ticketIds = some ticketIds → tx.tickets.length = ticketIds.length

section Steps

variable {keccak256 : String → Bytes32} {s s' : State} {p : Proc}

theorem MintedFor.grown {txs txs' : List BuyTx} (g : Grown txs txs') {n : NftId}
    {balls : List Nat × Nat} (h : MintedFor txs n balls) : MintedFor txs' n balls := by
  obtain ⟨tx, htx, ticketIds, ids, c, hc, hballs⟩ := h
  obtain ⟨tx', htx', -, -, tickets, -, ids'⟩ := g tx htx
  exact ⟨tx', htx', ticketIds, ids' _ ids, c, tickets ▸ hc, hballs⟩

/-- An id at a position of the rows was minted for the ticket at that position. -/
theorem mintedFor_of_inOrder {tx : BuyTx} (htx : tx ∈ s.txs) {ticketIds : List NftId}
    (ids : tx.ticketIds = some ticketIds) (sized : Sized s.txs) {tickets : List ChunkTicket}
    (same : ∀ pair ∈ tickets.zip tx.tickets, pair.1.balls = pair.2.balls) {pair : ChunkTicket × NftId}
    (hpair : pair ∈ tickets.zip ticketIds) : MintedFor s.txs pair.2 pair.1.balls := by
  obtain ⟨k, hk⟩ := List.mem_iff_getElem?.1 hpair
  obtain ⟨hc, hn⟩ := List.getElem?_zip_eq_some.1 hk
  obtain ⟨c', hc'⟩ : ∃ c', tx.tickets[k]? = some c' := by
    have bound := (List.getElem?_eq_some_iff.1 hn).1
    rw [← sized tx htx ticketIds ids] at bound
    exact ⟨_, List.getElem?_eq_getElem bound⟩
  have zipped : (pair.1, c') ∈ tickets.zip tx.tickets :=
    List.mem_of_getElem? (List.getElem?_zip_eq_some.2 ⟨hc, hc'⟩)
  exact ⟨tx, htx, ticketIds, ids, c',
    List.mem_of_getElem? (List.getElem?_zip_eq_some.2 ⟨hc', hn⟩), (same _ zipped).symm⟩

theorem inOrder_eq {txs : List BuyTx} {txHash : TxHash} {tickets : List ChunkTicket}
    (h : inOrder txs txHash tickets = true) {tx : BuyTx} (htx : tx ∈ txs) (hash : tx.hash = txHash) :
    ∀ pair ∈ tickets.zip tx.tickets, pair.1.balls = pair.2.balls := by
  have here := List.all_eq_true.1 h tx htx
  simp only [hash, bne_self_eq_false, Bool.false_or, List.all_eq_true, beq_iff_eq] at here
  exact here

/-- In the tickets' own order every position has its own numbers. -/
theorem zip_self {tickets : List ChunkTicket} :
    ∀ pair ∈ tickets.zip tickets, pair.1.balls = pair.2.balls := by
  intro pair hpair
  obtain ⟨k, hk⟩ := List.mem_iff_getElem?.1 hpair
  obtain ⟨h₁, h₂⟩ := List.getElem?_zip_eq_some.1 hk
  rw [Option.some.inj (h₁.symm.trans h₂)]

/-- What a safe call stamps was minted for the numbers of the ticket in hand. -/
theorem mintedFor_stamps (book : Book keccak256 s) (sized : Sized s.txs) {i : Nat} {call : Call}
    {lost : Bool} (hi : s.procs[i]? = some p) (ok : stampSafe s (.call i call lost) = true)
    {pair : ChunkTicket × NftId} (hpair : pair ∈ p.stamps s.db call) :
    MintedFor s.txs pair.2 pair.1.balls ∧ pair.1 ∈ p.inHand := by
  have known := book.procs p (List.mem_of_getElem? hi)
  unfold Proc.stamps at hpair
  split at hpair
  · rename_i order round b tickets txHash ticketIds loop
    refine ⟨?_, List.mem_append_right _ (List.mem_append_left _ (List.of_mem_zip hpair).1)⟩
    simp only [stampSafe, hi, Bool.or_eq_true] at ok
    obtain ⟨⟨tx, htx, hash, ids, -⟩, loopOk⟩ := known
    refine mintedFor_of_inOrder htx ids sized ?_ hpair
    rcases ok with own | rows
    · cases loop with
      | stuck rest => cases own
      | fresh batchIndex rest =>
        obtain ⟨sent, hsent, hs⟩ := List.any_eq_true.1 own
        rw [Bool.and_eq_true, beq_iff_eq, beq_iff_eq] at hs
        obtain rfl := book.tx_unique htx hsent (hash.trans hs.1.symm)
        obtain ⟨chunkTx, hchunk, batch, tickets⟩ := loopOk
        obtain rfl := book.oneTx tx htx chunkTx hchunk b hs.2 batch
        exact tickets ▸ zip_self
    · exact inOrder_eq rows htx hash
  · rename_i order txHash ticketIds round
    split at hpair
    · rename_i open?
      refine ⟨?_, (List.of_mem_zip hpair).1⟩
      simp only [stampSafe, hi, open?, Bool.not_true, Bool.false_or] at ok
      obtain ⟨tx, htx, hash, -, ids⟩ := known
      exact mintedFor_of_inOrder htx ids sized (inOrder_eq ok htx hash) hpair
    · cases hpair
  · cases hpair

theorem Sized.step (book : Book keccak256 s) (sized : Sized s.txs) {a : Action}
    (hs : Relay.step keccak256 s a = some s') :
    Sized s'.txs := by
  cases stepMove hs with
  | call here move =>
    rcases (procStep_effect move).txs with same | ⟨b, chunk, txHash, -, -, -, he⟩
    · exact same ▸ sized
    · intro tx htx ticketIds ids
      rw [he] at htx
      rcases List.mem_append.1 htx with old | new
      · exact sized tx old ticketIds ids
      · cases List.mem_singleton.1 new
        cases ids
  | mine can =>
    intro tx' htx' ticketIds ids
    obtain ⟨tx, htx, rfl⟩ := Table.mem_updateMany.1 htx'
    split at ids
    · rename_i hq
      obtain ⟨own, hown, hash', -, -, length⟩ := mined_tx can
      obtain rfl := book.tx_unique htx hown ((beq_iff_eq.1 hq).trans hash'.symm)
      cases ids
      rw [if_pos hq]
      exact length
    · rename_i hq
      rw [if_neg hq]
      exact sized tx htx ticketIds ids
  | revert =>
    intro tx' htx' ticketIds ids
    obtain ⟨tx, htx, rfl⟩ := Table.mem_updateMany.1 htx'
    split at ids
    · cases ids
    · rename_i hq
      rw [if_neg hq]
      exact sized tx htx ticketIds ids
  | _ => exact sized

/-- **The stamp rule**: a safe step keeps the mapping. -/
theorem Mapped.step (book : Book keccak256 s) (sized : Sized s.txs) (h : Mapped s) {a : Action}
    (ok : stampSafe s a = true) (hs : Relay.step keccak256 s a = some s') : Mapped s' := by
  have grown := book.grown_step hs
  have keep : s'.db.tickets = s.db.tickets → Mapped s' := fun same t ht n hn =>
    (h t (same ▸ ht) n hn).grown grown
  cases stepMove hs with
  | @call _ _ _ p _ _ hi move =>
    intro t' ht' n hn
    obtain ⟨t, ht, rule⟩ := (procStep_effect move).rows t' ht'
    have balls : (t'.normalBalls, t'.bonusBall) = (t.normalBalls, t.bonusBall) :=
      congrArg ChunkTicket.balls rule.columns
    rw [balls]
    refine MintedFor.grown grown ?_
    rcases rule.stamp with same | ⟨pair, hpair, hid, hset⟩
    · exact h t ht n (same ▸ hn)
    · obtain ⟨minted, held⟩ := mintedFor_stamps book sized hi ok hpair
      obtain ⟨row, hrow, he⟩ := List.mem_map.1 (book.inHand p (List.mem_of_getElem? hi) _ held)
      have own : row.id = t.id := (congrArg ChunkTicket.id he).trans hid
      obtain rfl := List.inj_on_of_nodup_map book.ticketIds hrow ht own
      rw [← he, ← Option.some.inj (hn.symm.trans hset)] at minted
      exact minted
  | _ => exact keep rfl

theorem Sized.initial (h : Initial keccak256 s) : Sized s.txs := by
  intro tx htx ticketIds ids
  rw [BuyTx.ticketIds, (h.single tx htx).2.1] at ids
  cases ids

theorem Mapped.initial (h : Initial keccak256 s) : Mapped s := by
  intro t ht n hn
  rw [h.unstamped t ht] at hn
  cases hn

end Steps

/-- **Tickets and their NFTs.** As long as every recovery stamps rows that stand in the order
of the transaction, each stamped ticket has an NFT of its own numbers. -/
theorem nfts_mapped {keccak256 : String → Bytes32} (injective : Function.Injective keccak256) {s : State}
    (h : (machine keccak256).ReachableBy (fun s a => stampSafe s a = true) s) : Mapped s := by
  have all : Book keccak256 s ∧ Sized s.txs ∧ Mapped s :=
    Machine.ReachableBy.invariant (I := fun s => Book keccak256 s ∧ Sized s.txs ∧ Mapped s)
      (fun s hi => ⟨.initial hi, .initial hi, .initial hi⟩)
      (fun s a s' ⟨book, sized, mapped⟩ ok hs =>
        ⟨book.step injective hs, sized.step book hs, mapped.step book sized ok hs⟩) h
  exact all.2.2

/-- Two tickets of different numbers. -/
def different : List ChunkTicket :=
  [{ id := "1-", normalBalls := [1, 2, 3, 4, 5], bonusBall := 1 },
   { id := "2-", normalBalls := [6, 7, 8, 9, 10], bonusBall := 2 }]

/-- The first job dies while it waits for the receipt, and the next one recovers the batch with
its tickets as the query returns them. -/
def recoverBatch (rows : List ChunkTicket) : List Action :=
  lockJob 0 1 different ++ [.call 0 (.findStuck []) false] ++ sendChunk 0 different "b" "0x1" ++
    [.call 0 .write false, .call 0 .crash false, .mine "0x1" [101, 102], .reset "signature",
     .call 1 .write false] ++ lockJob 2 1 different ++
    [.findStuck [⟨"b", some "0x1", rows⟩], .receipt (some true), .write].map
      fun call => .call 2 call false

/-- The rows come back in the other order: each ticket gets the other's NFT. -/
theorem nfts_swapped : ¬ ∀ keccak256 : String → Bytes32, Function.Injective keccak256 →
    ∀ s, (machine keccak256).Reachable s → Mapped s := by
  intro all
  obtain ⟨s, hs, hp⟩ := Machine.exists_reachable_of_run (M := machine id)
    (initial_queued different (by decide) (by decide +kernel)) (recoverBatch different.reverse)
    (fun s => (s.db.tickets.any fun t => t.megapotNftId == some 101 && t.bonusBall == 2) &&
      s.txs.all fun tx => (tx.tickets.zip (tx.ticketIds.getD [])).all fun pair =>
        pair.2 != 101 || pair.1.bonusBall == 1) (by decide +kernel)
  rw [Bool.and_eq_true, List.any_eq_true, List.all_eq_true] at hp
  obtain ⟨⟨t, ht, hn⟩, minted⟩ := hp
  rw [Bool.and_eq_true, beq_iff_eq, beq_iff_eq] at hn
  obtain ⟨tx, htx, ticketIds, ids, c, hc, balls⟩ := all id Function.injective_id s hs t ht 101 hn.1
  have own := minted tx htx
  rw [ids] at own
  have one := List.all_eq_true.1 own _ hc
  simp only [bne_self_eq_false, Bool.false_or, beq_iff_eq] at one
  have two : c.bonusBall = t.bonusBall := congrArg Prod.snd balls
  omega

/-- The same recovery with the rows in the order of the transaction. -/
theorem nfts_mapped_recovered :
    ∃ s, (s.db.tickets.map (·.megapotNftId) = [some 101, some 102]) ∧ Mapped s := by
  obtain ⟨s, hs, hp⟩ := Machine.exists_reachableBy_of_runBy (M := machine id) stampSafe
    (initial_queued different (by decide) (by decide +kernel)) (recoverBatch different)
    (fun s => s.db.tickets.map (·.megapotNftId) == [some 101, some 102]) (by decide +kernel)
  exact ⟨s, beq_iff_eq.1 hp, nfts_mapped Function.injective_id hs⟩

end LordsPot.Relay
