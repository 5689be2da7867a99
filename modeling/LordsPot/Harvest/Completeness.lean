import LordsPot.Harvest.Soundness
import LordsPot.Harvest.Book

/-!
# Harvest completeness

A prize that has reached the vault should never be on a ticket that the harvest thinks it still
has to collect. A release takes what one node sees for what happened: a transaction that is not
in its mempool can still be mined, and of two transactions of one batch the second reverts
because the first did not. Where the transaction that is not seen is never mined, the release is
right.
-/

namespace LordsPot.Harvest

open Transition

/-- A ticket that is still owed or quarantined has not been claimed on Base. -/
def Complete (s : State) : Prop :=
  ∀ t ∈ s.db.tickets, harvestable t = true → t.harvestBatchId = none ∨ t.id ∈ s.quarantined →
    ∀ n, t.megapotNftId = some n → ¬ Claimed s n

/-- A transaction that has been mined has the ticket's NFT. -/
def collected (s : State) (t : Ticket) : Bool :=
  t.megapotNftId.any fun n => s.txs.any fun tx => tx.mined == some true && tx.nftIds.contains n

/-- The ticket is drawn, and no longer owed, or bound and out of quarantine. -/
def inHand (s : State) (t : Ticket) : Bool :=
  t.winStatus != .DRAW_PENDING &&
    (!harvestable t || t.harvestBatchId.isSome && !s.quarantined.contains t.id)

/-- Claims are mined while the tickets are in hand, and tickets are let go or quarantined only when
no claim with the NFT of one that is still owed has been mined. -/
def completeSafe (s : State) : Action → Bool
  | .tick i .release => match s.ticks[i]? with
    | some (.releasing b _ _) =>
      s.db.tickets.all fun t => t.harvestBatchId != some b || !harvestable t || !collected s t
    | _ => true
  | .tick i .quarantine => match s.ticks[i]? with
    | some (.quarantining _ _ bad _) =>
      s.db.tickets.all fun t => !(bad.map (·.id)).contains t.id || !harvestable t || !collected s t
    | _ => true
  | .mine hash true => s.txs.all fun tx => tx.hash != hash ||
      s.db.tickets.all fun t => !t.megapotNftId.any tx.nftIds.contains || inHand s t
  | _ => true

/-- The tickets that have been collected are in hand. -/
def Held (s : State) : Prop := ∀ t ∈ s.db.tickets, collected s t = true → inHand s t = true

section Steps

variable {s s' : State}

theorem collected_iff {t : Ticket} : collected s t = true ↔
    ∃ n, t.megapotNftId = some n ∧ ∃ tx ∈ s.txs, tx.mined = some true ∧ n ∈ tx.nftIds := by
  simp only [collected, Option.any_eq_true, List.any_eq_true, Bool.and_eq_true, beq_iff_eq,
    List.contains_iff_mem]

theorem inHand_iff {t : Ticket} : inHand s t = true ↔ t.winStatus ≠ .DRAW_PENDING ∧
    (harvestable t = true → t.harvestBatchId ≠ none ∧ t.id ∉ s.quarantined) := by
  simp only [inHand, Bool.and_eq_true, bne_iff_ne, Bool.or_eq_true, Bool.not_eq_true',
    Option.isSome_iff_ne_none, List.contains_eq_mem, decide_eq_false_iff_not]
  cases harvestable t <;> simp

theorem Held.complete (held : Held s) : Complete s := by
  rintro t ht owed loose n hn ⟨tx, mem, mined, contains⟩
  have done : collected s t = true := collected_iff.2 ⟨n, hn, tx, mem, mined, contains⟩
  have hand := (inHand_iff.1 (held t ht done)).2 owed
  rcases loose with unbound | quarantined
  · exact hand.1 unbound
  · exact hand.2 quarantined

/-- A step with which nothing is mined, no ticket is let go and none is quarantined. -/
theorem Held.keeps (held : Held s)
    (txs : ∀ tx' ∈ s'.txs, tx'.mined = some true → tx' ∈ s.txs)
    (quarantined : ∀ id ∈ s'.quarantined, id ∈ s.quarantined)
    (rows : ∀ x' ∈ s'.db.tickets, ∃ x ∈ s.db.tickets, x'.megapotNftId = x.megapotNftId ∧
      (inHand s x = true → inHand s x' = true)) : Held s' := by
  intro x' hx' done
  obtain ⟨x, hx, nft, hand⟩ := rows x' hx'
  obtain ⟨n, hn, tx, mem, mined, contains⟩ := collected_iff.1 done
  have was := hand (held x hx (collected_iff.2 ⟨n, nft ▸ hn, tx, txs tx mem mined, mined, contains⟩))
  rw [inHand_iff] at was ⊢
  exact ⟨was.1, fun owed => ⟨(was.2 owed).1, fun q => (was.2 owed).2 (quarantined _ q)⟩⟩

/-- A step that changes only tickets, and keeps those in hand in hand. -/
theorem Held.tickets (held : Held s) {db : Db}
    (rows : ∀ x' ∈ db.tickets, ∃ x ∈ s.db.tickets, x'.megapotNftId = x.megapotNftId ∧
      (inHand s x = true → inHand s x' = true)) : Held { s with db := db } :=
  held.keeps (fun _ mem _ => mem) (fun _ => id) rows

theorem held_updateMany {p : Ticket → Bool} {f : Ticket → Ticket} (nft : ∀ x, (f x).megapotNftId = x.megapotNftId)
    (hand : ∀ x ∈ s.db.tickets, p x = true → inHand s x = true → inHand s (f x) = true) :
    ∀ x' ∈ Table.updateMany p f s.db.tickets, ∃ x ∈ s.db.tickets, x'.megapotNftId = x.megapotNftId ∧
      (inHand s x = true → inHand s x' = true) := by
  intro x' hx'
  obtain ⟨x, hx, rfl⟩ := Table.mem_updateMany.1 hx'
  refine ⟨x, hx, ?_⟩
  split
  · rename_i hp
    exact ⟨nft x, hand x hx hp⟩
  · exact ⟨rfl, id⟩

/-- A collected ticket is no longer owed. -/
theorem held_finalize {b : Uuid} {hash : TxHash} {now : Nat} (held : Held s) :
    Held { s with db := finalizeBatchSuccess s.db b hash now } :=
  held.tickets (held_updateMany (fun _ => rfl) fun _ _ _ _ =>
    inHand_iff.2 ⟨nofun, fun owed => by simp [harvestable] at owed⟩)

/-- Letting go of rows that have not been collected. -/
theorem held_unbind {b : Uuid} {db : Db} (held : Held s)
    (eq : db.tickets = Table.updateMany (·.harvestBatchId == some b)
      (fun x => { x with harvestBatchId := none }) s.db.tickets)
    (free : ∀ x ∈ s.db.tickets, x.harvestBatchId = some b → harvestable x = true → collected s x = false) :
    Held { s with db := db } := by
  intro x' hx' done
  simp only [eq] at hx'
  obtain ⟨x, hx, rfl⟩ := Table.mem_updateMany.1 hx'
  split at done
  · rename_i bound
    rw [if_pos bound]
    have hand := inHand_iff.1 (held x hx done)
    refine inHand_iff.2 ⟨hand.1, fun owed => ?_⟩
    have free := free x hx (beq_iff_eq.1 bound) owed
    rw [show collected s x = true from done] at free
    cases free
  · rename_i other
    rw [if_neg other]
    exact held x hx done

/-- **The completeness rule** for a tick's step. -/
theorem Held.tick (held : Held s) (book : Book s) {i : Nat} {t t' : Tick} {act : TickAct}
    {s₁ : State} (ht : s.ticks[i]? = some t) (ok : completeSafe s (.tick i act) = true)
    (effect : Effect s t act s₁ t') : Held s₁ := by
  cases effect with
  | submit fresh next =>
    refine held.keeps (fun tx mem mined => ?_) (fun _ => id) fun x hx => ⟨x, hx, rfl, id⟩
    rcases List.mem_append.1 mem with old | new
    · exact old
    · -- a broadcast is not mined yet
      cases List.mem_singleton.1 new
      cases mined
  | giveUp | confirm => exact held_finalize held
  | release =>
    rename_i b reason epochs
    refine held_unbind held rfl fun x hx bound owed => ?_
    simp only [completeSafe, ht, List.all_eq_true] at ok
    simpa [bound, owed] using ok x hx
  | delete =>
    rename_i b epochs
    exact held_unbind held rfl fun x hx bound _ => absurd bound (book.empty i _ b ht rfl x hx)
  | bind =>
    refine held.tickets (held_updateMany (fun _ => rfl) fun x _ _ hand => ?_)
    rw [inHand_iff] at hand ⊢
    exact ⟨hand.1, fun owed => ⟨nofun, (hand.2 owed).2⟩⟩
  | quarantine next =>
    rename_i e epochs good bad
    intro x hx done
    have hand := inHand_iff.1 (held x hx done)
    refine inHand_iff.2 ⟨hand.1, fun owed => ⟨(hand.2 owed).1, fun mem => ?_⟩⟩
    rcases List.mem_append.1 mem with old | new
    · exact (hand.2 owed).2 old
    · simp only [completeSafe, ht, List.all_eq_true] at ok
      have free := ok x hx
      rw [List.contains_iff_mem.2 new, owed, show collected s x = true from done] at free
      cases free
  | _ => exact held.keeps (fun _ mem _ => mem) (fun _ => id) fun x hx => ⟨x, hx, rfl, id⟩

theorem Held.step (held : Held s) (book : Book s) {a : Action} (ok : completeSafe s a = true)
    (hs : Harvest.step s a = some s') : Held s' := by
  have sameTxs : ∀ tx ∈ s.txs, tx.mined = some true → tx ∈ s.txs := fun _ mem _ => mem
  cases stepMove hs with
  | start | clock | settled => exact held.keeps sameTxs (fun _ => id) fun x hx => ⟨x, hx, rfl, id⟩
  | @tick _ _ _ _ s₁ here effect =>
    have kept : Held s₁ := held.tick book here ok effect
    exact kept
  | @mine hash success =>
    intro x hx done
    obtain ⟨n, hn, tx', mem, mined, contains⟩ := collected_iff.1 done
    obtain ⟨tx, old, rfl⟩ := Table.mem_updateMany.1 mem
    split at mined
    · -- the transaction that is mined now
      rename_i pending
      obtain rfl := Option.some.inj mined
      rw [Bool.and_eq_true, beq_iff_eq, beq_iff_eq] at pending
      rw [if_pos (by simp [pending])] at contains
      simp only [completeSafe, List.all_eq_true] at ok
      have hand := ok tx old
      simp only [pending.1, bne_self_eq_false, Bool.false_or, List.all_eq_true] at hand
      have kept : inHand s x = true := by simpa [hn, contains] using hand x hx
      exact kept
    · rename_i other
      rw [if_neg other] at contains
      exact held x hx (collected_iff.2 ⟨n, hn, tx, old, mined, contains⟩)
  | grade =>
    refine held.tickets (held_updateMany (fun _ => rfl) fun x _ pending hand => ?_)
    rw [Bool.and_eq_true, beq_iff_eq, beq_iff_eq] at pending
    exact absurd pending.2 (inHand_iff.1 hand).1
  | unquarantine =>
    refine held.keeps sameTxs ?_ fun x hx => ⟨x, hx, rfl, fun h => h⟩
    exact fun _ mem => (List.mem_filter.1 mem).1

end Steps

theorem Held.initial {s : State} (h : Initial s) : Held s := by
  intro t ht done
  obtain ⟨n, -, tx, mem, -⟩ := collected_iff.1 done
  rw [h.noTxs] at mem
  cases mem

/-- The process dies between the broadcast and the write of its hash; when the lock that it leaves
has expired, the batch is submitted again. -/
def submittedTwice : List Action :=
  bindOne ++ [.tick 0 (.submit "0x1" false), .tick 0 .crash, .clock (LOCK_TTL_SEC * 1000), .start] ++
    [.findInFlight (some "b"), .readBound, .estimate, .submit "0x2" false, .record].map (.tick 1)

/-- The transaction is nowhere to be seen, its batch is released, and the ticket goes into another
one. -/
def droppedAndRebuilt : List Action :=
  bindOne ++ [.submit "0x1" false, .record].map (.tick 0) ++ [.clock PENDING_TIMEOUT_MS, .start] ++
    [.findInFlight (some "b"), .getReceipt none, .getTransaction false, .release].map (.tick 1) ++
    .start :: [.findInFlight none, .find ["t"], .rehearse [], .create "c", .bind,
      .submit "0x2" false, .record].map (.tick 2)

end LordsPot.Harvest
