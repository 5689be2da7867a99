import LordsPot.Harvest.Worker

/-!
# What a tick's step does

`tickStep` read once: which awaited call came back, what it found, and what was written. The
invariants of the harvest are derived from `Effect`, one case for each call that writes or reads
something a later step relies on.
-/

namespace LordsPot.Harvest

open Transition

/-- The tick carries nothing that a later step relies on. -/
def Tick.plain : Tick → Bool
  | .next _ | .lost .. | .catching .. | .mempool .. | .releasing .. | .building .. | .checkingOwed ..
  | .ended => true
  | _ => false

inductive Effect (s : State) : Tick → TickAct → State → Tick → Prop where
  | moves {t t' : Tick} {act : TickAct} (plain : t'.plain = true) : Effect s t act s t'
  | inFlight {e ageMs : Nat} {epochs : List Nat} {row : HarvestBatch} {hash : TxHash}
      (mem : row ∈ s.db.harvestBatches) (submitted : row.status = .SUBMITTED)
      (recorded : row.txHash = some hash) :
      Effect s (.next (e :: epochs)) (.findInFlight (some row.id)) s (.receipt row.id hash ageMs epochs)
  | readBound {b : Uuid} {ids : List NftId} {epochs : List Nat} (read : boundNftIds s.db b = some ids) :
      Effect s (.lost b epochs) .readBound s (.rehearsing b ids epochs)
  | estimate {b : Uuid} {ids : List NftId} {epochs : List Nat} (some : ids ≠ []) :
      Effect s (.rehearsing b ids epochs) .estimate s (.submitting true b ids epochs)
  | submit {recovery throws : Bool} {b : Uuid} {ids : List NftId} {epochs : List Nat} {hash : TxHash}
      {t' : Tick} (fresh : ∀ tx ∈ s.txs, tx.hash ≠ hash)
      (next : t' = .recording recovery b hash epochs ∨ t'.plain = true) :
      Effect s (.submitting recovery b ids epochs) (.submit hash throws)
        { s with txs := s.txs ++ [{ hash := hash, batchId := b, nftIds := ids }] } t'
  | record {recovery : Bool} {b : Uuid} {epochs : List Nat} {hash : TxHash} :
      Effect s (.recording recovery b hash epochs) .record
        { s with db := setBatchTxHash s.db b hash } (.next epochs)
  | giveUp {b : Uuid} {epochs : List Nat} :
      Effect s (.catching b epochs) .finalize
        { s with db := finalizeBatchSuccess s.db b UNKNOWN_HASH s.now } (.next epochs)
  | mined {b : Uuid} {hash : TxHash} {ageMs : Nat} {epochs : List Nat} {tx : ClaimTx}
      (mem : tx ∈ s.txs) (own : tx.hash = hash) (success : tx.mined = some true) :
      Effect s (.receipt b hash ageMs epochs) (.getReceipt (some true)) s (.landed b hash epochs)
  | confirm {b : Uuid} {hash : TxHash} {epochs : List Nat} :
      Effect s (.landed b hash epochs) .finalize
        { s with db := finalizeBatchSuccess s.db b hash s.now } (.next epochs)
  | release {b : Uuid} {reason : String} {epochs : List Nat} :
      Effect s (.releasing b reason epochs) .release
        { s with db := releaseBatch s.db b reason } (.next epochs)
  | find {e : Nat} {epochs : List Nat} {ids : List Uuid} {tickets : List BatchTicket}
      (read : findHarvestableTickets s.db e s.quarantined ids = some tickets) :
      Effect s (.building e epochs) (.find ids) s (.found e tickets epochs)
  | nothingOwed {e : Nat} {epochs : List Nat} (none : ∀ t ∈ s.db.tickets, owed s.db e t = false) :
      Effect s (.checkingOwed e epochs) .checkOwed s (.watermark e epochs)
  | setWatermark {e : Nat} {epochs : List Nat} :
      Effect s (.watermark e epochs) .setWatermark
        { s with
          db := { s.db with
            megapotEpochs := Table.updateMany (·.megapotId == e)
              (fun r => { r with ticketsHarvestedAt := some s.now }) s.db.megapotEpochs } }
        (.next epochs)
  | rehearse {e : Nat} {epochs : List Nat} {tickets good bad : List BatchTicket}
      {rejects : List (List NftId)} {t' : Tick} (split : (good ++ bad).Perm (tickets.take CHUNK_SIZE))
      (next : t' = .quarantining e good bad epochs ∨ good ≠ [] ∧ t' = .creating e good epochs ∨
        t'.plain = true) :
      Effect s (.found e tickets epochs) (.rehearse rejects) s t'
  | quarantine {e : Nat} {epochs : List Nat} {good bad : List BatchTicket} {t' : Tick}
      (next : good ≠ [] ∧ t' = .creating e good epochs ∨ t'.plain = true) :
      Effect s (.quarantining e good bad epochs) .quarantine
        { s with quarantined := s.quarantined ++ bad.map (·.id) } t'
  | create {e : Nat} {epochs : List Nat} {good : List BatchTicket} {id : Uuid}
      (fresh : freshBatch s id = true) :
      Effect s (.creating e good epochs) (.create id)
        { s with db := createBatch s.db id e (good.map (·.winAmount)).sum s.now }
        (.created id good epochs)
  | bind {b : Uuid} {good : List BatchTicket} {epochs : List Nat} {t' : Tick}
      (next : bindCount s.db (good.map (·.id)) = 0 ∧ t' = .deleting b epochs ∨
        bindCount s.db (good.map (·.id)) ≠ 0 ∧
          t' = .submitting false b (good.map (·.megapotNftId)) epochs) :
      Effect s (.created b good epochs) .bind
        { s with db := bindBatch s.db b (good.map (·.id)) } t'
  | delete {b : Uuid} {epochs : List Nat} :
      Effect s (.deleting b epochs) .delete { s with db := deleteBatch s.db b } (.next epochs)

/-- **The inversion rule** for a tick's steps. -/
theorem tickStep_effect {s s' : State} {t t' : Tick} {act : TickAct}
    (hs : tickStep s t act = some (s', t')) : Effect s t act s' t' := by
  unfold tickStep at hs
  split at hs
  case h_1 =>
    split at hs <;> cases hs
    exact .moves rfl
  case h_2 e epochs id =>
    split at hs
    · cases hs
    · rename_i row found
      split at hs
      · rename_i open?
        rw [Bool.and_eq_true, beq_iff_eq, beq_iff_eq] at open?
        split at hs
        · cases hs
          refine .moves ?_
          split <;> rfl
        · rename_i hash recorded
          cases hs
          obtain rfl := Table.key_of_findUnique found
          exact .inFlight (Table.mem_of_findUnique found) open?.2 recorded
      · cases hs
  case h_3 =>
    split at hs
    · cases hs
      exact .moves rfl
    · rename_i ids read
      cases hs
      exact .readBound read
  case h_4 b ids epochs =>
    split at hs
    · cases hs
    · rename_i nonempty
      cases hs
      exact .estimate fun empty => nonempty (List.isEmpty_iff.2 empty)
  case h_5 recovery b ids epochs hash throws =>
    split at hs
    · rename_i fresh
      cases hs
      refine .submit (by simpa using fresh) ?_
      cases throws with
      | false => exact .inl rfl
      | true => cases recovery <;> exact .inr rfl
    · cases hs
  case h_6 =>
    cases hs
    exact .record
  case h_7 =>
    cases hs
    exact .giveUp
  case h_8 =>
    cases hs
    refine .moves ?_
    split <;> rfl
  case h_9 b hash ageMs epochs status =>
    split at hs
    · rename_i seen
      obtain ⟨tx, mem, own⟩ := List.any_eq_true.1 seen
      rw [Bool.and_eq_true, beq_iff_eq, beq_iff_eq] at own
      cases hs
      cases status with
      | false => exact .moves rfl
      | true => exact .mined mem own.1 own.2
    · cases hs
  case h_10 =>
    cases hs
    refine .moves ?_
    split <;> rfl
  case h_11 =>
    cases hs
    exact .confirm
  case h_12 =>
    cases hs
    exact .release
  case h_13 =>
    split at hs
    · cases hs
    · cases hs
      exact .moves rfl
    · rename_i read
      cases hs
      exact .find read
  case h_14 =>
    cases hs
    split
    · exact .moves rfl
    · rename_i none
      exact .nothingOwed (by simpa using none)
  case h_15 =>
    cases hs
    exact .setWatermark
  case h_16 e tickets epochs rejects =>
    cases hs
    refine .rehearse (bisectClaimable_perm rejects _) ?_
    split
    · exact .inl rfl
    · split
      · exact .inr (.inr rfl)
      · rename_i nonempty
        exact .inr (.inl ⟨fun empty => nonempty (List.isEmpty_iff.2 empty), rfl⟩)
  case h_17 =>
    cases hs
    refine .quarantine ?_
    split
    · exact .inr rfl
    · rename_i nonempty
      exact .inl ⟨fun empty => nonempty (List.isEmpty_iff.2 empty), rfl⟩
  case h_18 =>
    split at hs
    · rename_i fresh
      cases hs
      exact .create fresh
    · cases hs
  case h_19 =>
    cases hs
    refine .bind ?_
    split
    · rename_i none
      exact .inl ⟨none, rfl⟩
    · rename_i some
      exact .inr ⟨some, rfl⟩
  case h_20 =>
    cases hs
    exact .delete
  case h_21 =>
    cases hs
    refine .moves ?_
    unfold Tick.thrown
    split <;> rfl
  case h_22 =>
    cases hs
    exact .moves rfl
  case h_23 => cases hs

/-- A step of the system: a step of a tick, or one of the environment. -/
inductive StepMove (s : State) : Action → State → Prop where
  | start : StepMove s .start { s with ticks := s.ticks ++ [.next (owingEpochs s.db)] }
  | tick {i : Nat} {act : TickAct} {t t' : Tick} {s₁ : State} (here : s.ticks[i]? = some t)
      (effect : Effect s t act s₁ t') :
      StepMove s (.tick i act) { s₁ with ticks := s.ticks.set i t' }
  | mine {hash : TxHash} {success : Bool} : StepMove s (.mine hash success) { s with
      txs := Table.updateMany (fun tx => tx.hash == hash && tx.mined == none)
        (fun tx => { tx with mined := some success }) s.txs }
  | clock {ms : Nat} : StepMove s (.clock ms) { s with now := s.now + ms }
  | grade {ticketId : Uuid} {winStatus : WinStatus} {winAmount : Nat}
      (graded : (winStatus == .LOST || winStatus == .WON_UNCLAIMED ||
        winStatus == .WON_FREE_TICKET) = true) :
      StepMove s (.grade ticketId winStatus winAmount)
        { s with db := gradeTicket s.db ticketId winStatus winAmount }
  | settled {e : Nat} : StepMove s (.settled e) { s with
      db := { s.db with
        megapotEpochs := Table.updateMany (·.megapotId == e)
          (fun r => { r with ticketsSettledAt := some s.now }) s.db.megapotEpochs } }
  | unquarantine {ticketId : Uuid} : StepMove s (.unquarantine ticketId)
      { s with quarantined := s.quarantined.filter (· != ticketId) }

theorem stepMove {s s' : State} {a : Action} (hs : step s a = some s') : StepMove s a s' := by
  cases a with
  | start => cases hs; exact .start
  | tick i act =>
    obtain ⟨t, here, hs⟩ := Option.bind_eq_some_iff.1 hs
    obtain ⟨⟨s₁, t'⟩, stepped, hs⟩ := Option.bind_eq_some_iff.1 hs
    cases hs
    exact .tick here (tickStep_effect stepped)
  | mine hash success =>
    simp only [step] at hs
    split at hs <;> cases hs
    exact .mine
  | clock ms => cases hs; exact .clock
  | grade ticketId winStatus winAmount =>
    simp only [step] at hs
    split at hs
    · rename_i graded
      cases hs
      exact .grade graded
    · cases hs
  | settled e => cases hs; exact .settled
  | unquarantine ticketId => cases hs; exact .unquarantine

end LordsPot.Harvest
