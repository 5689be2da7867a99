import LordsPot.Relay.Worker

/-!
# How a call can go

The step function of the processes read backwards: one case for each way in which an awaited call
ends, with what the environment has answered. What holds of every call is proved by going through
these cases.
-/

namespace LordsPot.Relay

/-- A process that knows no more than its order's hash, and ends with its next write. -/
def Proc.leaving : Proc → Bool
  | .deferring _ | .underfunded .. | .stranding _ | .pausing .. | .failing .. | .vanishing _
  | .bouncing .. | .rejecting .. | .ended => true
  | _ => false

section

variable (keccak256 : String → Bytes32)

/-- A call of a job inside its `try`. -/
inductive PhaseMove (s : State) (order : OrderRead) (round : Nat) :
    Phase → Call → State → Proc → Prop where
  | findStuck {stuck : List StuckBatch} (read : returnedStuck s.db order.hash stuck = true) :
      PhaseMove s order round .findingStuck (.findStuck stuck) s
        (.relaying order round (resolveBatches stuck))
  | timeout {b : Uuid} {tickets : List ChunkTicket} {txHash : TxHash} {loop : Loop} {reason : String} :
      PhaseMove s order round (.awaiting b tickets txHash loop) (.receipt none) s
        (.relaying order round (.releasing b tickets reason loop))
  | mined {b : Uuid} {tickets : List ChunkTicket} {txHash : TxHash} {loop : Loop}
      {ticketIds : List NftId} (minted : mintedIds s.txs txHash = some ticketIds) :
      PhaseMove s order round (.awaiting b tickets txHash loop) (.receipt (some true)) s
        (.relaying order round (.confirming b tickets txHash ticketIds loop))
  | reverted {b : Uuid} {tickets : List ChunkTicket} {txHash : TxHash} {loop : Loop} :
      PhaseMove s order round (.awaiting b tickets txHash loop) (.receipt (some false)) s
        (.relaying order round (.classifying b tickets txHash loop))
  | alreadyDone {b : Uuid} {tickets : List ChunkTicket} {txHash : TxHash} {loop : Loop} :
      PhaseMove s order round (.classifying b tickets txHash loop) (.classify .already_processed) s
        (.relaying order round (.findingExisting b tickets txHash loop))
  | refused {b : Uuid} {tickets : List ChunkTicket} {txHash : TxHash} {loop : Loop}
      {cls : RevertClass} {reason : String} :
      PhaseMove s order round (.classifying b tickets txHash loop) (.classify cls) s
        (.relaying order round (.releasing b tickets reason loop))
  | missing {b : Uuid} {tickets : List ChunkTicket} {txHash : TxHash} {loop : Loop} {reason : String} :
      PhaseMove s order round (.findingExisting b tickets txHash loop) (.findExisting none) s
        (.relaying order round (.releasing b tickets reason loop))
  | recovered {b : Uuid} {tickets : List ChunkTicket} {txHash existing : TxHash} {loop : Loop}
      {ticketIds : List NftId}
      (found : fulfillment s.txs (deriveChunkOrderId keccak256 tickets) existing = some ticketIds) :
      PhaseMove s order round (.findingExisting b tickets txHash loop) (.findExisting (some existing)) s
        (.relaying order round (.confirming b tickets existing ticketIds loop))
  | confirm {b : Uuid} {tickets : List ChunkTicket} {txHash : TxHash} {ticketIds : List NftId}
      {loop : Loop} :
      PhaseMove s order round (.confirming b tickets txHash ticketIds loop) .write
        { s with db := finalizeChunkSuccess s.db b tickets txHash ticketIds }
        (.relaying order round loop.next)
  | release {b : Uuid} {tickets : List ChunkTicket} {reason : String} {loop : Loop} :
      PhaseMove s order round (.releasing b tickets reason loop) .write
        { s with db := releaseChunk s.db b tickets reason } (loop.released order round)
  | noPending :
      PhaseMove s order round .findingPending (.findPending []) s (.relaying order round .collecting)
  | findPending {tickets : List ChunkTicket}
      (read : returned s.db (pending order.hash) tickets = true) :
      PhaseMove s order round .findingPending (.findPending tickets) s
        (.relaying order round (.counting tickets))
  | count {tickets : List ChunkTicket} {batchIndex : Nat} :
      PhaseMove s order round (.counting tickets) .count s
        (.relaying order round (submitChunks batchIndex (chunks baseTicketChunkSize tickets)))
  | create {b : Uuid} {batchIndex : Nat} {chunk : List ChunkTicket} {rest : List (List ChunkTicket)}
      (fresh : s.db.relayBatches.all (·.id != b) = true) :
      PhaseMove s order round (.creating batchIndex chunk rest) (.create b)
        { s with db := createBatch s.db b order.hash batchIndex }
        (.relaying order round (.binding b batchIndex chunk rest))
  | bind {b : Uuid} {batchIndex : Nat} {chunk : List ChunkTicket} {rest : List (List ChunkTicket)} :
      PhaseMove s order round (.binding b batchIndex chunk rest) .write
        { s with db := bindChunk s.db b chunk }
        (.relaying order round (.submitting b batchIndex chunk rest))
  | submit {b : Uuid} {batchIndex : Nat} {chunk : List ChunkTicket} {rest : List (List ChunkTicket)}
      {txHash : TxHash} (fresh : s.txs.all (·.hash != txHash) = true) :
      PhaseMove s order round (.submitting b batchIndex chunk rest) (.submit txHash)
        { s with
          txs := s.txs ++ [{ hash := txHash, orderId := deriveChunkOrderId keccak256 chunk,
                             tickets := chunk, batchId := some b }] }
        (.relaying order round (.recording b batchIndex chunk txHash rest))
  | record {b : Uuid} {batchIndex : Nat} {chunk : List ChunkTicket} {rest : List (List ChunkTicket)}
      {txHash : TxHash} :
      PhaseMove s order round (.recording b batchIndex chunk txHash rest) .write
        { s with db := setBatchTxHash s.db b txHash }
        (.relaying order round (.awaiting b chunk txHash (.fresh batchIndex rest)))
  | collect {ticketIds : List NftId} :
      PhaseMove s order round .collecting (.collect ticketIds) s
        (.relaying order round (.succeeding ticketIds))
  | succeed {ticketIds : List NftId} :
      PhaseMove s order round (.succeeding ticketIds) .write
        { s with db := succeedOrder s.db order.hash round ticketIds } .ended

/-- The last write of a process, but for the worker's SUCCESS. -/
inductive LastWrite (db : Db) : Proc → Db → Prop where
  | defer {hash : Bytes32} : LastWrite db (.deferring hash) (deferOrder db hash)
  | underfund {hash : Bytes32} {balance amountUsdc : Nat} :
      LastWrite db (.underfunded hash balance amountUsdc) (underfundOrder db hash balance amountUsdc)
  | finalize {order : OrderRead} {txHash : TxHash} {ticketIds : List NftId} {round : Option Nat} :
      LastWrite db (.finalizing order txHash ticketIds round)
        (finalizeOrderSuccess db order.hash order.tickets txHash ticketIds round)
  | strand {hash : Bytes32} : LastWrite db (.stranding hash) (strandOrder db hash)
  | pause {hash : Bytes32} {reason : String} :
      LastWrite db (.pausing hash reason) (pauseOrder db hash reason)
  | fail {hash : Bytes32} {isPermanent : Bool} {reason : String} :
      LastWrite db (.failing hash isPermanent reason) (failOrder db hash isPermanent reason)
  | bounce {hash : Bytes32} {reason : String} :
      LastWrite db (.bouncing hash reason) (bounceToRetry db hash reason)
  | reject {hash : Bytes32} {reason : String} :
      LastWrite db (.rejecting hash reason) (rejectOrder db hash reason)
  | reset {hash : Bytes32} : LastWrite db (.resetting hash) (resetOrder db hash)

/-- A call of a process. -/
inductive ProcMove (s : State) : Proc → Call → State → Proc → Prop where
  /-- Nothing is left but a write to the order, if that. -/
  | leave {p p' : Proc} {call : Call} (leaving : p'.leaving = true) : ProcMove s p call s p'
  | throw {p : Proc} : ProcMove s p .throw s p.thrown
  | phase {order : OrderRead} {round : Nat} {phase : Phase} {call : Call} {s' : State} {p' : Proc}
      (move : PhaseMove keccak256 s order round phase call s' p') :
      ProcMove s (.relaying order round phase) call s' p'
  | lastWrite {p : Proc} {db : Db} (write : LastWrite s.db p db) :
      ProcMove s p .write { s with db := db } .ended
  | read {hash : Bytes32} {tickets : List ChunkTicket} {o : RelayOrder}
      (found : s.db.order? hash = some o) (read : returned s.db (ofOrder hash) tickets = true) :
      ProcMove s (.reading hash) (.read tickets) s
        (.gating { hash := hash, amountUsdc := o.amountUsdc, tickets := tickets })
  | gate {order : OrderRead} {round : Nat} :
      ProcMove s (.gating order) (.gate round false) s (.funding order round)
  | fund {order : OrderRead} {round balance : Nat} :
      ProcMove s (.funding order round) (.balance balance) s (.locking order round)
  | lock {order : OrderRead} {round : Nat} :
      ProcMove s (.locking order round) .lock { s with db := lockOrder s.db order.hash }
        (.relaying order round .findingStuck)
  | lockTaken {order : OrderRead} {round : Nat} :
      ProcMove s (.locking order round) .lock { s with db := lockOrder s.db order.hash } .ended
  | alreadyDone {order : OrderRead} :
      ProcMove s (.catching order) (.classify .already_processed) s (.findingOrder order)
  | recovered {order : OrderRead} {existing : TxHash} {ticketIds : List NftId}
      (found : fulfillment s.txs order.hash existing = some ticketIds) :
      ProcMove s (.findingOrder order) (.findExisting (some existing)) s
        (.readingRound order existing ticketIds)
  | readRound {order : OrderRead} {txHash : TxHash} {ticketIds : List NftId} {round : Option Nat} :
      ProcMove s (.readingRound order txHash ticketIds) (.roundState round) s
        (.finalizing order txHash ticketIds round)
  | confirmerRead {hash : Bytes32} {tickets : List ChunkTicket} {o : RelayOrder}
      (found : s.db.order? hash = some o) (read : returned s.db (ofOrder hash) tickets = true) :
      ProcMove s (.confirmerReading hash) (.read tickets) s
        (.submitted { hash := hash, amountUsdc := o.amountUsdc, tickets := tickets } o.baseTxHash)
  | mined {order : OrderRead} {txHash : TxHash} {ticketIds : List NftId}
      (minted : mintedIds s.txs txHash = some ticketIds) :
      ProcMove s (.submitted order (some txHash)) (.receipt (some true)) s
        (.readingRound order txHash ticketIds)
  | reverted {order : OrderRead} {txHash : TxHash} :
      ProcMove s (.submitted order (some txHash)) (.receipt (some false)) s
        (.confirmerClassifying order txHash)
  | confirmerAlreadyDone {order : OrderRead} {txHash : TxHash} :
      ProcMove s (.confirmerClassifying order txHash) (.classify .already_processed) s
        (.confirmerFinding order)
  | confirmerRecovered {order : OrderRead} {existing : TxHash} {ticketIds : List NftId}
      (found : fulfillment s.txs order.hash existing = some ticketIds) :
      ProcMove s (.confirmerFinding order) (.findExisting (some existing)) s
        (.readingRound order existing ticketIds)

end

section

variable {keccak256 : String → Bytes32} {s s' : State} {p' : Proc} {call : Call}

theorem phaseMove {order : OrderRead} {round : Nat} {phase : Phase}
    (h : phaseStep keccak256 s order round phase call = some (s', p')) :
    PhaseMove keccak256 s order round phase call s' p' := by
  unfold phaseStep at h
  split at h
  case h_1 =>
    split at h
    · rename_i read
      cases h
      exact .findStuck read
    · cases h
  case h_2 => cases h; exact .timeout
  case h_3 =>
    obtain ⟨ticketIds, minted, same⟩ := Option.map_eq_some_iff.1 h
    cases same
    exact .mined minted
  case h_4 => split at h <;> cases h; exact .reverted
  case h_5 b tickets txHash loop cls =>
    cases h
    cases cls with
    | already_processed => exact .alreadyDone
    | paused | permanent | transient => exact .refused
  case h_6 => cases h; exact .missing
  case h_7 =>
    obtain ⟨ticketIds, found, same⟩ := Option.map_eq_some_iff.1 h
    cases same
    exact .recovered found
  case h_8 => cases h; exact .confirm
  case h_9 => cases h; exact .release
  case h_10 =>
    split at h
    · rename_i read
      cases h
      split
      · rename_i empty
        rw [List.isEmpty_iff.1 empty]
        exact .noPending
      · exact .findPending read
    · cases h
  case h_11 => cases h; exact .count
  case h_12 =>
    split at h
    · rename_i fresh
      cases h
      exact .create fresh
    · cases h
  case h_13 => cases h; exact .bind
  case h_14 =>
    split at h
    · rename_i fresh
      cases h
      exact .submit fresh
    · cases h
  case h_15 => cases h; exact .record
  case h_16 => split at h <;> cases h; exact .collect
  case h_17 => cases h; exact .succeed
  case h_18 => cases h

theorem procMove {p : Proc} (h : procStep keccak256 s p call = some (s', p')) :
    ProcMove keccak256 s p call s' p' := by
  unfold procStep at h
  split at h
  case h_1 =>
    split at h
    · cases h
      exact .leave rfl
    · rename_i found
      split at h
      · rename_i read
        cases h
        split
        · exact .read found read
        · exact .leave rfl
      · cases h
  case h_2 order round deferred =>
    cases h
    cases deferred with
    | true => exact .leave rfl
    | false => exact .gate
  case h_3 => cases h; exact .lastWrite .defer
  case h_4 =>
    cases h
    split
    · exact .leave rfl
    · exact .fund
  case h_5 => cases h; exact .lastWrite .underfund
  case h_6 =>
    cases h
    split
    · exact .lockTaken
    · exact .lock
  case h_7 order cls =>
    cases h
    cases cls with
    | already_processed => exact .alreadyDone
    | paused | permanent | transient => exact .leave rfl
  case h_9 =>
    obtain ⟨ticketIds, found, same⟩ := Option.map_eq_some_iff.1 h
    cases same
    exact .recovered found
  case h_10 => cases h; exact .readRound
  case h_11 => cases h; exact .lastWrite .finalize
  case h_12 => cases h; exact .lastWrite .strand
  case h_13 => cases h; exact .lastWrite .pause
  case h_14 => cases h; exact .lastWrite .fail
  case h_15 =>
    split at h
    · cases h
      exact .leave rfl
    · rename_i found
      split at h
      · rename_i read
        cases h
        split
        · exact .confirmerRead found read
        · exact .leave rfl
      · cases h
  case h_19 =>
    obtain ⟨ticketIds, minted, same⟩ := Option.map_eq_some_iff.1 h
    cases same
    exact .mined minted
  case h_20 => split at h <;> cases h; exact .reverted
  case h_23 order txHash cls =>
    cases h
    cases cls with
    | already_processed => exact .confirmerAlreadyDone
    | paused | permanent | transient => exact .leave rfl
  case h_25 =>
    obtain ⟨ticketIds, found, same⟩ := Option.map_eq_some_iff.1 h
    cases same
    exact .confirmerRecovered found
  case h_26 => cases h; exact .lastWrite .bounce
  case h_27 => cases h; exact .lastWrite .reject
  case h_28 => cases h; exact .lastWrite .reset
  case h_29 => cases h; exact .throw
  case h_31 => exact .phase (phaseMove h)
  case h_32 => cases h
  all_goals
    cases h
    exact .leave rfl

end

/-! ## The system -/

/-- What a step of the system does: a process starts, a call of one of them ends, or the chain or the
table moves by itself. -/
inductive StepMove (keccak256 : String → Bytes32) (s : State) : Action → State → Prop where
  | job {hash : Bytes32} : StepMove keccak256 s (.job hash) { s with procs := s.procs ++ [.reading hash] }
  | confirm {hash : Bytes32} :
      StepMove keccak256 s (.confirm hash) { s with procs := s.procs ++ [.confirmerReading hash] }
  | reset {hash : Bytes32} :
      StepMove keccak256 s (.reset hash) { s with procs := s.procs ++ [.resetting hash] }
  | requeue : StepMove keccak256 s .requeue { s with db := requeueDeferred s.db }
  | call {i : Nat} {call : Call} {lost : Bool} {p p' : Proc} {s₁ : State} (here : s.procs[i]? = some p)
      (move : procStep keccak256 s p call = some (s₁, p')) :
      StepMove keccak256 s (.call i call lost)
        { s₁ with procs := s.procs.set i (if lost then p.thrown else p') }
  | mine {hash : TxHash} {ticketIds : List NftId} (can : canMine s hash ticketIds = true) :
      StepMove keccak256 s (.mine hash ticketIds) { s with
        txs := Table.updateMany (·.hash == hash)
          (fun tx => { tx with outcome := .minted s.drawing ticketIds }) s.txs }
  | revert {hash : TxHash} : StepMove keccak256 s (.revert hash) { s with
      txs := Table.updateMany (fun tx => tx.hash == hash && tx.outcome == .pending)
        (fun tx => { tx with outcome := .reverted }) s.txs }
  | rollover {drawing : Nat} : StepMove keccak256 s (.rollover drawing) { s with drawing := drawing }

theorem stepMove {keccak256 : String → Bytes32} {s s' : State} {a : Action}
    (h : step keccak256 s a = some s') : StepMove keccak256 s a s' := by
  cases a with
  | job hash => cases h; exact .job
  | confirm hash => cases h; exact .confirm
  | reset hash =>
    simp only [step] at h
    split at h <;> cases h
    exact .reset
  | requeue => cases h; exact .requeue
  | call i call lost =>
    obtain ⟨p, here, h⟩ := Option.bind_eq_some_iff.1 h
    obtain ⟨⟨s₁, p'⟩, move, h⟩ := Option.bind_eq_some_iff.1 h
    cases h
    exact .call here move
  | mine hash ticketIds =>
    simp only [step] at h
    split at h
    · rename_i can
      cases h
      exact .mine can
    · cases h
  | revert hash => cases h; exact .revert
  | rollover drawing =>
    simp only [step] at h
    split at h <;> cases h
    exact .rollover

end LordsPot.Relay
