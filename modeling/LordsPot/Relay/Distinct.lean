import LordsPot.Library.Slices
import LordsPot.Relay.Kept

/-!
# No ticket twice in a transaction

A job cuts the pending tickets into chunks as it has read them, and broadcasts each chunk as it is:
the tickets of a transaction are as many as their ids.
-/

namespace LordsPot.Relay

open Transition

def Loop.toSend : Loop → List ChunkTicket
  | .stuck _ => []
  | .fresh _ rest => rest.flatten

/-- The tickets that a job has still to broadcast. -/
def Phase.toSend : Phase → List ChunkTicket
  | .counting tickets => tickets
  | .creating _ chunk rest | .binding _ _ chunk rest | .submitting _ _ chunk rest => chunk ++ rest.flatten
  | .recording _ _ _ _ rest => rest.flatten
  | .awaiting _ _ _ loop | .classifying _ _ _ loop | .findingExisting _ _ _ loop
  | .confirming _ _ _ _ loop | .releasing _ _ _ loop => loop.toSend
  | .findingStuck | .findingPending | .collecting | .succeeding _ => []

def Proc.toSend : Proc → List ChunkTicket
  | .relaying _ _ phase => phase.toSend
  | _ => []

structure Distinct (s : State) : Prop where
  txs : ∀ tx ∈ s.txs, (tx.tickets.map (·.id)).Nodup
  procs : ∀ p ∈ s.procs, (p.toSend.map (·.id)).Nodup

section

variable {keccak256 : String → Bytes32} {s s' : State} {p p' : Proc} {call : Call}

theorem toSend_resolveBatches (stuck : List StuckBatch) : (resolveBatches stuck).toSend = [] := by
  cases stuck with
  | nil => rfl
  | cons batch rest =>
    rw [resolveBatches]
    split <;> rfl

theorem toSend_submitChunks (batchIndex : Nat) (rest : List (List ChunkTicket)) :
    (submitChunks batchIndex rest).toSend = rest.flatten := by
  cases rest <;> rfl

theorem toSend_next (loop : Loop) : loop.next.toSend = loop.toSend := by
  cases loop with
  | stuck rest => exact toSend_resolveBatches rest
  | fresh batchIndex rest => exact toSend_submitChunks (batchIndex + 1) rest

theorem ids_of_returned {db : Db} {q : Ticket → Bool} {tickets : List ChunkTicket}
    (unique : (db.tickets.map (·.id)).Nodup) (read : returned db q tickets = true) :
    (tickets.map (·.id)).Nodup := by
  refine ((List.isPerm_iff.1 read).map (·.id)).nodup_iff.2 ?_
  rw [List.map_map]
  exact unique.sublist (List.filter_sublist.map _)

/-- What is left to send is cut off, or has been read from the table. -/
theorem distinct_phaseMove (unique : (s.db.tickets.map (·.id)).Nodup) {order : OrderRead} {round : Nat}
    {phase : Phase} (distinct : (phase.toSend.map (·.id)).Nodup)
    (move : PhaseMove keccak256 s order round phase call s' p') : (p'.toSend.map (·.id)).Nodup := by
  cases move with
  | findStuck => rw [Proc.toSend, toSend_resolveBatches]; exact List.nodup_nil
  | confirm => rw [Proc.toSend, toSend_next]; exact distinct
  | @release b tickets reason loop =>
    cases loop with
    | stuck rest => rw [Loop.released, Proc.toSend, toSend_resolveBatches]; exact List.nodup_nil
    | fresh batchIndex rest => exact List.nodup_nil
  | noPending | collect | succeed => exact List.nodup_nil
  | findPending read => exact ids_of_returned unique read
  | @count tickets batchIndex =>
    rw [Proc.toSend, toSend_submitChunks]
    exact (Slices.flatten_slices (k := baseTicketChunkSize) (by decide) tickets).symm ▸ distinct
  | submit =>
    rw [Phase.toSend, List.map_append] at distinct
    exact distinct.of_append_right
  | _ => exact distinct

theorem distinct_procStep (unique : (s.db.tickets.map (·.id)).Nodup)
    (distinct : (p.toSend.map (·.id)).Nodup) (h : procStep keccak256 s p call = some (s', p')) :
    (p'.toSend.map (·.id)).Nodup := by
  cases procMove h with
  | phase move => exact distinct_phaseMove unique distinct move
  | leave leaving => cases p' <;> first | exact List.nodup_nil | cases leaving
  | throw => cases p <;> exact List.nodup_nil
  | _ => exact List.nodup_nil

theorem Distinct.start (h : Distinct s) (idle : p.toSend = []) :
    Distinct { s with procs := s.procs ++ [p] } where
  txs := h.txs
  procs := List.forall_mem_append.2 ⟨h.procs, fun q new => by
    rw [List.mem_singleton.1 new, idle]
    exact List.nodup_nil⟩

/-- **The rule of distinct tickets**, where the table has every ticket once. -/
theorem Distinct.step (h : Distinct s) (unique : (s.db.tickets.map (·.id)).Nodup) {a : Action}
    (hs : Relay.step keccak256 s a = some s') : Distinct s' := by
  have outcomes : ∀ {q : BuyTx → Bool} {f : BuyTx → BuyTx}, (∀ tx, (f tx).tickets = tx.tickets) →
      ∀ tx ∈ Table.updateMany q f s.txs, (tx.tickets.map (·.id)).Nodup := by
    intro q f keep tx mem
    obtain ⟨old, was, rfl⟩ := Table.mem_updateMany.1 mem
    split
    · rw [keep]
      exact h.txs old was
    · exact h.txs old was
  cases stepMove hs with
  | job | confirm | reset => exact h.start rfl
  | requeue | rollover => exact ⟨h.txs, h.procs⟩
  | @call i call lost p p' s₁ here move =>
    have own := h.procs p (List.mem_of_getElem? here)
    refine ⟨?_, fun q hq => ?_⟩
    · rcases (procStep_effect move).txs with same | ⟨b, chunk, txHash, -, sends, -, more⟩
      · exact same ▸ h.txs
      · have chunked : (chunk.map (·.id)).Nodup := by
          unfold Proc.submits at sends
          split at sends
          · cases sends
            rw [Proc.toSend, Phase.toSend, List.map_append] at own
            exact own.of_append_left
          · cases sends
        rw [more]
        exact List.forall_mem_append.2 ⟨h.txs, fun tx new => List.mem_singleton.1 new ▸ chunked⟩
    · rcases List.mem_or_eq_of_mem_set hq with old | rfl
      · exact h.procs q old
      · cases lost with
        | true => cases p <;> exact List.nodup_nil
        | false => exact distinct_procStep unique own move
  | mine | revert => exact ⟨outcomes fun _ => rfl, h.procs⟩

end

end LordsPot.Relay
