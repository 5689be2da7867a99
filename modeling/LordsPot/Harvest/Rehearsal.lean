import LordsPot.Library.Bisect
import LordsPot.Harvest.Exact

/-!
# The rehearsal of a batch

`bisectClaimable` with every call of `estimateClaimGas` and what it throws: the contract
rejects the batch, or the call does not reach it. The `catch` tells the two apart nowhere, so
the rehearsal is exact where every call reaches the contract, and quarantines a ticket for a
lost connection where the call for that ticket alone does not.
-/

namespace LordsPot.Harvest

open Bisection

/-- Why `estimateClaimGas` throws. -/
inductive EstimateError where
  | reverted
  /-- The RPC is down, a timeout, a rate limit. -/
  | transport
  deriving Repr, DecidableEq

/-- What each call of a rehearsal throws, for its place in the recursion and its batch. -/
abbrev Estimates := List Bool → List BatchTicket → Option EstimateError

/-- `bisectClaimable` with its calls; the `catch` does not look at the error. -/
def rehearsal (estimates : Estimates) (tickets : List BatchTicket) :
    Split BatchTicket EstimateError :=
  Bisection.bisect estimates tickets

/-- The estimates of a contract that rejects the id lists `rejects`, when every call reaches it. -/
def rejecting (rejects : List (List NftId)) : Estimates := fun _ tickets =>
  if rejects.contains (tickets.map (·.megapotNftId)) then some .reverted else none

/-- The tick's rehearsal is the one whose calls all reach the contract. -/
theorem bisectClaimable_eq (rejects : List (List NftId)) (tickets : List BatchTicket) :
    bisectClaimable rejects tickets =
      ((rehearsal (rejecting rejects) tickets).good, (rehearsal (rejecting rejects) tickets).bad) := by
  induction hn : tickets.length using Nat.strong_induction_on generalizing tickets with
  | h n ih =>
    obtain rfl | nonempty := eq_or_ne tickets []
    · rw [rehearsal, bisect_nil]
      rfl
    · by_cases rejected : rejects.contains (tickets.map (·.megapotNftId)) = true
      · have threw : rejecting rejects [] tickets = some .reverted := if_pos rejected
        by_cases one : tickets.length = 1
        · obtain ⟨t, rfl⟩ := List.length_eq_one_iff.1 one
          rw [rehearsal, bisect_alone threw, bisectClaimable, List.length_singleton, Harvest.bisect]
          simpa using rejected
        · have two : 2 ≤ tickets.length := by
            have pos := List.length_pos_iff.2 nonempty
            omega
          have left := ih _ (hn ▸ length_half_lt false two) (half false tickets) rfl
          have right := ih _ (hn ▸ length_half_lt true two) (half true tickets) rfl
          rw [bisectClaimable_split two rejected, rehearsal, bisect_halves two threw]
          simp only [half, Bool.false_eq_true, if_false, if_true] at left right ⊢
          rw [left, right]
          rfl
      · have passed : rejecting rejects [] tickets = none := if_neg rejected
        rw [rehearsal, bisect_passed nonempty passed, bisectClaimable]
        obtain ⟨n, length⟩ : ∃ n, tickets.length = n + 1 :=
          Nat.exists_eq_succ_of_ne_zero fun h => nonempty (List.length_eq_zero_iff.1 h)
        rw [length, Harvest.bisect, if_neg (by simpa using nonempty), if_pos (by simpa using rejected)]

/-- **The bisection is exact.** When a batch passes exactly if each of its tickets is claimable,
the claimable tickets are good and the others bad, each in their order and none lost, and a
batch of `n` tickets with `k` unclaimable ones takes at most `2 k ⌈log₂ n⌉ + 2 k + 1` calls. -/
theorem rehearsal_exact (claimable : BatchTicket → Bool) (estimates : Estimates)
    (agrees : Bisection.Agrees estimates claimable) (tickets : List BatchTicket) :
    ((rehearsal estimates tickets).good ++ (rehearsal estimates tickets).bad).Perm tickets ∧
      (rehearsal estimates tickets).good.Sublist tickets ∧
      (rehearsal estimates tickets).bad.Sublist tickets ∧
      (rehearsal estimates tickets).good = tickets.filter claimable ∧
      (rehearsal estimates tickets).bad = tickets.filter (fun t => !claimable t) ∧
      (rehearsal estimates tickets).calls.length ≤
        2 * (tickets.countP fun t => !claimable t) * Nat.clog 2 tickets.length +
          2 * (tickets.countP fun t => !claimable t) + 1 := by
  obtain ⟨good, bad⟩ := bisect_exact (l := tickets) agrees
  refine ⟨Bisection.bisect_perm _ _, good_sublist _ _, bad_sublist _ _, good, bad, ?_⟩
  have calls := length_calls_le (l := tickets) agrees
  rw [rehearsal]
  omega

/-- The estimates of a contract that claims all of a batch or nothing. -/
def allOrNothing (claimable : BatchTicket → Bool) : Estimates := fun _ tickets =>
  if tickets.all claimable then none else some .reverted

theorem allOrNothing_agrees (claimable : BatchTicket → Bool) :
    Bisection.Agrees (allOrNothing claimable) claimable := by
  intro p tickets _
  rw [← List.all_eq_true, allOrNothing]
  split <;> simp_all

/-- One bad ticket among four. -/
theorem rehearsal_exact_four :
    (rehearsal (allOrNothing (·.megapotNftId != 2))
      [⟨"a", 1, 5⟩, ⟨"b", 2, 5⟩, ⟨"c", 3, 5⟩, ⟨"d", 4, 5⟩]).bad = [⟨"b", 2, 5⟩] := by
  obtain ⟨-, -, -, -, bad, -⟩ := rehearsal_exact (·.megapotNftId != 2) _ (allOrNothing_agrees _)
    [⟨"a", 1, 5⟩, ⟨"b", 2, 5⟩, ⟨"c", 3, 5⟩, ⟨"d", 4, 5⟩]
  rw [bad]
  decide

/-! ## What is quarantined -/

/-- `harvestEpochStep` from the tickets it found to `sadd`. -/
def quarantineBad (s : State) (estimates : Estimates) (tickets : List BatchTicket) : State :=
  { s with
    quarantined := s.quarantined ++
      (rehearsal estimates (tickets.take CHUNK_SIZE)).bad.map (·.id) }

/-- The tick's two steps, the rehearsal and the write of the set, when every call reaches the
contract. -/
theorem tickStep_quarantineBad (s : State) (e : Nat) (tickets : List BatchTicket) (epochs : List Nat)
    (rejects : List (List NftId)) :
    ∃ t, tickStep s (.found e tickets epochs) (.rehearse rejects) = some (s, t) ∧
      ((∃ t', tickStep s t .quarantine = some (quarantineBad s (rejecting rejects) tickets, t')) ∨
        quarantineBad s (rejecting rejects) tickets = s) := by
  have same : (rehearsal (rejecting rejects) (tickets.take CHUNK_SIZE)).bad =
      (bisectClaimable rejects (tickets.take CHUNK_SIZE)).2 := by
    rw [bisectClaimable_eq]
  by_cases allGood : (bisectClaimable rejects (tickets.take CHUNK_SIZE)).2 = []
  · refine ⟨_, rfl, .inr ?_⟩
    rw [quarantineBad, same, allGood, List.map_nil, List.append_nil]
  · have bad : (!(bisectClaimable rejects (tickets.take CHUNK_SIZE)).2.isEmpty) = true := by
      rw [Bool.not_eq_true', List.isEmpty_eq_false_iff]
      exact allGood
    refine ⟨.quarantining e (bisectClaimable rejects (tickets.take CHUNK_SIZE)).1
      (bisectClaimable rejects (tickets.take CHUNK_SIZE)).2 epochs, ?_, .inl ?_⟩
    · simp only [tickStep]
      rw [if_pos bad]
    · rw [quarantineBad, same]
      exact ⟨_, rfl⟩

/-- A ticket that the step adds to the set was rejected by the contract when rehearsed alone. -/
def OnEvidence (s : State) (estimates : Estimates) (tickets : List BatchTicket) : Prop :=
  ∀ i ∈ (quarantineBad s estimates tickets).quarantined, i ∉ s.quarantined →
    ∃ t, t.id = i ∧
      ([t], some .reverted) ∈ (rehearsal estimates (tickets.take CHUNK_SIZE)).calls

/-- The calls for one ticket alone that the rehearsal comes to all reach the contract. -/
def AloneReaches (estimates : Estimates) (tickets : List BatchTicket) : Prop :=
  ∀ p t, Reached estimates (tickets.take CHUNK_SIZE) p →
    part (tickets.take CHUNK_SIZE) p = [t] → estimates p [t] ≠ some .transport

section Find

variable {db : Db} {e : Nat} {quarantined ids : List Uuid} {tickets : List BatchTicket}

/-- The tickets found are not in quarantine. -/
theorem not_quarantined_of_find (h : findHarvestableTickets db e quarantined ids = some tickets)
    {t : BatchTicket} (ht : t ∈ tickets) : t.id ∉ quarantined := by
  unfold findHarvestableTickets at h
  simp only at h
  split at h
  · cases h
    have free := (List.mem_filter.1 ht).2
    simpa using free
  · cases h

end Find

/-- **Quarantine on evidence only.** A step quarantines only what the contract rejected alone,
exactly when the calls for one ticket alone all reach the contract. -/
theorem onEvidence_iff {s : State} {e : Nat} {ids : List Uuid} {tickets : List BatchTicket}
    (found : findHarvestableTickets s.db e s.quarantined ids = some tickets)
    (estimates : Estimates) :
    OnEvidence s estimates tickets ↔ AloneReaches estimates tickets := by
  have distinct : ((tickets.take CHUNK_SIZE).map (·.id)).Nodup :=
    (selected_find found).distinct.sublist ((List.take_sublist _ _).map _)
  constructor
  · intro evidence p t reached alone lost
    have call : ([t], some .transport) ∈ (rehearsal estimates (tickets.take CHUNK_SIZE)).calls :=
      mem_calls.2 ⟨p, reached, alone, lost⟩
    have bad : t ∈ (rehearsal estimates (tickets.take CHUNK_SIZE)).bad := mem_bad.2 ⟨_, call⟩
    have inChunk : t ∈ tickets.take CHUNK_SIZE := (bad_sublist _ _).subset bad
    obtain ⟨t', same, reverted⟩ := evidence t.id
      (List.mem_append_right _ (List.mem_map_of_mem bad))
      (not_quarantined_of_find found (List.mem_of_mem_take inChunk))
    obtain ⟨q, reached', alone', threw⟩ := mem_calls.1 reverted
    have inChunk' : t' ∈ tickets.take CHUNK_SIZE :=
      mem_of_mem_part (p := q) (by rw [alone']; exact List.mem_singleton_self _)
    obtain rfl : t' = t := List.inj_on_of_nodup_map distinct inChunk' inChunk same
    obtain rfl := reached_unique distinct.of_map reached reached' alone alone'
    rw [lost] at threw
    cases threw
  · intro reaches i hi new
    obtain old | added := List.mem_append.1 hi
    · exact absurd old new
    · obtain ⟨t, bad, rfl⟩ := List.mem_map.1 added
      obtain ⟨error, call⟩ := mem_bad.1 bad
      refine ⟨t, rfl, ?_⟩
      obtain ⟨p, reached, alone, threw⟩ := mem_calls.1 call
      cases error with
      | reverted => exact call
      | transport => exact absurd threw (reaches p t reached alone)

/-- The contract rejects the one winner alone, and it is quarantined for that. -/
theorem onEvidence_rejected :
    findHarvestableTickets oneWinner.db 1 oneWinner.quarantined ["t"] = some [⟨"t", 7, 10⟩] ∧
      OnEvidence oneWinner (rejecting [[7]]) [⟨"t", 7, 10⟩] := by
  have found : findHarvestableTickets oneWinner.db 1 oneWinner.quarantined ["t"] =
      some [⟨"t", 7, 10⟩] := by decide
  refine ⟨found, (onEvidence_iff found _).2 ?_⟩
  intro p t _ _
  rw [rejecting]
  split <;> simp

/-- The call for a claimable ticket times out, and the ticket is quarantined. -/
theorem quarantined_by_timeout : ¬ ∀ (s : State) (e : Nat) (ids : List Uuid)
    (tickets : List BatchTicket) (estimates : Estimates),
    findHarvestableTickets s.db e s.quarantined ids = some tickets →
      OnEvidence s estimates tickets := by
  intro all
  have found : findHarvestableTickets oneWinner.db 1 oneWinner.quarantined ["t"] =
      some [⟨"t", 7, 10⟩] := by decide
  have added : "t" ∈ (quarantineBad oneWinner (fun _ _ => some .transport)
      [⟨"t", 7, 10⟩]).quarantined := by decide +kernel
  obtain ⟨t, -, reverted⟩ := all oneWinner 1 ["t"] _ _ found "t" added (by decide)
  obtain ⟨_, _, _, threw⟩ := mem_calls.1 reverted
  cases threw

end LordsPot.Harvest
