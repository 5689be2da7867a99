import LordsPot.Frontend.Tickets
import LordsPot.Library.Machine

/-!
# The staged tickets of the page

`ticketBuilderStore.ts`: nine operations on the basket. Indices and balls are any integers, and the
ranges are those of the call. An operation carries the results of `Math.random()` that its quick
picks read, and it is no step while a quick pick goes on after them.

Whatever the operations, a ticket in the basket is ascending (`basket_of_reachable`). The page then
needs to check no order, and the program needs to check no repetition.
-/

namespace LordsPot.Frontend

open Program Transition

def MAX_STAGED_TICKETS : Nat := 200

inductive StoreAction where
  | removeTicket (index : Int)
  | clearTickets
  | syncStagedCount (n : Int) (normalMax bonusMax : Nat) (random : List Random)
  | shuffleTicket (index : Int) (normalMax bonusMax : Nat) (random : List Random)
  | clearTicketBalls (index : Int)
  | toggleTicketNormal (index n : Int)
  | toggleTicketBonus (index n : Int)
  | shuffleAllTickets (normalMax bonusMax : Nat) (random : List Random)
  | clearAllTicketBalls

/-- So many quick picks, one after the other. -/
def quickPicks (normalMax bonusMax : Nat) : Nat → List Random → Option (List StagedTicket)
  | 0, _ => some []
  | count + 1, random => do
    let (t, random) ← generateQuickPick normalMax bonusMax random
    let more ← quickPicks normalMax bonusMax count random
    some (t :: more)

/-- `stagedTickets.map((t, i) => (i === index ? f(t) : t))`. -/
def mapAt (index : Int) (f : StagedTicket → StagedTicket) (stagedTickets : List StagedTicket) :
    List StagedTicket :=
  stagedTickets.mapIdx fun i t => if (i : Int) = index then f t else t

def StagedTicket.toggleNormal (n : Int) (t : StagedTicket) : StagedTicket :=
  if t.normals.contains n then
    { t with normals := t.normals.filter (· != n), isQuickPick := false }
  else if 5 ≤ t.normals.length then t
  else { t with normals := sortedNormals (t.normals ++ [n]), isQuickPick := false }

def StagedTicket.toggleBonus (n : Int) (t : StagedTicket) : StagedTicket :=
  { t with bonus := if t.bonus = some n then none else some n, isQuickPick := false }

def stepStore (stagedTickets : List StagedTicket) : StoreAction → Option (List StagedTicket)
  | .removeTicket index =>
      some ((stagedTickets.zipIdx.filter fun (_, i) => (i : Int) != index).map (·.1))
  | .clearTickets => some []
  | .syncStagedCount n normalMax bonusMax random =>
      let target := (max 0 (min n MAX_STAGED_TICKETS)).toNat
      if target = stagedTickets.length then some stagedTickets
      else if target < stagedTickets.length then some (stagedTickets.take target)
      else do
        let toAdd ← quickPicks normalMax bonusMax (target - stagedTickets.length) random
        some (stagedTickets ++ toAdd)
  | .shuffleTicket index normalMax bonusMax random =>
      -- no ticket is picked for an index that no row has
      if 0 ≤ index ∧ index < stagedTickets.length then do
        let (t, _) ← generateQuickPick normalMax bonusMax random
        some (mapAt index (fun _ => t) stagedTickets)
      else some stagedTickets
  | .clearTicketBalls index => some (mapAt index (fun _ => emptyTicket) stagedTickets)
  | .toggleTicketNormal index n => some (mapAt index (·.toggleNormal n) stagedTickets)
  | .toggleTicketBonus index n => some (mapAt index (·.toggleBonus n) stagedTickets)
  | .shuffleAllTickets normalMax bonusMax random =>
      quickPicks normalMax bonusMax stagedTickets.length random
  | .clearAllTicketBalls => some (stagedTickets.map fun _ => emptyTicket)

/-- The store opens with an empty basket. -/
def ticketBuilderStore : Machine (List StagedTicket) StoreAction := ⟨(· = []), stepStore⟩

/-! ## The invariant of the basket -/

/-- Ascending, and at most five. -/
structure Staged (t : StagedTicket) : Prop where
  ascending : t.normals.Pairwise (· < ·)
  few : t.normals.length ≤ 5

structure Basket (stagedTickets : List StagedTicket) : Prop where
  staged : ∀ t ∈ stagedTickets, Staged t
  few : stagedTickets.length ≤ MAX_STAGED_TICKETS

section Operations

variable {normalMax bonusMax : Nat} {t : StagedTicket} {n index : Int}
  {stagedTickets : List StagedTicket}

theorem staged_emptyTicket : Staged emptyTicket := by
  constructor
  · exact .nil
  · exact Nat.zero_le 5

theorem Picked.staged (h : Picked normalMax bonusMax t) : Staged t := ⟨h.ascending, h.five.le⟩

theorem Staged.toggleNormal (h : Staged t) : Staged (t.toggleNormal n) := by
  unfold StagedTicket.toggleNormal
  split
  · exact ⟨h.ascending.filter _, (List.length_filter_le _ _).trans h.few⟩
  · rename_i absent
    split
    · exact h
    · rename_i room
      have fresh : n ∉ t.normals := fun present => absent (List.contains_iff_mem.2 present)
      have distinct : (t.normals ++ [n]).Nodup := by
        rw [← List.concat_eq_append]
        exact List.Nodup.concat fresh (h.ascending.imp fun less => less.ne)
      refine ⟨ascending_sortedNormals distinct, ?_⟩
      show (sortedNormals (t.normals ++ [n])).length ≤ 5
      rw [sortedNormals, List.length_insertionSort, List.length_append, List.length_singleton]
      omega

theorem Staged.toggleBonus (h : Staged t) : Staged (t.toggleBonus n) := ⟨h.ascending, h.few⟩

theorem quickPicks_spec {count : Nat} {random : List Random} {picks : List StagedTicket}
    (h : quickPicks normalMax bonusMax count random = some picks) :
    picks.length = count ∧ ∀ t ∈ picks, Staged t := by
  induction count generalizing random picks with
  | zero =>
    cases h
    exact ⟨List.length_nil, List.forall_mem_nil _⟩
  | succ count ih =>
    obtain ⟨⟨t, left⟩, picked, h⟩ := Option.bind_eq_some_iff.1 h
    obtain ⟨more, others, h⟩ := Option.bind_eq_some_iff.1 h
    cases h
    obtain ⟨length, staged⟩ := ih others
    refine ⟨by rw [List.length_cons, length], List.forall_mem_cons.2 ⟨?_, staged⟩⟩
    exact (picked_of_generate picked).staged

/-- What is done to one row. -/
theorem Basket.mapAt {f : StagedTicket → StagedTicket} (h : Basket stagedTickets)
    (kept : ∀ t, Staged t → Staged (f t)) : Basket (mapAt index f stagedTickets) := by
  constructor
  · intro t ht
    obtain ⟨i, inside, rfl⟩ := List.mem_mapIdx.1 ht
    have old := h.staged _ (List.getElem_mem inside)
    split
    · exact kept _ old
    · exact old
  · rw [Frontend.mapAt, List.length_mapIdx]
    exact h.few

/-- Fewer of the same rows. -/
theorem Basket.sublist {fewer : List StagedTicket} (h : Basket stagedTickets)
    (sublist : fewer.Sublist stagedTickets) : Basket fewer :=
  ⟨fun t ht => h.staged t (sublist.subset ht), sublist.length_le.trans h.few⟩

end Operations

theorem basket_step {before after : List StagedTicket} {a : StoreAction} (h : Basket before)
    (hs : stepStore before a = some after) : Basket after := by
  cases a with
  | removeTicket index =>
    cases hs
    refine h.sublist ?_
    have all : before.zipIdx.map (·.1) = before := List.zipIdx_map_fst 0 before
    conv_rhs => rw [← all]
    exact List.filter_sublist.map _
  | clearTickets =>
    cases hs
    exact h.sublist (List.nil_sublist _)
  | syncStagedCount n normalMax bonusMax random =>
    simp only [stepStore] at hs
    have small : (max 0 (min n MAX_STAGED_TICKETS)).toNat ≤ MAX_STAGED_TICKETS := by omega
    split at hs
    · cases hs
      exact h
    · split at hs
      · cases hs
        exact h.sublist (List.take_sublist _ _)
      · obtain ⟨toAdd, picked, hs⟩ := Option.bind_eq_some_iff.1 hs
        cases hs
        obtain ⟨length, staged⟩ := quickPicks_spec picked
        refine ⟨fun t ht => ?_, ?_⟩
        · rcases List.mem_append.1 ht with old | new
          · exact h.staged t old
          · exact staged t new
        · rw [List.length_append, length]
          omega
  | shuffleTicket index normalMax bonusMax random =>
    simp only [stepStore] at hs
    split at hs
    · obtain ⟨⟨t, _⟩, picked, hs⟩ := Option.bind_eq_some_iff.1 hs
      cases hs
      exact h.mapAt fun _ _ => (picked_of_generate picked).staged
    · cases hs
      exact h
  | clearTicketBalls index =>
    cases hs
    exact h.mapAt fun _ _ => staged_emptyTicket
  | toggleTicketNormal index n =>
    cases hs
    exact h.mapAt fun _ old => old.toggleNormal
  | toggleTicketBonus index n =>
    cases hs
    exact h.mapAt fun _ old => old.toggleBonus
  | shuffleAllTickets normalMax bonusMax random =>
    obtain ⟨length, staged⟩ := quickPicks_spec hs
    exact ⟨staged, length.le.trans h.few⟩
  | clearAllTicketBalls =>
    cases hs
    refine ⟨fun t ht => ?_, (List.length_map _).le.trans h.few⟩
    obtain ⟨_, -, rfl⟩ := List.mem_map.1 ht
    exact staged_emptyTicket

theorem basket_of_reachable {stagedTickets : List StagedTicket}
    (h : ticketBuilderStore.Reachable stagedTickets) : Basket stagedTickets := by
  refine h.invariant (I := Basket) ?_ ?_
  · rintro _ rfl
    exact ⟨List.forall_mem_nil _, Nat.zero_le _⟩
  · intro before a after old _ hs
    exact basket_step old hs

/-- **The page and the program agree on every basket**: its tickets are ascending and few, and a
ticket is complete exactly if its numbers are bytes and the program accepts their encoding. -/
theorem complete_iff_accepted_staged (coder : Coder) (stagedTickets : List StagedTicket)
    (h : ticketBuilderStore.Reachable stagedTickets) :
    (∀ t ∈ stagedTickets, t.normals.Pairwise (· < ·) ∧ t.normals.length ≤ 5) ∧
    stagedTickets.length ≤ 200 ∧
    ∀ state : LordsPotState, state.normalMax < 256 → state.bonusMax < 256 → ∀ t ∈ stagedTickets,
      isTicketComplete t state.normalMax state.bonusMax = true ↔ Bytes t ∧ Accepted coder state t := by
  have basket := basket_of_reachable h
  refine ⟨fun t ht => ?_, basket.few, fun state normals bonus t ht => ?_⟩
  · exact ⟨(basket.staged t ht).ascending, (basket.staged t ht).few⟩
  · rw [isTicketComplete_iff]
    exact complete_iff_accepted ⟨normals, bonus⟩ (basket.staged t ht).ascending

/-- One ticket, picked by hand. -/
def picking (first : Int) : List StoreAction :=
  [.syncStagedCount 1 30 10 ((List.range 6).map (cycle 30 (by decide))), .clearTicketBalls 0,
   .toggleTicketNormal 0 first, .toggleTicketNormal 0 2, .toggleTicketNormal 0 3,
   .toggleTicketNormal 0 4, .toggleTicketNormal 0 5, .toggleTicketBonus 0 1]

/-- A state with the ranges of the fallback. -/
def thirtyTen : LordsPotState where
  normalMax := 30
  bonusMax := 10
  ticketPrice := 1000000
  ongoingEpoch := 1
  isLordsPotPaused := false
  admin := "admin"
  version := STATE_VERSION
  relayFeeBase := 0
  relayFeePerTicket := 0
  feeRecipient := "admin"
  maxTicketsPerPurchase := 65
  maxClaimAmount := 500
  treasuryAuthority := "treasury"

theorem reachable_of_run {as : List StoreAction} {stagedTickets : List StagedTicket}
    (h : ticketBuilderStore.run [] as = some stagedTickets) :
    ticketBuilderStore.Reachable stagedTickets := .run (.start rfl) h

/-- A normal picked as −255 is sent as 1: the program accepts what the page calls incomplete. -/
theorem wrapped : ¬ ∀ (coder : Coder) (stagedTickets : List StagedTicket),
    ticketBuilderStore.Reachable stagedTickets →
    (∀ t ∈ stagedTickets, t.normals.Pairwise (· < ·) ∧ t.normals.length ≤ 5) ∧
    stagedTickets.length ≤ 200 ∧
    ∀ state : LordsPotState, state.normalMax < 256 → state.bonusMax < 256 → ∀ t ∈ stagedTickets,
      isTicketComplete t state.normalMax state.bonusMax = true ↔ Accepted coder state t := by
  intro all
  have basket : ticketBuilderStore.Reachable [⟨[-255, 2, 3, 4, 5], some 1, false⟩] :=
    reachable_of_run (show ticketBuilderStore.run [] (picking (-255)) = _ by decide +kernel)
  obtain ⟨-, -, agree⟩ := all coder _ basket
  have accepted : Accepted coder thirtyTen ⟨[-255, 2, 3, 4, 5], some 1, false⟩ :=
    ⟨⟨[1, 2, 3, 4, 5], 1⟩, rfl, rfl⟩
  have complete := (agree thirtyTen (by decide) (by decide) _ (List.mem_singleton_self _)).2 accepted
  exact absurd complete (by decide)

/-- Picked as 1, the ticket is complete and accepted. -/
theorem complete_iff_accepted_one :
    isTicketComplete ⟨[1, 2, 3, 4, 5], some 1, false⟩ 30 10 = true ↔
      Bytes ⟨[1, 2, 3, 4, 5], some 1, false⟩ ∧
        Accepted coder thirtyTen ⟨[1, 2, 3, 4, 5], some 1, false⟩ := by
  have basket : ticketBuilderStore.Reachable [⟨[1, 2, 3, 4, 5], some 1, false⟩] :=
    reachable_of_run (show ticketBuilderStore.run [] (picking 1) = _ by decide +kernel)
  obtain ⟨-, -, agree⟩ := complete_iff_accepted_staged coder _ basket
  exact agree thirtyTen (by decide) (by decide) _ (List.mem_singleton_self _)

end LordsPot.Frontend
