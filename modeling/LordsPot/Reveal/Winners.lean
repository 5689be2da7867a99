import Mathlib.Data.List.Induction
import LordsPot.Reveal.Paging

/-!
# The winners of an epoch

`GET /epochs/:megapotId/winners` adds up the winning tickets by buyer in the order in which the
database returns them, sorts the sums and cuts out a page. The sums do not depend on that order, nor
does the page, since no two buyers tie; so the pages of separate requests fit together, and each entry
agrees with what `GET /epochs/:megapotId/winners/:buyer` lists.
-/

namespace LordsPot.Reveal

open Paging

/-! ## Adding up -/

/-- What the tickets of a list come to for one buyer. -/
def tally (tickets : List (Wallet × Nat)) (buyer : Wallet) : WinnerEntry where
  buyer := buyer
  ticketCount := (tickets.filter (·.1 == buyer)).length
  totalUsdc := ((tickets.filter (·.1 == buyer)).map (·.2)).sum

section Tally

variable {byBuyer : List WinnerEntry} {ticket : Wallet × Nat} {tickets : List (Wallet × Nat)}
  {buyer : Wallet}

theorem find_addToBuyer : Table.findUnique (·.buyer) buyer (addToBuyer byBuyer ticket) =
    if buyer = ticket.1 then
      some (match Table.findUnique (·.buyer) buyer byBuyer with
        | none => ⟨ticket.1, 1, ticket.2⟩
        | some entry => { entry with
            ticketCount := entry.ticketCount + 1
            totalUsdc := entry.totalUsdc + ticket.2 })
    else Table.findUnique (·.buyer) buyer byBuyer := by
  induction byBuyer with
  | nil => simp [addToBuyer, Table.findUnique, eq_comm]
  | cons entry rest ih =>
    rw [addToBuyer]
    by_cases own : entry.buyer = ticket.1
    · rw [if_pos own]
      by_cases this : buyer = ticket.1
      · simp [Table.findUnique, this, own]
      · simp [Table.findUnique, own, Ne.symm this, this]
    · rw [if_neg own]
      by_cases this : entry.buyer = buyer
      · simp [Table.findUnique, this, this ▸ own]
      · have skip : ∀ rows : List WinnerEntry, Table.findUnique (·.buyer) buyer (entry :: rows) =
            Table.findUnique (·.buyer) buyer rows := fun rows => by
          simp [Table.findUnique, this]
        rw [skip, skip, ih]

theorem mem_buyers_addToBuyer : buyer ∈ (addToBuyer byBuyer ticket).map (·.buyer) ↔
    buyer ∈ byBuyer.map (·.buyer) ∨ buyer = ticket.1 := by
  induction byBuyer with
  | nil => simp [addToBuyer]
  | cons entry rest ih =>
    rw [addToBuyer]
    split
    · rename_i own
      simp only [List.map_cons, List.mem_cons, own]
      tauto
    · rw [List.map_cons, List.mem_cons, ih, List.map_cons, List.mem_cons, or_assoc]

theorem nodup_addToBuyer (h : (byBuyer.map (·.buyer)).Nodup) :
    ((addToBuyer byBuyer ticket).map (·.buyer)).Nodup := by
  induction byBuyer with
  | nil => exact List.nodup_singleton _
  | cons entry rest ih =>
    obtain ⟨fresh, rest_nodup⟩ := List.nodup_cons.1 h
    rw [addToBuyer]
    split
    · exact h
    · rename_i other
      refine List.nodup_cons.2 ⟨fun mem => ?_, ih rest_nodup⟩
      rcases mem_buyers_addToBuyer.1 mem with old | own
      · exact fresh old
      · exact other own

theorem nodup_tallied (tickets : List (Wallet × Nat)) :
    ((tickets.foldl addToBuyer []).map (·.buyer)).Nodup := by
  induction tickets using List.reverseRecOn with
  | nil => exact List.nodup_nil
  | append_singleton tickets ticket ih =>
    rw [List.foldl_append]
    exact nodup_addToBuyer ih

/-- Each buyer of a ticket has an entry with what its tickets come to, and nobody else has one. -/
theorem find_tallied (tickets : List (Wallet × Nat)) (buyer : Wallet) :
    Table.findUnique (·.buyer) buyer (tickets.foldl addToBuyer []) =
      if buyer ∈ tickets.map (·.1) then some (tally tickets buyer) else none := by
  induction tickets using List.reverseRecOn with
  | nil => rfl
  | append_singleton tickets ticket ih =>
    rw [List.foldl_append, List.foldl_cons, List.foldl_nil, find_addToBuyer, ih]
    by_cases own : buyer = ticket.1
    · subst own
      by_cases before : ticket.1 ∈ tickets.map (·.1)
      · simp [before, tally]
      · have none : tickets.filter (·.1 == ticket.1) = [] := by
          refine List.filter_eq_nil_iff.2 fun t mem same => before ?_
          exact List.mem_map.2 ⟨t, mem, beq_iff_eq.1 same⟩
        simp [before, tally, none]
    · have alone : [ticket].filter (·.1 == buyer) = [] := by simp [Ne.symm own]
      have same : buyer ∈ (tickets ++ [ticket]).map (·.1) ↔ buyer ∈ tickets.map (·.1) := by
        rw [List.map_append, List.mem_append, List.map_singleton, List.mem_singleton, or_iff_left own]
      simp only [if_neg own, same, tally, List.filter_append, alone, List.append_nil]

theorem mem_tallied {entry : WinnerEntry} : entry ∈ tickets.foldl addToBuyer [] ↔
    entry.buyer ∈ tickets.map (·.1) ∧ entry = tally tickets entry.buyer := by
  have found := find_tallied tickets entry.buyer
  constructor
  · intro mem
    rw [Table.findUnique_of_mem (nodup_tallied tickets) mem] at found
    split at found
    · rename_i bought
      exact ⟨bought, Option.some.inj found⟩
    · cases found
  · rintro ⟨bought, same⟩
    rw [if_pos bought, ← same] at found
    exact Table.mem_of_findUnique found

/-- The order in which the tickets are added does not matter. -/
theorem tallied_perm {tickets' : List (Wallet × Nat)} (h : tickets.Perm tickets') :
    (tickets.foldl addToBuyer []).Perm (tickets'.foldl addToBuyer []) := by
  have same : ∀ buyer, tally tickets buyer = tally tickets' buyer := fun buyer => by
    have own := h.filter (·.1 == buyer)
    simp only [tally, own.length_eq, (own.map (·.2)).sum_eq]
  refine (List.perm_ext_iff_of_nodup (List.Nodup.of_map _ (nodup_tallied tickets))
    (List.Nodup.of_map _ (nodup_tallied tickets'))).2 fun entry => ?_
  rw [mem_tallied, mem_tallied, same, (h.map (·.1)).mem_iff]

end Tally

/-! ## Sorting -/

section Sorting

variable (localeCompare : Wallet → Wallet → Ordering)

/-- Not after in `sortWinners`. -/
def winnerLe (a b : WinnerEntry) : Prop :=
  b.totalUsdc < a.totalUsdc ∨ a.totalUsdc = b.totalUsdc ∧ localeCompare a.buyer b.buyer ≠ .gt

instance : DecidableRel (winnerLe localeCompare) := fun a b =>
  inferInstanceAs (Decidable (b.totalUsdc < a.totalUsdc ∨
    a.totalUsdc = b.totalUsdc ∧ localeCompare a.buyer b.buyer ≠ .gt))

variable {localeCompare} [Std.TransCmp localeCompare]

theorem winnerLe_trans {a b c : WinnerEntry} (hab : winnerLe localeCompare a b)
    (hbc : winnerLe localeCompare b c) : winnerLe localeCompare a c := by
  rcases hab with more | ⟨tie, before⟩
  · rcases hbc with more' | ⟨tie', -⟩
    · exact .inl (more'.trans more)
    · exact .inl (tie' ▸ more)
  · rcases hbc with more' | ⟨tie', before'⟩
    · exact .inl (tie ▸ more')
    · refine .inr ⟨tie.trans tie', ?_⟩
      exact Ordering.isLE_iff_ne_gt.1 (Std.TransCmp.isLE_trans (Ordering.isLE_iff_ne_gt.2 before)
        (Ordering.isLE_iff_ne_gt.2 before'))

theorem winnerLe_total (a b : WinnerEntry) : winnerLe localeCompare a b ∨ winnerLe localeCompare b a := by
  rcases Nat.lt_trichotomy a.totalUsdc b.totalUsdc with less | tie | more
  · exact .inr (.inl less)
  · by_cases before : localeCompare a.buyer b.buyer = .gt
    · refine .inr (.inr ⟨tie.symm, fun after => ?_⟩)
      rw [Std.OrientedCmp.gt_iff_lt, before] at after
      cases after
    · exact .inl (.inr ⟨tie, before⟩)
  · exact .inl (.inl more)

theorem pairwise_sortWinners (winners : List WinnerEntry) :
    (sortWinners localeCompare winners).Pairwise (winnerLe localeCompare) := by
  have : IsTrans WinnerEntry (winnerLe localeCompare) := ⟨fun _ _ _ => winnerLe_trans⟩
  have : Std.Total (winnerLe localeCompare) := ⟨winnerLe_total⟩
  exact List.pairwise_insertionSort _ _

/-- Winners with different buyers are sorted in one way. -/
theorem sortWinners_perm [Std.LawfulEqCmp localeCompare] {winners winners' : List WinnerEntry}
    (distinct : (winners.map (·.buyer)).Nodup) (h : winners.Perm winners') :
    sortWinners localeCompare winners = sortWinners localeCompare winners' := by
  have perm : (sortWinners localeCompare winners).Perm (sortWinners localeCompare winners') :=
    (List.perm_insertionSort _ _).trans (h.trans (List.perm_insertionSort _ _).symm)
  refine perm.eq_of_pairwise (fun a b ha hb hab hba => ?_) (pairwise_sortWinners winners)
    (pairwise_sortWinners winners')
  have buyers : a.buyer = b.buyer := by
    rcases hab with more | ⟨tie, before⟩ <;> rcases hba with more' | ⟨tie', before'⟩
    · omega
    · omega
    · omega
    · exact Std.LawfulEqCmp.eq_of_compare (Std.OrientedCmp.isLE_antisymm
        (Ordering.isLE_iff_ne_gt.2 before) (Ordering.isLE_iff_ne_gt.2 before'))
  have mem : a ∈ winners := (List.mem_insertionSort _).1 ha
  have mem' : b ∈ winners := h.mem_iff.2 ((List.mem_insertionSort _).1 hb)
  exact List.inj_on_of_nodup_map distinct mem mem' buyers

end Sorting

/-! ## Pages -/

section Pages

variable (localeCompare : Wallet → Wallet → Ordering)

/-- The winning tickets of an epoch, each with its buyer and amount. -/
def winningTickets (db : Db) (megapotId : Nat) : List (Wallet × Nat) :=
  db.tickets.filterMap fun t =>
    if WINNING_STATUSES.contains t.winStatus then
      (orderOfEpoch db megapotId t).map fun o => (o.buyer, t.winAmount)
    else none

def allWinners (tickets : List (Wallet × Nat)) : List WinnerEntry :=
  sortWinners localeCompare (tickets.foldl addToBuyer [])

/-- The entries and the next offset of an answer of `GET /epochs/:megapotId/winners`. -/
def winnersPage (limit : Int) (megapotId : Nat) (site : Request.Site) (offset : Nat) :
    List WinnerEntry × Option Nat :=
  match getWinners localeCompare site.db site.now (some megapotId) limit offset with
  | .winners _ winners nextOffset => (winners, nextOffset.map Int.toNat)
  | _ => ([], none)

variable {localeCompare} {tickets : List (Wallet × Nat)}

theorem mem_allWinners {entry : WinnerEntry} : entry ∈ allWinners localeCompare tickets ↔
    entry.buyer ∈ tickets.map (·.1) ∧ entry = tally tickets entry.buyer := by
  rw [allWinners, sortWinners, List.mem_insertionSort, mem_tallied]

theorem nodup_allWinners : ((allWinners localeCompare tickets).map (·.buyer)).Nodup :=
  ((List.perm_insertionSort _ _).map _).nodup_iff.2 (nodup_tallied tickets)

theorem length_allWinners : (allWinners localeCompare tickets).length ≤ tickets.length := by
  have sub : (allWinners localeCompare tickets).map (·.buyer) ⊆ tickets.map (·.1) := by
    intro buyer mem
    obtain ⟨entry, listed, rfl⟩ := List.mem_map.1 mem
    exact (mem_allWinners.1 listed).1
  simpa using (List.subperm_of_subset nodup_allWinners sub).length_le

/-- The answer for an epoch that is revealed. -/
theorem getWinners_revealed {db : Db} {now megapotId : Nat} (limit offset : Int)
    (revealed : isEpochRevealed db now megapotId = true) :
    let all := allWinners localeCompare (winningTickets db megapotId)
    let start := max (orElse offset 0) 0
    let page := slice all start (start + min (orElse limit 20) 50)
    getWinners localeCompare db now (some megapotId) limit offset = .winners megapotId page
      (if start + page.length < all.length then some (start + page.length) else none) := by
  have shown : (!isEpochRevealed db now megapotId) = false := by rw [revealed]; rfl
  exact if_neg (Bool.eq_false_iff.1 shown)

theorem winners_byOffset {limit : Int} {n : Nat} (size : min (orElse limit 20) 50 = n) {megapotId : Nat} {site : Request.Site}
    (revealed : isEpochRevealed site.db site.now megapotId = true) (offset : Nat) :
    ByOffset (allWinners localeCompare (winningTickets site.db megapotId)) n offset
      (winnersPage localeCompare limit megapotId site offset) := by
  obtain ⟨all, listed⟩ : ∃ all, all = allWinners localeCompare (winningTickets site.db megapotId) :=
    ⟨_, rfl⟩
  have from? : max (orElse (offset : Int) 0) 0 = offset := by
    unfold orElse
    split <;> omega
  have cut : slice all offset (offset + n) = (all.drop offset).take n := by
    have low : (0 : Int) ≤ offset := Int.natCast_nonneg _
    have high : (0 : Int) ≤ offset + n := by omega
    simp only [slice, low, high, if_true, Int.toNat_natCast]
    rw [show ((offset : Int) + n).toNat = offset + n by omega, List.drop_take, Nat.add_sub_cancel_left]
  have answer : winnersPage localeCompare limit megapotId site offset = ((all.drop offset).take n,
      if offset + ((all.drop offset).take n).length < all.length then
        some (offset + ((all.drop offset).take n).length) else none) := by
    rw [winnersPage, getWinners_revealed limit offset revealed]
    simp only [from?, size, ← listed, cut]
    split
    · rename_i more
      rw [if_pos (by omega)]
      rfl
    · rename_i last
      rw [if_neg (by omega)]
      rfl
  have length : ((all.drop offset).take n).length = min n (all.length - offset) := by
    rw [List.length_take, List.length_drop]
  rw [answer, ← listed]
  by_cases more : offset + n < all.length
  · have full : ((all.drop offset).take n).length = n := by omega
    rw [full, if_pos more]
    exact .more more
  · rw [if_neg (by omega), List.take_of_length_le (by rw [List.length_drop]; omega)]
    exact .last (by omega)

theorem filter_winning {f : Ticket → Option RelayOrder} {won : Ticket → Bool} {buyer : Wallet}
    (rows : List Ticket) :
    (rows.filterMap fun t =>
      if won t then (f t).map fun o => (o.buyer, t.winAmount) else none).filter (·.1 == buyer) =
    ((rows.filter fun t => (f t).any (·.buyer == buyer)).filter won).map
      fun t => (buyer, t.winAmount) := by
  induction rows with
  | nil => rfl
  | cons t rows ih =>
    cases won? : won t with
    | false =>
      rw [List.filterMap_cons_none (by rw [won?]; rfl), ih, List.filter_cons]
      split
      · rw [List.filter_cons_of_neg (by rw [won?]; exact Bool.false_ne_true)]
      · rfl
    | true =>
      cases order : f t with
      | none =>
        rw [List.filterMap_cons_none (by rw [won?, if_pos rfl, order]; rfl), ih,
          List.filter_cons_of_neg (by rw [order]; exact Bool.false_ne_true)]
      | some o =>
        rw [List.filterMap_cons_some (by rw [won?, if_pos rfl, order]; rfl), List.filter_cons,
          List.filter_cons]
        by_cases own : o.buyer = buyer
        · simp [order, own, won?, ih]
        · simp [order, own, ih]

/-- **The two routes agree**: the entry of a buyer counts and adds up just the winning tickets that the
buyer's own route lists. -/
theorem winners_detail {idLe : Uuid → Uuid → Bool} {db : Db} {now megapotId : Nat} {limit offset : Int}
    {winners : List WinnerEntry} {nextOffset : Option Int}
    (answered : getWinners localeCompare db now (some megapotId) limit offset =
      .winners megapotId winners nextOffset) :
    ∀ entry ∈ winners, ∃ tickets,
      getWinnersOfBuyer idLe db now (some megapotId) (some entry.buyer) =
        .wonTickets megapotId entry.buyer tickets ∧
      entry.ticketCount = (tickets.filter (WINNING_STATUSES.contains ·.winStatus)).length ∧
      entry.totalUsdc =
        ((tickets.filter (WINNING_STATUSES.contains ·.winStatus)).map (·.winAmountUsdc)).sum := by
  have revealed : isEpochRevealed db now megapotId = true := by
    by_contra hidden
    have refused : getWinners localeCompare db now (some megapotId) limit offset =
        .error 404 "Settled epoch not found" :=
      if_pos (by rw [Bool.eq_false_iff.2 hidden]; rfl)
    rw [refused] at answered
    cases answered
  rw [getWinners_revealed limit offset revealed] at answered
  cases answered
  intro entry mem
  obtain ⟨bought, same⟩ := mem_allWinners.1 (List.mem_of_mem_take (List.mem_of_mem_drop mem))
  obtain ⟨own, listed⟩ : ∃ own, own = (db.tickets.filter fun t =>
      (orderOfEpoch db megapotId t).any (·.buyer == entry.buyer)).insertionSort
        fun t t' => idLe t.id t'.id := ⟨_, rfl⟩
  have won : (winningTickets db megapotId).filter (·.1 == entry.buyer) =
      ((db.tickets.filter fun t => (orderOfEpoch db megapotId t).any (·.buyer == entry.buyer)).filter
        (WINNING_STATUSES.contains ·.winStatus)).map fun t => (entry.buyer, t.winAmount) :=
    filter_winning db.tickets
  have perm : (own.filter (WINNING_STATUSES.contains ·.winStatus)).Perm
      ((db.tickets.filter fun t => (orderOfEpoch db megapotId t).any (·.buyer == entry.buyer)).filter
        (WINNING_STATUSES.contains ·.winStatus)) := by
    rw [listed]
    exact (List.perm_insertionSort _ _).filter _
  have filtered : (own.map wonTicket).filter (WINNING_STATUSES.contains ·.winStatus) =
      (own.filter (WINNING_STATUSES.contains ·.winStatus)).map wonTicket := List.filter_map
  refine ⟨own.map wonTicket, ?_, ?_, ?_⟩
  · obtain ⟨ticket, mem, buyer⟩ := List.mem_map.1 bought
    have one : ticket ∈ (winningTickets db megapotId).filter (·.1 == entry.buyer) :=
      List.mem_filter.2 ⟨mem, beq_iff_eq.2 buyer⟩
    rw [won] at one
    obtain ⟨t, mem, -⟩ := List.mem_map.1 one
    have here : t ∈ own := (List.mem_filter.1 (perm.mem_iff.2 mem)).1
    have shown : (!isEpochRevealed db now megapotId) = false := by rw [revealed]; rfl
    refine (if_neg (Bool.eq_false_iff.1 shown)).trans ?_
    simp only [← listed]
    exact if_neg fun empty => List.ne_nil_of_mem here (List.isEmpty_iff.1 empty)
  · rw [same, tally, won, filtered, List.length_map, List.length_map, perm.length_eq]
  · rw [same, tally, won, filtered, List.map_map, List.map_map]
    exact (perm.map _).sum_eq.symm

end Pages

/-- One SUCCESS order of each of three buyers, two of whom tie. -/
def threeWinners (statuses : List WinStatus) : Db where
  megapotEpochs := [{ megapotId := 7, endedAt := some 10 }]
  relayOrders := ["a", "b", "c"].map fun w =>
    { hash := w, signature := w, buyer := w, status := .SUCCESS, fulfillEpoch := some 7 }
  tickets := List.zipWith (fun ticket status =>
      { id := ticket.1, orderHash := ticket.2.1, bonusBall := 1, normalBalls := [1, 2, 3, 4, 5],
        winAmount := ticket.2.2, winStatus := status })
    [("1", "a", 5), ("2", "b", 2), ("3", "c", 9), ("4", "b", 3), ("5", "a", 0)] statuses

/-- Between the two requests the prizes are harvested, and the rows come in another order. -/
def twoRequests : List Request.Site :=
  [⟨threeWinners [.WON_UNCLAIMED, .WON_UNCLAIMED, .WON_UNCLAIMED, .WON_UNCLAIMED, .LOST], 10⟩,
    ⟨{ threeWinners [.CLAIMED_ON_BASE, .PAID_OUT_ON_SOLANA, .CLAIMED_ON_BASE, .CLAIMED_ON_BASE, .LOST] with
        tickets := (threeWinners [.CLAIMED_ON_BASE, .PAID_OUT_ON_SOLANA, .CLAIMED_ON_BASE,
          .CLAIMED_ON_BASE, .LOST]).tickets.reverse }, 20⟩]

theorem winners_detail_threeWinners : ∃ tickets,
    getWinnersOfBuyer (fun id id' => decide (id ≤ id'))
      (threeWinners [.CLAIMED_ON_BASE, .PAID_OUT_ON_SOLANA, .LOST, .WON_FREE_TICKET, .LOST]) 10
      (some 7) (some "b") = .wonTickets 7 "b" tickets ∧
    2 = (tickets.filter (WINNING_STATUSES.contains ·.winStatus)).length ∧
    5 = ((tickets.filter (WINNING_STATUSES.contains ·.winStatus)).map (·.winAmountUsdc)).sum := by
  have answered : getWinners compare (threeWinners [.CLAIMED_ON_BASE, .PAID_OUT_ON_SOLANA, .LOST,
      .WON_FREE_TICKET, .LOST]) 10 (some (7 : Nat)) 0 (-1) =
      .winners 7 [⟨"a", 1, 5⟩, ⟨"b", 2, 5⟩] none := rfl
  exact winners_detail answered ⟨"b", 2, 5⟩ (by decide)

end LordsPot.Reveal
