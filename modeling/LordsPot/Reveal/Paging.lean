import LordsPot.Library.Paging
import LordsPot.Reveal.Routes

/-!
# Page after page

What a client has seen when it has followed `nextCursor`, `nextOffset` or `hasMore` to the end, while
the database goes on changing between its requests.
-/

namespace LordsPot.Reveal

open Paging

/-- Where a request is answered. -/
structure Request.Site where
  db : Db
  now : Nat

/-! ## `GET /epochs` -/

/-- `Math.min(Number(limit) || 20, 50)`, of a limit that is not negative. -/
theorem limit_pos {limit : Int} (positive : 0 ≤ limit) :
    ∃ n : Nat, 0 < n ∧ min (orElse limit 20) 50 = n := by
  refine ⟨(min (orElse limit 20) 50).toNat, ?_⟩
  unfold orElse
  split <;> omega

/-- The entries and the next cursor of an answer of `GET /epochs`. -/
def epochPage (limit : Int) (site : Request.Site) (cursor : Int) : List EpochEntry × Option Int :=
  match getEpochs site.db site.now limit cursor with
  | .epochs epochs nextCursor => (epochs, nextCursor.map Nat.cast)
  | _ => ([], none)

/-- The epochs that a cursor leaves. -/
def under (cursor : Int) (megapotId : Nat) : Prop := cursor = 0 ∨ (megapotId : Int) < cursor

/-- The entries of the epochs that are revealed. -/
def revealedEntries (site : Request.Site) : List EpochEntry :=
  (site.db.megapotEpochs.filter (revealedEpochWhere site.now)).map epochEntry

/-- Each epoch has one row, and Megapot's ids begin at 1. -/
structure EpochIds (db : Db) : Prop where
  distinct : (db.megapotEpochs.map (·.megapotId)).Nodup
  positive : ∀ e ∈ db.megapotEpochs, 0 < e.megapotId

theorem epochs_descending {limit : Int} (positive : 0 ≤ limit) {site : Request.Site}
    (ids : EpochIds site.db) (cursor : Int) :
    Descending (·.megapotId) under (revealedEntries site) cursor (epochPage limit site cursor) := by
  obtain ⟨n, some, size⟩ := limit_pos positive
  obtain ⟨rows, sorted⟩ : ∃ rows, rows = (site.db.megapotEpochs.filter fun e =>
      revealedEpochWhere site.now e && (cursor == 0 || decide ((e.megapotId : Int) < cursor))).insertionSort
        fun e e' => e'.megapotId ≤ e.megapotId := ⟨_, rfl⟩
  have page : epochPage limit site cursor = ((rows.map epochEntry).take n,
      if ((rows.map epochEntry).take n).length = n then
        ((rows.map epochEntry).take n).getLast?.map fun e => (e.megapotId : Int) else none) := by
    simp only [epochPage, getEpochs, size, take, ← sorted, Int.natCast_nonneg, if_true,
      Int.toNat_natCast, Int.natCast_inj, ← List.map_take, List.length_map, List.getLast?_map]
    split
    · rw [Option.map_map, Option.map_map]
      rfl
    · rfl
  have mem : ∀ e, e ∈ rows ↔ e ∈ site.db.megapotEpochs ∧ revealedEpochWhere site.now e = true ∧
      under cursor e.megapotId := by
    intro e
    rw [sorted, List.mem_insertionSort, List.mem_filter]
    simp [under]
  rw [page]
  refine descending_take ?_ (fun entry => ?_) some _ fun entry listed i => ?_
  · rw [List.map_map]
    have distinct : (rows.map (·.megapotId)).Nodup := by
      rw [sorted]
      exact ((List.perm_insertionSort _ _).map _).nodup_iff.2
        (ids.distinct.sublist (List.filter_sublist.map _))
    have descending : rows.Pairwise fun e e' => e'.megapotId ≤ e.megapotId := by
      rw [sorted]
      exact List.pairwise_insertionSort _ _
    exact List.pairwise_map.2 ((descending.and (List.pairwise_map.1 distinct)).imp
      fun both => lt_of_le_of_ne both.1 both.2.symm)
  · rw [revealedEntries, List.mem_map, List.mem_map]
    constructor
    · rintro ⟨e, listed, rfl⟩
      obtain ⟨row, revealed, below⟩ := (mem e).1 listed
      exact ⟨⟨e, List.mem_filter.2 ⟨row, revealed⟩, rfl⟩, below⟩
    · rintro ⟨⟨e, shown, rfl⟩, below⟩
      obtain ⟨row, revealed⟩ := List.mem_filter.1 shown
      exact ⟨e, (mem e).2 ⟨row, revealed, below⟩, rfl⟩
  · obtain ⟨e, row, rfl⟩ := List.mem_map.1 listed
    have some : 0 < e.megapotId := ids.positive e ((mem e).1 row).1
    simp only [under, epochEntry]
    omega

/-- **Following `nextCursor`**: however epochs are settled and revealed between the requests, the ids
go down, so that none is met twice; every entry is that of an epoch that was revealed when it was
asked for; once there is no next cursor, every epoch that was revealed at all the requests has been
met; and that comes after no more requests than the largest id allows. -/
theorem epochs_walked {limit : Int} (positive : 0 ≤ limit) {sites : List Request.Site}
    (ids : ∀ site ∈ sites, EpochIds site.db) :
    let walked := walk (epochPage limit) sites 0
    (walked.1.map (·.megapotId)).Pairwise (· > ·) ∧
    (∀ entry ∈ walked.1, ∃ site ∈ sites, ∃ e ∈ site.db.megapotEpochs,
      revealedEpochWhere site.now e = true ∧ entry = epochEntry e) ∧
    (walked.2 = none → ∀ id, (∀ site ∈ sites, id ∈ getRevealedEpochIds site.db site.now) →
      id ∈ walked.1.map (·.megapotId)) ∧
    ∀ n, (∀ site ∈ sites, ∀ e ∈ site.db.megapotEpochs, e.megapotId ≤ n) → n + 1 < sites.length →
      walked.2 = none := by
  have answers : ∀ site ∈ sites, ∀ cursor,
      Descending (·.megapotId) under (revealedEntries site) cursor (epochPage limit site cursor) :=
    fun site mem cursor => epochs_descending positive (ids site mem) cursor
  have down : ∀ (k : Int) (i j : Nat), under k i → j < i → under k j := by
    intro k i j below lower
    simp only [under] at below ⊢
    omega
  refine ⟨walk_desc down answers, fun entry mem => ?_, fun ended id shown => ?_, fun n most many => ?_⟩
  · obtain ⟨-, site, asked, row⟩ := mem_walk down answers mem
    obtain ⟨e, shown, rfl⟩ := List.mem_map.1 row
    obtain ⟨row, revealed⟩ := List.mem_filter.1 shown
    exact ⟨site, asked, e, row, revealed, rfl⟩
  · have there : ∀ site ∈ sites, ∃ entry ∈ revealedEntries site, entry.megapotId = id := by
      intro site mem
      obtain ⟨e, here, same⟩ := List.mem_map.1 (shown site mem)
      exact ⟨epochEntry e, List.mem_map_of_mem here, same⟩
    refine (walk_covers answers there (.inl rfl)).resolve_right ?_
    rintro ⟨next, named, -⟩
    rw [ended] at named
    cases named
  · refine walk_ends answers (fun site mem entry row _ => ?_) many
    obtain ⟨e, shown, rfl⟩ := List.mem_map.1 row
    exact Nat.lt_succ_of_le (most site mem e (List.mem_filter.1 shown).1)

/-- Epoch 3 is revealed between the first request and the second, and settled after the third. -/
def threeRequests : List Request.Site :=
  let rows : List MegapotEpoch := [{ megapotId := 2 }, { megapotId := 1 }, { megapotId := 3, endedAt := some 9 }]
  [⟨{ megapotEpochs := rows }, 5⟩, ⟨{ megapotEpochs := rows }, 10⟩,
    ⟨{ megapotEpochs := rows ++ [{ megapotId := 4, endedAt := some 20 }] }, 15⟩]

theorem epochs_walked_threeRequests :
    let walked := walk (epochPage 1) threeRequests 0
    walked.1.map (·.megapotId) = [2, 1] ∧ walked.2 = none ∧ ∀ id,
      (∀ site ∈ threeRequests, id ∈ getRevealedEpochIds site.db site.now) →
        id ∈ walked.1.map (·.megapotId) := by
  have ids : ∀ site ∈ threeRequests, EpochIds site.db := by
    have all : ∀ site ∈ threeRequests, (site.db.megapotEpochs.map (·.megapotId)).Nodup ∧
        ∀ e ∈ site.db.megapotEpochs, 0 < e.megapotId := by decide +kernel
    exact fun site mem => ⟨(all site mem).1, (all site mem).2⟩
  have ended : (walk (epochPage 1) threeRequests 0).2 = none := by decide +kernel
  exact ⟨by decide +kernel, ended, (epochs_walked (by decide) ids).2.2.1 ended⟩

/-! ## `GET /tickets` -/

section Tickets

variable (idLe : Uuid → Uuid → Bool)

/-- When a ticket was bought, and its id. -/
abbrev TicketEntry.key (entry : TicketEntry) : Nat × Uuid := (entry.purchasedAt, entry.id)

/-- The entries of an answer of `GET /tickets`, and the offset after them if there are more. -/
def ticketsPage (wallet : Wallet) (limit : Int) (site : Request.Site) (offset : Nat) :
    List TicketEntry × Option Nat :=
  match getTickets idLe site.db site.now (some wallet) limit offset with
  | .tickets _ _ _ hasMore tickets => (tickets, if hasMore then some (offset + tickets.length) else none)
  | _ => ([], none)

/-- When each of the wallet's tickets was bought, and its id. -/
def ownKeys (db : Db) (wallet : Wallet) : List (Nat × Uuid) :=
  (db.tickets.filterMap (ownTicket db wallet)).map fun row => (row.1.lastBought, row.2.id)

/-- Not after in `orderBy: [{ relayOrder: { lastBought: 'desc' } }, { id: 'desc' }]`. -/
def keyLe (a b : Nat × Uuid) : Prop := b.1 < a.1 ∨ a.1 = b.1 ∧ idLe b.2 a.2 = true

instance : DecidableRel (keyLe idLe) := fun a b =>
  inferInstanceAs (Decidable (b.1 < a.1 ∨ a.1 = b.1 ∧ idLe b.2 a.2 = true))

/-- The database's order on ids. -/
structure IdOrder : Prop where
  trans : ∀ a b c, idLe a b = true → idLe b c = true → idLe a c = true
  total : ∀ a b, idLe a b = true ∨ idLe b a = true
  antisymm : ∀ a b, idLe a b = true → idLe b a = true → a = b

variable {idLe}

theorem pairwise_keys (order : IdOrder idLe) (keys : List (Nat × Uuid)) :
    (keys.insertionSort (keyLe idLe)).Pairwise (keyLe idLe) := by
  have : IsTrans (Nat × Uuid) (keyLe idLe) := by
    refine ⟨fun a b c hab hbc => ?_⟩
    rcases hab with newer | ⟨same, after⟩ <;> rcases hbc with newer' | ⟨same', after'⟩
    · exact .inl (newer'.trans newer)
    · exact .inl (same' ▸ newer)
    · exact .inl (same ▸ newer')
    · exact .inr ⟨same.trans same', order.trans _ _ _ after' after⟩
  have : Std.Total (keyLe idLe) := by
    refine ⟨fun a b => ?_⟩
    rcases Nat.lt_trichotomy a.1 b.1 with older | same | newer
    · exact .inr (.inl older)
    · exact (order.total b.2 a.2).imp (fun after => .inr ⟨same, after⟩) fun after =>
        .inr ⟨same.symm, after⟩
    · exact .inl (.inl newer)
  exact List.pairwise_insertionSort _ _

/-- Keys are sorted in one way. -/
theorem sortKeys_perm (order : IdOrder idLe) {keys keys' : List (Nat × Uuid)} (h : keys.Perm keys') :
    keys.insertionSort (keyLe idLe) = keys'.insertionSort (keyLe idLe) := by
  have perm := (List.perm_insertionSort (keyLe idLe) keys).trans
    (h.trans (List.perm_insertionSort (keyLe idLe) keys').symm)
  refine perm.eq_of_pairwise (fun a b _ _ hab hba => ?_) (pairwise_keys order _) (pairwise_keys order _)
  rcases hab with newer | ⟨same, after⟩ <;> rcases hba with newer' | ⟨same', after'⟩
  · omega
  · omega
  · omega
  · exact Prod.ext same (order.antisymm _ _ after' after)

/-- The keys of a page are a page of the keys. -/
theorem tickets_byOffset {wallet : Wallet} {limit : Int} {site : Request.Site} {n : Nat}
    (size : min (max (orElse limit 500) 1) 500 = n) (offset : Nat) :
    ByOffset ((ownKeys site.db wallet).insertionSort (keyLe idLe)) n offset
      ((ticketsPage idLe wallet limit site offset).1.map TicketEntry.key,
        (ticketsPage idLe wallet limit site offset).2) := by
  obtain ⟨own, found⟩ : ∃ own, own = site.db.tickets.filterMap (ownTicket site.db wallet) := ⟨_, rfl⟩
  obtain ⟨sorted, is⟩ : ∃ sorted, sorted = own.insertionSort fun r r' => r'.1.lastBought < r.1.lastBought ∨
    r.1.lastBought = r'.1.lastBought ∧ idLe r'.2.id r.2.id = true := ⟨_, rfl⟩
  have keys : (ownKeys site.db wallet).insertionSort (keyLe idLe) =
      sorted.map fun row => (row.1.lastBought, row.2.id) := by
    rw [is, ownKeys, ← found]
    refine (List.map_insertionSort _ _ _ _ fun r _ r' _ => ?_).symm
    exact Iff.rfl
  have from? : max (orElse (offset : Int) 0) 0 = offset := by
    unfold orElse
    split <;> omega
  have total : own.length = sorted.length := by rw [is, List.length_insertionSort]
  have length : ((sorted.drop offset).take n).length = min n (sorted.length - offset) := by
    rw [List.length_take, List.length_drop]
  have page : ((ticketsPage idLe wallet limit site offset).1.map TicketEntry.key,
      (ticketsPage idLe wallet limit site offset).2) =
      (((sorted.map fun row => (row.1.lastBought, row.2.id)).drop offset).take n,
        if offset + min n (sorted.length - offset) < sorted.length then
          some (offset + min n (sorted.length - offset)) else none) := by
    simp only [ticketsPage, getTickets, ticketPage, size, from?, ← found, ← is, total, Int.toNat_natCast,
      List.map_map, ← List.map_take, ← List.map_drop, length, List.length_map, decide_eq_true_eq]
    refine Prod.ext rfl (if_congr ?_ rfl rfl)
    omega
  rw [keys, page]
  have all : (sorted.map fun row => (row.1.lastBought, row.2.id)).length = sorted.length := List.length_map ..
  by_cases more : offset + n < sorted.length
  · have full : min n (sorted.length - offset) = n := by omega
    rw [full, if_pos more]
    exact .more (by rwa [all])
  · rw [if_neg (by omega), List.take_of_length_le (by rw [List.length_drop, all]; omega)]
    exact .last (by omega)

/-- **Following `hasMore`**: as long as the wallet buys nothing, the pages bring none of its tickets
twice, whichever were bought at one time; at the end they have brought all of them, newest first; and
there is an end. -/
theorem tickets_walked (order : IdOrder idLe) {wallet : Wallet} (limit : Int) {sites : List Request.Site}
    {keys : List (Nat × Uuid)} (distinct : (keys.map (·.2)).Nodup)
    (same : ∀ site ∈ sites, (ownKeys site.db wallet).Perm keys) :
    let walked := walk (ticketsPage idLe wallet limit) sites 0
    (walked.1.map (·.id)).Nodup ∧
    (walked.2 = none → (walked.1.map TicketEntry.key).Perm keys ∧
      walked.1.Pairwise fun a b => b.purchasedAt ≤ a.purchasedAt) ∧
    (sites ≠ [] → keys.length ≤ sites.length → walked.2 = none) := by
  obtain ⟨n, size⟩ : ∃ n : Nat, min (max (orElse limit 500) 1) 500 = n :=
    ⟨(min (max (orElse limit 500) 1) 500).toNat, by omega⟩
  obtain ⟨sorted, is⟩ : ∃ sorted, sorted = keys.insertionSort (keyLe idLe) := ⟨_, rfl⟩
  have perm : sorted.Perm keys := is ▸ List.perm_insertionSort _ _
  have answers : ∀ site ∈ sites, ∀ offset, ByOffset sorted n offset
      ((ticketsPage idLe wallet limit site offset).1.map TicketEntry.key,
        (ticketsPage idLe wallet limit site offset).2) := by
    intro site mem offset
    rw [is, ← sortKeys_perm order (same site mem)]
    exact tickets_byOffset size offset
  have seen := @walk_map _ _ _ (ticketsPage idLe wallet limit) _ TicketEntry.key sites 0
  obtain ⟨ended, left⟩ := @walk_offset _ _ _ sorted n 0 sites answers
  simp only [seen, List.drop_zero] at ended left
  refine ⟨?_, fun none => ?_, fun some enough => ?_⟩
  · -- what has been brought is the whole listing, or its beginning
    have part : ((walk (ticketsPage idLe wallet limit) sites 0).1.map TicketEntry.key).Sublist sorted := by
      rcases named : (walk (ticketsPage idLe wallet limit) sites 0).2 with _ | next
      · rw [ended named]
      · exact (left next named).1 ▸ List.sublist_append_left _ _
    have once : (sorted.map (·.2)).Nodup := (perm.map _).nodup_iff.2 distinct
    have := once.sublist (part.map (·.2))
    rwa [List.map_map] at this
  · refine ⟨ended none ▸ perm, ?_⟩
    have descending := pairwise_keys order keys
    rw [← is, ← ended none] at descending
    exact (List.pairwise_map.1 descending).imp fun le => le.elim Nat.le_of_lt fun same => same.1.ge
  · have positive : 1 ≤ n := by omega
    have := @walk_offset_ends _ _ _ sorted n 0 sites some answers (by
      rw [perm.length_eq]
      exact enough.trans ((Nat.le_mul_of_pos_right _ positive).trans (Nat.le_add_left ..)))
    rwa [seen] at this

end Tickets

/-- Three tickets of one purchase and one of a later one; between the requests the epoch is graded and
the rows come in another order. -/
def fourTickets : List Request.Site :=
  let order : RelayOrder := { hash := "1", signature := "s", buyer := "w", lastBought := 5, fulfillEpoch := some 7 }
  let orders := [order, { order with hash := "2", lastBought := 9 }]
  let ticket : Ticket := { id := "b", orderHash := "1", bonusBall := 1, normalBalls := [1, 2, 3, 4, 5] }
  let tickets := [ticket, { ticket with id := "c" }, { ticket with id := "a" },
    { ticket with id := "d", orderHash := "2" }]
  [⟨{ relayOrders := orders, tickets := tickets }, 10⟩,
    ⟨{ relayOrders := orders, tickets := (tickets.map fun t => { t with winStatus := .LOST }).reverse }, 20⟩,
    ⟨{ relayOrders := orders, tickets := tickets }, 30⟩]

theorem tickets_walked_fourTickets :
    let walked := walk (ticketsPage (fun id id' => decide (id ≤ id')) "w" 2) fourTickets 0
    walked.1.map (·.id) = ["d", "c", "b", "a"] ∧ walked.2 = none ∧ (walked.1.map (·.id)).Nodup ∧
    walked.1.Pairwise fun a b => b.purchasedAt ≤ a.purchasedAt := by
  have order : IdOrder fun id id' => decide (id ≤ id') := by
    constructor <;> simp only [decide_eq_true_eq]
    · exact fun a b c => String.le_trans
    · exact String.le_total
    · exact fun a b => String.le_antisymm
  have same : ∀ site ∈ fourTickets, (ownKeys site.db "w").Perm [(5, "a"), (5, "b"), (5, "c"), (9, "d")] := by
    decide +kernel
  have walked := tickets_walked order 2 (by decide) same
  have ended : (walk (ticketsPage (fun id id' => decide (id ≤ id')) "w" 2) fourTickets 0).2 = none := by
    decide +kernel
  exact ⟨by decide +kernel, ended, walked.1, (walked.2.1 ended).2⟩

end LordsPot.Reveal
