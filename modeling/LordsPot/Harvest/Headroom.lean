import Mathlib.Data.List.Perm.Subperm
import LordsPot.Harvest.Exact

/-!
# The headroom of the harvest's page

`findHarvestableTickets` reads a page of `2 * CHUNK_SIZE` rows in whatever order the database
has them, and drops the quarantined ones afterwards. The page has room for a chunk and as many
quarantined rows as a chunk has; beyond that the quarantined rows can crowd the others out.
-/

namespace LordsPot.Harvest

/-- The rows the query ranges over. -/
def candidates (db : Db) (megapotId : Nat) : List Ticket :=
  db.tickets.filter fun t => owed db megapotId t && t.megapotNftId.isSome

/-- The unbatched winners with an NFT id that are not in quarantine. -/
def eligible (s : State) (megapotId : Nat) : List Ticket :=
  (candidates s.db megapotId).filter fun t => !s.quarantined.contains t.id

/-- Those that are. -/
def crowding (s : State) (megapotId : Nat) : List Ticket :=
  (candidates s.db megapotId).filter fun t => s.quarantined.contains t.id

/-- Whichever rows the database returns, what the harvest finds is eligible, it finds a ticket if
there is one and goes on to rehearse it, and it finds a whole chunk if there is one. -/
def Fills (s : State) (megapotId : Nat) : Prop :=
  ∀ ids tickets, findHarvestableTickets s.db megapotId s.quarantined ids = some tickets →
    tickets.map (·.id) ⊆ (eligible s megapotId).map (·.id) ∧
    (eligible s megapotId ≠ [] → tickets ≠ [] ∧ ∀ epochs,
      tickStep s (.building megapotId epochs) (.find ids) = some (s, .found megapotId tickets epochs)) ∧
    min CHUNK_SIZE (eligible s megapotId).length ≤ tickets.length

/-- The page holds every row, or the quarantined rows leave room for a chunk, or there is
nothing to be found. -/
def Headroom (s : State) (megapotId : Nat) : Prop :=
  (candidates s.db megapotId).length ≤ 2 * CHUNK_SIZE ∨
    (crowding s megapotId).length ≤ CHUNK_SIZE ∨ eligible s megapotId = []

section Page

variable {db : Db} {e : Nat} {quarantined ids : List Uuid} {tickets : List BatchTicket}

/-- What the database may answer: distinct rows of the query, as many as the page holds. -/
theorem page_of_find (h : findHarvestableTickets db e quarantined ids = some tickets) :
    ids.Nodup ∧ ids ⊆ (candidates db e).map (·.id) ∧
      ids.length = min (candidates db e).length (2 * CHUNK_SIZE) := by
  unfold findHarvestableTickets at h
  simp only at h
  split at h
  · rename_i returned
    rw [Bool.and_eq_true, Bool.and_eq_true, decide_eq_true_eq, List.all_eq_true, beq_iff_eq] at returned
    obtain ⟨⟨distinct, known⟩, length⟩ := returned
    refine ⟨distinct, fun i hi => ?_, length⟩
    obtain ⟨t, ht, same⟩ := List.any_eq_true.1 (known i hi)
    exact List.mem_map.2 ⟨t, ht, beq_iff_eq.1 same⟩
  · cases h

/-- Any such page is a possible answer. -/
theorem find_of_page (distinct : ids.Nodup) (known : ids ⊆ (candidates db e).map (·.id))
    (length : ids.length = min (candidates db e).length (2 * CHUNK_SIZE)) :
    ∃ tickets, findHarvestableTickets db e quarantined ids = some tickets := by
  refine ⟨_, if_pos ?_⟩
  rw [Bool.and_eq_true, Bool.and_eq_true, decide_eq_true_eq, List.all_eq_true, beq_iff_eq]
  refine ⟨⟨distinct, fun i hi => ?_⟩, length⟩
  obtain ⟨t, ht, same⟩ := List.mem_map.1 (known hi)
  exact List.any_eq_true.2 ⟨t, ht, beq_iff_eq.2 same⟩

/-- The tickets found are the rows of the page that are not quarantined. -/
theorem ids_of_find (unique : (db.tickets.map (·.id)).Nodup)
    (h : findHarvestableTickets db e quarantined ids = some tickets) :
    tickets.map (·.id) = ids.filter fun i => !quarantined.contains i := by
  obtain ⟨-, known, -⟩ := page_of_find h
  have uniqueRows : ((candidates db e).map (·.id)).Nodup :=
    unique.sublist (List.filter_sublist.map _)
  have row : ∀ i ∈ ids, ∃ g, (Table.findUnique Ticket.id i (candidates db e)).bind select = some g ∧
      g.id = i := by
    intro i hi
    obtain ⟨t, ht, rfl⟩ := List.mem_map.1 (known hi)
    have nft := (List.mem_filter.1 ht).2
    rw [Bool.and_eq_true, Option.isSome_iff_exists] at nft
    obtain ⟨-, n, hn⟩ := nft
    refine ⟨⟨t.id, n, t.winAmount⟩, ?_, rfl⟩
    rw [Table.findUnique_of_mem uniqueRows ht, Option.bind_some, select, hn, Option.map_some]
  have all : ∀ page : List Uuid, (∀ i ∈ page, i ∈ ids) →
      ((page.filterMap fun i => (Table.findUnique Ticket.id i (candidates db e)).bind select).filter
        fun t => !quarantined.contains t.id).map (·.id) =
        page.filter fun i => !quarantined.contains i := by
    intro page
    induction page with
    | nil => intro _; rfl
    | cons i page ih =>
      intro sub
      obtain ⟨g, hg, rfl⟩ := row i (sub i (List.mem_cons_self ..))
      have rest := ih fun j hj => sub j (List.mem_cons_of_mem _ hj)
      simp only [List.filterMap_cons, hg, List.filter_cons]
      split
      · rw [List.map_cons, rest]
      · exact rest
  unfold findHarvestableTickets at h
  simp only at h
  split at h
  · cases h
    exact all ids fun _ h => h
  · cases h

end Page

/-! ## How many are found -/

section Count

variable {s : State} {e : Nat} {ids : List Uuid} {tickets : List BatchTicket}

theorem eligible_append_crowding (s : State) (e : Nat) :
    (crowding s e).length + (eligible s e).length = (candidates s.db e).length := by
  rw [← List.length_append]
  exact (List.filter_append_perm ..).length_eq

/-- The page without its quarantined rows. -/
theorem length_find (unique : (s.db.tickets.map (·.id)).Nodup)
    (h : findHarvestableTickets s.db e s.quarantined ids = some tickets) :
    tickets.length + ids.countP s.quarantined.contains = ids.length := by
  have same := congrArg List.length (ids_of_find unique h)
  rw [List.length_map] at same
  rw [same, Nat.add_comm, List.countP_eq_length_filter, ← List.length_append]
  exact (List.filter_append_perm ..).length_eq

/-- What is found is eligible. -/
theorem subset_eligible (unique : (s.db.tickets.map (·.id)).Nodup)
    (h : findHarvestableTickets s.db e s.quarantined ids = some tickets) :
    tickets.map (·.id) ⊆ (eligible s e).map (·.id) := by
  obtain ⟨-, known, -⟩ := page_of_find h
  intro i hi
  rw [ids_of_find unique h] at hi
  obtain ⟨onPage, free⟩ := List.mem_filter.1 hi
  obtain ⟨t, ht, rfl⟩ := List.mem_map.1 (known onPage)
  exact List.mem_map_of_mem (List.mem_filter.2 ⟨ht, free⟩)

/-- No more of the page is quarantined than there are such rows. -/
theorem countP_le_crowding (h : findHarvestableTickets s.db e s.quarantined ids = some tickets) :
    ids.countP s.quarantined.contains ≤ (crowding s e).length := by
  obtain ⟨distinct, known, -⟩ := page_of_find h
  have sub : ids.filter s.quarantined.contains ⊆ (crowding s e).map (·.id) := by
    intro i hi
    obtain ⟨hi, kept⟩ := List.mem_filter.1 hi
    obtain ⟨t, ht, rfl⟩ := List.mem_map.1 (known hi)
    exact List.mem_map_of_mem (List.mem_filter.2 ⟨ht, kept⟩)
  have le := (List.subperm_of_subset (distinct.filter _) sub).length_le
  rwa [List.length_map, ← List.countP_eq_length_filter] at le

/-- A page that holds every row has every eligible one. -/
theorem length_find_of_all (unique : (s.db.tickets.map (·.id)).Nodup)
    (small : (candidates s.db e).length ≤ 2 * CHUNK_SIZE)
    (h : findHarvestableTickets s.db e s.quarantined ids = some tickets) :
    (eligible s e).length ≤ tickets.length := by
  have found := length_find unique h
  have crowded := countP_le_crowding h
  have rows := eligible_append_crowding s e
  obtain ⟨-, -, length⟩ := page_of_find h
  omega

/-- The harvest fills its chunk where there is headroom. -/
theorem Headroom.fills (unique : (s.db.tickets.map (·.id)).Nodup) (room : Headroom s e) :
    Fills s e := by
  intro ids tickets h
  have enough : min CHUNK_SIZE (eligible s e).length ≤ tickets.length := by
    obtain small | few | none := room
    · exact (Nat.min_le_right ..).trans (length_find_of_all unique small h)
    · obtain large | small := Nat.lt_or_ge (2 * CHUNK_SIZE) (candidates s.db e).length
      · have found := length_find unique h
        have crowded := countP_le_crowding h
        obtain ⟨-, -, length⟩ := page_of_find h
        omega
      · exact (Nat.min_le_right ..).trans (length_find_of_all unique small h)
    · simp [none]
  refine ⟨subset_eligible unique h, fun some => ?_, enough⟩
  have pos : 0 < (eligible s e).length := List.length_pos_iff.2 some
  have chunk : 0 < CHUNK_SIZE := by decide
  have nonempty : tickets ≠ [] := by
    rw [← List.length_pos_iff]
    omega
  refine ⟨nonempty, fun epochs => ?_⟩
  obtain ⟨t, ts, rfl⟩ := List.exists_cons_of_ne_nil nonempty
  simp only [tickStep, h]

/-- The page that starts with the quarantined rows. -/
def crowdedPage (s : State) (megapotId : Nat) : List Uuid :=
  ((crowding s megapotId ++ eligible s megapotId).map (·.id)).take (2 * CHUNK_SIZE)

theorem find_crowdedPage (unique : (s.db.tickets.map (·.id)).Nodup) :
    ∃ tickets, findHarvestableTickets s.db e s.quarantined (crowdedPage s e) = some tickets := by
  have rows : (crowding s e ++ eligible s e).Perm (candidates s.db e) := List.filter_append_perm ..
  have uniqueRows : ((candidates s.db e).map (·.id)).Nodup :=
    unique.sublist (List.filter_sublist.map _)
  refine find_of_page ?_ ?_ ?_
  · exact ((rows.map _).nodup_iff.2 uniqueRows).sublist (List.take_sublist _ _)
  · intro i hi
    exact (rows.map _).mem_iff.1 (List.mem_of_mem_take hi)
  · rw [crowdedPage, List.length_take, List.length_map, rows.length_eq, Nat.min_comm]

/-- That page has as many quarantined rows as fit on it. -/
theorem countP_crowdedPage : min (crowding s e).length (2 * CHUNK_SIZE) ≤
    (crowdedPage s e).countP s.quarantined.contains := by
  have quarantined : (((crowding s e).map (·.id)).take (2 * CHUNK_SIZE)).countP
      s.quarantined.contains = min (2 * CHUNK_SIZE) (crowding s e).length := by
    rw [List.countP_eq_length.2, List.length_take, List.length_map]
    intro i hi
    obtain ⟨t, ht, rfl⟩ := List.mem_map.1 (List.mem_of_mem_take hi)
    exact (List.mem_filter.1 ht).2
  rw [crowdedPage, List.map_append, List.take_append, List.countP_append, quarantined]
  omega

/-- Without headroom, that page leaves too few. -/
theorem Fills.headroom (unique : (s.db.tickets.map (·.id)).Nodup) (fills : Fills s e) :
    Headroom s e := by
  by_contra crowded
  simp only [Headroom, not_or, Nat.not_le] at crowded
  obtain ⟨large, many, some⟩ := crowded
  obtain ⟨tickets, h⟩ := find_crowdedPage (e := e) unique
  have enough := (fills _ tickets h).2.2
  have found := length_find unique h
  have onPage := countP_crowdedPage (s := s) (e := e)
  have rows := eligible_append_crowding s e
  have pos := List.length_pos_iff.2 some
  obtain ⟨-, -, length⟩ := page_of_find h
  have chunk : 0 < CHUNK_SIZE := by decide
  omega

/-- **Quarantine never starves the good tickets**, whatever order the rows come in, exactly when
the page has headroom: at most `2 * CHUNK_SIZE` candidates, or at most `CHUNK_SIZE` of them
quarantined, or all of them. -/
theorem fills_iff (unique : (s.db.tickets.map (·.id)).Nodup) : Fills s e ↔ Headroom s e :=
  ⟨fun fills => fills.headroom unique, fun room => room.fills unique⟩

end Count

/-- The one winner is found. -/
theorem fills_oneWinner : Fills oneWinner 1 :=
  (fills_iff (by decide)).2 (.inl (by decide))

/-! ## A crowded epoch -/

def winnerId (i : Nat) : Uuid := String.ofList (List.replicate i 't')

def winner (i : Nat) : Ticket :=
  { id := winnerId i, orderHash := "o", bonusBall := 1, normalBalls := [1, 2, 3, 4, 5],
    megapotNftId := some i, winStatus := .WON_UNCLAIMED, winAmount := 10 }

/-- An epoch with 101 winners, all but the last in quarantine. -/
def crowd : State where
  now := 0
  db := { oneWinner.db with tickets := (List.range (2 * CHUNK_SIZE + 1)).map winner }
  quarantined := (List.range (2 * CHUNK_SIZE)).map winnerId

theorem winnerId_injective : Function.Injective winnerId := by
  intro i j same
  have length := congrArg (fun id => id.toList.length) same
  simpa [winnerId] using length

theorem candidates_crowd : candidates crowd.db 1 = (List.range (2 * CHUNK_SIZE + 1)).map winner := by
  refine List.filter_eq_self.2 fun t ht => ?_
  obtain ⟨i, -, rfl⟩ := List.mem_map.1 ht
  rfl

theorem unique_crowd : (crowd.db.tickets.map (·.id)).Nodup := by
  have same : crowd.db.tickets.map (·.id) = (List.range (2 * CHUNK_SIZE + 1)).map winnerId :=
    List.map_map
  rw [same]
  exact List.nodup_range.map winnerId_injective

/-- The page can be all quarantine, and the last winner is never found. -/
theorem starved_by_quarantine : ¬ ∀ (s : State) (e : Nat),
    (s.db.tickets.map (·.id)).Nodup → Fills s e := by
  intro all
  have room := (all crowd 1 unique_crowd).headroom unique_crowd
  have last : winner (2 * CHUNK_SIZE) ∈ eligible crowd 1 := by
    refine List.mem_filter.2 ⟨?_, ?_⟩
    · rw [candidates_crowd]
      exact List.mem_map_of_mem (List.mem_range.2 (by omega))
    · have out : winnerId (2 * CHUNK_SIZE) ∉ crowd.quarantined := by
        intro h
        obtain ⟨i, hi, same⟩ := List.mem_map.1 h
        have equal := winnerId_injective same
        have bound := List.mem_range.1 hi
        omega
      simpa [winner] using out
  have crowded : 2 * CHUNK_SIZE ≤ (crowding crowd 1).length := by
    have sub : crowd.quarantined ⊆ (crowding crowd 1).map (·.id) := by
      intro id hid
      obtain ⟨i, hi, rfl⟩ := List.mem_map.1 hid
      have bound := List.mem_range.1 hi
      refine List.mem_map.2 ⟨winner i, List.mem_filter.2 ⟨?_, List.contains_iff_mem.2 hid⟩, rfl⟩
      rw [candidates_crowd]
      exact List.mem_map_of_mem (List.mem_range.2 (by omega))
    have distinct : crowd.quarantined.Nodup := List.nodup_range.map winnerId_injective
    have le := (List.subperm_of_subset distinct sub).length_le
    rwa [List.length_map, crowd, List.length_map, List.length_range] at le
  obtain small | few | none := room
  · rw [candidates_crowd, List.length_map, List.length_range] at small
    omega
  · have chunk : 0 < CHUNK_SIZE := by decide
    omega
  · rw [none] at last
    cases last

end LordsPot.Harvest
