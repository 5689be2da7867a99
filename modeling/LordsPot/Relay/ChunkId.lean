import LordsPot.Relay.Batch

/-!
# A chunk's id

Ticket ids are uuids, so the joined ids of a chunk can be taken apart again: chunks with
one key have the same tickets, and no key is a Solana signature.
-/

namespace LordsPot.Relay

/-- What is needed of a uuid: it has a hyphen and no comma. -/
def UuidLike (c : ChunkTicket) : Prop := '-' ∈ c.id.toList ∧ ',' ∉ c.id.toList

/-- The ids that `chunkKey` joins. -/
def sortedIds (chunk : List ChunkTicket) : List Uuid := (chunk.map (·.id)).insertionSort (· ≤ ·)

theorem sortedIds_perm (chunk : List ChunkTicket) : (sortedIds chunk).Perm (chunk.map (·.id)) :=
  List.perm_insertionSort ..

theorem mem_sortedIds {chunk : List ChunkTicket} {id : Uuid} (h : id ∈ sortedIds chunk) :
    ∃ c ∈ chunk, c.id = id :=
  List.mem_map.1 ((sortedIds_perm chunk).mem_iff.1 h)

theorem sortedIds_eq_nil {chunk : List ChunkTicket} : sortedIds chunk = [] ↔ chunk = [] := by
  rw [← List.length_eq_zero_iff, (sortedIds_perm chunk).length_eq, List.length_map,
    List.length_eq_zero_iff]

theorem toList_chunkKey (chunk : List ChunkTicket) :
    (chunkKey chunk).toList = [','].intercalate ((sortedIds chunk).map String.toList) :=
  String.toList_intercalate

theorem chunkKey_nil : chunkKey [] = "" := by
  rw [← String.toList_inj, toList_chunkKey]
  rfl

/-- The key of a chunk splits into the ids again. -/
theorem splitOn_chunkKey {chunk : List ChunkTicket} (uuids : ∀ c ∈ chunk, UuidLike c)
    (nonempty : chunk ≠ []) :
    (chunkKey chunk).toList.splitOn ',' = (sortedIds chunk).map String.toList := by
  rw [toList_chunkKey, List.splitOn_intercalate]
  · intro id hid
    obtain ⟨text, htext, rfl⟩ := List.mem_map.1 hid
    obtain ⟨c, hc, rfl⟩ := mem_sortedIds htext
    exact (uuids c hc).2
  · simpa [sortedIds_eq_nil] using nonempty

theorem hyphen_mem_chunkKey {chunk : List ChunkTicket} (uuids : ∀ c ∈ chunk, UuidLike c)
    (nonempty : chunk ≠ []) : '-' ∈ (chunkKey chunk).toList := by
  cases h : sortedIds chunk with
  | nil => exact absurd (sortedIds_eq_nil.1 h) nonempty
  | cons id ids =>
    obtain ⟨c, hc, rfl⟩ := mem_sortedIds (h ▸ List.mem_cons_self : id ∈ sortedIds chunk)
    rw [toList_chunkKey, h]
    cases ids <;> simp [List.intercalate, (uuids c hc).1]

/-- **Chunks with one key have the same tickets.** -/
theorem perm_of_chunkKey {chunk chunk' : List ChunkTicket} (uuids : ∀ c ∈ chunk, UuidLike c)
    (uuids' : ∀ c ∈ chunk', UuidLike c) (h : chunkKey chunk = chunkKey chunk') :
    (chunk.map (·.id)).Perm (chunk'.map (·.id)) := by
  have empty : ∀ {x : List ChunkTicket}, (∀ c ∈ x, UuidLike c) → chunkKey x = "" → x = [] := by
    intro x hx hk
    by_contra hne
    have := hyphen_mem_chunkKey hx hne
    simp [hk] at this
  by_cases h₁ : chunk = []
  · subst h₁
    rw [empty uuids' (h.symm.trans chunkKey_nil)]
  · have h₂ : chunk' ≠ [] := by
      rintro rfl
      exact h₁ (empty uuids (h.trans chunkKey_nil))
    have texts := (splitOn_chunkKey uuids h₁).symm.trans
      ((congrArg (fun key : String => key.toList.splitOn ',') h).trans (splitOn_chunkKey uuids' h₂))
    have ids : sortedIds chunk = sortedIds chunk' :=
      List.map_injective_iff.2 (fun _ _ => String.toList_inj.1) texts
    exact (sortedIds_perm chunk).symm.trans (ids ▸ sortedIds_perm chunk')

/-- No key is a text without hyphens. -/
theorem chunkKey_ne {chunk : List ChunkTicket} (uuids : ∀ c ∈ chunk, UuidLike c) {signature : String}
    (plain : '-' ∉ signature.toList) (nonempty : signature ≠ "") : chunkKey chunk ≠ signature := by
  rintro rfl
  by_cases h : chunk = []
  · exact nonempty (h ▸ chunkKey_nil)
  · exact plain (hyphen_mem_chunkKey uuids h)

theorem mem_of_chunks {chunkSize : Nat} {pendingTickets chunk : List ChunkTicket} {c : ChunkTicket}
    (h : chunk ∈ chunks chunkSize pendingTickets) (hc : c ∈ chunk) : c ∈ pendingTickets := by
  obtain ⟨k, -, rfl⟩ := List.mem_map.1 h
  exact List.mem_of_mem_drop (List.mem_of_mem_take hc)

end LordsPot.Relay
