import Mathlib.Data.List.Sort
import Mathlib.Order.Basic

/-!
# Going through a listing page by page

A client asks for one page after the other, each time with the key that the last answer gave for the
next one, until an answer gives none. The store may change between two requests. `Descending` is what
one answer of a listing by descending keys has to be: then the walk meets no key twice, misses nothing
that was there all the time, and comes to an end. For a listing that stays as it is, `walk_offset` says
the same of pages by offset.
-/

namespace Paging

variable {σ κ α : Type}

/-- What requests at these stores, each for the page that the one before has named, have brought
together, and the key of the page that is left. -/
def walk (fetch : σ → κ → List α × Option κ) : List σ → κ → List α × Option κ
  | [], k => ([], some k)
  | s :: later, k => match fetch s k with
    | (page, none) => (page, none)
    | (page, some next) => ((page ++ (walk fetch later next).1), (walk fetch later next).2)

variable {fetch : σ → κ → List α × Option κ} {s : σ} {later : List σ} {k next : κ} {page : List α}

theorem walk_last (h : fetch s k = (page, none)) : walk fetch (s :: later) k = (page, none) := by
  rw [walk, h]

theorem walk_next (h : fetch s k = (page, some next)) : walk fetch (s :: later) k =
    (page ++ (walk fetch later next).1, (walk fetch later next).2) := by
  rw [walk, h]

/-- A walk of which only part of each row is looked at. -/
theorem walk_map {β : Type} (g : α → β) (stores : List σ) (k : κ) :
    walk (fun s k => ((fetch s k).1.map g, (fetch s k).2)) stores k =
      ((walk fetch stores k).1.map g, (walk fetch stores k).2) := by
  induction stores generalizing k with
  | nil => rfl
  | cons s later ih =>
    rcases fetched : fetch s k with ⟨page, _ | next⟩
    · rw [walk_last fetched, walk_last (by rw [fetched])]
    · rw [walk_next fetched, walk_next (by rw [fetched]), ih, List.map_append]

/-! ## By descending keys -/

/-- One answer of a listing by descending keys: of the rows under the cursor it has the first ones,
and the next cursor is the last key it has, or none when it has them all. -/
structure Descending {ι : Type} [LinearOrder ι] (key : α → ι) (under : κ → ι → Prop) (rows : List α) (k : κ)
    (answer : List α × Option κ) : Prop where
  desc : (answer.1.map key).Pairwise (· > ·)
  sub : ∀ e ∈ answer.1, e ∈ rows ∧ under k (key e)
  rest : ∀ e ∈ rows, under k (key e) → e ∉ answer.1 → ∃ next, answer.2 = some next ∧ under next (key e)
  last : ∀ next, answer.2 = some next →
    ∃ e ∈ answer.1, (∀ e' ∈ answer.1, key e ≤ key e') ∧ ∀ i, under next i ↔ i < key e

section Keys

variable {ι : Type} [LinearOrder ι] {key : α → ι} {under : κ → ι → Prop} {rows : σ → List α}
  {stores : List σ}

/-- The first rows of a listing by descending keys, with the last key for a full page. -/
theorem descending_take {all listed : List α} (desc : (listed.map key).Pairwise (· > ·))
    (mem : ∀ e, e ∈ listed ↔ e ∈ all ∧ under k (key e)) {n : Nat} (some : 0 < n) (cursor : ι → κ)
    (edge : ∀ e ∈ listed, ∀ i, under (cursor (key e)) i ↔ i < key e) :
    Descending key under all k (listed.take n,
      if (listed.take n).length = n then (listed.take n).getLast?.map fun e => cursor (key e) else none) where
  desc := by
    rw [List.map_take]
    exact desc.sublist (List.take_sublist ..)
  sub e taken := (mem e).1 (List.mem_of_mem_take taken)
  rest e row below absent := by
    have after : e ∈ listed.drop n := by
      have whole := (mem e).2 ⟨row, below⟩
      rw [← List.take_append_drop n listed] at whole
      exact (List.mem_append.1 whole).resolve_left absent
    have full : (listed.take n).length = n := by
      have := List.length_pos_of_mem after
      rw [List.length_drop] at this
      rw [List.length_take]
      omega
    have found := List.getLast?_eq_some_getLast
      (List.ne_nil_of_length_pos (l := listed.take n) (by omega))
    refine ⟨_, by rw [if_pos full, found]; rfl, ?_⟩
    have taken := List.mem_of_getLast? found
    refine (edge _ (List.mem_of_mem_take taken) _).2 ?_
    rw [← List.take_append_drop n listed, List.map_append] at desc
    exact (List.pairwise_append.1 desc).2.2 _ (List.mem_map_of_mem taken) _ (List.mem_map_of_mem after)
  last next named := by
    split at named
    · obtain ⟨last, found, rfl⟩ := Option.map_eq_some_iff.1 named
      have taken := List.mem_of_getLast? found
      refine ⟨last, taken, fun e mem => ?_, edge last (List.mem_of_mem_take taken)⟩
      obtain ⟨front, cut⟩ := List.getLast?_eq_some_iff.1 found
      have sorted := desc.sublist ((List.take_sublist n listed).map key)
      rw [cut, List.map_append] at sorted
      rw [cut] at mem
      rcases List.mem_append.1 mem with before | same
      · exact le_of_lt ((List.pairwise_append.1 sorted).2.2 _ (List.mem_map_of_mem before) _
          (List.mem_map_of_mem (List.mem_singleton_self _)))
      · rw [List.mem_singleton.1 same]
    · cases named

/-- What a walk has seen was there when it was seen, under the cursor it began with. -/
theorem mem_walk (down : ∀ k i j, under k i → j < i → under k j)
    (answers : ∀ s ∈ stores, ∀ k, Descending key under (rows s) k (fetch s k)) {e : α}
    (h : e ∈ (walk fetch stores k).1) : under k (key e) ∧ ∃ s ∈ stores, e ∈ rows s := by
  induction stores generalizing k with
  | nil => cases h
  | cons s later ih =>
    have answer := answers s List.mem_cons_self k
    rcases fetched : fetch s k with ⟨page, _ | next⟩ <;> rw [fetched] at answer
    · rw [walk_last fetched] at h
      exact ⟨(answer.sub e h).2, s, List.mem_cons_self, (answer.sub e h).1⟩
    · rw [walk_next fetched] at h
      rcases List.mem_append.1 h with here | there
      · exact ⟨(answer.sub e here).2, s, List.mem_cons_self, (answer.sub e here).1⟩
      · obtain ⟨below, s', mem, row⟩ := ih (fun s mem => answers s (List.mem_cons_of_mem _ mem)) there
        obtain ⟨e', mem', -, edge⟩ := answer.last next rfl
        exact ⟨down _ _ _ (answer.sub e' mem').2 ((edge _).1 below), s', List.mem_cons_of_mem _ mem, row⟩

/-- A walk meets no key twice: it goes down. -/
theorem walk_desc (down : ∀ k i j, under k i → j < i → under k j)
    (answers : ∀ s ∈ stores, ∀ k, Descending key under (rows s) k (fetch s k)) :
    ((walk fetch stores k).1.map key).Pairwise (· > ·) := by
  induction stores generalizing k with
  | nil => exact .nil
  | cons s later ih =>
    have answer := answers s List.mem_cons_self k
    have others := fun s mem => answers s (List.mem_cons_of_mem _ mem)
    rcases fetched : fetch s k with ⟨page, _ | next⟩ <;> rw [fetched] at answer
    · rw [walk_last fetched]
      exact answer.desc
    · rw [walk_next fetched, List.map_append]
      refine List.pairwise_append.2 ⟨answer.desc, ih others, fun i here j there => ?_⟩
      obtain ⟨a, ha, rfl⟩ := List.mem_map.1 here
      obtain ⟨b, hb, rfl⟩ := List.mem_map.1 there
      obtain ⟨e, -, least, edge⟩ := answer.last next rfl
      exact lt_of_lt_of_le ((edge _).1 (mem_walk down others hb).1) (least a ha)

/-- A key that is there at every request is seen, or is still to come. -/
theorem walk_covers (answers : ∀ s ∈ stores, ∀ k, Descending key under (rows s) k (fetch s k)) {i : ι}
    (there : ∀ s ∈ stores, ∃ e ∈ rows s, key e = i) (below : under k i) :
    i ∈ (walk fetch stores k).1.map key ∨ ∃ next, (walk fetch stores k).2 = some next ∧ under next i := by
  induction stores generalizing k with
  | nil => exact .inr ⟨k, rfl, below⟩
  | cons s later ih =>
    have answer := answers s List.mem_cons_self k
    obtain ⟨e, mem, rfl⟩ := there s List.mem_cons_self
    have ih := fun next => ih (k := next) (fun s mem => answers s (List.mem_cons_of_mem _ mem))
      fun s mem => there s (List.mem_cons_of_mem _ mem)
    by_cases seen : e ∈ (fetch s k).1
    · have here : key e ∈ (fetch s k).1.map key := List.mem_map_of_mem seen
      rcases fetched : fetch s k with ⟨page, _ | next⟩ <;> rw [fetched] at here
      · rw [walk_last fetched]
        exact .inl here
      · rw [walk_next fetched, List.map_append]
        exact .inl (List.mem_append_left _ here)
    · obtain ⟨next, named, under'⟩ := answer.rest e mem below seen
      rcases fetched : fetch s k with ⟨page, _ | next'⟩ <;> rw [fetched] at named <;> cases named
      rw [walk_next fetched, List.map_append]
      exact (ih next under').imp_left (List.mem_append_right _)

end Keys

/-- A walk over numbers ends: each request goes further down. -/
theorem walk_ends {key : α → Nat} {under : κ → Nat → Prop} {rows : σ → List α} {stores : List σ}
    (answers : ∀ s ∈ stores, ∀ k, Descending key under (rows s) k (fetch s k)) {n : Nat}
    (below : ∀ s ∈ stores, ∀ e ∈ rows s, under k (key e) → key e < n) (enough : n < stores.length) :
    (walk fetch stores k).2 = none := by
  induction stores generalizing k n with
  | nil => cases enough
  | cons s later ih =>
    have answer := answers s List.mem_cons_self k
    rcases fetched : fetch s k with ⟨page, _ | next⟩ <;> rw [fetched] at answer
    · rw [walk_last fetched]
    · rw [walk_next fetched]
      obtain ⟨e, mem, -, edge⟩ := answer.last next rfl
      have lower := below s List.mem_cons_self e (answer.sub e mem).1 (answer.sub e mem).2
      rw [List.length_cons] at enough
      exact ih (fun s mem => answers s (List.mem_cons_of_mem _ mem)) (fun _ _ _ _ => (edge _).1) (by omega)

/-! ## By offset -/

/-- One answer of a listing by offset. -/
inductive ByOffset (xs : List α) (limit offset : Nat) : List α × Option Nat → Prop where
  | more (more : offset + limit < xs.length) :
      ByOffset xs limit offset ((xs.drop offset).take limit, some (offset + limit))
  | last (last : xs.length ≤ offset + limit) : ByOffset xs limit offset (xs.drop offset, none)

/-- Pages by offset of a listing that stays as it is: what has been seen is followed by what is left. -/
theorem walk_offset {fetch : σ → Nat → List α × Option Nat} {xs : List α} {limit offset : Nat}
    {stores : List σ} (answers : ∀ s ∈ stores, ∀ offset, ByOffset xs limit offset (fetch s offset)) :
    ((walk fetch stores offset).2 = none → (walk fetch stores offset).1 = xs.drop offset) ∧
      ∀ next, (walk fetch stores offset).2 = some next →
        (walk fetch stores offset).1 ++ xs.drop next = xs.drop offset ∧
          next = offset + stores.length * limit := by
  induction stores generalizing offset with
  | nil =>
    refine ⟨nofun, fun next same => ?_⟩
    cases same
    exact ⟨rfl, by simp⟩
  | cons s later ih =>
    have answer := answers s List.mem_cons_self offset
    obtain ⟨ended, left⟩ := @ih (offset + limit) fun s mem => answers s (List.mem_cons_of_mem _ mem)
    have cut : (xs.drop offset).take limit ++ xs.drop (offset + limit) = xs.drop offset := by
      rw [← List.drop_drop, List.take_append_drop]
    generalize fetched : fetch s offset = fetched at answer
    cases answer with
    | more =>
      rw [walk_next fetched]
      refine ⟨fun none => ?_, fun next named => ?_⟩
      · rw [ended none, cut]
      · obtain ⟨whole, length⟩ := left next named
        refine ⟨by rw [List.append_assoc, whole, cut], ?_⟩
        rw [length, List.length_cons, Nat.succ_mul]
        omega
    | last =>
      rw [walk_last fetched]
      exact ⟨fun _ => rfl, fun _ named => by cases named⟩

/-- It ends once there have been enough requests. -/
theorem walk_offset_ends {fetch : σ → Nat → List α × Option Nat} {xs : List α} {limit offset : Nat}
    {stores : List σ} (some : stores ≠ [])
    (answers : ∀ s ∈ stores, ∀ offset, ByOffset xs limit offset (fetch s offset))
    (enough : xs.length ≤ offset + stores.length * limit) :
    (walk fetch stores offset).2 = none := by
  induction stores generalizing offset with
  | nil => exact absurd rfl some
  | cons s later ih =>
    have answer := answers s List.mem_cons_self offset
    rw [List.length_cons, Nat.succ_mul] at enough
    generalize fetched : fetch s offset = fetched at answer
    cases answer with
    | more more =>
      rw [walk_next fetched]
      refine ih ?_ (fun s mem => answers s (List.mem_cons_of_mem _ mem)) (by omega)
      rintro rfl
      rw [List.length_nil, Nat.zero_mul] at enough
      omega
    | last => rw [walk_last fetched]

end Paging
