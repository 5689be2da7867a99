import Mathlib.Algebra.GroupWithZero.Nat
import Mathlib.Data.List.Forall2
import Mathlib.Data.List.Nodup
import Mathlib.Algebra.BigOperators.Group.List.Basic
import Mathlib.Algebra.Order.BigOperators.Group.List

/-!
# Tables of keyed rows

A table is the list of its rows; a key is a field of the row. The operations are the
ones an object-relational client offers: change every row that meets a condition, find
the row of a key, insert, delete by key, and sum a field over the rows that meet a
condition. Each has the lemma that says what a lookup by key reads afterwards, so that a
table can be reasoned about as a partial map, and sums have the lemma that says when a
change of rows leaves them alone.
-/

namespace Table

variable {ρ κ : Type}

/-- Change every row that meets `p` by `f`. -/
def updateMany (p : ρ → Bool) (f : ρ → ρ) (rows : List ρ) : List ρ :=
  rows.map fun r => if p r then f r else r

/-- The first row whose key is `k`. -/
def findUnique [DecidableEq κ] (key : ρ → κ) (k : κ) (rows : List ρ) : Option ρ :=
  rows.find? fun r => decide (key r = k)

/-- Drop every row whose key is `k`. -/
def deleteKey [DecidableEq κ] (key : ρ → κ) (k : κ) (rows : List ρ) : List ρ :=
  rows.filter fun r => decide (key r ≠ k)

/-- The sum of `g` over the rows that meet `p`. -/
def sumWhere (p : ρ → Bool) (g : ρ → Nat) (rows : List ρ) : Nat :=
  ((rows.filter p).map g).sum

/-- A row that is found after row `i` was replaced is the new one, or was there. -/
theorem of_getElem?_set {rows : List ρ} {i j : Nat} {r x : ρ} (h : (rows.set i r)[j]? = some x) :
    j = i ∧ x = r ∨ j ≠ i ∧ rows[j]? = some x := by
  rw [List.getElem?_set] at h
  split at h
  · rename_i same
    split at h <;> cases h
    exact .inl ⟨same.symm, rfl⟩
  · rename_i other
    exact .inr ⟨Ne.symm other, h⟩

/-- A row that is found after one was appended was there, or is that one. -/
theorem of_getElem?_concat {rows : List ρ} {j : Nat} {r x : ρ} (h : (rows ++ [r])[j]? = some x) :
    rows[j]? = some x ∨ j = rows.length ∧ x = r := by
  by_cases last : j = rows.length
  · subst last
    rw [List.getElem?_concat_length] at h
    exact .inr ⟨rfl, (Option.some.inj h).symm⟩
  · have bound := (List.getElem?_eq_some_iff.1 h).1
    rw [List.length_append, List.length_singleton] at bound
    rw [List.getElem?_append_left (by omega)] at h
    exact .inl h

section Update

variable {p : ρ → Bool} {f : ρ → ρ} {rows : List ρ}

theorem mem_updateMany {r : ρ} :
    r ∈ updateMany p f rows ↔ ∃ x ∈ rows, (if p x then f x else x) = r := by
  simp only [updateMany, List.mem_map]

/-- A change that keeps a field keeps the list of that field. -/
theorem map_updateMany {γ : Type} (g : ρ → γ) (keep : ∀ r ∈ rows, p r = true → g (f r) = g r) :
    (updateMany p f rows).map g = rows.map g := by
  rw [updateMany, List.map_map]
  refine List.map_congr_left fun r hr => ?_
  by_cases h : p r = true
  · simp [h, keep r hr h]
  · simp [h]

/-- A filter that does not read the change selects the images of the same rows. -/
theorem filter_updateMany {q q' : ρ → Bool}
    (agree : ∀ r ∈ rows, q (if p r then f r else r) = q' r) :
    (updateMany p f rows).filter q = updateMany p f (rows.filter q') := by
  induction rows with
  | nil => rfl
  | cons r rows ih =>
    have ih := ih fun x hx => agree x (List.mem_cons_of_mem _ hx)
    have hr := agree r List.mem_cons_self
    simp only [updateMany, List.map_cons, List.filter_cons, hr] at ih ⊢
    split <;> simp [ih]

/-- A change that leaves a selection and a field of its rows alone. -/
theorem map_filter_updateMany {γ : Type} (g : ρ → γ) {q : ρ → Bool}
    (agree : ∀ r ∈ rows, p r = true → q (f r) = q r)
    (keep : ∀ r ∈ rows, p r = true → q r = true → g (f r) = g r) :
    ((updateMany p f rows).filter q).map g = (rows.filter q).map g := by
  have same : ∀ r ∈ rows, q (if p r then f r else r) = q r := by
    intro r hr
    split
    · rename_i hp
      exact agree r hr hp
    · rfl
  rw [filter_updateMany same]
  refine map_updateMany g fun r hr hp => ?_
  obtain ⟨mem, hq⟩ := List.mem_filter.1 hr
  exact keep r mem hp hq

end Update

/-! ## Rows side by side -/

section Rows

variable {R : ρ → ρ → Prop} {rows rows' : List ρ}

theorem forall₂_updateMany {p : ρ → Bool} {f : ρ → ρ} (same : ∀ r ∈ rows, R r r)
    (change : ∀ r ∈ rows, p r = true → R r (f r)) : List.Forall₂ R rows (updateMany p f rows) := by
  rw [updateMany, List.forall₂_map_right_iff, List.forall₂_same]
  intro r hr
  split
  · rename_i hp
    exact change r hr hp
  · exact same r hr

theorem exists_of_forall₂_right {α β : Type} {R : α → β → Prop} {rows : List α} {rows' : List β}
    (h : List.Forall₂ R rows rows') {r' : β} (hr : r' ∈ rows') : ∃ r ∈ rows, R r r' := by
  induction h with
  | nil => cases hr
  | cons first _ ih =>
    rcases List.mem_cons.1 hr with rfl | later
    · exact ⟨_, List.mem_cons_self, first⟩
    · obtain ⟨r, mem, rel⟩ := ih later
      exact ⟨r, List.mem_cons_of_mem _ mem, rel⟩

theorem exists_of_forall₂_left (h : List.Forall₂ R rows rows') {r : ρ} (hr : r ∈ rows) :
    ∃ r' ∈ rows', R r r' :=
  exists_of_forall₂_right (R := fun r' r => R r r') h.flip hr

/-- Rows of the same distinct keys, each after the one of its key. -/
theorem forall₂_of_keys {key : ρ → κ} (keys : rows'.map key = rows.map key)
    (distinct : (rows.map key).Nodup) (each : ∀ r' ∈ rows', ∃ r ∈ rows, key r' = key r ∧ R r r') :
    List.Forall₂ R rows rows' := by
  have length : rows'.length = rows.length := by simpa using congrArg List.length keys
  refine List.forall₂_iff_get.2 ⟨length.symm, fun i h h' => ?_⟩
  obtain ⟨r, mem, same, rel⟩ := each _ (List.get_mem rows' ⟨i, h'⟩)
  have here : key (rows'.get ⟨i, h'⟩) = key (rows.get ⟨i, h⟩) := by
    have := congrArg (·[i]?) keys
    simpa [List.getElem?_map, h, h'] using this
  rwa [List.inj_on_of_nodup_map distinct mem (List.get_mem rows ⟨i, h⟩) (same.symm.trans here)] at rel

/-- A selection and a field of its rows that the relation keeps. -/
theorem map_filter_of_forall₂ {γ : Type} (g : ρ → γ) {p : ρ → Bool}
    (agree : ∀ r r', R r r' → p r' = p r) (keep : ∀ r r', R r r' → p r = true → g r' = g r)
    (h : List.Forall₂ R rows rows') : (rows'.filter p).map g = (rows.filter p).map g := by
  induction h with
  | nil => rfl
  | @cons r r' _ _ first _ ih =>
    rw [List.filter_cons, List.filter_cons, agree r r' first]
    split
    · rename_i hit
      rw [List.map_cons, List.map_cons, keep r r' first hit, ih]
    · exact ih

/-- A field that the relation keeps. -/
theorem map_of_forall₂ {γ : Type} (g : ρ → γ) (keep : ∀ r r', R r r' → g r' = g r)
    (h : List.Forall₂ R rows rows') : rows'.map g = rows.map g := by
  induction h with
  | nil => rfl
  | cons first _ ih => rw [List.map_cons, List.map_cons, keep _ _ first, ih]

/-- A selection of rows that a replacement leaves as they are. -/
theorem filter_map_of_fixed {f : ρ → ρ} {p : ρ → Bool} {rows : List ρ}
    (agree : ∀ r ∈ rows, p (f r) = p r) (fixed : ∀ r ∈ rows, p r = true → f r = r) :
    (rows.map f).filter p = rows.filter p := by
  induction rows with
  | nil => rfl
  | cons r rows ih =>
    have ih := ih (fun x hx => agree x (List.mem_cons_of_mem _ hx))
      fun x hx => fixed x (List.mem_cons_of_mem _ hx)
    have hr := agree r List.mem_cons_self
    simp only [List.map_cons, List.filter_cons, hr, ih]
    split
    · rename_i hp
      rw [fixed r List.mem_cons_self hp]
    · rfl

/-- A reading of every row that fails on none gives the rows' values in order. -/
theorem map_of_mapM {α β : Type} {f : α → Option β} {xs : List α} {ys : List β}
    (h : xs.mapM f = some ys) : xs.map f = ys.map some := by
  induction xs generalizing ys with
  | nil =>
    cases h
    rfl
  | cons x xs ih =>
    simp only [List.mapM_cons, Option.bind_eq_bind, Option.bind_eq_some_iff, Option.pure_def,
      Option.some.injEq] at h
    obtain ⟨y, hy, ys, hys, rfl⟩ := h
    rw [List.map_cons, List.map_cons, hy, ih hys]

theorem exists_of_mapM {α β : Type} {f : α → Option β} {xs : List α} {ys : List β} {x : α}
    (h : xs.mapM f = some ys) (hx : x ∈ xs) : ∃ y, f x = some y ∧ y ∈ ys := by
  have read : f x ∈ ys.map some := map_of_mapM h ▸ List.mem_map_of_mem hx
  obtain ⟨y, hy, same⟩ := List.mem_map.1 read
  exact ⟨y, same.symm, hy⟩

end Rows

section Lookup

variable [DecidableEq κ] {key : ρ → κ} {rows : List ρ} {k : κ}

theorem key_of_findUnique {r : ρ} (h : findUnique key k rows = some r) : key r = k := by
  simpa [findUnique] using List.find?_some h

theorem mem_of_findUnique {r : ρ} (h : findUnique key k rows = some r) : r ∈ rows :=
  List.mem_of_find?_eq_some h

theorem findUnique_eq_none : findUnique key k rows = none ↔ k ∉ rows.map key := by
  simp [findUnique, List.find?_eq_none]

/-- A lookup of a field that the relation keeps, as it keeps the key. -/
theorem findUnique_of_forall₂ {R : ρ → ρ → Prop} {rows' : List ρ} {γ : Type} (g : ρ → γ)
    (keep : ∀ r r', R r r' → key r' = key r ∧ g r' = g r) (h : List.Forall₂ R rows rows') (k : κ) :
    (findUnique key k rows').map g = (findUnique key k rows).map g := by
  induction h with
  | nil => rfl
  | cons first _ ih =>
    obtain ⟨same, field⟩ := keep _ _ first
    rw [findUnique, findUnique, List.find?_cons, List.find?_cons, same]
    split
    · rw [Option.map_some, Option.map_some, field]
    · exact ih

/-- With distinct keys a row is the one its own key finds. -/
theorem findUnique_of_mem (distinct : (rows.map key).Nodup) {r : ρ} (hr : r ∈ rows) :
    findUnique key (key r) rows = some r := by
  cases h : findUnique key (key r) rows with
  | none => exact absurd (List.mem_map_of_mem hr) (findUnique_eq_none.1 h)
  | some x =>
    rw [List.inj_on_of_nodup_map distinct (mem_of_findUnique h) hr (key_of_findUnique h)]

theorem findUnique_map {f : ρ → ρ} (keep : ∀ r, key (f r) = key r) (k : κ) :
    findUnique key k (rows.map f) = (findUnique key k rows).map f := by
  rw [findUnique, List.find?_map]
  simp only [Function.comp_def, keep]
  rfl

theorem findUnique_updateMany (key : ρ → κ) {p : ρ → Bool} {f : ρ → ρ} (keep : ∀ r, key (f r) = key r) (k : κ) :
    findUnique key k (updateMany p f rows) =
      (findUnique key k rows).map fun r => if p r then f r else r := by
  rw [findUnique, updateMany, List.find?_map]
  congr 2
  funext r
  by_cases h : p r = true <;> simp [h, keep]

theorem findUnique_insert (key : ρ → κ) {r : ρ} (fresh : key r ∉ rows.map key) (k : κ) :
    findUnique key k (rows ++ [r]) = if key r = k then some r else findUnique key k rows := by
  rw [findUnique, List.find?_append]
  split
  · rename_i h
    subst h
    rw [show rows.find? (fun x => decide (key x = key r)) = none from findUnique_eq_none.2 fresh]
    simp
  · rename_i h
    simp [findUnique, h]

theorem findUnique_deleteKey (key : ρ → κ) (j k : κ) :
    findUnique key k (deleteKey key j rows) = if k = j then none else findUnique key k rows := by
  rw [findUnique, deleteKey, List.find?_filter]
  split
  · rename_i h
    subst h
    simp [List.find?_eq_none]
  · rename_i h
    rw [findUnique]
    congr 1
    funext r
    by_cases hr : key r = k
    · simp [hr, h]
    · simp [hr]

omit [DecidableEq κ] in
theorem nodup_insert {r : ρ} (distinct : (rows.map key).Nodup) (fresh : key r ∉ rows.map key) :
    ((rows ++ [r]).map key).Nodup := by
  rw [List.map_append, List.nodup_append]
  refine ⟨distinct, List.nodup_singleton _, ?_⟩
  intro a ha b hb
  simp only [List.map_cons, List.map_nil, List.mem_singleton] at hb
  rintro rfl
  exact fresh (hb ▸ ha)

omit [DecidableEq κ] in
/-- A selection any two rows of which share their key holds one row at most. -/
theorem length_filter_le_one (distinct : (rows.map key).Nodup) {p : ρ → Bool}
    (same : ∀ r ∈ rows, ∀ r' ∈ rows, p r = true → p r' = true → key r = key r') :
    (rows.filter p).length ≤ 1 := by
  have once : ((rows.filter p).map key).Nodup := distinct.sublist (List.filter_sublist.map key)
  have mem : ∀ r ∈ rows.filter p, r ∈ rows ∧ p r = true := fun r => List.mem_filter.1
  generalize rows.filter p = chosen at once mem
  match chosen with
  | [] => exact Nat.zero_le 1
  | [_] => exact le_rfl
  | r :: r' :: _ =>
    obtain ⟨hr, hp⟩ := mem r (by simp)
    obtain ⟨hr', hp'⟩ := mem r' (by simp)
    simp [same r hr r' hr' hp hp'] at once

theorem nodup_deleteKey (distinct : (rows.map key).Nodup) (j : κ) :
    ((deleteKey key j rows).map key).Nodup :=
  distinct.sublist (List.filter_sublist.map key)

end Lookup

section Sums

variable {rows : List ρ}

/-- A change of rows that neither moves rows in or out of the sum nor alters the summed
field leaves the sum alone. -/
theorem sumWhere_updateMany {p q q' : ρ → Bool} {f : ρ → ρ} {g : ρ → Nat}
    (agree : ∀ r ∈ rows, q (if p r then f r else r) = q' r)
    (keep : ∀ r, g (f r) = g r) :
    sumWhere q g (updateMany p f rows) = sumWhere q' g rows := by
  rw [sumWhere, filter_updateMany agree, map_updateMany g fun r _ _ => keep r, sumWhere]

theorem sumWhere_cons (p : ρ → Bool) (g : ρ → Nat) (r : ρ) :
    sumWhere p g (r :: rows) = (if p r then g r else 0) + sumWhere p g rows := by
  by_cases h : p r = true <;> simp [sumWhere, h]

/-- A larger selection has no smaller sum. -/
theorem sumWhere_le {p q : ρ → Bool} {g : ρ → Nat} (inside : ∀ r ∈ rows, p r = true → q r = true) :
    sumWhere p g rows ≤ sumWhere q g rows := by
  induction rows with
  | nil => exact le_rfl
  | cons r rows ih =>
    have ih := ih fun x hx => inside x (List.mem_cons_of_mem _ hx)
    rw [sumWhere_cons, sumWhere_cons]
    refine Nat.add_le_add ?_ ih
    split
    · rename_i h
      rw [if_pos (inside r List.mem_cons_self h)]
    · exact Nat.zero_le _

/-- Selections that share no row add up. -/
theorem sumWhere_add {p q : ρ → Bool} {g : ρ → Nat}
    (apart : ∀ r ∈ rows, p r = true → q r = true → False) :
    sumWhere p g rows + sumWhere q g rows = sumWhere (fun r => p r || q r) g rows := by
  induction rows with
  | nil => rfl
  | cons r rows ih =>
    have ih := ih fun x hx => apart x (List.mem_cons_of_mem _ hx)
    rw [sumWhere_cons, sumWhere_cons, sumWhere_cons, ← ih]
    have apart := apart r List.mem_cons_self
    cases hp : p r <;> cases hq : q r <;> simp_all <;> omega

/-- Selections of which no two share a row add up. -/
theorem sum_sumWhere {ι : Type} (part : ι → ρ → Bool) (g : ρ → Nat) {keys : List ι}
    (apart : keys.Pairwise fun k k' => ∀ r ∈ rows, part k r = true → part k' r = false) :
    (keys.map fun k => sumWhere (part k) g rows).sum =
      sumWhere (fun r => keys.any fun k => part k r) g rows := by
  induction keys with
  | nil => simp [sumWhere]
  | cons k keys ih =>
    obtain ⟨first, rest⟩ := List.pairwise_cons.1 apart
    rw [List.map_cons, List.sum_cons, ih rest, sumWhere_add]
    · simp only [List.any_cons]
    · intro r hr here there
      obtain ⟨k', hk', there⟩ := List.any_eq_true.1 there
      rw [first k' hk' r hr here] at there
      cases there

/-- Distinct keys count a row at most once. -/
theorem sum_ite_key [DecidableEq κ] (o : Option κ) (n : Nat) {keys : List κ}
    (distinct : keys.Nodup) :
    (keys.map fun k => if o = some k then n else 0).sum = if ∃ k ∈ keys, o = some k then n else 0 := by
  induction keys with
  | nil => simp
  | cons k keys ih =>
    obtain ⟨fresh, distinct⟩ := List.nodup_cons.1 distinct
    have ih := ih distinct
    by_cases hk : o = some k
    · have others : ¬ ∃ k' ∈ keys, o = some k' := by
        rintro ⟨k', hk', e⟩
        exact fresh (Option.some.inj (hk.symm.trans e) ▸ hk')
      rw [if_neg others] at ih
      have here : ∃ k' ∈ k :: keys, o = some k' := ⟨k, List.mem_cons_self, hk⟩
      rw [List.map_cons, List.sum_cons, if_pos hk, if_pos here, ih, Nat.add_zero]
    · rw [List.map_cons, List.sum_cons, if_neg hk, Nat.zero_add, ih]
      refine if_congr ?_ rfl rfl
      simp [hk]

/-- Rows split by a partial key: the sums over distinct keys are the sum over the rows of those keys. -/
theorem sum_by_key [DecidableEq κ] (part : ρ → Option κ) (g : ρ → Nat) (keys : List κ)
    (distinct : keys.Nodup) :
    (keys.map fun k => sumWhere (fun r => decide (part r = some k)) g rows).sum =
      sumWhere (fun r => decide (∃ k ∈ keys, part r = some k)) g rows := by
  induction rows with
  | nil => simp [sumWhere]
  | cons r rows ih =>
    simp only [sumWhere_cons, List.sum_map_add, ih, decide_eq_true_eq]
    rw [sum_ite_key (part r) (g r) distinct]

/-- They do not exceed the sum over any selection that holds all rows of those keys. -/
theorem sum_by_key_le [DecidableEq κ] (part : ρ → Option κ) (g : ρ → Nat) (p : ρ → Bool)
    (keys : List κ) (distinct : keys.Nodup)
    (inside : ∀ r ∈ rows, ∀ k ∈ keys, part r = some k → p r = true) :
    (keys.map fun k => sumWhere (fun r => decide (part r = some k)) g rows).sum ≤
      sumWhere p g rows := by
  rw [sum_by_key part g keys distinct]
  refine sumWhere_le fun r hr found => ?_
  obtain ⟨k, hk, e⟩ := of_decide_eq_true found
  exact inside r hr k hk e

end Sums

end Table
