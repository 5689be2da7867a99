import LordsPot.Harvest.Soundness
import LordsPot.Harvest.Book

/-!
# What is in a batch

The tickets bound to a batch row, by NFT and amount. They change twice in a batch's life: when
its creator binds them and when the batch is released.
-/

namespace LordsPot.Harvest

open Transition

/-- The tickets bound to a batch, as NFT and amount. -/
def contents (db : Db) (b : Uuid) : List (Option NftId × Nat) :=
  (db.tickets.filter (·.harvestBatchId == some b)).map fun x => (x.megapotNftId, x.winAmount)

/-- The rows a bind of these ids would take. -/
def taken (db : Db) (ids : List Uuid) : List (Option NftId × Nat) :=
  (db.tickets.filter fun x => ids.contains x.id && x.harvestBatchId == none).map
    fun x => (x.megapotNftId, x.winAmount)

theorem mem_contents {db : Db} {b : Uuid} {c : Option NftId × Nat} :
    c ∈ contents db b ↔ ∃ x ∈ db.tickets, x.harvestBatchId = some b ∧ (x.megapotNftId, x.winAmount) = c := by
  simp only [contents, List.mem_map, List.mem_filter, beq_iff_eq, and_assoc]

theorem contents_eq_nil {db : Db} {b : Uuid} :
    contents db b = [] ↔ ∀ x ∈ db.tickets, x.harvestBatchId ≠ some b := by
  simp only [contents, List.map_eq_nil_iff, List.filter_eq_nil_iff, beq_iff_eq, ne_eq]

section Writes

variable {db : Db} {b c : Uuid}

theorem contents_finalize {hash : TxHash} {now : Nat} :
    contents (finalizeBatchSuccess db b hash now) c = contents db c :=
  Table.map_filter_updateMany _ (fun _ _ _ => rfl) fun _ _ _ _ => rfl

theorem contents_unbind_self {db' : Db} (eq : db'.tickets =
    Table.updateMany (·.harvestBatchId == some b) (fun x => { x with harvestBatchId := none })
      db.tickets) : contents db' b = [] := by
  rw [contents_eq_nil, eq]
  intro x' hx' bound
  obtain ⟨x, -, rfl⟩ := Table.mem_updateMany.1 hx'
  split at bound
  · cases bound
  · rename_i other
    exact other (beq_iff_eq.2 bound)

theorem contents_unbind_other {db' : Db} (eq : db'.tickets =
    Table.updateMany (·.harvestBatchId == some b) (fun x => { x with harvestBatchId := none })
      db.tickets) (other : c ≠ b) : contents db' c = contents db c := by
  rw [contents, eq]
  refine Table.map_filter_updateMany _ ?_ fun _ _ _ _ => rfl
  intro x _ bound
  rw [beq_iff_eq] at bound
  simp [bound, Ne.symm other]

theorem contents_bind_other {ids : List Uuid} (other : c ≠ b) :
    contents (bindBatch db b ids) c = contents db c := by
  refine Table.map_filter_updateMany _ ?_ fun _ _ _ _ => rfl
  intro x _ free
  rw [Bool.and_eq_true, beq_iff_eq] at free
  simp [free.2, Ne.symm other]

/-- A bind takes nothing from any batch. -/
theorem contents_bind_subset {ids : List Uuid} {x : Option NftId × Nat} (hx : x ∈ contents db c) :
    x ∈ contents (bindBatch db b ids) c := by
  obtain ⟨t, ht, bound, rfl⟩ := mem_contents.1 hx
  refine mem_contents.2 ⟨_, Table.mem_updateMany.2 ⟨t, ht, if_neg ?_⟩, bound, rfl⟩
  simp [bound]

/-- A bind to a batch with nothing in it. -/
theorem contents_bind_self {ids : List Uuid} (empty : contents db b = []) :
    contents (bindBatch db b ids) b = taken db ids := by
  have agree : ∀ x ∈ db.tickets,
      ((if (ids.contains x.id && x.harvestBatchId == none) = true
        then { x with harvestBatchId := some b } else x).harvestBatchId == some b) =
      (ids.contains x.id && x.harvestBatchId == none) := by
    intro x hx
    split
    · rename_i free
      rw [free]
      exact beq_iff_eq.2 rfl
    · rename_i held
      rw [Bool.eq_false_iff.2 held]
      exact beq_eq_false_iff_ne.2 (contents_eq_nil.1 empty x hx)
  rw [contents, bindBatch, Table.filter_updateMany agree, taken]
  exact Table.map_updateMany _ fun _ _ _ => rfl

end Writes

section Effect

variable {s s' : State} {t t' : Tick} {act : TickAct}

/-- The contents of a batch change by its release and by its creator's bind. -/
theorem Effect.fills (book : Book s) {i : Nat} (ht : s.ticks[i]? = some t)
    (effect : Effect s t act s' t') (b : Uuid) :
    contents s'.db b = contents s.db b ∨
    (∃ reason epochs, t = .releasing b reason epochs ∧ act = .release ∧ contents s'.db b = []) ∨
    ∃ good epochs, t = .created b good epochs ∧ act = .bind ∧ contents s.db b = [] ∧
      contents s'.db b = taken s.db (good.map (·.id)) := by
  cases effect with
  | giveUp | confirm => exact .inl contents_finalize
  | release =>
    rename_i c reason epochs
    by_cases same : b = c
    · subst same
      exact .inr (.inl ⟨reason, epochs, rfl, rfl, contents_unbind_self rfl⟩)
    · exact .inl (contents_unbind_other rfl same)
  | delete =>
    rename_i c epochs
    by_cases same : b = c
    · subst same
      have after : contents (deleteBatch s.db b) b = [] := contents_unbind_self rfl
      exact .inl (after.trans (contents_eq_nil.2 (book.empty i _ b ht rfl)).symm)
    · exact .inl (contents_unbind_other rfl same)
  | bind =>
    rename_i c good epochs next
    by_cases same : b = c
    · subst same
      have empty := contents_eq_nil.2 (book.empty i _ b ht rfl)
      exact .inr (.inr ⟨good, epochs, rfl, rfl, empty, contents_bind_self empty⟩)
    · exact .inl (contents_bind_other same)
  | _ => exact .inl rfl

/-- A row stays until its creator deletes it, with its gross. -/
theorem Effect.row_kept (effect : Effect s t act s' t') {row : HarvestBatch}
    (hrow : row ∈ s.db.harvestBatches) :
    (∃ row' ∈ s'.db.harvestBatches, row'.id = row.id ∧ row'.amountGross = row.amountGross) ∨
      ∃ epochs, t = .deleting row.id epochs := by
  have updated {p : HarvestBatch → Bool} {f : HarvestBatch → HarvestBatch}
      (keep : ∀ r, (f r).id = r.id ∧ (f r).amountGross = r.amountGross) :
      ∃ row' ∈ Table.updateMany p f s.db.harvestBatches,
        row'.id = row.id ∧ row'.amountGross = row.amountGross := by
    refine ⟨_, Table.mem_updateMany.2 ⟨row, hrow, rfl⟩, ?_⟩
    split
    · exact keep row
    · exact ⟨rfl, rfl⟩
  cases effect with
  | record | giveUp | confirm | release => exact .inl (updated fun _ => ⟨rfl, rfl⟩)
  | create => exact .inl ⟨row, List.mem_append_left _ hrow, rfl, rfl⟩
  | delete =>
    rename_i b epochs
    by_cases same : row.id = b
    · exact .inr ⟨epochs, by rw [same]⟩
    · exact .inl ⟨row, List.mem_filter.2 ⟨hrow, by simpa using same⟩, rfl, rfl⟩
  | _ => exact .inl ⟨row, hrow, rfl, rfl⟩

theorem submitted_updateMany {p : HarvestBatch → Bool} {f : HarvestBatch → HarvestBatch}
    {rows : List HarvestBatch} {row' : HarvestBatch} (hrow : row' ∈ Table.updateMany p f rows)
    (submitted : row'.status = .SUBMITTED) (id : ∀ r, (f r).id = r.id)
    (status : ∀ r, (f r).status = .SUBMITTED → r.status = .SUBMITTED) :
    ∃ row ∈ rows, row.id = row'.id ∧ row.status = .SUBMITTED := by
  obtain ⟨row, mem, rfl⟩ := Table.mem_updateMany.1 hrow
  refine ⟨row, mem, ?_⟩
  split at submitted
  · rename_i changed
    rw [if_pos changed]
    exact ⟨(id row).symm, status row submitted⟩
  · rename_i same
    rw [if_neg same]
    exact ⟨rfl, submitted⟩

/-- A submitted row was submitted before and has lost nothing, or it is new. -/
theorem Effect.row_submitted (effect : Effect s t act s' t') {row' : HarvestBatch}
    (hrow : row' ∈ s'.db.harvestBatches) (submitted : row'.status = .SUBMITTED) :
    (∃ row ∈ s.db.harvestBatches, row.id = row'.id ∧ row.status = .SUBMITTED) ∧
      (∀ c ∈ contents s.db row'.id, c ∈ contents s'.db row'.id) ∨
    freshBatch s row'.id = true := by
  cases effect with
  | record => exact .inl ⟨submitted_updateMany hrow submitted (fun _ => rfl) fun _ h => h, fun _ h => h⟩
  | giveUp | confirm =>
    refine .inl ⟨submitted_updateMany hrow submitted (fun _ => rfl) nofun, fun c h => ?_⟩
    exact contents_finalize.symm ▸ h
  | release =>
    refine .inl ⟨submitted_updateMany hrow submitted (fun _ => rfl) nofun, fun c h => ?_⟩
    obtain ⟨row, mem, rfl⟩ := Table.mem_updateMany.1 hrow
    split at submitted
    · cases submitted
    · rename_i other
      rw [if_neg other] at h ⊢
      rw [contents_unbind_other rfl fun same => other (beq_iff_eq.2 same)]
      exact h
  | create fresh =>
    rcases List.mem_append.1 hrow with old | new
    · exact .inl ⟨⟨row', old, rfl, submitted⟩, fun _ h => h⟩
    · cases List.mem_singleton.1 new
      exact .inr fresh
  | bind => exact .inl ⟨⟨row', hrow, rfl, submitted⟩, fun _ h => contents_bind_subset h⟩
  | delete =>
    obtain ⟨mem, other⟩ := List.mem_filter.1 hrow
    refine .inl ⟨⟨row', mem, rfl, submitted⟩, fun c h => ?_⟩
    rw [contents_unbind_other rfl (of_decide_eq_true other)]
    exact h
  | _ => exact .inl ⟨⟨row', hrow, rfl, submitted⟩, fun _ h => h⟩

end Effect

end LordsPot.Harvest
