import LordsPot.Schema

/-!
# Harvest batches

The database writes of the harvest worker: binding tickets to a batch row before the
broadcast, finishing a batch and releasing it.
-/

namespace LordsPot.Harvest

/-- `HARVESTABLE`. -/
def harvestable (t : Ticket) : Bool :=
  t.winStatus == .WON_UNCLAIMED || t.winStatus == .WON_FREE_TICKET

/-- `harvestBatch.create`. -/
def createBatch (db : Db) (id : Uuid) (megapotId amountGross now : Nat) : Db :=
  { db with harvestBatches := db.harvestBatches ++
      [{ id := id, megapotId := megapotId, amountGross := amountGross, createdAt := now }] }

/-- The guarded bind of a batch's tickets. -/
def bindBatch (db : Db) (batchId : Uuid) (ids : List Uuid) : Db :=
  { db with
    tickets := Table.updateMany (fun t => ids.contains t.id && t.harvestBatchId == none)
      (fun t => { t with harvestBatchId := some batchId }) db.tickets }

/-- `bound.count`: the rows the guarded bind changes. -/
def bindCount (db : Db) (ids : List Uuid) : Nat :=
  (db.tickets.filter fun t => ids.contains t.id && t.harvestBatchId == none).length

/-- `harvestBatch.delete`; the foreign key of its tickets is set to null. -/
def deleteBatch (db : Db) (batchId : Uuid) : Db :=
  { db with
    harvestBatches := Table.deleteKey HarvestBatch.id batchId db.harvestBatches
    tickets := Table.updateMany (·.harvestBatchId == some batchId)
      (fun t => { t with harvestBatchId := none }) db.tickets }

/-- `harvestBatch.update({ data: { txHash } })`. -/
def setBatchTxHash (db : Db) (batchId : Uuid) (txHash : TxHash) : Db :=
  { db with
    harvestBatches := Table.updateMany (·.id == batchId)
      (fun b => { b with txHash := some txHash }) db.harvestBatches }

def finalizeBatchSuccess (db : Db) (batchId : Uuid) (txHash : TxHash) (now : Nat) : Db :=
  { db with
    tickets := Table.updateMany (fun t => t.harvestBatchId == some batchId && harvestable t)
      (fun t => { t with winStatus := .CLAIMED_ON_BASE }) db.tickets
    harvestBatches := Table.updateMany (·.id == batchId)
      (fun b => { b with status := .CONFIRMED, txHash := some txHash, confirmedAt := some now,
                         error := none }) db.harvestBatches }

def releaseBatch (db : Db) (batchId : Uuid) (reason : String) : Db :=
  { db with
    tickets := Table.updateMany (·.harvestBatchId == some batchId)
      (fun t => { t with harvestBatchId := none }) db.tickets
    harvestBatches := Table.updateMany (·.id == batchId)
      (fun b => { b with status := .FAILED, error := some (slice2000 reason) }) db.harvestBatches }

end LordsPot.Harvest
