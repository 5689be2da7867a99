import LordsPot.Harvest.Effect

/-!
# Harvest soundness

A ticket is marked `CLAIMED_ON_BASE` only for a mined claim as long as the recovery's
`catch` is taken only when the lost transaction has in fact been mined, and a batch is not
recovered while its tickets are still being bound. The `catch` reads every exception as
proof of the first: a failed RPC call, or a resubmission that was broadcast but not
recorded, marks the tickets as well.
-/

namespace LordsPot.Harvest

open Transition

/-- A mined claim contains the NFT. -/
def Claimed (s : State) (n : NftId) : Prop := ∃ tx ∈ s.txs, tx.mined = some true ∧ n ∈ tx.nftIds

/-- Every ticket marked as claimed has been claimed on Base. -/
def Sound (s : State) : Prop :=
  ∀ t ∈ s.db.tickets, t.winStatus = .CLAIMED_ON_BASE → ∃ n, t.megapotNftId = some n ∧ Claimed s n

/-- The recovery's `catch` finalizes a batch that has no ticket or whose claim has been
mined; tickets are bound to a batch that no one else has in hand. -/
def harvestSafe (s : State) : Action → Bool
  | .tick i .finalize => match s.ticks[i]? with
    | some (.catching b _) =>
      s.db.tickets.all (·.harvestBatchId != some b) ||
        s.txs.any fun tx => tx.batchId == b && tx.mined == some true
    | _ => true
  | .tick i .bind => match s.ticks[i]? with
    | some (.created b _ _) =>
      s.txs.all (·.batchId != b) && (s.ticks.eraseIdx i).all (·.batchId? != some b)
    | _ => true
  | _ => true

/-! ## What is bound to a batch -/

/-- Every ticket of the batch has its NFT among these. -/
def BoundIn (db : Db) (b : Uuid) (ids : List NftId) : Prop :=
  ∀ t ∈ db.tickets, t.harvestBatchId = some b → ∃ n, t.megapotNftId = some n ∧ n ∈ ids

/-- The selected columns are those of the rows. -/
def Chosen (db : Db) (tickets : List BatchTicket) : Prop :=
  ∀ g ∈ tickets, ∀ t ∈ db.tickets, t.id = g.id → t.megapotNftId = some g.megapotNftId

/-- A transaction of the batch, by its hash. -/
def Broadcast (txs : List ClaimTx) (b : Uuid) (hash : TxHash) : Prop :=
  ∃ tx ∈ txs, tx.hash = hash ∧ tx.batchId = b

/-- A mined transaction of the batch. -/
def Mined (txs : List ClaimTx) (b : Uuid) : Prop := ∃ tx ∈ txs, tx.batchId = b ∧ tx.mined = some true

/-- The hash on an unresolved batch row is that of a transaction of the batch. -/
def Recorded (txs : List ClaimTx) (db : Db) : Prop :=
  ∀ b ∈ db.harvestBatches, b.status = .SUBMITTED → ∀ hash, b.txHash = some hash →
    Broadcast txs b.id hash

def TickOk (s : State) : Tick → Prop
  | .rehearsing b ids _ | .submitting _ b ids _ => BoundIn s.db b ids
  | .recording _ b hash _ | .receipt b hash _ _ => Broadcast s.txs b hash
  | .landed b _ _ => Mined s.txs b
  | .found _ tickets _ => Chosen s.db tickets
  | .quarantining _ good _ _ | .creating _ good _ => Chosen s.db good
  | .created b good _ => Chosen s.db good ∧ ∀ t ∈ s.db.tickets, t.harvestBatchId ≠ some b
  | .next _ | .lost .. | .catching .. | .mempool .. | .releasing .. | .building ..
  | .checkingOwed .. | .watermark .. | .deleting .. | .ended => True

structure Inv (s : State) : Prop where
  ticketIds : (s.db.tickets.map (·.id)).Nodup
  hashes : (s.txs.map (·.hash)).Nodup
  bound : ∀ tx ∈ s.txs, BoundIn s.db tx.batchId tx.nftIds
  recorded : Recorded s.txs s.db
  sound : Sound s
  ticks : ∀ (i : Nat) (t : Tick), s.ticks[i]? = some t → TickOk s t

/-! ## What a step keeps -/

/-- Tickets keep their ids and NFTs; only batch `new` gains tickets, and only tickets of
claimed NFTs become claimed. -/
def Keeps (s : State) (db' : Db) (new : Option Uuid) : Prop :=
  ∀ t' ∈ db'.tickets, ∃ t ∈ s.db.tickets, t'.id = t.id ∧ t'.megapotNftId = t.megapotNftId ∧
    (∀ b, t'.harvestBatchId = some b → t.harvestBatchId = some b ∨ new = some b) ∧
    (t'.winStatus = .CLAIMED_ON_BASE → t.winStatus = .CLAIMED_ON_BASE ∨
      ∃ n, t.megapotNftId = some n ∧ Claimed s n)

/-- Transactions stay as they are; a receipt stays too. -/
def Grown (txs txs' : List ClaimTx) : Prop :=
  ∀ tx ∈ txs, ∃ tx' ∈ txs', tx'.hash = tx.hash ∧ tx'.batchId = tx.batchId ∧
    tx'.nftIds = tx.nftIds ∧ (tx.mined = some true → tx'.mined = some true)

section Keeps

variable {s s' : State} {new : Option Uuid}

theorem Grown.refl (txs : List ClaimTx) : Grown txs txs := fun tx h => ⟨tx, h, rfl, rfl, rfl, id⟩

theorem Grown.append (txs : List ClaimTx) (tx : ClaimTx) : Grown txs (txs ++ [tx]) := fun x h =>
  ⟨x, List.mem_append_left _ h, rfl, rfl, rfl, id⟩

theorem Broadcast.grown {txs txs' : List ClaimTx} (g : Grown txs txs') {b : Uuid} {hash : TxHash}
    (h : Broadcast txs b hash) : Broadcast txs' b hash := by
  obtain ⟨tx, htx, hh, hb⟩ := h
  obtain ⟨tx', htx', he, hb', -, -⟩ := g tx htx
  exact ⟨tx', htx', he.trans hh, hb'.trans hb⟩

theorem Mined.grown {txs txs' : List ClaimTx} (g : Grown txs txs') {b : Uuid} (h : Mined txs b) :
    Mined txs' b := by
  obtain ⟨tx, htx, hb, hm⟩ := h
  obtain ⟨tx', htx', -, hb', -, mined⟩ := g tx htx
  exact ⟨tx', htx', hb'.trans hb, mined hm⟩

theorem Claimed.grown (g : Grown s.txs s'.txs) {n : NftId} (h : Claimed s n) : Claimed s' n := by
  obtain ⟨tx, htx, hm, hn⟩ := h
  obtain ⟨tx', htx', -, -, ids, mined⟩ := g tx htx
  exact ⟨tx', htx', mined hm, ids ▸ hn⟩

theorem BoundIn.keeps {db' : Db} (k : Keeps s db' new) {b : Uuid} {ids : List NftId}
    (other : new ≠ some b) (h : BoundIn s.db b ids) : BoundIn db' b ids := by
  intro t' ht' hb
  obtain ⟨t, ht, -, nft, bound, -⟩ := k t' ht'
  rw [nft]
  exact h t ht ((bound b hb).resolve_right other)

theorem Chosen.keeps (k : Keeps s s'.db new) {tickets : List BatchTicket}
    (h : Chosen s.db tickets) : Chosen s'.db tickets := by
  intro g hg t' ht' hid
  obtain ⟨t, ht, id, nft, -⟩ := k t' ht'
  rw [nft]
  exact h g hg t ht (id.symm.trans hid)

/-- A tick knows what it knew, unless the step binds tickets to its batch. -/
theorem TickOk.keeps (k : Keeps s s'.db new) (g : Grown s.txs s'.txs) {t : Tick}
    (other : ∀ b, t.batchId? = some b → new ≠ some b) (h : TickOk s t) : TickOk s' t := by
  cases t with
  | rehearsing b ids epochs => exact BoundIn.keeps k (other b rfl) h
  | submitting recovery b ids epochs => exact BoundIn.keeps k (other b rfl) h
  | recording recovery b hash epochs => exact Broadcast.grown g h
  | receipt b hash ageMs epochs => exact Broadcast.grown g h
  | landed b hash epochs => exact Mined.grown g h
  | found e tickets epochs => exact Chosen.keeps k h
  | quarantining e good bad epochs => exact Chosen.keeps k h
  | creating e good epochs => exact Chosen.keeps k h
  | created b good epochs =>
    refine ⟨Chosen.keeps k h.1, fun t' ht' hb => ?_⟩
    obtain ⟨t, ht, -, -, bound, -⟩ := k t' ht'
    exact h.2 t ht ((bound b hb).resolve_right (other b rfl))
  | _ => trivial

theorem Sound.keeps (k : Keeps s s'.db new) (g : Grown s.txs s'.txs) (h : Sound s) : Sound s' := by
  intro t' ht' hc
  obtain ⟨t, ht, -, nft, -, claimed⟩ := k t' ht'
  rcases claimed hc with old | ⟨n, hn, claim⟩
  · obtain ⟨n, hn, claim⟩ := h t ht old
    exact ⟨n, nft.trans hn, claim.grown g⟩
  · exact ⟨n, nft.trans hn, claim.grown g⟩

/-- A step that changes no ticket. -/
theorem keeps_same {db' : Db} (h : db'.tickets = s.db.tickets) : Keeps s db' none := fun t ht =>
  ⟨t, h ▸ ht, rfl, rfl, fun _ hb => .inl hb, .inl⟩

/-- A step that changes the rows that meet `p`. -/
theorem keeps_updateMany {db' : Db} {p : Ticket → Bool} {f : Ticket → Ticket}
    (h : db'.tickets = Table.updateMany p f s.db.tickets)
    (row : ∀ t, (f t).id = t.id ∧ (f t).megapotNftId = t.megapotNftId)
    (bound : ∀ t ∈ s.db.tickets, p t = true → ∀ b, (f t).harvestBatchId = some b →
      t.harvestBatchId = some b ∨ new = some b)
    (claimed : ∀ t ∈ s.db.tickets, p t = true → (f t).winStatus = .CLAIMED_ON_BASE →
      t.winStatus = .CLAIMED_ON_BASE ∨ ∃ n, t.megapotNftId = some n ∧ Claimed s n) :
    Keeps s db' new := by
  intro t' ht'
  rw [h] at ht'
  obtain ⟨t, ht, rfl⟩ := Table.mem_updateMany.1 ht'
  refine ⟨t, ht, ?_⟩
  split
  · rename_i hp
    exact ⟨(row t).1, (row t).2, bound t ht hp, claimed t ht hp⟩
  · exact ⟨rfl, rfl, fun _ hb => .inl hb, .inl⟩

theorem ids_updateMany {db db' : Db} {p : Ticket → Bool} {f : Ticket → Ticket}
    (h : db'.tickets = Table.updateMany p f db.tickets) (row : ∀ t, (f t).id = t.id) :
    db'.tickets.map (·.id) = db.tickets.map (·.id) := by
  rw [h, Table.map_updateMany _ fun t _ _ => row t]

theorem keeps_unbind {db' : Db} {b : Uuid}
    (h : db'.tickets = Table.updateMany (·.harvestBatchId == some b)
      (fun t => { t with harvestBatchId := none }) s.db.tickets) : Keeps s db' none :=
  keeps_updateMany h (fun _ => ⟨rfl, rfl⟩) (fun _ _ _ _ hb => by cases hb) fun _ _ _ hc => .inl hc

/-- Finalizing a batch that has no ticket or a mined claim. -/
theorem keeps_finalize (inv : Inv s) {b : Uuid} {hash : TxHash} {now : Nat}
    (mined : (∀ t ∈ s.db.tickets, t.harvestBatchId ≠ some b) ∨ Mined s.txs b) :
    Keeps s (finalizeBatchSuccess s.db b hash now) none := by
  refine keeps_updateMany rfl (fun _ => ⟨rfl, rfl⟩) (fun _ _ _ _ hb => .inl hb) fun t ht hp _ => ?_
  rw [Bool.and_eq_true, beq_iff_eq] at hp
  rcases mined with none | ⟨tx, htx, rfl, hm⟩
  · exact absurd hp.1 (none t ht)
  · obtain ⟨n, hn, mem⟩ := inv.bound tx htx t ht hp.1
    exact .inr ⟨n, hn, tx, htx, hm, mem⟩

theorem Recorded.updateMany {txs : List ClaimTx} {db db' : Db} {p : HarvestBatch → Bool}
    {f : HarvestBatch → HarvestBatch}
    (h : db'.harvestBatches = Table.updateMany p f db.harvestBatches) (rec : Recorded txs db)
    (row : ∀ b ∈ db.harvestBatches, p b = true → (f b).status = .SUBMITTED →
      ∀ hash, (f b).txHash = some hash → Broadcast txs (f b).id hash) : Recorded txs db' := by
  intro b' hb' hst hash hh
  rw [h] at hb'
  obtain ⟨b, hb, rfl⟩ := Table.mem_updateMany.1 hb'
  split at hst
  · rename_i hp
    rw [if_pos hp] at hh ⊢
    exact row b hb hp hst hash hh
  · rename_i hp
    rw [if_neg hp] at hh ⊢
    exact rec b hb hst hash hh

/-- What one step of tick `i` keeps. -/
structure StepOk (s : State) (i : Nat) (s' : State) (t' : Tick) (new : Option Uuid) : Prop where
  ticks : s'.ticks = s.ticks
  ids : s'.db.tickets.map (·.id) = s.db.tickets.map (·.id)
  keeps : Keeps s s'.db new
  grown : Grown s.txs s'.txs
  hashes : (s'.txs.map (·.hash)).Nodup
  bound : ∀ tx ∈ s'.txs, BoundIn s'.db tx.batchId tx.nftIds
  recorded : Recorded s'.txs s'.db
  tick : TickOk s' t'
  others : ∀ (j : Nat) (t : Tick), j ≠ i → s.ticks[j]? = some t → ∀ b, t.batchId? = some b →
    new ≠ some b

variable {i : Nat}

/-- A step that broadcasts nothing and binds nothing. -/
theorem StepOk.write (inv : Inv s) {db : Db} {t' : Tick}
    (ids : db.tickets.map (·.id) = s.db.tickets.map (·.id)) (keeps : Keeps s db none)
    (recorded : Recorded s.txs db) (tick : TickOk { s with db := db } t') :
    StepOk s i { s with db := db } t' none where
  ticks := rfl
  ids := ids
  keeps := keeps
  grown := .refl _
  hashes := inv.hashes
  bound tx htx := (inv.bound tx htx).keeps keeps nofun
  recorded := recorded
  tick := tick
  others := nofun

/-- A step that writes nothing. -/
theorem StepOk.quiet (inv : Inv s) {t' : Tick} (tick : TickOk s t') : StepOk s i s t' none :=
  (.write inv rfl (keeps_same rfl) inv.recorded tick : StepOk s i { s with db := s.db } t' none)

/-- A broadcast of NFTs that hold all of the batch's tickets. -/
theorem stepOk_submit (inv : Inv s) {b : Uuid} {ids : List NftId} (held : BoundIn s.db b ids)
    {hash : TxHash} (fresh : s.txs.all (·.hash != hash) = true) {t' : Tick}
    (tick : ∀ txs, Broadcast txs b hash → TickOk { s with txs := txs } t') :
    StepOk s i { s with txs := s.txs ++ [{ hash := hash, batchId := b, nftIds := ids }] } t' none where
  ticks := rfl
  ids := rfl
  keeps := keeps_same rfl
  grown := Grown.append s.txs _
  hashes := by
    refine Table.nodup_insert inv.hashes fun h => ?_
    obtain ⟨tx, htx, he⟩ := List.mem_map.1 h
    simpa [he] using List.all_eq_true.1 fresh tx htx
  bound tx htx := by
    rcases List.mem_append.1 htx with old | new
    · exact inv.bound tx old
    · cases List.mem_singleton.1 new
      exact held
  recorded r hr hst h hh := (inv.recorded r hr hst h hh).grown (Grown.append s.txs _)
  tick := tick _ ⟨_, List.mem_append_right _ List.mem_cons_self, rfl, rfl⟩
  others := nofun

theorem stepOk_bind (inv : Inv s) {b : Uuid} {good : List BatchTicket} {epochs : List Nat}
    (ht : s.ticks[i]? = some (.created b good epochs)) (ok : harvestSafe s (.tick i .bind) = true)
    {t' : Tick} (next : t' = .deleting b epochs ∨
      t' = .submitting false b (good.map (·.megapotNftId)) epochs) :
    StepOk s i { s with db := bindBatch s.db b (good.map (·.id)) } t' (some b) := by
  obtain ⟨chosen, empty⟩ := inv.ticks i _ ht
  simp only [harvestSafe, ht, Bool.and_eq_true, List.all_eq_true, bne_iff_ne] at ok
  have keeps : Keeps s (bindBatch s.db b (good.map (·.id))) (some b) :=
    keeps_updateMany rfl (fun _ => ⟨rfl, rfl⟩) (fun _ _ _ _ hb => .inr hb) fun _ _ _ hc => .inl hc
  refine ⟨rfl, ids_updateMany rfl fun _ => rfl, keeps, .refl _, inv.hashes, ?_,
    inv.recorded, ?_, ?_⟩
  · intro tx htx
    refine (inv.bound tx htx).keeps keeps ?_
    exact fun he => ok.1 tx htx (Option.some.inj he).symm
  · rcases next with rfl | rfl
    · trivial
    · intro t' ht' hb
      obtain ⟨t, ht, rfl⟩ := Table.mem_updateMany.1 ht'
      split at hb
      · rename_i hp
        rw [if_pos hp]
        simp only [Bool.and_eq_true, List.contains_iff_mem, List.mem_map] at hp
        obtain ⟨⟨g, hg, hid⟩, -⟩ := hp
        exact ⟨_, chosen g hg t ht hid.symm, List.mem_map_of_mem hg⟩
      · exact absurd hb (empty t ht)
  · rintro j t hj hjt c hc he
    cases he
    exact ok.2 t (List.mem_eraseIdx_iff_getElem?.2 ⟨j, hj, hjt⟩) hc

/-- What `findHarvestableTickets` returns are columns of the rows. -/
theorem chosen_find (inv : Inv s) {e : Nat} {ids : List Uuid} {tickets : List BatchTicket}
    (h : findHarvestableTickets s.db e s.quarantined ids = some tickets) : Chosen s.db tickets := by
  unfold findHarvestableTickets at h
  simp only at h
  split at h
  · cases h
    intro g hg t ht hid
    obtain ⟨id, -, hid'⟩ := List.mem_filterMap.1 (List.mem_filter.1 hg).1
    obtain ⟨row, hrow, hsel⟩ := Option.bind_eq_some_iff.1 hid'
    obtain ⟨n, hn, rfl⟩ := Option.map_eq_some_iff.1 hsel
    have hmem : row ∈ s.db.tickets := (List.mem_filter.1 (Table.mem_of_findUnique hrow)).1
    obtain rfl := List.inj_on_of_nodup_map inv.ticketIds ht hmem hid
    exact hn
  · cases h

/-- What the recovery reads are the NFTs of all the batch's tickets. -/
theorem boundIn_of_read {db : Db} {b : Uuid} {ids : List NftId} (h : boundNftIds db b = some ids) :
    BoundIn db b ids := by
  intro t ht hb
  exact Table.exists_of_mapM h (List.mem_filter.2 ⟨ht, beq_iff_eq.2 hb⟩)

theorem TickOk.of_plain {t : Tick} (plain : t.plain = true) : TickOk s t := by
  cases t with
  | rehearsing | submitting | recording | receipt | landed | watermark | found | quarantining
  | creating | created | deleting => cases plain
  | _ => trivial

/-- **The tick rule**: a safe step of a tick keeps what the others rely on. -/
theorem tickStep_ok (inv : Inv s) {t t' : Tick} {act : TickAct} (ht : s.ticks[i]? = some t)
    (ok : harvestSafe s (.tick i act) = true) (effect : Effect s t act s' t') :
    ∃ new, StepOk s i s' t' new := by
  have known := inv.ticks i t ht
  cases effect with
  | moves plain => exact ⟨_, .quiet inv (.of_plain plain)⟩
  | inFlight mem submitted recorded =>
    exact ⟨_, .quiet inv (inv.recorded _ mem submitted _ recorded)⟩
  | readBound read => exact ⟨_, .quiet inv (boundIn_of_read read)⟩
  | estimate => exact ⟨_, .quiet inv known⟩
  | submit fresh next =>
    refine ⟨_, stepOk_submit inv known (by simpa using fresh) fun txs broadcast => ?_⟩
    rcases next with rfl | plain
    · exact broadcast
    · exact .of_plain plain
  | record =>
    refine ⟨_, .write inv rfl (keeps_same rfl) (.updateMany rfl inv.recorded ?_) trivial⟩
    intro r _ hp _ h hh
    cases hh
    rw [beq_iff_eq] at hp
    exact hp ▸ known
  | giveUp =>
    rename_i b epochs
    have mined : (∀ t ∈ s.db.tickets, t.harvestBatchId ≠ some b) ∨ Mined s.txs b := by
      simpa [harvestSafe, ht, Mined] using ok
    refine ⟨_, .write inv (ids_updateMany rfl fun _ => rfl) (keeps_finalize inv mined)
      (.updateMany rfl inv.recorded ?_) trivial⟩
    exact fun _ _ _ hst => by cases hst
  | mined mem same success =>
    obtain ⟨own, hown, hhash, hb⟩ := known
    obtain rfl := List.inj_on_of_nodup_map inv.hashes mem hown (same.trans hhash.symm)
    exact ⟨_, .quiet inv ⟨_, mem, hb, success⟩⟩
  | confirm =>
    refine ⟨_, .write inv (ids_updateMany rfl fun _ => rfl)
      (keeps_finalize inv (.inr known)) (.updateMany rfl inv.recorded ?_) trivial⟩
    exact fun _ _ _ hst => by cases hst
  | release =>
    refine ⟨_, .write inv (ids_updateMany rfl fun _ => rfl) (keeps_unbind rfl)
      (.updateMany rfl inv.recorded ?_) trivial⟩
    exact fun _ _ _ hst => by cases hst
  | find read => exact ⟨_, .quiet inv (chosen_find inv read)⟩
  | nothingOwed => exact ⟨_, .quiet inv trivial⟩
  | setWatermark => exact ⟨_, .write inv rfl (keeps_same rfl) inv.recorded trivial⟩
  | rehearse split next =>
    have good := fun g hg => known g (List.mem_of_mem_take (split.mem_iff.1 (List.mem_append_left _ hg)))
    refine ⟨_, .quiet inv ?_⟩
    rcases next with rfl | ⟨-, rfl⟩ | plain
    · exact good
    · exact good
    · exact .of_plain plain
  | quarantine next =>
    refine ⟨none, rfl, rfl, keeps_same rfl, .refl _, inv.hashes, inv.bound, inv.recorded, ?_, nofun⟩
    rcases next with ⟨-, rfl⟩ | plain
    · exact known
    · exact .of_plain plain
  | create fresh =>
    simp only [freshBatch, Bool.and_eq_true, List.all_eq_true, bne_iff_ne] at fresh
    refine ⟨_, .write inv rfl (keeps_same rfl) ?_ ⟨known, fresh.1.1.2⟩⟩
    intro r hr hst h hh
    rcases List.mem_append.1 hr with hr | hr
    · exact inv.recorded r hr hst h hh
    · cases List.mem_singleton.1 hr
      cases hh
  | bind next =>
    refine ⟨_, stepOk_bind inv ht ok ?_⟩
    rcases next with ⟨-, eq⟩ | ⟨-, eq⟩
    · exact .inl eq
    · exact .inr eq
  | delete =>
    refine ⟨_, .write inv (ids_updateMany rfl fun _ => rfl) (keeps_unbind rfl) ?_ trivial⟩
    exact fun r hr => inv.recorded r (List.mem_filter.1 hr).1

theorem Inv.tick (inv : Inv s) {t t' : Tick} (hk : StepOk s i s' t' new)
    (ht : s.ticks[i]? = some t) : Inv { s' with ticks := s.ticks.set i t' } where
  ticketIds := hk.ids ▸ inv.ticketIds
  hashes := hk.hashes
  bound := hk.bound
  recorded := hk.recorded
  sound := inv.sound.keeps hk.keeps hk.grown
  ticks j u hu := by
    have same : TickOk s' u := by
      rcases Table.of_getElem?_set hu with ⟨rfl, rfl⟩ | ⟨other, old⟩
      · exact hk.tick
      · exact (inv.ticks j u old).keeps hk.keeps hk.grown (hk.others j u other old)
    exact same.keeps (keeps_same rfl) (.refl _) nofun

/-- A step of the environment changes no tick and binds nothing. -/
theorem Inv.env (inv : Inv s) (ticks : s'.ticks = s.ticks)
    (ids : s'.db.tickets.map (·.id) = s.db.tickets.map (·.id)) (keeps : Keeps s s'.db none)
    (grown : Grown s.txs s'.txs) (hashes : s'.txs.map (·.hash) = s.txs.map (·.hash))
    (same : ∀ tx' ∈ s'.txs, ∃ tx ∈ s.txs, tx'.batchId = tx.batchId ∧ tx'.nftIds = tx.nftIds)
    (batches : s'.db.harvestBatches = s.db.harvestBatches) : Inv s' where
  ticketIds := ids ▸ inv.ticketIds
  hashes := hashes ▸ inv.hashes
  bound tx' htx' := by
    obtain ⟨tx, htx, hb, hids⟩ := same tx' htx'
    rw [hb, hids]
    exact BoundIn.keeps keeps nofun (inv.bound tx htx)
  recorded b hb hst hash hh := (inv.recorded b (batches ▸ hb) hst hash hh).grown grown
  sound := inv.sound.keeps keeps grown
  ticks j u hu := (inv.ticks j u (ticks ▸ hu)).keeps keeps grown nofun

theorem Inv.start (inv : Inv s) (t : List Nat) : Inv { s with ticks := s.ticks ++ [.next t] } where
  ticketIds := inv.ticketIds
  hashes := inv.hashes
  bound := inv.bound
  recorded := inv.recorded
  sound := inv.sound
  ticks j u hu := by
    have same : TickOk s u := by
      rcases List.mem_append.1 (List.mem_of_getElem? hu) with old | new
      · obtain ⟨k, hk⟩ := List.mem_iff_getElem?.1 old
        exact inv.ticks k u hk
      · cases List.mem_singleton.1 new
        trivial
    exact same.keeps (keeps_same rfl) (.refl _) nofun

theorem Inv.mine (inv : Inv s) (hash : TxHash) (success : Bool) :
    Inv { s with
      txs := Table.updateMany (fun tx => tx.hash == hash && tx.mined == none)
        (fun tx => { tx with mined := some success }) s.txs } := by
  refine inv.env rfl rfl (keeps_same rfl) ?_ (Table.map_updateMany _ fun _ _ _ => rfl) ?_ rfl
  · intro tx htx
    refine ⟨_, Table.mem_updateMany.2 ⟨tx, htx, rfl⟩, ?_⟩
    split
    · rename_i hp
      rw [Bool.and_eq_true, beq_iff_eq, beq_iff_eq] at hp
      exact ⟨rfl, rfl, rfl, fun hm => by rw [hp.2] at hm; cases hm⟩
    · exact ⟨rfl, rfl, rfl, id⟩
  · intro tx' htx'
    obtain ⟨tx, htx, rfl⟩ := Table.mem_updateMany.1 htx'
    exact ⟨tx, htx, by split <;> rfl, by split <;> rfl⟩

/-- **The harvest rule**: a safe step keeps the invariant. -/
theorem Inv.step (inv : Inv s) {a : Action} (ok : harvestSafe s a = true)
    (hs : Harvest.step s a = some s') : Inv s' := by
  have untouched : ∀ tx' ∈ s.txs, ∃ tx ∈ s.txs, tx'.batchId = tx.batchId ∧ tx'.nftIds = tx.nftIds :=
    fun tx htx => ⟨tx, htx, rfl, rfl⟩
  cases stepMove hs with
  | start => exact inv.start _
  | tick here effect =>
    obtain ⟨_, hk⟩ := tickStep_ok inv here ok effect
    exact inv.tick hk here
  | mine => exact inv.mine _ _
  | grade graded =>
    refine inv.env rfl (ids_updateMany rfl fun _ => rfl) ?_ (.refl _) rfl untouched rfl
    refine keeps_updateMany rfl (fun _ => ⟨rfl, rfl⟩) (fun _ _ _ _ hb => .inl hb) fun t _ _ hc => ?_
    simp only at hc
    rw [hc] at graded
    exact absurd graded (by decide)
  | clock | settled | unquarantine =>
    exact inv.env rfl rfl (keeps_same rfl) (.refl _) rfl untouched rfl

end Keeps

theorem Inv.initial {s : State} (h : Initial s) : Inv s where
  ticketIds := h.ticketIds
  hashes := by rw [h.noTxs]; exact List.nodup_nil
  bound := by rw [h.noTxs]; nofun
  recorded := by rw [Recorded, h.noBatches]; nofun
  sound t ht hc := absurd hc (h.unclaimed t ht)
  ticks := by rw [h.noTicks]; nofun

/-- **Harvest soundness.** As long as every step is safe, a ticket is marked as claimed only
when a `claimWinnings` transaction with its NFT has been mined. -/
theorem harvest_sound {s : State} (h : machine.ReachableBy (fun s a => harvestSafe s a = true) s) :
    Sound s :=
  (Machine.ReachableBy.invariant (fun _ => Inv.initial)
    (fun _ _ _ inv ok hs => Inv.step inv ok hs) h).sound

/-- A settled epoch with one winning ticket. -/
def oneWinner : State where
  now := 0
  db := {
    relayOrders := [{ hash := "o", signature := "s", buyer := "w", fulfillEpoch := some 1, status := .SUCCESS }]
    tickets := [{ id := "t", orderHash := "o", bonusBall := 1, normalBalls := [1, 2, 3, 4, 5],
                  megapotNftId := some 7, winStatus := .WON_UNCLAIMED, winAmount := 10 }]
    megapotEpochs := [{ megapotId := 1, ticketsSettledAt := some 0 }] }

theorem initial_oneWinner : Initial oneWinner := by
  constructor <;> decide

/-- The first tick, up to the bind of the ticket to its batch. -/
def bindOne : List Action :=
  .start :: [.findInFlight none, .find ["t"], .rehearse [], .create "b", .bind].map (.tick 0)

/-- When the lock of the first tick has expired, the second recovers the batch, and one of its
calls throws. -/
def recoverThrows : List Action :=
  [.clock (LOCK_TTL_SEC * 1000), .start] ++
    [.findInFlight (some "b"), .readBound, .throw, .finalize].map (.tick 1)

/-- The process dies before the broadcast and a call of the recovery fails in transport:
the ticket is marked as claimed although nothing was ever broadcast. -/
theorem claimed_without_claim : ¬ ∀ s, machine.Reachable s → Sound s := by
  intro all
  obtain ⟨s, hs, hp⟩ := Machine.exists_reachable_of_run (M := machine) initial_oneWinner
    (bindOne ++ [.tick 0 .crash] ++ recoverThrows)
    (fun s => s.txs.isEmpty && s.db.tickets.any (·.winStatus == .CLAIMED_ON_BASE)) (by decide)
  simp only [Bool.and_eq_true, List.isEmpty_iff, List.any_eq_true, beq_iff_eq] at hp
  obtain ⟨noTxs, t, ht, hc⟩ := hp
  obtain ⟨n, -, tx, htx, -⟩ := all s hs t ht hc
  rw [noTxs] at htx
  cases htx

/-- The same recovery after a broadcast that was mined but not recorded. -/
theorem harvest_sound_landed :
    ∃ s, s.db.tickets.any (·.winStatus == .CLAIMED_ON_BASE) = true ∧ Sound s := by
  obtain ⟨s, hs, hp⟩ := Machine.exists_reachableBy_of_runBy (M := machine) harvestSafe
    initial_oneWinner
    (bindOne ++ [.tick 0 (.submit "0x1" true), .mine "0x1" true] ++ recoverThrows)
    (fun s => s.db.tickets.any (·.winStatus == .CLAIMED_ON_BASE)) (by decide)
  exact ⟨s, hp, harvest_sound hs⟩

end LordsPot.Harvest
