import Mathlib.Data.List.Pairwise
import LordsPot.Harvest.Contents
import LordsPot.Harvest.Lock

/-!
# Batches agree with what is broadcast

The lock does not keep two ticks apart for longer than it lives. What does the damage is that the
bind looks at the number of rows it took only for zero: a tick whose tickets were partly taken by
another broadcasts all of them. A batch released under a tick that has already read its tickets
does the same.
-/

namespace LordsPot.Harvest

open Transition

/-- The NFTs are those of the tickets bound to the batch row, whose gross is the sum of their
winnings. -/
def Agrees (db : Db) (b : Uuid) (ids : List NftId) : Prop :=
  (ids.map some).Perm ((contents db b).map Prod.fst) ∧
    ∃ row ∈ db.harvestBatches, row.id = b ∧ row.amountGross = ((contents db b).map Prod.snd).sum

/-- Whatever is broadcast next agrees with its batch. -/
def BroadcastsAgree (s : Locked) : Prop :=
  ∀ a s', lockMachine.step s a = some s' → ∀ tx ∈ s'.harvest.txs,
    (∀ old ∈ s.harvest.txs, old.hash ≠ tx.hash) → Agrees s'.harvest.db tx.batchId tx.nftIds

/-- An NFT is in a batch by a bound ticket or by a broadcast. -/
def InBatch (s : State) (b : Uuid) (n : NftId) : Prop :=
  some n ∈ (contents s.db b).map Prod.fst ∨ ∃ tx ∈ s.txs, tx.batchId = b ∧ n ∈ tx.nftIds

/-- No NFT is in two submitted batches. -/
def Apart (s : State) : Prop :=
  ∀ r ∈ s.db.harvestBatches, ∀ r' ∈ s.db.harvestBatches, r.status = .SUBMITTED →
    r'.status = .SUBMITTED → ∀ n, InBatch s r.id n → InBatch s r'.id n → r.id = r'.id

/-- The tick has read the batch's tickets and is going to broadcast them. -/
def Tick.readied (b : Uuid) : Tick → Bool
  | .rehearsing c ids _ | .submitting _ c ids _ => c == b && !ids.isEmpty
  | _ => false

/-- A bind takes all its tickets or none, and a batch is released only while no tick is going to
broadcast what it has read of it. -/
def exactSafe (s : State) : Action → Bool
  | .tick i .bind => match s.ticks[i]? with
    | some (.created _ good _) =>
      bindCount s.db (good.map (·.id)) == 0 || bindCount s.db (good.map (·.id)) == good.length
    | _ => true
  | .tick i .release => match s.ticks[i]? with
    | some (.releasing b _ _) => s.ticks.all fun t => !t.readied b
    | _ => true
  | _ => true

/-! ## What the ticks know -/

/-- Selected columns are those of drawn rows, one for each id. -/
structure Selected (db : Db) (tickets : List BatchTicket) : Prop where
  distinct : (tickets.map (·.id)).Nodup
  rows : ∀ g ∈ tickets, ∃ x ∈ db.tickets, x.id = g.id ∧ x.megapotNftId = some g.megapotNftId ∧
    x.winAmount = g.winAmount ∧ x.winStatus ≠ .DRAW_PENDING

/-- The NFTs are those in the batch. -/
def Reads (db : Db) (b : Uuid) (ids : List NftId) : Prop :=
  (ids.map some).Perm ((contents db b).map Prod.fst)

def Knows (db : Db) : Tick → Prop
  | .found _ tickets _ => Selected db tickets
  | .quarantining _ good _ _ | .creating _ good _ => Selected db good
  | .created b good _ => Selected db good ∧
      ∃ row ∈ db.harvestBatches, row.id = b ∧ row.amountGross = (good.map (·.winAmount)).sum
  | .rehearsing b ids _ => ids ≠ [] → Reads db b ids
  | .submitting _ b ids _ => ids ≠ [] ∧ Reads db b ids
  | _ => True

structure Filled (s : State) : Prop where
  gross : ∀ b, contents s.db b ≠ [] → ∃ row ∈ s.db.harvestBatches, row.id = b ∧
    row.amountGross = ((contents s.db b).map Prod.snd).sum
  drawn : ∀ x ∈ s.db.tickets, x.harvestBatchId ≠ none → x.winStatus ≠ .DRAW_PENDING
  ticks : ∀ (i : Nat) (t : Tick), s.ticks[i]? = some t → Knows s.db t
  kept : ∀ tx ∈ s.txs, ∀ row ∈ s.db.harvestBatches, row.id = tx.batchId → row.status = .SUBMITTED →
    ∀ n ∈ tx.nftIds, some n ∈ (contents s.db row.id).map Prod.fst

section Reading

variable {s : State} {db : Db}

/-- A full bind takes the selected tickets. -/
theorem taken_perm (ids : (db.tickets.map (·.id)).Nodup) {good : List BatchTicket}
    (selected : Selected db good) (full : bindCount db (good.map (·.id)) = good.length) :
    (taken db (good.map (·.id))).Perm (good.map fun g => (some g.megapotNftId, g.winAmount)) := by
  let lookup (i : Uuid) : Option NftId × Nat :=
    ((Table.findUnique Ticket.id i db.tickets).map fun x => (x.megapotNftId, x.winAmount)).getD (none, 0)
  have found : ∀ x ∈ db.tickets, lookup x.id = (x.megapotNftId, x.winAmount) := by
    intro x hx
    simp only [lookup, Table.findUnique_of_mem ids hx, Option.map_some, Option.getD_some]
  let rows := db.tickets.filter fun x => (good.map (·.id)).contains x.id && x.harvestBatchId == none
  have mem : ∀ x ∈ rows, x ∈ db.tickets ∧ x.id ∈ good.map (·.id) := by
    intro x hx
    obtain ⟨hx, hp⟩ := List.mem_filter.1 hx
    rw [Bool.and_eq_true, List.contains_iff_mem] at hp
    exact ⟨hx, hp.1⟩
  have same : (rows.map (·.id)).Perm (good.map (·.id)) := by
    refine List.Subperm.perm_of_length_le (List.subperm_of_subset ?_ ?_) ?_
    · exact ids.sublist (List.filter_sublist.map _)
    · intro i hi
      obtain ⟨x, hx, rfl⟩ := List.mem_map.1 hi
      exact (mem x hx).2
    · rw [List.length_map, List.length_map]
      exact full.ge
  have left : rows.map (fun x => (x.megapotNftId, x.winAmount)) = (rows.map (·.id)).map lookup := by
    rw [List.map_map]
    exact List.map_congr_left fun x hx => (found x (mem x hx).1).symm
  have right : good.map (fun g => (some g.megapotNftId, g.winAmount)) = (good.map (·.id)).map lookup := by
    rw [List.map_map]
    refine List.map_congr_left fun g hg => ?_
    obtain ⟨x, hx, id, nft, amount, -⟩ := selected.rows g hg
    rw [Function.comp_apply, ← id, found x hx, nft, amount]
  rw [taken, left, right]
  exact same.map lookup

theorem selected_find {e : Nat} {quarantined ids : List Uuid} {tickets : List BatchTicket}
    (h : findHarvestableTickets db e quarantined ids = some tickets) : Selected db tickets := by
  unfold findHarvestableTickets at h
  simp only at h
  split at h
  · rename_i returned
    cases h
    rw [Bool.and_eq_true, Bool.and_eq_true] at returned
    have key : ∀ (i : Uuid) (g : BatchTicket), (Table.findUnique Ticket.id i (db.tickets.filter
        fun t => owed db e t && t.megapotNftId.isSome)).bind select = some g →
        ∃ x ∈ db.tickets, owed db e x = true ∧ x.id = i ∧ select x = some g := by
      intro i g hg
      obtain ⟨x, found, hsel⟩ := Option.bind_eq_some_iff.1 hg
      obtain ⟨hx, hp⟩ := List.mem_filter.1 (Table.mem_of_findUnique found)
      rw [Bool.and_eq_true] at hp
      exact ⟨x, hx, hp.1, Table.key_of_findUnique found, hsel⟩
    constructor
    · refine List.Nodup.sublist (List.filter_sublist.map _) ?_
      rw [List.map_filterMap]
      refine List.Nodup.filterMap ?_ (of_decide_eq_true returned.1.1)
      intro i j k hi hj
      obtain ⟨g, hg, rfl⟩ := Option.map_eq_some_iff.1 hi
      obtain ⟨g', hg', same⟩ := Option.map_eq_some_iff.1 hj
      obtain ⟨x, -, -, rfl, hx⟩ := key i g hg
      obtain ⟨x', -, -, rfl, hx'⟩ := key j g' hg'
      obtain ⟨_, _, rfl⟩ := Option.map_eq_some_iff.1 hx
      obtain ⟨_, _, rfl⟩ := Option.map_eq_some_iff.1 hx'
      exact same.symm
    · intro g hg
      obtain ⟨i, -, hi⟩ := List.mem_filterMap.1 (List.mem_filter.1 hg).1
      obtain ⟨x, hx, due, -, hsel⟩ := key i g hi
      obtain ⟨n, nft, rfl⟩ := Option.map_eq_some_iff.1 hsel
      refine ⟨x, hx, rfl, nft, rfl, fun pending => ?_⟩
      simp [owed, harvestable, pending] at due
  · cases h

theorem reads_of_read {b : Uuid} {ids : List NftId} (h : boundNftIds db b = some ids) :
    Reads db b ids := by
  have same := Table.map_of_mapM h
  rw [Reads, ← same, contents, List.map_map]
  exact .refl _

end Reading

/-! ## What a step keeps -/

section Steps

variable {s s' s₁ : State}

/-- A drawn row keeps its NFT and its winnings. -/
theorem Selected.rows_kept {db db' : Db} {tickets : List BatchTicket} (selected : Selected db tickets)
    (rows : ∀ x ∈ db.tickets, x.winStatus ≠ .DRAW_PENDING → ∃ x' ∈ db'.tickets, x'.id = x.id ∧
      x'.megapotNftId = x.megapotNftId ∧ x'.winAmount = x.winAmount ∧ x'.winStatus ≠ .DRAW_PENDING) :
    Selected db' tickets := by
  refine ⟨selected.distinct, fun g hg => ?_⟩
  obtain ⟨x, hx, id, nft, amount, drawn⟩ := selected.rows g hg
  obtain ⟨x', hx', id', nft', amount', drawn'⟩ := rows x hx drawn
  exact ⟨x', hx', id'.trans id, nft'.trans nft, amount'.trans amount, drawn'⟩

theorem Selected.split {db : Db} {tickets good bad : List BatchTicket} (selected : Selected db tickets)
    (split : (good ++ bad).Perm (tickets.take CHUNK_SIZE)) : Selected db good := by
  constructor
  · have once : ((good ++ bad).map (·.id)).Nodup :=
      (split.map _).nodup_iff.2 (selected.distinct.sublist ((List.take_sublist _ _).map _))
    rw [List.map_append] at once
    exact once.of_append_left
  · intro g hg
    exact selected.rows g (List.mem_of_mem_take (split.mem_iff.1 (List.mem_append_left _ hg)))

theorem Knows.of_plain {db : Db} {t : Tick} (plain : t.plain = true) : Knows db t := by
  cases t with
  | rehearsing | submitting | found | quarantining | creating | created => cases plain
  | _ => trivial

/-- A drawn row after a tick's step. -/
theorem Effect.drawn {t t' : Tick} {act : TickAct} (effect : Effect s t act s' t') :
    ∀ x ∈ s.db.tickets, x.winStatus ≠ .DRAW_PENDING → ∃ x' ∈ s'.db.tickets, x'.id = x.id ∧
      x'.megapotNftId = x.megapotNftId ∧ x'.winAmount = x.winAmount ∧ x'.winStatus ≠ .DRAW_PENDING := by
  intro x hx drawn
  obtain ⟨x', hx', rule⟩ := Table.exists_of_forall₂_left effect.rows hx
  refine ⟨x', hx', by rw [rule.rest], by rw [rule.rest], by rw [rule.rest], ?_⟩
  rcases rule.status with same | ⟨-, -, claimed⟩
  · rw [same]
    exact drawn
  · rw [claimed]
    exact nofun

/-- A tick that has read a batch's tickets, when another tick moves. -/
theorem Reads.keeps (book : Book s) {i j : Nat} {t t' u : Tick} {act : TickAct} {b : Uuid}
    {ids : List NftId} (ht : s.ticks[i]? = some t) (hu : s.ticks[j]? = some u)
    (ok : exactSafe s (.tick i act) = true) (effect : Effect s t act s₁ t')
    (some : ids ≠ []) (readied : u.readied b = true) (reads : Reads s.db b ids) :
    Reads s₁.db b ids := by
  rcases effect.fills book ht b with same | ⟨reason, epochs, rfl, rfl, -⟩ | ⟨_, _, -, -, empty, -⟩
  · rw [Reads, same]
    exact reads
  · simp only [exactSafe, ht, List.all_eq_true, Bool.not_eq_true'] at ok
    rw [ok u (List.mem_of_getElem? hu)] at readied
    cases readied
  · rw [Reads, empty] at reads
    exact absurd (List.map_eq_nil_iff.1 reads.eq_nil) some

/-- **The others**: what a tick knows survives a step of another. -/
theorem Knows.keeps (book : Book s) {i j : Nat} {t t' u : Tick} {act : TickAct}
    (ht : s.ticks[i]? = some t) (hu : s.ticks[j]? = some u) (other : j ≠ i)
    (ok : exactSafe s (.tick i act) = true) (effect : Effect s t act s₁ t') (knows : Knows s.db u) :
    Knows s₁.db u := by
  cases u with
  | found e tickets epochs => exact Selected.rows_kept knows effect.drawn
  | quarantining e good bad epochs => exact Selected.rows_kept knows effect.drawn
  | creating e good epochs => exact Selected.rows_kept knows effect.drawn
  | created b good epochs =>
    obtain ⟨selected, row, hrow, rfl, gross⟩ := knows
    refine ⟨selected.rows_kept effect.drawn, ?_⟩
    rcases effect.row_kept hrow with ⟨row', hrow', id, same⟩ | ⟨_, deleting⟩
    · exact ⟨row', hrow', id, same.trans gross⟩
    · subst deleting
      exact absurd (book.single j i _ _ row.id hu ht rfl rfl) other
  | rehearsing b ids epochs =>
    intro some
    refine Reads.keeps book ht hu ok effect some ?_ (knows some)
    simp [Tick.readied, some]
  | submitting recovery b ids epochs =>
    refine ⟨knows.1, Reads.keeps book ht hu ok effect knows.1 ?_ knows.2⟩
    simp [Tick.readied, knows.1]
  | _ => trivial

/-- What the moving tick knows afterwards. -/
theorem Filled.moved (filled : Filled s) (book : Book s) {i : Nat} {t t' : Tick} {act : TickAct}
    (ht : s.ticks[i]? = some t) (ok : exactSafe s (.tick i act) = true)
    (effect : Effect s t act s₁ t') : Knows s₁.db t' := by
  have known := filled.ticks i t ht
  cases effect with
  | moves plain => exact .of_plain plain
  | readBound read => exact fun _ => reads_of_read read
  | estimate some => exact ⟨some, known some⟩
  | submit _ next =>
    rcases next with rfl | plain
    · trivial
    · exact .of_plain plain
  | find read => exact selected_find read
  | rehearse split next =>
    rcases next with rfl | ⟨-, rfl⟩ | plain
    · exact Selected.split known split
    · exact Selected.split known split
    · exact .of_plain plain
  | quarantine next =>
    rcases next with ⟨-, rfl⟩ | plain
    · exact known
    · exact .of_plain plain
  | create fresh =>
    refine ⟨Selected.rows_kept known fun x hx drawn => ⟨x, hx, rfl, rfl, rfl, drawn⟩, ?_⟩
    exact ⟨_, List.mem_append_right _ List.mem_cons_self, rfl, rfl⟩
  | bind next =>
    rename_i b good epochs
    rcases next with ⟨-, rfl⟩ | ⟨some, rfl⟩
    · trivial
    · have full : bindCount s.db (good.map (·.id)) = good.length := by
        simpa [exactSafe, ht, some] using ok
      refine ⟨fun empty => some ?_, ?_⟩
      · rw [List.map_eq_nil_iff.1 empty]
        simp [bindCount]
      · have empty := contents_eq_nil.2 (book.empty i _ b ht rfl)
        have perm := (taken_perm book.ticketIds known.1 full).map Prod.fst
        rw [Reads, contents_bind_self empty]
        rw [List.map_map] at perm ⊢
        exact perm.symm
  | _ => trivial

/-- What a bind gives the batch. -/
theorem gross_of_bind (filled : Filled s) (book : Book s) {i : Nat} {b : Uuid}
    {good : List BatchTicket} {epochs : List Nat} (ht : s.ticks[i]? = some (.created b good epochs))
    (ok : exactSafe s (.tick i .bind) = true) (some : taken s.db (good.map (·.id)) ≠ []) :
    ∃ row ∈ s.db.harvestBatches, row.id = b ∧
      row.amountGross = ((taken s.db (good.map (·.id))).map Prod.snd).sum := by
  obtain ⟨selected, row, hrow, id, gross⟩ := filled.ticks i _ ht
  have nonzero : bindCount s.db (good.map (·.id)) ≠ 0 := by
    intro zero
    rw [bindCount, List.length_eq_zero_iff] at zero
    rw [taken, zero] at some
    exact some rfl
  have full : bindCount s.db (good.map (·.id)) = good.length := by
    simpa [exactSafe, ht, nonzero] using ok
  have perm := (taken_perm book.ticketIds selected full).map Prod.snd
  refine ⟨row, hrow, id, gross.trans ?_⟩
  rw [perm.sum_eq, List.map_map]
  rfl

theorem Filled.gross_tick (filled : Filled s) (book : Book s) {i : Nat} {t t' : Tick} {act : TickAct}
    (ht : s.ticks[i]? = some t) (ok : exactSafe s (.tick i act) = true)
    (effect : Effect s t act s₁ t') (b : Uuid) (some : contents s₁.db b ≠ []) :
    ∃ row ∈ s₁.db.harvestBatches, row.id = b ∧
      row.amountGross = ((contents s₁.db b).map Prod.snd).sum := by
  obtain ⟨row, hrow, rfl, gross⟩ : ∃ row ∈ s.db.harvestBatches, row.id = b ∧
      row.amountGross = ((contents s₁.db b).map Prod.snd).sum := by
    rcases effect.fills book ht b with same | ⟨_, _, -, -, empty⟩ | ⟨good, epochs, rfl, rfl, -, fills⟩
    · rw [same] at some ⊢
      exact filled.gross b some
    · exact absurd empty some
    · rw [fills] at some ⊢
      exact gross_of_bind filled book ht ok some
  rcases effect.row_kept hrow with ⟨row', hrow', id, same⟩ | ⟨epochs, rfl⟩
  · exact ⟨row', hrow', id, same.trans gross⟩
  · have empty := contents_eq_nil.2 (book.empty i _ row.id ht rfl)
    rcases effect.fills book ht row.id with same | ⟨_, _, moved, -⟩ | ⟨_, _, moved, -⟩
    · exact absurd (same.trans empty) some
    · cases moved
    · cases moved

theorem Filled.drawn_tick (filled : Filled s) (book : Book s) {i : Nat} {t t' : Tick} {act : TickAct}
    (ht : s.ticks[i]? = some t) (effect : Effect s t act s₁ t') {x' : Ticket}
    (hx' : x' ∈ s₁.db.tickets) (bound : x'.harvestBatchId ≠ none) : x'.winStatus ≠ .DRAW_PENDING := by
  obtain ⟨x, hx, rule⟩ := Table.exists_of_forall₂_right effect.rows hx'
  have drawn : x.winStatus ≠ .DRAW_PENDING := by
    obtain ⟨b, hb⟩ := Option.ne_none_iff_exists'.1 bound
    rcases rule.bound b hb with old | ⟨-, -, good, epochs, rfl, mem⟩
    · exact filled.drawn x hx (by rw [old]; exact Option.some_ne_none b)
    · have selected : Selected s.db good := (filled.ticks i _ ht).1
      obtain ⟨g, hg, same⟩ := List.mem_map.1 mem
      obtain ⟨y, hy, id, -, -, drawn⟩ := selected.rows g hg
      rw [List.inj_on_of_nodup_map book.ticketIds hx hy (same.symm.trans id.symm)]
      exact drawn
  rcases rule.status with same | ⟨-, -, claimed⟩
  · rw [same]
    exact drawn
  · rw [claimed]
    exact nofun

/-- The NFTs of a submitted batch's transactions stay in the batch. -/
theorem Filled.kept_tick (filled : Filled s) {i : Nat} {t t' : Tick} {act : TickAct}
    (ht : s.ticks[i]? = some t) (effect : Effect s t act s₁ t') {tx : ClaimTx} (htx : tx ∈ s₁.txs)
    {row : HarvestBatch} (hrow : row ∈ s₁.db.harvestBatches) (id : row.id = tx.batchId)
    (submitted : row.status = .SUBMITTED) {n : NftId} (hn : n ∈ tx.nftIds) :
    some n ∈ (contents s₁.db row.id).map Prod.fst := by
  have old (htx : tx ∈ s.txs) : some n ∈ (contents s₁.db row.id).map Prod.fst := by
    rcases effect.row_submitted hrow submitted with ⟨⟨was, hwas, same, open?⟩, grown⟩ | fresh
    · obtain ⟨c, hc, eq⟩ := List.mem_map.1 (filled.kept tx htx was hwas (same.trans id) open? n hn)
      exact List.mem_map.2 ⟨c, grown c (same ▸ hc), eq⟩
    · simp only [freshBatch, Bool.and_eq_true, List.all_eq_true, bne_iff_ne] at fresh
      exact absurd id.symm (fresh.1.2 tx htx)
  cases effect with
  | submit =>
    rcases List.mem_append.1 htx with before | new
    · exact old before
    · cases List.mem_singleton.1 new
      have reads := (filled.ticks i _ ht).2
      rw [id]
      exact reads.mem_iff.1 (List.mem_map_of_mem hn)
  | _ => exact old htx

/-- **The batch rule** for a tick's step. -/
theorem Filled.tick (filled : Filled s) (book : Book s) {i : Nat} {t t' : Tick} {act : TickAct}
    (ht : s.ticks[i]? = some t) (ok : exactSafe s (.tick i act) = true)
    (effect : Effect s t act s₁ t') : Filled { s₁ with ticks := s.ticks.set i t' } := by
  have knows : ∀ (j : Nat) (u : Tick), (s.ticks.set i t')[j]? = some u → Knows s₁.db u := by
    intro j u hj
    rcases Table.of_getElem?_set hj with ⟨-, rfl⟩ | ⟨other, hu⟩
    · exact filled.moved book ht ok effect
    · exact (filled.ticks j u hu).keeps book ht hu other ok effect
  have gross := filled.gross_tick book ht ok effect
  exact ⟨gross, fun x hx bound => filled.drawn_tick book ht effect hx bound, knows,
    fun tx htx row hrow id submitted n hn => filled.kept_tick ht effect htx hrow id submitted hn⟩

/-- A step of the environment, which keeps the contents of the batches. -/
theorem Filled.env (filled : Filled s) (ticks : s'.ticks = s.ticks)
    (same : ∀ b, contents s'.db b = contents s.db b)
    (batches : s'.db.harvestBatches = s.db.harvestBatches)
    (txs : ∀ tx' ∈ s'.txs, ∃ tx ∈ s.txs, tx.batchId = tx'.batchId ∧ tx.nftIds = tx'.nftIds)
    (bound : ∀ x' ∈ s'.db.tickets, x'.harvestBatchId ≠ none → x'.winStatus ≠ .DRAW_PENDING)
    (rows : ∀ x ∈ s.db.tickets, x.winStatus ≠ .DRAW_PENDING → x ∈ s'.db.tickets) : Filled s' := by
  refine ⟨?_, bound, ?_, ?_⟩
  · intro b some
    rw [same] at some ⊢
    rw [batches]
    exact filled.gross b some
  · intro i t hi
    have knows := filled.ticks i t (ticks ▸ hi)
    have selected : ∀ tickets, Selected s.db tickets → Selected s'.db tickets := fun tickets selected =>
      selected.rows_kept fun x hx drawn => ⟨x, rows x hx drawn, rfl, rfl, rfl, drawn⟩
    cases t with
    | found e tickets epochs => exact selected _ knows
    | quarantining e good bad epochs => exact selected _ knows
    | creating e good epochs => exact selected _ knows
    | created b good epochs => exact ⟨selected _ knows.1, batches ▸ knows.2⟩
    | rehearsing b ids epochs =>
      intro some
      rw [Reads, same]
      exact knows some
    | submitting recovery b ids epochs =>
      refine ⟨knows.1, ?_⟩
      rw [Reads, same]
      exact knows.2
    | _ => trivial
  · intro tx' htx' row hrow id submitted n hn
    obtain ⟨tx, htx, batch, ids⟩ := txs tx' htx'
    rw [same]
    exact filled.kept tx htx row (batches ▸ hrow) (id.trans batch.symm) submitted n (ids ▸ hn)

theorem Filled.start (filled : Filled s) (epochs : List Nat) :
    Filled { s with ticks := s.ticks ++ [.next epochs] } := by
  refine ⟨filled.gross, filled.drawn, fun i t hi => ?_, filled.kept⟩
  rcases List.mem_append.1 (List.mem_of_getElem? hi) with old | new
  · obtain ⟨j, hj⟩ := List.mem_iff_getElem?.1 old
    exact filled.ticks j t hj
  · cases List.mem_singleton.1 new
    trivial

theorem Filled.step (filled : Filled s) (book : Book s) {a : Action} (ok : exactSafe s a = true)
    (hs : Harvest.step s a = some s') : Filled s' := by
  have untouched : ∀ tx ∈ s.txs, ∃ tx' ∈ s.txs, tx'.batchId = tx.batchId ∧ tx'.nftIds = tx.nftIds :=
    fun tx htx => ⟨tx, htx, rfl, rfl⟩
  cases stepMove hs with
  | start => exact filled.start _
  | tick here effect => exact filled.tick book here ok effect
  | mine =>
    refine filled.env rfl (fun _ => rfl) rfl ?_ filled.drawn fun _ hx _ => hx
    intro tx' htx'
    obtain ⟨tx, htx, rfl⟩ := Table.mem_updateMany.1 htx'
    exact ⟨tx, htx, by split <;> rfl, by split <;> rfl⟩
  | clock | settled | unquarantine =>
    exact filled.env rfl (fun _ => rfl) rfl untouched filled.drawn fun _ hx _ => hx
  | grade graded =>
    refine filled.env rfl (fun b => ?_) rfl untouched ?_ ?_
    · refine Table.map_filter_updateMany _ (fun _ _ _ => rfl) fun x hx pending bound => ?_
      rw [Bool.and_eq_true, beq_iff_eq, beq_iff_eq] at pending
      refine absurd pending.2 (filled.drawn x hx ?_)
      rw [beq_iff_eq.1 bound]
      exact Option.some_ne_none b
    · intro x' hx' bound
      obtain ⟨x, hx, rfl⟩ := Table.mem_updateMany.1 hx'
      split at bound
      · rename_i pending
        rw [if_pos pending]
        intro again
        simp only at again
        rw [again] at graded
        exact absurd graded (by decide)
      · rename_i other
        rw [if_neg other]
        exact filled.drawn x hx bound
    · intro x hx drawn
      exact Table.mem_updateMany.2 ⟨x, hx, if_neg (by simp [drawn])⟩

/-- A transaction that was not there before was broadcast by a tick. -/
theorem step_broadcasts {a : Action} (hs : Harvest.step s a = some s') {tx : ClaimTx}
    (htx : tx ∈ s'.txs) (new : ∀ old ∈ s.txs, old.hash ≠ tx.hash) :
    s'.db = s.db ∧ ∃ (i : Nat) (recovery : Bool) (epochs : List Nat),
      s.ticks[i]? = some (.submitting recovery tx.batchId tx.nftIds epochs) := by
  cases stepMove hs with
  | tick here effect =>
    cases effect with
    | submit =>
      rcases List.mem_append.1 htx with old | own
      · exact absurd rfl (new tx old)
      · cases List.mem_singleton.1 own
        exact ⟨rfl, _, _, _, here⟩
    | _ => exact absurd rfl (new tx htx)
  | mine =>
    obtain ⟨old, hold, rfl⟩ := Table.mem_updateMany.1 htx
    refine absurd ?_ (new old hold)
    split <;> rfl
  | grade | start | clock | settled | unquarantine => exact absurd rfl (new tx htx)

theorem nfts_step {a : Action} (hs : Harvest.step s a = some s') :
    s'.db.tickets.map (·.megapotNftId) = s.db.tickets.map (·.megapotNftId) := by
  cases stepMove hs with
  | tick here effect => exact Table.map_of_forall₂ _ (fun _ _ rule => by rw [rule.rest]) effect.rows
  | grade => exact Table.map_updateMany _ fun _ _ _ => rfl
  | mine | start | clock | settled | unquarantine => rfl

end Steps

theorem Filled.initial {s : State} (h : Initial s) : Filled s := by
  have empty : ∀ b, contents s.db b = [] := by
    intro b
    refine contents_eq_nil.2 fun x hx => ?_
    rw [h.unbound x hx]
    exact (Option.some_ne_none b).symm
  refine ⟨fun b some => absurd (empty b) some, fun x hx bound => absurd (h.unbound x hx) bound, ?_, ?_⟩
  · simp [h.noTicks]
  · simp [h.noTxs]

/-- With distinct NFTs, submitted batches that share one are the same. -/
theorem Filled.apart {s : State} (filled : Filled s)
    (nfts : (s.db.tickets.filterMap (·.megapotNftId)).Nodup) : Apart s := by
  have bound : ∀ r ∈ s.db.harvestBatches, r.status = .SUBMITTED → ∀ n, InBatch s r.id n →
      ∃ x ∈ s.db.tickets, x.harvestBatchId = some r.id ∧ x.megapotNftId = some n := by
    intro r hr submitted n holds
    have mem : some n ∈ (contents s.db r.id).map Prod.fst := by
      rcases holds with bound | ⟨tx, htx, batch, hn⟩
      · exact bound
      · exact filled.kept tx htx r hr batch.symm submitted n hn
    obtain ⟨c, hc, nft⟩ := List.mem_map.1 mem
    obtain ⟨x, hx, batch, rfl⟩ := mem_contents.1 hc
    exact ⟨x, hx, batch, nft⟩
  intro r hr r' hr' submitted submitted' n inR inR'
  obtain ⟨x, hx, batch, nft⟩ := bound r hr submitted n inR
  obtain ⟨x', hx', batch', nft'⟩ := bound r' hr' submitted' n inR'
  have same : x = x' := by
    by_contra differ
    rw [List.Nodup, List.pairwise_filterMap] at nfts
    have symm : Std.Symm fun a b : Ticket => ∀ m, a.megapotNftId = some m → ∀ m', b.megapotNftId = some m' →
        m ≠ m' := ⟨fun a b rel m hm m' hm' eq => rel m' hm' m hm eq.symm⟩
    exact nfts.forall hx hx' differ n nft n nft' rfl
  rw [same, batch'] at batch
  exact (Option.some.inj batch).symm

/-- **Batches agree with what is broadcast**, under the lock and whatever it lets through, as long
as each bind takes all its tickets or none and no batch is released under a tick that has read it. -/
theorem batches_agree {s : Locked}
    (h : lockMachine.ReachableBy (fun s a => onHarvest exactSafe s a = true) s) :
    BroadcastsAgree s ∧ Apart s.harvest := by
  have run : machine.ReachableBy (fun s a => exactSafe s a = true) s.harvest :=
    harvest_of_locked (fun _ => rfl) h
  have both : Book s.harvest ∧ Filled s.harvest :=
    Machine.ReachableBy.invariant (M := machine) (I := fun s => Book s ∧ Filled s)
      (fun _ hi => ⟨.initial hi, .initial hi⟩)
      (fun _ _ _ inv ok hs => ⟨inv.1.step hs, inv.2.step inv.1 ok hs⟩) run
  obtain ⟨book, filled⟩ := both
  have nfts : (s.harvest.db.tickets.filterMap (·.megapotNftId)).Nodup := by
    refine Machine.ReachableBy.invariant (M := lockMachine)
      (I := fun s => (s.harvest.db.tickets.filterMap (·.megapotNftId)).Nodup)
      (fun _ hi => LockInitial.nfts hi) ?_ h
    intro s a s' nodup _ hs
    have columns : s'.harvest.db.tickets.map (·.megapotNftId) =
        s.harvest.db.tickets.map (·.megapotNftId) := by
      rcases lockStep_harvest hs with same | ⟨act, stepped, -⟩
      · rw [same]
      · exact nfts_step stepped
    have column : ∀ rows : List Ticket,
        rows.filterMap (·.megapotNftId) = (rows.map (·.megapotNftId)).filterMap id := by
      intro rows
      rw [List.filterMap_map]
      rfl
    rw [column] at nodup ⊢
    rw [columns]
    exact nodup
  refine ⟨?_, filled.apart nfts⟩
  intro a s' hs tx htx new
  rcases lockStep_harvest hs with same | ⟨act, stepped, -⟩
  · rw [same] at htx
    exact absurd rfl (new tx htx)
  · obtain ⟨db, i, recovery, epochs, hi⟩ := step_broadcasts stepped htx new
    obtain ⟨some, reads⟩ := filled.ticks i _ hi
    rw [db]
    refine ⟨reads, filled.gross _ fun empty => some ?_⟩
    rw [Reads, empty] at reads
    exact List.map_eq_nil_iff.1 reads.eq_nil

/-- A settled epoch with two winning tickets, and no tick. -/
def twoWinners : Locked where
  harvest := {
    now := 0
    db := {
      relayOrders := [{ hash := "o", signature := "s", buyer := "w", fulfillEpoch := some 1,
                        status := .SUCCESS }]
      tickets := [{ id := "t1", orderHash := "o", bonusBall := 1, normalBalls := [1, 2, 3, 4, 5],
                    megapotNftId := some 7, winStatus := .WON_UNCLAIMED, winAmount := 10 },
                  { id := "t2", orderHash := "o", bonusBall := 1, normalBalls := [1, 2, 3, 4, 6],
                    megapotNftId := some 8, winStatus := .WON_UNCLAIMED, winAmount := 20 }]
      megapotEpochs := [{ megapotId := 1, ticketsSettledAt := some 0 }] } }

theorem lockInitial_twoWinners : LockInitial twoWinners := by
  refine ⟨?_, by decide, rfl, rfl⟩
  constructor <;> decide

def tickActs (i : Nat) (acts : List TickAct) : List LockAct := acts.map fun act => .harvest (.tick i act)

/-- A tick rehearses both tickets and stalls until its lock has expired. -/
def stalled : List LockAct :=
  .start :: tickActs 0 [.findInFlight none, .find ["t1", "t2"], .rehearse []] ++
    [.harvest (.clock (LOCK_TTL_SEC * 1000)), .start]

/-- The second tick, whose rehearsal of the second ticket fails, broadcasts the first. The first
tick then binds the second ticket and is about to broadcast both. -/
def overtaken : List LockAct :=
  stalled ++ tickActs 1 [.findInFlight none, .find ["t1", "t2"], .rehearse [[7, 8], [8]], .quarantine,
    .create "b1", .bind, .submit "0x1" false, .record] ++ tickActs 0 [.create "b0", .bind]

theorem broadcast_beyond_batch :
    ¬ ∀ s, lockMachine.Reachable s → BroadcastsAgree s ∧ Apart s.harvest := by
  intro all
  obtain ⟨s, hs, hp⟩ := Machine.exists_reachable_of_run (M := lockMachine) lockInitial_twoWinners
    overtaken
    (fun s => s.harvest.txs.all (·.hash != "0x0") &&
      (lockStep s (.harvest (.tick 0 (.submit "0x0" false)))).any fun s' =>
        s'.harvest.txs.any (fun tx => tx.hash == "0x0" && tx.batchId == "b0" && tx.nftIds == [7, 8]) &&
          (contents s'.harvest.db "b0").length == 1) (by decide)
  simp only [Bool.and_eq_true, List.all_eq_true, bne_iff_ne, Option.any_eq_true, List.any_eq_true,
    beq_iff_eq] at hp
  obtain ⟨new, s', hstep, ⟨tx, htx, ⟨hash, batch⟩, ids⟩, one⟩ := hp
  have agrees := (all s hs).1 (.harvest (.tick 0 (.submit "0x0" false))) s' hstep tx htx
    (by rw [hash]; exact new)
  have lengths := agrees.1.length_eq
  rw [batch, ids, List.length_map, List.length_map, one] at lengths
  cases lengths

/-- When the second tick gets there first with both tickets, the first finds nothing to bind. -/
theorem batches_agree_overtaken : ∃ s : Locked, s.harvest.txs.map (·.nftIds) = [[7, 8]] ∧
    s.harvest.db.harvestBatches.map (·.amountGross) = [30] ∧ BroadcastsAgree s ∧ Apart s.harvest := by
  obtain ⟨s, hs, hp⟩ := Machine.exists_reachableBy_of_runBy (M := lockMachine) (onHarvest exactSafe)
    lockInitial_twoWinners
    (stalled ++ tickActs 1 [.findInFlight none, .find ["t1", "t2"], .rehearse [], .create "b1", .bind,
      .submit "0x1" false, .record] ++ [.del 1] ++ tickActs 0 [.create "b0", .bind, .delete])
    (fun s => s.harvest.txs.map (·.nftIds) == [[7, 8]] &&
      s.harvest.db.harvestBatches.map (·.amountGross) == [30]) (by decide)
  simp only [Bool.and_eq_true, beq_iff_eq] at hp
  exact ⟨s, hp.1, hp.2, batches_agree hs⟩

end LordsPot.Harvest
