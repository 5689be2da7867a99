import LordsPot.Library.Borsh
import LordsPot.Program.Instructions

/-!
# The migration of the state account

`migrate_state` over the bytes of the account: the layout before `version` was added and the
present one, the offset at which the old admin is read, the resize that fills up with zeros, and
the decode of bytes that are half old and half zero. The present layout is the old one with more
fields after it, so what the old bytes hold is read again in its place.
-/

namespace LordsPot.Migration

open Borsh Program

abbrev Key : Type := Bytes 32

/-! ## The two layouts -/

/-- The fields of the account before `version`. -/
structure LegacyState where
  normalMax : UInt8
  bonusMax : UInt8
  ticketPrice : UInt64
  ongoingEpoch : UInt64
  bump : UInt8
  isLordsPotPaused : Bool
  admin : Key
  deriving DecidableEq

structure LordsPotState where
  normalMax : UInt8
  bonusMax : UInt8
  ticketPrice : UInt64
  ongoingEpoch : UInt64
  bump : UInt8
  isLordsPotPaused : Bool
  admin : Key
  version : UInt8
  relayFeeBase : UInt64
  relayFeePerTicket : UInt64
  feeRecipient : Key
  maxTicketsPerPurchase : UInt8
  maxClaimAmount : UInt64
  treasuryAuthority : Key
  reserved : Bytes 96
  deriving DecidableEq

def LegacyState.fields : UInt8 × UInt8 × UInt64 × UInt64 × UInt8 × Bool × Key ≃ LegacyState where
  toFun | (a, b, c, d, e, f, g) => ⟨a, b, c, d, e, f, g⟩
  invFun | ⟨a, b, c, d, e, f, g⟩ => (a, b, c, d, e, f, g)
  left_inv _ := rfl
  right_inv _ := rfl

def LordsPotState.fields : UInt8 × UInt8 × UInt64 × UInt64 × UInt8 × Bool × Key × UInt8 × UInt64 ×
    UInt64 × Key × UInt8 × UInt64 × Key × Bytes 96 ≃ LordsPotState where
  toFun | (a, b, c, d, e, f, g, h, i, j, k, l, m, n, o) => ⟨a, b, c, d, e, f, g, h, i, j, k, l, m, n, o⟩
  invFun | ⟨a, b, c, d, e, f, g, h, i, j, k, l, m, n, o⟩ => (a, b, c, d, e, f, g, h, i, j, k, l, m, n, o)
  left_inv _ := rfl
  right_inv _ := rfl

def legacyState : Codec LegacyState :=
  (u8.prod (u8.prod (u64.prod (u64.prod (u8.prod (boolean.prod (bytes 32))))))).of LegacyState.fields

/-- The fields added behind them. -/
def addedFields : Codec (UInt8 × UInt64 × UInt64 × Key × UInt8 × UInt64 × Key × Bytes 96) :=
  u8.prod (u64.prod (u64.prod ((bytes 32).prod (u8.prod (u64.prod ((bytes 32).prod (bytes 96)))))))

def lordsPotState : Codec LordsPotState :=
  (u8.prod (u8.prod (u64.prod (u64.prod (u8.prod (boolean.prod ((bytes 32).prod addedFields))))))).of
    LordsPotState.fields

def DISCRIMINATOR : List UInt8 := [9, 156, 79, 177, 160, 143, 34, 17]
def INIT_SPACE : Nat := 238
def LEGACY_ADMIN_OFFSET : Nat := 28

/-- The sizes that the source gives are those of the layouts. -/
theorem lordsPotState_size : lordsPotState.size = INIT_SPACE := rfl

theorem legacyState_size : 8 + legacyState.size = LEGACY_STATE_SIZE := rfl

/-! ## The instruction -/

inductive Failure where
  | lordsPot (e : LordsPotError)
  | AccountNotSigner
  | ConstraintSeeds
  | TransferFailed
  | AccountDiscriminatorNotFound
  | AccountDiscriminatorMismatch
  | AccountDidNotDeserialize
  | AccountDidNotSerialize
  deriving Repr, DecidableEq

/-- The program's id and the address of its state, the rent of a size, and a transfer of lamports
by the system program: the balances after it, when it succeeds. -/
structure Runtime where
  programId : Key
  statePda : Key
  minimumBalance : Nat → Nat
  transfer : (source destination amount : Nat) → Option (Nat × Nat)

/-- The accounts of a call: the signer, and the state account. -/
structure Accounts where
  admin : Key
  adminSigned : Bool
  adminLamports : Nat
  address : Key
  owner : Key
  lamports : Nat
  data : List UInt8
  deriving DecidableEq

structure Arguments where
  relayFeeBase : UInt64
  relayFeePerTicket : UInt64
  feeRecipient : Key
  maxTicketsPerPurchase : UInt8
  maxClaimAmount : UInt64
  treasuryAuthority : Key

def zeros (n : Nat) : Bytes n := ⟨List.replicate n 0, List.length_replicate⟩

def require (condition : Bool) (error : Failure) : Except Failure Unit :=
  if condition then .ok () else .error error

def validateRelayConfig (args : Arguments) : Except Failure Unit := do
  require (1 ≤ args.maxTicketsPerPurchase.toNat &&
    args.maxTicketsPerPurchase.toNat ≤ HARD_MAX_TICKETS_PER_PURCHASE)
    (.lordsPot .InvalidMaxTicketsPerPurchase)
  require (0 < args.maxClaimAmount.toNat) (.lordsPot .InvalidMaxClaimAmount)

def validateTreasury (args : Arguments) : Except Failure Unit :=
  require (args.treasuryAuthority != zeros 32) (.lordsPot .InvalidTreasuryAuthority)

/-- `LordsPotState::try_deserialize`. -/
def tryDeserialize (data : List UInt8) : Except Failure LordsPotState :=
  if data.length < 8 then .error .AccountDiscriminatorNotFound
  else if data.take 8 ≠ DISCRIMINATOR then .error .AccountDiscriminatorMismatch
  else match lordsPotState.read (data.drop 8) with
    | none => .error .AccountDidNotDeserialize
    | some (state, _) => .ok state

/-- `state.try_serialize` through a cursor at the front of the data. -/
def trySerialize (state : LordsPotState) (data : List UInt8) : Except Failure (List UInt8) :=
  let written := DISCRIMINATOR ++ lordsPotState.write state
  if data.length < written.length then .error .AccountDidNotSerialize
  else .ok (written ++ data.drop written.length)

def Arguments.apply (args : Arguments) (state : LordsPotState) : LordsPotState :=
  { state with
    version := UInt8.ofNat STATE_VERSION
    relayFeeBase := args.relayFeeBase
    relayFeePerTicket := args.relayFeePerTicket
    feeRecipient := args.feeRecipient
    maxTicketsPerPurchase := args.maxTicketsPerPurchase
    maxClaimAmount := args.maxClaimAmount
    treasuryAuthority := args.treasuryAuthority }

/-- The balances of the signer and of the account when its rent is topped up. -/
def topUp (rt : Runtime) (s : Accounts) (requiredLamports : Nat) : Except Failure (Nat × Nat) :=
  if s.lamports < requiredLamports then
    match rt.transfer s.adminLamports s.lamports (requiredLamports - s.lamports) with
    | none => .error .TransferFailed
    | some balances => .ok balances
  else .ok (s.adminLamports, s.lamports)

/-- `migrate_state`: the constraints of its accounts, then the body. -/
def migrateState (rt : Runtime) (args : Arguments) (s : Accounts) : Except Failure Accounts := do
  require s.adminSigned .AccountNotSigner
  require (s.address == rt.statePda) .ConstraintSeeds
  require (s.owner == rt.programId) (.lordsPot .InvalidStateAccount)
  validateRelayConfig args
  validateTreasury args
  let newSize := 8 + INIT_SPACE
  if newSize ≤ s.data.length then .ok s
  else do
    require (s.data.length == LEGACY_STATE_SIZE) (.lordsPot .UnexpectedStateSize)
    require (s.data.take 8 == DISCRIMINATOR) (.lordsPot .InvalidStateAccount)
    let storedAdmin := (s.data.drop LEGACY_ADMIN_OFFSET).take 32
    require (s.admin.1 == storedAdmin) (.lordsPot .Unauthorized)
    let balances ← topUp rt s (rt.minimumBalance newSize)
    let data := s.data ++ List.replicate (newSize - s.data.length) 0
    let state ← tryDeserialize data
    let data ← trySerialize (args.apply state) data
    .ok { s with adminLamports := balances.1, lamports := balances.2, data := data }

/-- What a call leaves: a failed one is rolled back. -/
def call (rt : Runtime) (args : Arguments) (s : Accounts) : Accounts :=
  match migrateState rt args s with
  | .ok s' => s'
  | .error _ => s

/-! ## The layouts line up -/

def LordsPotState.legacy (state : LordsPotState) : LegacyState :=
  ⟨state.normalMax, state.bonusMax, state.ticketPrice, state.ongoingEpoch, state.bump,
    state.isLordsPotPaused, state.admin⟩

def LordsPotState.added (state : LordsPotState) :
    UInt8 × UInt64 × UInt64 × Key × UInt8 × UInt64 × Key × Bytes 96 :=
  (state.version, state.relayFeeBase, state.relayFeePerTicket, state.feeRecipient,
    state.maxTicketsPerPurchase, state.maxClaimAmount, state.treasuryAuthority, state.reserved)

/-- The present layout is the old one with the added fields behind it. -/
theorem write_split (state : LordsPotState) : lordsPotState.write state =
    legacyState.write state.legacy ++ addedFields.write state.added := by
  simp only [lordsPotState, legacyState, Codec.of, Codec.prod, List.append_assoc]
  rfl

/-- The offset of the old admin is where the old layout has it. -/
theorem stored_admin (old : LegacyState) :
    ((DISCRIMINATOR ++ legacyState.write old).drop LEGACY_ADMIN_OFFSET).take 32 = old.admin.1 := by
  let front := DISCRIMINATOR ++ (u8.write old.normalMax ++ (u8.write old.bonusMax ++
    (u64.write old.ticketPrice ++ (u64.write old.ongoingEpoch ++ (u8.write old.bump ++
      boolean.write old.isLordsPotPaused)))))
  have length : front.length = LEGACY_ADMIN_OFFSET := by
    simp only [front, List.length_append, Codec.length_write]
    rfl
  have split : DISCRIMINATOR ++ legacyState.write old = front ++ old.admin.1 := by
    simp only [front, legacyState, Codec.of, Codec.prod, List.append_assoc]
    rfl
  rw [split, List.drop_left' length, List.take_of_length_le (by rw [old.admin.2])]

/-- The bytes that a resize adds are the added fields, all zero. -/
theorem write_zeros : addedFields.write (0, 0, 0, zeros 32, 0, 0, zeros 32, zeros 96) =
    List.replicate 186 0 := by
  decide +kernel

theorem tryDeserialize_write (state : LordsPotState) :
    tryDeserialize (DISCRIMINATOR ++ lordsPotState.write state) = .ok state := by
  have front : (DISCRIMINATOR ++ lordsPotState.write state).take 8 = DISCRIMINATOR :=
    List.take_left' rfl
  have back : (DISCRIMINATOR ++ lordsPotState.write state).drop 8 = lordsPotState.write state :=
    List.drop_left' rfl
  have read := lordsPotState.read_write state []
  rw [List.append_nil] at read
  have long : ¬ (DISCRIMINATOR ++ lordsPotState.write state).length < 8 := by
    simp [DISCRIMINATOR]
  rw [tryDeserialize, if_neg long, if_neg (not_not.2 front), back, read]

/-- A state written in the place of another. -/
theorem trySerialize_write (state other : LordsPotState) :
    trySerialize state (DISCRIMINATOR ++ lordsPotState.write other) =
      .ok (DISCRIMINATOR ++ lordsPotState.write state) := by
  have length : (DISCRIMINATOR ++ lordsPotState.write other).length =
      (DISCRIMINATOR ++ lordsPotState.write state).length := by
    simp only [List.length_append, Codec.length_write]
  rw [trySerialize, if_neg (by rw [length]; exact lt_irrefl _), ← length, List.drop_length,
    List.append_nil]

/-! ## Legacy images -/

/-- An account of before: its size, the discriminator, and a byte that is a bool. -/
structure LegacyImage (data : List UInt8) : Prop where
  size : data.length = LEGACY_STATE_SIZE
  discriminator : data.take 8 = DISCRIMINATOR
  flag : data[27]? = some 0 ∨ data[27]? = some 1

theorem LegacyImage.reads {data : List UInt8} (h : LegacyImage data) :
    ∃ old, legacyState.read (data.drop 8) = some (old, []) := by
  have size : data.length = 60 := h.size
  have holds : legacyState.Reads (data.drop 8) := by
    refine Codec.Reads.of (.prod (reads_u8 ?_) (.prod (reads_u8 ?_) (.prod (reads_u64 ?_)
      (.prod (reads_u64 ?_) (.prod (reads_u8 ?_) (.prod (reads_boolean ?_) (reads_bytes ?_))))))) _
    all_goals simp only [List.drop_drop, List.length_drop, size, u8, u64, boolean]
    all_goals try decide
    rw [List.getElem?_drop]
    exact h.flag
  obtain ⟨old, read⟩ := holds
  refine ⟨old, ?_⟩
  rw [read, List.drop_drop, List.drop_eq_nil_of_le (by rw [size]; decide)]

theorem LegacyImage.data_eq {data : List UInt8} (h : LegacyImage data) {old : LegacyState}
    (read : legacyState.read (data.drop 8) = some (old, [])) :
    data = DISCRIMINATOR ++ legacyState.write old := by
  have back := legacyState.write_read read
  rw [List.append_nil] at back
  rw [← back, ← h.discriminator, List.take_append_drop]

/-! ## The migration -/

/-- What the migration is for: the old fields, the arguments, and a reserve of zeros. -/
def Arguments.onto (args : Arguments) (old : LegacyState) : LordsPotState where
  normalMax := old.normalMax
  bonusMax := old.bonusMax
  ticketPrice := old.ticketPrice
  ongoingEpoch := old.ongoingEpoch
  bump := old.bump
  isLordsPotPaused := old.isLordsPotPaused
  admin := old.admin
  version := UInt8.ofNat STATE_VERSION
  relayFeeBase := args.relayFeeBase
  relayFeePerTicket := args.relayFeePerTicket
  feeRecipient := args.feeRecipient
  maxTicketsPerPurchase := args.maxTicketsPerPurchase
  maxClaimAmount := args.maxClaimAmount
  treasuryAuthority := args.treasuryAuthority
  reserved := zeros 96

/-- The old state with the bytes of a resize behind it. -/
def resized (old : LegacyState) : LordsPotState where
  normalMax := old.normalMax
  bonusMax := old.bonusMax
  ticketPrice := old.ticketPrice
  ongoingEpoch := old.ongoingEpoch
  bump := old.bump
  isLordsPotPaused := old.isLordsPotPaused
  admin := old.admin
  version := 0
  relayFeeBase := 0
  relayFeePerTicket := 0
  feeRecipient := zeros 32
  maxTicketsPerPurchase := 0
  maxClaimAmount := 0
  treasuryAuthority := zeros 32
  reserved := zeros 96

theorem write_resized (old : LegacyState) : DISCRIMINATOR ++ legacyState.write old ++
    List.replicate 186 0 = DISCRIMINATOR ++ lordsPotState.write (resized old) := by
  rw [write_split, ← write_zeros, List.append_assoc]
  rfl

section

variable {rt : Runtime} {args : Arguments} {s s' : Accounts}

/-- The arguments pass validation. -/
def Arguments.Valid (args : Arguments) : Prop :=
  validateRelayConfig args = .ok () ∧ validateTreasury args = .ok ()

theorem ok_of_require {condition : Bool} {error : Failure} {u : Unit}
    (h : require condition error = .ok u) : condition = true := by
  unfold require at h
  split at h
  · assumption
  · cases h

theorem ok_of_bind {α β : Type} {x : Except Failure α} {k : α → Except Failure β} {r : β}
    (h : (x >>= k) = .ok r) : ∃ a, x = .ok a ∧ k a = .ok r := by
  cases x with
  | error e => cases h
  | ok a => exact ⟨a, rfl, h⟩

/-- The admin key as the instruction reads it off old bytes. -/
def storedAdmin (data : List UInt8) : List UInt8 := (data.drop LEGACY_ADMIN_OFFSET).take 32

/-- A call that passes all checks on a legacy image. -/
theorem migrateState_ok {old : LegacyState} (bytes : s.data = DISCRIMINATOR ++ legacyState.write old)
    (placed : s.address = rt.statePda ∧ s.owner = rt.programId) (valid : args.Valid)
    (signed : s.adminSigned = true) (admin : s.admin.1 = storedAdmin s.data) {balances : Nat × Nat}
    (paid : topUp rt s (rt.minimumBalance (8 + INIT_SPACE)) = .ok balances) :
    migrateState rt args s = .ok { s with
      adminLamports := balances.1
      lamports := balances.2
      data := DISCRIMINATOR ++ lordsPotState.write (args.onto old) } := by
  have size : s.data.length = 60 := by
    rw [bytes, List.length_append, legacyState.length_write]
    rfl
  have front : s.data.take 8 = DISCRIMINATOR := by
    rw [bytes]
    exact List.take_left' rfl
  have grown : s.data ++ List.replicate (8 + INIT_SPACE - s.data.length) 0 =
      DISCRIMINATOR ++ lordsPotState.write (resized old) := by
    rw [size, ← write_resized, bytes]
    rfl
  have short : ¬ 8 + INIT_SPACE ≤ s.data.length := by
    rw [size]
    decide
  have legacy : (s.data.length == LEGACY_STATE_SIZE) = true := beq_iff_eq.2 size
  have discriminator : (s.data.take 8 == DISCRIMINATOR) = true := beq_iff_eq.2 front
  have key : (s.admin.1 == (s.data.drop LEGACY_ADMIN_OFFSET).take 32) = true := beq_iff_eq.2 admin
  have written : args.apply (resized old) = args.onto old := rfl
  simp only [migrateState, require, signed, placed.1, placed.2, beq_self_eq_true, if_true, valid.1,
    valid.2, if_neg short, legacy, discriminator, key, paid, grown, tryDeserialize_write,
    trySerialize_write, written, bind, Except.bind]

/-- What a call that succeeds has checked of any account. -/
theorem checked_of_ok (done : migrateState rt args s = .ok s') :
    s.adminSigned = true ∧ (s.address = rt.statePda ∧ s.owner = rt.programId) ∧ args.Valid := by
  simp only [migrateState] at done
  obtain ⟨_, signed, done⟩ := ok_of_bind done
  obtain ⟨_, address, done⟩ := ok_of_bind done
  obtain ⟨_, owner, done⟩ := ok_of_bind done
  obtain ⟨_, config, done⟩ := ok_of_bind done
  obtain ⟨_, treasury, -⟩ := ok_of_bind done
  exact ⟨ok_of_require signed, ⟨beq_iff_eq.1 (ok_of_require address),
    beq_iff_eq.1 (ok_of_require owner)⟩, config, treasury⟩

/-- An account of the present size is left alone. -/
theorem eq_of_ok (long : 8 + INIT_SPACE ≤ s.data.length) (done : migrateState rt args s = .ok s') :
    s' = s := by
  simp only [migrateState, if_pos long] at done
  obtain ⟨_, -, done⟩ := ok_of_bind done
  obtain ⟨_, -, done⟩ := ok_of_bind done
  obtain ⟨_, -, done⟩ := ok_of_bind done
  obtain ⟨_, -, done⟩ := ok_of_bind done
  obtain ⟨_, -, done⟩ := ok_of_bind done
  cases done
  rfl

theorem call_migrated (long : 8 + INIT_SPACE ≤ s.data.length) (args : Arguments) :
    call rt args s = s := by
  unfold call
  split
  · rename_i s' done
    exact eq_of_ok long done
  · rfl

/-- What an account below the present size must be for a call to succeed. -/
theorem legacy_of_ok (short : s.data.length < 8 + INIT_SPACE)
    (done : migrateState rt args s = .ok s') :
    s.data.length = LEGACY_STATE_SIZE ∧ s.data.take 8 = DISCRIMINATOR ∧
      s.admin.1 = storedAdmin s.data ∧
      ∃ balances, topUp rt s (rt.minimumBalance (8 + INIT_SPACE)) = .ok balances := by
  simp only [migrateState, if_neg (not_le.2 short)] at done
  obtain ⟨_, -, done⟩ := ok_of_bind done
  obtain ⟨_, -, done⟩ := ok_of_bind done
  obtain ⟨_, -, done⟩ := ok_of_bind done
  obtain ⟨_, -, done⟩ := ok_of_bind done
  obtain ⟨_, -, done⟩ := ok_of_bind done
  obtain ⟨_, size, done⟩ := ok_of_bind done
  obtain ⟨_, discriminator, done⟩ := ok_of_bind done
  obtain ⟨_, admin, done⟩ := ok_of_bind done
  obtain ⟨balances, paid, -⟩ := ok_of_bind done
  exact ⟨beq_iff_eq.1 (ok_of_require size), beq_iff_eq.1 (ok_of_require discriminator),
    beq_iff_eq.1 (ok_of_require admin), balances, paid⟩

/-- **The migration preserves the old account.** A legacy image is carried over by a call that its
admin has signed, when the system program moves the lamports for its rent; the account is of the
present size then and no call changes it again; and a call fails, with the bytes as they were, on
any other account below the present size, and for any other signer. -/
theorem migrate_preserves (rt : Runtime) (s : Accounts) :
    (∀ args : Arguments, s.address = rt.statePda → s.owner = rt.programId → LegacyImage s.data →
      args.Valid → s.adminSigned = true → s.admin.1 = storedAdmin s.data →
      (s.lamports < rt.minimumBalance (8 + INIT_SPACE) → (rt.transfer s.adminLamports s.lamports
        (rt.minimumBalance (8 + INIT_SPACE) - s.lamports)).isSome = true) →
      ∃ old s', legacyState.read (s.data.drop 8) = some (old, []) ∧ migrateState rt args s = .ok s' ∧
        s'.data.length = 246 ∧ tryDeserialize s'.data = .ok (args.onto old) ∧
        ∀ (args' : Arguments) (again : Accounts), again.data = s'.data → call rt args' again = again) ∧
    (s.data.length < 246 → (s.data.length ≠ 60 ∨ s.data.take 8 ≠ DISCRIMINATOR ∨
        s.adminSigned = false ∨ s.admin.1 ≠ storedAdmin s.data) →
      ∀ args : Arguments, ∃ failure, migrateState rt args s = .error failure ∧
        (call rt args s).data = s.data) := by
  constructor
  · intro args address owner image valid signed admin transfers
    obtain ⟨old, read⟩ := image.reads
    obtain ⟨balances, paid⟩ : ∃ balances, topUp rt s (rt.minimumBalance (8 + INIT_SPACE)) = .ok balances := by
      unfold topUp
      split
      · rename_i poor
        obtain ⟨balances, moved⟩ := Option.isSome_iff_exists.1 (transfers poor)
        exact ⟨balances, by rw [moved]⟩
      · exact ⟨_, rfl⟩
    have length : (DISCRIMINATOR ++ lordsPotState.write (args.onto old)).length = 246 := by
      rw [List.length_append, lordsPotState.length_write]
      rfl
    refine ⟨old, _, read, migrateState_ok (image.data_eq read) ⟨address, owner⟩ valid signed
      admin paid, length,
      tryDeserialize_write _, fun args' again same => call_migrated ?_ args'⟩
    rw [same, length]
    decide
  · intro short other args
    cases done : migrateState rt args s with
    | error failure => exact ⟨failure, rfl, by rw [call, done]⟩
    | ok s' =>
      obtain ⟨size, discriminator, admin, -⟩ := legacy_of_ok short done
      have signed := (checked_of_ok done).1
      obtain h | h | h | h := other
      · exact absurd size h
      · exact absurd discriminator h
      · rw [signed] at h
        cases h
      · exact absurd admin h

end

/-- An account of 60 bytes and its admin, who pays the rent. -/
def legacyAccounts : Accounts where
  admin := ⟨List.replicate 32 5, rfl⟩
  adminSigned := true
  adminLamports := 1000
  address := zeros 32
  owner := zeros 32
  lamports := 60
  data := DISCRIMINATOR ++ [30, 10, 64, 66, 15, 0, 0, 0, 0, 0, 7, 0, 0, 0, 0, 0, 0, 0, 254, 1] ++
    List.replicate 32 5

def migrateArguments : Arguments where
  relayFeeBase := 7
  relayFeePerTicket := 3
  feeRecipient := ⟨List.replicate 32 8, rfl⟩
  maxTicketsPerPurchase := 50
  maxClaimAmount := 500
  treasuryAuthority := ⟨List.replicate 32 9, rfl⟩

/-- Rent of a lamport a byte. -/
def plainRuntime : Runtime where
  programId := zeros 32
  statePda := zeros 32
  minimumBalance size := size
  transfer source destination amount :=
    if amount ≤ source then some (source - amount, destination + amount) else none

theorem migrate_preserves_legacy : ∃ s', migrateState plainRuntime migrateArguments legacyAccounts = .ok s' ∧
    s'.data.length = 246 ∧ ∃ state, tryDeserialize s'.data = .ok state ∧
      state.ticketPrice = 1000000 ∧ state.ongoingEpoch = 7 ∧ state.isLordsPotPaused = true := by
  have image : LegacyImage legacyAccounts.data := ⟨by decide, by decide, by decide⟩
  obtain ⟨old, s', read, done, size, state, -⟩ := (migrate_preserves plainRuntime legacyAccounts).1
    migrateArguments rfl rfl image ⟨rfl, rfl⟩ rfl (by decide +kernel) fun _ => by decide +kernel
  have fields : (legacyState.read (legacyAccounts.data.drop 8)).map (fun p =>
      (p.1.ticketPrice, p.1.ongoingEpoch, p.1.isLordsPotPaused)) = some (1000000, 7, true) := by
    decide +kernel
  rw [read, Option.map_some, Option.some.injEq] at fields
  simp only [Prod.mk.injEq] at fields
  exact ⟨s', done, size, _, state, fields⟩

/-! ## The program's migration, over the bytes -/

section Refinement

variable {base58 : Key → Pubkey}

/-- The fields that the model of the program has. -/
def LordsPotState.toModel (base58 : Key → Pubkey) (state : LordsPotState) : Program.LordsPotState where
  normalMax := state.normalMax.toNat
  bonusMax := state.bonusMax.toNat
  ticketPrice := state.ticketPrice.toNat
  ongoingEpoch := state.ongoingEpoch.toNat
  isLordsPotPaused := state.isLordsPotPaused
  admin := base58 state.admin
  version := state.version.toNat
  relayFeeBase := state.relayFeeBase.toNat
  relayFeePerTicket := state.relayFeePerTicket.toNat
  feeRecipient := base58 state.feeRecipient
  maxTicketsPerPurchase := state.maxTicketsPerPurchase.toNat
  maxClaimAmount := state.maxClaimAmount.toNat
  treasuryAuthority := base58 state.treasuryAuthority

/-- The bytes are those of the account of the model: a present image, or an old one, of which the
model has the fields there are. -/
inductive Represents (base58 : Key → Pubkey) : List UInt8 → StateAccount → Prop where
  | present (state : LordsPotState) :
      Represents base58 (DISCRIMINATOR ++ lordsPotState.write state) ⟨STATE_SIZE, state.toModel base58⟩
  | legacy (state : LordsPotState) :
      Represents base58 (DISCRIMINATOR ++ legacyState.write state.legacy)
        ⟨LEGACY_STATE_SIZE, state.toModel base58⟩

/-- The call as an instruction of the model. -/
def Arguments.instruction (base58 : Key → Pubkey) (args : Arguments) (admin : Key) : Instruction :=
  .migrateState (base58 admin) args.relayFeeBase.toNat args.relayFeePerTicket.toNat
    (base58 args.feeRecipient) args.maxTicketsPerPurchase.toNat args.maxClaimAmount.toNat
    (base58 args.treasuryAuthority)

/-- **The bytes refine the model**: a call that succeeds on the bytes is the instruction of the
model, and leaves the bytes of what that leaves. -/
theorem migrate_refines (inj : Function.Injective base58) (default : base58 (zeros 32) = defaultKey)
    {rt : Runtime} {args : Arguments} {s s' : Accounts} {c : Chain} {account : StateAccount}
    {signers : List Pubkey} (done : migrateState rt args s = .ok s')
    (signed : base58 s.admin ∈ signers) (held : c.lordsPotState = some account)
    (represents : Represents base58 s.data account) :
    ∃ account', execute c signers (args.instruction base58 s.admin) =
        .ok { c with lordsPotState := some account' } ∧ Represents base58 s'.data account' := by
  have signer : signers.contains (base58 s.admin) = true := List.contains_iff_mem.2 signed
  obtain ⟨adminSigned, placed, valid⟩ := checked_of_ok done
  have config : Program.validateRelayConfig args.maxTicketsPerPurchase.toNat
      args.maxClaimAmount.toNat = .ok () := by
    obtain ⟨_, tickets, claim⟩ := ok_of_bind valid.1
    simp only [Program.validateRelayConfig, Program.require, ok_of_require tickets,
      ok_of_require claim, if_true]
    rfl
  have treasury : Program.validateTreasury (base58 args.treasuryAuthority) = .ok () := by
    have real : args.treasuryAuthority ≠ zeros 32 := bne_iff_ne.1 (ok_of_require valid.2)
    have differs : base58 args.treasuryAuthority ≠ defaultKey := fun same => real (inj (same.trans default.symm))
    rw [Program.validateTreasury, Program.require, if_pos (bne_iff_ne.2 differs)]
  generalize bytes : s.data = data at represents
  cases represents with
  | present state =>
    have long : 8 + INIT_SPACE ≤ s.data.length := by
      rw [bytes, List.length_append, lordsPotState.length_write]
      decide
    obtain rfl := eq_of_ok long done
    have same : { c with lordsPotState := some ⟨STATE_SIZE, state.toModel base58⟩ } = c := by
      rw [← held]
    refine ⟨_, ?_, by rw [bytes]; exact .present state⟩
    rw [same]
    simp only [Arguments.instruction, execute, Program.require, signer, if_true, held, config, treasury,
      le_refl, bind, Except.bind]
  | legacy state =>
    have size : s.data.length = 60 := by
      rw [bytes, List.length_append, legacyState.length_write]
      rfl
    obtain ⟨-, -, admin, balances, paid⟩ := legacy_of_ok (by rw [size]; decide) done
    have migrated := migrateState_ok bytes placed valid adminSigned admin paid
    rw [done, Except.ok.injEq] at migrated
    have key : base58 s.admin = (state.toModel base58).admin := by
      rw [storedAdmin, bytes, stored_admin] at admin
      rw [Subtype.ext admin]
      rfl
    refine ⟨⟨STATE_SIZE, (args.onto state.legacy).toModel base58⟩, ?_, by rw [migrated]; exact .present _⟩
    rw [key] at signer
    have old : ¬ STATE_SIZE ≤ LEGACY_STATE_SIZE := by decide
    simp only [Arguments.instruction, execute, Program.require, signer, if_true, held, config, treasury,
      if_neg old, beq_self_eq_true, key, bind, Except.bind]
    rfl

end Refinement

end LordsPot.Migration
