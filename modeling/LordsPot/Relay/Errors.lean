import LordsPot.Relay.Worker
import LordsPot.Solana

/-!
# Why a transaction reverts

`classifyError` decodes the data of an error against the vault's ABI and falls back on the text the
error surfaces with. `classifyMinedRevert` hands it the error of a re-simulation. The errors that
`submitAndConfirmChunk` throws itself carry neither data nor a reason, so that whatever they are
about, they are transient.
-/

namespace LordsPot.Relay

/-- A `data` field of an error. -/
inductive ErrorData where
  | text (data : String)
  /-- Not a string. -/
  | other
  deriving Repr, DecidableEq

/-- The fields of a thrown value that `classifyError` looks at. Those that are null or missing are
`none`, and `text` is `String(err)`. -/
structure Err where
  data : Option ErrorData := none
  infoErrorData : Option ErrorData := none
  errorData : Option ErrorData := none
  reason : Option String := none
  shortMessage : Option String := none
  infoErrorMessage : Option String := none
  errorMessage : Option String := none
  message : Option String := none
  text : String := "Error"
  deriving Repr, DecidableEq

/-- `new Error(message)`. -/
def newError (message : String) : Err := { message := some message, text := s!"Error: {message}" }

def PERMANENT_ERROR_PATTERNS : List String :=
  ["InvalidNormalsCount", "InvalidBonusball", "InvalidTicketCount", "InvalidTicketLength"]

/-- `data.length`, in UTF-16 code units. -/
def utf16Length (data : String) : Nat :=
  (data.toList.map fun c => if c.toNat < 0x10000 then 1 else 2).sum

section Classify

-- the name of the vault error that `parseError` decodes, unless it throws
variable (parseError : String → Option String)

def Err.decoded (err : Err) : Option String :=
  match err.data.or (err.infoErrorData.or err.errorData) with
  | some (.text data) =>
      if "0x".toList.isPrefixOf data.toList && 10 ≤ utf16Length data then parseError data else none
  | some .other | none => none

/-- `msg`. -/
def Err.msg (err : Err) : String :=
  (err.reason.or (err.shortMessage.or (err.infoErrorMessage.or
    (err.errorMessage.or err.message)))).getD err.text

def classifyError (err : Err) : RevertClass :=
  match err.decoded parseError with
  | some name =>
      if name = "OrderAlreadyProcessed" then .already_processed
      else if name = "EnforcedPause" then .paused "Base vault is paused"
      else if name = "OnlyRelayerAllowed" then
        .transient "OnlyRelayerAllowed — relayer key/vault config mismatch, fix ops config"
      else .permanent s!"Vault revert: {name}"
  | none =>
      -- an unknown selector, or no data: the text decides
      if includes err.msg "OrderAlreadyProcessed" then .already_processed
      else if includes err.msg "EnforcedPause" then .paused err.msg
      else if PERMANENT_ERROR_PATTERNS.any (includes err.msg) then .permanent err.msg
      else .transient err.msg

/-- What re-simulating a mined transaction shows. -/
inductive Simulation where
  /-- `getTransaction` does not have the transaction, or it has no recipient. -/
  | unavailable
  | clean
  | reverts (err : Err)
  deriving Repr, DecidableEq

def classifyMinedRevert : Simulation → RevertClass
  | .unavailable => .transient "Reverted tx unavailable for re-simulation"
  | .clean => .transient "Tx reverted on-chain but simulates clean now — retrying"
  | .reverts err => classifyError parseError err

end Classify

namespace RevertClass

def isPermanent : RevertClass → Bool
  | .permanent _ => true
  | _ => false

def isPaused : RevertClass → Bool
  | .paused _ => true
  | _ => false

def isTransient : RevertClass → Bool
  | .transient _ => true
  | _ => false

end RevertClass

/-! ## The worker's own errors -/

/-- What a job's `catch` is given. -/
inductive Caught where
  /-- An awaited call has thrown. -/
  | call (err : Err)
  /-- `submitAndConfirmChunk` has given its chunk up. -/
  | timedOut (batchId : Uuid) (txHash : TxHash)
  | reverted (batchId : Uuid) (txHash : TxHash)
  deriving Repr, DecidableEq

def Caught.err : Caught → Err
  | .call err => err
  | .timedOut batchId txHash => newError s!"Batch {batchId} tx {txHash} did not confirm in time"
  | .reverted batchId txHash => newError s!"Batch {batchId} tx {txHash} reverted on-chain"

def Caught.isReverted : Caught → Bool
  | .reverted .. => true
  | _ => false

/-- Batch ids and transaction hashes are lowercase; no text without these capitals names an error
that `classifyError` knows. -/
def Plain (text : String) : Prop := ∀ c ∈ ['O', 'E', 'I'], c ∉ text.toList

section Own

variable {parseError : String → Option String}

theorem includes_eq_false {text part : String} {c : Char} (head : c ∈ part.toList)
    (out : c ∉ text.toList) : includes text part = false :=
  decide_eq_false fun infix? => out (infix?.subset head)

theorem classifyError_newError {message : String} (plain : Plain message) :
    classifyError parseError (newError message) = .transient message := by
  have msg : (newError message).msg = message := rfl
  have processed : includes message "OrderAlreadyProcessed" = false :=
    includes_eq_false (c := 'O') (by decide +kernel) (plain _ (by decide))
  have paused : includes message "EnforcedPause" = false :=
    includes_eq_false (c := 'E') (by decide +kernel) (plain _ (by decide))
  have known : PERMANENT_ERROR_PATTERNS.any (includes message) = false := by
    rw [List.any_eq_false]
    intro pattern hp
    have head : 'I' ∈ pattern.toList := by
      revert pattern
      decide +kernel
    simp [includes_eq_false head (plain _ (by decide))]
  rw [classifyError, show (newError message).decoded parseError = none from rfl]
  simp only [msg, processed, paused, known, Bool.false_eq_true, ↓reduceIte]

theorem Plain.append {text text' : String} (h : Plain text) (h' : Plain text') :
    Plain (text ++ text') := by
  intro c hc mem
  rw [String.toList_append, List.mem_append] at mem
  exact mem.elim (h c hc) (h' c hc)

/-- **Whatever a revert was classified as, the error thrown about it is transient.** -/
theorem classifyError_own {caught : Caught} (own : ∀ err, caught ≠ .call err)
    (plain : ∀ batchId txHash, caught = .timedOut batchId txHash ∨ caught = .reverted batchId txHash →
      Plain batchId ∧ Plain txHash) :
    (classifyError parseError caught.err).isTransient = true := by
  have fixed : ∀ text ∈ ["Batch ", " tx ", " did not confirm in time", " reverted on-chain"],
      Plain text := by simp [Plain]
  cases caught with
  | call err => exact absurd rfl (own err)
  | timedOut batchId txHash =>
    obtain ⟨hb, hh⟩ := plain batchId txHash (.inl rfl)
    have message : Plain s!"Batch {batchId} tx {txHash} did not confirm in time" :=
      ((((fixed _ (by decide)).append hb).append (fixed _ (by decide))).append hh).append
        (fixed _ (by decide))
    rw [Caught.err, classifyError_newError message]
    rfl
  | reverted batchId txHash =>
    obtain ⟨hb, hh⟩ := plain batchId txHash (.inr rfl)
    have message : Plain s!"Batch {batchId} tx {txHash} reverted on-chain" :=
      ((((fixed _ (by decide)).append hb).append (fixed _ (by decide))).append hh).append
        (fixed _ (by decide))
    rw [Caught.err, classifyError_newError message]
    rfl

end Own

end LordsPot.Relay
