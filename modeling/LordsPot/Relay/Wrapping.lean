import LordsPot.Relay.Errors

/-!
# An error inside an error

ethers throws an error of its own about the error of a JSON-RPC provider, which it keeps one level
down, as `error` or as `info.error`. `classifyError` looks there too, but whatever stands above
comes first: data that cannot be decoded hide the nested data, and a reason or a short message
hides the nested message. `Surfaces` is exactly when the wrapped error is still classified as the
one inside.
-/

namespace LordsPot.Relay

/-- The `kind` of a `RevertClass`. -/
inductive RevertKind where
  | already_processed | paused | permanent | transient
  deriving Repr, DecidableEq

def RevertClass.kind : RevertClass → RevertKind
  | .already_processed => .already_processed
  | .paused _ => .paused
  | .permanent _ => .permanent
  | .transient _ => .transient

/-! ## The kind of a name and of a text -/

/-- What a decoded vault error is. -/
def nameKind (name : String) : RevertKind :=
  if name = "OrderAlreadyProcessed" then .already_processed
  else if name = "EnforcedPause" then .paused
  else if name = "OnlyRelayerAllowed" then .transient
  else .permanent

/-- What a text says it is. -/
def textKind (msg : String) : RevertKind :=
  if includes msg "OrderAlreadyProcessed" then .already_processed
  else if includes msg "EnforcedPause" then .paused
  else if PERMANENT_ERROR_PATTERNS.any (includes msg) then .permanent
  else .transient

/-- A text that names no error `classifyError` knows. -/
def Generic (text : String) : Prop := textKind text = .transient

section Kind

variable {parseError : String → Option String} {err : Err}

/-- The kind is that of the decoded name, and of the text only where nothing is decoded. -/
theorem kind_classifyError : (classifyError parseError err).kind =
    (err.decoded parseError).elim (textKind err.msg) nameKind := by
  unfold classifyError
  cases err.decoded parseError with
  | none =>
    simp only [Option.elim_none, textKind]
    split_ifs <;> rfl
  | some name =>
    simp only [Option.elim_some, nameKind]
    split_ifs <;> rfl

end Kind

/-! ## Wrapping -/

/-- An error of a JSON-RPC provider, of which `classifyError` reads the data and the message. -/
structure ProviderError where
  data : Option ErrorData := none
  message : Option String := none
  deriving Repr, DecidableEq

/-- The provider's error as it is thrown itself. -/
def ProviderError.err (e : ProviderError) : Err :=
  { data := e.data, message := e.message, text := "[object Object]" }

/-- Where ethers keeps the provider's error. -/
inductive Place where
  | error
  | infoError
  deriving Repr, DecidableEq

/-- An error of ethers about another: its own data are absent or none, and the text it surfaces with
by itself says nothing. -/
structure Wrapper where
  place : Place
  data : Option ErrorData := none
  reason : Option String := none
  shortMessage : Option String := none
  message : Option String := none
  text : String := "Error"
  bare : data ∈ [none, some (.text "0x"), some .other]
  generic : Generic ((reason.or (shortMessage.or message)).getD text)

/-- The error that is thrown. -/
def Wrapper.wrap (w : Wrapper) (e : ProviderError) : Err :=
  let err : Err :=
    { data := w.data, reason := w.reason, shortMessage := w.shortMessage, message := w.message,
      text := w.text }
  match w.place with
  | .error => { err with errorData := e.data, errorMessage := e.message }
  | .infoError => { err with infoErrorData := e.data, infoErrorMessage := e.message }

/-- Nothing stands in front of the nested message. -/
def Wrapper.silent (w : Wrapper) : Prop := w.reason = none ∧ w.shortMessage = none

/-- What a text of the wrapped error leaves to be seen of the provider's message. -/
def Wrapper.Shows (w : Wrapper) (e : ProviderError) (kind : RevertKind) : Prop :=
  (w.silent ∧ ∃ message, e.message = some message ∧ textKind message = kind) ∨
    ((w.silent → e.message = none) ∧ kind = .transient)

/-- The wrapped error says of itself what the provider's error says. Data that name a vault error
are found if the wrapper has none of its own, or if the text left happens to be of that kind. Where
the data name nothing, the message is found if the wrapper has neither a reason nor a short message,
and is not missed if it is generic. -/
def Wrapper.Surfaces (parseError : String → Option String) (w : Wrapper) (e : ProviderError) : Prop :=
  match e.err.decoded parseError with
  | some name => w.data = none ∨ w.Shows e (nameKind name)
  | none => w.silent ∨ ∀ message, e.message = some message → Generic message

section Wrapped

variable {parseError : String → Option String} {w : Wrapper} {e : ProviderError}

theorem decoded_bare {err : Err} {data : ErrorData} (own : err.data = some data)
    (bare : some data ∈ [none, some (.text "0x"), some .other]) : err.decoded parseError = none := by
  simp only [List.mem_cons, reduceCtorEq, Option.some.injEq, List.not_mem_nil, or_false, false_or]
    at bare
  rcases bare with rfl | rfl
  · rw [Err.decoded, own, Option.some_or]
    exact if_neg (by decide)
  · rw [Err.decoded, own, Option.some_or]

/-- The nested data are decoded if the wrapper has none. -/
theorem decoded_wrap : (w.wrap e).decoded parseError =
    if w.data = none then e.err.decoded parseError else none := by
  split
  · rename_i absent
    cases place : w.place <;> simp [Err.decoded, Wrapper.wrap, ProviderError.err, place, absent]
  · rename_i present
    obtain ⟨data, own⟩ := Option.ne_none_iff_exists'.1 present
    have same : (w.wrap e).data = some data := by
      cases place : w.place <;> simp [Wrapper.wrap, place, own]
    exact decoded_bare same (own ▸ w.bare)

/-- The text of the wrapped error: the nested message if nothing stands in front of it. -/
theorem shows_msg : w.Shows e (textKind (w.wrap e).msg) := by
  have msg : (w.wrap e).msg =
      (w.reason.or (w.shortMessage.or (e.message.or w.message))).getD w.text := by
    cases place : w.place <;> simp [Err.msg, Wrapper.wrap, place]
  have generic := w.generic
  rw [msg]
  by_cases silent : w.silent
  · obtain ⟨reason, shortMessage⟩ := silent
    rw [reason, shortMessage, Option.none_or, Option.none_or] at generic ⊢
    cases message : e.message with
    | none => exact .inr ⟨fun _ => message, generic⟩
    | some text => exact .inl ⟨⟨reason, shortMessage⟩, text, message, rfl⟩
  · refine .inr ⟨fun h => absurd h silent, ?_⟩
    cases reason : w.reason with
    | some text => rwa [reason, Option.some_or] at generic
    | none =>
      cases shortMessage : w.shortMessage with
      | some text => rwa [reason, shortMessage, Option.none_or, Option.some_or] at generic
      | none => exact absurd ⟨reason, shortMessage⟩ silent

/-- A wrapped error's text is of one kind only. -/
theorem Wrapper.Shows.unique {kind kind' : RevertKind} (h : w.Shows e kind) (h' : w.Shows e kind') :
    kind = kind' := by
  rcases h with ⟨silent, text, message, rfl⟩ | ⟨hidden, rfl⟩
  · rcases h' with ⟨-, text', message', rfl⟩ | ⟨hidden, -⟩
    · rw [Option.some.inj (message.symm.trans message')]
    · rw [hidden silent] at message
      cases message
  · rcases h' with ⟨silent, text, message, -⟩ | ⟨-, rfl⟩
    · rw [hidden silent] at message
      cases message
    · rfl

theorem generic_object : Generic "[object Object]" := by
  simp only [Generic, textKind, PERMANENT_ERROR_PATTERNS]
  decide +kernel

/-- **Seeing through a wrapper**: an error is classified inside a wrapper as it is by itself exactly
when the wrapper lets it surface. -/
theorem kind_wrap_iff (parseError : String → Option String) (w : Wrapper) (e : ProviderError) :
    (classifyError parseError (w.wrap e)).kind = (classifyError parseError e.err).kind ↔
      w.Surfaces parseError e := by
  have shown : w.Shows e (textKind (w.wrap e).msg) := shows_msg
  rw [kind_classifyError, kind_classifyError, decoded_wrap, Wrapper.Surfaces]
  cases named : e.err.decoded parseError with
  | some name =>
    by_cases absent : w.data = none
    · simp [absent]
    · simp only [absent, ↓reduceIte, Option.elim_none, Option.elim_some, false_or]
      exact ⟨fun same => same ▸ shown, fun same => shown.unique same⟩
  | none =>
    simp only [ite_self, Option.elim_none]
    have own : e.err.msg = e.message.getD "[object Object]" := rfl
    rw [own]
    constructor
    · intro same
      by_cases silent : w.silent
      · exact .inl silent
      · refine .inr fun message some => ?_
        rcases shown with ⟨h, -⟩ | ⟨-, transient⟩
        · exact absurd h silent
        · rw [some, Option.getD_some] at same
          exact same.symm.trans transient
    · intro surfaces
      refine shown.unique ?_
      cases message : e.message with
      | none => exact .inr ⟨fun _ => message, generic_object⟩
      | some text =>
        rcases surfaces with silent | generic
        · exact .inl ⟨silent, text, message, rfl⟩
        · by_cases silent : w.silent
          · exact .inl ⟨silent, text, message, rfl⟩
          · exact .inr ⟨fun h => absurd h silent, generic text message⟩

end Wrapped

/-- `makeError("could not coalesce error", "UNKNOWN_ERROR", { error })`. -/
def coalesced : Wrapper where
  place := .error
  shortMessage := some "could not coalesce error"
  message := some "could not coalesce error (error=\x7b \"message\": \"execution reverted: OrderAlreadyProcessed\" \x7d)"
  bare := by decide
  generic := by
    simp only [Generic, textKind, PERMANENT_ERROR_PATTERNS]
    decide +kernel

/-- An order that has been processed is retried, because the short message stands in front. -/
theorem downgraded : ¬ ∀ (parseError : String → Option String) (w : Wrapper) (e : ProviderError),
    e.data ≠ none ∨ e.message ≠ none →
    (classifyError parseError (w.wrap e)).kind = (classifyError parseError e.err).kind := by
  intro all
  have same := all (fun _ => none) coalesced
    { message := some "execution reverted: OrderAlreadyProcessed" } (.inr (by decide))
  revert same
  decide +kernel

end LordsPot.Relay
