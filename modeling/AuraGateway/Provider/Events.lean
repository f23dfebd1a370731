import AuraGateway.Types.Responses

/-!
# The events of a stream

What a stream transformer gives is a list of events and errors. This file has what all
transformers share, the state they open a stream with (`StreamState.opening`), and what a
client makes of their events: the text of the deltas, the argument deltas, and the responses
that complete the stream.
-/

set_option autoImplicit false

namespace AuraGateway.Provider

open AuraGateway.Types

/-- The errors of a stream: `ProviderError::stream_error`, `ProviderError::from_provider`. -/
inductive StreamFault where
  | stream (message : String)
  | provider (statusCode : Nat) (message : String)
  deriving DecidableEq, Repr

abbrev StreamItem := Except StreamFault StreamEvent

/-- What a transformer takes from outside: the model, a fresh identifier and the time. -/
structure StreamEnv where
  model : String
  uuid : String
  now : Int

/-! ## Opening a stream -/

/-- What every transformer keeps, but for its buffer. -/
structure StreamState where
  model : String
  responseId : String
  accumulatedText : String := ""
  sentCreated : Bool := false
  sentInProgress : Bool := false
  outputItemAdded : Bool := false
  contentPartAdded : Bool := false

namespace StreamState

/-- The two events that open a stream. -/
def opening (now : Int) (t : StreamState) : Option (StreamItem × StreamState) :=
  let response := Response.inProgress t.responseId t.model now
  if !t.sentCreated then some (.ok (.responseCreated response), { t with sentCreated := true })
  else if !t.sentInProgress then
    some (.ok (.responseInProgress response), { t with sentInProgress := true })
  else none

/-- How many of the opening events are still to come. -/
def openingLeft (t : StreamState) : Nat := (!t.sentCreated).toNat + (!t.sentInProgress).toNat

theorem openingLeft_of_opening {now : Int} {t t' : StreamState} {e : StreamItem}
    (h : t.opening now = some (e, t')) : t'.openingLeft < t.openingLeft := by
  simp only [opening] at h
  split at h
  · rename_i hcreated
    have hfalse : t.sentCreated = false := by simpa using hcreated
    obtain ⟨-, rfl⟩ := Prod.mk.inj (Option.some.inj h)
    simp [openingLeft, hfalse]
  · split at h
    · rename_i hprogress
      have hfalse : t.sentInProgress = false := by simpa using hprogress
      obtain ⟨-, rfl⟩ := Prod.mk.inj (Option.some.inj h)
      simp [openingLeft, hfalse]
    · cases h

/-- The opening events have been sent. -/
def Opened (t : StreamState) : Prop := t.sentCreated = true ∧ t.sentInProgress = true

theorem Opened.opening_eq_none {t : StreamState} (h : t.Opened) (now : Int) :
    t.opening now = none := by
  simp [opening, h.1, h.2]

end StreamState

/-- The opening events of a stream. -/
def openingItems (env : StreamEnv) (idPrefix : String) : List StreamItem :=
  let response := Response.inProgress (idPrefix ++ env.uuid) env.model env.now
  [.ok (.responseCreated response), .ok (.responseInProgress response)]

/-! ## What a client receives -/

/-- The text of an event that is a text delta. -/
def textDelta : StreamItem → Option String
  | .ok (.outputTextDelta _ _ delta) => some delta
  | _ => none

/-- The index and the arguments of an event that is an arguments delta. -/
def argumentsDelta : StreamItem → Option (Nat × String)
  | .ok (.functionCallArgumentsDelta index delta) => some (index, delta)
  | _ => none

/-- The response of an event that completes the stream. -/
def completedResponse : StreamItem → Option Response
  | .ok (.responseCompleted response) => some response
  | _ => none

/-- A text delta of the message. -/
def deltaItem (content : String) : StreamItem := .ok (.outputTextDelta 0 0 content)

/-- An event about the text: an announcement, a delta, or the whole text. -/
def isTextItem : StreamItem → Bool
  | .ok (.outputItemAdded ..) | .ok (.contentPartAdded ..) | .ok (.outputTextDelta ..)
  | .ok (.outputTextDone ..) => true
  | _ => false

/-- The text deltas are among the events about the text. -/
theorem filterMap_textDelta_filter (items : List StreamItem) :
    (items.filter isTextItem).filterMap textDelta = items.filterMap textDelta := by
  rw [List.filterMap_filter]
  refine List.filterMap_congr fun item _ => ?_
  cases item with
  | error e => rfl
  | ok e => cases e <;> rfl

/-- The text that the deltas give. -/
def deltaText (items : List StreamItem) : String := String.join (items.filterMap textDelta)

/-- Text that comes in strings is delivered: in the deltas, and in the final response. -/
def TextDelivered (texts : List String) (given : List StreamItem) : Prop :=
  deltaText given = String.join texts
    ∧ ∃ r, given.filterMap completedResponse = [r] ∧ r.text = String.join texts

/-- Text is whole without its first strings exactly when these are empty. -/
theorem join_drop_eq_iff (l : List String) (n : Nat) :
    String.join (l.drop n) = String.join l ↔ ∀ s ∈ l.take n, s = "" := by
  have hsplit : String.join l = String.join (l.take n) ++ String.join (l.drop n) := by
    rw [← String.join_append, List.take_append_drop]
  have hempty : String.join (l.take n) = "" ↔ ∀ s ∈ l.take n, s = "" := by
    induction l.take n with
    | nil => simp
    | cons s m ih => simp [String.join_cons, String.append_eq_empty_iff, ih]
  rw [← hempty]
  constructor
  · intro h
    have hlen := congrArg String.length hsplit
    rw [h, String.length_append] at hlen
    exact String.length_eq_zero_iff.mp (by omega)
  · intro h
    rw [hsplit, h, String.empty_append]

end AuraGateway.Provider
