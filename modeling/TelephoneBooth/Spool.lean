import TelephoneBooth.Fetcher

/-! The pending-upload spool: its entries on disk, the claims that keep two tasks off one
recording, and the upload call sequence both kinds of task go through. -/
namespace TelephoneBooth

structure SpoolEntry where
  recordingId : RecordingId
  questionId : Option QuestionId
  path : String
  sizeBytes : Option Nat
  durationMs : Option Nat
  deriving DecidableEq

/- `entries` is the directory; `inFlight` the claims. `durable` and `confirmed` are ghosts:
recordings whose `enqueue` has returned `Ok`, and those the operator has acknowledged. -/
structure Spool where
  entries : List SpoolEntry
  inFlight : List RecordingId
  durable : List RecordingId
  confirmed : List RecordingId
  deriving DecidableEq

namespace Spool

def opened (entries : List SpoolEntry) : Spool :=
  ⟨entries,[],entries.map SpoolEntry.recordingId,[]⟩

def contains (s : Spool) (id : RecordingId) : Bool :=
  s.entries.any fun entry => entry.recordingId == id

def claim (s : Spool) (id : RecordingId) : Option Spool :=
  if id ∈ s.inFlight then none else some { s with inFlight := id :: s.inFlight }

def release (s : Spool) (id : RecordingId) : Spool :=
  { s with inFlight := s.inFlight.filter (· ≠ id) }

def enqueue (s : Spool) (entry : SpoolEntry) : Spool :=
  { s with
    entries := entry :: s.entries.filter (fun old => old.recordingId ≠ entry.recordingId)
    durable := entry.recordingId :: s.durable }

def dequeue (s : Spool) (id : RecordingId) : Spool :=
  { s with entries := s.entries.filter (fun entry => entry.recordingId ≠ id) }

def acknowledge (s : Spool) (id : RecordingId) : Spool :=
  { s with confirmed := id :: s.confirmed }

def abandon (s : Spool) : Spool := { s with inFlight := [] }

end Spool

def maxUploadDurationMs : Nat := 300000
def maxUploadBytes : Nat := 26214400

def validateUploadCaps (bytes : Nat) : Option Nat → Option OperatorError
  | none => some (.invalidArgument "recording duration is required before upload")
  | some durationMs =>
    if durationMs = 0 then
      some (.invalidArgument "recording duration must be greater than 0")
    else if durationMs > maxUploadDurationMs then
      some (.invalidArgument
        s!"recording duration {durationMs}ms exceeds operator cap of {maxUploadDurationMs}ms")
    else if bytes > maxUploadBytes then
      some (.payloadTooLarge (some maxUploadBytes)
        s!"recording size {bytes} bytes exceeds operator cap of {maxUploadBytes} bytes")
    else none

inductive UploadCall where
  | validate | init | put | complete
  deriving DecidableEq, Repr

inductive UploadNext where
  | call (next : UploadCall)
  | finished (outcome : UploadOutcome)
  deriving DecidableEq

def uploadError : OperatorError → UploadOutcome
  | .installationInactive _ => .deferred
  | error => .failed error.text

/- Only `init_upload` may take a duplicate for success. -/
def uploadCall (bytes : Nat) (durationMs : Option Nat) (reply : Option OperatorError) :
    UploadCall → UploadNext
  | .validate => match validateUploadCaps bytes durationMs with
    | some error => .finished (uploadError error)
    | none => .call .init
  | .init => match reply with
    | none => .call .put
    | some (.duplicateRecording _) => .finished .complete
    | some error => .finished (uploadError error)
  | .put => match reply with
    | none => .call .complete
    | some error => .finished (uploadError error)
  | .complete => match reply with
    | none => .finished .complete
    | some error => .finished (uploadError error)

end TelephoneBooth
