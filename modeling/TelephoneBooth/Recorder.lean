import TelephoneBooth.Fetcher

/-! The microphone and the recording timer as `effect_task` drives them. Any start or stop
may fail; a stop hands out a recording only while a capture is in progress. -/
namespace TelephoneBooth

/- `capture` numbers the `StartRecording` whose audio is being captured, `timer` the
`ArmRecordingTimeout` whose task has neither fired nor been aborted. -/
structure Recorder where
  capture : Option Nat
  timer : Option Nat
  deriving DecidableEq

inductive StopReply where
  | ok (recordingId : Option RecordingId)
  | error (reason : String)
  deriving DecidableEq

namespace Recorder

def idle : Recorder := ⟨none,none⟩

def start (r : Recorder) (number : Nat) : Option String → Recorder × List Notice
  | none => ({ r with capture := some number },[])
  | some reason => (r,[{ event := .recordingFailed reason, origin := some number }])

def arm (r : Recorder) (number : Nat) : Recorder := { r with timer := some number }

def cancel (r : Recorder) : Recorder := { r with timer := none }

/- After a failed stop the capture may still be there for a later one. -/
def stop (r : Recorder) (number : Nat) : StopReply → Option (Recorder × List Notice)
  | .ok (some recordingId) =>
    r.capture.map fun started => ({ r with capture := none },
      [{ event := .recordingFinished recordingId, origin := some number,
         captured := some started }])
  | .ok none => some ({ r with capture := none },
      [{ event := .recordingFailed "no recording in progress", origin := some number }])
  | .error reason => some (r,[{ event := .recordingFailed reason, origin := some number }])

def fire (r : Recorder) : Option (Recorder × List Notice) :=
  r.timer.map fun armed =>
    ({ r with timer := none },[{ event := .recordingTimedOut, origin := some armed }])

end Recorder
end TelephoneBooth
