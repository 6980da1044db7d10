import TelephoneBooth.Core

/-! The operator fetches of `effect_task`: the call counter that invalidates them, the
one slot a clip waits in, and the fetch tasks with every point at which another task can
run between two of their steps. -/
namespace TelephoneBooth

/- What a component puts into the event channel. `origin` numbers the effect that caused
the event and `captured` the `StartRecording` whose audio it reports; the core sees neither. -/
structure Notice where
  event : Event
  origin : Option Nat := none
  captured : Option Nat := none
  deriving DecidableEq

inductive FetchKind where
  | question | message | instructions
  deriving DecidableEq, Repr

def Effect.fetchKind : Effect → Option FetchKind
  | .fetchRandomQuestion => some .question
  | .fetchRandomMessage => some .message
  | .fetchInstructions => some .instructions
  | _ => none

/- The operator's answer; `cached` says whether the digest names a file already on disk. -/
structure ClipAnswer where
  id : QuestionId := ""
  audioUrl : String := ""
  audioSha256 : Option String := none
  cached : Bool := false
  deriving DecidableEq

inductive FetchReply where
  | ok (answer : ClipAnswer)
  | inactive
  | failed (reason : String)
  deriving DecidableEq

def isSha256Hex (value : String) : Bool :=
  value.utf8ByteSize == 64 && value.toList.all fun c => ('0' ≤ c ∧ c ≤ '9') ∨ ('a' ≤ c ∧ c ≤ 'f')

def operatorAudioRef (recordingsDir : String) (answer : ClipAnswer) : AudioRef :=
  match answer.audioSha256.filter isSha256Hex with
  | some sha256 =>
    if answer.cached then .localFile (recordingsDir ++ "/" ++ sha256 ++ ".flac")
    else .remoteUrl answer.audioUrl (some sha256)
  | none => .remoteUrl answer.audioUrl none

def FetchKind.ready (kind : FetchKind) (answer : ClipAnswer) : Event :=
  match kind with
  | .question => .questionReady answer.id
  | .message => .messageReady
  | .instructions => .instructionsReady

def Event.readyKind : Event → Option FetchKind
  | .questionReady _ => some .question
  | .messageReady => some .message
  | .instructionsReady => some .instructions
  | _ => none

def FetchKind.failed (kind : FetchKind) (reason : String) : Event :=
  match kind with
  | .question => .questionFailed reason
  | .message => .messageFailed reason
  | .instructions => .instructionsFailed reason

inductive FetchStage where
  | requesting
  | answered (reply : FetchReply)
  | current (answer : ClipAnswer)
  | stored (answer : ClipAnswer)
  | failing (reason : String)
  | done
  deriving DecidableEq

structure FetchTask where
  number : Nat
  kind : FetchKind
  issued : Nat
  stage : FetchStage
  deriving DecidableEq

structure StoredClip where
  source : AudioRef
  fetch : Nat
  ready : Event
  deriving DecidableEq

def StoredClip.notice (clip : StoredClip) : Notice :=
  { event := clip.ready, origin := some clip.fetch }

/- `resolved` is a ghost: what the slot held when a clip was last looked up in it. -/
structure Fetcher where
  generation : Nat
  nextRemoteAudio : Option StoredClip
  resolved : Option StoredClip
  tasks : List FetchTask
  recordingsDir : String
  deriving DecidableEq

namespace Fetcher

def idle (recordingsDir : String) : Fetcher := ⟨0,none,none,[],recordingsDir⟩

def invalidate (f : Fetcher) : Fetcher := { f with generation := f.generation + 1 }

/- `StopAudio`: the clip fetched and not yet played goes, and so do fetches in flight. -/
def reset (f : Fetcher) : Fetcher := { f.invalidate with nextRemoteAudio := none }

def isCurrent (f : Fetcher) (task : FetchTask) : Bool := f.generation == task.issued

/- Dispatch of a fetch effect: the token is the counter as it is now. -/
def spawn (f : Fetcher) (number : Nat) (kind : FetchKind) : Fetcher :=
  { f with tasks := f.tasks ++ [⟨number,kind,f.generation,.requesting⟩] }

def find (f : Fetcher) (number : Nat) : Option FetchTask :=
  f.tasks.find? fun task => task.number == number

def move (f : Fetcher) (task : FetchTask) (stage : FetchStage) : Fetcher :=
  { f with tasks := { task with stage } :: f.tasks.erase task }

def join (f : Fetcher) (number : Nat) : Option Fetcher :=
  (f.find number).bind fun task =>
    if task.stage = .done then some { f with tasks := f.tasks.erase task } else none

def cancel (f : Fetcher) (number : Nat) : Option Fetcher :=
  (f.find number).bind fun task =>
    if task.stage = .done then none else some (f.move task .done)

def resolveAudioRef (f : Fetcher) (source : AudioRef) : AudioRef × Fetcher :=
  match source with
  | .remoteUrl url _ =>
    if url = "" then
      ((f.nextRemoteAudio.map StoredClip.source).getD source,
        { f with nextRemoteAudio := none, resolved := f.nextRemoteAudio })
    else (source,f)
  | _ => (source,f)

/- One step of a fetch task. The operator's reply is only read in the first. -/
def step (f : Fetcher) (number : Nat) (reply : FetchReply) : Option (Fetcher × List Notice) :=
  (f.find number).bind fun task =>
    match task.stage with
    | .requesting => some (f.move task (.answered reply),[])
    | .answered (.ok answer) =>
      if f.isCurrent task then some (f.move task (.current answer),[])
      else some (f.move task .done,[])
    | .answered .inactive => some (f.move task .done,[])
    | .answered (.failed reason) =>
      if f.isCurrent task then some (f.move task (.failing reason),[])
      else some (f.move task .done,[])
    | .current answer =>
      let clip : StoredClip :=
        ⟨operatorAudioRef f.recordingsDir answer,number,task.kind.ready answer⟩
      some ({ f.move task (.stored answer) with nextRemoteAudio := some clip },[])
    | .stored answer =>
      some (f.move task .done,[{ event := task.kind.ready answer, origin := some number }])
    | .failing reason =>
      some (f.move task .done,[{ event := task.kind.failed reason, origin := some number }])
    | .done => none

end Fetcher
end TelephoneBooth
