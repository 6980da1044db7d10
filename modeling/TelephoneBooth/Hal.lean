/-! Port types of `booth_hal` that the core and the runtime exchange. Only the
data a modelled function reads is kept; adapters themselves are never modelled. -/
namespace TelephoneBooth

abbrev QuestionId := String

abbrev RecordingId := String

inductive BuiltinTone where
  | dialTone | ringback | beep | lineBusy | callUnavailable
  deriving DecidableEq, Repr

/- The digest of `remoteUrl` is what the adapter checks the download against. -/
inductive AudioRef where
  | builtin (tone : BuiltinTone)
  | localFile (path : String)
  | remoteUrl (url : String) (sha256 : Option String)
  deriving DecidableEq, Repr

inductive BoothStatus where
  | idle | dialTone | playingQuestion | recording | uploading
  | playingMessage | playingInstructions | callUnavailable
  deriving DecidableEq, Repr

inductive LedColour where
  | off | red | green | blue
  deriving DecidableEq, Repr

inductive LedPattern where
  | steady (brightness : UInt8)
  | pulse (periodMs : UInt32)
  | blink (periodMs : UInt32)
  | fade (durationMs : UInt32)
  deriving DecidableEq, Repr

inductive OperatorError where
  | transport (detail : String)
  | auth (detail : String)
  | unauthorized (detail : String)
  | duplicateRecording (detail : String)
  | invalidArgument (detail : String)
  | conflict (detail : String)
  | installationInactive (detail : String)
  | payloadTooLarge (maxBytes : Option Nat) (body : String)
  | unprocessable (detail : String)
  | unsupported (detail : String)
  | server (status : UInt16) (body : String)
  | protocol (detail : String)
  deriving DecidableEq, Repr

def OperatorError.text : OperatorError → String
  | .transport detail => s!"operator transport error: {detail}"
  | .auth detail => s!"operator auth error: {detail}"
  | .unauthorized detail => s!"operator unauthorized: {detail}"
  | .duplicateRecording detail => s!"duplicate recording: {detail}"
  | .invalidArgument detail => s!"operator invalid argument: {detail}"
  | .conflict detail => s!"operator conflict: {detail}"
  | .installationInactive detail => s!"operator installation inactive: {detail}"
  | .payloadTooLarge _ body => s!"operator payload too large: {body}"
  | .unprocessable detail => s!"operator validation error: {detail}"
  | .unsupported detail => s!"operator operation unsupported: {detail}"
  | .server status body => s!"operator returned an error: {status} {body}"
  | .protocol detail => s!"operator returned an unexpected response: {detail}"

end TelephoneBooth
