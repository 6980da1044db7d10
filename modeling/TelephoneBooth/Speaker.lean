import TelephoneBooth.Fetcher

/-! `audio_task`: commands in order, and the end of what is playing, raced by a select
that may take either branch when both are ready. -/
namespace TelephoneBooth

inductive AudioCommand where
  | play (source : AudioRef) (number : Nat)
  | stop
  | shutdown
  deriving DecidableEq

def AudioCommand.number : AudioCommand → Option Nat
  | .play _ number => some number
  | _ => none

structure Speaker where
  commands : List AudioCommand
  playing : Bool
  current : Option Nat
  running : Bool
  deriving DecidableEq

def AudioRef.endless : AudioRef → Bool
  | .builtin .dialTone | .builtin .lineBusy => true
  | _ => false

inductive SpeakerLabel where
  | command (accepted : Bool)
  | ended (natural : Bool)
  deriving DecidableEq

namespace Speaker

def idle : Speaker := ⟨[],false,none,true⟩

def enqueue (s : Speaker) (command : AudioCommand) : Speaker :=
  { s with commands := s.commands ++ [command] }

/- `accepted` is whether the sink's `play` succeeds. Over a clip that is playing, any new
source counts as one that will end; from silence, endless ones do not. -/
def obey (s : Speaker) (accepted : Bool) : AudioCommand → Speaker
  | .play source number =>
    if accepted then
      { s with playing := s.playing || !source.endless, current := some number }
    else { s with playing := false }
  | .stop => { s with playing := false }
  | .shutdown => { s with running := false }

def step (s : Speaker) : SpeakerLabel → Option (Speaker × List Notice)
  | .command accepted =>
    match s.running, s.commands with
    | true, command :: rest => some (({ s with commands := rest }).obey accepted command,[])
    | _, _ => none
  | .ended natural =>
    if s.running && s.playing then
      some ({ s with playing := false },
        if natural then [{ event := .playbackEnded, origin := s.current }] else [])
    else none

end Speaker
end TelephoneBooth
