import TelephoneBooth.AudioStreams
import TelephoneBooth.FileStorage
import TelephoneBooth.PiSink
import TelephoneBooth.Redaction
import TelephoneBooth.UrlFilters

/-! What `PiAudioSink::play` does between its `stop` and its playback task: the policy, the addresses,
the download with its limit and its digest, and the decoder. The network, the disk and the codec
answer as they like, differently for each `play`. -/
namespace TelephoneBooth.ClipLoading
open AudioStreams (PlayableAudio)

structure Response where
  status : Nat
  contentLength : Option Nat
  chunks : List (Except String Bytes)

def Response.isRedirection (r : Response) : Bool := decide (300 ≤ r.status ∧ r.status < 400)

/- `error_for_status`. -/
def Response.isError (r : Response) : Bool := decide (400 ≤ r.status ∧ r.status < 600)

/- The answers there are while one `play` loads its source; a name that does not resolve has no
addresses to check. -/
structure World (F : Type) where
  parse : UrlParser
  portOrKnownDefault : String → Option Nat
  lookupHost : String → Option (List IpAddr)
  get : String → Except String Response
  statusText : Nat → String
  stat : String → Except String Nat
  read : String → Except String Bytes
  embedded : BuiltinTone → Bytes
  decode : Bytes → Except String (List F)

structure SinkConfig where
  fetchPolicy : AudioFetchPolicy
  maxBodyBytes : Nat
  maxAudioDownloadBytes : Nat
  hexSha256 : Bytes → String
  addrText : IpAddr → String

def redactUrl (text : String) : String := String.ofList (Redaction.redactUrl text.toList)

def policyText (addrText : IpAddr → String) : UrlPolicyError → String
  | .invalidUrl text => s!"invalid URL: {text}"
  | .disallowedScheme scheme allowed => s!"disallowed scheme \"{scheme}\" (allowed: {allowed})"
  | .hostNotAllowed host => s!"host \"{host}\" is not in the allowed audio hosts list"
  | .privateAddress addr => s!"resolved address {addrText addr} is private/link-local/loopback"
  | .missingHost => "URL has no host"

def readChunks (maxBytes : Nat) (safeUrl : String) (body : Bytes) :
    List (Except String Bytes) → Except AudioError Bytes
  | [] => .ok body
  | .error err :: _ => .error (.source s!"read response body from {safeUrl}: {redactUrl err}")
  | .ok chunk :: rest =>
    if maxBytes < body.length + chunk.length then
      .error (.source s!"audio from {safeUrl} exceeds the {maxBytes}-byte body limit")
    else readChunks maxBytes safeUrl (body ++ chunk) rest

def readBodyWithLimit (response : Response) (maxBytes : Nat) (safeUrl : String) :
    Except AudioError Bytes :=
  match response.contentLength.filter (maxBytes < ·) with
  | some contentLength =>
    .error (.source s!"audio from {safeUrl} declares Content-Length {contentLength} bytes which exceeds the {maxBytes}-byte limit")
  | none => readChunks maxBytes safeUrl [] response.chunks

def refuseIf (condition : Bool) (error : AudioError) : Except AudioError Unit :=
  if condition then .error error else .ok ()

def lowercase (text : String) : String := String.ofList (text.toList.map toAsciiLowercase)

def verifySha256 (hexSha256 : Bytes → String) (bytes : Bytes) (expectedHex safeUrl : String) :
    Except AudioError Unit :=
  refuseIf (hexSha256 bytes != lowercase expectedHex)
    (.source s!"SHA-256 mismatch for audio from {safeUrl}: expected {lowercase expectedHex}, got {hexSha256 bytes}")

def verifyExpected (hexSha256 : Bytes → String) (bytes : Bytes) (safeUrl : String) :
    Option String → Except AudioError Unit
  | some expected => verifySha256 hexSha256 bytes expected safeUrl
  | none => .ok ()

section Load
variable {F : Type} (config : SinkConfig) (world : World F)

def checkAddresses (safeUrl : String) : List IpAddr → Except AudioError Unit
  | [] => .ok ()
  | addr :: rest =>
    match config.fetchPolicy.checkResolvedIp addr with
    | .error err => .error (.source s!"audio URL DNS check rejected {safeUrl}: {policyText config.addrText err}")
    | .ok _ => checkAddresses safeUrl rest

def decodeAudioBytes (bytes : Bytes) : Except AudioError (List F) :=
  match world.decode bytes with
  | .error text => .error (.codec text)
  | .ok samples =>
    (refuseIf samples.isEmpty (.codec "audio stream decoded to zero samples")).map fun _ => samples

def resolved (url : String) (parsed : ParsedUrl) : List IpAddr :=
  match parsed.hostStr with
  | none => []
  | some host => (world.lookupHost s!"{host}:{(world.portOrKnownDefault url).getD 443}").getD []

def download (url : String) (expectedSha256 : Option String) : Except AudioError Bytes := do
  let safeUrl := redactUrl url
  let parsed ← (config.fetchPolicy.validate world.parse url).mapError fun err =>
    AudioError.source s!"audio URL policy rejected {safeUrl}: {policyText config.addrText err}"
  checkAddresses config safeUrl (resolved world url parsed)
  let response ← (world.get url).mapError fun err => AudioError.source s!"fetch {safeUrl}: {redactUrl err}"
  refuseIf response.isRedirection
    (.source s!"fetch {safeUrl}: server returned redirect {response.status} which is blocked")
  refuseIf response.isError (.source s!"fetch {safeUrl}: {redactUrl (world.statusText response.status)}")
  let bytes ← readBodyWithLimit response config.maxBodyBytes safeUrl
  verifyExpected config.hexSha256 bytes safeUrl expectedSha256
  return bytes

def readLocal (path : String) : Except AudioError Bytes := do
  let length ← (world.stat path).mapError fun err => AudioError.source s!"stat audio file {path}: {err}"
  refuseIf (decide (config.maxAudioDownloadBytes < length))
    (.source s!"local audio file {path} is {length} bytes, exceeds cap of {config.maxAudioDownloadBytes}")
  (world.read path).mapError fun err => AudioError.source s!"read audio file {path}: {err}"

def loadSource : AudioRef → Except AudioError (PlayableAudio F)
  | .builtin tone =>
    (decodeAudioBytes world (world.embedded tone)).map fun samples =>
      ⟨samples,tone == .dialTone || tone == .lineBusy⟩
  | .remoteUrl url expectedSha256 => do
    let bytes ← download config world url expectedSha256
    (decodeAudioBytes world bytes).map fun samples => ⟨samples,false⟩
  | .localFile path => do
    let bytes ← readLocal config world path
    (decodeAudioBytes world bytes).map fun samples => ⟨samples,false⟩

end Load

section Steps
variable {ε ε' α β : Type}

theorem bindOk {x : Except ε α} {f : α → Except ε β} {b : β} :
    x >>= f = .ok b ↔ ∃ a, x = .ok a ∧ f a = .ok b := by
  cases x with
  | error err =>
    constructor
    · intro same
      cases same
    · rintro ⟨_,same,_⟩
      cases same
  | ok a =>
    constructor
    · exact fun same => ⟨a,rfl,same⟩
    · rintro ⟨_,same,later⟩
      exact Except.ok.inj same ▸ later

theorem mapErrorOk {x : Except ε α} {f : ε → ε'} {a : α} : x.mapError f = .ok a ↔ x = .ok a := by
  cases x <;> simp [Except.mapError]

theorem mapOk {x : Except ε α} {f : α → β} {b : β} :
    x.map f = .ok b ↔ ∃ a, x = .ok a ∧ f a = b := by
  cases x <;> simp [Except.map]

theorem refuseOk {condition : Bool} {error : AudioError} :
    refuseIf condition error = .ok () ↔ condition = false := by
  cases condition <;> simp [refuseIf]

end Steps

theorem chunksRead {maxBytes : Nat} {safeUrl : String} {body bytes : Bytes}
    {chunks : List (Except String Bytes)} (fits : body.length ≤ maxBytes) :
    readChunks maxBytes safeUrl body chunks = .ok bytes ↔
      ∃ parts : List Bytes, chunks = parts.map .ok ∧ bytes = body ++ parts.flatten ∧
        bytes.length ≤ maxBytes := by
  induction chunks generalizing body with
  | nil =>
    simp only [readChunks]
    constructor
    · intro same
      obtain rfl := Except.ok.inj same
      exact ⟨[],rfl,by simp,fits⟩
    · rintro ⟨parts,none_,rfl,_⟩
      obtain rfl := List.map_eq_nil_iff.mp none_.symm
      simp
  | cons chunk rest ih =>
    cases chunk with
    | error err =>
      simp only [readChunks,reduceCtorEq,false_iff]
      rintro ⟨parts,same,_⟩
      cases parts <;> cases same
    | ok chunk =>
      simp only [readChunks]
      split
      · rename_i more
        simp only [reduceCtorEq,false_iff]
        rintro ⟨parts,same,rfl,inside⟩
        cases parts with
        | nil => cases same
        | cons part parts =>
          obtain ⟨same,_⟩ := List.cons.inj same
          obtain rfl := Except.ok.inj same
          simp only [List.flatten_cons,List.length_append] at inside
          omega
      · rename_i room
        rw [ih (by rw [List.length_append]; omega)]
        constructor
        · rintro ⟨parts,rfl,rfl,inside⟩
          exact ⟨chunk :: parts,rfl,by simp,inside⟩
        · rintro ⟨parts,same,rfl,inside⟩
          cases parts with
          | nil => cases same
          | cons part parts =>
            obtain ⟨same,later⟩ := List.cons.inj same
            obtain rfl := Except.ok.inj same
            exact ⟨parts,later,by simp,inside⟩

theorem bodyRead {response : Response} {maxBytes : Nat} {safeUrl : String} {bytes : Bytes} :
    readBodyWithLimit response maxBytes safeUrl = .ok bytes ↔
      (∀ length, response.contentLength = some length → length ≤ maxBytes) ∧
      ∃ parts : List Bytes, response.chunks = parts.map .ok ∧ bytes = parts.flatten ∧
        bytes.length ≤ maxBytes := by
  unfold readBodyWithLimit
  split
  · rename_i length longer
    obtain ⟨declared,longer⟩ := Option.filter_eq_some_iff.mp longer
    simp only [reduceCtorEq,false_iff,not_and]
    intro all
    exact absurd (all length declared) (Nat.not_le.mpr (of_decide_eq_true longer))
  · rename_i fine
    rw [chunksRead (Nat.zero_le _)]
    refine ⟨fun read => ⟨fun length declared => ?_,by simpa using read⟩,
      fun read => by simpa using read.2⟩
    rw [declared,Option.filter_some] at fine
    by_contra longer
    rw [if_pos (decide_eq_true (Nat.not_le.mp longer))] at fine
    cases fine

theorem addressesChecked {config : SinkConfig} {safeUrl : String} {addrs : List IpAddr} :
    checkAddresses config safeUrl addrs = .ok () ↔
      ∀ addr ∈ addrs, config.fetchPolicy.checkResolvedIp addr = .ok () := by
  induction addrs with
  | nil => simp [checkAddresses]
  | cons addr rest ih =>
    simp only [checkAddresses,List.forall_mem_cons]
    cases checked : config.fetchPolicy.checkResolvedIp addr with
    | error err => simp
    | ok done => simpa using ih

section Vetted
variable {F : Type}

structure Vetted (config : SinkConfig) (world : World F) (url : String)
    (expectedSha256 : Option String) (bytes : Bytes) : Prop where
  policy : ∃ parsed, config.fetchPolicy.validate world.parse url = .ok parsed ∧
    ∀ addr ∈ resolved world url parsed, config.fetchPolicy.checkResolvedIp addr = .ok ()
  served : ∃ response, world.get url = .ok response ∧ response.isRedirection = false ∧
    response.isError = false ∧
    (∀ length, response.contentLength = some length → length ≤ config.maxBodyBytes) ∧
    ∃ parts : List Bytes, response.chunks = parts.map .ok ∧ bytes = parts.flatten
  size : bytes.length ≤ config.maxBodyBytes
  digest : ∀ expected, expectedSha256 = some expected → config.hexSha256 bytes = lowercase expected

theorem downloadVetted {config : SinkConfig} {world : World F} {url : String}
    {expectedSha256 : Option String} {bytes : Bytes} :
    download config world url expectedSha256 = .ok bytes ↔
      Vetted config world url expectedSha256 bytes := by
  have verified : verifyExpected config.hexSha256 bytes (redactUrl url) expectedSha256 = .ok () ↔
      ∀ expected, expectedSha256 = some expected → config.hexSha256 bytes = lowercase expected := by
    cases expectedSha256 with
    | none => simp [verifyExpected]
    | some expected => simp [verifyExpected,verifySha256,refuseOk]
  simp only [download,bindOk,mapErrorOk]
  constructor
  · rintro ⟨parsed,valid,⟨⟩,checked,response,got,⟨⟩,stays,⟨⟩,fine,read,body,⟨⟩,digest,same⟩
    obtain rfl := Except.ok.inj same
    obtain ⟨declared,parts,chunks,whole,size⟩ := bodyRead.mp body
    exact ⟨⟨parsed,valid,addressesChecked.mp checked⟩,⟨response,got,refuseOk.mp stays,refuseOk.mp fine,
      declared,parts,chunks,whole⟩,size,verified.mp digest⟩
  · rintro ⟨⟨parsed,valid,checked⟩,⟨response,got,stays,fine,declared,parts,chunks,whole⟩,size,digest⟩
    exact ⟨parsed,valid,(),addressesChecked.mpr checked,response,got,(),refuseOk.mpr stays,(),
      refuseOk.mpr fine,bytes,bodyRead.mpr ⟨declared,parts,chunks,whole,size⟩,(),
      verified.mpr digest,rfl⟩

theorem decodedSome {world : World F} {bytes : Bytes} {samples : List F}
    (decoded : decodeAudioBytes world bytes = .ok samples) :
    world.decode bytes = .ok samples ∧ samples ≠ [] := by
  unfold decodeAudioBytes at decoded
  cases read : world.decode bytes with
  | error text =>
    rw [read] at decoded
    cases decoded
  | ok found =>
    rw [read] at decoded
    obtain ⟨done,kept,rfl⟩ := mapOk.mp decoded
    exact ⟨rfl,fun empty => by simp [refuseIf,empty] at kept⟩

theorem remoteLoaded {config : SinkConfig} {world : World F} {url : String}
    {expectedSha256 : Option String} {clip : PlayableAudio F}
    (loads : loadSource config world (.remoteUrl url expectedSha256) = .ok clip) :
    ∃ bytes samples, Vetted config world url expectedSha256 bytes ∧
      world.decode bytes = .ok samples ∧ samples ≠ [] ∧ clip = ⟨samples,false⟩ := by
  obtain ⟨bytes,downloaded,decoded⟩ := bindOk.mp loads
  obtain ⟨samples,found,rfl⟩ := mapOk.mp decoded
  obtain ⟨decoded,some_⟩ := decodedSome found
  exact ⟨bytes,samples,downloadVetted.mp downloaded,decoded,some_,rfl⟩

end Vetted

section Sinks
open PiSink (Call Load Outcome Sink Task)
variable {F : Type}

structure Play (F : Type) where
  source : AudioRef
  world : World F

def Play.load (config : SinkConfig) (play : Play F) : Load where
  source := play.source
  failure := match loadSource config play.world play.source with
    | .ok _ => none
    | .error error => some error

structure Clip (F : Type) where
  play : Play F
  playable : PlayableAudio F

/- The sink with the clips of its tasks; `plays` is a history of the calls of `play`, of which
only the last one can still be loading. -/
structure Player (F : Type) where
  sink : Sink
  plays : List (Play F)
  clips : List (Clip F)

inductive PlayerLabel (F : Type) where
  | play (play : Play F)
  | stop
  | waitForEnd
  | resume
  | dropWait
  | finish (task : Nat)
  | exit (task : Nat) (outcome : Outcome)

def PlayerLabel.sink (config : SinkConfig) : PlayerLabel F → PiSink.Label
  | .play call => .play (call.load config)
  | .stop => .stop
  | .waitForEnd => .waitForEnd
  | .resume => .resume
  | .dropWait => .dropWait
  | .finish task => .finish task
  | .exit task outcome => .exit task outcome

namespace Player
variable (config : SinkConfig)

def new : Player F := ⟨.new,[],[]⟩

def spawned (p : Player F) : List (Clip F) :=
  match p.sink.call, p.plays.getLast? with
  | .loading _, some play =>
    match loadSource config play.world play.source with
    | .ok playable => [⟨play,playable⟩]
    | .error _ => []
  | _, _ => []

def step (p : Player F) (label : PlayerLabel F) : Option (Player F) :=
  (p.sink.step (label.sink config)).map fun sink =>
    match label with
    | .play play => { p with sink, plays := p.plays ++ [play] }
    | .resume => { p with sink, clips := p.clips ++ p.spawned config }
    | _ => { p with sink }

end Player

def waiting : Call → Option Load
  | .stopping _ next => next
  | .loading load => some load
  | _ => none

inductive Moves (s : Sink) (label : PiSink.Label) (t : Sink) : Prop where
  | spawns (load) (resumes : label = .resume) (loading : s.call = .loading load)
      (fine : load.failure = none)
      (tasks : t.tasks.map Task.source = s.tasks.map Task.source ++ [load.source])
      (none_ : waiting t.call = none)
  | stays (tasks : t.tasks.map Task.source = s.tasks.map Task.source)
      (later : ∀ load, waiting t.call = some load →
        s.call = .idle ∧ label = .play load ∨ label = .resume ∧ waiting s.call = some load ∨
          t.call = s.call ∧ ∀ other, label ≠ .play other)
      (fails : label = .resume → ∀ load, s.call = .loading load → load.failure ≠ none)

variable {s t : Sink}

theorem setSources {n : Nat} {change : Task → Task} (same : ∀ task, (change task).source = task.source) :
    (s.setTask n change).tasks.map Task.source = s.tasks.map Task.source := by
  refine List.ext_getElem? fun m => ?_
  simp only [Sink.setTask,List.getElem?_map,List.getElem?_modify]
  cases s.tasks[m]? with
  | none => rfl
  | some task =>
    simp only [Option.map_some,Option.map_eq_map]
    split
    · rw [same]
    · rfl

theorem afterStopLoads (failure : Option AudioError) (next : Option Load) :
    (s.afterStop failure next).tasks = s.tasks ∧
      ∀ load, waiting (s.afterStop failure next).call = some load → next = some load := by
  unfold Sink.afterStop
  split
  · exact ⟨rfl,fun _ later => (by cases later)⟩
  · split
    · exact ⟨rfl,fun _ later => later⟩
    · exact ⟨rfl,fun _ later => (by cases later)⟩

theorem stopLoads (next : Option Load) :
    (s.stop next).tasks.map Task.source = s.tasks.map Task.source ∧
      ∀ load, waiting (s.stop next).call = some load → next = some load := by
  unfold Sink.stop
  split
  · exact ⟨setSources fun _ => rfl,fun _ later => later⟩
  · obtain ⟨tasks,later⟩ := @afterStopLoads s none next
    exact ⟨congrArg _ tasks,later⟩

theorem Moves.silent {label : PiSink.Label}
    (tasks : t.tasks.map Task.source = s.tasks.map Task.source) (none_ : waiting t.call = none)
    (fails : label = .resume → ∀ load, s.call = .loading load → load.failure ≠ none) :
    Moves s label t :=
  .stays tasks (fun _ later => by rw [none_] at later; cases later) fails

theorem resumeMoves (resumed : ({ s with answered := none } : Sink).resume = some t) :
    Moves s .resume t := by
  unfold Sink.resume at resumed
  split at resumed
  · cases resumed
  · rename_i n next call
    obtain ⟨outcome,_,rfl⟩ := Option.map_eq_some_iff.mp resumed
    obtain ⟨tasks,later⟩ :=
      @afterStopLoads { s with answered := none } (PiSink.joinAudioTask outcome) next
    refine .stays (congrArg _ tasks) (fun load waits => .inr (.inl ⟨rfl,?_⟩)) fun _ _ other => ?_
    · rw [show s.call = _ from call]
      exact later load waits
    · cases call.symm.trans other
  · rename_i load call
    obtain rfl := Option.some.inj resumed
    unfold Sink.afterLoad
    split
    · rename_i fine
      exact .spawns load rfl call fine (by simp [Sink.spawn,Task.fresh]) rfl
    · rename_i error failed
      refine .silent rfl rfl fun _ other same => ?_
      obtain rfl := Call.loading.inj (call.symm.trans same)
      simp [failed]
  · rename_i n call
    split at resumed
    · obtain rfl := Option.some.inj resumed
      unfold Sink.afterEnd
      split <;> exact .silent rfl rfl fun _ _ other => (by cases call.symm.trans other)
    · cases resumed
  · rename_i n call
    obtain ⟨outcome,_,rfl⟩ := Option.map_eq_some_iff.mp resumed
    exact .silent rfl rfl fun _ _ other => (by cases call.symm.trans other)

theorem stepMoves {label : PiSink.Label} (stepped : s.step label = some t) : Moves s label t := by
  unfold Sink.step at stepped
  cases label with
  | play load =>
    simp only at stepped
    split at stepped <;> cases stepped
    rename_i idle
    obtain ⟨tasks,later⟩ := @stopLoads { s with answered := none, found := s.playback } (some load)
    refine .stays tasks (fun other waits => .inl ⟨idle,?_⟩) (by simp)
    rw [Option.some.inj (later other waits)]
  | stop =>
    simp only at stepped
    split at stepped <;> cases stepped
    obtain ⟨tasks,later⟩ := @stopLoads { s with answered := none, found := s.playback } none
    exact .stays tasks (fun other waits => absurd (later other waits) (by simp)) (by simp)
  | waitForEnd =>
    simp only at stepped
    split at stepped
    · rename_i idle
      split at stepped <;> cases stepped
      · exact .silent rfl rfl (by simp)
      · exact .silent rfl (by rw [idle]; rfl) (by simp)
    · cases stepped
  | resume => exact resumeMoves stepped
  | dropWait =>
    simp only at stepped
    split at stepped <;> cases stepped <;> exact .silent rfl rfl (by simp)
  | finish n =>
    simp only at stepped
    split at stepped
    · split at stepped <;> cases stepped
      exact .stays (setSources fun _ => rfl) (fun _ _ => .inr (.inr ⟨rfl,by simp⟩)) (by simp)
    · cases stepped
  | exit n outcome =>
    simp only at stepped
    split at stepped
    · split at stepped <;> cases stepped
      exact .stays (setSources fun _ => rfl) (fun _ _ => .inr (.inr ⟨rfl,by simp⟩)) (by simp)
    · split at stepped <;> cases stepped
      exact .stays (setSources fun _ => rfl) (fun _ _ => .inr (.inr ⟨rfl,by simp⟩)) (by simp)
    · cases stepped

structure Provided (config : SinkConfig) (p : Player F) : Prop where
  sources : p.clips.map (fun clip => clip.play.source) = p.sink.tasks.map Task.source
  loads : ∀ clip ∈ p.clips, loadSource config clip.play.world clip.play.source = .ok clip.playable
  own : (p.clips.map Clip.play).Sublist p.plays
  waits : ∀ load, waiting p.sink.call = some load → ∃ earlier play,
    p.plays = earlier ++ [play] ∧ load = play.load config ∧ (p.clips.map Clip.play).Sublist earlier

variable {config : SinkConfig} {p q : Player F}

theorem loadFine {play : Play F} (fine : (play.load config).failure = none) :
    ∃ playable, loadSource config play.world play.source = .ok playable := by
  unfold Play.load at fine
  cases loads : loadSource config play.world play.source with
  | ok playable => exact ⟨playable,rfl⟩
  | error error => simp [loads] at fine

theorem loadFails {play : Play F} (failed : (play.load config).failure ≠ none) :
    ∃ error, loadSource config play.world play.source = .error error := by
  unfold Play.load at failed
  cases loads : loadSource config play.world play.source with
  | ok playable => simp [loads] at failed
  | error error => exact ⟨error,rfl⟩

theorem keptProvided {sink : Sink} (before : Provided config p)
    (tasks : sink.tasks.map Task.source = p.sink.tasks.map Task.source)
    (later : ∀ load, waiting sink.call = some load → waiting p.sink.call = some load) :
    Provided config { p with sink } :=
  ⟨before.sources.trans tasks.symm,before.loads,before.own,
    fun load waits => before.waits load (later load waits)⟩

theorem otherProvided {sink : Sink} {label : PiSink.Label} (moves : Moves p.sink label sink)
    (stays : label ≠ .resume) (quiet : ∀ load, label ≠ .play load) (before : Provided config p) :
    Provided config { p with sink } := by
  cases moves with
  | spawns load resumes => exact absurd resumes stays
  | stays tasks later fails =>
    refine keptProvided before tasks fun load waits => ?_
    rcases later load waits with ⟨_,same⟩ | ⟨same,_⟩ | ⟨same,_⟩
    · exact absurd same (quiet load)
    · exact absurd same stays
    · rwa [same] at waits

theorem playProvided {sink : Sink} {play : Play F}
    (moves : Moves p.sink (.play (play.load config)) sink) (before : Provided config p) :
    Provided config { p with sink, plays := p.plays ++ [play] } := by
  cases moves with
  | spawns load resumes => cases resumes
  | stays tasks later fails =>
    refine ⟨before.sources.trans tasks.symm,before.loads,
      before.own.trans (List.sublist_append_left _ _),fun load waits => ?_⟩
    rcases later load waits with ⟨_,same⟩ | ⟨same,_⟩ | ⟨_,other⟩
    · exact ⟨p.plays,play,rfl,(PiSink.Label.play.inj same).symm,before.own⟩
    · cases same
    · exact absurd rfl (other _)

theorem resumeProvided {sink : Sink} (moves : Moves p.sink .resume sink)
    (before : Provided config p) :
    Provided config { p with sink, clips := p.clips ++ p.spawned config } := by
  cases moves with
  | spawns load resumes loading fine tasks none_ =>
    obtain ⟨earlier,play,plays,rfl,own⟩ := before.waits load (by rw [loading]; rfl)
    obtain ⟨playable,loads⟩ := loadFine fine
    have spawned : p.spawned config = [⟨play,playable⟩] := by
      simp only [Player.spawned,loading,plays,List.getLast?_concat,loads]
    rw [spawned]
    refine ⟨?_,fun clip mem => ?_,?_,fun _ waits => ?_⟩
    · rw [tasks,← before.sources,List.map_append]
      rfl
    · rcases List.mem_append.mp mem with earlier | new
      · exact before.loads clip earlier
      · obtain rfl := List.mem_singleton.mp new
        exact loads
    · simp only [plays,List.map_append]
      exact own.append (List.Sublist.refl _)
    · rw [none_] at waits
      cases waits
  | stays tasks later fails =>
    have spawned : p.spawned config = [] := by
      unfold Player.spawned
      split
      · rename_i load play loading last
        obtain ⟨earlier,same,plays,rfl,_⟩ := before.waits load (by rw [loading]; rfl)
        obtain ⟨error,failed⟩ := loadFails (fails rfl _ loading)
        rw [plays,List.getLast?_concat] at last
        cases last
        rw [failed]
      · rfl
    rw [spawned,List.append_nil]
    refine keptProvided before tasks fun load waits => ?_
    rcases later load waits with ⟨_,same⟩ | ⟨_,same⟩ | ⟨same,_⟩
    · cases same
    · exact same
    · rwa [same] at waits

theorem stepProvided {label : PlayerLabel F} (stepped : p.step config label = some q)
    (before : Provided config p) : Provided config q := by
  obtain ⟨sink,moved,rfl⟩ := Option.map_eq_some_iff.mp stepped
  have moves := stepMoves moved
  cases label with
  | play play => exact playProvided moves before
  | resume => exact resumeProvided moves before
  | stop | waitForEnd | dropWait | finish | exit =>
    exact otherProvided moves (by simp [PlayerLabel.sink]) (by simp [PlayerLabel.sink]) before

theorem sinkRuns {labels : List (PlayerLabel F)} (run : Transition.final (Player.step config) p labels = some q) :
    Transition.final Sink.step p.sink (labels.map (PlayerLabel.sink config)) = some q.sink := by
  have read := Transition.finalSimulates (Player.step config)
    (fun s label => Sink.step s (PlayerLabel.sink config label)) Player.sink (fun _ => True)
    (fun _ _ _ stepped _ => by
      obtain ⟨sink,moved,rfl⟩ := Option.map_eq_some_iff.mp stepped
      refine ⟨trivial,moved.trans (congrArg some ?_)⟩
      split <;> rfl) trivial run
  exact Transition.finalMap _ Sink.step (PlayerLabel.sink config) (fun _ _ _ same => same) read

/- Each playback task was spawned by a call of `play` of its own and plays what that call loaded;
of a remote clip, what the download decodes to that passed the policy, the addresses, the status,
the limit and the digest with that call's answers. It sounds from its start, then there is silence. -/
theorem onlyVettedSounds (ops : AudioStreams.Float32Ops F) {labels : List (PlayerLabel F)}
    (run : Transition.final (Player.step config) .new labels = some q) :
    Transition.final Sink.step .new (labels.map (PlayerLabel.sink config)) = some q.sink ∧
    q.clips.map (fun clip => clip.play.source) = q.sink.tasks.map Task.source ∧
    (q.clips.map Clip.play).Sublist q.plays ∧
    ∀ clip ∈ q.clips,
      loadSource config clip.play.world clip.play.source = .ok clip.playable ∧
      ∀ url expectedSha256, clip.play.source = .remoteUrl url expectedSha256 →
        (∃ bytes, Vetted config clip.play.world url expectedSha256 bytes ∧
          clip.play.world.decode bytes = .ok clip.playable.samples) ∧
        ∀ block stream u,
          Transition.final (AudioStreams.Speaker.step ops clip.playable) (.start ops block) stream =
            some u →
          ∃ n k, u.metered.seen = clip.playable.samples.take n ++ List.replicate k ops.zero := by
  have provided := Transition.finalInvariant (Player.step config) (Provided config)
    (fun _ _ _ stepped before => stepProvided stepped before)
    ⟨rfl,fun _ mem => (by cases mem),List.Sublist.refl _,fun _ waits => (by cases waits)⟩ run
  refine ⟨sinkRuns run,provided.sources,provided.own,fun clip mem => ⟨provided.loads clip mem,?_⟩⟩
  intro url expectedSha256 source
  have loads := provided.loads clip mem
  rw [source] at loads
  obtain ⟨bytes,samples,vetted,decoded,_,playable⟩ := remoteLoaded loads
  rw [playable]
  refine ⟨⟨bytes,vetted,decoded⟩,fun block stream u plays => ?_⟩
  obtain ⟨n,k,held,_⟩ := AudioStreams.Speaker.runPlays (AudioStreams.Speaker.startPlays block) plays
  exact ⟨n,k,held.written⟩

end Sinks

def cdnUrl : String := "https://cdn.example/q.flac"

def cdnWorld : World Int where
  parse raw := if raw = cdnUrl then .ok ⟨"https",some (.domain "cdn.example"),some "cdn.example"⟩
    else .error "relative URL without a base"
  portOrKnownDefault _ := some 443
  lookupHost _ := some [.v4 ⟨93,184,216,34⟩]
  get _ := .ok ⟨200,some 3,[.ok [1],.ok [2,3]]⟩
  statusText _ := "Not Found"
  stat _ := .error "no such file"
  read _ := .error "no such file"
  embedded _ := []
  decode bytes := .ok (bytes.map fun byte => byte.toNat)

def cdnConfig : SinkConfig := ⟨{},3,3,fun _ => "ab",fun _ => "93.184.216.34"⟩

/- The clip plays to its end; asked for it again, the server sends the caller elsewhere. -/
def playedTwice : List (PlayerLabel Int) :=
  [.play ⟨.remoteUrl cdnUrl (some "AB"),cdnWorld⟩,.resume,.finish 0,.exit 0 (.returned none),
    .play ⟨.remoteUrl cdnUrl (some "AB"),{ cdnWorld with get := fun _ => .ok ⟨302,some 0,[]⟩ }⟩,
    .resume,.resume]

theorem cdnClipVetted : ∃ q, Transition.final (Player.step cdnConfig) .new playedTwice = some q ∧
    q.plays.length = 2 ∧ q.clips.map (fun clip => clip.playable.samples) = [[1,2,3]] ∧
    ∀ clip ∈ q.clips, ∃ bytes, Vetted cdnConfig clip.play.world cdnUrl (some "AB") bytes ∧
      clip.play.world.decode bytes = .ok clip.playable.samples := by
  have run : (Transition.final (Player.step cdnConfig) .new playedTwice).map
      (fun q => (q.plays.length,q.clips.map fun clip => (clip.play.source,clip.playable.samples))) =
        some (2,[(.remoteUrl cdnUrl (some "AB"),[1,2,3])]) := by
    decide +kernel
  obtain ⟨q,ends_,same⟩ := Option.map_eq_some_iff.mp run
  obtain ⟨twice,clips⟩ := Prod.mk.inj same
  obtain ⟨clip,only,here⟩ := List.map_eq_singleton_iff.mp clips
  obtain ⟨source,samples⟩ := Prod.mk.inj here
  refine ⟨q,ends_,twice,by rw [only,← samples]; rfl,fun other mem => ?_⟩
  obtain rfl : other = clip := List.mem_singleton.mp (only ▸ mem)
  exact (((onlyVettedSounds AudioStreams.intOps ends_).2.2.2 other mem).2 cdnUrl (some "AB") source).1

end TelephoneBooth.ClipLoading
