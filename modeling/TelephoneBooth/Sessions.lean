import TelephoneBooth.Telemetry
import Mathlib.Data.List.Nodup

/-! Call sessions: the tracker reads state tags off the bus and announces when a call starts
and ends. It sees the core only through the tags, so what carries the proof is that the tags
of resting states, and no others, count as idle. -/
namespace TelephoneBooth
open State Event Effect

inductive SessionPhase where
  | prompt | recording | uploading | recordingDone | recordingFailed | operatorErrorPhase
  deriving DecidableEq, Repr

structure LiveSession where
  id : String
  phase : SessionPhase
  digits : String
  deriving DecidableEq, Repr

structure SessionTracker where
  current : Option LiveSession
  drawn : Nat
  deriving DecidableEq, Repr

def SessionTracker.new : SessionTracker := ⟨none,0⟩

def SessionTracker.currentSessionId (t : SessionTracker) : Option String := t.current.map (·.id)

def idleTag (tag : String) : Bool := tag == "idle" || tag == "calls_paused"

def phaseAt (target : String) (phase : SessionPhase) : SessionPhase :=
  match target with
  | "recording" => .recording
  | "uploading" | "uploading_timeout" => .uploading
  | "error" => .operatorErrorPhase
  | _ => phase

def outcomeAt (target : String) (session : LiveSession) : CallOutcome :=
  if target = "calls_paused" ∧
      (session.phase = .prompt ∨ session.phase = .recording ∨ session.phase = .uploading) then
    .aborted
  else match session.phase with
    | .prompt => if session.digits.isEmpty then .hungUpBeforeDial else .hungUpDuringPrompt
    | .recording => .hungUpDuringRecording
    | .uploading => .hungUpDuringUpload
    | .recordingDone => .recordingCompleted
    | .recordingFailed => .uploadFailed
    | .operatorErrorPhase => .operatorError

section Observing
variable (uuid : Nat → String)

def openSession (t : SessionTracker) (source target : String) :
    SessionTracker × List TelemetryEvent :=
  if idleTag source && !idleTag target && t.current.isNone then
    (⟨some ⟨uuid t.drawn,.prompt,""⟩,t.drawn + 1⟩,[.callStarted (uuid t.drawn)])
  else (t,[])

def enterPhase (t : SessionTracker) (target : String) : SessionTracker :=
  { t with current := t.current.map fun session =>
      { session with phase := phaseAt target session.phase } }

def closeSession (t : SessionTracker) (source target : String) :
    SessionTracker × List TelemetryEvent :=
  if !idleTag source && idleTag target then
    match t.current with
    | some session =>
      ({ t with current := none },[.callEnded session.id (outcomeAt target session) session.digits])
    | none => (t,[])
  else (t,[])

def SessionTracker.observe (t : SessionTracker) : TelemetryEvent → SessionTracker × List TelemetryEvent
  | .stateTransition source target =>
    let opened := openSession uuid t source target
    let closed := closeSession (enterPhase opened.1 target) source target
    (closed.1,opened.2 ++ closed.2)
  | .digitDialed digit _ =>
    ({ t with current := t.current.map fun session =>
        { session with digits := session.digits ++ toString digit } },[])
  | .uploadCompleted =>
    ({ t with current := t.current.map fun session => { session with phase := .recordingDone } },[])
  | .uploadFailed =>
    ({ t with current := t.current.map fun session => { session with phase := .recordingFailed } },[])
  | _ => (t,[])

def announced (t : SessionTracker) : List TelemetryEvent → List TelemetryEvent
  | [] => []
  | record :: rest => (t.observe uuid record).2 ++ announced (t.observe uuid record).1 rest

end Observing

/-- Reads a list of announcements from the session open before it to the one open after it;
`none` where starts and ends do not alternate or an end carries another session's id. -/
def bracketed : Option String → List TelemetryEvent → Option (Option String)
  | open_, [] => some open_
  | none, .callStarted id :: rest => bracketed (some id) rest
  | some id, .callEnded ended _ _ :: rest => if ended = id then bracketed none rest else none
  | _, _ => none

def startedId : TelemetryEvent → Option String
  | .callStarted id => some id
  | _ => none

inductive Boundary where
  | enters | leaves
  deriving DecidableEq, Repr

def boundaryOf : TelemetryEvent → Option Boundary
  | .callStarted _ => some .enters
  | .callEnded _ _ _ => some .leaves
  | _ => none

def boundary (before after : State) : List Boundary :=
  if before.resting && !after.resting then [.enters]
  else if !before.resting && after.resting then [.leaves]
  else []

def boundaries (state : State) : List Input → List Boundary
  | [] => []
  | i :: rest => boundary state (coreStep state i).1 ++ boundaries (coreStep state i).1 rest

theorem restingTag (state : State) : idleTag state.tag = state.resting := by
  cases state <;> rfl

inductive SessionTurn (uuid : Nat → String) (t t' : SessionTracker) : List TelemetryEvent →
    List Boundary → Prop where
  | same (id : t'.currentSessionId = t.currentSessionId) (drawn : t'.drawn = t.drawn) :
      SessionTurn uuid t t' [] []
  | starts (idle_ : t.currentSessionId = none)
      (id : t'.currentSessionId = some (uuid t.drawn)) (drawn : t'.drawn = t.drawn + 1) :
      SessionTurn uuid t t' [.callStarted (uuid t.drawn)] [.enters]
  | ends (id : String) (outcome : CallOutcome) (digits : String)
      (live : t.currentSessionId = some id) (over_ : t'.currentSessionId = none)
      (drawn : t'.drawn = t.drawn) :
      SessionTurn uuid t t' [.callEnded id outcome digits] [.leaves]

def Tracks (t : SessionTracker) (state : State) : Prop :=
  t.currentSessionId.isSome = !state.resting

theorem mapKeepsId (current : Option LiveSession) (f : LiveSession → LiveSession)
    (keeps : ∀ session, (f session).id = session.id) :
    (current.map f).map (·.id) = current.map (·.id) := by
  rw [Option.map_map]
  exact congrArg (fun g => current.map g) (funext keeps)

theorem observeOther (uuid : Nat → String) (t : SessionTracker) {record : TelemetryEvent}
    (other : isTransition record = false) :
    SessionTurn uuid t (t.observe uuid record).1 (t.observe uuid record).2 [] ∧
      (t.observe uuid record).1.currentSessionId = t.currentSessionId := by
  cases record with
  | stateTransition => cases other
  | digitDialed | uploadCompleted | uploadFailed =>
    exact ⟨.same (mapKeepsId _ _ fun _ => rfl) rfl,mapKeepsId _ _ fun _ => rfl⟩
  | _ => exact ⟨.same rfl rfl,rfl⟩

theorem observeTags (uuid : Nat → String) (t : SessionTracker) (source target : String) :
    t.observe uuid (.stateTransition source target) =
      let opened := openSession uuid t source target
      let closed := closeSession (enterPhase opened.1 target) source target
      (closed.1,opened.2 ++ closed.2) := rfl

theorem observeTransition (uuid : Nat → String) {t : SessionTracker} {state : State}
    (after : State) (tracks : Tracks t state) :
    SessionTurn uuid t (t.observe uuid (.stateTransition state.tag after.tag)).1
        (t.observe uuid (.stateTransition state.tag after.tag)).2 (boundary state after) ∧
      Tracks (t.observe uuid (.stateTransition state.tag after.tag)).1 after := by
  obtain ⟨current,drawn⟩ := t
  unfold Tracks SessionTracker.currentSessionId at tracks
  cases current with
  | none =>
    have idle_ : state.resting = true := by
      cases resting : state.resting <;> simp [resting] at tracks ⊢
    cases rests : after.resting with
    | true =>
      simp only [observeTags,openSession,closeSession,enterPhase,restingTag,boundary,Tracks,
        idle_,rests]
      exact ⟨.same rfl rfl,rfl⟩
    | false =>
      simp only [observeTags,openSession,closeSession,enterPhase,restingTag,boundary,Tracks,
        idle_,rests]
      exact ⟨.starts rfl rfl rfl,rfl⟩
  | some session =>
    have busy : state.resting = false := by
      cases resting : state.resting <;> simp [resting] at tracks ⊢
    cases rests : after.resting with
    | true =>
      simp only [observeTags,openSession,closeSession,enterPhase,restingTag,boundary,Tracks,
        busy,rests]
      exact ⟨.ends _ _ _ rfl rfl rfl,rfl⟩
    | false =>
      simp only [observeTags,openSession,closeSession,enterPhase,restingTag,boundary,Tracks,
        busy,rests]
      exact ⟨.same rfl rfl,rfl⟩

theorem bracketedNil (open_ : Option String) : bracketed open_ [] = some open_ := by
  cases open_ <;> rfl

structure Brackets (uuid : Nat → String) (t t' : SessionTracker) (told : List TelemetryEvent)
    (ends_ : List Boundary) : Prop where
  alternate : bracketed t.currentSessionId told = some t'.currentSessionId
  matching : told.filterMap boundaryOf = ends_
  older : t.drawn ≤ t'.drawn
  ids : ∀ id ∈ told.filterMap startedId, ∃ k, t.drawn ≤ k ∧ k < t'.drawn ∧ id = uuid k
  once : (Function.Injective uuid) → (told.filterMap startedId).Nodup

theorem turnBrackets {uuid : Nat → String} {t t' u : SessionTracker}
    {told rest : List TelemetryEvent} {here there : List Boundary}
    (turn : SessionTurn uuid t t' told here) (later : Brackets uuid t' u rest there) :
    Brackets uuid t u (told ++ rest) (here ++ there) := by
  obtain ⟨alternate,matching,older,ids,once⟩ := later
  cases turn with
  | same id drawn =>
    rw [id] at alternate
    rw [drawn] at older ids
    exact ⟨alternate,matching,older,ids,once⟩
  | starts idle_ id drawn =>
    rw [id] at alternate
    rw [drawn] at older ids
    refine ⟨?_,?_,by omega,?_,?_⟩
    · rw [idle_]
      exact alternate
    · exact congrArg (.enters :: ·) matching
    · intro name mem
      rcases List.mem_cons.mp mem with rfl | mem
      · exact ⟨t.drawn,le_rfl,by omega,rfl⟩
      · obtain ⟨k,low,high,same⟩ := ids name mem
        exact ⟨k,by omega,high,same⟩
    · intro fresh
      refine List.nodup_cons.mpr ⟨?_,once fresh⟩
      intro mem
      obtain ⟨k,low,_,same⟩ := ids _ mem
      have := fresh same
      omega
  | ends id outcome digits live over_ drawn =>
    rw [over_] at alternate
    rw [drawn] at older ids
    refine ⟨?_,?_,older,ids,once⟩
    · rw [live]
      show (if id = id then _ else _) = _
      rw [if_pos rfl]
      exact alternate
    · exact congrArg (.leaves :: ·) matching

theorem feedBrackets (uuid : Nat → String) {feed : List TelemetryEvent} {t : SessionTracker}
    {state : State} {inputs : List Input} (tracks : Tracks t state)
    (moves : feed.filter isTransition = transitions state inputs) :
    Brackets uuid t (Machine.run (SessionTracker.observe uuid) t feed) (announced uuid t feed)
        (boundaries state inputs) ∧
      Tracks (Machine.run (SessionTracker.observe uuid) t feed) (coreRun state inputs) := by
  induction feed generalizing t state inputs with
  | nil =>
    cases inputs with
    | nil =>
      exact ⟨⟨bracketedNil _,rfl,le_rfl,fun _ mem => (List.not_mem_nil mem).elim,
        fun _ => List.nodup_nil⟩,tracks⟩
    | cons => cases moves
  | cons record rest ih =>
    cases kind : isTransition record with
    | false =>
      rw [List.filter_cons_of_neg (by simp [kind])] at moves
      obtain ⟨turn,id⟩ := observeOther uuid t kind
      have still : Tracks (t.observe uuid record).1 state := by
        rw [Tracks,id]
        exact tracks
      obtain ⟨later,last⟩ := ih still moves
      exact ⟨turnBrackets turn later,last⟩
    | true =>
      rw [List.filter_cons_of_pos kind] at moves
      cases inputs with
      | nil => cases moves
      | cons i inputs =>
        have same := List.head_eq_of_cons_eq moves
        have onward := List.tail_eq_of_cons_eq moves
        subst same
        obtain ⟨turn,next⟩ := observeTransition uuid (coreStep state i).1 tracks
        obtain ⟨later,last⟩ := ih next onward
        exact ⟨turnBrackets turn later,last⟩

/- Over a run from `Idle` or `CallsPaused` and any feed that carries its records, the tracker
has a session open exactly outside those states, starts and ends alternate and carry one id a
pair, no id serves two pairs, and the pairs are the maximal stretches of calling states. -/
theorem sessionsBracketCalls {uuid : Nat → String} (fresh : Function.Injective uuid)
    {state : State} (initial : state.resting = true) (inputs : List Input)
    {feed : List TelemetryEvent} (feeds : Feeds feed state inputs) :
    let tracker := Machine.run (SessionTracker.observe uuid) .new feed
    let told := announced uuid .new feed
    (tracker.currentSessionId.isSome = true ↔ (coreRun state inputs).resting = false) ∧
      bracketed none told = some tracker.currentSessionId ∧
      (told.filterMap startedId).Nodup ∧
      told.filterMap boundaryOf = boundaries state inputs := by
  have tracks : Tracks .new state := by simp [Tracks,SessionTracker.new,
    SessionTracker.currentSessionId,initial]
  obtain ⟨brackets,last⟩ := feedBrackets uuid tracks (feedTransitions feeds)
  refine ⟨?_,brackets.alternate,brackets.once fresh,brackets.matching⟩
  rw [last]
  cases (coreRun state inputs).resting <;> simp

def sampleUuid (n : Nat) : String := String.ofList (List.replicate n '0')

theorem sampleUuidFresh : Function.Injective sampleUuid := by
  intro m n same
  have lengths := congrArg String.length same
  simpa [sampleUuid,String.length_ofList] using lengths

def callAgain : List Input := [hookOff,hookOn,hookOff,rotaryPulse].map fun event => (event,true)

theorem callAgainBracketed :
    bracketed none (announced sampleUuid .new (.other :: publishedBy idle callAgain)) =
      some (Machine.run (SessionTracker.observe sampleUuid) .new
        (.other :: publishedBy idle callAgain)).currentSessionId := by
  have feeds : Feeds (.other :: publishedBy idle callAgain) idle callAgain := by decide
  exact (sessionsBracketCalls sampleUuidFresh rfl callAgain feeds).2.1

end TelephoneBooth
