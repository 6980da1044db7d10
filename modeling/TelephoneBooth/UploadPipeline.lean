import TelephoneBooth.Durability
import TelephoneBooth.Retry
import TelephoneBooth.StatusWrites

/-! One `upload_recording` with both of its retry loops: `retry_operator` around each of the three
operator calls, and `put_recording`'s own loop inside the blob transfer. -/
namespace TelephoneBooth.UploadPipeline

def uploadRetries : Nat := 3

inductive UploadError where
  | invalidUrl (detail : String)
  | io (detail : String)
  | transport (detail : String)
  | http (status : UInt16) (body : String)
  | duplicateRecording (detail : String)
  deriving DecidableEq, Repr

structure BodyReader where
  errorCode : String → Option String
  maxBytes : String → Option Nat

def mapOperatorErrorBody (json : BodyReader) (status : UInt16) (body : String) : OperatorError :=
  let short := String.ofList (body.toList.take 512)
  if status = 400 then .invalidArgument short
  else if status = 401 then
    .unauthorized "operator token was rejected; rotate the configured API token"
  else if status = 409 then
    if json.errorCode body = some "installation_inactive" then .installationInactive short
    else if json.errorCode body = some "message_already_exists" then .duplicateRecording short
    else .conflict short
  else if status = 413 then .payloadTooLarge (json.maxBytes body) short
  else if status = 422 then .unprocessable short
  else .server status short

def operatorError (json : BodyReader) : UploadError → OperatorError
  | .invalidUrl detail | .io detail | .transport detail => .transport detail
  | .duplicateRecording detail => .duplicateRecording detail
  | .http status body => mapOperatorErrorBody json status body

/- How one turn of `put_recording` goes. `refused` is everything that fails before a request: the
URL, the file's size against the cap, opening the file. -/
inductive PutReply where
  | refused (error : UploadError)
  | accepted
  | rejected (status : UInt16) (body : String)
  | failed (detail : String)
  deriving DecidableEq, Repr

def isRetryableUploadStatus (status : UInt16) : Bool :=
  decide (status = 408 ∨ status = 409 ∨ status = 425 ∨ status = 429 ∨ 500 ≤ status ∧ status ≤ 599)

inductive Next (α : Type) where
  | again
  | returns (result : α)

/- Attempts are counted from zero. -/
def putNext (attempt : Nat) : PutReply → Next (Option UploadError)
  | .refused error => .returns (some error)
  | .accepted => .returns none
  | .rejected status body =>
    if status = 409 ∧ attempt = uploadRetries then .returns (some (.duplicateRecording body))
    else if isRetryableUploadStatus status = false ∨ attempt = uploadRetries then
      .returns (some (.http status body))
    else .again
  | .failed detail => if attempt = uploadRetries then .returns (some (.transport detail)) else .again

/- Attempts are counted from one. -/
def retryNext (attempt : Nat) : Option OperatorError → Next (Option OperatorError)
  | none => .returns none
  | some error =>
    if attempt = operatorAttempts ∨ isRetryableOperatorError error = false then .returns (some error)
    else .again

inductive Answer where
  | operator (error : Option OperatorError)
  | put (reply : PutReply)
  deriving DecidableEq, Repr

/- `sent` is a history: the calls made so far with their answers. -/
structure UploadRun where
  call : UploadCall
  attempt : Nat
  putAttempt : Nat
  outcome : Option UploadOutcome
  sent : List (UploadCall × Answer)
  deriving DecidableEq

namespace UploadRun
variable (json : BodyReader) (bytes : Nat) (durationMs : Option Nat)

def begin_ : UploadRun :=
  match uploadCall bytes durationMs none .validate with
  | .call next => ⟨next,1,0,none,[]⟩
  | .finished outcome => ⟨.validate,1,0,some outcome,[]⟩

def replied (r : UploadRun) (reply : Option OperatorError) : UploadRun :=
  match retryNext r.attempt reply with
  | .again => { r with attempt := r.attempt + 1, putAttempt := 0 }
  | .returns result =>
    match uploadCall bytes durationMs result r.call with
    | .call next => ⟨next,1,0,none,r.sent⟩
    | .finished outcome => ⟨r.call,1,0,some outcome,r.sent⟩

def record (r : UploadRun) (answer : Answer) : UploadRun :=
  { r with sent := r.sent ++ [(r.call,answer)] }

def step (r : UploadRun) : Answer → Option UploadRun
  | .operator reply =>
    if r.outcome = none ∧ r.call ≠ .put then
      some ((r.record (.operator reply)).replied bytes durationMs reply)
    else none
  | .put reply =>
    if r.outcome = none ∧ r.call = .put then
      match putNext r.putAttempt reply with
      | .again => some { r.record (.put reply) with putAttempt := r.putAttempt + 1 }
      | .returns result =>
        some ((r.record (.put reply)).replied bytes durationMs (result.map (operatorError json)))
    else none

structure Stage where
  call : UploadCall
  outcome : Option UploadOutcome
  deriving DecidableEq

def settle (s : Stage) (reply : Option OperatorError) : Option Stage :=
  match s.outcome with
  | some _ => none
  | none =>
    match uploadCall bytes durationMs reply s.call with
    | .call next => some ⟨next,none⟩
    | .finished outcome => some ⟨s.call,some outcome⟩

def operatorAgain (reply : Option OperatorError) : Bool := reply.any isRetryableOperatorError

def putAgain : Answer → Bool
  | .put (.rejected status _) => isRetryableUploadStatus status
  | .put (.failed _) => true
  | _ => false

def reply : Answer → Option OperatorError
  | .operator error => error
  | .put (.refused error) => some (operatorError json error)
  | .put .accepted => none
  | .put (.rejected status body) =>
    some (operatorError json (if status = 409 then .duplicateRecording body else .http status body))
  | .put (.failed detail) => some (operatorError json (.transport detail))

def fits (s : Stage) : Answer → Bool
  | .operator _ => decide (s.call ≠ .put)
  | .put _ => decide (s.call = .put)

abbrev operatorStep : Stage × Nat → Option OperatorError → Option (Stage × Nat) :=
  Retry.retried operatorAgain operatorAttempts (settle bytes durationMs)

def answered (s : Stage × Nat) (answer : Answer) : Option (Stage × Nat) :=
  if fits s.1 answer then operatorStep bytes durationMs s (reply json answer) else none

abbrev putStep : (Stage × Nat) × Nat → Answer → Option ((Stage × Nat) × Nat) :=
  Retry.retried putAgain (uploadRetries + 1) (answered json bytes durationMs)

def loops (r : UploadRun) : (Stage × Nat) × Nat := ((⟨r.call,r.outcome⟩,r.attempt),r.putAttempt + 1)

structure Sound (r : UploadRun) : Prop where
  attempts : 1 ≤ r.attempt ∧ r.attempt ≤ operatorAttempts
  putAttempts : r.putAttempt ≤ uploadRetries
  rests : r.outcome ≠ none → r.attempt = 1 ∧ r.putAttempt = 0

theorem retryNextAsks {attempt : Nat} (bounded : attempt ≤ operatorAttempts)
    (reply : Option OperatorError) :
    retryNext attempt reply =
      if Retry.asks operatorAgain operatorAttempts attempt reply then .again else .returns reply := by
  cases reply with
  | none => rfl
  | some error =>
    unfold retryNext Retry.asks operatorAgain
    cases retryable : isRetryableOperatorError error with
    | false => simp [retryable]
    | true =>
      have other : attempt = operatorAttempts ↔ ¬ attempt < operatorAttempts := by omega
      by_cases more : attempt < operatorAttempts <;> simp [retryable,other,more]

theorem putNextAsks {attempt : Nat} (bounded : attempt ≤ uploadRetries) (turn : PutReply) :
    putNext attempt turn =
      if Retry.asks putAgain (uploadRetries + 1) (attempt + 1) (.put turn) then .again
      else .returns (match turn with
        | .refused error => some error
        | .accepted => none
        | .rejected status body =>
          some (if status = 409 then .duplicateRecording body else .http status body)
        | .failed detail => some (.transport detail)) := by
  have other : attempt = uploadRetries ↔ ¬ attempt < uploadRetries := by omega
  cases turn with
  | refused error => rfl
  | accepted => rfl
  | failed detail =>
    by_cases more : attempt < uploadRetries <;> simp [putNext,Retry.asks,putAgain,other,more]
  | rejected status body =>
    by_cases conflict : status = 409
    · subst conflict
      by_cases more : attempt < uploadRetries <;>
        simp [putNext,Retry.asks,putAgain,isRetryableUploadStatus,other,more]
    · cases retryable : isRetryableUploadStatus status with
      | false => simp [putNext,Retry.asks,putAgain,conflict,retryable]
      | true =>
        by_cases more : attempt < uploadRetries <;>
          simp [putNext,Retry.asks,putAgain,conflict,retryable,other,more]

variable {json bytes durationMs}

inductive Replied (bytes : Nat) (durationMs : Option Nat) (r : UploadRun)
    (result : Option OperatorError) : UploadRun → Prop where
  | again (asks : Retry.asks operatorAgain operatorAttempts r.attempt result = true)
      (room : r.attempt < operatorAttempts) :
      Replied bytes durationMs r result { r with attempt := r.attempt + 1, putAttempt := 0 }
  | next (asks : Retry.asks operatorAgain operatorAttempts r.attempt result = false) (call)
      (done : uploadCall bytes durationMs result r.call = .call call) :
      Replied bytes durationMs r result ⟨call,1,0,none,r.sent⟩
  | finished (asks : Retry.asks operatorAgain operatorAttempts r.attempt result = false) (outcome)
      (done : uploadCall bytes durationMs result r.call = .finished outcome) :
      Replied bytes durationMs r result ⟨r.call,1,0,some outcome,r.sent⟩

theorem repliedCases {r : UploadRun} (bounded : r.attempt ≤ operatorAttempts)
    (result : Option OperatorError) :
    Replied bytes durationMs r result (r.replied bytes durationMs result) := by
  unfold replied
  rw [retryNextAsks bounded]
  cases asks : Retry.asks operatorAgain operatorAttempts r.attempt result with
  | true =>
    have room : r.attempt < operatorAttempts := by
      unfold Retry.asks at asks
      simpa using (Bool.and_eq_true_iff.mp asks).2
    exact .again asks room
  | false =>
    simp only [Bool.false_eq_true,if_false]
    cases done : uploadCall bytes durationMs result r.call with
    | call call => exact .next asks call done
    | finished outcome => exact .finished asks outcome done

theorem repliedSound {r t : UploadRun} {result : Option OperatorError} (running : r.outcome = none)
    (replied : Replied bytes durationMs r result t) : Sound t := by
  cases replied with
  | again asks room =>
    exact ⟨⟨Nat.succ_le_succ (Nat.zero_le _),room⟩,Nat.zero_le _,fun done => absurd running done⟩
  | next | finished =>
    exact ⟨⟨Nat.le_refl 1,(by decide : 1 ≤ operatorAttempts)⟩,Nat.zero_le _,fun _ => ⟨rfl,rfl⟩⟩

theorem repliedStep {r t : UploadRun} {result : Option OperatorError} (running : r.outcome = none)
    (replied : Replied bytes durationMs r result t) :
    operatorStep bytes durationMs (⟨r.call,r.outcome⟩,r.attempt) result =
      some (⟨t.call,t.outcome⟩,t.attempt) ∧ t.putAttempt = 0 := by
  unfold operatorStep settle
  rw [Retry.retriedEq,running]
  cases replied with
  | again asks room =>
    rw [asks]
    cases uploadCall bytes durationMs result r.call <;> simp [running]
  | next asks call done | finished asks outcome done =>
    rw [asks]
    simp [done]

inductive Steps (json : BodyReader) (bytes : Nat) (durationMs : Option Nat) (r : UploadRun) :
    Answer → UploadRun → Prop where
  | result (answer t) (running : r.outcome = none) (fits : fits ⟨r.call,none⟩ answer = true)
      (done : Retry.asks putAgain (uploadRetries + 1) (r.putAttempt + 1) answer = false)
      (replied : Replied bytes durationMs (r.record answer) (reply json answer) t) :
      Steps json bytes durationMs r answer t
  | turn (turn) (running : r.outcome = none) (put : r.call = .put)
      (asks : Retry.asks putAgain (uploadRetries + 1) (r.putAttempt + 1) (.put turn) = true)
      (room : r.putAttempt < uploadRetries) :
      Steps json bytes durationMs r (.put turn)
        { r.record (.put turn) with putAttempt := r.putAttempt + 1 }

theorem stepCases {r t : UploadRun} {answer : Answer} (sound : Sound r)
    (stepped : r.step json bytes durationMs answer = some t) :
    Steps json bytes durationMs r answer t := by
  cases answer with
  | operator result =>
    simp only [step] at stepped
    split at stepped <;> cases stepped
    rename_i may
    exact .result _ _ may.1 (decide_eq_true may.2) rfl
      (repliedCases (r := r.record _) sound.attempts.2 result)
  | put turn =>
    simp only [step,putNextAsks sound.putAttempts] at stepped
    split at stepped <;> try cases stepped
    rename_i may
    cases asks : Retry.asks putAgain (uploadRetries + 1) (r.putAttempt + 1) (.put turn) with
    | true =>
      rw [asks] at stepped
      cases stepped
      have room : r.putAttempt < uploadRetries := by
        unfold Retry.asks at asks
        simpa using (Bool.and_eq_true_iff.mp asks).2
      exact .turn turn may.1 may.2 asks room
    | false =>
      rw [asks] at stepped
      cases stepped
      refine .result _ _ may.1 (decide_eq_true may.2) asks ?_
      have replied : Replied bytes durationMs (r.record (.put turn)) (reply json (.put turn))
          ((r.record (.put turn)).replied bytes durationMs (reply json (.put turn))) :=
        repliedCases (r := r.record (.put turn)) sound.attempts.2 _
      cases turn with
      | rejected | refused | accepted | failed => exact replied

theorem stepSound {r t : UploadRun} {answer : Answer} (sound : Sound r)
    (steps : Steps json bytes durationMs r answer t) : Sound t := by
  cases steps with
  | result answer t running fits done replied =>
    exact repliedSound (r := r.record answer) running replied
  | turn turn running put asks room =>
    exact ⟨sound.attempts,room,fun done => absurd running done⟩

theorem stepLoops {r t : UploadRun} {answer : Answer}
    (steps : Steps json bytes durationMs r answer t) :
    putStep json bytes durationMs r.loops answer = some t.loops := by
  unfold putStep loops
  rw [Retry.retriedEq]
  cases steps with
  | result answer t running fits done replied =>
    obtain ⟨same,fresh⟩ := repliedStep (r := r.record answer) running replied
    have here : answered json bytes durationMs (⟨r.call,r.outcome⟩,r.attempt) answer =
        some (⟨t.call,t.outcome⟩,t.attempt) := by
      unfold answered
      rw [running,if_pos fits,← same]
      simp only [record,running]
    rw [here,done,fresh]
    rfl
  | turn turn running put asks room =>
    unfold answered
    rw [asks,if_pos (by simp [fits,put]),operatorStep,Retry.retriedEq]
    simp only [settle,running]
    cases uploadCall bytes durationMs (reply json (.put turn)) r.call <;> simp [record,running]

theorem beginSound (bytes : Nat) (durationMs : Option Nat) : Sound (begin_ bytes durationMs) := by
  have fresh : Sound (begin_ bytes durationMs) ↔ True := by
    unfold begin_
    cases uploadCall bytes durationMs none .validate <;>
      exact iff_true_intro ⟨⟨Nat.le_refl 1,(by decide : 1 ≤ operatorAttempts)⟩,Nat.zero_le _,
        fun _ => ⟨rfl,rfl⟩⟩
  exact fresh.mpr trivial

theorem beginLoops (bytes : Nat) (durationMs : Option Nat) : (begin_ bytes durationMs).loops =
    ((⟨(begin_ bytes durationMs).call,(begin_ bytes durationMs).outcome⟩,1),1) := by
  unfold begin_ loops
  cases uploadCall bytes durationMs none .validate <;> rfl

/- Whatever the operator and the blob service answer, the code's two loops do what the three calls
with one reply each do: the answers fall into whole loops of at most four transfer turns and one
that still asks again, their results into whole loops of at most three attempts and one that still
asks again, and the last results drive the calls. A finished upload has no open loop. -/
theorem uploadRefinesCalls (json : BodyReader) (bytes : Nat) (durationMs : Option Nat)
    (answers : List Answer) (r : UploadRun)
    (ends_ : Transition.final (step json bytes durationMs) (begin_ bytes durationMs) answers = some r) :
    ∃ (turns : List (List Answer × Answer)) (left : List Answer)
      (calls : List (List (Option OperatorError) × Option OperatorError))
      (tries : List (Option OperatorError)),
      answers = (turns.map Prod.fst).flatten ++ left ∧
      (∀ turn ∈ turns, Retry.Loop putAgain (uploadRetries + 1) turn.1 turn.2) ∧
      Retry.Open putAgain (uploadRetries + 1) (r.putAttempt + 1) left ∧
      turns.map (fun turn => reply json turn.2) = (calls.map Prod.fst).flatten ++ tries ∧
      (∀ call ∈ calls, Retry.Loop operatorAgain operatorAttempts call.1 call.2) ∧
      Retry.Open operatorAgain operatorAttempts r.attempt tries ∧
      (r.outcome ≠ none → left = [] ∧ tries = []) ∧
      Transition.final (settle bytes durationMs)
        ⟨(begin_ bytes durationMs).call,(begin_ bytes durationMs).outcome⟩ (calls.map Prod.snd) =
          some ⟨r.call,r.outcome⟩ := by
  have keeps (s : UploadRun) (answer : Answer) (t : UploadRun)
      (stepped : s.step json bytes durationMs answer = some t) (sound : Sound s) :
      Sound t ∧ putStep json bytes durationMs s.loops answer = some t.loops :=
    ⟨stepSound sound (stepCases sound stepped),stepLoops (stepCases sound stepped)⟩
  have started := beginSound bytes durationMs
  have sound : Sound r := Transition.finalInvariant (step json bytes durationMs) Sound
    (fun s answer t stepped before => (keeps s answer t stepped before).1) started ends_
  have inner := Transition.finalSimulates (step json bytes durationMs) (putStep json bytes durationMs)
    loops Sound keeps started ends_
  rw [beginLoops] at inner
  obtain ⟨turns,left,split,wholeTurns,openTurns,outer⟩ :=
    Retry.retriedSplits (Nat.succ_le_succ (Nat.zero_le _))
      (Retry.Open.start (Nat.succ_le_succ (Nat.zero_le _))) inner
  have read := Transition.finalMap (answered json bytes durationMs) (operatorStep bytes durationMs)
    (reply json) (fun s answer t stepped => by
      unfold answered at stepped
      split at stepped
      · exact stepped
      · cases stepped) outer
  obtain ⟨calls,tries,results,wholeCalls,openCalls,coarse⟩ :=
    Retry.retriedSplits (by decide) (Retry.Open.start (by decide)) read
  rw [List.nil_append,List.map_map] at results
  refine ⟨turns,left,calls,tries,split,wholeTurns,openTurns,results,wholeCalls,openCalls,
    fun done => ?_,coarse⟩
  obtain ⟨attempt,putAttempt⟩ := sound.rests done
  exact ⟨openTurns.empty (congrArg Nat.succ putAttempt),openCalls.empty attempt⟩

def made (inits puts completes : Nat) : List UploadCall :=
  List.replicate inits .init ++ List.replicate puts .put ++ List.replicate completes .complete

def Counted (r : UploadRun) (inits puts completes : Nat) : Prop :=
  match r.call with
  | .validate => False
  | .init => puts = 0 ∧ completes = 0 ∧ inits + 1 = r.attempt
  | .put => completes = 0 ∧ puts ≤ 4 * (r.attempt - 1) + r.putAttempt
  | .complete => completes + 1 = r.attempt

structure Spent (json : BodyReader) (bytes : Nat) (durationMs : Option Nat) (r : UploadRun)
    (inits puts completes : Nat) : Prop where
  sent : r.sent.map Prod.fst = made inits puts completes
  bounded : inits ≤ 3 ∧ puts ≤ 12 ∧ completes ≤ 3
  counted : r.outcome = none → Counted r inits puts completes
  accepted : r.outcome = some .complete →
    ∃ last ∈ r.sent.getLast?, Accepted last.1 (reply json last.2)
  capped : validateUploadCaps bytes durationMs ≠ none → r.sent = [] ∧ r.outcome ≠ none

theorem callOrder {bytes : Nat} {durationMs : Option Nat} {result : Option OperatorError}
    {call next : UploadCall} (done : uploadCall bytes durationMs result call = .call next) :
    call = .validate ∧ next = .init ∨ call = .init ∧ next = .put ∨ call = .put ∧ next = .complete := by
  unfold uploadCall at done
  split at done <;> split at done <;> cases done <;> simp

theorem madeOneMore {r : UploadRun} {inits puts completes : Nat} (sound : Sound r)
    (counted : Counted r inits puts completes) (bounded : inits ≤ 3 ∧ puts ≤ 12 ∧ completes ≤ 3) :
    ∃ i p c, made inits puts completes ++ [r.call] = made i p c ∧ (i ≤ 3 ∧ p ≤ 12 ∧ c ≤ 3) ∧
      match r.call with
      | .validate => False
      | .init => p = 0 ∧ c = 0 ∧ i = r.attempt
      | .put => c = 0 ∧ p ≤ 4 * (r.attempt - 1) + r.putAttempt + 1
      | .complete => c = r.attempt := by
  obtain ⟨⟨low,high⟩,turns,_⟩ := sound
  unfold operatorAttempts at high
  unfold uploadRetries at turns
  unfold Counted at counted
  unfold made
  cases at_ : r.call <;> rw [at_] at counted
  · exact counted.elim
  · obtain ⟨rfl,rfl,same⟩ := counted
    exact ⟨inits + 1,0,0,by simp [List.replicate_succ'],by omega,rfl,rfl,same⟩
  · obtain ⟨rfl,few⟩ := counted
    exact ⟨inits,puts + 1,0,by simp [List.replicate_succ'],by omega,rfl,by omega⟩
  · exact ⟨inits,puts,completes + 1,by simp [List.replicate_succ'],by omega,counted⟩

theorem repliedCounted {r t : UploadRun} {result : Option OperatorError} {i p c : Nat}
    (sound : Sound r) (replied : Replied bytes durationMs r result t)
    (now : match r.call with
      | .validate => False
      | .init => p = 0 ∧ c = 0 ∧ i = r.attempt
      | .put => c = 0 ∧ p ≤ 4 * (r.attempt - 1) + r.putAttempt + 1
      | .complete => c = r.attempt) (running : t.outcome = none) : Counted t i p c := by
  obtain ⟨⟨low,high⟩,turns,_⟩ := sound
  unfold uploadRetries at turns
  cases replied with
  | again asks room =>
    cases at_ : r.call <;> simp only [at_] at now <;> simp only [Counted]
    · exact ⟨now.1,now.2.1,by omega⟩
    · exact ⟨now.1,by omega⟩
    · omega
  | next asks call done =>
    rcases callOrder done with ⟨at_,rfl⟩ | ⟨at_,rfl⟩ | ⟨at_,rfl⟩ <;> simp only [at_] at now
    · exact ⟨now.2.1,by omega⟩
    · show c + 1 = 1
      omega
  | finished asks outcome done => cases running

theorem stepSpent {r t : UploadRun} {answer : Answer} {inits puts completes : Nat} (sound : Sound r)
    (before : Spent json bytes durationMs r inits puts completes)
    (steps : Steps json bytes durationMs r answer t) :
    ∃ i p c, Spent json bytes durationMs t i p c := by
  have running : r.outcome = none := by cases steps <;> assumption
  have allowed : validateUploadCaps bytes durationMs = none := by
    by_contra refused
    exact (before.capped refused).2 running
  obtain ⟨i,p,c,sent,bounded,now⟩ := madeOneMore sound (before.counted running) before.bounded
  rw [← before.sent] at sent
  refine ⟨i,p,c,?_⟩
  cases steps with
  | result answer t running fits done replied =>
    have same : Sound (r.record answer) := ⟨sound.attempts,sound.putAttempts,sound.rests⟩
    have counted := repliedCounted same replied now
    have grown : t.sent = r.sent ++ [(r.call,answer)] := by cases replied <;> rfl
    refine ⟨by simpa [grown] using sent,bounded,counted,fun complete => ?_,
      fun refused => absurd allowed refused⟩
    refine ⟨(r.call,answer),by rw [grown,List.getLast?_concat]; rfl,?_⟩
    cases replied with
    | again asks room => exact absurd (running.symm.trans complete) (by simp)
    | next asks call done => cases complete
    | finished asks outcome done =>
      cases complete
      exact uploadAccepted done
  | turn turn running put asks room =>
    refine ⟨by simpa [record] using sent,bounded,fun _ => ?_,fun complete => ?_,
      fun refused => absurd allowed refused⟩
    · simp only [put] at now
      simp only [Counted,record,put]
      exact ⟨now.1,by omega⟩
    · exact absurd (running.symm.trans complete) (by simp)

theorem beginSpent (json : BodyReader) (bytes : Nat) (durationMs : Option Nat) :
    Spent json bytes durationMs (begin_ bytes durationMs) 0 0 0 := by
  unfold begin_
  simp only [uploadCall]
  cases caps : validateUploadCaps bytes durationMs with
  | none => exact ⟨rfl,by omega,fun _ => ⟨rfl,rfl,rfl⟩,fun complete => (by cases complete),
      fun refused => absurd caps refused⟩
  | some error =>
    refine ⟨rfl,by omega,fun running => ?_,fun complete => ?_,fun _ => ⟨rfl,by simp⟩⟩
    · cases running
    · cases error <;> cases complete

/- An upload makes its calls in order and at most 3, 12 and 3 of them, none if the caps refuse it,
and is complete only if its last answer says that the operator has the recording. -/
theorem uploadCallsBounded (json : BodyReader) (bytes : Nat) (durationMs : Option Nat)
    (answers : List Answer) (r : UploadRun)
    (ends_ : Transition.final (step json bytes durationMs) (begin_ bytes durationMs) answers = some r) :
    ∃ inits puts completes, Spent json bytes durationMs r inits puts completes :=
  (Transition.finalInvariant (step json bytes durationMs)
    (fun r => Sound r ∧ ∃ inits puts completes, Spent json bytes durationMs r inits puts completes)
    (fun _ _ _ stepped before => by
      obtain ⟨sound,inits,puts,completes,spent⟩ := before
      have steps := stepCases sound stepped
      exact ⟨stepSound sound steps,stepSpent sound spent steps⟩)
    ⟨beginSound bytes durationMs,0,0,0,beginSpent json bytes durationMs⟩ ends_).2

def hardUpload : List Answer :=
  [.operator none,.put (.failed "reset"),.put (.rejected 503 "busy"),.put (.rejected 409 "conflict"),
    .put (.failed "reset"),.put .accepted,.operator (some (.transport "timeout")),.operator none]

def noBodies : BodyReader := ⟨fun _ => none,fun _ => none⟩

theorem hardUploadRefines : ∃ r, Transition.final (step noBodies 100 (some 5000))
      (begin_ 100 (some 5000)) hardUpload = some r ∧ r.outcome = some .complete ∧
      ∃ (turns : List (List Answer × Answer))
        (calls : List (List (Option OperatorError) × Option OperatorError)),
        hardUpload = (turns.map Prod.fst).flatten ∧
        (∀ turn ∈ turns, turn.1.length ≤ uploadRetries + 1) ∧
        turns.map (fun turn => reply noBodies turn.2) = (calls.map Prod.fst).flatten ∧
        (∀ call ∈ calls, call.1.length ≤ operatorAttempts) ∧
        Transition.final (settle 100 (some 5000)) ⟨.init,none⟩ (calls.map Prod.snd) =
          some ⟨r.call,r.outcome⟩ := by
  refine ⟨_,rfl,rfl,?_⟩
  obtain ⟨turns,left,calls,tries,split,wholeTurns,_,results,wholeCalls,_,closed,coarse⟩ :=
    uploadRefinesCalls noBodies 100 (some 5000) hardUpload _ rfl
  obtain ⟨rfl,rfl⟩ := closed (by decide)
  rw [List.append_nil] at split results
  exact ⟨turns,calls,split,fun turn mem => (wholeTurns turn mem).bounded,results,
    fun call mem => (wholeCalls call mem).bounded,coarse⟩

theorem hardUploadBounded : ∃ r, Transition.final (step noBodies 100 (some 5000))
      (begin_ 100 (some 5000)) hardUpload = some r ∧ r.sent.map Prod.fst = made 1 5 2 ∧
      ∃ inits puts completes, Spent noBodies 100 (some 5000) r inits puts completes :=
  ⟨_,rfl,rfl,uploadCallsBounded noBodies 100 (some 5000) hardUpload _ rfl⟩

end UploadRun
end TelephoneBooth.UploadPipeline
