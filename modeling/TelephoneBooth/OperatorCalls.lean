import Mathlib.Algebra.Group.Nat.Defs
import Mathlib.Data.List.Perm.Basic
import TelephoneBooth.Listing
import TelephoneBooth.UploadPipeline

/-! Any number of `retry_operator` calls side by side: they draw request ids from one counter and
publish on one bus. The counter does not wrap here, and no call is aborted. -/
namespace TelephoneBooth.OperatorCalls
open UploadPipeline.UploadRun (operatorAgain retryNextAsks)

inductive Record where
  | request (id route : String)
  | response (id : String) (status : Nat)
  | error (source message : String)
  deriving DecidableEq, Repr

inductive Phase where
  | calling
  | awaiting (id : String)
  | backingOff (ms : Nat)
  | finished (result : Option OperatorError)
  deriving DecidableEq, Repr

/- `answers` is a history: what its operation has returned so far. -/
structure Call where
  route : String
  attempt : Nat
  phase : Phase
  answers : List (Option OperatorError)
  deriving DecidableEq, Repr

structure Operator where
  seq : Nat
  calls : List Call
  bus : List Record
  deriving DecidableEq, Repr

inductive Label where
  | start (route : String)
  | attempt (index : Nat)
  | answer (index : Nat) (reply : Option OperatorError)
  | wake (index : Nat)

def requestId (number : Nat) : String := s!"runtime-{number}"

def operatorStatus : Option OperatorError → Nat
  | none => 200
  | some (.auth _) | some (.unauthorized _) => 401
  | some (.duplicateRecording _) | some (.conflict _) | some (.installationInactive _) => 409
  | some (.invalidArgument _) | some (.unprocessable _) => 422
  | some (.payloadTooLarge _ _) => 413
  | some (.protocol _) => 502
  | some (.transport _) | some (.unsupported _) => 503
  | some (.server status _) => status.toNat

/- Milliseconds. -/
def operatorBackoff (attempt : Nat) : Nat := 100 * 2 ^ (attempt - 1)

def publishOperatorError (source : String) : OperatorError → List Record
  | .installationInactive _ => []
  | error => [.error source error.text]

/- Behind the last attempt the loop would end with an error of its own. -/
def Call.begin_ (c : Call) (number : Nat) : Call × List Record :=
  if c.attempt ≤ operatorAttempts then
    ({ c with phase := .awaiting (requestId number) },[.request (requestId number) c.route])
  else ({ c with phase := .finished (some (.transport "operator retry loop exhausted")) },[])

def Call.answered (c : Call) (id : String) (reply : Option OperatorError) : Call × List Record :=
  let c := { c with answers := c.answers ++ [reply] }
  let told := Record.response id (operatorStatus reply)
  match reply with
  | none => ({ c with phase := .finished none },[told])
  | some error =>
    if c.attempt = operatorAttempts ∨ isRetryableOperatorError error = false then
      ({ c with phase := .finished (some error) },[told])
    else
      ({ c with phase := .backingOff (operatorBackoff c.attempt) },
        told :: publishOperatorError c.route error)

namespace Operator

def update (o : Operator) (index : Nat) (done : Call × List Record) : Operator :=
  { o with calls := o.calls.set index done.1, bus := o.bus ++ done.2 }

def step (o : Operator) : Label → Option Operator
  | .start route => some { o with calls := o.calls ++ [⟨route,1,.calling,[]⟩] }
  | .attempt index => do
    let c ← o.calls[index]?
    if c.phase = .calling then
      let done := c.begin_ (o.seq + 1)
      some { o.update index done with seq := if done.2 = [] then o.seq else o.seq + 1 }
    else none
  | .answer index reply => do
    let c ← o.calls[index]?
    match c.phase with
    | .awaiting id => some (o.update index (c.answered id reply))
    | _ => none
  | .wake index => do
    let c ← o.calls[index]?
    match c.phase with
    | .backingOff _ => some (o.update index ({ c with attempt := c.attempt + 1, phase := .calling },[]))
    | _ => none

end Operator

def requestOf : Record → Option String
  | .request id _ => some id
  | _ => none

def responseOf : Record → Option String
  | .response id _ => some id
  | _ => none

def errorOf : Record → Option (String × String)
  | .error source message => some (source,message)
  | _ => none

def Call.awaits (c : Call) : List String :=
  match c.phase with
  | .awaiting id => [id]
  | _ => []

def Call.retried (c : Call) : List (Option OperatorError) :=
  match c.phase with
  | .finished _ => c.answers.dropLast
  | _ => c.answers

def Call.reported (c : Call) : List (String × String) :=
  c.retried.filterMap fun reply => reply.map fun error => (c.route,error.text)

def Call.Sound (c : Call) : Prop :=
  match c.phase with
  | .calling | .awaiting _ => Retry.Open operatorAgain operatorAttempts c.attempt c.answers
  | .backingOff ms => Retry.Open operatorAgain operatorAttempts (c.attempt + 1) c.answers ∧
      ms = operatorBackoff c.attempt
  | .finished result => Retry.Loop operatorAgain operatorAttempts c.answers result

theorem requestIdInjective {m n : Nat} (same : requestId m = requestId n) : m = n := by
  have text : toString m = toString n := by simpa [requestId] using same
  have digits : Nat.toDigits 10 m = Nat.toDigits 10 n := by
    simpa [toString,Nat.repr] using congrArg String.toList text
  have read := congrArg (Nat.ofDigitChars 10 · 0) digits
  simpa only [Nat.ofDigitChars_ten_toDigits] using read

theorem retryableReported {error : OperatorError} (retryable : isRetryableOperatorError error = true)
    (source : String) : publishOperatorError source error = [.error source error.text] := by
  cases error <;> first | rfl | cases retryable

inductive Answered (c : Call) (id : String) (reply : Option OperatorError) :
    Call × List Record → Prop where
  | returns (done : Retry.asks operatorAgain operatorAttempts c.attempt reply = false) :
      Answered c id reply
        (⟨c.route,c.attempt,.finished reply,c.answers ++ [reply]⟩,[.response id (operatorStatus reply)])
  | again (error) (failed : reply = some error)
      (asks : Retry.asks operatorAgain operatorAttempts c.attempt reply = true) :
      Answered c id reply
        (⟨c.route,c.attempt,.backingOff (operatorBackoff c.attempt),c.answers ++ [reply]⟩,
          [.response id (operatorStatus reply),.error c.route error.text])

theorem answeredCases {c : Call} (bounded : c.attempt ≤ operatorAttempts) (id : String)
    (reply : Option OperatorError) : Answered c id reply (c.answered id reply) := by
  cases reply with
  | none => exact .returns rfl
  | some error =>
    have same := retryNextAsks bounded (some error)
    simp only [UploadPipeline.retryNext] at same
    unfold Call.answered
    cases asks : Retry.asks operatorAgain operatorAttempts c.attempt (some error) with
    | false =>
      rw [asks] at same
      split at same
      · rename_i ends_
        simp only [ends_,if_true]
        exact .returns asks
      · cases same
    | true =>
      rw [asks] at same
      split at same
      · cases same
      · rename_i more
        have retryable : isRetryableOperatorError error = true := by
          by_contra other
          exact more (.inr (Bool.eq_false_iff.mpr other))
        simp only [more,if_false,retryableReported retryable]
        exact .again error rfl asks

namespace Operator

inductive Steps (o : Operator) : Operator → Prop where
  | started (route) : Steps o { o with calls := o.calls ++ [⟨route,1,.calling,[]⟩] }
  | requested (front c back) (found : o.calls = front ++ c :: back) (calling : c.phase = .calling)
      (room : c.attempt ≤ operatorAttempts) : Steps o
      ⟨o.seq + 1,front ++ { c with phase := .awaiting (requestId (o.seq + 1)) } :: back,
        o.bus ++ [.request (requestId (o.seq + 1)) c.route]⟩
  | exhausted (front c back) (found : o.calls = front ++ c :: back) (calling : c.phase = .calling)
      (late : operatorAttempts < c.attempt) (t) : Steps o t
  | answered (front c back) (found : o.calls = front ++ c :: back) (id)
      (awaits : c.phase = .awaiting id)
      (reply) : Steps o
      ⟨o.seq,front ++ (c.answered id reply).1 :: back,o.bus ++ (c.answered id reply).2⟩
  | woke (front c back) (found : o.calls = front ++ c :: back) (ms) (slept : c.phase = .backingOff ms) :
      Steps o ⟨o.seq,front ++ { c with attempt := c.attempt + 1, phase := .calling } :: back,o.bus⟩

theorem stepCases {o t : Operator} {label : Label} (stepped : o.step label = some t) : Steps o t := by
  cases label with
  | start route => cases stepped; exact .started route
  | attempt index =>
    obtain ⟨c,found,stepped⟩ := Option.bind_eq_some_iff.mp stepped
    obtain ⟨front,back,split,placed⟩ := Listing.setSplit found
    split at stepped
    · rename_i calling
      by_cases room : c.attempt ≤ operatorAttempts
      · simp only [update,Call.begin_,room,if_true,placed,List.cons_ne_nil,if_false] at stepped
        cases stepped
        exact .requested front c back split calling room
      · exact .exhausted front c back split calling (Nat.lt_of_not_le room) t
    · cases stepped
  | answer index reply =>
    obtain ⟨c,found,stepped⟩ := Option.bind_eq_some_iff.mp stepped
    obtain ⟨front,back,split,placed⟩ := Listing.setSplit found
    split at stepped
    · rename_i id awaits
      simp only [update,placed] at stepped
      cases stepped
      exact .answered front c back split id awaits reply
    · cases stepped
  | wake index =>
    obtain ⟨c,found,stepped⟩ := Option.bind_eq_some_iff.mp stepped
    obtain ⟨front,back,split,placed⟩ := Listing.setSplit found
    split at stepped
    · rename_i ms slept
      simp only [update,placed,List.append_nil] at stepped
      cases stepped
      exact .woke front c back split ms slept
    · cases stepped

structure Paired (o : Operator) : Prop where
  calls : ∀ c ∈ o.calls, c.Sound
  requests : o.bus.filterMap requestOf = (List.range o.seq).map fun n => requestId (n + 1)
  answers : ∀ id, (o.bus.filterMap requestOf).count id =
    (o.bus.filterMap responseOf).count id + (o.calls.flatMap Call.awaits).count id
  errors : ∀ failure, (o.bus.filterMap errorOf).count failure =
    (o.calls.flatMap Call.reported).count failure

theorem soundElsewhere {o : Operator} {front back : List Call} {c d : Call}
    (found : o.calls = front ++ c :: back) (sound : ∀ c ∈ o.calls, c.Sound) (here : d.Sound) :
    ∀ c ∈ front ++ d :: back, c.Sound := by
  intro e mem
  rw [found] at sound
  rcases List.mem_append.mp mem with early | late
  · exact sound e (List.mem_append_left _ early)
  · rcases List.mem_cons.mp late with rfl | later
    · exact here
    · exact sound e (List.mem_append_right _ (List.mem_cons_of_mem _ later))

theorem stepPaired {o t : Operator} {label : Label} (stepped : o.step label = some t)
    (before : Paired o) : Paired t := by
  obtain ⟨calls,requests,answers,errors⟩ := before
  cases stepCases stepped with
  | started route =>
    refine ⟨fun c mem => ?_,requests,?_,?_⟩
    · rcases List.mem_append.mp mem with old | new
      · exact calls c old
      · rw [List.mem_singleton.mp new]
        exact Retry.Open.start (by decide)
    · simpa [Call.awaits] using answers
    · simpa [Call.reported,Call.retried] using errors
  | requested front c back found calling room =>
    have sound := calls c (by simp [found])
    refine ⟨soundElsewhere found calls ?_,?_,?_,?_⟩
    · simpa [Call.Sound,calling] using sound
    · simp [requestOf,requests,List.range_succ]
    · intro id
      have old := answers id
      simp only [found,List.flatMap_append,List.flatMap_cons,List.count_append,Call.awaits,calling,
        List.filterMap_append,List.count_nil] at old ⊢
      simp only [List.filterMap_cons,requestOf,responseOf,List.filterMap_nil,List.count_nil]
      omega
    · intro failure
      have old := errors failure
      simp only [found,List.flatMap_append,List.flatMap_cons,List.count_append,Call.reported,
        Call.retried,calling,List.filterMap_append,errorOf,List.filterMap_cons,List.filterMap_nil,
        List.count_nil] at old ⊢
      omega
  | exhausted front c back found calling late t =>
    have sound := calls c (by simp [found])
    simp only [Call.Sound,calling] at sound
    exact absurd sound.room (Nat.not_le_of_lt late)
  | answered front c back found id awaits reply =>
    have sound := calls c (by simp [found])
    simp only [Call.Sound,awaits] at sound
    have told := answeredCases sound.room id reply
    generalize c.answered id reply = done at told ⊢
    cases told with
    | returns done =>
      refine ⟨soundElsewhere found calls (sound.close done),?_,fun other => ?_,fun failure => ?_⟩
      · simpa [requestOf,List.filterMap_cons] using requests
      · have old := answers other
        simp only [found,List.flatMap_append,List.flatMap_cons,List.count_append,Call.awaits,awaits,
          List.filterMap_append,requestOf,responseOf,List.filterMap_cons,List.filterMap_nil,
          List.count_nil] at old ⊢
        omega
      · have old := errors failure
        simpa [found,Call.reported,Call.retried,awaits,errorOf,List.filterMap_cons] using old
    | again error failed asks =>
      refine ⟨soundElsewhere found calls ⟨sound.ask asks,rfl⟩,?_,fun other => ?_,fun failure => ?_⟩
      · simpa [requestOf,List.filterMap_cons] using requests
      · have old := answers other
        simp only [found,List.flatMap_append,List.flatMap_cons,List.count_append,Call.awaits,awaits,
          List.filterMap_append,requestOf,responseOf,List.filterMap_cons,List.filterMap_nil,
          List.count_nil] at old ⊢
        omega
      · have old := errors failure
        subst failed
        simp only [found,List.flatMap_append,List.flatMap_cons,List.count_append,Call.reported,
          Call.retried,awaits,List.filterMap_append,errorOf,List.filterMap_cons,List.filterMap_nil,
          Option.map_some] at old ⊢
        omega
  | woke front c back found ms slept =>
    have sound := calls c (by simp [found])
    simp only [Call.Sound,slept] at sound
    refine ⟨soundElsewhere found calls sound.1,requests,?_,?_⟩
    · simpa [found,Call.awaits,slept] using answers
    · simpa [found,Call.reported,Call.retried,slept] using errors

def idle : Operator := ⟨0,[],[]⟩

theorem runPaired {labels : List Label} {o : Operator}
    (ends_ : Transition.final step idle labels = some o) : Paired o :=
  Transition.finalInvariant step Paired (fun _ _ _ stepped before => stepPaired stepped before)
    ⟨fun _ mem => absurd mem List.not_mem_nil,rfl,fun _ => rfl,fun _ => rfl⟩ ends_

/- However calls interleave: request ids are never reused; every response is to one request and
no request has two; those without one are just what calls wait for. A call asks again only after a
retryable failure, at most three times, ends with its last answer, and every failure it is asked
again after is reported once. -/
theorem operatorCallsPaired (labels : List Label) (o : Operator)
    (ends_ : Transition.final step idle labels = some o) :
    (o.bus.filterMap requestOf).Nodup ∧
    (o.bus.filterMap requestOf).Perm (o.bus.filterMap responseOf ++ o.calls.flatMap Call.awaits) ∧
    (o.bus.filterMap errorOf).Perm (o.calls.flatMap Call.reported) ∧
    (∀ c ∈ o.calls, c.Sound) ∧
    ∀ c ∈ o.calls, ∀ result, c.phase = .finished result →
      c.answers.getLast? = some result ∧ c.answers.length ≤ 3 := by
  have paired := runPaired ends_
  refine ⟨?_,?_,?_,paired.calls,?_⟩
  · rw [paired.requests]
    exact List.nodup_range.map fun _ _ same => Nat.succ.inj (requestIdInjective same)
  · rw [List.perm_iff_count]
    intro id
    rw [List.count_append]
    exact paired.answers id
  · rw [List.perm_iff_count]
    exact paired.errors
  · intro c mem result done
    have sound := paired.calls c mem
    simp only [Call.Sound,done] at sound
    exact ⟨sound.ends,sound.bounded⟩

def twoCalls : List Label :=
  [.start "GET /v1/questions/random",.start "POST /v1/messages",.attempt 0,.attempt 1,
    .answer 0 (some (.transport "reset")),.wake 0,.attempt 0,.answer 1 none,
    .answer 0 (some (.server 503 "busy")),.wake 0]

theorem twoCallsPaired : ∃ o, Transition.final step idle twoCalls = some o ∧
    (o.bus.filterMap requestOf).Nodup ∧ o.calls.map (fun c => c.answers.length) = [2,1] :=
  ⟨_,rfl,(operatorCallsPaired twoCalls _ rfl).1,rfl⟩

end Operator
end TelephoneBooth.OperatorCalls
