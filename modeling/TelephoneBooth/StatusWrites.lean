import TelephoneBooth.Telemetry
import TelephoneBooth.Transition

/-! Two tasks write the booth's status at the operator: the status writer, which takes the
`PutStatus` effects in order, and the heartbeat, which repeats what it last read off the bus.
A write has a version, the number of `PutStatus` effects up to the step it stems from. -/
namespace TelephoneBooth
open State Event Effect

def statusQueueDepth : Nat := 32
def operatorAttempts : Nat := 3

def isRetryableOperatorError : OperatorError → Bool
  | .transport _ => true
  | .server status _ => decide (500 ≤ status)
  | _ => false

structure StatusWrite where
  status : BoothStatus
  version : Nat
  deriving DecidableEq, Repr

structure StatusCall where
  write : StatusWrite
  landed : Bool
  deriving DecidableEq, Repr

inductive StatusWriter where
  | idle
  | calling (call : StatusCall) (attempt : Nat)
  | backingOff (write : StatusWrite) (attempt : Nat)
  deriving DecidableEq, Repr

/- `effect_task` has handed the first `forwarded` of the emitted statuses to the writer's
queue, the writer has taken the first `taken`. `applied` is the operator's, newest first. -/
structure StatusBoard where
  state : State
  emitted : List BoothStatus
  forwarded : Nat
  taken : Nat
  writer : StatusWriter
  writerOk : Bool
  records : List (String × Nat)
  current : StatusWrite
  beat : Option StatusCall
  beatOk : Bool
  applied : List StatusWrite

inductive StatusLabel where
  | handle (event : Event) (accepting : Bool)
  | forward
  | receive
  | land
  | answer (error : Option OperatorError)
  | retry
  | hear
  | lag
  | beat
  | beatLands
  | beatAnswers (error : Option OperatorError)

def putStatusOf : Effect → Option BoothStatus
  | putStatus status => some status
  | _ => none

namespace StatusBoard

def handleEvent (b : StatusBoard) (event : Event) (accepting : Bool) : StatusBoard :=
  let (state,effects) := coreStep b.state (event,accepting)
  let emitted := b.emitted ++ effects.filterMap putStatusOf
  { b with state, emitted, records := b.records ++ [(state.tag,emitted.length)] }

def atRest (state : State) : StatusBoard :=
  ⟨state,[],0,0,.idle,true,[],⟨.idle,0⟩,none,true,[]⟩

def boot (accepting onHook : Bool) : StatusBoard :=
  let b := atRest (if accepting then idle else callsPaused onHook)
  if accepting && !onHook then b.handleEvent hookOff accepting else b

def step (b : StatusBoard) : StatusLabel → Option StatusBoard
  | .handle event accepting => some (b.handleEvent event accepting)
  | .forward =>
    if b.forwarded < b.emitted.length ∧ b.forwarded - b.taken < statusQueueDepth then
      some { b with forwarded := b.forwarded + 1 }
    else none
  | .receive =>
    match b.writer, b.emitted[b.taken]? with
    | .idle, some status =>
      if b.taken < b.forwarded then
        some { b with
          taken := b.taken + 1
          writer := .calling ⟨⟨status,b.taken + 1⟩,false⟩ 1 }
      else none
    | _, _ => none
  | .land =>
    match b.writer with
    | .calling ⟨write,false⟩ attempt => some { b with
        writer := .calling ⟨write,true⟩ attempt
        applied := write :: b.applied }
    | _ => none
  | .answer none =>
    match b.writer with
    | .calling ⟨_,true⟩ _ => some { b with writer := .idle, writerOk := true }
    | _ => none
  | .answer (some failure) =>
    match b.writer with
    | .calling call attempt =>
      if attempt = operatorAttempts ∨ isRetryableOperatorError failure = false then
        some { b with writer := .idle, writerOk := false }
      else some { b with writer := .backingOff call.write attempt }
    | _ => none
  | .retry =>
    match b.writer with
    | .backingOff write attempt => some { b with writer := .calling ⟨write,false⟩ (attempt + 1) }
    | _ => none
  | .hear =>
    match b.beat, b.records with
    | none, (tag,version) :: rest =>
      some { b with records := rest, current := ⟨stateNameToBoothStatus tag,version⟩ }
    | _, _ => none
  | .lag =>
    match b.records with
    | _ :: rest => some { b with records := rest }
    | [] => none
  | .beat =>
    match b.beat with
    | none => some { b with beat := some ⟨b.current,false⟩ }
    | some _ => none
  | .beatLands =>
    match b.beat with
    | some ⟨write,false⟩ =>
      some { b with beat := some ⟨write,true⟩, applied := write :: b.applied }
    | _ => none
  | .beatAnswers none =>
    match b.beat with
    | some ⟨_,true⟩ => some { b with beat := none, beatOk := true }
    | _ => none
  | .beatAnswers (some _) =>
    match b.beat with
    | some _ => some { b with beat := none, beatOk := false }
    | none => none

end StatusBoard

def statusAfter (emitted : List BoothStatus) (count : Nat) : BoothStatus :=
  (emitted.take count).getLast?.getD .idle

structure BoardQuiet (b : StatusBoard) : Prop where
  forwarded : b.forwarded = b.emitted.length
  taken : b.taken = b.forwarded
  writer : b.writer = .idle
  heard : b.records = []
  beat : b.beat = none
  writerOk : b.writerOk = true
  beatOk : b.beatOk = true

instance (b : StatusBoard) : Decidable (BoardQuiet b) :=
  decidable_of_iff (b.forwarded = b.emitted.length ∧ b.taken = b.forwarded ∧ b.writer = .idle ∧
      b.records = [] ∧ b.beat = none ∧ b.writerOk = true ∧ b.beatOk = true)
    ⟨fun ⟨a,b,c,d,e,f,g⟩ => ⟨a,b,c,d,e,f,g⟩,fun ⟨a,b,c,d,e,f,g⟩ => ⟨a,b,c,d,e,f,g⟩⟩

/-- No older write took effect behind a newer one, and at rest the newest is what is shown. -/
structure NewestWins (b : StatusBoard) : Prop where
  ordered : b.applied.Pairwise fun newer older => older.version ≤ newer.version
  settled : BoardQuiet b → ∀ status ∈ b.emitted.getLast?, b.applied.head?.map (·.status) = some status

instance (b : StatusBoard) : Decidable (NewestWins b) :=
  decidable_of_iff ((b.applied.Pairwise fun newer older => older.version ≤ newer.version) ∧
      (BoardQuiet b → ∀ status ∈ b.emitted.getLast?, b.applied.head?.map (·.status) = some status))
    ⟨fun kept => ⟨kept.1,kept.2⟩,fun kept => ⟨kept.ordered,kept.settled⟩⟩

def ShowsNewest (_ : StatusBoard) (_ : StatusLabel) (after : StatusBoard) : Prop := NewestWins after

/- The heartbeat starts a call only beside an idle writer, with the status the writer took
last; the writer takes no status while a heartbeat's call has yet to take effect. -/
def BeatsInTurn (b : StatusBoard) (label : StatusLabel) (_ : StatusBoard) : Prop :=
  match label with
  | .beat => b.writer = .idle ∧ b.current = ⟨statusAfter b.emitted b.taken,b.taken⟩
  | .receive => ∀ call ∈ b.beat, call.landed = true
  | _ => True

instance (b : StatusBoard) (label : StatusLabel) (after : StatusBoard) :
    Decidable (BeatsInTurn b label after) := by
  unfold BeatsInTurn
  split <;> infer_instance

instance (b : StatusBoard) (label : StatusLabel) (after : StatusBoard) :
    Decidable (ShowsNewest b label after) := inferInstanceAs (Decidable (NewestWins after))

def StatusWriter.write : StatusWriter → Option StatusWrite
  | .idle => none
  | .calling call _ => some call.write
  | .backingOff write _ => some write

structure WritesInvariant (b : StatusBoard) : Prop where
  handed : b.taken ≤ b.emitted.length
  ordered : b.applied.Pairwise fun newer older => older.version ≤ newer.version
  known : ∀ write ∈ b.applied, write.version ≤ b.taken ∧
    write.status = statusAfter b.emitted write.version
  writing : ∀ write ∈ b.writer.write, write = ⟨statusAfter b.emitted b.taken,b.taken⟩
  landed : ∀ call attempt, b.writer = .calling call attempt → call.landed = true →
    ∃ write ∈ b.applied, write.version = b.taken
  written : b.writer = .idle → b.writerOk = true → 0 < b.taken →
    ∃ write ∈ b.applied, write.version = b.taken
  beating : ∀ call ∈ b.beat, call.landed = false →
    b.writer = .idle ∧ call.write = ⟨statusAfter b.emitted b.taken,b.taken⟩

theorem statusAfterAppend (emitted more : List BoothStatus) {count : Nat}
    (within : count ≤ emitted.length) :
    statusAfter (emitted ++ more) count = statusAfter emitted count := by
  unfold statusAfter
  rw [List.take_append_of_le_length within]

theorem statusAfterNext {emitted : List BoothStatus} {n : Nat} {status : BoothStatus}
    (found : emitted[n]? = some status) : statusAfter emitted (n + 1) = status := by
  unfold statusAfter
  rw [List.take_add_one,found,Option.toList_some,List.getLast?_concat]
  rfl

theorem newestShown {b : StatusBoard} (held : WritesInvariant b) (quiet : BoardQuiet b) :
    ∀ status ∈ b.emitted.getLast?, b.applied.head?.map (·.status) = some status := by
  intro status last
  have all : b.taken = b.emitted.length := quiet.taken.trans quiet.forwarded
  have some_ : 0 < b.taken := by
    rw [all]
    cases emitted : b.emitted with
    | nil =>
      rw [emitted] at last
      cases last
    | cons => exact Nat.succ_pos _
  obtain ⟨write,mem,version⟩ := held.written quiet.writer quiet.writerOk some_
  have ordered := held.ordered
  have known := held.known
  cases applied : b.applied with
  | nil =>
    rw [applied] at mem
    cases mem
  | cons newest older =>
    rw [applied] at mem ordered known
    obtain ⟨bound,value⟩ := known newest List.mem_cons_self
    have top : newest.version = b.taken := by
      rcases List.mem_cons.mp mem with rfl | old
      · exact version
      · have := (List.pairwise_cons.mp ordered).1 write old
        omega
    rw [top,all,statusAfter,List.take_length,show b.emitted.getLast? = some status from last] at value
    exact congrArg some value

theorem newestWins {b : StatusBoard} (held : WritesInvariant b) : NewestWins b :=
  ⟨held.ordered,newestShown held⟩

theorem landOrdered {b : StatusBoard} (held : WritesInvariant b) :
    (⟨statusAfter b.emitted b.taken,b.taken⟩ :: b.applied).Pairwise
      fun newer older => older.version ≤ newer.version :=
  List.pairwise_cons.mpr ⟨fun write mem => (held.known write mem).1,held.ordered⟩

theorem landKnown {b : StatusBoard} (held : WritesInvariant b) :
    ∀ write ∈ ⟨statusAfter b.emitted b.taken,b.taken⟩ :: b.applied,
      write.version ≤ b.taken ∧ write.status = statusAfter b.emitted write.version := by
  intro write mem
  rcases List.mem_cons.mp mem with rfl | old
  · exact ⟨Nat.le_refl _,rfl⟩
  · exact held.known write old

theorem handleWrites {b : StatusBoard} (held : WritesInvariant b) (event : Event)
    (accepting : Bool) : WritesInvariant (b.handleEvent event accepting) := by
  obtain ⟨handed,ordered,known,writing,landed,written,beating⟩ := held
  have later {count : Nat} (within : count ≤ b.taken) :=
    statusAfterAppend b.emitted ((coreStep b.state (event,accepting)).2.filterMap putStatusOf)
      (Nat.le_trans within handed)
  refine ⟨?_,ordered,?_,?_,landed,written,?_⟩
  · show b.taken ≤ (b.emitted ++ _).length
    rw [List.length_append]
    omega
  · intro write mem
    obtain ⟨bound,value⟩ := known write mem
    exact ⟨bound,value.trans (later bound).symm⟩
  · intro write mem
    rw [writing write mem]
    exact congrArg (StatusWrite.mk · b.taken) (later (Nat.le_refl _)).symm
  · intro call mem waiting
    obtain ⟨idle_,write⟩ := beating call mem waiting
    exact ⟨idle_,write.trans (congrArg (StatusWrite.mk · b.taken) (later (Nat.le_refl _)).symm)⟩

theorem receiveWrites {b : StatusBoard} (held : WritesInvariant b) {status : BoothStatus}
    (found : b.emitted[b.taken]? = some status)
    (quiet : ∀ call ∈ b.beat, call.landed = true) :
    WritesInvariant { b with
      taken := b.taken + 1
      writer := .calling ⟨⟨status,b.taken + 1⟩,false⟩ 1 } := by
  have inside := (List.getElem?_eq_some_iff.mp found).1
  refine ⟨inside,held.ordered,?_,?_,?_,nofun,?_⟩
  · intro write mem
    obtain ⟨bound,value⟩ := held.known write mem
    exact ⟨Nat.le_succ_of_le bound,value⟩
  · rintro write ⟨⟩
    exact congrArg (StatusWrite.mk · (b.taken + 1)) (statusAfterNext found).symm
  · rintro call attempt ⟨⟩ landed
    cases landed
  · intro call mem waiting
    rw [quiet call mem] at waiting
    cases waiting

theorem landWrites {b : StatusBoard} (held : WritesInvariant b) {write : StatusWrite}
    {attempt : Nat} (writer : b.writer = .calling ⟨write,false⟩ attempt) :
    WritesInvariant { b with
      writer := .calling ⟨write,true⟩ attempt
      applied := write :: b.applied } := by
  have newest : write = ⟨statusAfter b.emitted b.taken,b.taken⟩ :=
    held.writing write (by rw [writer]; rfl)
  subst newest
  refine ⟨held.handed,landOrdered held,landKnown held,?_,?_,nofun,?_⟩
  · rintro write ⟨⟩
    rfl
  · intro call attempt same landed
    exact ⟨_,List.mem_cons_self,rfl⟩
  · intro call mem waiting
    have idle_ := (held.beating call mem waiting).1
    rw [writer] at idle_
    cases idle_

theorem answerWrites {b : StatusBoard} (held : WritesInvariant b) {call : StatusCall}
    {attempt : Nat} (writer : b.writer = .calling call attempt) {ok : Bool}
    (landed : ok = true → call.landed = true) :
    WritesInvariant { b with writer := .idle, writerOk := ok } := by
  refine ⟨held.handed,held.ordered,held.known,nofun,nofun,?_,?_⟩
  · intro _ succeeded _
    exact held.landed call attempt writer (landed succeeded)
  · intro call mem waiting
    exact ⟨rfl,(held.beating call mem waiting).2⟩

theorem retryWrites {b : StatusBoard} (held : WritesInvariant b) {next : StatusWriter}
    (busy : b.writer ≠ .idle) (same : ∀ write ∈ next.write, write ∈ b.writer.write)
    (fresh : ∀ call attempt, next = .calling call attempt → call.landed = false)
    (still : next ≠ .idle) : WritesInvariant { b with writer := next } := by
  refine ⟨held.handed,held.ordered,held.known,?_,?_,?_,?_⟩
  · intro write mem
    exact held.writing write (same write mem)
  · intro call attempt calling landed
    rw [fresh call attempt calling] at landed
    cases landed
  · intro idle_
    exact absurd idle_ still
  · intro call mem waiting
    exact absurd (held.beating call mem waiting).1 busy

theorem beatWrites {b : StatusBoard} (held : WritesInvariant b) (idle_ : b.writer = .idle)
    (newest : b.current = ⟨statusAfter b.emitted b.taken,b.taken⟩) :
    WritesInvariant { b with beat := some ⟨b.current,false⟩ } := by
  refine ⟨held.handed,held.ordered,held.known,held.writing,held.landed,held.written,?_⟩
  rintro call ⟨⟩ _
  exact ⟨idle_,newest⟩

theorem beatLandWrites {b : StatusBoard} (held : WritesInvariant b) {write : StatusWrite}
    (beat : b.beat = some ⟨write,false⟩) :
    WritesInvariant { b with beat := some ⟨write,true⟩, applied := write :: b.applied } := by
  obtain ⟨idle_,newest⟩ := held.beating _ beat rfl
  dsimp only at newest
  subst newest
  refine ⟨held.handed,landOrdered held,landKnown held,held.writing,?_,?_,?_⟩
  · intro call attempt calling _
    rw [show b.writer = _ from calling] at idle_
    cases idle_
  · intro _ _ _
    exact ⟨_,List.mem_cons_self,rfl⟩
  · rintro call ⟨⟩ waiting
    cases waiting

theorem beatEndWrites {b : StatusBoard} (held : WritesInvariant b) (ok : Bool) :
    WritesInvariant { b with beat := none, beatOk := ok } :=
  ⟨held.handed,held.ordered,held.known,held.writing,held.landed,held.written,nofun⟩

theorem stepWrites {b b' : StatusBoard} {label : StatusLabel} (taken : b.step label = some b')
    (held : WritesInvariant b) (inTurn : BeatsInTurn b label b') : WritesInvariant b' := by
  cases label with
  | handle event accepting =>
    obtain rfl := Option.some.inj taken
    exact handleWrites held event accepting
  | forward =>
    simp only [StatusBoard.step] at taken
    split at taken <;> cases taken
    exact ⟨held.handed,held.ordered,held.known,held.writing,held.landed,held.written,held.beating⟩
  | receive =>
    simp only [StatusBoard.step] at taken
    split at taken
    · split at taken <;> cases taken
      exact receiveWrites held (by assumption) inTurn
    · cases taken
  | land =>
    simp only [StatusBoard.step] at taken
    split at taken <;> cases taken
    exact landWrites held (by assumption)
  | answer error_ =>
    cases error_ with
    | none =>
      simp only [StatusBoard.step] at taken
      split at taken <;> cases taken
      exact answerWrites held (by assumption) fun _ => rfl
    | some failure =>
      simp only [StatusBoard.step] at taken
      split at taken
      · rename_i call attempt writer
        split at taken <;> cases taken
        · exact answerWrites held writer nofun
        · refine retryWrites held (by simp [writer]) ?_ nofun nofun
          rintro write ⟨⟩
          rw [writer]
          rfl
      · cases taken
  | retry =>
    simp only [StatusBoard.step] at taken
    split at taken <;> cases taken
    rename_i write attempt writer
    refine retryWrites held (by simp [writer]) ?_ ?_ nofun
    · rintro write ⟨⟩
      rw [writer]
      rfl
    · rintro call attempt ⟨⟩
      rfl
  | hear | lag =>
    simp only [StatusBoard.step] at taken
    split at taken <;> cases taken
    exact ⟨held.handed,held.ordered,held.known,held.writing,held.landed,held.written,held.beating⟩
  | beat =>
    simp only [StatusBoard.step] at taken
    split at taken <;> cases taken
    exact beatWrites held inTurn.1 inTurn.2
  | beatLands =>
    simp only [StatusBoard.step] at taken
    split at taken <;> cases taken
    exact beatLandWrites held (by assumption)
  | beatAnswers error_ =>
    cases error_ with
    | none | some =>
      simp only [StatusBoard.step] at taken
      split at taken <;> cases taken
      exact beatEndWrites held _

theorem restWrites (state : State) : WritesInvariant (.atRest state) :=
  ⟨Nat.le_refl _,List.Pairwise.nil,nofun,nofun,nofun,
    (by intro _ _ some_; cases some_),nofun⟩

theorem bootWrites (accepting onHook : Bool) : WritesInvariant (.boot accepting onHook) := by
  unfold StatusBoard.boot
  dsimp only
  split
  · exact handleWrites (restWrites _) hookOff accepting
  · exact restWrites _

theorem newestStatusWins (accepting onHook : Bool) (labels : List StatusLabel)
    (inTurn : Transition.Along StatusBoard.step BeatsInTurn (.boot accepting onHook) labels) :
    Transition.Along StatusBoard.step ShowsNewest (.boot accepting onHook) labels :=
  Transition.along StatusBoard.step WritesInvariant
    (fun _ _ _ taken held allowed =>
      have kept := stepWrites taken held allowed
      ⟨kept,newestWins kept⟩)
    (bootWrites accepting onHook) inTurn

theorem beatBehindWriter : Transition.Along StatusBoard.step ShowsNewest (.boot true true)
    [.handle hookOff true,.forward,.receive,.land,.answer none,.hear,.beat,.beatLands,
      .beatAnswers none] :=
  newestStatusWins true true _ (by decide)

/- The heartbeat's `Idle` is on its way when the handset is lifted, and arrives last. -/
theorem beatOvertakesWriter : ¬ ∀ labels, Transition.Along StatusBoard.step ShowsNewest
    (.boot true true) labels := by
  intro wins
  have stale := wins [.beat,.handle hookOff true,.forward,.receive,.land,.answer none,.beatLands,
    .beatAnswers none,.hear]
  revert stale
  decide

end TelephoneBooth
