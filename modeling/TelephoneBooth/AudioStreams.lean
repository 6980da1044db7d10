import TelephoneBooth.Transition
import TelephoneBooth.UploadCaps
import TelephoneBooth.Windows

/-! The two streams of the audio device. The device calls back for samples or with them, as many as
it likes; other threads may cancel the stream at any moment, and so may an error of the device. The
level meter of a stream sees every sample that passes. -/
namespace TelephoneBooth.AudioStreams
open Windows (Window Tiles)

/- What the streams do with `f32`: the operations of the level meter and the conversion to the
`i32` of a recording. -/
structure Float32Ops (F : Type*) where
  zero : F
  magnitude : F → F
  max : F → F → F
  addSquare : F → F → F
  rms : F → Nat → F
  scaled : F → Int

structure Reading (F : Type*) where
  peak : F
  rms : F
  deriving DecidableEq, Repr

def levelPublishHz : Nat := 20
def terminalLevelSendAttempts : Nat := 20

def u32Max : Nat := 2 ^ 32 - 1

structure LevelMeter (F : Type*) where
  blockSamples : Nat
  observed : Nat
  sumSquares : F
  peak : F

inductive TrySend where
  | sent | full | closed
  deriving DecidableEq, Repr

variable {F : Type*} (ops : Float32Ops F)

namespace LevelMeter

def blockOf (sampleRateHz : UInt32) (channels : UInt16) : Nat :=
  max (min (sampleRateHz.toNat * max channels.toNat 1) u32Max / levelPublishHz) 1

def new (blockSamples : Nat) : LevelMeter F := ⟨blockSamples,0,ops.zero,ops.zero⟩

def flush (m : LevelMeter F) : LevelMeter F × Reading F :=
  ({ m with observed := 0, sumSquares := ops.zero, peak := ops.zero },
    ⟨m.peak,if m.observed = 0 then ops.zero else ops.rms m.sumSquares m.observed⟩)

def observe (m : LevelMeter F) (sample : F) : LevelMeter F × Option (Reading F) :=
  let magnitude := ops.magnitude sample
  let m := { m with
    peak := ops.max m.peak magnitude
    sumSquares := ops.addSquare m.sumSquares magnitude
    observed := min (m.observed + 1) u32Max }
  if m.blockSamples ≤ m.observed then ((m.flush ops).1,some (m.flush ops).2) else (m,none)

end LevelMeter

def emitTerminal (answers : Nat → TrySend) : Nat → Nat → Bool
  | 0, _ => false
  | left + 1, tried =>
    match answers tried with
    | .sent => true
    | .closed => false
    | .full => emitTerminal answers left (tried + 1)

structure Metered (F : Type*) where
  meter : LevelMeter F
  seen : List F
  offered : List (Reading F)
  sent : List (Reading F)

namespace Metered

def start (blockSamples : Nat) : Metered F := ⟨.new ops blockSamples,[],[],[]⟩

def offer (m : Metered F) (room : Bool) (reading : Reading F) : Metered F :=
  { m with offered := m.offered ++ [reading], sent := if room then m.sent ++ [reading] else m.sent }

def observe (m : Metered F) (room : Bool) (sample : F) : Metered F :=
  let next := { m with meter := (m.meter.observe ops sample).1, seen := m.seen ++ [sample] }
  match (m.meter.observe ops sample).2 with
  | none => next
  | some reading => next.offer room reading

def silence : Reading F := ⟨ops.zero,ops.zero⟩

def finish (m : Metered F) (room : Bool) (answers : Nat → TrySend) : Metered F :=
  let m := if 0 < m.meter.observed then
    { m with meter := (m.meter.flush ops).1 }.offer room (m.meter.flush ops).2 else m
  m.offer (emitTerminal answers terminalLevelSendAttempts 0) (silence ops)

end Metered

def level (window : List F) : Reading F where
  peak := window.foldl (fun peak sample => ops.max peak (ops.magnitude sample)) ops.zero
  rms := if window.length = 0 then ops.zero else
    ops.rms (window.foldl (fun sum sample => ops.addSquare sum (ops.magnitude sample)) ops.zero)
      window.length

structure Metered.Summed (m : Metered F) (w : Window F) : Prop where
  observed : m.meter.observed = w.filling.length
  peak : m.meter.peak = (level ops w.filling).peak
  sum : m.meter.sumSquares =
    w.filling.foldl (fun sum sample => ops.addSquare sum (ops.magnitude sample)) ops.zero
  offered : m.offered = w.closed.map (level ops)
  sent : m.sent.Sublist m.offered

structure Metered.Running (block : Nat) (m : Metered F) : Prop where
  size : m.meter.blockSamples = block
  summed : m.Summed ops (.filled block m.seen)

variable {ops}

theorem startSummed (blockSamples : Nat) : (Metered.start ops blockSamples).Summed ops .empty :=
  ⟨rfl,rfl,rfl,rfl,.slnil⟩

theorem offerSent {m : Metered F} (sent : m.sent.Sublist m.offered) (room : Bool)
    (reading : Reading F) : (m.offer room reading).sent.Sublist (m.offer room reading).offered := by
  unfold Metered.offer
  cases room
  · exact sent.trans (List.sublist_append_left _ _)
  · exact sent.append (List.Sublist.refl _)

theorem flushLevel {m : Metered F} {w : Window F} (summed : m.Summed ops w) :
    (m.meter.flush ops).2 = level ops w.filling := by
  obtain ⟨observed,peak,sum,_,_⟩ := summed
  simp only [LevelMeter.flush,observed,peak,sum,level]

def LevelMeter.heard (ops : Float32Ops F) (m : LevelMeter F) (sample : F) : LevelMeter F :=
  { m with
    peak := ops.max m.peak (ops.magnitude sample)
    sumSquares := ops.addSquare m.sumSquares (ops.magnitude sample)
    observed := min (m.observed + 1) u32Max }

theorem heardSummed {m : Metered F} {w : Window F} (summed : m.Summed ops w)
    (fits : w.filling.length < u32Max) (sample : F) :
    ({ m with meter := m.meter.heard ops sample, seen := m.seen ++ [sample] } : Metered F).Summed ops
      ⟨w.closed,w.filling ++ [sample]⟩ where
  observed := by
    show min (m.meter.observed + 1) u32Max = _
    rw [summed.observed,List.length_append,List.length_singleton]
    exact Nat.min_eq_left fits
  peak := by
    show ops.max m.meter.peak _ = _
    rw [summed.peak]
    simp only [level,List.foldl_append,List.foldl_cons,List.foldl_nil]
  sum := by
    show ops.addSquare m.meter.sumSquares _ = _
    rw [summed.sum]
    simp only [List.foldl_append,List.foldl_cons,List.foldl_nil]
  offered := summed.offered
  sent := summed.sent

theorem observeSummed {m : Metered F} {w : Window F} (summed : m.Summed ops w)
    (fits : m.meter.blockSamples ≤ u32Max) (filling : w.filling.length < m.meter.blockSamples)
    (room : Bool) (sample : F) :
    (m.observe ops room sample).Summed ops (w.observe m.meter.blockSamples sample) := by
  have heard := heardSummed summed (filling.trans_le fits) sample
  have count : (m.meter.heard ops sample).observed = w.filling.length + 1 := by
    rw [heard.observed,List.length_append,List.length_singleton]
  unfold Window.observe
  by_cases closes : m.meter.blockSamples ≤ w.filling.length + 1
  · have same : m.meter.observe ops sample = (((m.meter.heard ops sample).flush ops).1,
        some ((m.meter.heard ops sample).flush ops).2) := if_pos (closes.trans_eq count.symm)
    rw [if_pos closes]
    unfold Metered.observe
    rw [same]
    refine ⟨rfl,rfl,rfl,?_,offerSent summed.sent room _⟩
    show m.offered ++ [_] = _
    rw [flushLevel heard,summed.offered,List.map_append,List.map_singleton]
  · have same : m.meter.observe ops sample = (m.meter.heard ops sample,none) :=
      if_neg fun full => closes (full.trans_eq count)
    rw [if_neg closes]
    unfold Metered.observe
    rw [same]
    exact heard

theorem startRunning (block : Nat) : (Metered.start ops block).Running ops block :=
  ⟨rfl,startSummed block⟩

theorem observeBlock (m : LevelMeter F) (sample : F) :
    (m.observe ops sample).1.blockSamples = m.blockSamples := by
  unfold LevelMeter.observe
  dsimp only
  split <;> rfl

theorem observeSeen (ops : Float32Ops F) (m : Metered F) (room : Bool) (sample : F) :
    (m.observe ops room sample).meter = (m.meter.observe ops sample).1 ∧
      (m.observe ops room sample).seen = m.seen ++ [sample] := by
  unfold Metered.observe
  dsimp only
  split <;> exact ⟨rfl,rfl⟩

section Running
variable {block : Nat} (some_ : 0 < block) (fits : block ≤ u32Max) {m : Metered F}
include some_ fits

theorem observeRunning (running : m.Running ops block) (room : Bool) (sample : F) :
    (m.observe ops room sample).Running ops block ∧
      (m.observe ops room sample).seen = m.seen ++ [sample] := by
  obtain ⟨same,summed⟩ := running
  have next := observeSummed summed (same ▸ fits)
    ((Windows.filledTiles some_ m.seen).open_.trans_eq same.symm) room sample
  obtain ⟨meter,seen⟩ := observeSeen ops m room sample
  refine ⟨⟨?_,?_⟩,seen⟩
  · rw [meter,observeBlock,same]
  · rw [seen,Window.filled,List.foldl_append]
    rw [same] at next
    exact next

end Running

theorem finishOffered {block : Nat} {m : Metered F} (running : m.Running ops block)
    (room : Bool) (answers : Nat → TrySend) :
    (m.finish ops room answers).offered =
      (Window.filled block m.seen).finish.map (level ops) ++ [Metered.silence ops] ∧
    (m.finish ops room answers).sent.Sublist (m.finish ops room answers).offered ∧
    (m.finish ops room answers).seen = m.seen ∧
    (emitTerminal answers terminalLevelSendAttempts 0 = true →
      (m.finish ops room answers).sent.getLast? = some (Metered.silence ops)) := by
  have tail {m : Metered F} {w : Window F} (summed : m.sent.Sublist m.offered)
      (offered : m.offered = w.finish.map (level ops)) (answered : Bool) :
      (m.offer answered (Metered.silence ops)).offered =
        w.finish.map (level ops) ++ [Metered.silence ops] ∧
      (m.offer answered (Metered.silence ops)).sent.Sublist
        (m.offer answered (Metered.silence ops)).offered ∧
      (answered = true →
        (m.offer answered (Metered.silence ops)).sent.getLast? = some (Metered.silence ops)) := by
    refine ⟨congrArg (· ++ _) offered,offerSent summed _ _,fun yes => ?_⟩
    subst yes
    exact List.getLast?_concat
  obtain ⟨_,summed⟩ := running
  unfold Metered.finish
  by_cases holds : 0 < m.meter.observed
  · have filling : (Window.filled block m.seen).filling ≠ [] := fun empty => by
      rw [summed.observed,empty] at holds
      cases holds
    simp only [if_pos holds]
    obtain ⟨offered,sent,last⟩ := tail
      (m := { m with meter := (m.meter.flush ops).1 }.offer room (m.meter.flush ops).2)
      (w := .filled block m.seen) (offerSent summed.sent room _) (by
        show m.offered ++ [_] = _
        rw [flushLevel summed,summed.offered,Window.finish,if_neg filling,List.map_append,
          List.map_singleton]) (emitTerminal answers terminalLevelSendAttempts 0)
    exact ⟨offered,sent,rfl,last⟩
  · have filling : (Window.filled block m.seen).filling = [] := by
      rw [← List.length_eq_zero_iff,← summed.observed]
      omega
    simp only [if_neg holds]
    obtain ⟨offered,sent,last⟩ := tail (w := .filled block m.seen) summed.sent (by
      rw [summed.offered,Window.finish,if_pos filling])
      (emitTerminal answers terminalLevelSendAttempts 0)
    exact ⟨offered,sent,rfl,last⟩

theorem terminalSent (answers : Nat → TrySend) (left tried : Nat) :
    emitTerminal answers left tried = true ↔ ∃ waited < left, answers (tried + waited) = .sent ∧
      ∀ earlier < waited, answers (tried + earlier) = .full := by
  induction left generalizing tried with
  | zero => simp [emitTerminal]
  | succ left ih =>
    unfold emitTerminal
    cases first : answers tried with
    | sent =>
      exact iff_of_true rfl
        ⟨0,Nat.succ_pos left,first,fun _ none_ => absurd none_ (Nat.not_lt_zero _)⟩
    | closed =>
      simp only [Bool.false_eq_true,false_iff,not_exists,not_and]
      intro waited _ sent full
      cases waited with
      | zero => rw [Nat.add_zero,first] at sent; cases sent
      | succ waited =>
        have here := full 0 (Nat.succ_pos _)
        rw [Nat.add_zero,first] at here
        cases here
    | full =>
      rw [ih]
      constructor
      · rintro ⟨waited,inside,sent,before⟩
        refine ⟨waited + 1,Nat.succ_lt_succ inside,by rwa [Nat.add_right_comm] at sent,
          fun earlier less => ?_⟩
        cases earlier with
        | zero => exact first
        | succ earlier =>
          have here := before earlier (Nat.lt_of_succ_lt_succ less)
          rwa [Nat.add_right_comm] at here
      · rintro ⟨waited,inside,sent,before⟩
        cases waited with
        | zero => rw [Nat.add_zero,first] at sent; cases sent
        | succ waited =>
          refine ⟨waited,Nat.lt_of_succ_lt_succ inside,by rwa [Nat.add_right_comm],
            fun earlier less => ?_⟩
          rw [Nat.add_right_comm]
          exact before (earlier + 1) (Nat.succ_lt_succ less)

theorem finishSeen (ops : Float32Ops F) (m : Metered F) (room : Bool) (answers : Nat → TrySend) :
    (m.finish ops room answers).seen = m.seen := by
  unfold Metered.finish
  dsimp only
  split <;> rfl

structure Metered.Told (ops : Float32Ops F) (block : Nat) (dropped : Bool) (m : Metered F) : Prop where
  tiles : Tiles block m.seen (.filled block m.seen)
  offered : m.offered =
    if dropped then (Window.filled block m.seen).finish.map (level ops) ++ [Metered.silence ops]
    else (Window.filled block m.seen).closed.map (level ops)
  sent : m.sent.Sublist m.offered

def Metered.Kept (ops : Float32Ops F) (block : Nat) (dropped : Bool) (m : Metered F) : Prop :=
  if dropped then m.Told ops block true else m.Running ops block

theorem keptTold {block : Nat} (some_ : 0 < block) {dropped : Bool} {m : Metered F}
    (kept : m.Kept ops block dropped) : m.Told ops block dropped := by
  cases dropped with
  | true => exact kept
  | false => exact ⟨Windows.filledTiles some_ _,kept.summed.offered,kept.summed.sent⟩

theorem finishKept {block : Nat} (some_ : 0 < block) {m : Metered F} (running : m.Running ops block)
    (room : Bool) (answers : Nat → TrySend) : (m.finish ops room answers).Kept ops block true := by
  obtain ⟨offered,sent,seen,_⟩ := finishOffered running room answers
  refine ⟨Windows.filledTiles some_ _,?_,sent⟩
  rw [seen]
  exact offered

def intOps : Float32Ops Int := ⟨0,fun n => n.natAbs,max,fun sum n => sum + n * n,fun sum _ => sum,id⟩

structure PlayableAudio (F : Type*) where
  samples : List F
  repeats : Bool

/- The first `n` values that the stream takes from a clip. Where a repeated clip starts over, its
first sample is played twice. -/
def PlayableAudio.tune (clip : PlayableAudio F) (zero : F) (n : Nat) : List F :=
  if clip.repeats then
    (List.range n).map fun i =>
      (clip.samples ++ [clip.samples.headD zero]).getD (i % (clip.samples.length + 1)) zero
  else clip.samples.take n

inductive Phase where
  | open_ | leaving | returned
  deriving DecidableEq, Repr

/- `signal` is the token of `done_tx`; `failed` is whether the device has reported an error. What
the stream has written is what its meter has seen. -/
structure Speaker (F : Type*) where
  cursor : Nat
  cancel : Bool
  done : Bool
  signal : Bool
  failed : Bool
  phase : Phase
  metered : Metered F

inductive SpeakerLabel where
  | sample (room : Bool)
  | cancel
  | error
  | poll
  | drop (room : Bool) (answers : Nat → TrySend)

namespace Speaker
variable (ops : Float32Ops F) (clip : PlayableAudio F)

def start (block : Nat) : Speaker F := ⟨0,false,false,false,false,.open_,.start ops block⟩

def next (s : Speaker F) : F × Speaker F :=
  if s.cancel || s.done then (ops.zero,s)
  else match clip.samples[s.cursor]? with
    | some value => (value,{ s with cursor := s.cursor + 1 })
    | none =>
      if clip.repeats then (clip.samples.headD ops.zero,{ s with cursor := 0 })
      else (ops.zero,{ s with done := true, signal := true })

def step (s : Speaker F) : SpeakerLabel → Option (Speaker F)
  | .sample room =>
    if s.phase = .returned then none
    else some { (s.next ops clip).2 with
      metered := (s.next ops clip).2.metered.observe ops room (s.next ops clip).1 }
  | .cancel => some { s with cancel := true }
  | .error =>
    if s.phase = .returned then none
    else some { s with done := true, signal := true, failed := true }
  | .poll =>
    if s.phase = .open_ then
      some (if s.cancel || s.signal then { s with phase := .leaving } else s)
    else none
  | .drop room answers =>
    if s.phase = .leaving then
      some { s with phase := .returned, metered := s.metered.finish ops room answers }
    else none

structure Plays (s : Speaker F) (n k : Nat) : Prop where
  written : s.metered.seen = clip.tune ops.zero n ++ List.replicate k ops.zero
  cursor : s.cursor = if clip.repeats then n % (clip.samples.length + 1) else n
  inside : clip.repeats = false → n ≤ clip.samples.length
  silent : k ≠ 0 → s.cancel = true ∨ s.done = true
  done : s.done = true → s.failed = true ∨ clip.repeats = false ∧ n = clip.samples.length
  signal : s.signal = true → s.done = true
  left : s.phase ≠ .open_ → s.cancel = true ∨ s.signal = true

variable {ops clip} {s t : Speaker F} {n k : Nat}

theorem startPlays (block : Nat) : (start ops block).Plays ops clip 0 0 where
  written := by simp [start,Metered.start,PlayableAudio.tune]
  cursor := by simp [start]
  inside := fun _ => Nat.zero_le _
  silent := fun more => absurd rfl more
  done := fun same => (by cases same)
  signal := fun same => (by cases same)
  left := fun other => absurd rfl other

theorem tuneRepeated (repeats : clip.repeats = true) (zero : F) (n : Nat) :
    clip.tune zero (n + 1) = clip.tune zero n ++
      [(clip.samples ++ [clip.samples.headD zero]).getD (n % (clip.samples.length + 1)) zero] := by
  simp only [PlayableAudio.tune,repeats,if_true,List.range_succ,List.map_append,List.map_singleton]

theorem tuneOnce (once : clip.repeats = false) (zero : F) {n : Nat} {value : F}
    (here : clip.samples[n]? = some value) :
    clip.tune zero (n + 1) = clip.tune zero n ++ [value] := by
  simp only [PlayableAudio.tune,once,Bool.false_eq_true,if_false]
  rw [List.take_add_one,here,Option.toList_some]

theorem Plays.sounding (plays : s.Plays ops clip n k) (on : (s.cancel || s.done) = false) : k = 0 := by
  by_contra more
  rcases plays.silent more with same | same <;> simp [same] at on

theorem nextTune (plays : s.Plays ops clip n k) (on : (s.cancel || s.done) = false) :
    (s.next ops clip = (ops.zero,{ s with done := true, signal := true }) ∧
      clip.repeats = false ∧ n = clip.samples.length) ∨
    ∃ value, s.next ops clip = (value,{ s with
        cursor := if clip.repeats then (n + 1) % (clip.samples.length + 1) else n + 1 }) ∧
      clip.tune ops.zero (n + 1) = clip.tune ops.zero n ++ [value] ∧
      (clip.repeats = false → n + 1 ≤ clip.samples.length) := by
  have cursor := plays.cursor
  unfold next
  rw [on]
  cases repeats : clip.repeats with
  | false =>
    rw [repeats,if_neg (by simp)] at cursor
    cases here : clip.samples[n]? with
    | none =>
      refine .inl ⟨?_,rfl,Nat.le_antisymm (plays.inside repeats) (List.getElem?_eq_none_iff.mp here)⟩
      simp [cursor,here]
    | some value =>
      refine .inr ⟨value,?_,tuneOnce repeats _ here,fun _ => ?_⟩
      · simp [cursor,here]
      · exact (List.getElem?_eq_some_iff.mp here).1
  | true =>
    rw [repeats,if_pos rfl] at cursor
    refine .inr ⟨_,?_,tuneRepeated repeats _ _,fun other => (by cases other)⟩
    have bound : n % (clip.samples.length + 1) < clip.samples.length + 1 := Nat.mod_lt _ (by omega)
    cases here : clip.samples[n % (clip.samples.length + 1)]? with
    | some value =>
      have inside := (List.getElem?_eq_some_iff.mp here).1
      have next : (n + 1) % (clip.samples.length + 1) = n % (clip.samples.length + 1) + 1 := by
        rw [Nat.add_mod,Nat.mod_eq_of_lt (a := 1) (by omega)]
        exact Nat.mod_eq_of_lt (by omega)
      simp [cursor,here,next,List.getElem?_append_left inside]
    | none =>
      have last : n % (clip.samples.length + 1) = clip.samples.length :=
        Nat.le_antisymm (by omega) (List.getElem?_eq_none_iff.mp here)
      have next : (n + 1) % (clip.samples.length + 1) = 0 := by
        rw [Nat.add_mod,last]
        simp
      simp [cursor,next,last]

theorem stepPlays {label : SpeakerLabel} (enabled : s.step ops clip label = some t)
    (plays : s.Plays ops clip n k) : ∃ n' k', t.Plays ops clip n' k' ∧
      ((s.cancel || s.done) = true → (t.cancel || t.done) = true ∧ n' = n ∧ k ≤ k') := by
  cases label with
  | sample room =>
    simp only [step] at enabled
    split at enabled
    · cases enabled
    obtain rfl := Option.some.inj enabled
    have seen (m : Metered F) (value : F) := (observeSeen ops m room value).2
    cases on : s.cancel || s.done with
    | true =>
      have same : s.next ops clip = (ops.zero,s) := by simp [next,on]
      rw [same]
      refine ⟨n,k + 1,⟨?_,plays.cursor,plays.inside,fun _ => ?_,plays.done,plays.signal,plays.left⟩,
        fun _ => ⟨on,rfl,Nat.le_succ k⟩⟩
      · show (s.metered.observe ops room ops.zero).seen = _
        rw [seen,plays.written,List.append_assoc,List.replicate_succ']
      · exact (Bool.or_eq_true _ _).mp on
    | false =>
      obtain rfl := plays.sounding on
      have written := plays.written
      rw [List.replicate_zero,List.append_nil] at written
      obtain ⟨same,once,whole⟩ | ⟨value,same,tune,inside⟩ := nextTune plays on
      · rw [same]
        refine ⟨n,1,⟨?_,plays.cursor,plays.inside,fun _ => .inr rfl,fun _ => .inr ⟨once,whole⟩,
          fun _ => rfl,fun left => ?_⟩,fun past => (by cases past)⟩
        · show (s.metered.observe ops room ops.zero).seen = _
          rw [seen,written]
          rfl
        · exact .inr rfl
      · rw [same]
        refine ⟨n + 1,0,⟨?_,rfl,inside,fun more => absurd rfl more,fun past => ?_,plays.signal,
          plays.left⟩,fun past => (by cases past)⟩
        · show (s.metered.observe ops room value).seen = _
          rw [seen,written,tune,List.replicate_zero,List.append_nil]
        · have off := (Bool.or_eq_false_iff.mp on).2
          rw [show s.done = true from past] at off
          cases off
  | cancel =>
    obtain rfl := Option.some.inj enabled
    exact ⟨n,k,⟨plays.written,plays.cursor,plays.inside,fun _ => .inl rfl,plays.done,plays.signal,
      fun _ => .inl rfl⟩,fun _ => ⟨rfl,rfl,le_rfl⟩⟩
  | error =>
    simp only [step] at enabled
    split at enabled
    · cases enabled
    obtain rfl := Option.some.inj enabled
    exact ⟨n,k,⟨plays.written,plays.cursor,plays.inside,fun _ => .inr rfl,fun _ => .inl rfl,
      fun _ => rfl,fun _ => .inr rfl⟩,fun _ => ⟨by simp,rfl,le_rfl⟩⟩
  | poll =>
    simp only [step] at enabled
    split at enabled
    · obtain rfl := Option.some.inj enabled
      split
      · rename_i ends_
        exact ⟨n,k,⟨plays.written,plays.cursor,plays.inside,plays.silent,plays.done,plays.signal,
          fun _ => (Bool.or_eq_true _ _).mp ends_⟩,fun past => ⟨past,rfl,le_rfl⟩⟩
      · exact ⟨n,k,plays,fun past => ⟨past,rfl,le_rfl⟩⟩
    · cases enabled
  | drop room answers =>
    simp only [step] at enabled
    split at enabled
    · rename_i leaving
      obtain rfl := Option.some.inj enabled
      refine ⟨n,k,⟨?_,plays.cursor,plays.inside,plays.silent,plays.done,plays.signal,
        fun _ => plays.left (by simp [leaving])⟩,fun past => ⟨past,rfl,le_rfl⟩⟩
      rw [← plays.written]
      exact finishSeen ops s.metered room answers
    · cases enabled

theorem stepKept {block : Nat} (some_ : 0 < block) (fits : block ≤ u32Max) {label : SpeakerLabel}
    (enabled : s.step ops clip label = some t)
    (kept : s.metered.Kept ops block (s.phase == .returned)) :
    t.metered.Kept ops block (t.phase == .returned) := by
  cases label with
  | sample room =>
    simp only [step] at enabled
    split at enabled
    · cases enabled
    rename_i open_
    obtain rfl := Option.some.inj enabled
    have same : (s.next ops clip).2.metered = s.metered ∧ (s.next ops clip).2.phase = s.phase := by
      unfold next
      repeat' split
      all_goals exact ⟨rfl,rfl⟩
    have still : (s.phase == .returned) = false := beq_false_of_ne open_
    rw [still] at kept
    show (_ : Metered F).Kept ops block ((s.next ops clip).2.phase == .returned)
    rw [same.1,same.2,still]
    exact (observeRunning some_ fits kept room _).1
  | cancel =>
    obtain rfl := Option.some.inj enabled
    exact kept
  | error =>
    simp only [step] at enabled
    split at enabled
    · cases enabled
    obtain rfl := Option.some.inj enabled
    exact kept
  | poll =>
    simp only [step] at enabled
    split at enabled
    · rename_i open_
      obtain rfl := Option.some.inj enabled
      rw [open_] at kept
      split
      · exact kept
      · rw [open_]
        exact kept
    · cases enabled
  | drop room answers =>
    simp only [step] at enabled
    split at enabled
    · rename_i leaving
      obtain rfl := Option.some.inj enabled
      rw [leaving] at kept
      exact finishKept some_ kept room answers
    · cases enabled

theorem runPlays {labels : List SpeakerLabel} (plays : s.Plays ops clip n k)
    (run : Transition.final (step ops clip) s labels = some t) : ∃ n' k', t.Plays ops clip n' k' ∧
      ((s.cancel || s.done) = true → (t.cancel || t.done) = true ∧ n' = n ∧ k ≤ k') := by
  induction labels generalizing s n k with
  | nil =>
    obtain rfl := Option.some.inj run
    exact ⟨n,k,plays,fun past => ⟨past,rfl,le_rfl⟩⟩
  | cons label rest ih =>
    obtain ⟨next,enabled,later⟩ := Option.bind_eq_some_iff.mp run
    obtain ⟨n₁,k₁,plays₁,still₁⟩ := stepPlays enabled plays
    obtain ⟨n₂,k₂,plays₂,still₂⟩ := ih plays₁ later
    refine ⟨n₂,k₂,plays₂,fun past => ?_⟩
    obtain ⟨past,rfl,more⟩ := still₁ past
    obtain ⟨past,rfl,later⟩ := still₂ past
    exact ⟨past,rfl,more.trans later⟩

theorem speakerPlays {block : Nat} {labels : List SpeakerLabel}
    (run : Transition.final (step ops clip) (start ops block) labels = some t) :
    ∃ n k, t.metered.seen = clip.tune ops.zero n ++ List.replicate k ops.zero ∧
      (k ≠ 0 → t.cancel = true ∨ t.done = true) ∧
      (t.phase ≠ .open_ → t.cancel = false → t.failed = false →
        clip.repeats = false ∧ clip.tune ops.zero n = clip.samples) ∧
      ((t.cancel || t.done) = true → ∀ later u,
        Transition.final (step ops clip) t later = some u →
        ∃ more, u.metered.seen = t.metered.seen ++ List.replicate more ops.zero) := by
  obtain ⟨n,k,plays,_⟩ := runPlays (startPlays block) run
  refine ⟨n,k,plays.written,plays.silent,fun left kept sound => ?_,fun past later u run => ?_⟩
  · have signalled := (plays.left left).resolve_left (by rw [kept]; exact Bool.false_ne_true)
    obtain ⟨once,whole⟩ := (plays.done (plays.signal signalled)).resolve_left
      (by rw [sound]; exact Bool.false_ne_true)
    refine ⟨once,?_⟩
    simp only [PlayableAudio.tune,once,Bool.false_eq_true,if_false,whole,List.take_length]
  · obtain ⟨n',k',plays',still⟩ := runPlays plays run
    obtain ⟨_,rfl,more⟩ := still past
    refine ⟨k' - k,?_⟩
    rw [plays'.written,plays.written,List.append_assoc,List.replicate_append_replicate,
      Nat.add_sub_cancel' more]

theorem dialToneCut : ∃ t, Transition.final (step intOps ⟨[5,-3],true⟩) (start intOps 4)
      [.sample true,.sample true,.sample false,.sample true,.sample true,.cancel,.sample true,.poll,
        .drop true fun _ => .sent] = some t ∧
    t.phase = .returned ∧ t.metered.seen = [5,-3,5,5,-3,0] ∧
    ∃ n k, [5,-3,5,5,-3,0] = PlayableAudio.tune ⟨[5,-3],true⟩ 0 n ++ List.replicate k (0 : Int) := by
  have run : (Transition.final (step intOps ⟨[5,-3],true⟩) (start intOps 4)
      [.sample true,.sample true,.sample false,.sample true,.sample true,.cancel,.sample true,.poll,
        .drop true fun _ => .sent]).map (fun t => (t.phase,t.metered.seen)) =
      some (.returned,[5,-3,5,5,-3,0]) := by decide +kernel
  obtain ⟨t,ends_,same⟩ := Option.map_eq_some_iff.mp run
  obtain ⟨returned,seen⟩ := Prod.mk.inj same
  obtain ⟨n,k,written,_⟩ := speakerPlays ends_
  exact ⟨t,ends_,returned,seen,n,k,seen ▸ written⟩

end Speaker

/- The stream of a recording. `heard` is what the device handed over while it was not cancelled;
`stopped`, `failed` and `expired` are the ends that do not come from the samples. -/
structure Capture (F : Type*) where
  taken : List Int
  cancel : Bool
  phase : Phase
  heard : List F
  stopped : Bool
  failed : Bool
  expired : Bool
  metered : Metered F

inductive CaptureLabel (F : Type*) where
  | callback (data : List (F × Bool))
  | stop
  | error
  | leave (expired : Bool)
  | drop (room : Bool) (answers : Nat → TrySend)

namespace Capture
variable (ops : Float32Ops F) (maxSamples : Nat)

def start (block : Nat) : Capture F := ⟨[],false,.open_,[],false,false,false,.start ops block⟩

def takeSamples (s : Capture F) : List (F × Bool) → Capture F
  | [] => s
  | (value,room) :: rest =>
    let s := { s with
      taken := s.taken ++ [ops.scaled value]
      metered := s.metered.observe ops room value }
    if maxSamples ≤ s.taken.length then { s with cancel := true } else takeSamples s rest

def step (s : Capture F) : CaptureLabel F → Option (Capture F)
  | .callback data =>
    if s.phase = .returned then none
    else if s.cancel then some s
    else some (takeSamples ops maxSamples { s with heard := s.heard ++ data.map Prod.fst } data)
  | .stop => some { s with cancel := true, stopped := true }
  | .error =>
    if s.phase = .returned then none else some { s with cancel := true, failed := true }
  | .leave expired =>
    if s.phase = .open_ ∧ (s.cancel = true ∨ expired = true) then
      some { s with phase := .leaving, expired }
    else none
  | .drop room answers =>
    if s.phase = .leaving then
      some { s with phase := .returned, metered := s.metered.finish ops room answers }
    else none

/- A recording holds at least the sample with which the limit is noticed. -/
def limit : Nat := max maxSamples 1

variable {ops maxSamples} {s t : Capture F}

theorem takenSamples (ops : Float32Ops F) (maxSamples : Nat) (data : List (F × Bool))
    (room : s.taken.length < limit maxSamples)
    (on : s.cancel = false) :
    ∃ metered : Metered F,
      metered.seen = s.metered.seen ++ (data.map Prod.fst).take (limit maxSamples - s.taken.length) ∧
      takeSamples ops maxSamples s data = { s with
        taken := s.taken ++
          ((data.map Prod.fst).take (limit maxSamples - s.taken.length)).map ops.scaled
        cancel := decide (limit maxSamples ≤ s.taken.length + data.length)
        metered } ∧
      ∀ block, 0 < block → block ≤ u32Max → s.metered.Running ops block →
        metered.Running ops block := by
  induction data generalizing s with
  | nil =>
    refine ⟨s.metered,by simp,?_,fun _ _ _ running => running⟩
    have more :
        decide (limit maxSamples ≤ s.taken.length + ([] : List (F × Bool)).length) = s.cancel := by
      rw [on,decide_eq_false_iff_not]
      exact Nat.not_le.mpr room
    rw [more]
    simp [takeSamples]
  | cons first rest ih =>
    obtain ⟨value,free⟩ := first
    obtain ⟨n,left⟩ := Nat.exists_eq_add_of_lt room
    have split_ : (((value,free) :: rest).map Prod.fst).take (limit maxSamples - s.taken.length) =
        value :: (rest.map Prod.fst).take n := by
      rw [left,show s.taken.length + n + 1 - s.taken.length = n + 1 by omega]
      rfl
    rw [split_]
    have count : (s.taken ++ [ops.scaled value]).length = s.taken.length + 1 := by simp
    obtain ⟨_,seen⟩ := observeSeen ops s.metered free value
    unfold takeSamples
    dsimp only
    rw [count]
    split
    · rename_i full
      have last : n = 0 := by
        unfold limit at left
        omega
      subst last
      refine ⟨s.metered.observe ops free value,by rw [seen,List.take_zero],?_,
        fun block some_ fits running => (observeRunning some_ fits running free value).1⟩
      have past : limit maxSamples ≤ s.taken.length + ((value,free) :: rest).length := by
        rw [left,List.length_cons]
        omega
      rw [decide_eq_true past]
      rfl
    · rename_i fewer
      obtain ⟨metered,after,same,runs⟩ := ih (s := { s with
        taken := s.taken ++ [ops.scaled value]
        metered := s.metered.observe ops free value }) (by
          show (s.taken ++ [ops.scaled value]).length < _
          rw [count]
          exact (Nat.not_le.mp fewer).trans_le (le_max_left _ _)) on
      have remains : limit maxSamples - (s.taken ++ [ops.scaled value]).length = n := by
        rw [count]
        omega
      rw [remains] at after same
      refine ⟨metered,?_,?_,fun block some_ fits running =>
        runs block some_ fits (observeRunning some_ fits running free value).1⟩
      · rw [after,seen,List.append_assoc]
        rfl
      · rw [same,count,List.length_cons,Nat.add_right_comm,List.append_assoc]
        rfl

structure Holds (ops : Float32Ops F) (maxSamples : Nat) (s : Capture F) : Prop where
  taken : s.taken = (s.heard.take (limit maxSamples)).map ops.scaled
  seen : s.metered.seen = s.heard.take (limit maxSamples)
  on : s.cancel = false → s.heard.length < limit maxSamples
  ended : s.cancel = true → s.stopped = true ∨ s.failed = true ∨ limit maxSamples ≤ s.heard.length
  left : s.phase ≠ .open_ → s.cancel = true ∨ s.expired = true

theorem callbackHolds (holds : s.Holds ops maxSamples) (on : s.cancel = false)
    (data : List (F × Bool)) :
    (takeSamples ops maxSamples { s with heard := s.heard ++ data.map Prod.fst } data).Holds
      ops maxSamples := by
  have short := holds.on on
  have taken := holds.taken
  have seen := holds.seen
  rw [List.take_of_length_le short.le] at taken seen
  have count : s.taken.length = s.heard.length := by rw [taken,List.length_map]
  obtain ⟨metered,after,same,_⟩ := takenSamples ops maxSamples
    (s := { s with heard := s.heard ++ data.map Prod.fst }) data (count.trans_lt short) on
  have more : (s.heard ++ data.map Prod.fst).take (limit maxSamples) =
      s.heard ++ (data.map Prod.fst).take (limit maxSamples - s.taken.length) := by
    rw [List.take_append,List.take_of_length_le short.le,count]
  rw [same]
  refine ⟨?_,?_,fun still => ?_,fun past => .inr (.inr ?_),fun left => .inr ?_⟩
  · show s.taken ++ _ = ((s.heard ++ data.map Prod.fst).take _).map _
    rw [more,List.map_append,← taken]
  · show metered.seen = (s.heard ++ data.map Prod.fst).take _
    rw [after,more,seen]
  · have fewer := Nat.not_le.mp (of_decide_eq_false still)
    show (s.heard ++ data.map Prod.fst).length < _
    rw [List.length_append,List.length_map,← count]
    exact fewer
  · have full := of_decide_eq_true past
    show _ ≤ (s.heard ++ data.map Prod.fst).length
    rw [List.length_append,List.length_map,← count]
    exact full
  · exact (holds.left left).resolve_left (by rw [on]; exact Bool.false_ne_true)

theorem stepHolds {label : CaptureLabel F} (enabled : s.step ops maxSamples label = some t)
    (holds : s.Holds ops maxSamples) : t.Holds ops maxSamples := by
  obtain ⟨taken,seen,on,ended,left⟩ := holds
  cases label with
  | callback data =>
    simp only [step] at enabled
    split at enabled
    · cases enabled
    split at enabled
    · obtain rfl := Option.some.inj enabled
      exact ⟨taken,seen,on,ended,left⟩
    · rename_i open_
      obtain rfl := Option.some.inj enabled
      exact callbackHolds ⟨taken,seen,on,ended,left⟩ (by simpa using open_) data
  | stop =>
    obtain rfl := Option.some.inj enabled
    exact ⟨taken,seen,fun off => (by cases off),fun _ => .inl rfl,fun _ => .inl rfl⟩
  | error =>
    simp only [step] at enabled
    split at enabled
    · cases enabled
    obtain rfl := Option.some.inj enabled
    exact ⟨taken,seen,fun off => (by cases off),fun _ => .inr (.inl rfl),fun _ => .inl rfl⟩
  | leave expired =>
    simp only [step] at enabled
    split at enabled
    · rename_i may
      obtain rfl := Option.some.inj enabled
      exact ⟨taken,seen,on,ended,fun _ => may.2⟩
    · cases enabled
  | drop room answers =>
    simp only [step] at enabled
    split at enabled
    · rename_i leaving
      obtain rfl := Option.some.inj enabled
      refine ⟨taken,?_,on,ended,fun _ => left (by simp [leaving])⟩
      rw [← seen]
      exact finishSeen ops s.metered room answers
    · cases enabled

theorem stepKept {block : Nat} (some_ : 0 < block) (fits : block ≤ u32Max) {label : CaptureLabel F}
    (enabled : s.step ops maxSamples label = some t) (holds : s.Holds ops maxSamples)
    (kept : s.metered.Kept ops block (s.phase == .returned)) :
    t.metered.Kept ops block (t.phase == .returned) := by
  cases label with
  | callback data =>
    simp only [step] at enabled
    split at enabled
    · cases enabled
    rename_i open_
    split at enabled
    · obtain rfl := Option.some.inj enabled
      exact kept
    · rename_i uncancelled
      obtain rfl := Option.some.inj enabled
      have on : s.cancel = false := by simpa using uncancelled
      have short := holds.on on
      have count : s.taken.length = s.heard.length := by
        rw [holds.taken,List.length_map,List.take_of_length_le short.le]
      obtain ⟨metered,_,same,runs⟩ := takenSamples ops maxSamples
        (s := { s with heard := s.heard ++ data.map Prod.fst }) data (count.trans_lt short) on
      have still : (s.phase == .returned) = false := beq_false_of_ne open_
      rw [still] at kept
      rw [same]
      show metered.Kept ops block (s.phase == .returned)
      rw [still]
      exact runs block some_ fits kept
  | stop =>
    obtain rfl := Option.some.inj enabled
    exact kept
  | error =>
    simp only [step] at enabled
    split at enabled
    · cases enabled
    obtain rfl := Option.some.inj enabled
    exact kept
  | leave expired =>
    simp only [step] at enabled
    split at enabled
    · rename_i may
      obtain rfl := Option.some.inj enabled
      rw [may.1] at kept
      exact kept
    · cases enabled
  | drop room answers =>
    simp only [step] at enabled
    split at enabled
    · rename_i leaving
      obtain rfl := Option.some.inj enabled
      rw [leaving] at kept
      exact finishKept some_ kept room answers
    · cases enabled

theorem startHolds (block : Nat) : (start ops block).Holds ops maxSamples where
  taken := by simp [start]
  seen := by simp [start,Metered.start]
  on := fun _ => Nat.lt_of_lt_of_le Nat.zero_lt_one (le_max_right _ _)
  ended := fun same => (by cases same)
  left := fun other => absurd rfl other

theorem reachedHolds {block : Nat} {labels : List (CaptureLabel F)}
    (run : Transition.final (step ops maxSamples) (start ops block) labels = some t) :
    t.Holds ops maxSamples :=
  Transition.finalAlong _ (Holds ops maxSamples) (fun _ _ _ enabled held _ => stepHolds enabled held)
    (startHolds block) (Transition.alongAlways _ _ labels) run

end Capture

def blockAligned (blockSamples : Nat) (samples : List Int) : List Int :=
  if 0 < blockSamples ∧ samples.length % blockSamples ≠ 0 then
    samples ++ List.replicate
      ((samples.length + blockSamples - 1) / blockSamples * blockSamples - samples.length) 0
  else samples

theorem alignedBlocks {blockSamples : Nat} (some_ : 0 < blockSamples) (samples : List Int) :
    ∃ pad < blockSamples, blockAligned blockSamples samples = samples ++ List.replicate pad 0 ∧
      blockSamples ∣ (blockAligned blockSamples samples).length := by
  unfold blockAligned
  split
  · rename_i partial_
    have parts := Nat.div_add_mod samples.length blockSamples
    have less := Nat.mod_lt samples.length some_
    have more : 0 < samples.length % blockSamples := Nat.pos_of_ne_zero partial_.2
    have ceil :
        (samples.length + blockSamples - 1) / blockSamples = samples.length / blockSamples + 1 := by
      refine Nat.div_eq_of_lt_le ?_ ?_
      · rw [Nat.add_mul,Nat.one_mul,Nat.mul_comm]
        omega
      · rw [Nat.add_mul,Nat.add_mul,Nat.one_mul,Nat.mul_comm (samples.length / blockSamples)]
        omega
    have whole : (samples.length / blockSamples + 1) * blockSamples =
        samples.length + (blockSamples - samples.length % blockSamples) := by
      rw [Nat.add_mul,Nat.one_mul,Nat.mul_comm (samples.length / blockSamples)]
      omega
    rw [ceil,whole,Nat.add_sub_cancel_left]
    refine ⟨_,by omega,rfl,?_⟩
    rw [List.length_append,List.length_replicate,← whole]
    exact Nat.dvd_mul_left _ _
  · rename_i full
    refine ⟨0,some_,(List.append_nil _).symm,Nat.dvd_of_mod_eq_zero ?_⟩
    by_contra other
    exact full ⟨some_,other⟩

/- Whatever pieces the device hands over and whoever ends it, the recording is the beginning of what
was heard, and where nothing else ended it it lasts exactly the configured time. -/
theorem recordingFits {built : Features} {config : RuntimeConfig}
    (valid : validateConfig built config = .ok ()) {block : Nat} {labels : List (CaptureLabel F)}
    {t : Capture F}
    (run : Transition.final (Capture.step ops config.audio.maxSamples) (.start ops block) labels =
      some t) :
    t.taken = (t.heard.take config.audio.maxSamples).map ops.scaled ∧
    config.audio.durationMs t.taken.length ≤ config.audio.maxRecordingSecs.toNat * 1000 ∧
    (t.phase ≠ .open_ → t.stopped = false → t.failed = false → t.expired = false →
      config.audio.durationMs t.taken.length = config.audio.maxRecordingSecs.toNat * 1000) ∧
    (∀ blockSize, 0 < blockSize →
      ∃ pad < blockSize * config.audio.channels.toNat,
        blockAligned (blockSize * config.audio.channels.toNat) t.taken =
          t.taken ++ List.replicate pad 0 ∧
        blockSize * config.audio.channels.toNat ∣
          (blockAligned (blockSize * config.audio.channels.toNat) t.taken).length) := by
  have audio := validAudio valid
  have holds := Capture.reachedHolds run
  have exact_ := maxSamplesExact audio
  have some_ : 1 ≤ config.audio.maxSamples := by
    rw [exact_]
    have longest : 1 ≤ config.audio.maxRecordingSecs.toNat := by
      have := audio.shortest
      omega
    exact Nat.mul_pos (Nat.mul_pos audio.rate audio.channels) longest
  have limit : Capture.limit config.audio.maxSamples = config.audio.maxSamples := max_eq_left some_
  have taken := holds.taken
  rw [limit] at taken
  have inside : t.taken.length ≤ config.audio.maxSamples := by
    rw [taken,List.length_map,List.length_take]
    exact Nat.min_le_left _ _
  refine ⟨taken,durationBound audio inside,fun left kept sound early => ?_,fun blockSize positive =>
    alignedBlocks (Nat.mul_pos positive audio.channels) _⟩
  have full : config.audio.maxSamples ≤ t.heard.length := by
    rcases holds.left left with cancelled | late
    · rcases holds.ended cancelled with same | same | full
      · rw [kept] at same
        cases same
      · rw [sound] at same
        cases same
      · exact limit ▸ full
    · rw [early] at late
      cases late
  have whole : t.taken.length = config.audio.maxSamples := by
    rw [taken,List.length_map,List.length_take,Nat.min_eq_left full]
  rw [whole]
  exact durationFull audio

def sixSeconds : RuntimeConfig := { audio := { sampleRateHz := 1, maxRecordingSecs := 6 } }

theorem sixSecondsRecorded :
    ∃ t, Transition.final (Capture.step intOps sixSeconds.audio.maxSamples) (.start intOps 4)
        [.callback [(1,true),(2,true)],
          .callback [(3,true),(4,true),(5,true),(6,true),(7,true),(8,true)],.leave false] = some t ∧
      t.taken = t.heard.take 6 ∧ sixSeconds.audio.durationMs t.taken.length = 6000 := by
  have valid : validateConfig ⟨true,true,true,true⟩ sixSeconds = .ok () := rfl
  have run : (Transition.final (Capture.step intOps sixSeconds.audio.maxSamples) (.start intOps 4)
      [.callback [(1,true),(2,true)],
        .callback [(3,true),(4,true),(5,true),(6,true),(7,true),(8,true)],.leave false]).map
      (fun t => (t.phase,t.stopped,t.failed,t.expired)) = some (.leaving,false,false,false) := by
    decide +kernel
  obtain ⟨t,ends_,same⟩ := Option.map_eq_some_iff.mp run
  simp only [Prod.mk.injEq] at same
  obtain ⟨leaving,kept,sound,early⟩ := same
  obtain ⟨taken,_,whole,_⟩ := recordingFits valid ends_
  refine ⟨t,ends_,?_,whole (by simp [leaving]) kept sound early⟩
  rw [taken]
  exact List.map_id _

theorem blockPositive (sampleRateHz : UInt32) (channels : UInt16) :
    0 < LevelMeter.blockOf sampleRateHz channels ∧
      LevelMeter.blockOf sampleRateHz channels ≤ u32Max := by
  unfold LevelMeter.blockOf
  have low : min (sampleRateHz.toNat * max channels.toNat 1) u32Max / levelPublishHz ≤ u32Max :=
    (Nat.div_le_self _ _).trans (Nat.min_le_right _ _)
  exact ⟨Nat.lt_of_lt_of_le Nat.zero_lt_one (le_max_right _ _),
    max_le low (by unfold u32Max; omega)⟩

theorem levelsTold (ops : Float32Ops F) (sampleRateHz : UInt32) (channels : UInt16) :
    (∀ (clip : PlayableAudio F) labels t,
      Transition.final (Speaker.step ops clip)
        (.start ops (LevelMeter.blockOf sampleRateHz channels)) labels = some t →
      t.metered.Told ops (LevelMeter.blockOf sampleRateHz channels) (t.phase == .returned) ∧
      ∀ room answers u, t.step ops clip (.drop room answers) = some u →
        (∃ waited < terminalLevelSendAttempts, answers waited = .sent ∧
          ∀ earlier < waited, answers earlier = .full) →
        u.metered.sent.getLast? = some (Metered.silence ops)) ∧
    (∀ maxSamples labels t,
      Transition.final (Capture.step ops maxSamples)
        (.start ops (LevelMeter.blockOf sampleRateHz channels)) labels = some t →
      t.metered.Told ops (LevelMeter.blockOf sampleRateHz channels) (t.phase == .returned) ∧
      ∀ room answers u, t.step ops maxSamples (.drop room answers) = some u →
        (∃ waited < terminalLevelSendAttempts, answers waited = .sent ∧
          ∀ earlier < waited, answers earlier = .full) →
        u.metered.sent.getLast? = some (Metered.silence ops)) := by
  obtain ⟨some_,fits⟩ := blockPositive sampleRateHz channels
  have last {m : Metered F} (running : m.Running ops (LevelMeter.blockOf sampleRateHz channels))
      {answers : Nat → TrySend} (room : Bool)
      (sent : ∃ waited < terminalLevelSendAttempts, answers waited = .sent ∧
        ∀ earlier < waited, answers earlier = .full) :
      (m.finish ops room answers).sent.getLast? = some (Metered.silence ops) := by
    refine (finishOffered running room answers).2.2.2 ((terminalSent _ _ 0).mpr ?_)
    simpa only [Nat.zero_add] using sent
  refine ⟨fun clip labels t run => ?_,fun maxSamples labels t run => ?_⟩
  · have kept := Transition.finalAlong (Speaker.step ops clip)
      (fun s => s.metered.Kept ops (LevelMeter.blockOf sampleRateHz channels) (s.phase == .returned))
      (fun _ _ _ enabled held _ => Speaker.stepKept some_ fits enabled held)
      (show Metered.Kept ops _ false _ from startRunning _) (Transition.alongAlways _ _ labels) run
    refine ⟨keptTold some_ kept,fun room answers u enabled sent => ?_⟩
    simp only [Speaker.step] at enabled
    split at enabled
    · rename_i leaving
      obtain rfl := Option.some.inj enabled
      rw [leaving] at kept
      exact last kept room sent
    · cases enabled
  · have kept := Transition.finalAlong (Capture.step ops maxSamples)
      (fun s => s.Holds ops maxSamples ∧
        s.metered.Kept ops (LevelMeter.blockOf sampleRateHz channels) (s.phase == .returned))
      (fun _ _ _ enabled held _ => ⟨Capture.stepHolds enabled held.1,
        Capture.stepKept some_ fits enabled held.1 held.2⟩)
      ⟨Capture.startHolds _,show Metered.Kept ops _ false _ from startRunning _⟩
      (Transition.alongAlways _ _ labels) run
    refine ⟨keptTold some_ kept.2,fun room answers u enabled sent => ?_⟩
    simp only [Capture.step] at enabled
    split at enabled
    · rename_i leaving
      obtain rfl := Option.some.inj enabled
      rw [leaving] at kept
      exact last kept.2 room sent
    · cases enabled

end TelephoneBooth.AudioStreams
