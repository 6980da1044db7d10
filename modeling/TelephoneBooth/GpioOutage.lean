import TelephoneBooth.GpioIntake

/-! Outages of the GPIO adapter: no press is timed across one, and rebuilds back off. -/
namespace TelephoneBooth.GpioIntake
open PowerButton (Button Signal)

namespace Intake

/- Nothing is timed, or the loss that ends the press is queued behind everything else. -/
def Quiet (b : Button) : Prop :=
  b.queue.getLast? = some .interrupted ∨ b.queue = [] ∧ ∀ elapsed held, b.phase ≠ .pressed elapsed held

theorem quietTail {signal : Signal} {rest : List Signal}
    (last : (signal :: rest).getLast? = some .interrupted) :
    rest.getLast? = some .interrupted ∨ rest = [] ∧ signal = .interrupted := by
  cases rest with
  | nil => exact .inr ⟨rfl,Option.some.inj last⟩
  | cons next rest => exact .inl last

theorem behindPresses {n : Nat} {signal : Signal} {rest : List Signal}
    (last : (PowerButton.presses n ++ signal :: rest).getLast? = some .interrupted) :
    rest.getLast? = some .interrupted ∨ rest = [] ∧ signal = .interrupted :=
  quietTail (by rwa [List.getLast?_append_of_ne_nil _ (by simp)] at last)

theorem pressesEnd (n : Nat) : (PowerButton.presses n).getLast? ≠ some .interrupted := by
  intro last
  have mem := List.mem_of_getLast? last
  rw [PowerButton.presses] at mem
  cases List.eq_of_mem_replicate mem

theorem nonemptyLast {signal : Signal} {rest : List Signal} {phase : PowerButton.Phase}
    (before : (signal :: rest).getLast? = some .interrupted ∨
      signal :: rest = [] ∧ ∀ elapsed held, phase ≠ .pressed elapsed held) :
    rest.getLast? = some .interrupted ∨ rest = [] ∧ signal = .interrupted :=
  quietTail (before.resolve_right fun ⟨empty,_⟩ => absurd empty (List.cons_ne_nil _ _))

theorem pressedLast {queue : List Signal} {elapsed held : Bool}
    (before : queue.getLast? = some .interrupted ∨
      queue = [] ∧ ∀ e h, PowerButton.Phase.pressed elapsed held ≠ .pressed e h) :
    queue.getLast? = some .interrupted :=
  before.resolve_right fun ⟨_,idle⟩ => idle elapsed held rfl

theorem pollQuiet {b : Button} (before : Quiet b) (deliver : Bool) : Quiet (b.poll deliver).1 := by
  unfold Quiet at before ⊢
  have turn := (PowerButton.pollCases b deliver).1
  generalize b.queue = queue, b.phase = phase at before turn
  generalize (b.poll deliver).1.queue = queue', (b.poll deliver).1.phase = phase' at turn ⊢
  generalize (b.poll deliver).2 = notes at turn
  cases turn with
  | pending | over_ => exact before
  | ends => exact .inr ⟨rfl,by simp⟩
  | opens rest => exact .inl ((nonemptyLast before).resolve_right (by simp))
  | stray signal rest other => exact (nonemptyLast before).imp_right fun ⟨empty,_⟩ => ⟨empty,by simp⟩
  | defers n rest => exact .inl ((behindPresses (pressedLast before)).resolve_right (by simp))
  | loses n rest =>
    exact (behindPresses (pressedLast before)).imp_right fun ⟨empty,_⟩ => ⟨empty,by simp⟩
  | cuts n shut | holds n open_ => exact absurd (pressedLast before) (pressesEnd n)
  | releases elapsed rest | letsGo elapsed rest | repeats elapsed held rest =>
    exact .inl ((nonemptyLast before).resolve_right (by simp))
  | drops elapsed held rest =>
    exact (nonemptyLast before).imp_right fun ⟨empty,_⟩ => ⟨empty,by simp⟩

theorem quietSends {b : Button} (quiet : Quiet b) (deliver : Bool) :
    .sent .powerButtonHeld ∉ (b.poll deliver).2 ∧
    (.sent .powerButtonPressed ∈ (b.poll deliver).2 → .level false ∈ b.queue) := by
  unfold Quiet at quiet
  have turn := (PowerButton.pollCases b deliver).1
  generalize b.queue = queue, b.phase = phase at quiet turn ⊢
  generalize (b.poll deliver).2 = notes at turn ⊢
  generalize (b.poll deliver).1.queue = queue', (b.poll deliver).1.phase = phase' at turn
  have took (n : Nat) (event : Event) : .sent event ∉ PowerButton.tookPresses n := fun mem => by
    rw [PowerButton.tookPresses] at mem
    cases List.eq_of_mem_replicate mem
  cases turn with
  | cuts n shut | holds n open_ => exact absurd (pressedLast quiet) (pressesEnd n)
  | defers n rest | loses n rest => simp [took]
  | _ => simp

theorem sendQuiet {b : Button} (open_ : b.closed = false) : Quiet (b.step (.send .interrupted)).1 := by
  refine .inl ?_
  rw [Button.step]
  simp [open_]

theorem stepQuiet {b : Button} (label : PowerButton.Label) (before : Quiet b)
    (asleep : ∀ signal, label ≠ .send signal) : Quiet (b.step label).1 := by
  cases label with
  | send signal => exact absurd rfl (asleep signal)
  | close => exact before
  | expire =>
    rcases before with last | ⟨empty,idle⟩
    · refine .inl ?_
      simp only [Button.step]
      split <;> exact last
    · refine .inr ?_
      simp only [Button.step]
      split
      · rename_i pressed
        exact absurd pressed (idle _ _)
      · exact ⟨empty,idle⟩
  | poll deliver => exact pollQuiet before deliver

/- Stages behind a loss once its `Interrupted` is in the button's queue. The stage before, where
`Interrupted` still waits for room there, is not one of them: presses read earlier are timed on. -/
def Stage.lossQueued : Stage → Bool
  | .sleeping | .hookSnapshot | .powerSnapshot => true
  | _ => false

structure Outage (w : Wiring) (s : Intake) : Prop where
  lost : ∀ signal, s.stage = .sending signal false → signal = .interrupted
  attached : s.button.closed = true → s.stage = .stopped
  quiet : w.powerButton = true → Stage.lossQueued s.stage = true → Quiet s.button

theorem Takes.outage {w : Wiring} {s t : Intake} (takes : Takes s t) (before : Outage w s)
    (runs : s.stage ≠ .stopped) : Outage w t := by
  have goes := takes.goes
  refine ⟨?_,?_,?_⟩
  · intro signal sending
    rw [sending] at goes
    cases goes
  · intro closed
    rw [takes.beyond.button] at closed
    exact absurd (before.attached closed) runs
  · intro wired queued
    rw [takes.beyond.button]
    refine before.quiet wired ?_
    cases stage : t.stage <;> rw [stage] at goes queued <;> cases goes <;> try cases queued
    rw [takes.hooked stage]
    rfl

theorem Outage.open_ {w : Wiring} {s : Intake} (before : Outage w s) (runs : s.stage ≠ .stopped) :
    s.button.closed = false :=
  Bool.eq_false_iff.mpr fun closed => runs (before.attached closed)

theorem stepClosed (b : Button) (label : PowerButton.Label) (stays : label ≠ .close) :
    (b.step label).1.closed = b.closed := by
  cases label with
  | send signal => rw [Button.step]; split <;> rfl
  | close => exact absurd rfl stays
  | expire => rw [Button.step]; split <;> rfl
  | poll deliver => exact (PowerButton.pollCases b deliver).2

theorem pollOutage {w : Wiring} {s : Intake} (before : Outage w s) (label : PowerButton.Label)
    (asleep : ∀ signal, label ≠ .send signal) (stays : label ≠ .close) :
    Outage w { s with button := (s.button.step label).1 } := by
  refine ⟨before.lost,?_,fun wired queued => stepQuiet label (before.quiet wired queued) asleep⟩
  intro closed
  rw [stepClosed s.button label stays] at closed
  exact before.attached closed

theorem passOutage {w : Wiring} {s : Intake} (before : Outage w s) {signal : Signal} {live : Bool}
    (sending : s.stage = .sending signal live) : Outage w { s with
      button := (s.button.step (.send signal)).1
      stage := if live then .reading else withoutAdapter w } := by
  have open_ := before.open_ (by simp [sending])
  have shut : (s.button.step (.send signal)).1.closed = false := by
    rw [stepClosed s.button _ (by simp),open_]
  refine ⟨?_,fun closed => absurd (shut.symm.trans closed) (by simp),?_⟩
  · intro other at_
    cases live <;> simp only [withoutAdapter,Bool.false_eq_true,if_true,if_false] at at_
    · split at at_ <;> cases at_
    · cases at_
  · intro wired queued
    cases live with
    | true => cases queued
    | false =>
      rw [before.lost signal sending]
      exact sendQuiet open_

theorem stepOutage {w : Wiring} {s t : Intake} {label : Label} (stepped : s.step w label = some t)
    (before : Outage w s) : Outage w t := by
  cases stepCases stepped with
  | took edge reading =>
    exact (takeEdgeTakes w s edge).1.outage before (by simp [reading])
  | hook level snapshot =>
    exact (reconcileHookTakes level snapshot).1.outage before (by simp [snapshot])
  | power level now snapshot =>
    exact (reconcilePowerButtonTakes s now level).1.outage before (by simp [snapshot])
  | lost err reading =>
    have open_ := before.open_ (by simp [reading])
    refine ⟨?_,fun closed => absurd (open_.symm.trans closed) (by simp),?_⟩
    · intro signal sending
      simp only [loseStream,withoutAdapter] at sending
      split at sending
      · cases sending
        rfl
      · split at sending <;> cases sending
    · intro wired queued
      simp only [loseStream,wired,if_true] at queued
      cases queued
  | rebuilt sleeping =>
    have open_ := before.open_ (by simp [sleeping])
    exact ⟨fun _ at_ => (by cases at_),fun closed => absurd (open_.symm.trans closed) (by simp),
      fun wired _ => before.quiet wired (by rw [sleeping]; rfl)⟩
  | notRebuilt err sleeping => exact ⟨before.lost,before.attached,before.quiet⟩
  | gone signal live sending returned =>
    have open_ := before.open_ (by simp [sending])
    exact ⟨fun _ at_ => (by cases at_),fun closed => absurd (open_.symm.trans closed) (by simp),
      fun _ queued => (by cases queued)⟩
  | passed signal live sending room => exact passOutage before sending
  | stopped | aborted => exact ⟨fun _ at_ => (by cases at_),fun _ => rfl,fun _ queued => (by cases queued)⟩
  | expired => exact pollOutage before .expire (by simp) (by simp)
  | polled deliver => exact pollOutage before (.poll deliver) (by simp) (by simp)
  | _ => exact ⟨before.lost,before.attached,before.quiet⟩

/- Milliseconds before the rebuild after `failures` others since the last edge. -/
def rebuildDelay (failures : Nat) : Nat := min (200 * 2 ^ failures) 30000

def Stage.live : Stage → Bool
  | .reading | .hookSnapshot | .powerSnapshot | .sending _ true => true
  | _ => false

structure Paced (s : Intake) : Prop where
  delays : s.slept = (List.range s.slept.length).map rebuildDelay
  next : s.backoff = rebuildDelay s.slept.length
  few : s.errors.length ≤ s.slept.length + (if Stage.live s.stage then 0 else 1)

theorem delayDoubles (failures : Nat) :
    min (rebuildDelay failures * 2) gpioRebuildBackoffMax = rebuildDelay (failures + 1) := by
  unfold rebuildDelay gpioRebuildBackoffMax
  rw [Nat.pow_succ]
  omega

theorem wokePaced {s : Intake} (before : Paced s) :
    s.wake.slept = (List.range s.wake.slept.length).map rebuildDelay ∧
      s.wake.backoff = rebuildDelay s.wake.slept.length := by
  have length : s.wake.slept.length = s.slept.length + 1 := by simp [wake]
  refine ⟨?_,?_⟩
  · rw [length,List.range_succ,List.map_append,← before.delays]
    exact congrArg (s.slept ++ [·]) before.next
  · rw [length,← delayDoubles,← before.next]
    rfl

theorem SamePace.paced {s t : Intake} (same : SamePace s t) (before : Paced s)
    (live : Stage.live s.stage = true) : Paced t := by
  obtain ⟨backoff,slept,errors⟩ := same
  have few := before.few
  rw [if_pos live] at few
  refine ⟨?_,?_,?_⟩
  · rw [slept]
    exact before.delays
  · rw [slept,backoff]
    exact before.next
  · rw [slept,errors]
    exact Nat.le_add_right_of_le few

theorem recoveredPaced {s : Intake} : Paced s.recovered := ⟨rfl,rfl,Nat.zero_le _⟩

theorem pacedElsewhere {s t : Intake} (before : Paced s) (same : SamePace s t)
    (live : Stage.live t.stage = true → Stage.live s.stage = true) : Paced t := by
  obtain ⟨backoff,slept,errors⟩ := same
  have few := before.few
  refine ⟨by rw [slept]; exact before.delays,by rw [slept,backoff]; exact before.next,?_⟩
  rw [slept,errors]
  cases now : Stage.live t.stage with
  | true =>
    rw [if_pos (live now)] at few
    exact few
  | false =>
    rw [if_neg (by simp)]
    split at few <;> omega

theorem withoutAdapterDead (w : Wiring) : Stage.live (withoutAdapter w) = false := by
  unfold withoutAdapter
  split <;> rfl

theorem stepPaced {w : Wiring} {s t : Intake} {label : Label} (stepped : s.step w label = some t)
    (before : Paced s) : Paced t := by
  have delays := before.delays
  have next := before.next
  have few := before.few
  cases stepCases stepped with
  | took edge reading =>
    exact (takeEdgeTakes w s edge).2.paced recoveredPaced (by rw [recovered,reading]; rfl)
  | hook level snapshot =>
    exact (reconcileHookTakes level snapshot).2.paced before (by rw [snapshot]; rfl)
  | power level now snapshot =>
    exact (reconcilePowerButtonTakes s now level).2.paced before (by rw [snapshot]; rfl)
  | lost err reading =>
    rw [reading,if_pos (by rfl)] at few
    have dead : Stage.live (s.loseStream w err).stage = false := by
      simp only [loseStream]
      split
      · rfl
      · exact withoutAdapterDead w
    refine ⟨delays,next,?_⟩
    rw [dead,if_neg (by simp),loseStream,List.length_append]
    exact Nat.succ_le_succ few
  | rebuilt sleeping =>
    rw [sleeping,if_neg (by simp [Stage.live])] at few
    obtain ⟨slept,backoff⟩ := wokePaced before
    refine ⟨slept,backoff,?_⟩
    simpa [wake,Stage.live] using few
  | notRebuilt err sleeping =>
    rw [sleeping,if_neg (by simp [Stage.live])] at few
    obtain ⟨slept,backoff⟩ := wokePaced before
    refine ⟨slept,backoff,?_⟩
    simpa [wake,sleeping,Stage.live] using few
  | gone signal live sending returned =>
    exact pacedElsewhere before ⟨rfl,rfl,rfl⟩ fun alive => (by cases alive)
  | passed signal live sending room =>
    refine pacedElsewhere before ⟨rfl,rfl,rfl⟩ ?_
    cases live with
    | true => exact fun _ => by rw [sending]; rfl
    | false => exact fun alive => absurd ((withoutAdapterDead w).symm.trans alive) (by simp)
  | stopped | aborted => exact pacedElsewhere before ⟨rfl,rfl,rfl⟩ fun alive => (by cases alive)
  | _ => exact pacedElsewhere before ⟨rfl,rfl,rfl⟩ id

section Runs
variable {w : Wiring} {initialHookOn accepting still : Bool} {now : Nat} {labels : List Label}
  {s : Intake}

theorem runOutage
    (ends_ : Transition.final (step w) (boot initialHookOn accepting still now) labels = some s) :
    Outage w s :=
  Transition.finalInvariant (step w) (Outage w)
    (fun _ _ _ stepped before => stepOutage stepped before)
    ⟨fun _ at_ => (by cases at_),fun closed => (by cases closed),fun _ queued => (by cases queued)⟩ ends_

theorem runPaced
    (ends_ : Transition.final (step w) (boot initialHookOn accepting still now) labels = some s) :
    Paced s :=
  Transition.finalInvariant (step w) Paced (fun _ _ _ stepped before => stepPaced stepped before)
    ⟨rfl,rfl,Nat.zero_le _⟩ ends_

end Runs

/- The delays since the last edge double from 200 ms up to 30 s, whether rebuilds fail or their
adapters die again, and at most one error more than delays is published in that time. -/
theorem rebuildsBackOff (w : Wiring) (initialHookOn accepting still : Bool) (now : Nat)
    (labels : List Label) (s : Intake)
    (ends_ : Transition.final (step w) (boot initialHookOn accepting still now) labels = some s) :
    s.slept = (List.range s.slept.length).map rebuildDelay ∧
    s.errors.length ≤ s.slept.length + 1 ∧
    ∀ delay ∈ s.slept, 200 ≤ delay ∧ delay ≤ 30000 := by
  have paced := runPaced ends_
  refine ⟨paced.delays,?_,?_⟩
  · have few := paced.few
    split at few <;> omega
  · rw [paced.delays]
    intro delay mem
    obtain ⟨failures,_,rfl⟩ := List.mem_map.mp mem
    have one := Nat.one_le_two_pow (n := failures)
    unfold rebuildDelay
    omega

theorem pressLostBacksOff : ∃ s, Transition.final (step ⟨true,true⟩) (boot true true true 0)
      hungUpMeanwhile = some s ∧ s.slept = [200,400] ∧ s.errors.length ≤ s.slept.length + 1 :=
  ⟨_,rfl,rfl,(rebuildsBackOff ⟨true,true⟩ true true true 0 hungUpMeanwhile _ rfl).2.1⟩

end Intake
end TelephoneBooth.GpioIntake
