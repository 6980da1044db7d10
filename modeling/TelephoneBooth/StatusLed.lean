import Mathlib.Data.List.Chain
import TelephoneBooth.CoreStep
import TelephoneBooth.Transition

/-! The status LED from the core to its pins. `run_runtime` sets the boot indication, the one of the
initial state and the one of the shutdown; between them the effect task sets what the core emits, in
order. `PiStatusLed::set` aborts the animation before it; one that is aborted while it is polled goes
on to its next await that is not ready, and the ticks it is late for are. -/
namespace TelephoneBooth.StatusLed
open State Event Effect

abbrev Indication := LedColour × LedPattern

def indicationOf : Effect → Option Indication
  | setStatusLed colour pattern => some (colour,pattern)
  | _ => none

def ledSlowPulseMs : UInt32 := 2000
def ledFadeMs : UInt32 := 1500

def booting : Indication := (.blue,.pulse ledSlowPulseMs)
def shuttingDown : Indication := (.red,.fade ledFadeMs)

inductive Channel where
  | red | green | blue
  deriving DecidableEq, Repr

def Channel.colour : Channel → LedColour
  | red => .red
  | green => .green
  | blue => .blue

structure PinWrite where
  channel : Channel
  lit : Bool
  deriving DecidableEq, Repr

def allOff : List PinWrite := [⟨.red,false⟩,⟨.green,false⟩,⟨.blue,false⟩]

def select : LedColour → List PinWrite × Option Channel
  | .off => (allOff,none)
  | .red => ([⟨.green,false⟩,⟨.blue,false⟩],some .red)
  | .green => ([⟨.red,false⟩,⟨.blue,false⟩],some .green)
  | .blue => ([⟨.red,false⟩,⟨.green,false⟩],some .blue)

def applyWrites (colour : LedColour) (lit : Bool) : List PinWrite :=
  (select colour).1 ++ ((select colour).2.map fun pin => ⟨pin,lit⟩).toList

/- An animation after its spawn or its write, or between its tick and its write; `none` is the end
of a one-shot pattern. -/
inductive Beat where
  | waiting
  | due (lit : Option Bool)
  deriving DecidableEq, Repr

structure Animation where
  colour : LedColour
  beat : Beat
  deriving DecidableEq, Repr

inductive Holder where
  | nobody
  | set (writes : List PinWrite)
  | animation (writes : List PinWrite) (last : Bool)
  | stray (writes : List PinWrite)
  deriving DecidableEq, Repr

def Holder.writes : Holder → List PinWrite
  | .nobody => []
  | .set writes | .animation writes _ | .stray writes => writes

inductive Stage where
  | booting | starting | running | closing | closed
  deriving DecidableEq, Repr

/- `strays` are aborted animations that may still write. `latest` is what the last
`set` was called with, `told` whether the last writes are its own; `begun`, `done` and `published`
are the calls begun, those returned with their success, and the records on telemetry. -/
structure Indicator where
  stage : Stage
  core : State
  queue : List Indication
  setting : Option Indication
  animation : Option Animation
  strays : List LedColour
  holder : Holder
  pins : Channel → Bool
  latest : Indication
  told : Bool
  begun : List Indication
  done : List (Indication × Bool)
  published : List Indication

/- `fault` is how a PWM write that fails leaves its pin. -/
inductive Label where
  | handle (event : Event) (accepting : Bool)
  | set (caught : Bool)
  | proceed (lit : Bool)
  | tick (lit : Option Bool)
  | enter
  | enterStray (number : Nat) (lit : Bool)
  | write (fault : Option Bool)
  | close
  deriving DecidableEq

def animates : Indication → Bool
  | (.off,_) | (_,.steady _) => false
  | _ => true

namespace Indicator

def boot (initial : State) : Indicator where
  stage := .booting
  core := initial
  queue := []
  setting := none
  animation := none
  strays := []
  holder := .nobody
  pins := fun _ => false
  latest := (.off,.steady 0)
  told := true
  begun := []
  done := []
  published := []

def next (s : Indicator) : Option (Indication × Stage × List Indication) :=
  match s.stage, s.queue with
  | .booting, queue => some (StatusLed.booting,.starting,queue)
  | .starting, queue => some (statusLedFor s.core,.running,queue)
  | .running, indication :: rest => some (indication,.running,rest)
  | .closing, queue => some (shuttingDown,.closed,queue)
  | .running, [] | .closed, _ => none

/- `caught` is whether the animation is being polled. What it writes under the lock it writes to the
end. -/
def abort (s : Indicator) (caught : Bool) : Indicator :=
  { s with
    holder := match s.holder with
      | .animation writes _ => .stray writes
      | other => other
    strays := if caught then s.strays ++ (s.animation.map Animation.colour).toList else s.strays
    animation := none }

def returns (s : Indicator) (indication : Indication) (ok : Bool) : Indicator :=
  { s with
    setting := none
    done := s.done ++ [(indication,ok)]
    published := if ok then s.published ++ [indication] else s.published }

def release (s : Indicator) (ok : Bool) : Indicator :=
  match s.holder with
  | .nobody | .stray _ => { s with holder := .nobody }
  | .set _ =>
    match s.setting with
    | none => { s with holder := .nobody }
    | some indication => { s.returns indication ok with holder := .nobody, told := true }
  | .animation _ last => { s with
      holder := .nobody
      told := true
      animation := if ok && !last then s.animation.map fun a => { a with beat := .waiting } else none }

def step (s : Indicator) : Label → Option Indicator
  | .handle event accepting =>
    if s.stage = .running then
      some { s with
        core := (coreStep s.core (event,accepting)).1
        queue := s.queue ++ (coreStep s.core (event,accepting)).2.filterMap indicationOf }
    else none
  | .set caught =>
    if s.setting = none then
      s.next.map fun next =>
        { s.abort caught with
          stage := next.2.1
          queue := next.2.2
          setting := some next.1
          latest := next.1
          told := false
          begun := s.begun ++ [next.1] }
    else none
  | .proceed lit =>
    match s.setting, s.holder with
    | some indication, holder =>
      if animates indication = true then
        some { s.returns indication true with animation := some ⟨indication.1,.waiting⟩ }
      else if holder = .nobody then
        some { s with holder := .set (applyWrites indication.1 lit) }
      else none
    | none, _ => none
  | .tick lit =>
    match s.animation with
    | some ⟨colour,.waiting⟩ => some { s with animation := some ⟨colour,.due lit⟩ }
    | _ => none
  | .enter =>
    match s.animation with
    | some ⟨colour,.due lit⟩ =>
      if s.holder = .nobody then
        some { s with holder := .animation (applyWrites colour (lit.getD false)) (decide (lit = none)) }
      else none
    | _ => none
  | .enterStray number lit =>
    match s.strays[number]? with
    | some colour =>
      if s.holder = .nobody then
        some { s with holder := .stray (applyWrites colour lit), told := false }
      else none
    | none => none
  | .write fault =>
    match s.holder.writes with
    | [] => none
    | write :: rest =>
      if fault.isSome = true ∧ write.lit = false then none
      else
        let s := { s with pins := Function.update s.pins write.channel (fault.getD write.lit) }
        if rest = [] ∨ fault.isSome = true then some (s.release fault.isNone)
        else some { s with holder := match s.holder with
          | .nobody => .nobody
          | .set _ => .set rest
          | .animation _ last => .animation rest last
          | .stray _ => .stray rest }
  | .close => if s.stage = .running then some { s with stage := .closing, queue := [] } else none

end Indicator

theorem armUnlit {s e s' effects} (arm : Arm s e s' effects) :
    effects.filterMap indicationOf = [] := by
  cases arm with
  | power s e effect button => rcases button with ⟨_,rfl⟩ | ⟨_,rfl⟩ <;> rfl
  | fail fails => cases fails <;> rfl
  | @dial digit dials =>
    unfold decodeDigit
    repeat' split
    all_goals rfl
  | _ => rfl

theorem decodeUnlit (digit : UInt8) : (decodeDigit digit).2.filterMap indicationOf = [] := by
  unfold decodeDigit
  repeat' split
  all_goals rfl

theorem turnUnlit {s e accepting s' effects} (turn : Turn s e accepting s' effects) :
    effects.filterMap indicationOf = [] := by
  have silenced {e : Event} {n : State} {effects : List Effect} (pending : Bool)
      (same : handleInner (silenceBeep s).1 e = (n,effects)) :
      (stopIf pending ++ suppress effects).filterMap indicationOf = [] := by
    rw [List.filterMap_append,filterMapSuppress (fun _ => rfl) (fun _ => rfl),
      armUnlit (innerArm same)]
    cases pending <;> rfl
  cases turn with
  | inner settled open_ same => exact armUnlit (innerArm same)
  | resumedDigit paused position input =>
    rw [List.filterMap_append,decodeUnlit]
    rfl
  | kept settled safe same still => exact silenced _ same
  | released settled safe same ended =>
    rw [List.filterMap_append,silenced _ same]
    rfl
  | stale | resumedIdle | resumedTone | resumedPulse | stillPaused | cut => rfl

theorem stepIndicates (s : State) (i : Input) : (coreStep s i).2.filterMap indicationOf =
    if statusLedFor (coreStep s i).1 ≠ statusLedFor s then [statusLedFor (coreStep s i).1] else [] := by
  obtain ⟨effects,same,turn⟩ := stepTurn s i
  rw [same,List.filterMap_append,turnUnlit turn,List.append_nil,ledChange]
  split <;> rfl

theorem mappedPlain (s : State) : statusLedFor s ≠ booting ∧ statusLedFor s ≠ shuttingDown := by
  cases s with
  | uploadingTimedOut r q pending =>
    cases pending <;> simp [statusLedFor,booting,shuttingDown]
  | _ => simp [statusLedFor,booting,shuttingDown]

section Pins
variable {pins : Channel → Bool}

def OneLit (pins : Channel → Bool) : Prop :=
  ∀ c d, pins c = true → pins d = true → c = d

def Safe : List PinWrite → (Channel → Bool) → Prop
  | [], pins => OneLit pins
  | write :: rest, pins => OneLit pins ∧ ∀ level, (write.lit = false → level = false) →
      Safe rest (Function.update pins write.channel level)

theorem Safe.one {writes : List PinWrite} (safe : Safe writes pins) : OneLit pins := by
  cases writes with
  | nil => exact safe
  | cons write rest => exact safe.1

theorem darkOne (one : OneLit pins) (dark : Channel) : OneLit (Function.update pins dark false) := by
  have kept {c : Channel} (lit : Function.update pins dark false c = true) : pins c = true := by
    rw [Function.update_apply] at lit
    split at lit
    · cases lit
    · exact lit
  exact fun c d hereC hereD => one c d (kept hereC) (kept hereD)

theorem lastSafe {write : PinWrite} (only : ∀ c, pins c = true → c = write.channel) :
    Safe [write] pins := by
  refine ⟨fun c d hereC hereD => (only c hereC).trans (only d hereD).symm,fun level _ => ?_⟩
  have still (c : Channel) (lit : Function.update pins write.channel level c = true) :
      c = write.channel := by
    rw [Function.update_apply] at lit
    split at lit
    · assumption
    · exact only c lit
  exact fun c d hereC hereD => (still c hereC).trans (still d hereD).symm

theorem thirdSafe {a b : Channel} {write : PinWrite} (one : OneLit pins)
    (rest : ∀ c, c = a ∨ c = b ∨ c = write.channel) : Safe [⟨a,false⟩,⟨b,false⟩,write] pins := by
  refine ⟨one,fun first dark => ?_⟩
  obtain rfl := dark rfl
  refine ⟨darkOne one a,fun second dark => ?_⟩
  obtain rfl := dark rfl
  refine lastSafe fun c lit => ?_
  rw [Function.update_apply,Function.update_apply] at lit
  split at lit
  · cases lit
  split at lit
  · cases lit
  · rcases rest c with rfl | rfl | same
    · contradiction
    · contradiction
    · exact same

theorem applySafe (one : OneLit pins) (colour : LedColour) (lit : Bool) :
    Safe (applyWrites colour lit) pins := by
  cases colour <;> exact thirdSafe one fun c => by cases c <;> simp

structure Clears (colour : LedColour) (writes : List PinWrite) (pins : Channel → Bool) : Prop where
  reaches : ∀ c, pins c = true → c.colour = colour ∨ (⟨c,false⟩ : PinWrite) ∈ writes
  own : ∀ write ∈ writes, write.lit = true → write.channel.colour = colour
  last : writes.Pairwise fun earlier _ => earlier.lit = false

theorem applyClears (colour : LedColour) (lit : Bool) :
    Clears colour (applyWrites colour lit) pins where
  reaches c _ := by cases colour <;> cases c <;> simp [applyWrites,select,allOff,Channel.colour]
  own write mem := by
    cases colour <;> simp [applyWrites,select,allOff] at mem <;>
      rcases mem with rfl | rfl | rfl <;> simp [Channel.colour]
  last := by cases colour <;> simp [applyWrites,select,allOff]

theorem Clears.written {colour : LedColour} {write : PinWrite} {rest : List PinWrite}
    (clears : Clears colour (write :: rest) pins) {level : Bool}
    (dark : write.lit = false → level = false) :
    Clears colour rest (Function.update pins write.channel level) where
  reaches c lit := by
    rw [Function.update_apply] at lit
    split at lit
    · rename_i here
      subst here
      refine .inl (clears.own write List.mem_cons_self ?_)
      by_contra unlit
      exact absurd (dark (by simpa using unlit)) (by simp [lit])
    · rename_i other
      rcases clears.reaches c lit with same | mem
      · exact .inl same
      · rcases List.mem_cons.mp mem with rfl | later
        · exact absurd rfl other
        · exact .inr later
  own other mem := clears.own other (List.mem_cons_of_mem _ mem)
  last := (List.pairwise_cons.mp clears.last).2

theorem Clears.failed {colour : LedColour} {write : PinWrite} {rest : List PinWrite}
    (clears : Clears colour (write :: rest) pins) (lit : write.lit = true) : rest = [] := by
  refine List.eq_nil_iff_forall_not_mem.mpr fun later mem => ?_
  have dark := (List.pairwise_cons.mp clears.last).1 later mem
  rw [lit] at dark
  cases dark

theorem Clears.shown {colour : LedColour} (clears : Clears colour [] pins) (c : Channel)
    (lit : pins c = true) : c.colour = colour :=
  (clears.reaches c lit).elim id fun mem => (by cases mem)

end Pins

namespace Indicator
variable {s t : Indicator}

def Holding (s : Indicator) : Prop :=
  match s.holder with
  | .nobody => True
  | .set writes =>
    (∃ indication, s.setting = some indication ∧ animates indication = false) ∧
      Clears s.latest.1 writes s.pins
  | .animation writes _ => s.animation.isSome = true ∧ Clears s.latest.1 writes s.pins
  | .stray _ => s.told = false

structure Lit (s : Indicator) : Prop where
  safe : Safe s.holder.writes s.pins
  told : s.told = true → ∀ c, s.pins c = true → c.colour = s.latest.1
  animated : ∀ animation, s.animation = some animation → animation.colour = s.latest.1
  setting : ∀ indication, s.setting = some indication →
    s.latest = indication ∧ s.animation = none ∧ s.told = false
  holding : s.Holding

theorem bootLit (initial : State) : Lit (boot initial) where
  safe := fun _ _ lit => (by cases lit)
  told := fun _ _ lit => (by cases lit)
  animated := fun _ running => (by cases running)
  setting := fun _ set => (by cases set)
  holding := trivial

theorem setLit (lit : Lit s) (free : s.setting = none) (caught : Bool) (indication : Indication)
    (stage : Stage) (queue begun : List Indication) :
    Lit { s.abort caught with
      stage, queue, begun, setting := some indication, latest := indication, told := false } := by
  have safe := lit.safe
  have holding := lit.holding
  refine ⟨?_,fun told => (by cases told),fun animation running => (by cases running),
    fun other same => ⟨Option.some.inj same,rfl,rfl⟩,?_⟩
  · simp only [abort]
    cases holds : s.holder <;> rw [holds] at safe <;> exact safe
  · simp only [Holding,abort] at holding ⊢
    cases holds : s.holder with
    | set writes =>
      rw [holds,free] at holding
      obtain ⟨⟨_,same,_⟩,_⟩ := holding
      cases same
    | _ => trivial

theorem Lit.holdingSet {writes : List PinWrite} (lit : Lit s) (holds : s.holder = .set writes) :
    (∃ indication, s.setting = some indication ∧ animates indication = false) ∧
      Clears s.latest.1 writes s.pins := by
  have holding := lit.holding
  unfold Holding at holding
  rwa [holds] at holding

theorem Lit.holdingAnimation {writes : List PinWrite} {last : Bool} (lit : Lit s)
    (holds : s.holder = .animation writes last) :
    s.animation.isSome = true ∧ Clears s.latest.1 writes s.pins := by
  have holding := lit.holding
  unfold Holding at holding
  rwa [holds] at holding

theorem releaseLit {pins : Channel → Bool} (lit : Lit s) (one : OneLit pins)
    (told : s.told = true → ∀ c, pins c = true → c.colour = s.latest.1)
    (shown : (∀ writes, s.holder ≠ .stray writes) → ∀ c, pins c = true → c.colour = s.latest.1)
    (ok : Bool) : Lit ({ s with pins }.release ok) := by
  unfold release
  cases holds : s.holder with
  | nobody => exact ⟨one,told,lit.animated,lit.setting,trivial⟩
  | stray writes => exact ⟨one,told,lit.animated,lit.setting,trivial⟩
  | set writes =>
    have settled := shown (fun other same => (by rw [holds] at same; cases same))
    dsimp only
    split
    · exact ⟨one,told,lit.animated,lit.setting,trivial⟩
    · exact ⟨one,fun _ => settled,lit.animated,fun _ set => (by cases set),trivial⟩
  | animation writes last =>
    have settled := shown (fun other same => (by rw [holds] at same; cases same))
    have runs := (lit.holdingAnimation holds).1
    refine ⟨one,fun _ => settled,fun animation running => ?_,fun indication set => ?_,trivial⟩
    · dsimp only at running
      split at running
      · obtain ⟨before,same,rfl⟩ := Option.map_eq_some_iff.mp running
        exact lit.animated before same
      · cases running
    · rw [(lit.setting indication set).2.1] at runs
      cases runs

theorem writeLit (lit : Lit s) {fault : Option Bool} (enabled : s.step (.write fault) = some t) :
    Lit t := by
  simp only [step] at enabled
  split at enabled
  · cases enabled
  rename_i write rest writes
  split at enabled
  · cases enabled
  rename_i drives
  have dark (unlit : write.lit = false) : fault.getD write.lit = false := by
    cases fault with
    | none => exact unlit
    | some level => exact absurd ⟨rfl,unlit⟩ drives
  have safe := lit.safe
  rw [writes] at safe
  have later := safe.2 (fault.getD write.lit) dark
  have own {colour : LedColour} (clears : Clears colour (write :: rest) s.pins)
      (shown : ∀ c, s.pins c = true → c.colour = colour) (c : Channel)
      (here : Function.update s.pins write.channel (fault.getD write.lit) c = true) :
      c.colour = colour := by
    rw [Function.update_apply] at here
    split at here
    · rename_i same
      subst same
      refine clears.own write List.mem_cons_self ?_
      by_contra unlit
      rw [dark (by simpa using unlit)] at here
      cases here
    · exact shown c here
  have told (told : s.told = true) (c : Channel)
      (here : Function.update s.pins write.channel (fault.getD write.lit) c = true) :
      c.colour = s.latest.1 := by
    cases holds : s.holder with
    | nobody =>
      rw [holds] at writes
      cases writes
    | stray left =>
      have holding := lit.holding
      unfold Holding at holding
      rw [holds,told] at holding
      cases holding
    | set left =>
      obtain rfl : left = write :: rest := by rw [← writes,holds]; rfl
      exact own (lit.holdingSet holds).2 (lit.told told) c here
    | animation left last =>
      obtain rfl : left = write :: rest := by rw [← writes,holds]; rfl
      exact own (lit.holdingAnimation holds).2 (lit.told told) c here
  split at enabled
  · rename_i ends_
    obtain rfl := Option.some.inj enabled
    refine releaseLit lit later.one told (fun others c here => ?_) _
    have finishes {colour : LedColour} (clears : Clears colour (write :: rest) s.pins) :
        c.colour = colour := by
      have empty : rest = [] := ends_.elim id fun fails => clears.failed (by
        by_contra unlit
        exact drives ⟨fails,by simpa using unlit⟩)
      subst empty
      exact (clears.written dark).shown c here
    cases holds : s.holder with
    | nobody =>
      rw [holds] at writes
      cases writes
    | stray left => exact absurd holds (others left)
    | set left =>
      obtain rfl : left = write :: rest := by rw [← writes,holds]; rfl
      exact finishes (lit.holdingSet holds).2
    | animation left last =>
      obtain rfl : left = write :: rest := by rw [← writes,holds]; rfl
      exact finishes (lit.holdingAnimation holds).2
  · obtain rfl := Option.some.inj enabled
    cases holds : s.holder with
    | nobody =>
      rw [holds] at writes
      cases writes
    | stray left =>
      have holding := lit.holding
      unfold Holding at holding
      rw [holds] at holding
      exact ⟨later,told,lit.animated,lit.setting,holding⟩
    | set left =>
      obtain rfl : left = write :: rest := by rw [← writes,holds]; rfl
      obtain ⟨set,clears⟩ := lit.holdingSet holds
      exact ⟨later,told,lit.animated,lit.setting,set,clears.written dark⟩
    | animation left last =>
      obtain rfl : left = write :: rest := by rw [← writes,holds]; rfl
      obtain ⟨runs,clears⟩ := lit.holdingAnimation holds
      exact ⟨later,told,lit.animated,lit.setting,runs,clears.written dark⟩

theorem stepLit {label : Label} (enabled : s.step label = some t) (lit : Lit s) : Lit t := by
  have unheld (free : s.holder = .nobody) : OneLit s.pins := lit.safe.one
  cases label with
  | handle event accepting =>
    simp only [step] at enabled
    split at enabled
    · obtain rfl := Option.some.inj enabled
      exact ⟨lit.safe,lit.told,lit.animated,lit.setting,lit.holding⟩
    · cases enabled
  | set caught =>
    simp only [step] at enabled
    split at enabled
    · rename_i free
      obtain ⟨next,_,rfl⟩ := Option.map_eq_some_iff.mp enabled
      exact setLit lit free caught _ _ _ _
    · cases enabled
  | proceed level =>
    simp only [step] at enabled
    split at enabled
    · rename_i indication same
      obtain ⟨latest,still,untold⟩ := lit.setting indication same
      split at enabled
      · rename_i moves
        obtain rfl := Option.some.inj enabled
        refine ⟨lit.safe,lit.told,fun animation running => ?_,fun _ set => (by cases set),?_⟩
        · obtain rfl := Option.some.inj running
          exact congrArg Prod.fst latest.symm
        · unfold Holding
          dsimp only [returns]
          split
          · trivial
          · rename_i holds
            obtain ⟨⟨held,other,steady⟩,_⟩ := lit.holdingSet holds
            rw [same] at other
            obtain rfl := Option.some.inj other
            rw [moves] at steady
            cases steady
          · rename_i holds
            have runs := (lit.holdingAnimation holds).1
            rw [still] at runs
            cases runs
          · exact untold
      · rename_i steady
        split at enabled
        · rename_i free
          obtain rfl := Option.some.inj enabled
          refine ⟨applySafe (unheld free) _ _,lit.told,lit.animated,lit.setting,?_,?_⟩
          · exact ⟨indication,same,by simpa using steady⟩
          · subst latest
            exact applyClears _ _
        · cases enabled
    · cases enabled
  | tick level =>
    simp only [step] at enabled
    split at enabled
    · rename_i colour running
      obtain rfl := Option.some.inj enabled
      refine ⟨lit.safe,lit.told,fun animation same => ?_,fun indication set => ?_,?_⟩
      · obtain rfl := Option.some.inj same
        exact (lit.animated _ running : colour = s.latest.1)
      · have none_ := (lit.setting indication set).2.1
        rw [running] at none_
        cases none_
      · have holding := lit.holding
        unfold Holding at holding ⊢
        dsimp only
        split <;> rename_i holds <;> rw [holds] at holding
        · trivial
        · exact holding
        · exact ⟨rfl,holding.2⟩
        · exact holding
    · cases enabled
  | enter =>
    simp only [step] at enabled
    split at enabled
    · rename_i colour level running
      split at enabled
      · rename_i free
        obtain rfl := Option.some.inj enabled
        refine ⟨applySafe (unheld free) _ _,lit.told,lit.animated,lit.setting,?_,?_⟩
        · exact Option.isSome_of_eq_some running
        · rw [← lit.animated _ running]
          exact applyClears _ _
      · cases enabled
    · cases enabled
  | enterStray number level =>
    simp only [step] at enabled
    split at enabled
    · split at enabled
      · rename_i free
        obtain rfl := Option.some.inj enabled
        refine ⟨applySafe (unheld free) _ _,fun told => (by cases told),lit.animated,
          fun indication set => ?_,rfl⟩
        obtain ⟨latest,still,_⟩ := lit.setting indication set
        exact ⟨latest,still,rfl⟩
      · cases enabled
    · cases enabled
  | write fault => exact writeLit lit enabled
  | close =>
    simp only [step] at enabled
    split at enabled
    · obtain rfl := Option.some.inj enabled
      exact ⟨lit.safe,lit.told,lit.animated,lit.setting,lit.holding⟩
    · cases enabled

structure Follows (stage : Stage) (core : State) (queue : List Indication) (latest : Indication)
    (begun : List Indication) : Prop where
  follows : stage = .running → (latest :: queue).getLast (by simp) = statusLedFor core
  idle : stage ≠ .running → queue = []
  boots : stage = .booting → begun = []
  starts : stage = .starting → latest = booting
  told : stage ≠ .booting → begun.getLast? = some latest
  mapped : stage = .running ∨ stage = .closing → ∃ core, latest = statusLedFor core
  coming : ∀ indication ∈ queue, ∃ core, indication = statusLedFor core
  closed : stage = .closed → latest = shuttingDown
  chain : (begun ++ queue).IsChain (· ≠ ·)

theorem bootFollows (initial : State) : Follows .booting initial [] (.off,.steady 0) [] where
  follows := fun same => (by cases same)
  idle := fun _ => rfl
  boots := fun _ => rfl
  starts := fun same => (by cases same)
  told := fun other => absurd rfl other
  mapped := fun other => (by simp at other)
  coming := fun _ mem => (by cases mem)
  closed := fun same => (by cases same)
  chain := .nil

theorem handleFollows {core : State} {queue begun : List Indication} {latest : Indication}
    (held : Follows .running core queue latest begun) (input : Input) :
    Follows .running (coreStep core input).1
      (queue ++ (coreStep core input).2.filterMap indicationOf) latest begun := by
  have last := held.follows rfl
  rw [stepIndicates]
  split
  · rename_i changed
    refine ⟨fun _ => ?_,fun other => absurd rfl other,fun same => (by cases same),
      fun same => (by cases same),held.told,held.mapped,fun indication mem => ?_,
      fun same => (by cases same),?_⟩
    · simp
    · rcases List.mem_append.mp mem with earlier | new
      · exact held.coming indication earlier
      · exact ⟨_,List.mem_singleton.mp new⟩
    · rw [← List.append_assoc]
      refine held.chain.append (.singleton _) fun before here after next => ?_
      obtain rfl := Option.some.inj next
      rintro rfl
      refine changed (Eq.trans ?_ last)
      have ends_ : (begun ++ queue).getLast? = some ((latest :: queue).getLast (by simp)) := by
        rcases List.eq_nil_or_concat queue with rfl | ⟨_,_,rfl⟩
        · simpa using held.told (by simp)
        · simp
      rw [ends_] at here
      exact (Option.some.inj here).symm
  · rename_i same
    rw [List.append_nil]
    have unchanged : statusLedFor (coreStep core input).1 = statusLedFor core := by simpa using same
    exact ⟨fun _ => last.trans unchanged.symm,held.idle,held.boots,held.starts,held.told,
      held.mapped,held.coming,held.closed,held.chain⟩

theorem setFollows {indication : Indication} {stage : Stage} {queue : List Indication}
    (held : Follows s.stage s.core s.queue s.latest s.begun)
    (next : s.next = some (indication,stage,queue)) :
    Follows stage s.core queue indication (s.begun ++ [indication]) := by
  unfold Indicator.next at next
  split at next
  · rename_i same
    obtain ⟨rfl,rfl,rfl⟩ := by simpa using next
    rw [held.idle (by simp [same]),held.boots same]
    exact ⟨fun same => (by cases same),fun _ => rfl,fun same => (by cases same),fun _ => rfl,
      fun _ => rfl,fun other => (by simp at other),fun _ mem => (by cases mem),
      fun same => (by cases same),.singleton _⟩
  · rename_i same
    obtain ⟨rfl,rfl,rfl⟩ := by simpa using next
    have told := held.told (by simp [same])
    have chain := held.chain
    rw [held.starts same] at told
    have empty := held.idle (by simp [same])
    rw [empty,List.append_nil] at chain
    rw [empty]
    refine ⟨fun _ => rfl,fun _ => rfl,fun same => (by cases same),fun same => (by cases same),
      fun _ => by simp,fun _ => ⟨_,rfl⟩,fun _ mem => (by cases mem),fun same => (by cases same),?_⟩
    rw [List.append_nil]
    refine chain.append (.singleton _) fun before here after new => ?_
    rw [told] at here
    obtain rfl := Option.some.inj here
    obtain rfl := Option.some.inj new
    exact (mappedPlain s.core).1.symm
  · rename_i head rest same queue_
    obtain ⟨rfl,rfl,rfl⟩ := by simpa using next
    have last := held.follows same
    have chain := held.chain
    rw [queue_] at chain
    refine ⟨fun _ => ?_,fun other => absurd rfl other,fun same => (by cases same),
      fun same => (by cases same),fun _ => by simp,
      fun _ => held.coming _ (by simp [queue_]),
      fun other mem => held.coming other (by simp [queue_,mem]),fun same => (by cases same),?_⟩
    · simpa [queue_] using last
    · simpa using chain
  · rename_i same
    obtain ⟨rfl,rfl,rfl⟩ := by simpa using next
    obtain ⟨core,latest⟩ := held.mapped (.inr same)
    have told := held.told (by simp [same])
    have chain := held.chain
    have empty := held.idle (by simp [same])
    rw [empty,List.append_nil] at chain
    rw [empty]
    refine ⟨fun same => (by cases same),fun _ => rfl,fun same => (by cases same),
      fun same => (by cases same),fun _ => by simp,fun other => (by simp at other),
      fun _ mem => (by cases mem),fun _ => rfl,?_⟩
    rw [List.append_nil]
    refine chain.append (.singleton _) fun before here after new => ?_
    rw [told] at here
    obtain rfl := Option.some.inj here
    obtain rfl := Option.some.inj new
    rw [latest]
    exact (mappedPlain core).2
  · cases next
  · cases next

theorem closeFollows (held : Follows .running s.core s.queue s.latest s.begun) :
    Follows .closing s.core [] s.latest s.begun where
  follows := fun same => (by cases same)
  idle := fun _ => rfl
  boots := fun same => (by cases same)
  starts := fun same => (by cases same)
  told := fun _ => held.told (by simp)
  mapped := fun _ => held.mapped (.inl rfl)
  coming := fun _ mem => (by cases mem)
  closed := fun same => (by cases same)
  chain := by simpa using held.chain.left_of_append

structure Ordered (s : Indicator) : Prop where
  follows : Follows s.stage s.core s.queue s.latest s.begun
  began : s.begun = s.done.map Prod.fst ++ s.setting.toList
  reported : s.published = (s.done.filter Prod.snd).map Prod.fst

theorem returnsOrdered {indication : Indication} (held : Ordered s)
    (set : s.setting = some indication) (ok : Bool) : Ordered (s.returns indication ok) where
  follows := held.follows
  began := by
    have began := held.began
    rw [set] at began
    simpa [returns] using began
  reported := by cases ok <;> simp [returns,held.reported]

theorem releaseOrdered (held : Ordered s) (ok : Bool) : Ordered (s.release ok) := by
  unfold release
  split
  · exact ⟨held.follows,held.began,held.reported⟩
  · exact ⟨held.follows,held.began,held.reported⟩
  · split
    · exact ⟨held.follows,held.began,held.reported⟩
    · rename_i set
      obtain ⟨follows,began,reported⟩ := returnsOrdered held set ok
      exact ⟨follows,began,reported⟩
  · exact ⟨held.follows,held.began,held.reported⟩

theorem abortOrder (s : Indicator) (caught : Bool) : (s.abort caught).core = s.core ∧
    (s.abort caught).done = s.done ∧ (s.abort caught).published = s.published := by
  unfold abort
  split <;> exact ⟨rfl,rfl,rfl⟩

theorem stepOrdered {label : Label} (enabled : s.step label = some t) (held : Ordered s) :
    Ordered t := by
  obtain ⟨follows,began,reported⟩ := held
  cases label with
  | handle event accepting =>
    simp only [step] at enabled
    split at enabled
    · rename_i running
      obtain rfl := Option.some.inj enabled
      rw [running] at follows
      refine ⟨?_,began,reported⟩
      dsimp only
      rw [running]
      exact handleFollows follows _
    · cases enabled
  | set caught =>
    simp only [step] at enabled
    split at enabled
    · rename_i free
      obtain ⟨⟨indication,stage,queue⟩,next,rfl⟩ := Option.map_eq_some_iff.mp enabled
      obtain ⟨core,done,published⟩ := abortOrder s caught
      rw [free] at began
      refine ⟨?_,?_,?_⟩
      · dsimp only
        rw [core]
        exact setFollows follows next
      · dsimp only
        rw [done,began]
        simp
      · dsimp only
        rw [done,published,reported]
    · cases enabled
  | proceed level =>
    simp only [step] at enabled
    split at enabled
    · rename_i set
      split at enabled
      · obtain rfl := Option.some.inj enabled
        obtain ⟨follows,began,reported⟩ := returnsOrdered ⟨follows,began,reported⟩ set true
        exact ⟨follows,began,reported⟩
      · split at enabled
        · obtain rfl := Option.some.inj enabled
          exact ⟨follows,began,reported⟩
        · cases enabled
    · cases enabled
  | tick level =>
    simp only [step] at enabled
    split at enabled
    · obtain rfl := Option.some.inj enabled
      exact ⟨follows,began,reported⟩
    · cases enabled
  | enter =>
    simp only [step] at enabled
    split at enabled
    · split at enabled
      · obtain rfl := Option.some.inj enabled
        exact ⟨follows,began,reported⟩
      · cases enabled
    · cases enabled
  | enterStray number level =>
    simp only [step] at enabled
    split at enabled
    · split at enabled
      · obtain rfl := Option.some.inj enabled
        exact ⟨follows,began,reported⟩
      · cases enabled
    · cases enabled
  | write fault =>
    simp only [step] at enabled
    split at enabled
    · cases enabled
    split at enabled
    · cases enabled
    split at enabled
    · obtain rfl := Option.some.inj enabled
      refine releaseOrdered ?_ _
      exact ⟨follows,began,reported⟩
    · obtain rfl := Option.some.inj enabled
      exact ⟨follows,began,reported⟩
  | close =>
    simp only [step] at enabled
    split at enabled
    · rename_i running
      obtain rfl := Option.some.inj enabled
      rw [running] at follows
      refine ⟨?_,began,reported⟩
      exact closeFollows (s := s) follows
    · cases enabled

theorem reachedLit {initial : State} {labels : List Label}
    (run : Transition.final step (boot initial) labels = some t) : Lit t :=
  Transition.finalAlong step Lit (fun _ _ _ enabled held _ => stepLit enabled held)
    (bootLit initial) (Transition.alongAlways step _ labels) run

theorem reachedOrdered {initial : State} {labels : List Label}
    (run : Transition.final step (boot initial) labels = some t) : Ordered t :=
  Transition.finalAlong step Ordered (fun _ _ _ enabled held _ => stepOrdered enabled held)
    ⟨bootFollows initial,rfl,rfl⟩ (Transition.alongAlways step _ labels) run

theorem oneChannelLit {initial : State} {labels : List Label}
    (run : Transition.final step (boot initial) labels = some t) :
    OneLit t.pins ∧
    (t.told = true → ∀ c, t.pins c = true → c.colour = t.latest.1) ∧
    (t.stage = .closed → t.latest = shuttingDown) := by
  have lit := reachedLit run
  exact ⟨lit.safe.one,lit.told,(reachedOrdered run).follows.closed⟩

def strayRun : List Label :=
  [.set false,.proceed true,.tick (some true),.enter,.write none,.write none,.write none,
    .tick (some true),.set true,.enterStray 0 true,.write none,.write none,.write none,
    .enterStray 0 true,.write none,.write none,.write none,
    .proceed true,.write none,.write none,.write none,
    .handle .hookOff true,.set false,.proceed true,.write none,.write none,.write none]

theorem strayOneLit : ∃ t, Transition.final step (boot .idle) strayRun = some t ∧
    t.pins .green = true ∧ OneLit t.pins ∧ t.latest.1 = .green := by
  have run : (Transition.final step (boot .idle) strayRun).map (fun t =>
      (t.pins .green,t.told)) = some (true,true) := by decide +kernel
  obtain ⟨t,ends_,same⟩ := Option.map_eq_some_iff.mp run
  obtain ⟨lit,told⟩ := Prod.mk.inj same
  obtain ⟨one,shown,_⟩ := oneChannelLit ends_
  exact ⟨t,ends_,lit,one,(shown told .green lit).symm⟩

theorem indicationsFollow {initial : State} {labels : List Label}
    (run : Transition.final step (boot initial) labels = some t) :
    t.begun = t.done.map Prod.fst ++ t.setting.toList ∧
    t.begun.IsChain (· ≠ ·) ∧
    t.published = (t.done.filter Prod.snd).map Prod.fst ∧
    (t.stage = .running → t.queue = [] → t.setting = none →
      (∃ ok, t.done.getLast? = some (statusLedFor t.core,ok) ∧
        (ok = true → t.published.getLast? = some (statusLedFor t.core))) ∧
      (t.told = true → ∀ c, t.pins c = true → c.colour = (statusLedFor t.core).1)) := by
  have lit := reachedLit run
  obtain ⟨follows,began,reported⟩ := reachedOrdered run
  refine ⟨began,follows.chain.left_of_append,reported,fun running empty returned => ?_⟩
  have latest : t.latest = statusLedFor t.core := by
    have last := follows.follows running
    simp only [empty] at last
    exact last
  refine ⟨?_,fun told c here => latest ▸ lit.told told c here⟩
  have last := follows.told (by simp [running])
  rw [began,returned,Option.toList_none,List.append_nil,List.getLast?_map,
    Option.map_eq_some_iff] at last
  obtain ⟨⟨indication,ok⟩,ends_,same⟩ := last
  obtain rfl : indication = statusLedFor t.core := same.trans latest
  refine ⟨ok,ends_,fun success => ?_⟩
  subst success
  obtain ⟨before,same⟩ := List.getLast?_eq_some_iff.mp ends_
  rw [reported,same]
  simp

theorem strayFollows : ∃ t, Transition.final step (boot .idle) strayRun = some t ∧
    t.published.getLast? = some (.green,.steady ledBrightnessFull) ∧
    ∀ c, t.pins c = true → c.colour = .green := by
  have run : (Transition.final step (boot .idle) strayRun).map (fun t =>
      decide (t.stage = .running ∧ t.queue = [] ∧ t.setting = none ∧ t.told = true ∧
        statusLedFor t.core = (.green,.steady ledBrightnessFull) ∧ t.done.all Prod.snd = true)) =
      some true := by decide +kernel
  obtain ⟨t,ends_,same⟩ := Option.map_eq_some_iff.mp run
  obtain ⟨running,empty,returned,told,core,all⟩ := of_decide_eq_true same
  obtain ⟨_,_,_,settled⟩ := indicationsFollow ends_
  obtain ⟨⟨ok,last,reported⟩,shown⟩ := settled running empty returned
  rw [core] at reported shown
  refine ⟨t,ends_,reported ?_,shown told⟩
  exact List.all_eq_true.mp all _ (List.mem_of_getLast? last)

end Indicator

end TelephoneBooth.StatusLed
