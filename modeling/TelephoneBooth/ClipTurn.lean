import TelephoneBooth.CoreStep
import TelephoneBooth.Fetcher

/-! What a step of the core means for the clip slot: whether it waits for a fetch, announces
a clip, asks for it to be played, opens the recording behind it, or lets it go. -/
namespace TelephoneBooth
open State Event Effect

def isUse : Effect → Bool
  | play (.remoteUrl url _) => url == ""
  | _ => false

def touches : Effect → Bool
  | stopAudio => true
  | effect => isUse effect || effect.fetchKind.isSome

theorem useTouches {effect : Effect} (reads : isUse effect = true) : touches effect = true := by
  cases effect <;> first
    | cases reads
    | simp [touches,reads]

def State.carriesClip : State → Bool
  | ringingQuestion _ | playingQuestion _ | State.beep _ | recording _ => true
  | _ => false

def State.expectsClip : State → Bool
  | dialTone | ringingQuestion _ => true
  | _ => false

def State.toldBy : State → Option Event
  | ringingQuestion q | playingQuestion q | State.beep q | recording q => some (questionReady q)
  | playingMessage => some messageReady
  | playingInstructions => some instructionsReady
  | _ => none

def Calm (effects : List Effect) : Prop :=
  ∀ effect ∈ effects, touches effect = false ∧ effect ≠ startRecording

def Harmless (effects : List Effect) : Prop :=
  ∀ effect ∈ effects, isUse effect = false ∧ effect.fetchKind = none ∧ effect ≠ startRecording

inductive ClipTurn : State → Event → State → List Effect → Prop where
  | still {s e effects} (calm : Calm effects) : ClipTurn s e s effects
  | ring {effects} (q) (calm : Calm effects) :
      ClipTurn dialTone (questionReady q) (ringingQuestion q) effects
  | tell {e s' front back} (kind : e = messageReady ∧ s' = playingMessage ∨
      e = instructionsReady ∧ s' = playingInstructions) (before : Calm front) (after : Calm back) :
      ClipTurn dialTone e s' (front ++ play unresolvedClip :: back)
  | ask {e front back} (q) (before : Calm front) (after : Calm back) :
      ClipTurn (ringingQuestion q) e (playingQuestion q) (front ++ play unresolvedClip :: back)
  | beep {e effects} (q) (calm : Calm effects) :
      ClipTurn (playingQuestion q) e (State.beep q) effects
  | record {e effects} (q) (quiet : ∀ effect ∈ effects, touches effect = false) :
      ClipTurn (State.beep q) e (recording q) effects
  | fetch {s e effect front back} (fetches : effect.fetchKind.isSome = true) (before : Calm front)
      (after : Calm back) : ClipTurn s e dialTone (front ++ effect :: back)
  | other {s e s' effects} (harmless : Harmless effects) (silent : s'.carriesClip = false)
      (fresh : s' = dialTone → s ≠ dialTone) : ClipTurn s e s' effects

theorem calmNone : Calm [] := fun _ mem => absurd mem List.not_mem_nil

theorem calmAppend {xs ys : List Effect} (left : Calm xs) (right : Calm ys) : Calm (xs ++ ys) :=
  fun effect mem => (List.mem_append.mp mem).elim (left effect) (right effect)

theorem Calm.harmless {effects : List Effect} (calm : Calm effects) : Harmless effects := by
  intro effect mem
  obtain ⟨quiet,start⟩ := calm effect mem
  have both : isUse effect = false ∧ effect.fetchKind.isSome = false := by
    cases effect <;> first
      | exact Bool.or_eq_false_iff.mp quiet
      | cases quiet
  exact ⟨both.1,Option.not_isSome_iff_eq_none.mp (by simp [both.2]),start⟩

theorem ClipTurn.front {s e s' effects} {front : List Effect} (before : Calm front)
    (turn : ClipTurn s e s' effects) : ClipTurn s e s' (front ++ effects) := by
  cases turn with
  | still calm => exact .still (calmAppend before calm)
  | ring q calm => exact .ring q (calmAppend before calm)
  | tell kind first last =>
    rw [← List.append_assoc]
    exact .tell kind (calmAppend before first) last
  | ask q first last =>
    rw [← List.append_assoc]
    exact .ask q (calmAppend before first) last
  | beep q calm => exact .beep q (calmAppend before calm)
  | record q quiet =>
    exact .record q fun effect mem => (List.mem_append.mp mem).elim
      (fun inside => (before effect inside).1) (quiet effect)
  | fetch fetches first last =>
    rw [← List.append_assoc]
    exact .fetch fetches (calmAppend before first) last
  | other harmless silent fresh =>
    exact .other (fun effect mem => (List.mem_append.mp mem).elim (before.harmless effect)
      (harmless effect)) silent fresh

theorem dialClip (s : State) (e : Event) (digit : UInt8) :
    ClipTurn s e (decodeDigit digit).1 (decodeDigit digit).2 := by
  have said (message : String) : Calm [log message] := by simp [Calm,touches,isUse,Effect.fetchKind]
  have cancels : Calm [cancelPulseTimeout] := by simp [Calm,touches,isUse,Effect.fetchKind]
  unfold decodeDigit
  split
  · exact .fetch rfl (said _) cancels
  · split
    · exact .fetch rfl (said _) cancels
    · split
      · exact .other (by simp [Harmless,isUse,Effect.fetchKind]) rfl (by simp)
      · split
        · exact .fetch rfl (said _) cancels
        · exact .other (by simp [Harmless,isUse,Effect.fetchKind]) rfl (by simp)

theorem armClip {s e s' effects} (arm : Arm s e s' effects) : ClipTurn s e s' effects := by
  cases arm
  case stay same => exact .still calmNone
  case power effect button =>
    rcases button with ⟨rfl,rfl⟩ | ⟨rfl,rfl⟩ <;>
      exact .still (by simp [Calm,touches,isUse,Effect.fetchKind])
  case dial digit dials => exact dialClip _ _ digit
  case rest rests => cases rests <;> exact .other (by simp [Harmless,isUse,Effect.fetchKind]) rfl (by simp)
  case fail fails => cases fails <;> exact .other (by simp [Harmless,isUse,Effect.fetchKind]) rfl (by simp)
  case answered q => exact .ask q calmNone (by simp [Calm,touches,isUse,Effect.fetchKind])
  case asked q => exact .beep q (by simp [Calm,touches,isUse,Effect.fetchKind])
  case beeped q => exact .record q (by simp [touches,isUse,Effect.fetchKind])
  case ring q => exact .ring q (by simp [Calm,touches,isUse,Effect.fetchKind])
  case playMessage =>
    exact .tell (.inl ⟨rfl,rfl⟩) calmNone (by simp [Calm,touches,isUse,Effect.fetchKind])
  case playInstructions =>
    exact .tell (.inr ⟨rfl,rfl⟩) calmNone (by simp [Calm,touches,isUse,Effect.fetchKind])
  all_goals exact .other (by simp [Harmless,isUse,Effect.fetchKind]) rfl (by simp)

theorem armHarmless {s e s' effects} (arm : Arm s e s' effects) (safe : s.isProtected = true) :
    Harmless effects := by
  cases arm
  case stay => exact calmNone.harmless
  case power effect button =>
    rcases button with ⟨rfl,rfl⟩ | ⟨rfl,rfl⟩ <;> simp [Harmless,isUse,Effect.fetchKind]
  case dial digit dials => cases dials <;> cases safe
  case rest rests => cases rests <;> simp [Harmless,isUse,Effect.fetchKind]
  case fail fails => cases fails <;> simp [Harmless,isUse,Effect.fetchKind]
  all_goals first
    | (cases safe; done)
    | simp [Harmless,isUse,Effect.fetchKind]

theorem protectedCarries {s e s' effects} (safe : s.isProtected = true)
    (turn : ClipTurn s e s' effects) (carries : s'.carriesClip = true) : s' = s ∧ Calm effects := by
  cases turn with
  | still calm => exact ⟨rfl,calm⟩
  | ring | tell | ask | beep | record => cases safe
  | fetch => cases carries
  | other harmless silent fresh =>
    rw [silent] at carries
    cases carries

theorem settleReady {s : State} {e e' : Event} (settled : settle s e = some e')
    (ready : e'.readyKind.isSome = true) : e = e' := by
  refine settledSame settled ?_
  rintro outcome rfl
  cases outcome <;> cases ready

theorem ClipTurn.unsettle {s e e' s' effects} (turn : ClipTurn s e' s' effects)
    (settled : settle s e = some e') : ClipTurn s e s' effects := by
  cases turn with
  | still calm => exact .still calm
  | ring q calm =>
    rw [settleReady settled rfl]
    exact .ring q calm
  | tell kind before after =>
    have ready : e'.readyKind.isSome = true := by rcases kind with ⟨rfl,_⟩ | ⟨rfl,_⟩ <;> rfl
    rw [settleReady settled ready]
    exact .tell kind before after
  | ask q before after => exact .ask q before after
  | beep q calm => exact .beep q calm
  | record q quiet => exact .record q quiet
  | fetch fetches before after => exact .fetch fetches before after
  | other harmless silent fresh => exact .other harmless silent fresh

theorem pausedHarmless {effects : List Effect} (pending : Bool) (harmless : Harmless effects) :
    Harmless (stopIf pending ++ suppress effects) := by
  intro effect mem
  rcases List.mem_append.mp mem with front | kept
  · cases pending with
    | false => cases front
    | true =>
      rw [List.mem_singleton.mp front]
      simp [isUse,Effect.fetchKind]
  · exact harmless effect (List.mem_of_mem_filter kept)

theorem silencedCarries (s : State) :
    (silenceBeep s).1.carriesClip = s.carriesClip :=
  silencedAlike State.carriesClip (fun _ _ => rfl) s

theorem turnClip {s e accepting s' effects} (turn : Turn s e accepting s' effects) :
    ClipTurn s e s' effects := by
  cases turn with
  | stale dropped => exact .still calmNone
  | inner settled open_ same => exact (armClip (innerArm same)).unsettle settled
  | resumedIdle paused position =>
    exact .other (by simp [Harmless,isUse,Effect.fetchKind]) rfl (by simp)
  | resumedTone paused position silent =>
    subst paused
    exact .other (by simp [Harmless,isUse,Effect.fetchKind]) rfl (by simp)
  | resumedPulse paused position input =>
    exact .other (by simp [Harmless,isUse,Effect.fetchKind]) rfl (by simp)
  | resumedDigit paused position input =>
    exact (dialClip s e _).front (by simp [Calm,touches,isUse,Effect.fetchKind])
  | stillPaused paused => exact .other calmNone.harmless rfl (by simp)
  | cut idle_ playing => exact .other (by simp [Harmless,isUse,Effect.fetchKind]) rfl (by simp)
  | kept settled safe same still =>
    rename_i e' n effects
    have safe_ : (silenceBeep s).1.isProtected = true := by rw [silenceBeepProtected,safe]
    have arm := innerArm same
    cases carries : n.carriesClip with
    | true =>
      -- of the protected states only `Recording` carries a clip, and nothing is silenced there
      obtain ⟨stays,calm⟩ := protectedCarries safe_ (armClip arm) carries
      have here : silenceBeep s = (s,false) ∧ silenceBeep n = (n,false) ∧ n = s := by
        cases s with
        | recording q => subst stays; exact ⟨rfl,rfl,rfl⟩
        | uploadingTimedOut r q pending => cases pending <;> (subst stays; cases carries)
        | _ => first
          | (cases safe; done)
          | (subst stays; cases carries)
      obtain ⟨before,after,rfl⟩ := here
      rw [before]
      exact .still fun effect mem => calm effect (List.mem_of_mem_filter mem)
    | false =>
      refine .other (pausedHarmless _ (armHarmless arm safe_)) ((silencedCarries _).trans carries) ?_
      intro tone
      have both : (silenceBeep n).1.isProtected = true := by rw [silenceBeepProtected,still]
      rw [tone] at both
      cases both
  | released settled safe same ended =>
    have safe_ : (silenceBeep s).1.isProtected = true := by rw [silenceBeepProtected,safe]
    refine .other ?_ rfl (by simp)
    intro effect mem
    rcases List.mem_append.mp mem with front | back
    · exact pausedHarmless _ (armHarmless (innerArm same) safe_) effect front
    · rcases List.mem_pair.mp back with rfl | rfl <;> simp [isUse,Effect.fetchKind]

theorem stepClip (s : State) (i : Input) :
    ClipTurn s i.1 (coreStep s i).1 (coreStep s i).2 := by
  obtain ⟨effects,same,turn⟩ := stepTurn s i
  rw [same]
  refine (turnClip turn).front ?_
  intro effect mem
  obtain ⟨colour,pattern,rfl⟩ := ledChangeMem mem
  simp [touches,isUse,Effect.fetchKind]

theorem ClipTurn.orders {s e s' effects} (turn : ClipTurn s e s' effects) {i : Nat} {effect : Effect}
    (found : effects[i]? = some effect) (reads : isUse effect = true) :
    ((s = dialTone ∧ e.readyKind.isSome = true ∧ s'.toldBy = some e) ∨
      ∃ q, s = ringingQuestion q ∧ s' = playingQuestion q) ∧
    ∀ k other, k < i → effects[k]? = some other → touches other = false := by
  have only {front back : List Effect} (before : Calm front) (after : Calm back)
      (found : (front ++ play unresolvedClip :: back)[i]? = some effect) :
      ∀ k other, k < i → (front ++ play unresolvedClip :: back)[k]? = some other →
        touches other = false := by
    intro k other low here
    have place : i ≤ front.length := by
      by_contra past
      rw [List.getElem?_append_right (by omega),
        show i - front.length = i - front.length - 1 + 1 by omega,List.getElem?_cons_succ] at found
      have quiet := (after effect (List.mem_of_getElem? found)).1
      rw [useTouches reads] at quiet
      cases quiet
    rw [List.getElem?_append_left (by omega)] at here
    exact (before other (List.mem_of_getElem? here)).1
  have none_ (quiet : ∀ effect ∈ effects, isUse effect = false) : False := by
    rw [quiet effect (List.mem_of_getElem? found)] at reads
    cases reads
  cases turn with
  | tell kind before after =>
    refine ⟨.inl ?_,only before after found⟩
    rcases kind with ⟨rfl,rfl⟩ | ⟨rfl,rfl⟩ <;> exact ⟨rfl,rfl,rfl⟩
  | ask q before after => exact ⟨.inr ⟨q,rfl,rfl⟩,only before after found⟩
  | still calm | ring q calm | beep q calm =>
    exact (none_ fun effect mem => (calm.harmless effect mem).1).elim
  | record q quiet =>
    refine (none_ fun effect mem => ?_).elim
    by_contra used
    have touched := quiet effect mem
    rw [useTouches (by simpa using used)] at touched
    cases touched
  | fetch fetches before after =>
    refine (none_ fun effect mem => ?_).elim
    rcases List.mem_append.mp mem with front | rest
    · exact (before.harmless effect front).1
    · rcases List.mem_cons.mp rest with rfl | back
      · cases effect <;> first | rfl | cases fetches
      · exact (after.harmless effect back).1
  | other harmless => exact (none_ fun effect mem => (harmless effect mem).1).elim

theorem ClipTurn.starts {s e s' effects} (turn : ClipTurn s e s' effects)
    (mem : startRecording ∈ effects) :
    ∃ q, s = State.beep q ∧ s' = recording q ∧ ∀ effect ∈ effects, touches effect = false := by
  have around {front back : List Effect} {effect : Effect} (before : Calm front) (after : Calm back)
      (other : effect ≠ startRecording) (mem : startRecording ∈ front ++ effect :: back) : False := by
    rcases List.mem_append.mp mem with inside | rest
    · exact (before _ inside).2 rfl
    · rcases List.mem_cons.mp rest with same | inside
      · exact other same.symm
      · exact (after _ inside).2 rfl
  cases turn with
  | record q quiet => exact ⟨q,rfl,rfl,quiet⟩
  | still calm | ring q calm | beep q calm => exact ((calm _ mem).2 rfl).elim
  | tell kind before after => exact (around before after (by simp) mem).elim
  | ask q before after => exact (around before after (by simp) mem).elim
  | fetch fetches before after =>
    exact (around before after (by rintro rfl; cases fetches) mem).elim
  | other harmless => exact ((harmless _ mem).2.2 rfl).elim

theorem ClipTurn.listens {s e s' effects} (turn : ClipTurn s e s' effects) (tone : s' = dialTone) :
    (s = dialTone ∧ ∀ effect ∈ effects, touches effect = false) ∨ s ≠ dialTone ∨
      ∃ effect ∈ effects, effect.fetchKind.isSome = true := by
  cases turn with
  | still calm => exact .inl ⟨tone,fun effect mem => (calm effect mem).1⟩
  | fetch fetches => exact .inr (.inr ⟨_,by simp,fetches⟩)
  | other harmless silent fresh => exact .inr (.inl (fresh tone))
  | tell kind => rcases kind with ⟨_,rfl⟩ | ⟨_,rfl⟩ <;> cases tone
  | ring | ask | beep | record => cases tone

theorem ClipTurn.rings {s e s' effects q} (turn : ClipTurn s e s' effects)
    (ringing : s' = ringingQuestion q) :
    (s = ringingQuestion q ∨ s = dialTone ∧ e = questionReady q) ∧
      ∀ effect ∈ effects, touches effect = false := by
  cases turn with
  | still calm => exact ⟨.inl ringing,fun effect mem => (calm effect mem).1⟩
  | ring p calm =>
    obtain rfl := State.ringingQuestion.inj ringing
    exact ⟨.inr ⟨rfl,rfl⟩,fun effect mem => (calm effect mem).1⟩
  | other harmless silent fresh => rw [ringing] at silent; cases silent
  | tell kind => rcases kind with ⟨_,rfl⟩ | ⟨_,rfl⟩ <;> cases ringing
  | ask | beep | record | fetch => cases ringing

theorem ClipTurn.asks {s e s' effects q} (turn : ClipTurn s e s' effects)
    (playing : s' = playingQuestion q ∨ s' = State.beep q) :
    ((s = playingQuestion q ∨ s = State.beep q) ∧ ∀ effect ∈ effects, touches effect = false) ∨
      s = ringingQuestion q ∧ ∃ effect ∈ effects, isUse effect = true := by
  cases turn with
  | still calm => exact .inl ⟨playing,fun effect mem => (calm effect mem).1⟩
  | ask p before after =>
    rcases playing with same | same <;> cases same
    exact .inr ⟨rfl,play unresolvedClip,by simp,rfl⟩
  | beep p calm =>
    rcases playing with same | same <;> cases same
    exact .inl ⟨.inl rfl,fun effect mem => (calm effect mem).1⟩
  | other harmless silent fresh =>
    rcases playing with rfl | rfl <;> cases silent
  | tell kind => rcases kind with ⟨_,rfl⟩ | ⟨_,rfl⟩ <;> rcases playing with same | same <;> cases same
  | ring | record | fetch => rcases playing with same | same <;> cases same

end TelephoneBooth
