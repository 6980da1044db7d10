import Mathlib.Data.Bool.AllAny
import TelephoneBooth.Sessions
import TelephoneBooth.Timers

/-! The digits of a call. The telemetry of a digit is predicted from the state and the event,
beside the core that decodes it; both have to agree at every step, and the tracker has to
hear of a digit while the session it belongs to is open. -/
namespace TelephoneBooth
open State Event Effect

def dialDigits : List UInt8 := [0,1,2,3,4,5,6,7,8,9]

/- The digits a step decodes, read off the log line with which `decode_digit` opens. -/
def decodedIn (effects : List Effect) : List UInt8 :=
  effects.filterMap fun effect =>
    dialDigits.find? fun digit => (decodeDigit digit).2.head? == some effect

def digitReported (state : State) (i : Input) : Option UInt8 :=
  (if i.2 then dialedDigitForTelemetry state i.1 else none).map Prod.fst

def digitsText (digits : List UInt8) : String :=
  digits.foldl (fun text digit => text ++ toString digit) ""

/- The digits decoded in each maximal stretch of calling states that has ended, in order;
`heard` are those of the stretch under way. -/
def stretchDigits (state : State) (heard : List UInt8) : List Input → List (List UInt8)
  | [] => []
  | i :: rest =>
    let after := (coreStep state i).1
    let decoded := decodedIn (coreStep state i).2
    let heard := if state.resting then decoded else heard ++ decoded
    (if !state.resting && after.resting then [heard] else []) ++ stretchDigits after heard rest

def endedCall : TelemetryEvent → Option (String × String)
  | .callEnded id _ digits => some (id,digits)
  | _ => none

theorem decodedAppend (xs ys : List Effect) : decodedIn (xs ++ ys) = decodedIn xs ++ decodedIn ys :=
  List.filterMap_append

theorem dialDigitsMem {digit : UInt8} (low : digit ≤ 9) : digit ∈ dialDigits := by
  have listed : dialDigits = (List.range 10).map UInt8.ofNat := rfl
  rw [listed]
  have value : digit.toNat ≤ 9 := UInt8.le_iff_toNat_le.mp low
  exact List.mem_map.mpr ⟨digit.toNat,List.mem_range.mpr (by omega),UInt8.ofNat_toNat⟩

theorem decodedDigit (digit : UInt8) :
    decodedIn (decodeDigit digit).2 = if digit ≤ 9 then [digit] else [] := by
  split
  · rename_i low
    have named : ∀ digit ∈ dialDigits, decodedIn (decodeDigit digit).2 = [digit] :=
      List.all_iff_forall_prop.mp (by decide)
    exact named digit (dialDigitsMem low)
  · rename_i high
    have decoded := decodeCases digit
    generalize decodeDigit digit = result at decoded ⊢
    obtain ⟨s,effects⟩ := result
    cases decoded with
    | fetch _ low | unavailable _ low => exact absurd (UInt8.not_lt.mp low) high
    | invalid => rfl

def predicted (s : State) (e : Event) : List UInt8 := ((dialedDigitForTelemetry s e).map Prod.fst).toList

theorem predictedDigit {s : State} {digit : UInt8}
    (direct : s = dialTone ∨ (∃ pulses, s = dialing pulses) ∨ s = callsPaused false) :
    predicted s (digitDialed digit) = if digit ≤ 9 then [digit] else [] := by
  rcases direct with rfl | ⟨pulses,rfl⟩ | rfl <;>
    simp only [predicted,dialedDigitForTelemetry] <;> split <;> rfl

theorem armDecodes {s e s' effects} (arm : Arm s e s' effects) (group : groupFits s = true)
    (playing : ∀ h, s ≠ callsPaused h) : predicted s e = decodedIn effects := by
  cases arm
  case stay same =>
    cases s with
    | callsPaused h => exact absurd rfl (playing h)
    | dialTone =>
      cases e with
      | digitDialed digit =>
        have decoded : decodeDigit digit = (dialTone,[]) := same
        rw [predictedDigit (.inl rfl),← decodedDigit,decoded]
      | _ => rfl
    | dialing pulses =>
      cases e with
      | digitDialed | tick => exact (decodedElsewhere same).elim
      | _ => rfl
    | _ => rfl
  case dial digit dials =>
    rw [decodedDigit]
    cases dials with
    | group pulses =>
      simp only [groupFits,decide_eq_true_eq] at group
      have within : 1 ≤ pulses ∧ pulses ≤ 10 := ⟨group.1,group.2.1⟩
      simp only [predicted,dialedDigitForTelemetry,if_pos within,if_pos group.2.2]
      rfl
    | direct => exact predictedDigit (.inl rfl)
    | interrupted pulses => exact predictedDigit (.inr (.inl ⟨pulses,rfl⟩))
  case fail fails => cases fails <;> rfl
  case power button =>
    rcases button with ⟨rfl,rfl⟩ | ⟨rfl,rfl⟩ <;> cases s with
    | callsPaused h => exact absurd rfl (playing h)
    | _ => rfl
  case rest rests => cases rests <;> rfl
  case hangUpReset =>
    cases s with
    | callsPaused h => exact absurd rfl (playing h)
    | _ => rfl
  case uploadedBeeping done => rcases done with rfl | rfl <;> rfl
  case silentUploaded done => rcases done with rfl | rfl <;> rfl
  all_goals rfl

theorem protectedPredicted {s : State} (safe : s.isProtected = true) (e : Event) :
    predicted s e = [] := by
  cases s <;> first | (cases safe; done) | (cases e <;> rfl)

theorem settlePredicted {s : State} {e e' : Event} (settled : settle s e = some e') :
    predicted s e' = predicted s e := by
  refine settledAlike (predicted s) (fun r outcome => ?_) settled
  cases s with
  | callsPaused onHook => cases onHook <;> cases outcome <;> rfl
  | _ => cases outcome <;> rfl

theorem decodedSuppress (effects : List Effect) : decodedIn (suppress effects) = decodedIn effects :=
  filterMapSuppress (fun _ => rfl) (fun _ => rfl) effects

theorem decodedLed (s t : State) : decodedIn (ledChange s t) = [] :=
  filterMapLed (fun _ _ => rfl) s t

theorem decodedStop (pending : Bool) : decodedIn (stopIf pending) = [] := by
  cases pending <;> rfl

theorem protectedPlaying {s : State} (safe : s.isProtected = true) (h : Bool) : s ≠ callsPaused h := by
  rintro rfl
  cases safe

theorem behindDecodes {s : State} {e : Event} {n : State} {effects : List Effect}
    (safe : s.isProtected = true) (same : handleInner (silenceBeep s).1 e = (n,effects)) :
    decodedIn effects = [] := by
  have safe_ : (silenceBeep s).1.isProtected = true := by rw [silenceBeepProtected,safe]
  have group : groupFits (silenceBeep s).1 = true := by
    cases still : (silenceBeep s).1 with
    | dialing => rw [still] at safe_; cases safe_
    | _ => rfl
  rw [← armDecodes (innerArm same) group (protectedPlaying safe_)]
  exact protectedPredicted safe_ e

theorem uploadPredicted (s : State) (r : RecordingId) (outcome : UploadOutcome) :
    predicted s (uploadFinished r outcome) = [] := by
  cases s with
  | callsPaused onHook => cases onHook <;> rfl
  | _ => rfl

theorem powerDecodes {s e s' effects} (button : e = powerButtonPressed ∨ e = powerButtonHeld)
    (same : handleInner s e = (s',effects)) : predicted s e = [] ∧ decodedIn effects = [] := by
  rcases button with rfl | rfl <;> cases s with
  | callsPaused onHook => cases onHook <;> cases same <;> exact ⟨rfl,rfl⟩
  | _ => cases same; exact ⟨rfl,rfl⟩

theorem turnDecodes {s e accepting s' effects} (turn : Turn s e accepting s' effects)
    (group : groupFits s = true) :
    (if accepting then predicted s e else []) = decodedIn effects := by
  cases turn with
  | stale dropped =>
    cases e with
    | uploadFinished r outcome => rw [uploadPredicted,ite_self]; rfl
    | _ => cases dropped
  | inner settled open_ same =>
    rcases open_ with button | ⟨rfl,playing⟩
    · obtain ⟨unpredicted,silent⟩ := powerDecodes button same
      rw [← settlePredicted settled,unpredicted,silent,ite_self]
    · rw [if_pos rfl,← settlePredicted settled]
      exact armDecodes (innerArm same) group playing
  | resumedIdle paused position =>
    rename_i h
    subst paused
    rw [if_pos rfl]
    cases e with
    | digitDialed digit =>
      obtain rfl : h = true := position
      rfl
    | hookOff => cases position
    | _ => cases h <;> rfl
  | resumedTone paused position silent =>
    rename_i h
    subst paused
    rw [if_pos rfl]
    cases e with
    | digitDialed digit => exact absurd rfl (silent.2 digit)
    | _ => cases h <;> rfl
  | resumedPulse paused position input =>
    rename_i h
    subst paused input
    cases h <;> rfl
  | resumedDigit paused position input =>
    rename_i h digit
    subst paused input
    obtain rfl : h = false := position
    rw [if_pos rfl,predictedDigit (.inr (.inr rfl)),decodedAppend,decodedDigit]
    rfl
  | stillPaused paused => rfl
  | cut idle_ playing => rfl
  | kept settled safe same still =>
    rw [decodedAppend,decodedStop,decodedSuppress,behindDecodes safe same]
    rfl
  | released settled safe same ended =>
    rw [decodedAppend,decodedAppend,decodedStop,decodedSuppress,behindDecodes safe same]
    rfl

theorem stepDecodes {s : State} (i : Input) (group : groupFits s = true) :
    (digitReported s i).toList = decodedIn (coreStep s i).2 := by
  obtain ⟨effects,same,turn⟩ := stepTurn s i
  rw [same,decodedAppend,decodedLed,List.nil_append,← turnDecodes turn group]
  unfold digitReported predicted
  cases i.2 <;> rfl

theorem decodeGroup (digit : UInt8) : groupFits (decodeDigit digit).1 = true := by
  cases landed : (decodeDigit digit).1 with
  | dialing pulses => exact (decodedElsewhere (Prod.ext landed rfl)).elim
  | _ => rfl

theorem armGroup {s e s' effects} (arm : Arm s e s' effects) (group : groupFits s = true) :
    groupFits s' = true := by
  cases arm
  case stay | power => exact group
  case dial digit dials => exact decodeGroup digit
  case fail fails => cases fails <;> rfl
  case nextPulse pulses fits => exact nextPulseFits group fits
  all_goals rfl

theorem stepGroup {s : State} (i : Input) (group : groupFits s = true) :
    groupFits (coreStep s i).1 = true := by
  obtain ⟨event,accepting⟩ := i
  obtain ⟨effects,_,turn⟩ := stepTurn s (event,accepting)
  generalize (coreStep s (event,accepting)).1 = s' at turn ⊢
  have silenced (n : State) : groupFits (silenceBeep n).1 = groupFits n :=
    silencedAlike groupFits (fun _ _ => rfl) n
  cases turn with
  | stale => exact group
  | inner settled open_ same => exact armGroup (innerArm same) group
  | kept settled safe same still =>
    rw [silenced]
    exact armGroup (innerArm same) ((silenced s).trans group)
  | resumedDigit => exact decodeGroup _
  | _ => rfl

def SessionTracker.shown (t : SessionTracker) : Option (String × String) × Nat :=
  (t.current.map fun session => (session.id,session.digits),t.drawn)

section Tracking
variable (uuid : Nat → String)

theorem announcedAppend (t : SessionTracker) (xs ys : List TelemetryEvent) :
    announced uuid t (xs ++ ys) =
      announced uuid t xs ++ announced uuid (Machine.run (SessionTracker.observe uuid) t xs) ys := by
  induction xs generalizing t with
  | nil => rfl
  | cons record rest ih =>
    show (t.observe uuid record).2 ++ announced uuid _ (rest ++ ys) = _
    rw [ih,← List.append_assoc]
    rfl

theorem observeUnseen (t : SessionTracker) {record : TelemetryEvent} (other : ofCore record = false) :
    (t.observe uuid record).2 = [] ∧ (t.observe uuid record).1.shown = t.shown := by
  obtain ⟨current,drawn⟩ := t
  cases record with
  | stateTransition | digitDialed => cases other
  | uploadCompleted | uploadFailed => cases current <;> exact ⟨rfl,rfl⟩
  | _ => exact ⟨rfl,rfl⟩

theorem observeShown {β : Type} {f : TelemetryEvent → Option β}
    (blind : ∀ id outcome outcome' digits, f (.callEnded id outcome digits) =
      f (.callEnded id outcome' digits)) {t u : SessionTracker} (same : t.shown = u.shown)
    (record : TelemetryEvent) :
    (t.observe uuid record).2.filterMap f = (u.observe uuid record).2.filterMap f ∧
      (t.observe uuid record).1.shown = (u.observe uuid record).1.shown := by
  obtain ⟨current,drawn⟩ := t
  obtain ⟨current',drawn'⟩ := u
  obtain ⟨same,rfl⟩ := Prod.mk.inj same
  cases current with
  | none =>
    obtain rfl : current' = none := Option.map_eq_none_iff.mp same.symm
    exact ⟨rfl,rfl⟩
  | some session =>
    obtain ⟨session',rfl,both⟩ := Option.map_eq_some_iff.mp same.symm
    obtain ⟨id,digits⟩ := Prod.mk.inj both
    cases record with
    | stateTransition source target =>
      simp only [observeTags,openSession,closeSession,enterPhase,SessionTracker.shown,
        Option.isNone_some,Bool.and_false,Bool.false_eq_true,if_false,Option.map_some,
        List.nil_append,id,digits]
      split
      · rw [List.filterMap_cons,List.filterMap_cons,blind]
        exact ⟨rfl,rfl⟩
      · exact ⟨rfl,rfl⟩
    | _ =>
      refine ⟨rfl,?_⟩
      dsimp only [SessionTracker.observe,SessionTracker.shown,Option.map_some]
      rw [id,digits]

theorem feedShown {β : Type} {f : TelemetryEvent → Option β}
    (blind : ∀ id outcome outcome' digits, f (.callEnded id outcome digits) =
      f (.callEnded id outcome' digits)) {t u : SessionTracker} (same : t.shown = u.shown)
    (feed : List TelemetryEvent) :
    (announced uuid t feed).filterMap f = (announced uuid u (feed.filter ofCore)).filterMap f := by
  induction feed generalizing t u with
  | nil => rfl
  | cons record rest ih =>
    rw [announced,List.filterMap_append]
    cases seen : ofCore record with
    | false =>
      obtain ⟨silent,still⟩ := observeUnseen uuid t seen
      rw [List.filter_cons_of_neg (by simp [seen]),silent,ih (still.trans same)]
      rfl
    | true =>
      obtain ⟨told,next⟩ := observeShown uuid blind same record
      rw [List.filter_cons_of_pos seen,announced,List.filterMap_append,told,ih next]

theorem digitsTextAppend (xs ys : List UInt8) :
    digitsText (xs ++ ys) = ys.foldl (fun text digit => text ++ toString digit) (digitsText xs) :=
  List.foldl_append

theorem hearDigits (t : SessionTracker) {s : State} {i : Input} (group : groupFits s = true) :
    announced uuid t (digitsPublished s i) = [] ∧
      Machine.run (SessionTracker.observe uuid) t (digitsPublished s i) =
        { t with current := t.current.map fun session => { session with
            digits := (decodedIn (coreStep s i).2).foldl (fun text digit => text ++ toString digit)
              session.digits } } := by
  rw [← stepDecodes i group]
  unfold digitsPublished digitReported
  obtain ⟨current,drawn⟩ := t
  cases (if i.2 = true then dialedDigitForTelemetry s i.1 else none) with
  | none => cases current <;> exact ⟨rfl,rfl⟩
  | some dialed => cases current <;> exact ⟨rfl,rfl⟩

structure Hears (t : SessionTracker) (s : State) (heard : List UInt8) : Prop where
  group : groupFits s = true
  resting : s.resting = true → t.current = none
  calling : s.resting = false → ∃ session, t.current = some session ∧
    session.digits = digitsText heard

theorem Hears.shut {t : SessionTracker} {s : State} {heard : List UInt8}
    (group : groupFits s = true) (rests : s.resting = true) (none_ : t.current = none) :
    Hears t s heard :=
  ⟨group,fun _ => none_,fun busy => by rw [rests] at busy; cases busy⟩

theorem Hears.inCall {t : SessionTracker} {s : State} {heard : List UInt8} {session : LiveSession}
    (group : groupFits s = true) (rings : s.resting = false) (some_ : t.current = some session)
    (text : session.digits = digitsText heard) : Hears t s heard :=
  ⟨group,fun rest => (by rw [rings] at rest; cases rest),fun _ => ⟨session,some_,text⟩⟩

theorem opensSession {s after : State} (drawn : Nat) (idle_ : s.resting = true)
    (rings : after.resting = false) :
    ∃ phase, (⟨none,drawn⟩ : SessionTracker).observe uuid (.stateTransition s.tag after.tag) =
      (⟨some ⟨uuid drawn,phase,""⟩,drawn + 1⟩,[.callStarted (uuid drawn)]) := by
  simp only [observeTags,openSession,closeSession,enterPhase,restingTag,idle_,rings]
  exact ⟨_,rfl⟩

theorem staysShut {s after : State} (drawn : Nat) (rests : after.resting = true) :
    (⟨none,drawn⟩ : SessionTracker).observe uuid (.stateTransition s.tag after.tag) =
      (⟨none,drawn⟩,[]) := by
  simp only [observeTags,openSession,closeSession,enterPhase,restingTag,rests]
  cases s.resting <;> rfl

theorem keepsSession {s after : State} (id digits : String) (phase : SessionPhase) (drawn : Nat)
    (rings : after.resting = false) :
    ∃ phase', (⟨some ⟨id,phase,digits⟩,drawn⟩ : SessionTracker).observe uuid
        (.stateTransition s.tag after.tag) = (⟨some ⟨id,phase',digits⟩,drawn⟩,[]) := by
  simp only [observeTags,openSession,closeSession,enterPhase,restingTag,rings]
  cases s.resting <;> exact ⟨_,rfl⟩

theorem endsSession {s after : State} (id digits : String) (phase : SessionPhase) (drawn : Nat)
    (busy : s.resting = false) (rests : after.resting = true) :
    ∃ outcome, (⟨some ⟨id,phase,digits⟩,drawn⟩ : SessionTracker).observe uuid
        (.stateTransition s.tag after.tag) = (⟨none,drawn⟩,[.callEnded id outcome digits]) := by
  simp only [observeTags,openSession,closeSession,enterPhase,restingTag,busy,rests]
  exact ⟨_,rfl⟩

inductive CallStep (t t' : SessionTracker) (heard : List UInt8) :
    Bool → Bool → List TelemetryEvent → Prop where
  | rests (shut : t.current = none) (idle_ : t'.current = none) : CallStep t t' heard true true []
  | starts (shut : t.current = none) (id : t'.currentSessionId = some (uuid t.drawn)) :
      CallStep t t' heard true false [.callStarted (uuid t.drawn)]
  | goesOn (id : t'.currentSessionId = t.currentSessionId) : CallStep t t' heard false false []
  | ends {id outcome} (open_ : t.currentSessionId = some id) (over_ : t'.current = none) :
      CallStep t t' heard false true [.callEnded id outcome (digitsText heard)]

/- Out of a resumed call the transition is published before the digit, else after it. -/
theorem publishedFirst {t : SessionTracker} {s : State} {i : Input} (group : groupFits s = true)
    (resumes : resumesCall s (coreStep s i).1 = true) {u : SessionTracker}
    {told : List TelemetryEvent} (moves : t.observe uuid
      (.stateTransition s.tag (coreStep s i).1.tag) = (u,told)) :
    announced uuid t (published s i) = told ∧
      Machine.run (SessionTracker.observe uuid) t (published s i) =
        { u with current := u.current.map fun session => { session with
            digits := (decodedIn (coreStep s i).2).foldl (fun text digit => text ++ toString digit)
              session.digits } } := by
  obtain ⟨silent,heardBy⟩ := hearDigits uuid u (i := i) group
  unfold published
  dsimp only
  rw [if_pos resumes,announced,Machine.run,moves,silent,List.append_nil]
  exact ⟨rfl,heardBy⟩

theorem publishedLast {t : SessionTracker} {s : State} {i : Input} (group : groupFits s = true)
    (goesOn : resumesCall s (coreStep s i).1 = false) {u : SessionTracker}
    {told : List TelemetryEvent} (moves : SessionTracker.observe uuid
      { t with current := t.current.map fun session => { session with
          digits := (decodedIn (coreStep s i).2).foldl (fun text digit => text ++ toString digit)
            session.digits } } (.stateTransition s.tag (coreStep s i).1.tag) = (u,told)) :
    announced uuid t (published s i) = told ∧
      Machine.run (SessionTracker.observe uuid) t (published s i) = u := by
  obtain ⟨silent,heardBy⟩ := hearDigits uuid t (i := i) group
  unfold published
  dsimp only
  rw [if_neg (by simp [goesOn]),announcedAppend,silent,Machine.runAppend,heardBy,announced,announced,
    Machine.run,Machine.run,moves,List.append_nil]
  exact ⟨rfl,rfl⟩

theorem stepHears {t : SessionTracker} {s : State} {heard : List UInt8} (i : Input)
    (hears : Hears t s heard) :
    let after := (coreStep s i).1
    let decoded := decodedIn (coreStep s i).2
    let heard' := if s.resting then decoded else heard ++ decoded
    let t' := Machine.run (SessionTracker.observe uuid) t (published s i)
    Hears t' after heard' ∧
      CallStep uuid t t' heard' s.resting after.resting (announced uuid t (published s i)) := by
  intro after decoded heard' t'
  have group := stepGroup i hears.group
  obtain ⟨current,drawn⟩ := t
  cases resting : s.resting with
  | true =>
    obtain rfl : current = none := hears.resting resting
    have now : heard' = decoded := if_pos resting
    cases rests : after.resting with
    | true =>
      have goesOn : resumesCall s after = false := by cases s <;> simp [resumesCall,rests]
      obtain ⟨told,next⟩ := publishedLast uuid hears.group goesOn (t := ⟨none,drawn⟩)
        (staysShut uuid drawn rests)
      have current := congrArg SessionTracker.current next
      rw [told]
      exact ⟨.shut group rests current,.rests rfl current⟩
    | false =>
      obtain ⟨phase,opens⟩ := opensSession uuid drawn resting rests
      cases resumes : resumesCall s after with
      | true =>
        obtain ⟨told,next⟩ := publishedFirst uuid hears.group resumes opens
        have current := congrArg SessionTracker.current next
        rw [told]
        exact ⟨.inCall group rests current (now ▸ rfl),
          .starts rfl (congrArg (Option.map LiveSession.id) current)⟩
      | false =>
        -- only `Idle` rings without resuming, and no digit is decoded there
        obtain rfl : s = idle := by
          cases s with
          | idle => rfl
          | callsPaused h => simp [resumesCall,rests] at resumes
          | _ => cases resting
        have silent : decoded = [] := by
          show decodedIn _ = []
          rw [← stepDecodes i hears.group]
          unfold digitReported
          cases i.2 <;> rfl
        obtain ⟨told,next⟩ := publishedLast uuid hears.group resumes (t := ⟨none,drawn⟩) opens
        have current := congrArg SessionTracker.current next
        rw [told]
        exact ⟨.inCall group rests current (by rw [now,silent]; rfl),
          .starts rfl (congrArg (Option.map LiveSession.id) current)⟩
  | false =>
    obtain ⟨⟨id,phase,digits⟩,rfl,text⟩ := hears.calling resting
    obtain rfl : digits = digitsText heard := text
    have now : heard' = heard ++ decoded := if_neg (by simp [resting])
    have goesOn : resumesCall s after = false := by cases s <;> first | rfl | cases resting
    have grown : decoded.foldl (fun text digit => text ++ toString digit) (digitsText heard) =
        digitsText heard' := by rw [now,digitsTextAppend]
    cases rests : after.resting with
    | true =>
      obtain ⟨outcome,ends_⟩ := endsSession uuid id (digitsText heard') phase drawn resting rests
      rw [← grown] at ends_
      obtain ⟨told,next⟩ := publishedLast uuid hears.group goesOn
        (t := ⟨some ⟨id,phase,digitsText heard⟩,drawn⟩) ends_
      have current := congrArg SessionTracker.current next
      rw [told,grown]
      exact ⟨.shut group rests current,.ends rfl current⟩
    | false =>
      obtain ⟨phase',keeps⟩ := keepsSession uuid (s := s) id (digitsText heard') phase drawn rests
      rw [← grown] at keeps
      obtain ⟨told,next⟩ := publishedLast uuid hears.group goesOn
        (t := ⟨some ⟨id,phase,digitsText heard⟩,drawn⟩) keeps
      have current := congrArg SessionTracker.current next
      have id_ := congrArg (Option.map LiveSession.id) current
      rw [told]
      exact ⟨.inCall group rests current grown,.goesOn id_⟩

theorem runCalls {t : SessionTracker} {s : State} {heard : List UInt8} (hears : Hears t s heard)
    (inputs : List Input) :
    let told := announced uuid t (publishedBy s inputs)
    (told.filterMap endedCall).map Prod.fst <+:
        t.currentSessionId.toList ++ told.filterMap startedId ∧
      (told.filterMap endedCall).map Prod.snd = (stretchDigits s heard inputs).map digitsText := by
  induction inputs generalizing t s heard with
  | nil => exact ⟨List.nil_prefix,rfl⟩
  | cons i rest ih =>
    obtain ⟨next,step⟩ := stepHears uuid i hears
    have later := ih next
    dsimp only at later ⊢
    rw [publishedBy,announcedAppend,List.filterMap_append,List.filterMap_append,stretchDigits]
    generalize (if s.resting = true then _ else _) = heard' at next step later ⊢
    generalize Machine.run (SessionTracker.observe uuid) t (published s i) = t' at step later ⊢
    generalize announced uuid t (published s i) = told at step ⊢
    generalize s.resting = before at step ⊢
    generalize (coreStep s i).1.resting = after at step ⊢
    cases step with
    | rests shut idle_ =>
      have closed : t'.currentSessionId = none := by rw [SessionTracker.currentSessionId,idle_]; rfl
      have closed_ : t.currentSessionId = none := by rw [SessionTracker.currentSessionId,shut]; rfl
      rw [closed] at later
      rw [closed_]
      exact later
    | starts shut id =>
      have closed : t.currentSessionId = none := by rw [SessionTracker.currentSessionId,shut]; rfl
      rw [id] at later
      rw [closed]
      exact later
    | goesOn id =>
      rw [id] at later
      exact later
    | ends open_ over_ =>
      rename_i id outcome
      have closed : t'.currentSessionId = none := by rw [SessionTracker.currentSessionId,over_]; rfl
      rw [closed] at later
      rw [open_]
      exact ⟨(List.prefix_cons_inj id).mpr later.1,congrArg (digitsText heard' :: ·) later.2⟩

end Tracking

/- What `handle_event` reports of each step is what the core decodes there; and the calls that
end are the ones that started, in order, each with the digits decoded in its stretch. -/
theorem digitsReported (uuid : Nat → String) {state : State} (initial : state.resting = true)
    (inputs : List Input) {feed : List TelemetryEvent} (feeds : Feeds feed state inputs) :
    let told := announced uuid .new feed
    Machine.EachStep coreStep (fun s i => (digitReported s i).toList = decodedIn (coreStep s i).2)
        state inputs ∧
      (told.filterMap endedCall).map Prod.fst <+: told.filterMap startedId ∧
      (told.filterMap endedCall).map Prod.snd =
        (stretchDigits state [] inputs).map digitsText := by
  have group : groupFits state = true := by cases state <;> first | rfl | cases initial
  have all (s : State) (group : groupFits s = true) (inputs : List Input) : Machine.EachStep
      coreStep (fun s i => (digitReported s i).toList = decodedIn (coreStep s i).2) s inputs := by
    induction inputs generalizing s with
    | nil => trivial
    | cons i rest ih => exact ⟨stepDecodes i group,ih _ (stepGroup i group)⟩
  have calls := runCalls uuid (.shut group initial rfl : Hears .new state []) inputs
  refine ⟨all state group inputs,?_⟩
  dsimp only at calls ⊢
  rw [feedShown uuid (f := endedCall) (fun _ _ _ _ => rfl) rfl feed,
    feedShown uuid (f := startedId) (fun _ _ _ _ => rfl) rfl feed,feeds]
  exact calls

def dialWhilePaused : List Input :=
  [(hookOff,false),(digitDialed 3,true),(playbackEnded,true),(rotaryPulse,true),(tick,true),
    (hookOn,true)]

theorem pausedCallReported :
    ((announced sampleUuid .new (.other :: publishedBy idle dialWhilePaused)).filterMap
      endedCall).map Prod.snd = (stretchDigits idle [] dialWhilePaused).map digitsText := by
  have feeds : Feeds (.other :: publishedBy idle dialWhilePaused) idle dialWhilePaused := by decide
  exact (digitsReported sampleUuid rfl dialWhilePaused feeds).2.2

example : stretchDigits idle [] dialWhilePaused = [[3,1]] := by decide

end TelephoneBooth
