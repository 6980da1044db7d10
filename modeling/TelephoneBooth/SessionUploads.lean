import TelephoneBooth.Digits
import TelephoneBooth.Forwarder

/-! Upload results name the session they belong to, and the tracker does not read the name.
The tracker beside itself on the feed without other sessions' results: the two differ in the
phase alone, and what sets it last decides whether the difference is announced. -/
namespace TelephoneBooth

abbrev CallEnd := String × CallOutcome × String

def endOf : TelemetryEvent → Option CallEnd
  | .callEnded id outcome digits => some (id,outcome,digits)
  | _ => none

def tagPhase (target : String) : Option SessionPhase :=
  match target with
  | "recording" => some .recording
  | "uploading" | "uploading_timeout" => some .uploading
  | "error" => some .operatorErrorPhase
  | _ => none

def BusEvent.phase : BusEvent → Option SessionPhase
  | .stateTransition _ target => tagPhase target
  | .uploadCompleted _ _ => some .recordingDone
  | .uploadFailed _ _ => some .recordingFailed
  | _ => none

def isForeign (t : SessionTracker) : BusEvent → Bool
  | .uploadCompleted _ sessionId | .uploadFailed _ sessionId =>
    decide (t.currentSessionId ≠ some sessionId)
  | _ => false

def isOpening (t : SessionTracker) : BusEvent → Bool
  | .stateTransition source target => idleTag source && !idleTag target && t.current.isNone
  | _ => false

def isClosing (t : SessionTracker) : BusEvent → Bool
  | .stateTransition source target => !idleTag source && idleTag target && t.current.isSome
  | _ => false

structure Mark where
  own : Bool
  phase : SessionPhase
  deriving DecidableEq, Repr

def markOf (t : SessionTracker) (record : BusEvent) : Option Mark :=
  record.phase.map fun phase => ⟨!isForeign t record,phase⟩

def noteMark (marks : List Mark) (t : SessionTracker) (record : BusEvent) : List Mark :=
  (if isOpening t record then [] else marks) ++ (markOf t record).toList

def lastPhase (marks : List Mark) : SessionPhase := (marks.getLast?.map (·.phase)).getD .prompt

def ownPhase (marks : List Mark) : SessionPhase := lastPhase (marks.filter (·.own))

def OwnLast (marks : List Mark) : Prop :=
  ∀ mark ∈ marks.getLast?, mark.own = false → ownPhase marks = mark.phase

instance (marks : List Mark) : Decidable (OwnLast marks) :=
  inferInstanceAs (Decidable (∀ mark ∈ marks.getLast?, mark.own = false → ownPhase marks = mark.phase))

section Feeding
variable (uuid : Nat → String)

def SessionTracker.hear (t : SessionTracker) (record : BusEvent) :
    SessionTracker × List TelemetryEvent := t.observe uuid record.told

/- The feed without the upload results of other sessions than the one open at the moment. -/
def ownPart (t : SessionTracker) : List BusEvent → List BusEvent
  | [] => []
  | record :: rest =>
    if isForeign t record then ownPart (t.hear uuid record).1 rest
    else record :: ownPart (t.hear uuid record).1 rest

def callsEnded (t : SessionTracker) (feed : List BusEvent) : List CallEnd :=
  (announced uuid t (feed.map BusEvent.told)).filterMap endOf

def ClosesOnOwn (t : SessionTracker) (marks : List Mark) (feed : List BusEvent) : Prop :=
  Machine.EachStep (Machine.observed (SessionTracker.hear uuid) noteMark)
    (fun s record => isClosing s.1 record = true → OwnLast s.2) (t,marks) feed

instance (t : SessionTracker) (marks : List Mark) (feed : List BusEvent) :
    Decidable (ClosesOnOwn uuid t marks feed) := by unfold ClosesOnOwn; infer_instance

end Feeding

theorem phaseTag (target : String) (phase : SessionPhase) :
    phaseAt target phase = (tagPhase target).getD phase := by
  by_cases recording : target = "recording"
  · rw [recording]; rfl
  by_cases uploading : target = "uploading"
  · rw [uploading]; rfl
  by_cases timedOut : target = "uploading_timeout"
  · rw [timedOut]; rfl
  by_cases failed : target = "error"
  · rw [failed]; rfl
  -- every other tag falls through both matches
  simp [phaseAt,tagPhase]

theorem idleTagPhase {target : String} (idle_ : idleTag target = true) : tagPhase target = none := by
  simp only [idleTag,Bool.or_eq_true,beq_iff_eq] at idle_
  rcases idle_ with rfl | rfl <;> rfl

theorem lastPhaseMark (marks : List Mark) (mark : Option Mark) :
    lastPhase (marks ++ mark.toList) = (mark.map (·.phase)).getD (lastPhase marks) := by
  cases mark <;> simp [lastPhase]

theorem ownPhaseMark (marks : List Mark) (mark : Option Mark) :
    ownPhase (marks ++ mark.toList) =
      ((mark.filter (·.own)).map (·.phase)).getD (ownPhase marks) := by
  cases mark with
  | none => simp [ownPhase]
  | some mark => cases own : mark.own <;> simp [ownPhase,lastPhase,Option.filter,own]

theorem resultAnnounced {result : SessionPhase}
    (upload : result = .recordingDone ∨ result = .recordingFailed) (target id digits : String)
    (phase : SessionPhase) :
    outcomeAt target ⟨id,result,digits⟩ = outcomeAt target ⟨id,phase,digits⟩ ↔ phase = result := by
  rcases upload with rfl | rfl <;> by_cases paused : target = "calls_paused" <;> cases phase <;>
    cases dialed : digits.isEmpty <;> simp [outcomeAt,paused,dialed]

def ForeignResults (marks : List Mark) : Prop :=
  ∀ mark ∈ marks, mark.own = false → mark.phase = .recordingDone ∨ mark.phase = .recordingFailed

theorem endAlike {marks : List Mark} (results : ForeignResults marks) (target id digits : String) :
    outcomeAt target ⟨id,lastPhase marks,digits⟩ = outcomeAt target ⟨id,ownPhase marks,digits⟩ ↔
      OwnLast marks := by
  cases last : marks.getLast? with
  | none =>
    have empty : marks = [] := List.getLast?_eq_none_iff.mp last
    subst empty
    exact ⟨fun _ _ mem => (by cases mem),fun _ => rfl⟩
  | some mark =>
    have split := List.dropLast_append_getLast? mark last
    have latest : lastPhase marks = mark.phase := by rw [lastPhase,last]; rfl
    cases own : mark.own with
    | true =>
      have same : ownPhase marks = lastPhase marks := by
        rw [latest,← split,show [mark] = (some mark).toList from rfl,ownPhaseMark]
        simp [Option.filter,own]
      rw [same]
      refine ⟨fun _ other mem foreign => ?_,fun _ => rfl⟩
      rw [last] at mem
      cases mem
      rw [own] at foreign
      cases foreign
    | false =>
      have upload := results mark (List.mem_of_getLast? last) own
      rw [latest,resultAnnounced upload]
      constructor
      · intro same other mem _
        rw [last] at mem
        cases mem
        exact same
      · intro alike
        exact alike mark (by rw [last]; rfl) own

structure Sides (t u : SessionTracker) (marks : List Mark) : Prop where
  shown : t.shown = u.shown
  last : ∀ session ∈ t.current, session.phase = lastPhase marks
  own : ∀ session ∈ u.current, session.phase = ownPhase marks
  results : ForeignResults marks

theorem markResults {t : SessionTracker} {marks : List Mark} (results : ForeignResults marks)
    (record : BusEvent) : ForeignResults (noteMark marks t record) := by
  intro mark mem foreign
  rcases List.mem_append.mp mem with old | new
  · split at old
    · cases old
    · exact results mark old foreign
  · obtain ⟨phase,set,rfl⟩ := Option.map_eq_some_iff.mp (Option.mem_toList.mp new)
    cases record with
    | uploadCompleted => exact .inl (Option.some.inj set).symm
    | uploadFailed => exact .inr (Option.some.inj set).symm
    | _ => cases foreign

theorem shownOpen {t u : SessionTracker} (same : t.shown = u.shown) :
    t.current.map (fun session => (session.id,session.digits)) =
      u.current.map (fun session => (session.id,session.digits)) := congrArg Prod.fst same

theorem shownSome {t u : SessionTracker} (same : t.shown = u.shown) :
    t.current.isSome = u.current.isSome := by
  have alike := congrArg Option.isSome (shownOpen same)
  simpa using alike

theorem openingAlike {t u : SessionTracker} (same : t.shown = u.shown) (record : BusEvent) :
    isOpening u record = isOpening t record := by
  have alike := shownSome same
  cases record with
  | stateTransition => simp only [isOpening,← Option.not_isSome,alike]
  | _ => rfl

theorem closingAlike {t u : SessionTracker} (same : t.shown = u.shown) (record : BusEvent) :
    isClosing u record = isClosing t record := by
  have alike := shownSome same
  cases record with
  | stateTransition => simp only [isClosing,alike]
  | _ => rfl

section Hearing
variable (uuid : Nat → String)

theorem openedFrom {t : SessionTracker} {source target : String} {session : LiveSession}
    (live : session ∈ (openSession uuid t source target).1.current) :
    isOpening t (.stateTransition source target) = true ∧ session.phase = .prompt ∨
    isOpening t (.stateTransition source target) = false ∧ session ∈ t.current := by
  unfold openSession at live
  split at live
  · rename_i opens
    cases live
    exact .inl ⟨opens,rfl⟩
  · rename_i stays
    exact .inr ⟨Bool.eq_false_iff.mpr stays,live⟩

theorem closedFrom {t : SessionTracker} {source target : String} {session : LiveSession}
    (live : session ∈ (closeSession t source target).1.current) : session ∈ t.current := by
  unfold closeSession at live
  split at live
  · split at live
    · cases live
    · exact live
  · exact live

theorem hearPhase {t : SessionTracker} {record : BusEvent} {session : LiveSession}
    (live : session ∈ (t.hear uuid record).1.current) :
    isOpening t record = true ∧ session.phase = record.phase.getD .prompt ∨
    isOpening t record = false ∧ ∃ before ∈ t.current, session.phase = record.phase.getD before.phase := by
  cases record with
  | stateTransition source target =>
    have entered : session ∈ (enterPhase (openSession uuid t source target).1 target).current :=
      closedFrom live
    obtain ⟨before,opened,rfl⟩ := Option.map_eq_some_iff.mp entered
    rcases openedFrom uuid opened with ⟨opens,phase⟩ | ⟨stays,old⟩
    · exact .inl ⟨opens,by rw [← phase]; exact phaseTag target before.phase⟩
    · exact .inr ⟨stays,before,old,phaseTag target before.phase⟩
  | digitDialed | uploadCompleted | uploadFailed =>
    obtain ⟨before,open_,rfl⟩ := Option.map_eq_some_iff.mp live
    exact .inr ⟨rfl,before,open_,rfl⟩
  | _ => exact .inr ⟨rfl,session,live,rfl⟩

theorem hearCloses {t : SessionTracker} {source target : String} {session : LiveSession}
    (live : t.current = some session)
    (closes : isClosing t (.stateTransition source target) = true) :
    (t.hear uuid (.stateTransition source target)).2.filterMap endOf =
      [(session.id,outcomeAt target session,session.digits)] := by
  simp only [isClosing,live,Option.isSome_some,Bool.and_true,Bool.and_eq_true] at closes
  have away : idleTag source = false := by simpa using closes.1
  have still : phaseAt target session.phase = session.phase := by
    rw [phaseTag,idleTagPhase closes.2]
    rfl
  simp only [SessionTracker.hear,BusEvent.told,observeTags,openSession,enterPhase,closeSession,live,
    away,closes.2,still,Option.isNone_some,Bool.and_false,Bool.false_eq_true,if_false,
    Bool.not_false,Bool.and_true,if_true,Option.map_some]
  rfl

theorem hearKeeps {t : SessionTracker} {record : BusEvent} (stays : isClosing t record = false) :
    (t.hear uuid record).2.filterMap endOf = [] := by
  cases record with
  | stateTransition source target =>
    have opened : (openSession uuid t source target).2.filterMap endOf = [] := by
      unfold openSession
      split <;> rfl
    have closed : (closeSession (enterPhase (openSession uuid t source target).1 target)
        source target).2 = [] := by
      unfold closeSession
      split
      · rename_i leaves
        have none_ : t.current = none := by simpa [isClosing,leaves] using stays
        have away : idleTag source = false := by simp_all
        have same : (openSession uuid t source target).1 = t := by simp [openSession,away]
        rw [same,enterPhase,none_]
        rfl
      · rfl
    simp only [SessionTracker.hear,BusEvent.told,observeTags,List.filterMap_append,opened,closed]
    rfl
  | _ => rfl

theorem markedPhase (t : SessionTracker) (record : BusEvent) :
    (markOf t record).map (·.phase) = record.phase := by
  rw [markOf,Option.map_map]
  exact Option.map_id'

theorem notedLast (marks : List Mark) (t : SessionTracker) (record : BusEvent) :
    lastPhase (noteMark marks t record) =
      record.phase.getD (if isOpening t record then .prompt else lastPhase marks) := by
  rw [noteMark,lastPhaseMark,markedPhase]
  split <;> rfl

theorem notedOwn (marks : List Mark) {t : SessionTracker} {record : BusEvent}
    (mine : isForeign t record = false) : ownPhase (noteMark marks t record) =
      record.phase.getD (if isOpening t record then .prompt else ownPhase marks) := by
  have own : (markOf t record).filter (·.own) = markOf t record := by
    cases set : record.phase <;> simp [markOf,set,mine,Option.filter]
  rw [noteMark,ownPhaseMark,own,markedPhase]
  split <;> rfl

theorem sidesTurn {t u : SessionTracker} {marks : List Mark} (sides : Sides t u marks)
    {record : BusEvent} (mine : isForeign t record = false) :
    Sides (t.hear uuid record).1 (u.hear uuid record).1 (noteMark marks t record) := by
  have opening := openingAlike sides.shown record
  refine ⟨?_,?_,?_,markResults sides.results record⟩
  · exact (observeShown uuid (f := fun _ => (none : Option Unit)) (fun _ _ _ _ => rfl)
      sides.shown record.told).2
  · intro session live
    rw [notedLast]
    rcases hearPhase uuid live with ⟨opens,phase⟩ | ⟨stays,before,old,phase⟩
    · rw [if_pos opens,phase]
    · rw [if_neg (by simp [stays]),phase,sides.last before old]
  · intro session live
    rw [notedOwn marks mine]
    rcases hearPhase uuid live with ⟨opens,phase⟩ | ⟨stays,before,old,phase⟩
    · rw [if_pos (opening ▸ opens),phase]
    · rw [if_neg (by simp [← opening,stays]),phase,sides.own before old]

theorem sidesForeign {t u : SessionTracker} {marks : List Mark} (sides : Sides t u marks)
    {record : BusEvent} (foreign : isForeign t record = true) :
    Sides (t.hear uuid record).1 u (noteMark marks t record) := by
  have unseen : ofCore record.told = false := by
    cases record <;> first | rfl | cases foreign
  have stays : isOpening t record = false := by
    cases record <;> first | rfl | cases foreign
  refine ⟨(observeUnseen uuid t unseen).2.trans sides.shown,?_,?_,markResults sides.results record⟩
  · intro session live
    rw [notedLast]
    rcases hearPhase uuid live with ⟨opens,_⟩ | ⟨_,before,old,phase⟩
    · rw [stays] at opens
      cases opens
    · rw [if_neg (by simp [stays]),phase,sides.last before old]
  · intro session live
    have dropped : (markOf t record).filter (·.own) = none := by
      cases set : record.phase <;> simp [markOf,set,foreign,Option.filter]
    rw [noteMark,if_neg (by simp [stays]),ownPhaseMark,dropped,sides.own session live]
    rfl

theorem endsPaired {t u : SessionTracker} {marks : List Mark} (sides : Sides t u marks)
    (record : BusEvent) :
    isClosing t record = false ∧ (t.hear uuid record).2.filterMap endOf = [] ∧
      (u.hear uuid record).2.filterMap endOf = [] ∨
    isClosing t record = true ∧ ∃ x y, (t.hear uuid record).2.filterMap endOf = [x] ∧
      (u.hear uuid record).2.filterMap endOf = [y] ∧ (x = y ↔ OwnLast marks) := by
  have alike := closingAlike sides.shown record
  cases closes : isClosing t record with
  | false => exact .inl ⟨rfl,hearKeeps uuid closes,hearKeeps uuid (alike.trans closes)⟩
  | true =>
    cases record with
    | stateTransition source target =>
      obtain ⟨session,live⟩ : ∃ session, t.current = some session := by
        refine Option.isSome_iff_exists.mp ?_
        rw [isClosing,Bool.and_eq_true] at closes
        exact closes.2
      have shown := shownOpen sides.shown
      rw [live] at shown
      obtain ⟨session',live',both⟩ := Option.map_eq_some_iff.mp shown.symm
      have last := sides.last session live
      have own := sides.own session' live'
      obtain ⟨id,phase,digits⟩ := session
      obtain ⟨id',phase',digits'⟩ := session'
      obtain rfl : phase = lastPhase marks := last
      obtain rfl : phase' = ownPhase marks := own
      obtain ⟨rfl,rfl⟩ := Prod.mk.inj both
      refine .inr ⟨rfl,_,_,hearCloses uuid live closes,hearCloses uuid live' (alike.trans closes),?_⟩
      rw [← endAlike sides.results target id' digits',Prod.mk.injEq,Prod.mk.injEq]
      exact ⟨fun same => same.2.1,fun same => ⟨rfl,same,rfl⟩⟩
    | _ => cases closes

theorem callsEndedCons (t : SessionTracker) (record : BusEvent) (rest : List BusEvent) :
    callsEnded uuid t (record :: rest) =
      (t.hear uuid record).2.filterMap endOf ++ callsEnded uuid (t.hear uuid record).1 rest :=
  List.filterMap_append

theorem feedOwn {t u : SessionTracker} {marks : List Mark} (sides : Sides t u marks)
    (feed : List BusEvent) : callsEnded uuid t feed = callsEnded uuid u (ownPart uuid t feed) ↔
      ClosesOnOwn uuid t marks feed := by
  induction feed generalizing t u marks with
  | nil => exact ⟨fun _ => trivial,fun _ => rfl⟩
  | cons record rest ih =>
    have unfolded : ClosesOnOwn uuid t marks (record :: rest) ↔
        (isClosing t record = true → OwnLast marks) ∧
          ClosesOnOwn uuid (t.hear uuid record).1 (noteMark marks t record) rest := Iff.rfl
    rw [unfolded,callsEndedCons,ownPart]
    cases mine : isForeign t record with
    | true =>
      have stays : isClosing t record = false := by
        cases record <;> first | rfl | cases mine
      rw [hearKeeps uuid stays,stays,if_pos rfl,List.nil_append,ih (sidesForeign uuid sides mine)]
      exact ⟨fun later => ⟨nofun,later⟩,And.right⟩
    | false =>
      rw [if_neg Bool.false_ne_true,callsEndedCons,← ih (sidesTurn uuid sides mine)]
      rcases endsPaired uuid sides record with ⟨stays,here,there⟩ | ⟨closes,x,y,here,there,alike⟩
      · rw [here,there,stays]
        exact ⟨fun later => ⟨nofun,later⟩,And.right⟩
      · rw [here,there,closes,← alike,List.singleton_append,List.singleton_append,List.cons.injEq]
        exact ⟨fun both => ⟨fun _ => both.1,both.2⟩,fun both => ⟨both.1 rfl,both.2⟩⟩

end Hearing

/- What a feed announces of its calls is what it announces without the upload results of other
sessions exactly where every session closes on a mark of its own; feeds that differ in such
results alone then announce the same. -/
theorem outcomesOwn (uuid : Nat → String) (feed : List BusEvent) :
    (callsEnded uuid .new feed = callsEnded uuid .new (ownPart uuid .new feed) ↔
      ClosesOnOwn uuid .new [] feed) ∧
    ∀ feed', ownPart uuid .new feed' = ownPart uuid .new feed → ClosesOnOwn uuid .new [] feed →
      ClosesOnOwn uuid .new [] feed' → callsEnded uuid .new feed' = callsEnded uuid .new feed := by
  have sides : Sides .new .new [] := ⟨rfl,nofun,nofun,nofun⟩
  refine ⟨feedOwn uuid sides feed,fun feed' same own own' => ?_⟩
  rw [(feedOwn uuid sides feed).mpr own,(feedOwn uuid sides feed').mpr own',same]

def stateTags : List String → List BusEvent
  | source :: target :: rest => .stateTransition source target :: stateTags (target :: rest)
  | _ => []

def firstCall : List BusEvent := stateTags ["idle","dial_tone","ringing_question",
  "playing_question","beep","recording","finishing_timeout_recording","uploading_timeout","idle"]

def lateResult : BusEvent := .uploadCompleted "r" (sampleUuid 0)

theorem lateResultOutlived :
    callsEnded sampleUuid .new (firstCall ++ stateTags ["idle","dial_tone","ringing_question"] ++
        lateResult :: stateTags ["ringing_question","playing_question","beep","recording","idle"]) =
      callsEnded sampleUuid .new (firstCall ++ stateTags ["idle","dial_tone","ringing_question",
        "playing_question","beep","recording","idle"]) := by
  exact (outcomesOwn sampleUuid _).2 _ (by decide) (by decide) (by decide)

/- The next caller hangs up without dialing, and is said to have left a recording. -/
theorem lateResultMistaken :
    callsEnded sampleUuid .new (firstCall ++ stateTags ["idle","dial_tone"] ++
        lateResult :: stateTags ["dial_tone","idle"]) =
      [(sampleUuid 0,.hungUpDuringUpload,""),(sampleUuid 1,.recordingCompleted,"")] ∧
    callsEnded sampleUuid .new (firstCall ++ stateTags ["idle","dial_tone","idle"]) =
      [(sampleUuid 0,.hungUpDuringUpload,""),(sampleUuid 1,.hungUpBeforeDial,"")] ∧
    ownPart sampleUuid .new (firstCall ++ stateTags ["idle","dial_tone"] ++
        lateResult :: stateTags ["dial_tone","idle"]) =
      firstCall ++ stateTags ["idle","dial_tone","idle"] := by decide

end TelephoneBooth
