import TelephoneBooth.PendingFiles

/-! The files of the pending-upload spool are the abstract spool that uploads and replays work on:
its `enqueue` is the rename, its `dequeue` the removal, whatever else goes on in the directory. What
a power loss undoes is told by a ledger of the spools since the last sync. -/
namespace TelephoneBooth.PendingFiles
open DurableFiles (Files FileCall Change visible)

structure SpoolLedger where
  now : List SpoolEntry
  unsettled : List (List SpoolEntry)
  deriving DecidableEq

inductive SpoolEvent where
  | enqueue (entry : SpoolEntry)
  | dequeue (id : RecordingId)
  | settle
  | lose
  deriving DecidableEq

inductive SpoolLedger.Goes (l : SpoolLedger) : Option SpoolEvent → SpoolLedger → Prop where
  | nothing : Goes l none l
  | enqueue (entry) : Goes l (some (.enqueue entry))
      ⟨((Spool.opened l.now).enqueue entry).entries,l.now :: l.unsettled⟩
  | dequeue (id) : Goes l (some (.dequeue id))
      ⟨((Spool.opened l.now).dequeue id).entries,l.now :: l.unsettled⟩
  | settle : Goes l (some .settle) ⟨l.now,[]⟩
  | lose (entries) (mem : entries ∈ l.now :: l.unsettled) : Goes l (some .lose) ⟨entries,[]⟩

inductive SpoolLedger.Runs : List (Option SpoolEvent) → SpoolLedger → SpoolLedger → Prop where
  | nil (l) : Runs [] l l
  | cons {event events l next last} (goes : l.Goes event next) (runs : Runs events next last) :
      Runs (event :: events) l last

namespace PendingUploads
variable (codec : EntryCodec)

def event (s : PendingUploads) (request : Request) : Option SpoolEvent :=
  match request with
  | .lose _ _ _ => some .lose
  | _ =>
    match s.files.effect (s.label codec request) with
    | some (.shows _ body) => (codec.fromSlice body).map .enqueue
    | some (.removes target) => some (.dequeue (String.ofList target))
    | some .settles => some .settle
    | none => none

def events (s : PendingUploads) : List Request → List (Option SpoolEvent)
  | [] => []
  | request :: rest => s.event codec request ::
    match s.step codec request with
    | none => []
    | some t => events t rest

def entryAt (contents : Nat → Bytes) (names : Name → Option Nat) (id : RecordingId) :
    Option SpoolEntry :=
  ((names (entryPath id)).map contents).bind codec.fromSlice

def listed (entries : List SpoolEntry) (id : RecordingId) : Option SpoolEntry :=
  entries.find? fun entry => decide (entry.recordingId = id)

def Shown (contents : Nat → Bytes) (names : Name → Option Nat) (entries : List SpoolEntry) : Prop :=
  ∀ id, visible (entryPath id) = true → entryAt codec contents names id = listed entries id

structure Shows (s : PendingUploads) (l : SpoolLedger) : Prop where
  now : Shown codec s.files.volume.live.contents s.files.volume.live.names l.now
  images : ∀ names ∈ s.files.volume.images, ∃ entries ∈ l.now :: l.unsettled,
    Shown codec s.files.volume.live.contents names entries

theorem listedEnqueue (entries : List SpoolEntry) (entry : SpoolEntry) (id : RecordingId) :
    listed ((Spool.opened entries).enqueue entry).entries id =
      if id = entry.recordingId then some entry else listed entries id := by
  unfold listed Spool.enqueue Spool.opened
  rw [List.find?_cons]
  split
  · rename_i same
    rw [if_pos (of_decide_eq_true same).symm]
  · rename_i apart
    rw [if_neg fun same => of_decide_eq_false apart same.symm,List.find?_filter]
    congr 1
    funext old
    by_cases here : old.recordingId = id
    · subst here
      simpa using fun same : old.recordingId = _ => of_decide_eq_false apart same.symm
    · simp [here]

theorem listedDequeue (entries : List SpoolEntry) (gone id : RecordingId) :
    listed ((Spool.opened entries).dequeue gone).entries id =
      if id = gone then none else listed entries id := by
  unfold listed Spool.dequeue Spool.opened
  rw [List.find?_filter]
  split
  · rename_i same
    subst same
    simp
  · rename_i apart
    congr 1
    funext old
    by_cases here : old.recordingId = id
    · subst here
      simp [apart]
    · simp [here]

variable {codec} {s t : PendingUploads}

theorem entryFind (v : DurableFiles.Disk) (id : RecordingId) :
    entryAt codec v.live.contents v.live.names id = (v.live.find (entryPath id)).bind codec.fromSlice :=
  rfl

theorem entryPathInjective {a b : RecordingId} (same : entryPath a = entryPath b) : a = b :=
  String.toList_inj.mp same

def Took (codec : EntryCodec) (effect : Option Change) (before : RecordingId → Option SpoolEntry)
    (after : RecordingId → Option SpoolEntry) : Prop :=
  ∀ id, visible (entryPath id) = true → after id =
    match effect with
    | some (.shows target body) => if entryPath id = target then codec.fromSlice body else before id
    | some (.removes target) => if entryPath id = target then none else before id
    | some .settles | none => before id

theorem tookFinds {v after : DurableFiles.Disk} {effect : Option Change}
    (finds : ∀ name, visible name = true →
      after.live.find name = Change.under name (v.live.find name) effect) :
    Took codec effect (entryAt codec v.live.contents v.live.names)
      (entryAt codec after.live.contents after.live.names) := by
  intro id seen
  rw [entryFind,entryFind,finds _ seen]
  cases effect with
  | none => rfl
  | some effect =>
    cases effect with
    | settles => rfl
    | shows target body => exact apply_ite (Option.bind · codec.fromSlice) ..
    | removes target => exact apply_ite (Option.bind · codec.fromSlice) ..

theorem shownStill {own : Name → Prop} {good : Name → Bytes → Prop} {v after : DurableFiles.Disk}
    (whole : v.Whole visible good) (frame : Volume.Frame visible own v after)
    {names : Name → Option Nat} (mem : names ∈ v.images) {entries : List SpoolEntry}
    (shown : Shown codec v.live.contents names entries) :
    Shown codec after.live.contents names entries := by
  intro id seen
  rw [← shown id seen]
  unfold entryAt
  cases found : names (entryPath id) with
  | none => rfl
  | some file =>
    obtain ⟨_,_,settled⟩ := whole.held names mem (entryPath id) file seen found
    rw [Option.map_some,Option.map_some,(frame.settled file settled).2.1]

theorem ioShows {number : Nat} {result : IoResult} {call next : FileCall} {files : Files}
    {l : SpoolLedger} (drawn : s.Drawn codec) (shows_ : s.Shows codec l)
    (io : DurableFiles.Operated s.files number result files call next) :
    ∃ l', l.Goes (s.event codec (.io number result)) l' ∧ Shows codec ⟨files,s.pid,s.last⟩ l' := by
  have whole := drawn.sound.whole
  have standing := drawn.sound.calls call (List.mem_of_getElem? io.here)
  have took : Took codec (DurableFiles.effectOf call result) _ _ := tookFinds io.went.finds
  have still {names : Name → Option Nat} (mem : names ∈ s.files.volume.images) :
      ∃ entries ∈ l.now :: l.unsettled, Shown codec files.volume.live.contents names entries := by
    obtain ⟨entries,among,shown⟩ := shows_.images names mem
    exact ⟨entries,among,shownStill whole io.went.frame mem shown⟩
  have effect : s.files.effect (.io number result) = DurableFiles.effectOf call result := by
    rw [Files.effect,io.here,Option.bind_some]
  -- the ledger with the new spool on top, or as it was
  have onTop {entries : List SpoolEntry}
      (now : Shown codec files.volume.live.contents files.volume.live.names entries) :
      Shows codec ⟨files,s.pid,s.last⟩ ⟨entries,l.now :: l.unsettled⟩ := by
    refine ⟨now,fun names mem => ?_⟩
    rcases io.went.images names mem with rfl | old
    · exact ⟨entries,List.mem_cons_self,now⟩
    · obtain ⟨earlier,among,shown⟩ := still old.1
      exact ⟨earlier,List.mem_cons_of_mem _ among,shown⟩
  unfold event label
  simp only [effect]
  cases effect_ : DurableFiles.effectOf call result with
  | none =>
    rw [effect_] at took
    have now : Shown codec files.volume.live.contents files.volume.live.names l.now :=
      fun id seen => (took id seen).trans (shows_.now id seen)
    refine ⟨l,.nothing,now,fun names mem => ?_⟩
    rcases io.went.images names mem with rfl | old
    · exact ⟨l.now,List.mem_cons_self,now⟩
    · exact still old.1
  | some did =>
    rw [effect_] at took
    cases did with
    | settles =>
      have now : Shown codec files.volume.live.contents files.volume.live.names l.now :=
        fun id seen => (took id seen).trans (shows_.now id seen)
      refine ⟨_,.settle,now,fun names mem => ?_⟩
      rcases io.went.images names mem with rfl | old
      · exact ⟨l.now,List.mem_cons_self,now⟩
      · exact absurd effect_ old.2
    | removes target =>
      refine ⟨_,.dequeue _,onTop fun id seen => ?_⟩
      rw [took id seen,listedDequeue,← shows_.now id seen]
      have same : entryPath id = target ↔ id = String.ofList target := by
        constructor
        · rintro rfl
          exact String.ofList_toList.symm
        · rintro rfl
          exact String.toList_ofList
      simp only [same]
    | shows target body =>
      have begun : s.files.Begun target body := by
        cases call with
        | publish temp name bytes now =>
          cases now <;> cases result <;> cases effect_
          exact standing.2.2.1
        | remove name now => cases now <;> cases result <;> cases effect_
        | read name now => cases result <;> cases effect_
      obtain ⟨entry,rfl,_,reads⟩ := drawn.begun target body begun
      simp only [reads,Option.map_some]
      refine ⟨_,.enqueue entry,onTop fun id seen => ?_⟩
      rw [took id seen,listedEnqueue,← shows_.now id seen]
      have same : entryPath id = entryPath entry.recordingId ↔ id = entry.recordingId :=
        ⟨entryPathInjective,fun same => same ▸ rfl⟩
      simp only [same,reads]

theorem stepShows {request : Request} {l : SpoolLedger} (drawn : s.Drawn codec)
    (shows_ : s.Shows codec l) (stepped : s.step codec request = some t) :
    ∃ l', l.Goes (s.event codec request) l' ∧ t.Shows codec l' := by
  obtain ⟨files,done,rfl⟩ := stepFollows stepped
  have steps := DurableFiles.stepCases drawn.sound done
  cases request with
  | enqueue | dequeue | read | restart =>
    cases steps
    exact ⟨l,.nothing,shows_.now,shows_.images⟩
  | io number result =>
    cases steps with | io _ _ before next _ io operated => ?_
    exact ioShows drawn shows_ io
  | lose image garbage pid =>
    cases steps with | lose _ _ names mem => ?_
    obtain ⟨entries,among,shown⟩ := shows_.images names mem
    have after : Shown codec (s.files.volume.lose names garbage).live.contents names entries := by
      intro id seen
      rw [← shown id seen]
      unfold entryAt
      cases found : names (entryPath id) with
      | none => rfl
      | some file =>
        obtain ⟨synced,_⟩ := drawn.sound.whole.held names mem (entryPath id) file seen found
        have same : (s.files.volume.lose names garbage).live.contents file =
            s.files.volume.live.contents file := if_pos synced
        rw [Option.map_some,Option.map_some,same]
    refine ⟨_,.lose entries among,after,fun other here => ?_⟩
    obtain rfl := List.mem_singleton.mp here
    exact ⟨entries,List.mem_cons_self,after⟩

theorem runShows {requests : List Request} {l : SpoolLedger} (drawn : s.Drawn codec)
    (shows_ : s.Shows codec l) (run : Transition.final (step codec) s requests = some t) :
    ∃ l', SpoolLedger.Runs (s.events codec requests) l l' ∧ t.Shows codec l' := by
  induction requests generalizing s l with
  | nil =>
    obtain rfl := Option.some.inj run
    exact ⟨l,.nil l,shows_⟩
  | cons request rest ih =>
    obtain ⟨next,stepped,later⟩ := Option.bind_eq_some_iff.mp run
    obtain ⟨middle,goes,shown⟩ := stepShows drawn shows_ stepped
    obtain ⟨last,runs,ends_⟩ := ih (stepDrawn drawn stepped) shown later
    refine ⟨last,?_,ends_⟩
    unfold events
    rw [stepped]
    exact .cons goes runs

theorem openedShows (pid : Nat) : (opened pid).Shows codec ⟨[],[]⟩ := by
  refine ⟨fun _ _ => rfl,fun names mem => ⟨[],List.mem_cons_self,?_⟩⟩
  obtain rfl := List.mem_singleton.mp mem
  exact fun _ _ => rfl

theorem spoolFilesRefine {pid : Nat} {requests : List Request}
    (run : Transition.final (step codec) (opened pid) requests = some s) :
    ∃ l, SpoolLedger.Runs ((opened pid).events codec requests) ⟨[],[]⟩ l ∧ s.Shows codec l :=
  runShows (openedDrawn pid) (openedShows pid) run

def shortSettled : List Request := shortRenamed ++ [.io 0 (.ok 0),.lose 0 (fun _ => []) 8]

theorem shortRefines : ∃ s l, Transition.final (step .marked) (opened 7) shortSettled = some s ∧
    SpoolLedger.Runs [none,none,none,none,none,none,some (.enqueue short),some .settle,some .lose]
      ⟨[],[]⟩ l ∧ s.Shows .marked l := by
  have events : (opened 7).events .marked shortSettled =
      [none,none,none,none,none,none,some (.enqueue short),some .settle,some .lose] := by
    decide +kernel
  have run : Transition.final (step .marked) (opened 7) shortSettled = some _ :=
    reachedFinal (by decide +kernel)
  obtain ⟨l,runs,shown⟩ := spoolFilesRefine run
  exact ⟨_,l,run,events ▸ runs,shown⟩

end PendingUploads

end TelephoneBooth.PendingFiles
