import TelephoneBooth.PendingFiles

/-! The recordings directory and the pending-upload spool on one machine. A recording's file bears
the digest of its bytes; an entry is enqueued once its recording has been finalized, and names that
file. Recordings that are too short are discarded, and uploads and replays read what is left, also
after a power loss. -/
namespace TelephoneBooth.SpooledRecordings
open DurableFiles (Files FileCall visible)
open PendingFiles (EntryCodec PendingUploads Request)

def recordingName (id : RecordingId) : Name := id.toList ++ ['.','f','l','a','c']

def recordingTemp (pid ns : Nat) : Name :=
  ['.','r','e','c','o','r','d','i','n','g','-'] ++ Nat.toDigits 10 pid ++ '-' :: Nat.toDigits 10 ns ++
    ['.','f','l','a','c']

def recordingPath (recordingsDir : String) (id : RecordingId) : String :=
  recordingsDir ++ "/" ++ id ++ ".flac"

/- `finalized` are the recordings whose path may be known, `discarded` those that a discard was
begun for; of these no step reads the second. -/
structure Storage where
  recordings : Files
  spool : PendingUploads
  finalized : List RecordingId
  discarded : List RecordingId

/- `finalize` is the end of a recording, at a clock reading that no unfinished one has drawn; `read`
is an upload or a playback of a recording's file. -/
inductive Label where
  | finalize (body : Bytes) (ns : Nat)
  | discard (id : RecordingId)
  | read (id : RecordingId)
  | recordingIo (call : Nat) (result : IoResult)
  | pending (request : Request)
  | restart (pid : Nat)
  | lose (image : Nat) (garbage : Nat → Bytes) (spoolImage : Nat) (spoolGarbage : Nat → Bytes)
      (pid : Nat)

def handle (hexSha256 : Bytes → RecordingId) : FileCall → List RecordingId
  | .publish _ _ body (.returned true) => [hexSha256 body]
  | _ => []

namespace Storage
variable (codec : EntryCodec) (hexSha256 : Bytes → RecordingId) (recordingsDir : String)

def opened (pid : Nat) : Storage := ⟨.new,.opened pid,[],[]⟩

def mayAsk (s : Storage) : Request → Bool
  | .enqueue entry _ => decide (entry.recordingId ∈ s.finalized ∧
      entry.path = recordingPath recordingsDir entry.recordingId)
  | .restart _ | .lose _ _ _ => false
  | _ => true

def step (s : Storage) : Label → Option Storage
  | .finalize body ns => do
    let recordings ← s.recordings.step false
      (.publish (recordingTemp s.spool.pid ns) (recordingName (hexSha256 body)) body)
    some { s with recordings }
  | .discard id => do
    let recordings ← s.recordings.step false (.remove (recordingName id))
    some { s with recordings, discarded := s.discarded ++ [id] }
  | .read id => do
    let recordings ← s.recordings.step false (.read (recordingName id))
    some { s with recordings }
  | .recordingIo number result => do
    let recordings ← s.recordings.step false (.io number result)
    let call ← recordings.calls[number]?
    some { s with recordings, finalized := s.finalized ++ handle hexSha256 call }
  | .pending request =>
    if s.mayAsk recordingsDir request then do
      let spool ← s.spool.step codec request
      some { s with spool }
    else none
  | .restart pid => do
    let recordings ← s.recordings.step false .kill
    let spool ← s.spool.step codec (.restart pid)
    some { s with recordings, spool }
  | .lose image garbage spoolImage spoolGarbage pid => do
    let recordings ← s.recordings.step false (.lose image garbage)
    let spool ← s.spool.step codec (.lose spoolImage spoolGarbage pid)
    some { s with recordings, spool }

def RecordingKept (s : Storage) (id : RecordingId) : Prop :=
  ∀ names ∈ s.recordings.volume.images, ∃ file, names (recordingName id) = some file ∧
    s.recordings.volume.synced file = true ∧
    hexSha256 (s.recordings.volume.live.contents file) = id

/-- Whatever entry a replay may come upon, now or after a power loss, names the whole recording it
is about, unless that recording was discarded; and what is read of a recording's file has the
digest it is named after. -/
structure Backed (s : Storage) : Prop where
  entries : ∀ names ∈ s.spool.files.volume.images, ∀ name file, visible name = true →
    names name = some file → ∃ entry,
      codec.fromSlice (s.spool.files.volume.live.contents file) = some entry ∧
      entry.recordingId.toList = name ∧
      entry.path = recordingPath recordingsDir entry.recordingId ∧
      (entry.recordingId ∉ s.discarded → s.RecordingKept hexSha256 entry.recordingId)
  reads : ∀ id bytes, FileCall.read (recordingName id) (.returned (some bytes)) ∈ s.recordings.calls →
    hexSha256 bytes = id

end Storage

theorem recordingNameInjective {a b : RecordingId} (same : recordingName a = recordingName b) :
    a = b :=
  String.toList_inj.mp (List.append_cancel_right same)

structure Recorded (hexSha256 : Bytes → RecordingId) (files : Files)
    (finalized discarded : List RecordingId) :
    Prop where
  sound : DurableFiles.Sound files
  digested : ∀ name bytes, files.Begun name bytes → name = recordingName (hexSha256 bytes)
  removals : ∀ target now, FileCall.remove target now ∈ files.calls →
    ∃ id ∈ discarded, target = recordingName id
  landed : ∀ temp id body, FileCall.publish temp (recordingName id) body .syncingDir ∈ files.calls →
    id ∉ discarded → files.volume.live.names (recordingName id) ≠ none
  kept : ∀ id ∈ finalized, visible (recordingName id) = true ∧
    (id ∉ discarded → files.volume.Kept (recordingName id))

section Recordings
variable {hexSha256 : Bytes → RecordingId} {files after : Files}
  {finalized discarded : List RecordingId}

theorem newRecorded : Recorded hexSha256 .new [] [] :=
  ⟨DurableFiles.newSound,fun _ _ mem => (by cases mem),fun _ _ mem => (by cases mem),
    fun _ _ _ mem => (by cases mem),fun _ mem => (by cases mem)⟩

theorem addRecorded {call : FileCall} {begun : List (Name × Bytes)} {gone : List RecordingId}
    (recorded : Recorded hexSha256 files finalized discarded)
    (sound : DurableFiles.Sound ⟨files.volume,files.calls ++ [call],begun⟩)
    (digested : ∀ name bytes, (name,bytes) ∈ begun → name = recordingName (hexSha256 bytes))
    (more : ∀ id ∈ discarded, id ∈ gone)
    (removal : ∀ target now, call = .remove target now → ∃ id ∈ gone, target = recordingName id)
    (fresh : ∀ temp target body, call ≠ .publish temp target body .syncingDir) :
    Recorded hexSha256 ⟨files.volume,files.calls ++ [call],begun⟩ finalized gone := by
  refine ⟨sound,digested,?_,?_,?_⟩
  · intro target now mem
    rcases List.mem_append.mp mem with old | new_
    · obtain ⟨id,among,same⟩ := recorded.removals target now old
      exact ⟨id,more id among,same⟩
    · exact removal target now (List.mem_singleton.mp new_).symm
  · intro temp id body mem stays
    rcases List.mem_append.mp mem with old | new_
    · exact recorded.landed temp id body old fun among => stays (more id among)
    · exact absurd (List.mem_singleton.mp new_).symm (fresh temp _ body)
  · intro id mem
    obtain ⟨seen,kept⟩ := recorded.kept id mem
    exact ⟨seen,fun stays => kept fun among => stays (more id among)⟩

theorem stayRecorded {target : Name} {id : RecordingId}
    (recorded : Recorded hexSha256 files finalized discarded) {number : Nat} {result : IoResult}
    (stays : id ∉ discarded) (removed : files.effect (.io number result) = some (.removes target)) :
    target ≠ recordingName id := by
  rintro rfl
  obtain ⟨call,here,effect⟩ := Option.bind_eq_some_iff.mp removed
  have mem := List.mem_of_getElem? here
  cases call with
  | publish temp name body now => cases now <;> cases result <;> cases effect
  | read name now => cases result <;> cases effect
  | remove name now =>
    cases now <;> cases result <;> cases effect
    obtain ⟨other,among,same⟩ := recorded.removals _ _ mem
    exact stays (recordingNameInjective same ▸ among)

theorem ioRecorded {number : Nat} {result : IoResult} {call next : FileCall}
    (recorded : Recorded hexSha256 files finalized discarded)
    (stepped : files.step false (.io number result) = some after)
    (io : DurableFiles.Operated files number result after call next)
    (done : DurableFiles.callStep false files.volume call result = some (after.volume,next)) :
    Recorded hexSha256 after (finalized ++ handle hexSha256 next) discarded := by
  have sound := DurableFiles.stepSound recorded.sound stepped
  have standing := recorded.sound.calls call (List.mem_of_getElem? io.here)
  have where_ {other : FileCall} (mem : other ∈ after.calls) : other ∈ files.calls ∨ other = next := by
    rw [io.calls] at mem
    exact List.mem_or_eq_of_mem_set mem
  have stays {id : RecordingId} (away : id ∉ discarded) :
      files.effect (.io number result) ≠ some (.removes (recordingName id)) :=
    fun removed => stayRecorded recorded away removed rfl
  have names {temp target : Name} {body : Bytes} {was : DurableFiles.Publishing}
      (same : call = .publish temp target body was) :
      visible target = true ∧ target = recordingName (hexSha256 body) := by
    subst same
    exact ⟨standing.2.1,recorded.digested target body standing.2.2.1⟩
  refine ⟨sound,?_,?_,?_,?_⟩
  · intro name bytes begun
    exact recorded.digested name bytes (by simpa only [Files.Begun,io.begun] using begun)
  · intro target now mem
    rcases where_ mem with old | rfl
    · exact recorded.removals target now old
    · obtain ⟨was,rfl⟩ := DurableFiles.nextRemove done
      exact recorded.removals target was (List.mem_of_getElem? io.here)
  · intro temp id body mem away
    rcases where_ mem with old | rfl
    · exact DurableFiles.operatedBorne io (recorded.sound.calls _ old).2.1 (stays away)
        (recorded.landed temp id body old away)
    · obtain ⟨was,rfl,published⟩ := DurableFiles.nextPublish done
      have shown := io.went.finds _ standing.2.1
      rw [DurableFiles.publishShown published,DurableFiles.Change.under,if_pos rfl] at shown
      intro gone
      rw [Directory.find,gone] at shown
      cases shown
  · intro id mem
    rcases List.mem_append.mp mem with old | new_
    · obtain ⟨seen,kept⟩ := recorded.kept id old
      exact ⟨seen,fun away => DurableFiles.stepKept recorded.sound seen stepped (stays away)
        (kept away)⟩
    · cases next with
      | remove | read => cases new_
      | publish temp target body now =>
        cases now with
        | creating | writing | syncing | renamingTemp | cleaning | syncingDir => cases new_
        | returned ok =>
          cases ok with
          | false => cases new_
          | true =>
            obtain rfl := List.mem_singleton.mp new_
            obtain ⟨was,rfl,published⟩ := DurableFiles.nextPublish done
            obtain rfl := DurableFiles.publishReturned published
            obtain ⟨seen,rfl⟩ := names rfl
            refine ⟨seen,fun away => ?_⟩
            refine DurableFiles.publishedKept recorded.sound io.here stepped ?_
              (recorded.landed temp _ body (List.mem_of_getElem? io.here) away)
            rw [io.calls,List.getElem?_set_self (List.getElem?_eq_some_iff.mp io.here).1]

theorem freshRecorded {volume : DurableFiles.Disk}
    (recorded : Recorded hexSha256 files finalized discarded)
    (sound : DurableFiles.Sound ⟨volume,[],files.begun⟩)
    (kept : ∀ name, files.volume.Kept name → volume.Kept name) :
    Recorded hexSha256 ⟨volume,[],files.begun⟩ finalized discarded :=
  ⟨sound,recorded.digested,fun _ _ mem => (by cases mem),fun _ _ _ mem => (by cases mem),
    fun id mem => ⟨(recorded.kept id mem).1,fun away => kept _ ((recorded.kept id mem).2 away)⟩⟩

end Recordings

namespace Storage
variable {codec : EntryCodec} {hexSha256 : Bytes → RecordingId} {recordingsDir : String} {s t : Storage}

structure Rooted (codec : EntryCodec) (hexSha256 : Bytes → RecordingId) (recordingsDir : String)
    (s : Storage) :
    Prop where
  recorded : Recorded hexSha256 s.recordings s.finalized s.discarded
  drawn : s.spool.Drawn codec
  rooted : ∀ name bytes, s.spool.files.Begun name bytes → ∃ entry,
    codec.fromSlice bytes = some entry ∧ entry.recordingId.toList = name ∧
    entry.path = recordingPath recordingsDir entry.recordingId ∧ entry.recordingId ∈ s.finalized

theorem openedRooted (pid : Nat) : Rooted codec hexSha256 recordingsDir (opened pid) :=
  ⟨newRecorded,PendingUploads.openedDrawn pid,fun _ _ mem => (by cases mem)⟩

theorem recordingRooted {recordings : Files} {finalized discarded : List RecordingId}
    (rooted : Rooted codec hexSha256 recordingsDir s)
    (recorded : Recorded hexSha256 recordings finalized discarded)
    (more : ∀ id ∈ s.finalized, id ∈ finalized) :
    Rooted codec hexSha256 recordingsDir ⟨recordings,s.spool,finalized,discarded⟩ := by
  refine ⟨recorded,rooted.drawn,fun name bytes begun => ?_⟩
  obtain ⟨entry,reads,at_,path,known⟩ := rooted.rooted name bytes begun
  exact ⟨entry,reads,at_,path,more _ known⟩

theorem pendingBegun {spool : PendingUploads} {request : Request} (drawn : s.spool.Drawn codec)
    (stepped : s.spool.step codec request = some spool) {name : Name} {bytes : Bytes}
    (begun : spool.files.Begun name bytes) : s.spool.files.Begun name bytes ∨
      ∃ entry elapsed, request = .enqueue entry elapsed ∧ name = entry.recordingId.toList ∧
        bytes = codec.toVec entry := by
  obtain ⟨files,done,rfl⟩ := PendingUploads.stepFollows stepped
  have steps := DurableFiles.stepCases drawn.sound done
  cases request with
  | enqueue entry elapsed =>
    cases steps with | publish _ _ _ away seen free => ?_
    rcases List.mem_append.mp begun with old | new_
    · exact .inl old
    · cases List.mem_singleton.mp new_
      exact .inr ⟨entry,elapsed,rfl,rfl,rfl⟩
  | dequeue | read | restart | lose =>
    cases steps
    exact .inl begun
  | io number result =>
    cases steps with | io _ _ before next _ io operated => ?_
    exact .inl (by simpa only [Files.Begun,PendingUploads.follow,io.begun] using begun)

theorem pendingRooted {spool : PendingUploads} {request : Request}
    (rooted : Rooted codec hexSha256 recordingsDir s)
    (may : ∀ entry elapsed, request = .enqueue entry elapsed → entry.recordingId ∈ s.finalized ∧
      entry.path = recordingPath recordingsDir entry.recordingId)
    (stepped : s.spool.step codec request = some spool) :
    Rooted codec hexSha256 recordingsDir { s with spool } := by
  refine ⟨rooted.recorded,PendingUploads.stepDrawn rooted.drawn stepped,fun name bytes begun => ?_⟩
  rcases pendingBegun rooted.drawn stepped begun with old | ⟨entry,elapsed,asked,rfl,rfl⟩
  · exact rooted.rooted name bytes old
  · obtain ⟨known,path⟩ := may entry elapsed asked
    exact ⟨entry,codec.reads entry,rfl,path,known⟩

theorem stepRooted {label : Label} (rooted : Rooted codec hexSha256 recordingsDir s)
    (stepped : s.step codec hexSha256 recordingsDir label = some t) :
    Rooted codec hexSha256 recordingsDir t := by
  have recorded := rooted.recorded
  have all (id : RecordingId) (mem : id ∈ s.finalized) : id ∈ s.finalized := mem
  cases label with
  | finalize body ns =>
    obtain ⟨recordings,went,same⟩ := Option.bind_eq_some_iff.mp stepped
    cases same
    have sound := DurableFiles.stepSound recorded.sound went
    cases DurableFiles.stepCases recorded.sound went with | publish _ _ _ away seen free => ?_
    refine recordingRooted rooted (addRecorded recorded sound ?_ (fun _ mem => mem)
      (fun _ _ same => (by cases same)) (fun _ _ _ same => (by cases same))) all
    intro name bytes begun
    rcases List.mem_append.mp begun with old | new_
    · exact recorded.digested name bytes old
    · cases List.mem_singleton.mp new_
      rfl
  | discard id =>
    obtain ⟨recordings,went,same⟩ := Option.bind_eq_some_iff.mp stepped
    cases same
    have sound := DurableFiles.stepSound recorded.sound went
    cases DurableFiles.stepCases recorded.sound went with | remove _ seen => ?_
    refine recordingRooted rooted (addRecorded recorded sound recorded.digested
      (fun _ mem => List.mem_append_left _ mem) ?_ (fun _ _ _ same => (by cases same))) all
    intro target now same
    injection same with names
    exact ⟨id,List.mem_append_right _ List.mem_cons_self,names.symm⟩
  | read id =>
    obtain ⟨recordings,went,same⟩ := Option.bind_eq_some_iff.mp stepped
    cases same
    have sound := DurableFiles.stepSound recorded.sound went
    cases DurableFiles.stepCases recorded.sound went with | read _ seen => ?_
    exact recordingRooted rooted (addRecorded recorded sound recorded.digested (fun _ mem => mem)
      (fun _ _ same => (by cases same)) (fun _ _ _ same => (by cases same))) all
  | recordingIo number result =>
    obtain ⟨recordings,went,more⟩ := Option.bind_eq_some_iff.mp stepped
    obtain ⟨call,found,same⟩ := Option.bind_eq_some_iff.mp more
    cases same
    cases DurableFiles.stepCases recorded.sound went with | io _ _ before next _ io done => ?_
    rw [io.calls,List.getElem?_set_self (List.getElem?_eq_some_iff.mp io.here).1] at found
    obtain rfl := Option.some.inj found
    exact recordingRooted rooted (ioRecorded recorded went io done)
      fun _ mem => List.mem_append_left _ mem
  | pending request =>
    simp only [step] at stepped
    split at stepped
    · rename_i may
      obtain ⟨spool,went,same⟩ := Option.bind_eq_some_iff.mp stepped
      cases same
      refine pendingRooted rooted ?_ went
      rintro entry elapsed rfl
      exact of_decide_eq_true may
    · cases stepped
  | restart pid =>
    simp only [step,Option.bind_eq_bind,Option.bind_eq_some_iff] at stepped
    obtain ⟨recordings,went,spool,gone,same⟩ := stepped
    cases same
    have sound := DurableFiles.stepSound recorded.sound went
    cases went
    have fresh := freshRecorded recorded sound fun _ kept => kept
    exact pendingRooted (recordingRooted rooted fresh all) (fun _ _ asked => (by cases asked)) gone
  | lose image garbage spoolImage spoolGarbage pid =>
    obtain ⟨recordings,went,more⟩ := Option.bind_eq_some_iff.mp stepped
    obtain ⟨spool,gone,same⟩ := Option.bind_eq_some_iff.mp more
    cases same
    have sound := DurableFiles.stepSound recorded.sound went
    cases DurableFiles.stepCases recorded.sound went with | lose _ _ names mem => ?_
    have fresh := freshRecorded recorded sound fun _ kept => Volume.loseKept kept mem garbage
    exact pendingRooted (recordingRooted rooted fresh all) (fun _ _ asked => (by cases asked)) gone

theorem spooledRecordingsBacked {pid : Nat} {labels : List Label}
    (run : Transition.final (step codec hexSha256 recordingsDir) (opened pid) labels = some s) :
    s.Backed codec hexSha256 recordingsDir := by
  have rooted : Rooted codec hexSha256 recordingsDir s :=
    Transition.finalInvariant (step codec hexSha256 recordingsDir)
      (Rooted codec hexSha256 recordingsDir)
      (fun _ _ _ stepped rooted => stepRooted rooted stepped) (openedRooted pid) run
  have recorded := rooted.recorded
  refine ⟨?_,?_⟩
  · intro names mem name file seen found
    obtain ⟨_,begun,_⟩ := rooted.drawn.sound.whole.held names mem name file seen found
    obtain ⟨entry,reads,at_,path,known⟩ := rooted.rooted name _ begun
    refine ⟨entry,reads,at_,path,fun away image among => ?_⟩
    obtain ⟨looks,kept⟩ := recorded.kept entry.recordingId known
    obtain ⟨here,borne⟩ := Option.ne_none_iff_exists'.mp (kept away image among)
    obtain ⟨synced,held,_⟩ := recorded.sound.whole.held image among _ here looks borne
    exact ⟨here,borne,synced,recordingNameInjective (recorded.digested _ _ held).symm⟩
  · intro id bytes mem
    have begun := (recorded.sound.calls _ mem).2
    exact recordingNameInjective (recorded.digested _ _ begun).symm

def flacDigest : Bytes → RecordingId := fun _ =>
  "70bf93310284b039f237e82db4407df3e3ca642fac2b9ebb02973764424c7418"

def marker : Bytes := [0x66,0x4c,0x61,0x43]

def replayedAfterLoss : List Label :=
  .finalize marker 3 :: (List.replicate 6 (.recordingIo 0 (.ok 9)) ++
    .pending (.enqueue ⟨flacDigest marker,none,recordingPath "rec" (flacDigest marker),some 4,
      some 5000⟩ 4) :: List.replicate 6 (.pending (.io 0 (.ok 20000))) ++
    [.lose 0 (fun _ => []) 0 (fun _ => []) 8,.pending (.read (flacDigest marker).toList),
      .read (flacDigest marker),.recordingIo 0 (.ok 1),.recordingIo 0 (.ok 4),.recordingIo 0 (.ok 1)])

theorem replayBacked : ∃ s, Transition.final (step .marked flacDigest "rec") (opened 7)
      replayedAfterLoss = some s ∧ s.finalized = [flacDigest marker] ∧
    s.recordings.calls = [.read (recordingName (flacDigest marker)) (.returned (some marker))] ∧
    s.Backed .marked flacDigest "rec" := by
  have reads : (Transition.final (step .marked flacDigest "rec") (opened 7) replayedAfterLoss).map
      (fun s => (s.finalized,s.recordings.calls)) = some ([flacDigest marker],
        [.read (recordingName (flacDigest marker)) (.returned (some marker))]) := by decide +kernel
  obtain ⟨s,run,both⟩ := Option.map_eq_some_iff.mp reads
  obtain ⟨finalized,calls⟩ := Prod.mk.inj both
  exact ⟨s,run,finalized,calls,spooledRecordingsBacked run⟩

end Storage

end TelephoneBooth.SpooledRecordings
