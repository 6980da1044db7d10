import TelephoneBooth.DurableFiles
import TelephoneBooth.PrefixCode
import TelephoneBooth.Spool

/-! `PendingUploadSpool` down to its files: an entry is a file under its recording's id, written and
synced under a temporary name that no other call draws. A power loss may undo what has not been
synced; `scan` reads files while calls come and go. -/
namespace TelephoneBooth.PendingFiles
open DurableFiles (Files FileCall visible hidden)

structure EntryCodec where
  toVec : SpoolEntry → Bytes
  fromSlice : Bytes → Option SpoolEntry
  reads : ∀ entry, fromSlice (toVec entry) = some entry

def entryCode : PrefixCode SpoolEntry :=
  (PrefixCode.text.both (PrefixCode.text.option.both (PrefixCode.text.both
    (PrefixCode.nat.option.both PrefixCode.nat.option)))).through
    (fun entry => (entry.recordingId,entry.questionId,entry.path,entry.sizeBytes,entry.durationMs))
    (fun parts => some ⟨parts.1,parts.2.1,parts.2.2.1,parts.2.2.2.1,parts.2.2.2.2⟩) fun _ => rfl

def EntryCodec.marked : EntryCodec where
  toVec := entryCode.put
  fromSlice bytes := (entryCode.take bytes).map Prod.fst
  reads entry := by
    have read := entryCode.reads entry []
    rw [List.append_nil] at read
    rw [read,Option.map_some]

def entryPath (id : RecordingId) : Name := id.toList

structure PendingUploads where
  files : Files
  pid : Nat
  last : Nat

/- `read` is one file of a scan; `restart` and `lose` bring up the next process. -/
inductive Request where
  | enqueue (entry : SpoolEntry) (elapsed : Nat)
  | dequeue (id : RecordingId)
  | read (name : Name)
  | io (call : Nat) (result : IoResult)
  | restart (pid : Nat)
  | lose (image : Nat) (garbage : Nat → Bytes) (pid : Nat)

/- Never the same reading twice. -/
def monotonicNs (last elapsed : Nat) : Nat := max elapsed (last + 1)

namespace PendingUploads
variable (codec : EntryCodec)

def opened (pid : Nat) : PendingUploads := ⟨.new,pid,0⟩

def label (s : PendingUploads) : Request → DurableFiles.Label
  | .enqueue entry elapsed => .publish (tempName s.pid (monotonicNs s.last elapsed))
      (entryPath entry.recordingId) (codec.toVec entry)
  | .dequeue id => .remove (entryPath id)
  | .read name => .read name
  | .io call result => .io call result
  | .restart _ => .kill
  | .lose image garbage _ => .lose image garbage

def follow (s : PendingUploads) (files : Files) : Request → PendingUploads
  | .enqueue _ elapsed => ⟨files,s.pid,monotonicNs s.last elapsed⟩
  | .restart pid | .lose _ _ pid => ⟨files,pid,0⟩
  | _ => ⟨files,s.pid,s.last⟩

def step (s : PendingUploads) (request : Request) : Option PendingUploads :=
  (s.files.step true (s.label codec request)).map fun files => s.follow files request

def Enqueued (s : PendingUploads) (name : Name) (bytes : Bytes) : Prop :=
  ∃ entry, entryPath entry.recordingId = name ∧ s.files.Begun name (codec.toVec entry) ∧
    codec.fromSlice bytes = some entry

/-- Whatever a scan may come upon, now or after a power loss, is a whole entry under its own id; and
an enqueue draws a temporary name that no unfinished call holds: a file may still bear it. -/
structure EntriesWhole (s : PendingUploads) : Prop where
  found : ∀ names ∈ s.files.volume.images, ∀ name file, visible name = true →
    names name = some file →
    s.files.volume.synced file = true ∧ s.Enqueued codec name (s.files.volume.live.contents file)
  read : ∀ name bytes, FileCall.read name (.returned (some bytes)) ∈ s.files.calls →
    s.Enqueued codec name bytes
  free : ∀ entry elapsed, visible (entryPath entry.recordingId) = true →
    (s.step codec (.enqueue entry elapsed)).isSome = true

def Dequeues (id : RecordingId) (s : PendingUploads) (request : Request) : Prop :=
  s.files.effect (s.label codec request) = some (.removes (entryPath id))

instance (id : RecordingId) (s : PendingUploads) (request : Request) :
    Decidable (s.Dequeues codec id request) := inferInstanceAs (Decidable (_ = _))

structure Drawn (s : PendingUploads) : Prop where
  sound : DurableFiles.Sound s.files
  begun : ∀ name bytes, s.files.Begun name bytes → s.Enqueued codec name bytes
  drawn : ∀ call ∈ s.files.calls, ∀ temp, call.held = some temp →
    ∃ ns, ns ≤ s.last ∧ temp = tempName s.pid ns

variable {codec} {s t : PendingUploads}

theorem openedDrawn (pid : Nat) : (opened pid).Drawn codec :=
  ⟨DurableFiles.newSound,fun _ _ mem => (by cases mem),fun _ mem => (by cases mem)⟩

theorem stepFollows {request : Request} (stepped : s.step codec request = some t) :
    ∃ files, s.files.step true (s.label codec request) = some files ∧ t = s.follow files request := by
  obtain ⟨files,done,rfl⟩ := Option.map_eq_some_iff.mp stepped
  exact ⟨files,done,rfl⟩

theorem freeName (drawn : s.Drawn codec) (elapsed : Nat) {call : FileCall}
    (mem : call ∈ s.files.calls) :
    call.held ≠ some (tempName s.pid (monotonicNs s.last elapsed)) := by
  intro held
  obtain ⟨ns,bound,same⟩ := drawn.drawn call mem _ held
  have newer : s.last + 1 ≤ monotonicNs s.last elapsed := Nat.le_max_right ..
  have again := tempInjective same
  omega

theorem enqueuedMore {name : Name} {bytes : Bytes} (more : ∀ name bytes, s.files.Begun name bytes →
    t.files.Begun name bytes) (enqueued : s.Enqueued codec name bytes) :
    t.Enqueued codec name bytes := by
  obtain ⟨entry,at_,begun,reads⟩ := enqueued
  exact ⟨entry,at_,more _ _ begun,reads⟩

theorem sameDrawn (drawn : s.Drawn codec) {files : Files} (sound : DurableFiles.Sound files)
    (begun : files.begun = s.files.begun) (held : ∀ call ∈ files.calls, ∀ temp, call.held = some temp →
      ∃ other ∈ s.files.calls, other.held = some temp) : Drawn codec ⟨files,s.pid,s.last⟩ := by
  have kept (name : Name) (bytes : Bytes) : files.Begun name bytes ↔ s.files.Begun name bytes := by
    simp only [Files.Begun,begun]
  refine ⟨sound,fun name bytes old => ?_,fun call mem temp its => ?_⟩
  · exact enqueuedMore (fun name bytes => (kept name bytes).mpr)
      (drawn.begun name bytes ((kept name bytes).mp old))
  · obtain ⟨other,old,has⟩ := held call mem temp its
    exact drawn.drawn other old temp has

theorem freshDrawn (drawn : s.Drawn codec) {volume : DurableFiles.Disk}
    (sound : DurableFiles.Sound ⟨volume,[],s.files.begun⟩) (pid : Nat) :
    Drawn codec ⟨⟨volume,[],s.files.begun⟩,pid,0⟩ :=
  ⟨sound,fun name bytes old => enqueuedMore (s := s) (fun _ _ => id) (drawn.begun name bytes old),
    fun _ mem => (by cases mem)⟩

theorem stepDrawn {request : Request} (drawn : s.Drawn codec)
    (stepped : s.step codec request = some t) : t.Drawn codec := by
  obtain ⟨files,done,rfl⟩ := stepFollows stepped
  have sound := DurableFiles.stepSound drawn.sound done
  have steps := DurableFiles.stepCases drawn.sound done
  cases request with
  | enqueue entry elapsed =>
    cases steps with | publish _ _ _ away seen free => ?_
    refine ⟨sound,?_,?_⟩
    · intro name bytes begun
      rcases List.mem_append.mp begun with old | new_
      · exact enqueuedMore (s := s) (fun _ _ => List.mem_append_left _) (drawn.begun name bytes old)
      · cases List.mem_singleton.mp new_
        exact ⟨entry,rfl,List.mem_append_right _ List.mem_cons_self,codec.reads entry⟩
    · intro call mem temp held
      rcases List.mem_append.mp mem with old | new_
      · obtain ⟨ns,bound,same⟩ := drawn.drawn call old temp held
        have newer : s.last + 1 ≤ monotonicNs s.last elapsed := Nat.le_max_right ..
        exact ⟨ns,Nat.le_trans bound (Nat.le_trans (Nat.le_succ _) newer),same⟩
      · obtain rfl := List.mem_singleton.mp new_
        exact ⟨monotonicNs s.last elapsed,Nat.le_refl _,(Option.some.inj held).symm⟩
  | dequeue id =>
    cases steps with | remove _ seen => ?_
    refine sameDrawn drawn sound rfl fun call mem temp held => ?_
    rcases List.mem_append.mp mem with old | new_
    · exact ⟨call,old,held⟩
    · obtain rfl := List.mem_singleton.mp new_
      cases held
  | read name =>
    cases steps with | read _ seen => ?_
    refine sameDrawn drawn sound rfl fun call mem temp held => ?_
    rcases List.mem_append.mp mem with old | new_
    · exact ⟨call,old,held⟩
    · obtain rfl := List.mem_singleton.mp new_
      cases held
  | io number result =>
    cases steps with | io _ _ before next _ io operated => ?_
    refine sameDrawn drawn sound io.begun fun call mem temp held => ?_
    rw [io.calls] at mem
    rcases List.mem_or_eq_of_mem_set mem with old | rfl
    · exact ⟨call,old,held⟩
    · rcases io.went.held with same | gone
      · exact ⟨before,List.mem_of_getElem? io.here,same ▸ held⟩
      · cases gone.symm.trans held
  | restart pid =>
    cases steps
    exact freshDrawn drawn sound pid
  | lose image garbage pid =>
    cases steps with | lose _ _ names mem => ?_
    exact freshDrawn drawn sound pid

theorem runDrawn {pid : Nat} {requests : List Request}
    (run : Transition.final (step codec) (opened pid) requests = some s) : s.Drawn codec :=
  Transition.finalInvariant (step codec) (Drawn codec)
    (fun _ _ _ stepped drawn => stepDrawn drawn stepped) (openedDrawn pid) run

theorem pendingEntriesWhole {pid : Nat} {requests : List Request}
    (run : Transition.final (step codec) (opened pid) requests = some s) : s.EntriesWhole codec := by
  have drawn := runDrawn run
  refine ⟨?_,?_,?_⟩
  · intro names mem name file seen found
    obtain ⟨synced,begun,_⟩ := drawn.sound.whole.held names mem name file seen found
    exact ⟨synced,drawn.begun name _ begun⟩
  · intro name bytes mem
    exact drawn.begun name bytes (drawn.sound.calls _ mem).2
  · intro entry elapsed seen
    have free (call : FileCall) (mem : call ∈ s.files.calls) := freeName drawn elapsed mem
    have hides : hidden (tempName s.pid (monotonicNs s.last elapsed)) = true := rfl
    simp only [step,label,Files.step]
    rw [if_pos ⟨hides,seen,free⟩]
    rfl

def short : SpoolEntry := ⟨"ab",some "q","p",some 3,some 5⟩

def shortRenamed : List Request :=
  [.enqueue short 4,.io 0 (.ok 0),.io 0 (.ok 2),.io 0 (.ok 5000),.io 0 (.ok 0),.io 0 (.ok 0),
    .io 0 (.ok 0)]

theorem shortUndone : ∃ s, Transition.final (step .marked) (opened 7)
      (shortRenamed ++ [.lose 1 (fun _ => [255]) 8,.read (entryPath "ab"),.io 0 (.ok 0)]) = some s ∧
    s.files.calls = [.read (entryPath "ab") (.returned none)] ∧ s.EntriesWhole .marked := by
  have reads : (Transition.final (step .marked) (opened 7) (shortRenamed ++
      [.lose 1 (fun _ => [255]) 8,.read (entryPath "ab"),.io 0 (.ok 0)])).map (·.files.calls) =
        some [.read (entryPath "ab") (.returned none)] := by decide +kernel
  obtain ⟨s,run,calls⟩ := Option.map_eq_some_iff.mp reads
  exact ⟨s,run,calls,pendingEntriesWhole run⟩

theorem enqueuedSurvives {pid : Nat} {requests later : List Request} {u : PendingUploads}
    (run : Transition.final (step codec) (opened pid) requests = some s) {id : RecordingId}
    {number : Nat} {result : IoResult} {temp : Name} {body : Bytes}
    (here : s.files.calls[number]? = some (.publish temp (entryPath id) body .syncingDir))
    (stepped : s.step codec (.io number result) = some t)
    (done : t.files.calls[number]? = some (.publish temp (entryPath id) body (.returned true)))
    (borne : s.files.volume.live.names (entryPath id) ≠ none)
    (stays : Transition.Along (step codec) (fun s request _ => ¬ s.Dequeues codec id request)
      t later) (ends_ : Transition.final (step codec) t later = some u) :
    ∀ names ∈ u.files.volume.images, ∃ file, names (entryPath id) = some file ∧
      u.Enqueued codec (entryPath id) (u.files.volume.live.contents file) := by
  have drawn := runDrawn run
  obtain ⟨files,went,rfl⟩ := stepFollows stepped
  have seen : visible (entryPath id) = true := (drawn.sound.calls _ (List.mem_of_getElem? here)).2.1
  have kept := DurableFiles.publishedKept drawn.sound here went done borne
  have ends : u.Drawn codec ∧ u.files.volume.Kept (entryPath id) := by
    refine Transition.finalAlong (step codec)
      (fun s => s.Drawn codec ∧ s.files.volume.Kept (entryPath id)) ?_
      ⟨stepDrawn drawn stepped,kept⟩ stays ends_
    intro s request t stepped before stays
    obtain ⟨files,went,rfl⟩ := stepFollows stepped
    have after := DurableFiles.stepKept before.1.sound seen went stays before.2
    refine ⟨stepDrawn before.1 stepped,?_⟩
    cases request <;> exact after
  intro names mem
  obtain ⟨file,found⟩ := Option.ne_none_iff_exists'.mp (ends.2 names mem)
  obtain ⟨_,begun,_⟩ := ends.1.sound.whole.held names mem _ file seen found
  exact ⟨file,found,ends.1.begun _ _ begun⟩

def shortLater : List Request := [.dequeue "ab",.io 1 .fails,.lose 0 (fun _ => []) 8]

def reached (s : PendingUploads) (requests : List Request) : PendingUploads :=
  (Transition.final (step .marked) s requests).getD s

def shortSynced : PendingUploads := (reached (opened 7) shortRenamed).reached [.io 0 (.ok 0)]

theorem reachedFinal {s : PendingUploads} {requests : List Request}
    (runs : (Transition.final (step .marked) s requests).isSome = true) :
    Transition.final (step .marked) s requests = some (s.reached requests) :=
  (Option.getD_of_ne_none (Option.isSome_iff_ne_none.mp runs) s).symm

theorem shortSurvives : (shortSynced.reached shortLater).files.volume.images.length = 1 ∧
    ∀ names ∈ (shortSynced.reached shortLater).files.volume.images, ∃ file,
      names (entryPath "ab") = some file ∧ (shortSynced.reached shortLater).Enqueued .marked
        (entryPath "ab") ((shortSynced.reached shortLater).files.volume.live.contents file) := by
  have stepped : Transition.final (step .marked) (reached (opened 7) shortRenamed) [.io 0 (.ok 0)] =
      some shortSynced := reachedFinal (by decide +kernel)
  have here : (reached (opened 7) shortRenamed).files.calls[0]? = some (.publish (tempName 7 4)
      (entryPath "ab") (EntryCodec.marked.toVec short) .syncingDir) := by decide +kernel
  obtain ⟨t,went,same⟩ := Option.bind_eq_some_iff.mp stepped
  refine ⟨by decide +kernel,?_⟩
  exact enqueuedSurvives (reachedFinal (by decide +kernel)) here (went.trans same)
    (by decide +kernel) (by decide +kernel) (by decide +kernel) (reachedFinal (by decide +kernel))

end PendingUploads

end TelephoneBooth.PendingFiles
