import TelephoneBooth.SpoolCrash

/-! The work the event forwarder hands to other threads: reading, removing or splitting the oldest
spool file, and spilling a batch in chunks. A job goes on when nobody waits for it any more, and
between two of its operations another job may do one of its own. -/
namespace TelephoneBooth.EventSpool
open BatchNames Listing

variable {ε : Type*}

/- What `replay_one_batch` does with the oldest file. `waiting` is for the writer's lock. -/
inductive ReplayJob (ε : Type*) where
  | scanning
  | reading (path : Name)
  | corrupt (path : Name)
  | readDone (batch : Option (Name × List ε))
  | removing (path : Name)
  | waiting (path : Name) (events : List ε) (chunkSize : Nat)
  | splitting (ops : List FsOp)
  | finished
  deriving DecidableEq, Repr

/- What `spill_remaining` does: one `spill` after the other, each under the writer's lock. -/
inductive SpillJob (ε : Type*) where
  | waiting (chunks : List (List ε))
  | storing (chunk : List ε) (rest : List (List ε)) (ops : List FsOp)
  | capping (ops : List FsOp) (rest : List (List ε))
  | finished (ok : Bool)
  deriving DecidableEq, Repr

def ReplayJob.holds : ReplayJob ε → Bool
  | splitting _ => true
  | _ => false

def SpillJob.holds : SpillJob ε → Bool
  | storing _ _ _ | capping _ _ => true
  | _ => false

def runOp (now : Nat) (files : SpoolFiles) (result : FsResult) (op : FsOp) : SpoolFiles × Bool :=
  match result with
  | .ok =>
    match op.perform now files with
    | some after => (after,true)
    | none => (files,false)
  | .fails written cleaned => (failed now files written cleaned op,false)

section Steps
variable (codec : BatchCodec ε)

def replayStep (free : Bool) (now : Nat) (files : SpoolFiles) (result : FsResult) :
    ReplayJob ε → Option (SpoolFiles × ReplayJob ε)
  | .scanning =>
    match result, entries files with
    | .ok, path :: _ => some (files,.reading path)
    | _, _ => some (files,.readDone none)
  | .reading path =>
    match result, files.lookup path with
    | .ok, some file =>
      match codec.fromSlice file.bytes with
      | some events => some (files,.readDone (some (path,events)))
      | none => some (files,.corrupt path)
    | _, _ => some (files,.readDone none)
  | .corrupt path => some ((runOp now files result (.remove path)).1,.readDone none)
  | .removing path => some ((runOp now files result (.remove path)).1,.finished)
  | .waiting path events chunkSize =>
    if free then
      match result, splitOps codec files path events chunkSize with
      | .ok, some ops => some (files,.splitting ops)
      | _, _ => some (files,.finished)
    else none
  | .splitting [] => some (files,.finished)
  | .splitting (op :: ops) =>
    let (files,done) := runOp now files result op
    some (files,if done then .splitting ops else .finished)
  | .readDone _ | .finished => none

/- After the last operation of a batch the directory is synced and read again for the cap. -/
def spillStep (maxFiles : Nat) (free : Bool) (now : Nat) (files : SpoolFiles) (result : FsResult) :
    SpillJob ε → Option (SpoolFiles × SpillJob ε)
  | .waiting [] => some (files,.finished true)
  | .waiting (chunk :: rest) =>
    if free then
      match result, spillOps codec files chunk with
      | .ok, some ops => some (files,.storing chunk rest ops)
      | _, _ => some (files,.finished false)
    else none
  | .storing chunk rest (op :: ops) =>
    let (files,done) := runOp now files result op
    some (files,if done then .storing chunk rest ops else .finished false)
  | .storing _ rest [] =>
    match result with
    | .ok => some (files,.capping (capOps maxFiles files) rest)
    | .fails _ _ => some (files,.finished false)
  | .capping (op :: ops) rest =>
    let (files,done) := runOp now files result op
    some (files,if done then .capping ops rest else .finished false)
  | .capping [] rest =>
    match result with
    | .ok => some (files,.waiting rest)
    | .fails _ _ => some (files,.finished false)
  | .finished _ => none

end Steps

section Changes
variable {codec : BatchCodec ε} {files after : SpoolFiles} {changed : Name}

def Change (changed : Name) (files after : SpoolFiles) : Prop :=
  ∀ name, listed name = true → name ≠ changed → after.lookup name = files.lookup name

theorem changeMem (change : Change changed files after) {name : Name} (differ : name ≠ changed) :
    name ∈ entries after ↔ name ∈ entries files := by
  rw [entriesMem,entriesMem]
  exact and_congr_right fun seen => by rw [change name seen differ]

theorem runRemove (now : Nat) (result : FsResult) (path : Name) :
    (∀ name, name ≠ path → (runOp now files result (.remove path)).1.lookup name = files.lookup name) ∧
    ((runOp now files result (.remove path)).2 = false →
      (runOp now files result (.remove path)).1 = files) ∧
    ((runOp now files result (.remove path)).2 = true →
      (runOp now files result (.remove path)).1.lookup path = none) := by
  cases result with
  | fails written cleaned => exact ⟨fun _ _ => rfl,fun _ => rfl,nofun⟩
  | ok =>
    simp only [runOp]
    cases done : (FsOp.remove path).perform now files with
    | none => exact ⟨fun _ _ => rfl,fun _ => rfl,nofun⟩
    | some next =>
      refine ⟨fun name differ => performFrame done (fun mem => differ (List.mem_singleton.mp mem)),nofun,
        fun _ => ?_⟩
      obtain ⟨file,_,rfl⟩ := Option.map_eq_some_iff.mp done
      exact AList.lookup_erase ..

theorem runFrame {now : Nat} {result : FsResult} {op : FsOp} {name : Name} (apart : name ∉ op.names) :
    (runOp now files result op).1.lookup name = files.lookup name := by
  cases result with
  | fails written cleaned => exact failedFrame apart
  | ok =>
    simp only [runOp]
    cases done : op.perform now files with
    | none => rfl
    | some next => exact performFrame done apart

inductive ChunkOp : FsOp → Prop where
  | write (stem : Name) (index : Nat) (body : List UInt8) :
      ChunkOp (.write (temporary (chunkName stem index)) body)
  | rename (stem : Name) (index : Nat) :
      ChunkOp (.rename (temporary (chunkName stem index)) (chunkName stem index))
  | stamp (stem : Name) (index modified : Nat) : ChunkOp (.setModified (chunkName stem index) modified)

theorem splitOpsAre {path : Name} {events : List ε} {size : Nat} {ops : List FsOp}
    (split_ : splitOps codec files path events size = some ops) :
    ∃ front, ops = front ++ [.remove path] ∧ ∀ op ∈ front, ChunkOp op := by
  unfold splitOps at split_
  split at split_
  · cases split_
  · obtain ⟨original,_,rfl⟩ := Option.map_eq_some_iff.mp split_
    have named {chunk : Name × List UInt8} (mem : chunk ∈ replacements codec (replacementStem path)
        (chunks size events)) : ∃ index, chunk.1 = chunkName (replacementStem path) index := by
      obtain ⟨name,body⟩ := chunk
      obtain ⟨index,_,_,same,_⟩ := (replacementsMem codec).mp mem
      exact ⟨index,same⟩
    refine ⟨_,rfl,fun op mem => ?_⟩
    rcases List.mem_append.mp mem with write | rename
    · obtain ⟨chunk,there,rfl⟩ := List.mem_map.mp write
      obtain ⟨index,same⟩ := named there
      show ChunkOp (.write (temporary chunk.1) chunk.2)
      rw [same]
      exact .write _ index _
    · obtain ⟨chunk,there,rename⟩ := List.mem_flatMap.mp rename
      obtain ⟨index,same⟩ := named there
      rcases List.mem_cons.mp rename with rfl | set_
      · show ChunkOp (.rename (temporary chunk.1) chunk.1)
        rw [same]
        exact .rename _ index
      · obtain ⟨modified,_,rfl⟩ := List.mem_map.mp set_
        show ChunkOp (.setModified chunk.1 modified)
        rw [same]
        exact .stamp _ index modified

theorem chunkOpChange {op : FsOp} (kind : ChunkOp op) (now : Nat) (result : FsResult) :
    (∀ name, listed name = true → (runOp now files result op).1.lookup name = files.lookup name) ∨
    ∃ stem index, Change (chunkName stem index) files (runOp now files result op).1 ∧
      (chunkName stem index ∈ entries files →
        chunkName stem index ∈ entries (runOp now files result op).1) := by
  cases kind with
  | write stem index body =>
    refine .inl fun name seen => runFrame fun mem => ?_
    exact listedTemporary seen (List.mem_singleton.mp mem)
  | rename stem index =>
    refine .inr ⟨stem,index,fun name seen differ => runFrame fun mem => ?_,fun there => ?_⟩
    · rcases List.mem_cons.mp mem with temp | own
      · exact listedTemporary seen temp
      · exact differ (List.mem_singleton.mp own)
    · obtain ⟨seen,present⟩ := entriesMem.mp there
      refine entriesMem.mpr ⟨seen,?_⟩
      cases result with
      | fails written cleaned =>
        cases cleaned with
        | false => exact present
        | true =>
          rw [show (runOp now files (.fails written true) _).1 = files.erase _ from rfl,
            AList.lookup_erase_ne (listedTemporary seen)]
          exact present
      | ok =>
        simp only [runOp]
        cases done : (FsOp.rename (temporary (chunkName stem index)) (chunkName stem index)).perform now
            files with
        | none => exact present
        | some next =>
          obtain ⟨file,_,rfl⟩ := Option.map_eq_some_iff.mp done
          rw [AList.lookup_insert]
          rfl
  | stamp stem index modified =>
    refine .inr ⟨stem,index,fun name seen differ => runFrame fun mem =>
      differ (List.mem_singleton.mp mem),fun there => ?_⟩
    obtain ⟨seen,present⟩ := entriesMem.mp there
    refine entriesMem.mpr ⟨seen,?_⟩
    cases result with
    | fails written cleaned => exact present
    | ok =>
      simp only [runOp]
      cases done : (FsOp.setModified (chunkName stem index) modified).perform now files with
      | none => exact present
      | some next =>
        obtain ⟨file,_,rfl⟩ := Option.map_eq_some_iff.mp done
        rw [AList.lookup_insert]
        rfl

end Changes

end TelephoneBooth.EventSpool
