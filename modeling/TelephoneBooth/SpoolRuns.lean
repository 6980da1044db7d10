import TelephoneBooth.SpoolQueue

/-! Runs of the event spool, with every file operation succeeding: what is queued is what was
spilled and not removed, in the order it was spilled. -/
namespace TelephoneBooth.EventSpool
open BatchNames Listing

/- `spilled` and `removed` are histories; no call reads them. -/
structure SpoolRun (ε : Type*) where
  files : SpoolFiles
  maxFiles : Nat
  spilled : List ε
  removed : List ε

inductive SpoolLabel (ε : Type*) where
  | reopen
  | spill (batch : List ε) (clock : Nat → Nat)
  | oldestBatch
  | drain
  | removeFile (path : Name)
  | split (path : Name) (chunkSize : Nat) (clock : Nat → Nat)

section Model
variable {ε : Type*} (codec : BatchCodec ε)

def eventsOf (batches : List (Name × List ε)) : List ε := (batches.map Prod.snd).flatten

def overCap (maxFiles : Nat) (clock : Nat → Nat) (files : SpoolFiles) (batch : List ε) : List (Name × List ε) :=
  match publish codec clock files batch with
  | none => []
  | some published =>
    (batchesOf codec published).take ((batchesOf codec published).length - maxFiles)

/- A file is removed or split only while it is listed, and split with the events it holds. A call
that ends with an error leaves everything as it was. -/
def step (s : SpoolRun ε) : SpoolLabel ε → Option (SpoolRun ε)
  | .reopen => some { s with maxFiles := defaultMaxFiles }
  | .spill batch clock =>
    match spill codec s.maxFiles clock s.files batch with
    | none => some s
    | some files => some { s with
        files
        spilled := s.spilled ++ batch
        removed := s.removed ++ eventsOf (overCap codec s.maxFiles clock s.files batch) }
  | .oldestBatch => some { s with files := (oldestBatch codec s.files).1 }
  | .drain => some { s with files := (drain codec s.files).1 }
  | .removeFile path =>
    if path ∈ entries s.files then some { s with
      files := removeFile s.files path
      removed := s.removed ++ eventsAt codec s.files path }
    else none
  | .split path chunkSize clock =>
    if path ∈ entries s.files then
      match replaceFileWithChunks codec clock s.files path (eventsAt codec s.files path) chunkSize with
      | none => some s
      | some files => some { s with files }
    else none

def contents (s : SpoolRun ε) : List (Name × List ε) := (drain codec s.files).2

def start (files : SpoolFiles) (maxFiles : Nat) : SpoolRun ε :=
  ⟨files,maxFiles,eventsOf (drain codec files).2,[]⟩

/-- The events queued are those spilled and not removed, in the order they were spilled. -/
structure FifoQueue (s : SpoolRun ε) : Prop where
  ordered : (eventsOf (contents codec s)).Sublist s.spilled
  complete : (eventsOf (contents codec s) ++ s.removed).Perm s.spilled

def FifoStep (before : SpoolRun ε) (label : SpoolLabel ε) (after : SpoolRun ε) : Prop :=
  match label with
  | .reopen | .drain => contents codec after = contents codec before
  | .oldestBatch => contents codec after = contents codec before ∧
      (oldestBatch codec before.files).2 = (contents codec before).head?
  | .spill batch _ => (nextSequence before.files = none ∧ after = before) ∨ ∃ name dropped,
      contents codec before ++ [(name,batch)] = dropped ++ contents codec after ∧
      dropped.length = (contents codec before).length + 1 - before.maxFiles
  | .removeFile path => ∃ front events back,
      contents codec before = front ++ (path,events) :: back ∧ contents codec after = front ++ back
  | .split path _ _ => ∃ front events back chunks,
      contents codec before = front ++ (path,events) :: back ∧
      contents codec after = front ++ chunks ++ back ∧ eventsOf chunks = events

def FewChunks (before : SpoolRun ε) (label : SpoolLabel ε) (_ : SpoolRun ε) : Prop :=
  match label with
  | .split path chunkSize _ =>
    0 < chunkSize → (eventsAt codec before.files path).length ≤ (2 ^ 32 - 1) * chunkSize
  | _ => True

instance (before : SpoolRun ε) (label : SpoolLabel ε) (after : SpoolRun ε) :
    Decidable (FewChunks codec before label after) := by
  unfold FewChunks
  split <;> infer_instance

end Model

section Steps
variable {ε : Type*} {codec : BatchCodec ε} {s t : SpoolRun ε}

theorem eventsOfAppend (xs ys : List (Name × List ε)) : eventsOf (xs ++ ys) = eventsOf xs ++ eventsOf ys := by
  rw [eventsOf,List.map_append,List.flatten_append]
  rfl

theorem eventsOfCons (batch : Name × List ε) (rest : List (Name × List ε)) :
    eventsOf (batch :: rest) = batch.2 ++ eventsOf rest := rfl

theorem contentsOf (queue : QueueFiles codec s.files) : contents codec s = batchesOf codec s.files := by
  rw [contents,drainDone queue]

theorem spillExhausted (none_ : nextSequence s.files = none) (batch : List ε) (clock : Nat → Nat) :
    step codec s (.spill batch clock) = some s := by
  have failed : spill codec s.maxFiles clock s.files batch = none := by
    rw [spill,publish,spillOps,none_]
    rfl
  simp only [step,failed]

structure Spilled (codec : BatchCodec ε) (s : SpoolRun ε) (name : Name) (batch : List ε)
    (dropped : List (Name × List ε)) (t : SpoolRun ε) : Prop where
  queue : QueueFiles codec t.files
  batches : batchesOf codec s.files ++ [(name,batch)] = dropped ++ batchesOf codec t.files
  count : dropped.length = (batchesOf codec s.files).length + 1 - s.maxFiles
  spilled : t.spilled = s.spilled ++ batch
  removed : t.removed = s.removed ++ eventsOf dropped
  maxFiles : t.maxFiles = s.maxFiles

theorem spillDone (queue : QueueFiles codec s.files) {sequence : Nat}
    (next : nextSequence s.files = some sequence) (batch : List ε) (clock : Nat → Nat) : ∃ t dropped,
      step codec s (.spill batch clock) = some t ∧ Spilled codec s (batchName sequence) batch dropped t := by
  obtain ⟨published,done,added⟩ := @publishDone ε codec clock _ _ next batch
  obtain ⟨queue',appended⟩ := addedBatches queue next added
  obtain ⟨files,capped,queue'',dropped⟩ := capBatches s.maxFiles (fun k => clock (k + 2)) queue'
  have whole : spill codec s.maxFiles clock s.files batch = some files := by
    rw [spill,done]
    exact capped
  have beyond : overCap codec s.maxFiles clock s.files batch = (batchesOf codec published).take
      ((batchesOf codec published).length - s.maxFiles) := by
    rw [overCap,done]
  have stepped : step codec s (.spill batch clock) = some { s with
      files
      spilled := s.spilled ++ batch
      removed := s.removed ++ eventsOf (overCap codec s.maxFiles clock s.files batch) } := by
    simp only [step,whole]
  refine ⟨_,_,stepped,queue'',?_,?_,rfl,rfl,rfl⟩
  · rw [← appended,beyond,dropped,List.take_append_drop]
  · have total : (batchesOf codec published).length = (batchesOf codec s.files).length + 1 := by
      rw [appended,List.length_append]
      rfl
    rw [beyond,List.length_take,total]
    exact Nat.min_eq_left (Nat.sub_le _ _)

theorem removeDone (queue : QueueFiles codec s.files) {path : Name} (mem : path ∈ entries s.files) :
    QueueFiles codec (removeFile s.files path) ∧ ∃ front back,
      batchesOf codec s.files = front ++ (path,eventsAt codec s.files path) :: back ∧
      batchesOf codec (removeFile s.files path) = front ++ back := by
  have kept : Kept (fun name => decide (name ≠ path)) s.files (removeFile s.files path) := by
    intro name _
    by_cases same : name = path
    · subst same
      rw [if_neg (by simp)]
      exact AList.lookup_erase ..
    · rw [if_pos (decide_eq_true same)]
      exact AList.lookup_erase_ne same
  obtain ⟨front,back,listing⟩ := List.append_of_mem mem
  have distinct := entriesNodup s.files
  rw [listing] at distinct
  obtain ⟨_,rest,apart⟩ := List.nodup_append.mp distinct
  have stays {names : List Name} (away : ∀ name ∈ names, name ≠ path) :
      ((names.map fun name => (name,eventsAt codec s.files name)).filter
        fun batch => decide (batch.1 ≠ path)) = names.map fun name => (name,eventsAt codec s.files name) := by
    refine List.filter_eq_self.mpr fun batch inside => ?_
    obtain ⟨name,there,rfl⟩ := List.mem_map.mp inside
    exact decide_eq_true (away name there)
  have frontAway : ∀ name ∈ front, name ≠ path := fun name early =>
    apart name early path List.mem_cons_self
  have backAway : ∀ name ∈ back, name ≠ path := fun name late same =>
    (List.nodup_cons.mp rest).1 (same ▸ late)
  refine ⟨keptQueue kept queue,_,_,by rw [batchesOf,listing,List.map_append,List.map_cons],?_⟩
  rw [keptBatches kept,batchesOf,listing,List.map_append,List.map_cons,List.filter_append,
    List.filter_cons_of_neg (by simp),stays frontAway,stays backAway]

theorem splitQueue (queue : QueueFiles codec s.files) {path : Name} (mem : path ∈ entries s.files)
    {chunkSize : Nat} (positive : 0 < chunkSize)
    (few : (eventsAt codec s.files path).length ≤ (2 ^ 32 - 1) * chunkSize) (clock : Nat → Nat) :
    ∃ files, replaceFileWithChunks codec clock s.files path (eventsAt codec s.files path) chunkSize =
        some files ∧ QueueFiles codec files ∧ ∃ front back chunks,
      batchesOf codec s.files = front ++ (path,eventsAt codec s.files path) :: back ∧
      batchesOf codec files = front ++ chunks ++ back ∧ eventsOf chunks = eventsAt codec s.files path := by
  obtain ⟨seen,present⟩ := entriesMem.mp mem
  obtain ⟨original,found⟩ := Option.isSome_iff_exists.mp present
  obtain ⟨files,done,replaced⟩ :=
    @splitDone ε codec clock _ _ seen _ found (eventsAt codec s.files path) _ positive
  have count := (chunksBound positive _ _).mpr few
  obtain ⟨queue',front,back,chunks,before,after,pieces⟩ :=
    replacedQueue queue mem (Nat.lt_of_le_of_lt count (by decide)) replaced
  refine ⟨files,done,queue',front,back,chunks,before,after,?_⟩
  rw [eventsOf,pieces,chunksFlatten positive]

theorem fifoWithout {front gone back removed spilled : List ε}
    (ordered : (front ++ (gone ++ back)).Sublist spilled)
    (complete : (front ++ (gone ++ back) ++ removed).Perm spilled) :
    (front ++ back).Sublist spilled ∧ (front ++ back ++ (removed ++ gone)).Perm spilled := by
  refine ⟨.trans (.append_left (List.sublist_append_right gone back) front) ordered,.trans ?_ complete⟩
  have moved : (back ++ (removed ++ gone)).Perm (gone ++ (back ++ removed)) := by
    rw [← List.append_assoc]
    exact List.perm_append_comm
  simpa only [List.append_assoc] using moved.append_left front

def Keeps (codec : BatchCodec ε) (s : SpoolRun ε) (label : SpoolLabel ε) (t : SpoolRun ε) : Prop :=
  (QueueFiles codec t.files ∧ FifoQueue codec t) ∧ FifoStep codec s label t

theorem fifoSame (queue : QueueFiles codec s.files) (fifo : FifoQueue codec s)
    (files : t.files = s.files) (spilled : t.spilled = s.spilled) (removed : t.removed = s.removed) :
    (QueueFiles codec t.files ∧ FifoQueue codec t) ∧ contents codec t = contents codec s := by
  have unchanged : contents codec t = contents codec s := by rw [contents,files]; rfl
  refine ⟨⟨files ▸ queue,?_,?_⟩,unchanged⟩
  · rw [unchanged,spilled]
    exact fifo.ordered
  · rw [unchanged,spilled,removed]
    exact fifo.complete

theorem fifoSpill (queue : QueueFiles codec s.files) (fifo : FifoQueue codec s) {batch : List ε}
    {clock : Nat → Nat} (stepped : step codec s (.spill batch clock) = some t) :
    Keeps codec s (.spill batch clock) t := by
  cases next : nextSequence s.files with
  | none =>
    rw [spillExhausted next] at stepped
    obtain rfl := Option.some.inj stepped
    exact ⟨(fifoSame queue fifo rfl rfl rfl).1,.inl ⟨next,rfl⟩⟩
  | some sequence =>
    obtain ⟨after,dropped,done,spilled⟩ := spillDone queue next batch clock
    obtain rfl := Option.some.inj (done.symm.trans stepped)
    have before := contentsOf queue
    have after_ := contentsOf spilled.queue
    have whole : eventsOf (batchesOf codec s.files) ++ batch =
        eventsOf dropped ++ eventsOf (batchesOf codec after.files) := by
      have flat := congrArg eventsOf spilled.batches
      rw [eventsOfAppend,eventsOfAppend,eventsOfCons] at flat
      simpa [eventsOf] using flat
    have longer := fifo.ordered.append (List.Sublist.refl batch)
    have more := fifo.complete.append_right batch
    have swapped : (eventsOf (contents codec s) ++ batch ++ s.removed).Perm
        (eventsOf (contents codec s) ++ s.removed ++ batch) := by
      rw [List.append_assoc,List.append_assoc]
      exact List.perm_append_comm.append_left _
    have all := swapped.trans more
    rw [before,whole] at longer all
    obtain ⟨shorter,rest⟩ := @fifoWithout ε [] _ _ _ _ longer all
    rw [← spilled.spilled] at shorter rest
    rw [← spilled.removed] at rest
    refine ⟨⟨spilled.queue,by rwa [after_],by rwa [after_]⟩,.inr ⟨batchName sequence,dropped,?_,?_⟩⟩
    · rw [before,after_]
      exact spilled.batches
    · rw [before]
      exact spilled.count

theorem fifoRemove (queue : QueueFiles codec s.files) (fifo : FifoQueue codec s) {path : Name}
    (stepped : step codec s (.removeFile path) = some t) : Keeps codec s (.removeFile path) t := by
  simp only [step] at stepped
  split at stepped
  · rename_i mem
    obtain rfl := Option.some.inj stepped
    obtain ⟨queue',front,back,listing,left⟩ := removeDone queue mem
    have before := (contentsOf queue).trans listing
    have after_ : contents codec (SpoolRun.mk (removeFile s.files path) s.maxFiles s.spilled
        (s.removed ++ eventsAt codec s.files path)) = front ++ back := (contentsOf queue').trans left
    have ordered := fifo.ordered
    have complete := fifo.complete
    rw [before,eventsOfAppend,eventsOfCons] at ordered complete
    obtain ⟨shorter,all⟩ := fifoWithout ordered complete
    rw [← eventsOfAppend] at shorter all
    exact ⟨⟨queue',by rwa [after_],by rwa [after_]⟩,front,_,back,before,after_⟩
  · cases stepped

theorem fifoSplit (queue : QueueFiles codec s.files) (fifo : FifoQueue codec s) {path : Name}
    {chunkSize : Nat} {clock : Nat → Nat} (few : 0 < chunkSize →
      (eventsAt codec s.files path).length ≤ (2 ^ 32 - 1) * chunkSize)
    (stepped : step codec s (.split path chunkSize clock) = some t) :
    Keeps codec s (.split path chunkSize clock) t := by
  simp only [step] at stepped
  split at stepped
  · rename_i mem
    have before := contentsOf queue
    rcases Nat.eq_zero_or_pos chunkSize with rfl | positive
    · obtain rfl := Option.some.inj stepped
      obtain ⟨_,front,back,listing,_⟩ := removeDone queue mem
      refine ⟨(fifoSame queue fifo rfl rfl rfl).1,front,_,back,[(path,eventsAt codec s.files path)],
        before.trans listing,?_,by simp [eventsOf]⟩
      rw [before,listing,List.append_assoc]
      rfl
    · obtain ⟨files,done,queue',front,back,chunks,listing,replaced,all⟩ :=
        splitQueue queue mem positive (few positive) clock
      rw [done] at stepped
      obtain rfl := Option.some.inj stepped
      have after_ : contents codec (SpoolRun.mk files s.maxFiles s.spilled s.removed) =
          front ++ chunks ++ back := (contentsOf queue').trans replaced
      have kept : eventsOf (front ++ chunks ++ back) = eventsOf (contents codec s) := by
        rw [before,listing,eventsOfAppend,eventsOfAppend,eventsOfAppend,eventsOfCons,all,
          List.append_assoc]
      refine ⟨⟨queue',?_,?_⟩,front,_,back,chunks,before.trans listing,after_,all⟩
      · rw [after_,kept]
        exact fifo.ordered
      · rw [after_,kept]
        exact fifo.complete
  · cases stepped

theorem fifoStep {label : SpoolLabel ε} (stepped : step codec s label = some t)
    (queue : QueueFiles codec s.files) (fifo : FifoQueue codec s) (few : FewChunks codec s label t) :
    Keeps codec s label t := by
  cases label with
  | reopen =>
    obtain rfl := Option.some.inj stepped
    exact fifoSame queue fifo rfl rfl rfl
  | drain =>
    obtain rfl := Option.some.inj stepped
    exact fifoSame queue fifo (by rw [drainDone queue]) rfl rfl
  | oldestBatch =>
    obtain rfl := Option.some.inj stepped
    have read := oldestDone queue
    obtain ⟨kept,unchanged⟩ := @fifoSame ε codec s
      { s with files := (oldestBatch codec s.files).1 } queue fifo (by rw [read]) rfl rfl
    exact ⟨kept,unchanged,by rw [read,contentsOf queue]⟩
  | spill batch clock => exact fifoSpill queue fifo stepped
  | removeFile path => exact fifoRemove queue fifo stepped
  | split path chunkSize clock => exact fifoSplit queue fifo few stepped

theorem spoolQueueRuns (codec : BatchCodec ε) {files : SpoolFiles} (queue : QueueFiles codec files)
    (maxFiles : Nat) (labels : List (SpoolLabel ε))
    (few : Transition.Along (step codec) (FewChunks codec) (start codec files maxFiles) labels) :
    Transition.Along (step codec)
      (fun before label after => FifoStep codec before label after ∧ FifoQueue codec after)
      (start codec files maxFiles) labels := by
  have initial : FifoQueue codec (start codec files maxFiles) := by
    refine ⟨List.Sublist.refl _,?_⟩
    show (_ ++ []).Perm _
    rw [List.append_nil]
    exact .refl _
  refine Transition.along (step codec) (fun s => QueueFiles codec s.files ∧ FifoQueue codec s)
    (fun s label t stepped holds may => ?_) ⟨queue,initial⟩ few
  obtain ⟨kept,did⟩ := fifoStep stepped holds.1 holds.2 may
  exact ⟨kept,did,kept.2⟩

theorem emptyQueue (codec : BatchCodec ε) : QueueFiles codec ∅ := ⟨nofun,nofun,nofun⟩

def bracketed : BatchCodec UInt8 where
  toVec batch := 91 :: batch ++ [93]
  fromSlice bytes :=
    if bytes.head? = some 91 ∧ bytes.tail.getLast? = some 93 then some bytes.tail.dropLast else none
  reads batch := by simp

theorem splitRunQueues : Transition.Along (step bracketed)
    (fun before label after => FifoStep bracketed before label after ∧ FifoQueue bracketed after)
    (start bracketed ∅ defaultMaxFiles)
    [.spill [1,2,3] (· + 7),.split (batchName 1) 2 (· + 9),.reopen,.oldestBatch] :=
  spoolQueueRuns bracketed (emptyQueue bracketed) defaultMaxFiles _ (by decide)

end Steps

section Overfull
variable {ε : Type*} {codec : BatchCodec ε}

theorem legacyListed {files : SpoolFiles} {name first : Name} {rest : List Name}
    (there : name ∈ entries files) (legacy : batchSortKey name = none)
    (listing : entries files = first :: rest) : batchSortKey first = none := by
  cases key : batchSortKey first with
  | none => rfl
  | some place =>
    obtain ⟨head,tail,sorting,here,_⟩ := List.map_eq_cons_iff.mp listing
    have ordered := sortedIncreasing (entryKeysNodup files)
    rw [sorting] at ordered
    obtain ⟨seen,present⟩ := entriesMem.mp there
    obtain ⟨file,found⟩ := Option.isSome_iff_exists.mp present
    have keyed : sortKey name file.modified ∈ head :: tail := by
      rw [← sorting]
      exact sortedMem.mpr (entryKeysMem.mpr ⟨name,file,found,seen,rfl⟩)
    have headMem : head ∈ entryKeys files := by
      rw [← sortedMem,sorting]
      exact List.mem_cons_self
    obtain ⟨other,otherFile,_,_,rfl⟩ := entryKeysMem.mp headMem
    rw [keyNameSort] at here
    subst here
    have early := legacyLess legacy key file.modified otherFile.modified
    rcases List.mem_cons.mp keyed with same | later
    · exact absurd (same ▸ early) (lt_irrefl _)
    · exact absurd (lt_trans early ((List.pairwise_cons.mp ordered).1 _ later)) (lt_irrefl _)

/-- A split into too many chunks puts the last of them before every file that was there first. -/
theorem overfullSplit {s t : SpoolRun ε} (queue : QueueFiles codec s.files) {path : Name}
    {chunkSize : Nat} {clock : Nat → Nat} (many : (2 ^ 32 - 1) * chunkSize < (eventsAt codec s.files path).length)
    (positive : 0 < chunkSize) {first : Name × List ε} {rest : List (Name × List ε)}
    (batches : batchesOf codec s.files = first :: rest) (later : first.1 ≠ path)
    (stepped : step codec s (.split path chunkSize clock) = some t) :
    ¬ FifoStep codec s (.split path chunkSize clock) t := by
  simp only [step] at stepped
  split at stepped
  swap
  · cases stepped
  rename_i mem
  obtain ⟨seen,present⟩ := entriesMem.mp mem
  obtain ⟨original,found⟩ := Option.isSome_iff_exists.mp present
  obtain ⟨files,done,replaced⟩ :=
    @splitDone ε codec clock _ _ seen _ found (eventsAt codec s.files path) _ positive
  rw [done] at stepped
  obtain rfl := Option.some.inj stepped
  obtain ⟨⟨sequence,parts⟩,key⟩ := queue.sequenced path mem
  have count : 2 ^ 32 ≤ (chunks chunkSize (eventsAt codec s.files path)).length := by
    by_contra few
    have bound := (chunksBound positive (2 ^ 32 - 1) _).mp (Nat.le_of_lt_succ (Nat.lt_of_not_le few))
    exact absurd bound (Nat.not_le.mpr many)
  have drained : drain codec files = (files,batchesOf codec files) :=
    readBatchesDone fun name there => replacedReadable seen queue.readable replaced there
  -- the last chunk has no key
  rw [replacementSequenced key] at replaced
  have last := replaced.named _ _ ((replacementsMem codec).mpr
    ⟨2 ^ 32 - 1,_,List.getElem?_eq_getElem (Nat.lt_of_lt_of_le (by decide) count),rfl,rfl⟩)
  obtain ⟨file,here,_⟩ := Option.map_eq_some_iff.mp last
  have there : chunkName (fileStem path) (2 ^ 32 - 1) ∈ entries files :=
    entriesMem.mpr ⟨chunkListed (listedStem seen).1 _,Option.isSome_of_eq_some here⟩
  have legacy : batchSortKey (chunkName (fileStem path) (2 ^ 32 - 1)) = none := by
    rw [chunkKey seen key,if_neg (by decide)]
  rintro ⟨front,events,back,pieces,before,after,_⟩
  rw [contentsOf queue,batches] at before
  obtain ⟨firstRest,rfl⟩ : ∃ firstRest, front = first :: firstRest := by
    cases front with
    | nil => exact absurd (congrArg Prod.fst (List.cons_eq_cons.mp before).1) later
    | cons head tail => exact ⟨tail,by rw [(List.cons_eq_cons.mp before).1]⟩
  have listing : entries files = first.1 :: (firstRest ++ pieces ++ back).map Prod.fst := by
    have listed_ : batchesOf codec files = first :: (firstRest ++ pieces ++ back) :=
      (congrArg Prod.snd drained).symm.trans after
    have names := congrArg (List.map Prod.fst) listed_
    rw [batchesOf,List.map_map,List.map_cons] at names
    rw [← names]
    exact (List.map_id _).symm
  have none_ := legacyListed there legacy listing
  have memFirst : first.1 ∈ entries s.files := by
    have inside : first ∈ batchesOf codec s.files := batches ▸ List.mem_cons_self
    obtain ⟨name,mem,rfl⟩ := List.mem_map.mp inside
    exact mem
  obtain ⟨place,keyed⟩ := queue.sequenced _ memFirst
  rw [none_] at keyed
  cases keyed

theorem nextAfter {files : SpoolFiles} (listing : entries files = [batchName 1]) :
    nextSequence files = some 2 := by
  have number : batchSequence (batchName 1) = some 1 := by
    rw [batchSequence,batchKey (by decide)]
    rfl
  rw [nextSequence,listing,List.filterMap_cons,number]
  rfl

theorem overfullRun {count : Nat} (many : 2 ^ 32 ≤ count) :
    ¬ Transition.Along (step bracketed)
      (fun before label after => FifoStep bracketed before label after ∧ FifoQueue bracketed after)
      (start bracketed ∅ defaultMaxFiles)
      [.spill [1] id,.spill (List.replicate count 2) id,.split (batchName 2) 1 id] := by
  obtain ⟨s,dropped,first,spilled⟩ := @spillDone _ bracketed (start bracketed ∅ defaultMaxFiles)
    (emptyQueue bracketed) 1 rfl [1] id
  obtain rfl : dropped = [] := List.eq_nil_of_length_eq_zero spilled.count
  have one : batchesOf bracketed s.files = [(batchName 1,[1])] := spilled.batches.symm
  have listing : entries s.files = [batchName 1] := by
    have names := congrArg (List.map Prod.fst) one
    rw [batchesOf,List.map_map] at names
    exact (List.map_id _).symm.trans names
  obtain ⟨t,dropped,second,again⟩ :=
    spillDone spilled.queue (nextAfter listing) (List.replicate count 2) id
  have none_ : dropped.length = 0 := by
    rw [again.count,one,spilled.maxFiles]
    rfl
  obtain rfl := List.eq_nil_of_length_eq_zero none_
  have two : batchesOf bracketed t.files = [(batchName 1,[1]),(batchName 2,List.replicate count 2)] := by
    have both := again.batches
    rw [one] at both
    exact both.symm
  have mem : batchName 2 ∈ entries t.files := by
    have inside : (batchName 2,List.replicate count 2) ∈ batchesOf bracketed t.files := by
      rw [two]
      exact List.mem_cons_of_mem _ List.mem_cons_self
    obtain ⟨name,there,same⟩ := List.mem_map.mp inside
    rwa [(Prod.mk.inj same).1] at there
  have events : eventsAt bracketed t.files (batchName 2) = List.replicate count 2 := by
    have inside : (batchName 2,eventsAt bracketed t.files (batchName 2)) ∈ batchesOf bracketed t.files :=
      List.mem_map_of_mem mem
    rw [two] at inside
    rcases List.mem_cons.mp inside with same | inside
    · exact absurd (Prod.mk.inj same).1 (by decide)
    · exact (Prod.mk.inj (List.mem_singleton.mp inside)).2
  intro along
  simp only [Transition.Along,first,second] at along
  obtain ⟨_,_,along⟩ := along
  split at along
  · rename_i stuck
    obtain ⟨seen,present⟩ := entriesMem.mp mem
    obtain ⟨original,found⟩ := Option.isSome_iff_exists.mp present
    obtain ⟨files,done,_⟩ := @splitDone _ bracketed id _ _ seen _ found
      (eventsAt bracketed t.files (batchName 2)) 1 Nat.one_pos
    simp only [step,if_pos mem,done] at stuck
    cases stuck
  · rename_i after stepped
    refine overfullSplit again.queue ?_ Nat.one_pos two (by decide) stepped along.1.1
    rw [events,List.length_replicate]
    omega

theorem lastChunkFirst : ¬ Transition.Along (step bracketed)
    (fun before label after => FifoStep bracketed before label after ∧ FifoQueue bracketed after)
    (start bracketed ∅ defaultMaxFiles)
    [.spill [1] id,.spill (List.replicate 4294967296 2) id,.split (batchName 2) 1 id] :=
  overfullRun (by decide)

end Overfull

end TelephoneBooth.EventSpool
