import TelephoneBooth.SpoolRuns

/-! The event spool when an operation fails or the process dies in the middle of a call: what the
directory still holds, and what the call makes of it when it is made again. -/
namespace TelephoneBooth.EventSpool
open BatchNames Listing

/- How an operation ends. A write that fails may leave the start of the file; a rename that fails
is followed by the removal of the temporary file, which may fail too. -/
inductive FsResult where
  | ok
  | fails (written : Option Nat) (cleaned : Bool)
  deriving DecidableEq, Repr

def failed (now : Nat) (files : SpoolFiles) (written : Option Nat) (cleaned : Bool) :
    FsOp → SpoolFiles
  | .write name body =>
    match written with
    | none => files
    | some count => files.insert name ⟨body.take count,now⟩
  | .rename source _ => if cleaned then files.erase source else files
  | _ => files

/- The operations of a call up to the first that fails or to the crash, which comes when no more
results are left; with the results that are left when all of them have been done. -/
def attempt : (Nat → Nat) → List FsOp → List FsResult → SpoolFiles →
    SpoolFiles × Option (List FsResult)
  | _, [], results, files => (files,some results)
  | _, _ :: _, [], files => (files,none)
  | clock, op :: rest, .ok :: results, files =>
    match op.perform (clock 0) files with
    | none => (files,none)
    | some after => attempt (fun k => clock (k + 1)) rest results after
  | clock, op :: _, .fails written cleaned :: _, files =>
    (failed (clock 0) files written cleaned op,none)

section Calls
variable {ε : Type*} (codec : BatchCodec ε)

def spillStopped (maxFiles : Nat) (clock : Nat → Nat) (files : SpoolFiles) (batch : List ε)
    (results : List FsResult) : SpoolFiles :=
  match spillOps codec files batch with
  | none => files
  | some ops =>
    match attempt clock ops results files with
    | (published,some later) =>
      (attempt (fun k => clock (k + ops.length)) (capOps maxFiles published) later published).1
    | (stopped,none) => stopped

def splitStopped (clock : Nat → Nat) (files : SpoolFiles) (path : Name) (events : List ε)
    (chunkSize : Nat) (results : List FsResult) : SpoolFiles :=
  match splitOps codec files path events chunkSize with
  | none => files
  | some ops => (attempt clock ops results files).1

def Stored (files : SpoolFiles) (batch : List ε) (published : SpoolFiles) : Prop :=
  (∀ name, listed name = true → published.lookup name = files.lookup name) ∨
    ∃ name, name ∉ entries files ∧ Added name (codec.toVec batch) files published

/-- A spill that stopped somewhere has lost nothing but the oldest files beyond the cap, and no
listed file holds part of a batch. -/
structure SpillSafe (maxFiles : Nat) (files : SpoolFiles) (batch : List ε) (stopped : SpoolFiles)
    (removed : List Name) : Prop where
  retained : ∀ name ∈ entries files, name ∉ removed → ∀ event ∈ eventsAt codec files name,
    name ∈ entries stopped ∧ event ∈ eventsAt codec stopped name
  whole : ∀ name ∈ entries stopped, bytesAt stopped name = bytesAt files name ∨
    bytesAt stopped name = some (codec.toVec batch)
  oldest : ∃ published, Stored codec files batch published ∧ entries published = removed ++ entries stopped
  capped : removed ≠ [] → maxFiles ≤ (entries stopped).length

def others (files : SpoolFiles) (path : Name) (count : Nat) : List Name :=
  (entries files).filter fun name => decide (name ∉ chunkNames (replacementStem path) count)

def SplitStops (files : SpoolFiles) (path : Name) (events : List ε) (chunkSize : Nat)
    (stopped : SpoolFiles) : Prop :=
  ∃ clock results, splitStopped codec clock files path events chunkSize results = stopped

/-- Wherever a split stops, every event is still in a listed file and no listed file holds part of
a batch; and where it did not get to removing a sequenced source, the same split brings the
directory to where an uninterrupted one does, with the chunks in the source's place. -/
structure SplitSafe (files : SpoolFiles) (path : Name) (events : List ε) (chunkSize : Nat) : Prop where
  retained : ∀ stopped, SplitStops codec files path events chunkSize stopped →
    ∀ name ∈ entries files, ∀ event ∈ eventsAt codec files name,
      ∃ other ∈ entries stopped, event ∈ eventsAt codec stopped other
  whole : ∀ stopped, SplitStops codec files path events chunkSize stopped →
    ∀ name ∈ entries stopped, bytesAt stopped name = bytesAt files name ∨
      ∃ chunk ∈ chunks chunkSize events, bytesAt stopped name = some (codec.toVec chunk)
  again : ∀ stopped, SplitStops codec files path events chunkSize stopped →
    (batchSequence path).isSome = true → path ∈ entries stopped → ∀ clock clock' done,
    replaceFileWithChunks codec clock files path events chunkSize = some done →
    ∃ after, replaceFileWithChunks codec clock' stopped path events chunkSize = some after ∧
      (∀ name, bytesAt after name = bytesAt done name) ∧
      ∀ front back, others files path (chunks chunkSize events).length = front ++ path :: back →
        entries after =
          front ++ chunkNames (replacementStem path) (chunks chunkSize events).length ++ back

def PlaceClear (files : SpoolFiles) (path : Name) (count : Nat) : Prop :=
  match batchSortKey path, files.lookup path with
  | some (sequence,parts), some original =>
    count < 2 ^ 32 ∧ RoomBehind files path original sequence parts count
  | _, _ => True

/-- No file that bears a chunk's name holds an event of its own, and the place behind the source is
free. -/
structure SplitClear (files : SpoolFiles) (path : Name) (count : Nat) : Prop where
  overwritten : ∀ name ∈ entries files, name ∈ chunkNames (replacementStem path) count →
    ∀ event ∈ eventsAt codec files name, event ∈ eventsAt codec files path ∨
      ∃ other ∈ others files path count, other ≠ path ∧ event ∈ eventsAt codec files other
  place : PlaceClear files path count

end Calls

section Attempts
variable {clock : Nat → Nat} {files after : SpoolFiles}

theorem failedFrame {op : FsOp} {now : Nat} {written : Option Nat} {cleaned : Bool} {name : Name}
    (apart : name ∉ op.names) : (failed now files written cleaned op).lookup name = files.lookup name := by
  cases op with
  | write target body =>
    cases written with
    | none => rfl
    | some count => exact AList.lookup_insert_ne (List.ne_of_not_mem_cons apart)
  | rename source target =>
    cases cleaned with
    | false => rfl
    | true => exact AList.lookup_erase_ne (List.ne_of_not_mem_cons apart)
  | setModified target modified => rfl
  | remove target => rfl

theorem attemptFrame {ops : List FsOp} {results : List FsResult} {name : Name}
    (apart : ∀ op ∈ ops, name ∉ op.names) :
    (attempt clock ops results files).1.lookup name = files.lookup name := by
  induction ops generalizing results files clock with
  | nil => rfl
  | cons op rest ih =>
    have here := apart op List.mem_cons_self
    have later := fun other mem => apart other (List.mem_cons_of_mem _ mem)
    cases results with
    | nil => rfl
    | cons result results =>
      cases result with
      | fails written cleaned => exact failedFrame here
      | ok =>
        rw [attempt]
        split
        · rfl
        · rename_i next done
          rw [ih later,performFrame done here]

theorem attemptAppend (xs ys : List FsOp) (results : List FsResult) :
    attempt clock (xs ++ ys) results files =
      match attempt clock xs results files with
      | (stopped,none) => (stopped,none)
      | (next,some later) => attempt (fun k => clock (k + xs.length)) ys later next := by
  induction xs generalizing results files clock with
  | nil => rfl
  | cons op rest ih =>
    cases results with
    | nil => rfl
    | cons result results =>
      cases result with
      | fails written cleaned => rfl
      | ok =>
        rw [List.cons_append,attempt,attempt]
        cases done : op.perform (clock 0) files with
        | none => rfl
        | some next =>
          simp only [ih]
          rfl

theorem attemptFinished {ops : List FsOp} {results later : List FsResult}
    (finished : attempt clock ops results files = (after,some later)) :
    FsOp.performAll clock ops files = some after := by
  induction ops generalizing results files clock with
  | nil => exact congrArg some (Prod.mk.inj finished).1
  | cons op rest ih =>
    cases results with
    | nil => cases finished
    | cons result results =>
      cases result with
      | fails written cleaned => cases finished
      | ok =>
        rw [attempt] at finished
        split at finished
        · cases finished
        · rename_i next done
          rw [FsOp.performAll,done]
          exact ih finished

theorem attemptAll {ops : List FsOp} (done : FsOp.performAll clock ops files = some after) :
    attempt clock ops (List.replicate ops.length .ok) files = (after,some []) := by
  induction ops generalizing files clock with
  | nil => exact congrArg (·,some []) (Option.some.inj done)
  | cons op rest ih =>
    obtain ⟨next,first,later⟩ := Option.bind_eq_some_iff.mp done
    rw [List.length_cons,List.replicate_succ,attempt,first]
    exact ih later

theorem attemptRemoves {names : List Name} {results : List FsResult} :
    ∃ count, count ≤ names.length ∧ ∀ name,
      (attempt clock (names.map .remove) results files).1.lookup name =
        if name ∈ names.take count then none else files.lookup name := by
  have none_ {files stopped : SpoolFiles} (same : stopped = files) (names : List Name) :
      ∃ count, count ≤ names.length ∧ ∀ name,
        stopped.lookup name = if name ∈ names.take count then none else files.lookup name := by
    refine ⟨0,Nat.zero_le _,fun name => ?_⟩
    rw [same,List.take_zero,if_neg List.not_mem_nil]
  induction names generalizing results files clock with
  | nil => exact none_ rfl []
  | cons first rest ih =>
    cases results with
    | nil => exact none_ rfl _
    | cons result results =>
      cases result with
      | fails written cleaned => exact none_ rfl _
      | ok =>
        rw [List.map_cons,attempt]
        split
        · exact none_ rfl _
        · rename_i next done
          obtain ⟨file,_,rfl⟩ := Option.map_eq_some_iff.mp done
          obtain ⟨count,bound,left⟩ := @ih (fun k => clock (k + 1)) (files.erase first) results
          refine ⟨count + 1,Nat.succ_le_succ bound,fun name => ?_⟩
          rw [left,List.take_succ_cons]
          by_cases same : name = first
          · subst same
            rw [if_pos List.mem_cons_self,AList.lookup_erase]
            exact ite_self _
          · rw [AList.lookup_erase_ne same]
            simp only [List.mem_cons,same,false_or]

end Attempts

section Spilling
variable {ε : Type*} {codec : BatchCodec ε} {files published : SpoolFiles} {batch : List ε}

theorem capStopped (maxFiles : Nat) (clock : Nat → Nat) (results : List FsResult)
    (stored : Stored codec files batch published) : ∃ removed,
      SpillSafe codec maxFiles files batch
        (attempt clock (capOps maxFiles published) results published).1 removed := by
  obtain ⟨count,bound,left⟩ := @attemptRemoves clock published
    ((entries published).take ((entries published).length - maxFiles)) results
  rw [List.take_take,Nat.min_eq_left (Nat.le_trans bound (List.length_take_le _ _))] at left
  have kept : Kept (fun name => decide (name ∉ (entries published).take count)) published
      (attempt clock (capOps maxFiles published) results published).1 := by
    intro name _
    refine (left name).trans ?_
    by_cases gone : name ∈ (entries published).take count <;> simp [gone]
  have listing : entries (attempt clock (capOps maxFiles published) results published).1 =
      (entries published).drop count :=
    (keptEntries kept).trans (filterDrop (entriesNodup published) _ fun _ => decide_eq_true_iff)
  have unchanged {name : Name} (seen : listed name = true) (there : name ∈ entries files) :
      published.lookup name = files.lookup name := by
    rcases stored with same | ⟨fresh,absent,added⟩
    · exact same name seen
    · exact added.others name seen fun same => absent (same ▸ there)
  refine ⟨(entries published).take count,?_,?_,⟨published,stored,?_⟩,?_⟩
  · intro name there stays event mem
    obtain ⟨seen,present⟩ := entriesMem.mp there
    have same := unchanged seen there
    have listed_ : name ∈ entries published := entriesMem.mpr ⟨seen,same ▸ present⟩
    have still : (attempt clock (capOps maxFiles published) results published).1.lookup name =
        files.lookup name := by
      rw [kept name seen,if_pos (decide_eq_true stays),same]
    refine ⟨entriesMem.mpr ⟨seen,still ▸ present⟩,?_⟩
    rwa [eventsSame still]
  · intro name there
    obtain ⟨mem,same⟩ := keptSame kept there
    obtain ⟨seen,present⟩ := entriesMem.mp mem
    rcases stored with old | ⟨fresh,_,added⟩
    · exact .inl (bytesSame (same.trans (old name seen)))
    · by_cases new : name = fresh
      · subst new
        exact .inr ((bytesSame same).trans added.named)
      · exact .inl (bytesSame (same.trans (added.others name seen new)))
  · rw [listing,List.take_append_drop]
  · intro some_
    have positive : 0 < count := by
      rcases Nat.eq_zero_or_pos count with rfl | positive
      · exact absurd (List.take_zero ..) some_
      · exact positive
    rw [listing,List.length_drop]
    rw [List.length_take] at bound
    omega

theorem spillStoppedSafe (codec : BatchCodec ε) (files : SpoolFiles) (maxFiles : Nat)
    (clock : Nat → Nat) (batch : List ε) (results : List FsResult) : ∃ removed,
      SpillSafe codec maxFiles files batch
        (spillStopped codec maxFiles clock files batch results) removed := by
  have untouched {stopped : SpoolFiles}
      (same : ∀ name, listed name = true → stopped.lookup name = files.lookup name) :
      ∃ removed, SpillSafe codec maxFiles files batch stopped removed := by
    refine ⟨[],fun name there _ event mem => ?_,fun name there => ?_,⟨stopped,.inl same,rfl⟩,
      fun none_ => absurd rfl none_⟩
    · obtain ⟨seen,present⟩ := entriesMem.mp there
      refine ⟨entriesMem.mpr ⟨seen,same name seen ▸ present⟩,?_⟩
      rwa [eventsSame (same name seen)]
    · exact .inl (bytesSame (same name (entriesMem.mp there).1))
  cases next : nextSequence files with
  | none =>
    rw [spillStopped,spillOps,next]
    exact untouched fun _ _ => rfl
  | some sequence =>
    have ops : spillOps codec files batch = some
        [.write (temporary (batchName sequence)) (codec.toVec batch),
         .rename (temporary (batchName sequence)) (batchName sequence)] := by
      rw [spillOps,next]
      rfl
    have fresh : batchName sequence ∉ entries files := by
      intro there
      have present := (entriesMem.mp there).2
      rw [nextSequenceFresh next] at present
      cases present
    rw [spillStopped,ops]
    simp only
    split
    · rename_i published later finished
      obtain ⟨after,done,added⟩ := publishDone codec clock next batch
      rw [publish,ops] at done
      obtain rfl := Option.some.inj (done.symm.trans (attemptFinished finished))
      exact capStopped maxFiles _ later (.inr ⟨_,fresh,added⟩)
    · rename_i stopped halted
      refine untouched fun name seen => ?_
      -- neither a failed write nor a failed rename touches a listed file
      have apart : name ≠ temporary (batchName sequence) := listedTemporary seen
      have first : name ∉ (FsOp.write (temporary (batchName sequence)) (codec.toVec batch)).names :=
        fun mem => apart (List.mem_singleton.mp mem)
      cases results with
      | nil =>
        obtain rfl := (Prod.mk.inj halted).1
        rfl
      | cons result results =>
        cases result with
        | fails written cleaned =>
          obtain rfl := (Prod.mk.inj halted).1
          exact failedFrame first
        | ok =>
          cases results with
          | nil =>
            obtain rfl := (Prod.mk.inj halted).1
            exact AList.lookup_insert_ne apart
          | cons result results =>
            cases result with
            | fails written cleaned =>
              obtain rfl := (Prod.mk.inj halted).1
              cases cleaned with
              | false => exact AList.lookup_insert_ne apart
              | true => exact (AList.lookup_erase_ne apart).trans (AList.lookup_insert_ne apart)
            | ok =>
              -- with both done the batch has been stored
              simp only [attempt,FsOp.perform,AList.lookup_insert,Option.map_some] at halted
              cases halted

end Spilling

section Splitting
variable {clock : Nat → Nat} {files stopped : SpoolFiles} {path : Name}
  {chunks : List (Name × List UInt8)} {stamp : Option Nat}

theorem chunkOpsNames {op : FsOp} (mem : op ∈ chunkWrites chunks ++ chunkRenames stamp chunks)
    {name : Name} (inside : name ∈ op.names) :
    ∃ chunk ∈ chunks, name = chunk.1 ∨ name = temporary chunk.1 := by
  rcases List.mem_append.mp mem with write | rename
  · obtain ⟨chunk,there,rfl⟩ := List.mem_map.mp write
    exact ⟨chunk,there,.inr (List.mem_singleton.mp inside)⟩
  · obtain ⟨chunk,there,rename⟩ := List.mem_flatMap.mp rename
    refine ⟨chunk,there,?_⟩
    rcases List.mem_cons.mp rename with rfl | set_
    · rcases List.mem_cons.mp inside with temp | own
      · exact .inr temp
      · exact .inl (List.mem_singleton.mp own)
    · obtain ⟨modified,_,rfl⟩ := List.mem_map.mp set_
      exact .inl (List.mem_singleton.mp inside)

def Whole (chunks : List (Name × List UInt8)) (files stopped : SpoolFiles) : Prop :=
  ∀ name, listed name = true → bytesAt stopped name = bytesAt files name ∨
    ∃ chunk ∈ chunks, chunk.1 = name ∧ bytesAt stopped name = some chunk.2

theorem wholeSame (same : ∀ name, listed name = true → stopped.lookup name = files.lookup name) :
    Whole chunks files stopped := fun name seen => .inl (bytesSame (same name seen))

theorem wholeTrans {one rest : List (Name × List UInt8)} {next : SpoolFiles}
    (first : Whole one files next) (later : Whole rest next stopped) :
    Whole (one ++ rest) files stopped := by
  intro name seen
  rcases later name seen with same | ⟨chunk,mem,named,body⟩
  · rcases first name seen with old | ⟨chunk,mem,named,body⟩
    · exact .inl (same.trans old)
    · exact .inr ⟨chunk,List.mem_append_left _ mem,named,same.trans body⟩
  · exact .inr ⟨chunk,List.mem_append_right _ mem,named,body⟩

theorem renameWhole {name : Name} {body : List UInt8} (seen : listed name = true)
    (held : bytesAt files (temporary name) = some body) (results : List FsResult) :
    Whole [(name,body)] files (attempt clock (.rename (temporary name) name ::
      stamp.toList.map fun modified => .setModified name modified) results files).1 := by
  have apart {other : Name} (seen : listed other = true) : other ≠ temporary name := listedTemporary seen
  cases results with
  | nil => exact wholeSame fun _ _ => rfl
  | cons result results =>
    cases result with
    | fails written cleaned =>
      cases cleaned with
      | false => exact wholeSame fun _ _ => rfl
      | true => exact wholeSame fun other seen => AList.lookup_erase_ne (apart seen)
    | ok =>
      rw [attempt]
      split
      · exact wholeSame fun _ _ => rfl
      · rename_i next renamed
        -- setting the modification time leaves the bytes
        have bytes (other : Name) : bytesAt (attempt (fun k => clock (k + 1))
            (stamp.toList.map fun modified => .setModified name modified) results next).1 other =
            bytesAt next other := by
          cases stamp with
          | none => rfl
          | some modified =>
            cases results with
            | nil => rfl
            | cons result results =>
              cases result with
              | fails written cleaned => rfl
              | ok =>
                rw [Option.toList_some,List.map_singleton,attempt]
                split
                · rfl
                · rename_i after done
                  exact setModifiedBytes done
        intro other seen'
        rw [bytes]
        by_cases same : other = name
        · subst same
          refine .inr ⟨_,List.mem_cons_self,rfl,?_⟩
          exact (renameBytes renamed (listedTemporary seen).symm).1.trans held
        · exact .inl (bytesSame (performFrame renamed
            (by simp [FsOp.names,same,apart seen'])))

theorem renamesWhole (names : ChunkNames chunks)
    (held : ∀ name body, (name,body) ∈ chunks → bytesAt files (temporary name) = some body)
    (results : List FsResult) :
    Whole chunks files (attempt clock (chunkRenames stamp chunks) results files).1 := by
  induction chunks generalizing files clock results with
  | nil => exact wholeSame fun _ _ => rfl
  | cons chunk rest ih =>
    obtain ⟨name,body⟩ := chunk
    obtain ⟨later,apart⟩ := names.tail
    have seen : listed name = true := names.seen _ List.mem_cons_self
    have heldHere := held name body List.mem_cons_self
    have first := @renameWhole clock files stamp name body seen heldHere results
    show Whole _ files (attempt clock ((.rename (temporary name) name ::
      stamp.toList.map fun modified => .setModified name modified) ++ chunkRenames stamp rest)
      results files).1
    rw [attemptAppend]
    cases outcome : attempt clock (.rename (temporary name) name ::
        stamp.toList.map fun modified => .setModified name modified) results files with
    | mk next left =>
      rw [outcome] at first
      cases left with
      | none => exact fun other seen => (first other seen).imp_right fun ⟨chunk,mem,both⟩ =>
          ⟨chunk,List.mem_cons.mpr (.inl (List.mem_singleton.mp mem)),both⟩
      | some left =>
        obtain ⟨after,done,published⟩ := @chunkRename files clock stamp name body seen heldHere
        obtain rfl := Option.some.inj (done.symm.trans (attemptFinished outcome))
        refine wholeTrans first (ih later (fun other content mem => ?_) left)
        refine (bytesSame (published.others _ fun chunk inside => ?_)).trans
          (held other content (List.mem_cons_of_mem _ mem))
        obtain rfl := List.mem_singleton.mp inside
        exact ⟨(listedTemporary seen).symm,fun same => apart _ mem (temporaryInjective same).symm⟩

structure Halfway (chunks : List (Name × List UInt8)) (files stopped : SpoolFiles) : Prop where
  whole : Whole chunks files stopped
  others : ∀ name, (∀ chunk ∈ chunks, name ≠ chunk.1 ∧ name ≠ temporary chunk.1) →
    stopped.lookup name = files.lookup name

theorem chunkOpsHalfway (names : ChunkNames chunks) (results : List FsResult) :
    Halfway chunks files
      (attempt clock (chunkWrites chunks ++ chunkRenames stamp chunks) results files).1 := by
  refine ⟨?_,fun name away => attemptFrame fun op mem inside => ?_⟩
  · rw [attemptAppend]
    have hidden : ∀ name, listed name = true →
        (attempt clock (chunkWrites chunks) results files).1.lookup name = files.lookup name := by
      intro name seen
      refine attemptFrame fun op mem inside => ?_
      obtain ⟨chunk,_,rfl⟩ := List.mem_map.mp mem
      exact listedTemporary seen (List.mem_singleton.mp inside)
    cases outcome : attempt clock (chunkWrites chunks) results files with
    | mk next left =>
      rw [outcome] at hidden
      cases left with
      | none => exact wholeSame hidden
      | some left =>
        obtain ⟨after,done,staged⟩ := @chunkWritesStaged files clock chunks names
        obtain rfl := Option.some.inj (done.symm.trans (attemptFinished outcome))
        exact @wholeTrans files _ [] chunks _ (wholeSame hidden) (renamesWhole names staged.held left)
  · obtain ⟨chunk,there,own | temp⟩ := chunkOpsNames mem inside
    · exact (away chunk there).1 own
    · exact (away chunk there).2 temp

theorem attemptRemoveLast (ops : List FsOp) (results : List FsResult) :
    (attempt clock (ops ++ [.remove path]) results files).1 = (attempt clock ops results files).1 ∨
    FsOp.performAll clock (ops ++ [.remove path]) files =
      some (attempt clock (ops ++ [.remove path]) results files).1 := by
  cases outcome : attempt clock ops results files with
  | mk next left =>
    have whole := @attemptAppend clock files ops [.remove path] results
    rw [outcome] at whole
    cases left with
    | none => exact .inl (by rw [whole])
    | some left =>
      cases left with
      | nil => exact .inl (by rw [whole]; rfl)
      | cons result later =>
        cases result with
        | fails written cleaned => exact .inl (by rw [whole]; rfl)
        | ok =>
          simp only [attempt] at whole
          split at whole
          · exact .inl (by rw [whole])
          · rename_i after done
            rw [whole]
            exact .inr (attemptFinished whole)

end Splitting

section Safety
variable {ε : Type*} {codec : BatchCodec ε} {files stopped : SpoolFiles} {path : Name}
  {original : SpoolFile} {events : List ε} {size : Nat}

theorem replacementsPath (seen : listed path = true) (pieces : List (List ε)) :
    ∀ chunk ∈ replacements codec (replacementStem path) pieces,
      path ≠ chunk.1 ∧ path ≠ temporary chunk.1 := by
  rintro ⟨name,body⟩ mem
  obtain ⟨index,part,_,rfl,_⟩ := (replacementsMem codec).mp mem
  exact ⟨(replacementApart seen index).symm,listedTemporary seen⟩

theorem splitStopsCases (seen : listed path = true) (found : files.lookup path = some original)
    (positive : 0 < size) (stops : SplitStops codec files path events size stopped) :
    Halfway (replacements codec (replacementStem path) (chunks size events)) files stopped ∨
    Replaced (replacements codec (replacementStem path) (chunks size events)) path files stopped := by
  obtain ⟨clock,results,rfl⟩ := stops
  have names := replacementsNames codec (replacementProper seen) (chunks size events)
  have shape : splitOps codec files path events size = some
      (chunkWrites (replacements codec (replacementStem path) (chunks size events)) ++
        chunkRenames (stampOf path original)
          (replacements codec (replacementStem path) (chunks size events)) ++ [.remove path]) := by
    rw [splitOps,if_neg (Nat.ne_of_gt positive),found]
    rfl
  simp only [splitStopped,shape]
  rcases @attemptRemoveLast clock files path _ results with halted | finished
  · refine .inl ?_
    rw [halted]
    exact chunkOpsHalfway names results
  · obtain ⟨after,done,replaced⟩ := splitDone codec clock seen found events positive
    rw [replaceFileWithChunks,shape,Option.bind_some] at done
    obtain rfl := Option.some.inj (done.symm.trans finished)
    exact .inr replaced

theorem splitReaches {clock : Nat → Nat} {done : SpoolFiles}
    (finished : replaceFileWithChunks codec clock files path events size = some done) :
    SplitStops codec files path events size done := by
  obtain ⟨ops,shape,performed⟩ := Option.bind_eq_some_iff.mp finished
  refine ⟨clock,List.replicate ops.length .ok,?_⟩
  rw [splitStopped,shape]
  exact congrArg Prod.fst (attemptAll performed)

theorem splitStart (codec : BatchCodec ε) (files : SpoolFiles) (path : Name) (events : List ε) (size : Nat) :
    SplitStops codec files path events size files := by
  refine ⟨id,[],?_⟩
  unfold splitStopped
  split
  · rfl
  · rename_i ops _
    cases ops <;> rfl

theorem othersMem {count : Nat} {name : Name} : name ∈ others files path count ↔
    name ∈ entries files ∧ name ∉ chunkNames (replacementStem path) count := by
  rw [others,List.mem_filter,decide_eq_true_iff]

theorem pathOthers (mem : path ∈ entries files) (count : Nat) : path ∈ others files path count := by
  refine othersMem.mpr ⟨mem,fun chunk => ?_⟩
  obtain ⟨index,_,same⟩ := chunkNamesMem.mp chunk
  exact replacementApart (entriesMem.mp mem).1 index same.symm

theorem otherSurvives (seen : listed path = true) (found : files.lookup path = some original)
    (positive : 0 < size) (stops : SplitStops codec files path events size stopped) {name : Name}
    (other : name ∈ others files path (chunks size events).length) (differ : name ≠ path) :
    name ∈ entries stopped ∧ stopped.lookup name = files.lookup name := by
  obtain ⟨there,chunk⟩ := othersMem.mp other
  obtain ⟨seen',present⟩ := entriesMem.mp there
  have away : ∀ chunk ∈ replacements codec (replacementStem path) (chunks size events),
      name ≠ chunk.1 ∧ name ≠ temporary chunk.1 := fun piece mem =>
    ⟨replacementsApart codec chunk piece mem,listedTemporary seen'⟩
  have same : stopped.lookup name = files.lookup name := by
    rcases splitStopsCases seen found positive stops with halfway | replaced
    · exact halfway.others name away
    · exact replaced.others name differ away
  exact ⟨entriesMem.mpr ⟨seen',same ▸ present⟩,same⟩

theorem sourceSurvives (mem : path ∈ entries files) (found : files.lookup path = some original)
    (positive : 0 < size)
    (stops : SplitStops codec files path (eventsAt codec files path) size stopped) {event : ε}
    (inside : event ∈ eventsAt codec files path) :
    ∃ other ∈ entries stopped, event ∈ eventsAt codec stopped other := by
  obtain ⟨seen,present⟩ := entriesMem.mp mem
  rcases splitStopsCases seen found positive stops with halfway | replaced
  · have same := halfway.others path (replacementsPath seen _)
    exact ⟨path,entriesMem.mpr ⟨seen,same ▸ present⟩,by rwa [eventsSame same]⟩
  · have whole := inside
    rw [← chunksFlatten positive (eventsAt codec files path)] at whole
    obtain ⟨piece,pieceMem,held⟩ := List.mem_flatten.mp whole
    obtain ⟨index,less,rfl⟩ := List.getElem_of_mem pieceMem
    have body := replaced.named _ _ ((replacementsMem codec).mpr
      ⟨index,_,List.getElem?_eq_getElem less,rfl,rfl⟩)
    obtain ⟨file,here,_⟩ := Option.map_eq_some_iff.mp body
    refine ⟨_,entriesMem.mpr ⟨chunkListed (replacementProper seen) index,
      Option.isSome_of_eq_some here⟩,?_⟩
    rw [eventsAt,body,Option.bind_some,codec.reads]
    exact held

theorem replacedBytes {done after : SpoolFiles} {list : List (Name × List UInt8)}
    (first : Replaced list path files done) (second : Replaced list path files after) (name : Name) :
    bytesAt after name = bytesAt done name := by
  by_cases source : name = path
  · subst source
    exact bytesSame (second.gone.trans first.gone.symm)
  by_cases temp : ∃ chunk ∈ list, name = temporary chunk.1
  · obtain ⟨chunk,mem,rfl⟩ := temp
    exact bytesSame ((second.cleared chunk mem).trans (first.cleared chunk mem).symm)
  by_cases own : ∃ chunk ∈ list, name = chunk.1
  · obtain ⟨⟨_,body⟩,mem,rfl⟩ := own
    exact (second.named _ _ mem).trans (first.named _ _ mem).symm
  have away : ∀ chunk ∈ list, name ≠ chunk.1 ∧ name ≠ temporary chunk.1 := fun chunk mem =>
    ⟨fun same => own ⟨chunk,mem,same⟩,fun same => temp ⟨chunk,mem,same⟩⟩
  exact bytesSame ((second.others name source away).trans (first.others name source away).symm)

theorem replacedAgain {after : SpoolFiles} {list : List (Name × List UInt8)}
    (halfway : Halfway list files stopped) (replaced : Replaced list path stopped after) :
    Replaced list path files after :=
  ⟨replaced.named,replaced.cleared,replaced.gone,fun name differ away =>
    (replaced.others name differ away).trans (halfway.others name away)⟩

theorem entriesPairwise (files : SpoolFiles) : (entries files).Pairwise fun a b =>
    ∀ fileA fileB, files.lookup a = some fileA → files.lookup b = some fileB →
      sortKey a fileA.modified < sortKey b fileB.modified := by
  refine List.pairwise_map.mpr ?_
  refine (sortedIncreasing (entryKeysNodup files)).imp_of_mem fun memA memB less => ?_
  obtain ⟨nameA,oldA,foundA,_,rfl⟩ := entryKeysMem.mp (sortedMem.mp memA)
  obtain ⟨nameB,oldB,foundB,_,rfl⟩ := entryKeysMem.mp (sortedMem.mp memB)
  rw [keyNameSort,keyNameSort]
  intro fileA fileB hereA hereB
  rwa [← Option.some.inj (foundA.symm.trans hereA),← Option.some.inj (foundB.symm.trans hereB)]

theorem othersAround (mem : path ∈ entries files) (found : files.lookup path = some original)
    (count : Nat) : ∃ front back, others files path count = front ++ path :: back ∧
      ∀ name file, name ∈ others files path count → files.lookup name = some file →
        sortKey path original.modified < sortKey name file.modified → name ∈ back := by
  obtain ⟨front,back,listing⟩ := List.append_of_mem (pathOthers mem count)
  refine ⟨front,back,listing,fun name file inside here later => ?_⟩
  have ordered : (others files path count).Pairwise _ := (entriesPairwise files).sublist List.filter_sublist
  rw [listing] at ordered inside
  rcases List.mem_append.mp inside with early | rest
  · have before := (List.pairwise_append.mp ordered).2.2 name early path List.mem_cons_self
    exact absurd (lt_trans later (before file original here found)) (lt_irrefl _)
  · rcases List.mem_cons.mp rest with rfl | late
    · rw [Option.some.inj (found.symm.trans here)] at later
      exact absurd later (lt_irrefl _)
    · exact late

theorem placeNeeded (mem : path ∈ entries files) (positive : 0 < size)
    (safe : SplitSafe codec files path events size) :
    PlaceClear files path (chunks size events).length := by
  obtain ⟨seen,present⟩ := entriesMem.mp mem
  obtain ⟨original,found⟩ := Option.isSome_iff_exists.mp present
  cases key : batchSortKey path with
  | none => simp only [PlaceClear,key]
  | some place =>
    obtain ⟨sequence,parts⟩ := place
    simp only [PlaceClear,key,found]
    obtain ⟨done,finished,replaced⟩ := splitDone codec id seen found events positive
    have numbered : (batchSequence path).isSome = true := by rw [batchSequence,key]; rfl
    obtain ⟨after,again,_,placed⟩ :=
      safe.again files (splitStart codec files path events size) numbered mem id id done finished
    obtain rfl := Option.some.inj (finished.symm.trans again)
    obtain ⟨front,back,listing,behind⟩ := othersAround mem found (chunks size events).length
    have listed_ := placed front back listing
    have ordered := entriesPairwise done
    rw [listed_] at ordered
    obtain ⟨early,_,cross⟩ := List.pairwise_append.mp ordered
    rw [replacementSequenced key] at replaced early cross
    have chunkFile {index : Nat} (less : index < (chunks size events).length) :
        ∃ file, done.lookup (chunkName (fileStem path) index) = some file := by
      obtain ⟨file,here,_⟩ := Option.map_eq_some_iff.mp (replaced.named _ _ ((replacementsMem codec).mpr
        ⟨index,_,List.getElem?_eq_getElem less,rfl,rfl⟩))
      exact ⟨file,here⟩
    have few : (chunks size events).length < 2 ^ 32 := by
      by_contra many
      have last : 2 ^ 32 - 1 < (chunks size events).length := by omega
      obtain ⟨fileA,hereA⟩ := chunkFile (Nat.lt_of_le_of_lt (Nat.zero_le _) last)
      obtain ⟨fileB,hereB⟩ := chunkFile last
      have inner : (chunkNames (fileStem path) (chunks size events).length).Pairwise _ :=
        (List.pairwise_append.mp early).2.1
      have zeroLast := List.pairwise_iff_getElem.mp (List.pairwise_map.mp inner) 0 (2 ^ 32 - 1)
        (by rw [List.length_range]; omega) (by rwa [List.length_range]) (by decide)
      rw [List.getElem_range,List.getElem_range] at zeroLast
      have first := zeroLast fileA fileB hereA hereB
      have keyed := chunkKey seen key 0
      have none_ := chunkKey seen key (2 ^ 32 - 1)
      rw [if_pos (by decide)] at keyed
      rw [if_neg (by decide)] at none_
      exact absurd (lt_trans first (legacyLess none_ keyed _ _)) (lt_irrefl _)
    refine ⟨few,fun place there chunk later index less => ?_⟩
    obtain ⟨name,file,here,seen',rfl⟩ := entryKeysMem.mp there
    rw [keyNameSort] at chunk
    have other : name ∈ others files path (chunks size events).length := by
      rw [othersMem,replacementSequenced key]
      exact ⟨entriesMem.mpr ⟨seen',Option.isSome_of_eq_some here⟩,chunk⟩
    have differ : name ≠ path := by
      rintro rfl
      rw [Option.some.inj (found.symm.trans here)] at later
      exact lt_irrefl _ later
    have same := (otherSurvives seen found positive (splitReaches finished) other differ).2
    obtain ⟨chunkFile_,hereChunk⟩ := chunkFile less
    have before := cross (chunkName (fileStem path) index)
      (List.mem_append_right _ (chunkNamesMem.mpr ⟨index,less,rfl⟩)) name (behind name file other here later)
      chunkFile_ file hereChunk (same.trans here)
    rwa [chunkPlaced seen key (by omega)] at before

theorem overwrittenNeeded (mem : path ∈ entries files) (positive : 0 < size)
    (safe : SplitSafe codec files path (eventsAt codec files path) size) :
    ∀ name ∈ entries files,
      name ∈ chunkNames (replacementStem path) (chunks size (eventsAt codec files path)).length →
      ∀ event ∈ eventsAt codec files name, event ∈ eventsAt codec files path ∨
        ∃ other ∈ others files path (chunks size (eventsAt codec files path)).length,
          other ≠ path ∧ event ∈ eventsAt codec files other := by
  obtain ⟨seen,present⟩ := entriesMem.mp mem
  obtain ⟨original,found⟩ := Option.isSome_iff_exists.mp present
  intro name there _ event inside
  obtain ⟨done,finished,replaced⟩ := splitDone codec id seen found (eventsAt codec files path) positive
  obtain ⟨other,otherMem,held⟩ := safe.retained done (splitReaches finished) name there event inside
  rcases replacedMember seen replaced otherMem with ⟨old,differ,same,chunk⟩ | ⟨index,less,_,body⟩
  · rw [eventsSame same] at held
    exact .inr ⟨other,othersMem.mpr ⟨old,chunk⟩,differ,held⟩
  · rw [eventsAt,body,Option.bind_some,codec.reads] at held
    refine .inl ?_
    have whole := List.mem_flatten.mpr ⟨_,List.getElem_mem less,held⟩
    rwa [chunksFlatten positive] at whole

theorem clearSafe (mem : path ∈ entries files) (positive : 0 < size)
    (clear : SplitClear codec files path (chunks size (eventsAt codec files path)).length) :
    SplitSafe codec files path (eventsAt codec files path) size := by
  obtain ⟨seen,present⟩ := entriesMem.mp mem
  obtain ⟨original,found⟩ := Option.isSome_iff_exists.mp present
  have otherKept {stopped : SpoolFiles} {name : Name} {event : ε}
      (stops : SplitStops codec files path (eventsAt codec files path) size stopped)
      (other : name ∈ others files path (chunks size (eventsAt codec files path)).length)
      (differ : name ≠ path) (inside : event ∈ eventsAt codec files name) :
      ∃ other ∈ entries stopped, event ∈ eventsAt codec stopped other := by
    obtain ⟨there,same⟩ := otherSurvives seen found positive stops other differ
    exact ⟨name,there,by rwa [eventsSame same]⟩
  refine ⟨fun stopped stops name there event inside => ?_,fun stopped stops name there => ?_,?_⟩
  · by_cases chunk : name ∈ chunkNames (replacementStem path)
        (chunks size (eventsAt codec files path)).length
    · rcases clear.overwritten name there chunk event inside with own | ⟨other,otherMem,differ,held⟩
      · exact sourceSurvives mem found positive stops own
      · exact otherKept stops otherMem differ held
    · by_cases same : name = path
      · subst same
        exact sourceSurvives mem found positive stops inside
      · exact otherKept stops (othersMem.mpr ⟨there,chunk⟩) same inside
  · have piece {name : Name} {body : List UInt8} (listed_ : (name,body) ∈ replacements codec
        (replacementStem path) (chunks size (eventsAt codec files path))) :
        ∃ chunk ∈ chunks size (eventsAt codec files path), body = codec.toVec chunk := by
      obtain ⟨index,part,here,_,same⟩ := (replacementsMem codec).mp listed_
      exact ⟨part,List.mem_of_getElem? here,same⟩
    rcases splitStopsCases seen found positive stops with halfway | replaced
    · rcases halfway.whole name (entriesMem.mp there).1 with old | ⟨⟨_,body⟩,listed_,_,held⟩
      · exact .inl old
      · obtain ⟨chunk,inside,rfl⟩ := piece listed_
        exact .inr ⟨chunk,inside,held⟩
    · rcases replacedMember seen replaced there with ⟨_,_,same,_⟩ | ⟨index,less,_,body⟩
      · exact .inl (bytesSame same)
      · exact .inr ⟨_,List.getElem_mem less,body⟩
  · intro stopped stops numbered still clock clock' done finished
    obtain ⟨⟨sequence,parts⟩,key⟩ : ∃ key, batchSortKey path = some key := by
      obtain ⟨number,same⟩ := Option.isSome_iff_exists.mp numbered
      obtain ⟨key,here,_⟩ := Option.map_eq_some_iff.mp same
      exact ⟨key,here⟩
    obtain ⟨first,finished',replaced⟩ :=
      splitDone codec clock seen found (eventsAt codec files path) positive
    obtain rfl := Option.some.inj (finished.symm.trans finished')
    rcases splitStopsCases seen found positive stops with halfway | gone
    · obtain ⟨file,here⟩ := Option.isSome_iff_exists.mp (entriesMem.mp still).2
      obtain ⟨after,again,replacedAfter⟩ :=
        splitDone codec clock' seen here (eventsAt codec files path) positive
      have whole := replacedAgain halfway replacedAfter
      refine ⟨after,again,replacedBytes replaced whole,fun front back listing => ?_⟩
      have place := clear.place
      simp only [PlaceClear,key,found] at place
      rw [replacementSequenced key] at whole ⊢
      rw [others,replacementSequenced key] at listing
      exact replacedEntries seen found key place.1 place.2 whole listing
    · have absent := (entriesMem.mp still).2
      rw [gone.gone] at absent
      cases absent

theorem splitSafeIff (mem : path ∈ entries files) (size : Nat) :
    SplitSafe codec files path (eventsAt codec files path) size ↔ (0 < size →
      SplitClear codec files path (chunks size (eventsAt codec files path)).length) := by
  rcases Nat.eq_zero_or_pos size with rfl | positive
  · have untouched {stopped : SpoolFiles}
        (stops : SplitStops codec files path (eventsAt codec files path) 0 stopped) : stopped = files := by
      obtain ⟨clock,results,same⟩ := stops
      exact same.symm
    refine ⟨fun _ positive => absurd positive (Nat.lt_irrefl _),fun _ => ⟨?_,?_,?_⟩⟩
    · intro stopped stops name there event inside
      rw [untouched stops]
      exact ⟨name,there,inside⟩
    · intro stopped stops name _
      rw [untouched stops]
      exact .inl rfl
    · intro stopped _ _ _ clock clock' done finished
      cases finished
  · refine ⟨fun safe _ => ⟨overwrittenNeeded mem positive safe,placeNeeded mem positive safe⟩,?_⟩
    exact fun clear => clearSafe mem positive (clear positive)

theorem queueSplitSafe (queue : QueueFiles codec files) (mem : path ∈ entries files)
    (few : (chunks size (eventsAt codec files path)).length < 2 ^ 32) :
    SplitSafe codec files path (eventsAt codec files path) size := by
  obtain ⟨⟨sequence,parts⟩,key⟩ := queue.sequenced path mem
  obtain ⟨original,found⟩ := Option.isSome_iff_exists.mp (entriesMem.mp mem).2
  refine (splitSafeIff mem size).mpr fun _ => ⟨fun name there chunk => ?_,?_⟩
  · rw [replacementSequenced key] at chunk
    exact absurd chunk (queueNoChunks queue mem key few there)
  · simp only [PlaceClear,key,found]
    exact ⟨few,queueRoom queue mem found key _⟩

end Safety

section Crashes
variable {ε : Type*}

/-- A spill is safe wherever it stops, and a split exactly when no chunk takes the name of a file
with events of its own and its place is free. -/
theorem rewritesCrashSafe (codec : BatchCodec ε) (files : SpoolFiles) :
    (∀ maxFiles clock batch results, ∃ removed, SpillSafe codec maxFiles files batch
      (spillStopped codec maxFiles clock files batch results) removed) ∧
    ∀ path ∈ entries files, ∀ chunkSize,
      SplitSafe codec files path (eventsAt codec files path) chunkSize ↔ (0 < chunkSize →
        SplitClear codec files path (chunks chunkSize (eventsAt codec files path)).length) :=
  ⟨spillStoppedSafe codec files,fun _ mem chunkSize => splitSafeIff mem chunkSize⟩

def collidingFiles : SpoolFiles :=
  (AList.singleton (batchName 5) ⟨bracketed.toVec [1,2],0⟩ : SpoolFiles).insert
    (chunkName (fileStem (batchName 5)) 0) ⟨bracketed.toVec [9],0⟩

theorem collidingEventLost :
    ¬ SplitSafe bracketed collidingFiles (batchName 5) (eventsAt bracketed collidingFiles (batchName 5)) 1 := by
  intro safe
  have stops : SplitStops bracketed collidingFiles (batchName 5)
      (eventsAt bracketed collidingFiles (batchName 5)) 1 _ := ⟨id,List.replicate 5 .ok,rfl⟩
  have lost := safe.retained _ stops (chunkName (fileStem (batchName 5)) 0) (by decide) 9 (by decide)
  exact absurd lost (by decide)

end Crashes

end TelephoneBooth.EventSpool
