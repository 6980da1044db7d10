import TelephoneBooth.SpoolJobs

/-! What the jobs keep true of the directory they share. A spill writes to a number above every
other, so a file that replay is about to remove is never one a spill has just written; and the cap
never removes the file it was made for. -/
namespace TelephoneBooth.EventSpool
open BatchNames Listing

variable {ε : Type*}

theorem eventsListed {codec : BatchCodec ε} {files : SpoolFiles} {name : Name} {event : ε}
    (mem : event ∈ eventsAt codec files name) : (files.lookup name).isSome = true := by
  by_contra absent
  rw [Option.not_isSome_iff_eq_none] at absent
  rw [eventsAt,bytesAt,absent] at mem
  cases mem

theorem eventsRead {codec : BatchCodec ε} {files : SpoolFiles} {name : Name} {events : List ε}
    (read : (bytesAt files name).bind codec.fromSlice = some events) :
    eventsAt codec files name = events := by
  rw [eventsAt,read]
  rfl

section Shared
variable (codec : BatchCodec ε) (most : Nat)

def Held (files : SpoolFiles) (event : ε) : Prop :=
  ∃ n, (eventsAt codec files (batchName n)).length ≤ most ∧ event ∈ eventsAt codec files (batchName n)

def Taken (files : SpoolFiles) (n : Nat) : Prop :=
  ∃ name ∈ entries files, ∃ number ∈ batchSequence name, n ≤ number

def Reserved (files : SpoolFiles) (path : Name) : Prop :=
  ∀ n, n < 2 ^ 64 → path = batchName n → Taken files n

structure Doomed (acked : List ε) (files : SpoolFiles) (path : Name) : Prop where
  seen : listed path = true
  reserved : Reserved files path
  sent : ∀ n, path = batchName n → (eventsAt codec files path).length ≤ most →
    ∀ event ∈ eventsAt codec files path, event ∈ acked

structure Fetched (files : SpoolFiles) (path : Name) (events : List ε) : Prop where
  seen : listed path = true
  reserved : Reserved files path
  same : eventsAt codec files path = [] ∨ eventsAt codec files path = events

structure Fresh (files : SpoolFiles) (n : Nat) : Prop where
  fits : n < 2 ^ 64
  above : ∀ name ∈ entries files, ∀ number ∈ batchSequence name, number < n

structure Top (files : SpoolFiles) (aims : Option Name) (n : Nat) (chunk : List ε) : Prop where
  fits : n < 2 ^ 64
  above : ∀ name ∈ entries files, name ≠ batchName n → ∀ number ∈ batchSequence name, number < n
  read : (bytesAt files (batchName n)).bind codec.fromSlice = some chunk
  spared : aims ≠ some (batchName n)

structure Removal (path : Name) (files after : SpoolFiles) : Prop where
  others : ∀ name, name ≠ path → after.lookup name = files.lookup name
  own : after.lookup path = files.lookup path ∨ after.lookup path = none

def ReplayJob.aims : ReplayJob ε → Option Name
  | corrupt path | removing path | waiting path _ _ => some path
  | _ => none

def ReplaySound (acked : List ε) (files : SpoolFiles) : ReplayJob ε → Prop
  | .scanning | .finished | .readDone none => True
  | .reading path => listed path = true
  | .readDone (some (path,events)) => Fetched codec files path events
  | .corrupt path | .removing path | .waiting path _ _ => Doomed codec most acked files path
  | .splitting ops => ops = [] ∨ ∃ path front, ops = front ++ [.remove path] ∧
    Doomed codec most acked files path ∧ ∀ op ∈ front, ChunkOp op

inductive Storing (files : SpoolFiles) (aims : Option Name) (chunk : List ε) : List FsOp → Prop where
  | writing (n : Nat) (fresh : Fresh files n) : Storing files aims chunk
      [.write (temporary (batchName n)) (codec.toVec chunk),
       .rename (temporary (batchName n)) (batchName n)]
  | written (n : Nat) (fresh : Fresh files n)
      (bytes : bytesAt files (temporary (batchName n)) = some (codec.toVec chunk)) :
      Storing files aims chunk [.rename (temporary (batchName n)) (batchName n)]
  | stored (n : Nat) (top : Top codec files aims n chunk) : Storing files aims chunk []

def SpillSound (files : SpoolFiles) (aims : Option Name) : SpillJob ε → Prop
  | .waiting chunks => ∀ chunk ∈ chunks, chunk.length ≤ most
  | .storing chunk rest ops =>
    (∀ part ∈ chunk :: rest, part.length ≤ most) ∧ Storing codec files aims chunk ops
  | .capping ops rest => (∀ part ∈ rest, part.length ≤ most) ∧
    ∃ n chunk, Top codec files aims n chunk ∧ ∀ op ∈ ops, ∃ name, op = .remove name ∧ name ≠ batchName n
  | .finished _ => True

def SpillJob.pending : SpillJob ε → List ε
  | waiting chunks => chunks.flatten
  | storing chunk rest _ => chunk ++ rest.flatten
  | capping _ rest => rest.flatten
  | finished _ => []

inductive ReplayEffect (acked : List ε) (job : ReplayJob ε) (files after : SpoolFiles) : Prop where
  | none_ (same : after = files)
  | hidden (holds : job.holds = true)
      (same : ∀ name, listed name = true → after.lookup name = files.lookup name)
  | chunk (holds : job.holds = true) (stem : Name) (index : Nat)
      (change : Change (chunkName stem index) files after)
      (stays : chunkName stem index ∈ entries files → chunkName stem index ∈ entries after)
  | removed (path : Name) (aimed : job.holds = true ∨ job.aims = some path)
      (doomed : Doomed codec most acked files path) (removal : Removal path files after)

inductive SpillEffect (aims : Option Name) (files after : SpoolFiles) : SpillJob ε → Prop where
  | hidden (job : SpillJob ε)
      (same : ∀ name, listed name = true → after.lookup name = files.lookup name) :
      SpillEffect aims files after job
  | published (job : SpillJob ε) (n : Nat) (fresh : Fresh files n) (body : List UInt8)
      (added : Added (batchName n) body files after) : SpillEffect aims files after job
  | capped (name : Name) (ops : List FsOp) (rest : List (List ε)) (n : Nat) (chunk : List ε)
      (top : Top codec files aims n chunk) (apart : name ≠ batchName n) (removal : Removal name files after)
      (gone : after.lookup name = none) :
      SpillEffect aims files after (.capping (.remove name :: ops) rest)

end Shared

section Numbers
variable {codec : BatchCodec ε} {most : Nat} {files after : SpoolFiles} {aims : Option Name} {n : Nat}

theorem batchNumber (fits : n < 2 ^ 64) : batchSequence (batchName n) = some n := by
  rw [batchSequence,batchKey fits]
  rfl

theorem listedReserved {path : Name} (mem : path ∈ entries files) : Reserved files path := by
  rintro n fits rfl
  exact ⟨_,mem,n,batchNumber fits,Nat.le_refl n⟩

theorem freshUnlisted (fresh : Fresh files n) : files.lookup (batchName n) = none := by
  by_contra present
  have mem := entriesMem.mpr ⟨batchListed n,Option.isSome_iff_ne_none.mpr present⟩
  exact Nat.lt_irrefl _ (fresh.above _ mem n (batchNumber fresh.fits))

theorem freshReserved (fresh : Fresh files n) {path : Name} (reserved : Reserved files path) :
    path ≠ batchName n := by
  intro same
  obtain ⟨name,mem,number,here,low⟩ := reserved n fresh.fits same
  exact Nat.not_lt.mpr low (fresh.above name mem number here)

theorem nextFresh (next : nextSequence files = some n) : Fresh files n :=
  ⟨(nextSequenceAbove next).1,(nextSequenceAbove next).2⟩

theorem freshSubset (subset : ∀ name ∈ entries after, name ∈ entries files) (fresh : Fresh files n) :
    Fresh after n :=
  ⟨fresh.fits,fun name mem => fresh.above name (subset name mem)⟩

theorem Top.there {chunk : List ε} (top : Top codec files aims n chunk) :
    batchName n ∈ entries files := by
  obtain ⟨bytes,held,_⟩ := Option.bind_eq_some_iff.mp top.read
  obtain ⟨file,found,_⟩ := Option.map_eq_some_iff.mp held
  exact entriesMem.mpr ⟨batchListed n,Option.isSome_iff_exists.mpr ⟨file,found⟩⟩

theorem topLast {chunk : List ε} (top : Top codec files aims n chunk) :
    ∃ front, entries files = front ++ [batchName n] := by
  obtain ⟨seen,present⟩ := entriesMem.mp top.there
  obtain ⟨file,found⟩ := Option.isSome_iff_exists.mp present
  have distinct := entryKeysNodup files
  have mem : sortKey (batchName n) file.modified ∈ entryKeys files :=
    entryKeysMem.mpr ⟨_,file,found,seen,rfl⟩
  have late (key : SortKey) (inside : key ∈ (entryKeys files).erase (sortKey (batchName n) file.modified)) :
      key < sortKey (batchName n) file.modified := by
    obtain ⟨differ,inside⟩ := distinct.mem_erase_iff.mp inside
    obtain ⟨name,other,there,shown,rfl⟩ := entryKeysMem.mp inside
    have apart : name ≠ batchName n := by
      rintro rfl
      obtain rfl := Option.some.inj (there.symm.trans found)
      exact differ rfl
    cases key : batchSortKey name with
    | none => exact legacyLess key (batchKey top.fits) _ _
    | some place =>
      obtain ⟨number,parts⟩ := place
      have less := top.above name (entriesMem.mpr ⟨shown,Option.isSome_iff_exists.mpr ⟨other,there⟩⟩)
        apart number (by rw [batchSequence,key]; rfl)
      exact (sequencedLess key (batchKey top.fits) _ _).mpr (.inl less)
  have listing := sortedSnoc (distinct.erase _) distinct late fun key => by
    rw [distinct.mem_erase_iff]
    constructor
    · intro inside
      by_cases same : key = sortKey (batchName n) file.modified
      · exact .inr same
      · exact .inl ⟨same,inside⟩
    · rintro (⟨_,inside⟩ | rfl)
      · exact inside
      · exact mem
  refine ⟨(sorted ((entryKeys files).erase (sortKey (batchName n) file.modified))).map keyName,?_⟩
  rw [entries,listing,List.map_append,List.map_singleton,keyNameSort]

theorem topKept {maxFiles : Nat} (positive : 0 < maxFiles) {chunk : List ε}
    (top : Top codec files aims n chunk) :
    ∀ op ∈ capOps maxFiles files, ∃ name, op = .remove name ∧ name ≠ batchName n := by
  obtain ⟨front,listing⟩ := topLast top
  have distinct := entriesNodup files
  intro op mem
  obtain ⟨name,inside,rfl⟩ := List.mem_map.mp mem
  rw [listing] at inside distinct
  rw [List.length_append,List.length_singleton,List.take_append_of_le_length (by omega)] at inside
  refine ⟨name,rfl,?_⟩
  rintro rfl
  exact (List.nodup_append.mp distinct).2.2 _ (List.mem_of_mem_take inside) _ List.mem_cons_self rfl

end Numbers

section Effects
variable {codec : BatchCodec ε} {most : Nat} {acked : List ε} {files after : SpoolFiles}
  {aims : Option Name} {job next : ReplayJob ε} {spill later : SpillJob ε}

theorem hiddenEntries (same : ∀ name, listed name = true → after.lookup name = files.lookup name)
    {name : Name} : name ∈ entries after ↔ name ∈ entries files := by rw [entriesCongr same]

theorem hiddenEvents (same : ∀ name, listed name = true → after.lookup name = files.lookup name)
    {name : Name} (seen : listed name = true) : eventsAt codec after name = eventsAt codec files name :=
  eventsSame (same name seen)

theorem runRemoval (now : Nat) (result : FsResult) (path : Name) :
    Removal path files (runOp now files result (.remove path)).1 := by
  obtain ⟨others,kept,gone⟩ := @runRemove files now result path
  refine ⟨others,?_⟩
  cases done : (runOp now files result (.remove path)).2 with
  | false => exact .inl (by rw [kept done])
  | true => exact .inr (gone done)

theorem removalSubset {path : Name} (removal : Removal path files after) :
    ∀ name ∈ entries after, name ∈ entries files := by
  intro name mem
  obtain ⟨seen,present⟩ := entriesMem.mp mem
  refine entriesMem.mpr ⟨seen,?_⟩
  by_cases own : name = path
  · subst own
    rcases removal.own with same | gone
    · rwa [same] at present
    · rw [gone] at present
      cases present
  · rwa [removal.others name own] at present

theorem Top.removal {name : Name} {n : Nat} {chunk : List ε} {aims aims' : Option Name}
    (top : Top codec files aims n chunk) (removal : Removal name files after)
    (apart : name ≠ batchName n) (spared : aims' ≠ some (batchName n)) :
    Top codec after aims' n chunk := by
  refine ⟨top.fits,fun other mem => top.above other (removalSubset removal other mem),?_,spared⟩
  rw [bytesSame (removal.others _ apart.symm)]
  exact top.read

theorem chunkEvents {stem : Name} {index n : Nat} (change : Change (chunkName stem index) files after) :
    eventsAt codec after (batchName n) = eventsAt codec files (batchName n) :=
  eventsSame (change _ (batchListed n) (chunkBatch stem index n).symm)

theorem takenSubset (subset : ∀ name ∈ entries files, name ∈ entries after) {n : Nat}
    (taken : Taken files n) : Taken after n := by
  obtain ⟨name,mem,high⟩ := taken
  exact ⟨name,subset name mem,high⟩

theorem chunkSubset {chunk : Name} (change : Change chunk files after)
    (stays : chunk ∈ entries files → chunk ∈ entries after) : ∀ name ∈ entries files, name ∈ entries after := by
  intro name mem
  by_cases same : name = chunk
  · subst same
    exact stays mem
  · exact (changeMem change same).mpr mem

theorem Doomed.kept {path : Name} (doomed : Doomed codec most acked files path)
    (subset : ∀ name ∈ entries files, name ∈ entries after)
    (same : ∀ n, eventsAt codec after (batchName n) = eventsAt codec files (batchName n)) :
    Doomed codec most acked after path := by
  refine ⟨doomed.seen,fun n fits here => takenSubset subset (doomed.reserved n fits here),?_⟩
  rintro n rfl
  rw [same]
  exact doomed.sent n rfl

theorem splittingSound {ops : List FsOp} (done : Bool)
    (sound : ReplaySound codec most acked files (.splitting ops)) :
    ReplaySound codec most acked files (if done then .splitting ops else .finished) := by
  cases done with
  | false => trivial
  | true => exact sound

theorem ReplayJob.stepSound (free : Bool) (now : Nat) (result : FsResult)
    (sound : ReplaySound codec most acked files job)
    (stepped : replayStep codec free now files result job = some (after,next)) :
    ReplayEffect codec most acked job files after ∧ ReplaySound codec most acked after next := by
  cases job with
  | scanning =>
    simp only [replayStep] at stepped
    split at stepped
    · rename_i path rest listing
      cases stepped
      have mem : path ∈ entries files := listing ▸ List.mem_cons_self
      exact ⟨.none_ rfl,(entriesMem.mp mem).1⟩
    · cases stepped
      exact ⟨.none_ rfl,trivial⟩
  | reading path =>
    simp only [replayStep] at stepped
    split at stepped
    · rename_i file found
      have mem : path ∈ entries files :=
        entriesMem.mpr ⟨sound,Option.isSome_iff_exists.mpr ⟨file,found⟩⟩
      have bytes : bytesAt files path = some file.bytes := congrArg (Option.map SpoolFile.bytes) found
      split at stepped
      · rename_i events read
        cases stepped
        have same := @eventsRead _ codec files path events (by rw [bytes]; exact read)
        exact ⟨.none_ rfl,⟨sound,listedReserved mem,.inr same⟩⟩
      · rename_i corrupt
        cases stepped
        have none_ : eventsAt codec files path = [] := by
          rw [eventsAt,bytes,Option.bind_some,corrupt]
          rfl
        refine ⟨.none_ rfl,sound,listedReserved mem,fun _ _ _ event inside => ?_⟩
        rw [none_] at inside
        cases inside
    · cases stepped
      exact ⟨.none_ rfl,trivial⟩
  | corrupt path =>
    cases stepped
    exact ⟨.removed path (.inr rfl) sound (runRemoval now result path),trivial⟩
  | readDone batch => cases stepped
  | removing path =>
    cases stepped
    exact ⟨.removed path (.inr rfl) sound (runRemoval now result path),trivial⟩
  | waiting path events size =>
    simp only [replayStep] at stepped
    split at stepped
    · split at stepped
      · rename_i ops split_
        cases stepped
        obtain ⟨front,rfl,kinds⟩ := splitOpsAre split_
        exact ⟨.none_ rfl,.inr ⟨path,front,rfl,sound,kinds⟩⟩
      · cases stepped
        exact ⟨.none_ rfl,trivial⟩
    · cases stepped
  | splitting ops =>
    rcases sound with rfl | ⟨path,front,rfl,doomed,kinds⟩
    · cases stepped
      exact ⟨.none_ rfl,trivial⟩
    · cases front with
      | nil =>
        cases stepped
        exact ⟨.removed path (.inl rfl) doomed (runRemoval now result path),splittingSound _ (.inl rfl)⟩
      | cons op front =>
        cases stepped
        obtain ⟨effect,kept⟩ : ReplayEffect codec most acked (.splitting (op :: front ++ [.remove path]))
            files (runOp now files result op).1 ∧
            Doomed codec most acked (runOp now files result op).1 path := by
          rcases chunkOpChange (kinds op List.mem_cons_self) now result with same | ⟨stem,index,change,stays⟩
          · refine ⟨.hidden rfl same,doomed.kept (fun name mem => (hiddenEntries same).mpr mem) fun n => ?_⟩
            exact hiddenEvents same (batchListed n)
          · exact ⟨.chunk rfl stem index change stays,
              doomed.kept (chunkSubset change stays) fun n => chunkEvents change⟩
        exact ⟨effect,splittingSound _ (.inr ⟨path,front,rfl,kept,fun other mem =>
          kinds other (List.mem_cons_of_mem _ mem)⟩)⟩
  | finished => cases stepped

theorem publishedTop {n : Nat} {chunk : List ε} (fresh : Fresh files n)
    (added : Added (batchName n) (codec.toVec chunk) files after) (spared : aims ≠ some (batchName n)) :
    Top codec after aims n chunk := by
  refine ⟨fresh.fits,fun _ mem differ => fresh.above _ ?_,?_,spared⟩
  · obtain ⟨seen,present⟩ := entriesMem.mp mem
    rw [added.others _ seen differ] at present
    exact entriesMem.mpr ⟨seen,present⟩
  · rw [added.named]
    exact codec.reads chunk

theorem topHeld {n : Nat} {chunk : List ε} (top : Top codec files aims n chunk)
    (short : chunk.length ≤ most) {event : ε} (mem : event ∈ chunk) : Held codec most files event := by
  refine ⟨n,?_⟩
  rw [eventsRead top.read]
  exact ⟨short,mem⟩

theorem writeHidden {n : Nat} {body : List UInt8} (now : Nat) (result : FsResult) :
    ∀ name, listed name = true →
      (runOp now files result (.write (temporary (batchName n)) body)).1.lookup name =
        files.lookup name :=
  fun _ seen => runFrame fun mem => listedTemporary seen (List.mem_singleton.mp mem)

theorem renamePublishes {n : Nat} {body : List UInt8} (now : Nat) (result : FsResult)
    (written : bytesAt files (temporary (batchName n)) = some body) :
    let ran := runOp now files result (.rename (temporary (batchName n)) (batchName n))
    (ran.2 = true ∧ Added (batchName n) body files ran.1) ∨
    (ran.2 = false ∧ ∀ name, listed name = true → ran.1.lookup name = files.lookup name) := by
  have apart : temporary (batchName n) ≠ batchName n := (listedTemporary (batchListed n)).symm
  cases result with
  | fails written cleaned =>
    refine .inr ⟨rfl,fun name seen => ?_⟩
    cases cleaned with
    | false => rfl
    | true => exact AList.lookup_erase_ne (listedTemporary seen)
  | ok =>
    obtain ⟨file,found,_⟩ := Option.map_eq_some_iff.mp written
    have done : (FsOp.rename (temporary (batchName n)) (batchName n)).perform now files =
        some ((files.erase (temporary (batchName n))).insert (batchName n) file) := by
      rw [FsOp.perform,found]
      rfl
    simp only [runOp,done]
    refine .inl ⟨trivial,(renameBytes done apart).1.trans written,fun other seen differ => ?_⟩
    exact performFrame done (by simp [FsOp.names,differ,listedTemporary seen])

theorem spillStepStoring (maxFiles : Nat) (free : Bool) (now : Nat) (result : FsResult) (chunk : List ε)
    (rest : List (List ε)) (op : FsOp) (ops : List FsOp) :
    spillStep codec maxFiles free now files result (.storing chunk rest (op :: ops)) =
      some ((runOp now files result op).1,
        if (runOp now files result op).2 then .storing chunk rest ops else .finished false) := rfl

theorem spillStepCapping (maxFiles : Nat) (free : Bool) (now : Nat) (result : FsResult)
    (rest : List (List ε)) (op : FsOp) (ops : List FsOp) :
    spillStep codec maxFiles free now files result (.capping (op :: ops) rest) =
      some ((runOp now files result op).1,
        if (runOp now files result op).2 then .capping ops rest else .finished false) := rfl

theorem SpillJob.failedSound
    (same : ∀ name, listed name = true → after.lookup name = files.lookup name) :
    SpillEffect codec aims files after spill ∧ SpillSound codec most after aims (.finished false) ∧
      ∀ event ∈ spill.pending, event ∈ (finished false : SpillJob ε).pending ∨
        Held codec most after event ∨ (finished false : SpillJob ε) = finished false :=
  ⟨.hidden _ same,trivial,fun _ _ => .inr (.inr rfl)⟩

theorem SpillJob.stepSound {maxFiles : Nat} (positive : 0 < maxFiles) (free : Bool) (now : Nat)
    (result : FsResult) (reserved : ∀ path, aims = some path → Reserved files path)
    (sound : SpillSound codec most files aims spill)
    (stepped : spillStep codec maxFiles free now files result spill = some (after,later)) :
    SpillEffect codec aims files after spill ∧ SpillSound codec most after aims later ∧
      ∀ event ∈ spill.pending,
        event ∈ later.pending ∨ Held codec most after event ∨ later = .finished false := by
  cases spill with
  | waiting parts =>
    cases parts with
    | nil =>
      cases stepped
      exact ⟨.hidden _ fun _ _ => rfl,trivial,nofun⟩
    | cons chunk rest =>
      simp only [spillStep] at stepped
      split at stepped
      · split at stepped
        · rename_i ops spill_
          cases stepped
          obtain ⟨n,next,rfl⟩ := Option.map_eq_some_iff.mp spill_
          exact ⟨.hidden _ fun _ _ => rfl,⟨sound,.writing n (nextFresh next)⟩,fun _ mem => .inl mem⟩
        · cases stepped
          exact failedSound fun _ _ => rfl
      · cases stepped
  | storing chunk rest ops =>
    obtain ⟨short,storing⟩ := sound
    cases storing with
    | writing n fresh =>
      have same := @writeHidden files n (codec.toVec chunk) now result
      cases stepped
      cases result with
      | fails written cleaned => exact failedSound same
      | ok =>
        have kept : Fresh (runOp now files .ok (.write (temporary (batchName n)) (codec.toVec chunk))).1 n :=
          freshSubset (fun _ mem => (hiddenEntries same).mp mem) fresh
        refine ⟨.hidden _ same,⟨short,.written n kept ?_⟩,fun _ mem => .inl mem⟩
        show ((files.insert _ _).lookup _).map _ = _
        rw [AList.lookup_insert]
        rfl
    | written n fresh bytes =>
      rw [spillStepStoring] at stepped
      rcases @renamePublishes files n _ now result bytes with ⟨done,added⟩ | ⟨done,same⟩
      · have spared : aims ≠ some (batchName n) := fun aimed =>
          freshReserved fresh (reserved _ aimed) rfl
        rw [if_pos done] at stepped
        cases stepped
        exact ⟨.published _ n fresh _ added,⟨short,.stored n (publishedTop fresh added spared)⟩,
          fun _ mem => .inl mem⟩
      · rw [done] at stepped
        cases stepped
        exact failedSound same
    | stored n top =>
      cases result with
      | fails written cleaned =>
        cases stepped
        exact failedSound fun _ _ => rfl
      | ok =>
        cases stepped
        refine ⟨.hidden _ fun _ _ => rfl,⟨fun part mem => short part (List.mem_cons_of_mem _ mem),
          n,chunk,top,topKept positive top⟩,fun event mem => ?_⟩
        rcases List.mem_append.mp mem with own | rest
        · exact .inr (.inl (topHeld top (short chunk List.mem_cons_self) own))
        · exact .inl rest
  | capping ops rest =>
    obtain ⟨short,n,chunk,top,removes⟩ := sound
    cases ops with
    | nil =>
      cases result with
      | fails written cleaned =>
        cases stepped
        exact failedSound fun _ _ => rfl
      | ok =>
        cases stepped
        exact ⟨.hidden _ fun _ _ => rfl,short,fun _ mem => .inl mem⟩
    | cons op ops =>
      obtain ⟨name,rfl,apart⟩ := removes op List.mem_cons_self
      have removal := @runRemoval files now result name
      obtain ⟨_,kept,gone⟩ := @runRemove files now result name
      rw [spillStepCapping] at stepped
      cases done : (runOp now files result (.remove name)).2 with
      | false =>
        rw [done] at stepped
        cases stepped
        exact failedSound fun other _ => by rw [kept done]
      | true =>
        rw [if_pos done] at stepped
        cases stepped
        exact ⟨.capped name ops rest n chunk top apart removal (gone done),
          ⟨short,n,chunk,top.removal removal apart top.spared,
            fun other mem => removes other (List.mem_cons_of_mem _ mem)⟩,fun _ mem => .inl mem⟩
  | finished ok => cases stepped

end Effects

section Crossing
variable {codec : BatchCodec ε} {most : Nat} {acked : List ε} {files after : SpoolFiles}
  {aims : Option Name} {job next : ReplayJob ε} {spill : SpillJob ε} {path : Name} {event : ε}

theorem SpillEffect.reserved (effect : SpillEffect codec aims files after spill)
    (reserved : Reserved files path) : Reserved after path := by
  intro m fits here
  cases effect with
  | hidden _ same => exact takenSubset (fun _ mem => (hiddenEntries same).mpr mem) (reserved m fits here)
  | published _ n fresh body added =>
    refine takenSubset (fun name mem => ?_) (reserved m fits here)
    obtain ⟨seen,present⟩ := entriesMem.mp mem
    have differ : name ≠ batchName n := by
      rintro rfl
      rw [freshUnlisted fresh] at present
      cases present
    exact entriesMem.mpr ⟨seen,by rwa [added.others name seen differ]⟩
  | capped name ops rest n chunk top apart removal gone =>
    have kept {other : Name} (differ : other ≠ name) (mem : other ∈ entries files) :
        other ∈ entries after := by
      obtain ⟨seen,present⟩ := entriesMem.mp mem
      exact entriesMem.mpr ⟨seen,by rwa [removal.others other differ]⟩
    obtain ⟨other,mem,number,here,low⟩ := reserved m fits here
    by_cases same : other = name
    · subst same
      have less := top.above other mem apart number here
      exact ⟨batchName n,kept apart.symm top.there,n,batchNumber top.fits,by omega⟩
    · exact ⟨other,kept same mem,number,here,low⟩

theorem SpillEffect.unread (effect : SpillEffect codec aims files after spill) (seen : listed path = true)
    (reserved : Reserved files path) :
    eventsAt codec after path = [] ∨ eventsAt codec after path = eventsAt codec files path := by
  cases effect with
  | hidden _ same => exact .inr (hiddenEvents same seen)
  | published _ n fresh body added =>
    exact .inr (eventsSame (added.others path seen (freshReserved fresh reserved)))
  | capped name ops rest n chunk top apart removal gone =>
    by_cases same : path = name
    · subst same
      refine .inl ?_
      rw [eventsAt,bytesAt,gone]
      rfl
    · exact .inr (eventsSame (removal.others path same))

theorem Doomed.afterSpill (doomed : Doomed codec most acked files path)
    (effect : SpillEffect codec aims files after spill) : Doomed codec most acked after path := by
  refine ⟨doomed.seen,effect.reserved doomed.reserved,fun n here => ?_⟩
  rcases effect.unread doomed.seen doomed.reserved with none_ | same
  · rw [none_]
    exact fun _ _ => nofun
  · rw [same]
    exact doomed.sent n here

theorem Fetched.afterSpill {events : List ε} (fetched : Fetched codec files path events)
    (effect : SpillEffect codec aims files after spill) : Fetched codec after path events := by
  refine ⟨fetched.seen,effect.reserved fetched.reserved,?_⟩
  rcases effect.unread fetched.seen fetched.reserved with none_ | same
  · exact .inl none_
  · rw [same]
    exact fetched.same

theorem ReplaySound.afterSpill (sound : ReplaySound codec most acked files job)
    (effect : SpillEffect codec aims files after spill) : ReplaySound codec most acked after job := by
  cases job with
  | scanning | finished => trivial
  | reading path => exact sound
  | corrupt path | removing path | waiting path events size =>
    exact Doomed.afterSpill sound effect
  | readDone batch =>
    cases batch with
    | none => trivial
    | some batch => exact Fetched.afterSpill sound effect
  | splitting ops =>
    rcases sound with done | ⟨path,front,same,doomed,kinds⟩
    · exact .inl done
    · exact .inr ⟨path,front,same,doomed.afterSpill effect,kinds⟩

theorem SpillEffect.held (effect : SpillEffect codec aims files after spill)
    (held : Held codec most files event) : Held codec most after event ∨
      ∃ name ops rest, spill = .capping (.remove name :: ops) rest ∧ after.lookup name = none ∧
        event ∈ eventsAt codec files name := by
  obtain ⟨m,short,mem⟩ := held
  have kept (same : eventsAt codec after (batchName m) = eventsAt codec files (batchName m)) :
      Held codec most after event := ⟨m,by rw [same]; exact ⟨short,mem⟩⟩
  cases effect with
  | hidden _ same => exact .inl (kept (hiddenEvents same (batchListed m)))
  | published _ n fresh body added =>
    have differ : batchName m ≠ batchName n := by
      intro same
      have present := eventsListed mem
      rw [same,freshUnlisted fresh] at present
      cases present
    exact .inl (kept (eventsSame (added.others _ (batchListed m) differ)))
  | capped name ops rest n chunk top apart removal gone =>
    by_cases same : batchName m = name
    · exact .inr ⟨name,ops,rest,rfl,gone,same ▸ mem⟩
    · exact .inl (kept (eventsSame (removal.others _ same)))

theorem ReplayEffect.held (effect : ReplayEffect codec most acked job files after)
    (held : Held codec most files event) : Held codec most after event ∨ event ∈ acked := by
  obtain ⟨m,short,mem⟩ := held
  have kept (same : eventsAt codec after (batchName m) = eventsAt codec files (batchName m)) :
      Held codec most after event := ⟨m,by rw [same]; exact ⟨short,mem⟩⟩
  cases effect with
  | none_ same => exact .inl (kept (by rw [same]))
  | hidden holds same => exact .inl (kept (hiddenEvents same (batchListed m)))
  | chunk holds stem index change stays => exact .inl (kept (chunkEvents change))
  | removed path aimed doomed removal =>
    by_cases same : batchName m = path
    · subst same
      exact .inr (doomed.sent m rfl short event mem)
    · exact .inl (kept (eventsSame (removal.others _ same)))

theorem replayAims (free : Bool) (now : Nat) (result : FsResult)
    (stepped : replayStep codec free now files result job = some (after,next))
    (aimed : next.aims = some path) :
    after = files ∧ (bytesAt files path).bind codec.fromSlice = none := by
  cases job with
  | reading source =>
    simp only [replayStep] at stepped
    split at stepped
    · rename_i file found
      split at stepped
      · cases stepped
        cases aimed
      · rename_i corrupt
        cases stepped
        obtain rfl := Option.some.inj aimed
        exact ⟨rfl,by rw [bytesAt,found]; exact corrupt⟩
    · cases stepped
      cases aimed
  | scanning =>
    simp only [replayStep] at stepped
    split at stepped <;> cases stepped <;> cases aimed
  | corrupt source | removing source =>
    cases stepped
    cases aimed
  | waiting source events size =>
    simp only [replayStep] at stepped
    split at stepped
    · split at stepped <;> cases stepped <;> cases aimed
    · cases stepped
  | splitting ops =>
    cases ops with
    | nil =>
      cases stepped
      cases aimed
    | cons op ops =>
      have shape : next = if (runOp now files result op).2 then .splitting ops else .finished := by
        cases stepped
        rfl
      rw [shape] at aimed
      split at aimed <;> cases aimed
  | readDone batch => cases stepped
  | finished => cases stepped

theorem ReplayEffect.unlocked (effect : ReplayEffect codec most acked job files after)
    (free : job.holds = false) :
    after = files ∨ ∃ path, job.aims = some path ∧ listed path = true ∧ Removal path files after := by
  cases effect with
  | none_ same => exact .inl same
  | hidden holds same => exact absurd (holds.symm.trans free) nofun
  | chunk holds stem index change stays => exact absurd (holds.symm.trans free) nofun
  | removed path aimed doomed removal =>
    rcases aimed with holds | aimed
    · exact absurd (holds.symm.trans free) nofun
    · exact .inr ⟨path,aimed,doomed.seen,removal⟩

theorem Top.afterReplay {n : Nat} {chunk : List ε} (top : Top codec files job.aims n chunk)
    (effect : ReplayEffect codec most acked job files after) (free : job.holds = false)
    (aimed : ∀ path, next.aims = some path →
      after = files ∧ (bytesAt files path).bind codec.fromSlice = none) :
    Top codec after next.aims n chunk := by
  have spared : next.aims ≠ some (batchName n) := by
    intro same
    have corrupt := (aimed _ same).2
    rw [top.read] at corrupt
    cases corrupt
  rcases effect.unlocked free with rfl | ⟨path,aim,_,removal⟩
  · exact ⟨top.fits,top.above,top.read,spared⟩
  · exact top.removal removal (fun same => top.spared (aim.trans (congrArg some same))) spared

theorem Fresh.afterReplay {n : Nat} (fresh : Fresh files n)
    (effect : ReplayEffect codec most acked job files after) (free : job.holds = false) :
    Fresh after n := by
  rcases effect.unlocked free with rfl | ⟨path,_,_,removal⟩
  · exact fresh
  · exact freshSubset (removalSubset removal) fresh

theorem SpillSound.afterReplay (sound : SpillSound codec most files job.aims spill)
    (effect : ReplayEffect codec most acked job files after)
    (apart : spill.holds = true → job.holds = false)
    (aimed : ∀ path, next.aims = some path →
      after = files ∧ (bytesAt files path).bind codec.fromSlice = none) :
    SpillSound codec most after next.aims spill := by
  cases spill with
  | waiting parts => exact sound
  | finished ok => trivial
  | storing chunk rest ops =>
    have free := apart rfl
    refine ⟨sound.1,?_⟩
    cases sound.2 with
    | writing n fresh => exact .writing n (fresh.afterReplay effect free)
    | written n fresh bytes =>
      refine .written n (fresh.afterReplay effect free) ?_
      rcases effect.unlocked free with rfl | ⟨path,_,seen,removal⟩
      · exact bytes
      · exact (bytesSame (removal.others _ (listedTemporary seen).symm)).trans bytes
    | stored n top => exact .stored n (top.afterReplay effect free aimed)
  | capping ops rest =>
    obtain ⟨short,n,chunk,top,removes⟩ := sound
    exact ⟨short,n,chunk,top.afterReplay effect (apart rfl) aimed,removes⟩

theorem SpillSound.unlocked {aims' : Option Name} (sound : SpillSound codec most files aims spill)
    (free : spill.holds = false) : SpillSound codec most after aims' spill := by
  cases spill with
  | waiting parts => exact sound
  | finished ok => trivial
  | storing chunk rest ops => cases free
  | capping ops rest => cases free

theorem SpillSound.disarm (sound : SpillSound codec most files aims spill) :
    SpillSound codec most files none spill := by
  have spared {n : Nat} {chunk : List ε} (top : Top codec files aims n chunk) :
      Top codec files none n chunk := ⟨top.fits,top.above,top.read,nofun⟩
  cases spill with
  | waiting parts => exact sound
  | finished ok => trivial
  | storing chunk rest ops =>
    refine ⟨sound.1,?_⟩
    cases sound.2 with
    | writing n fresh => exact .writing n fresh
    | written n fresh bytes => exact .written n fresh bytes
    | stored n top => exact .stored n (spared top)
  | capping ops rest =>
    obtain ⟨short,n,chunk,top,removes⟩ := sound
    exact ⟨short,n,chunk,spared top,removes⟩

theorem Doomed.grown {more : List ε} (doomed : Doomed codec most acked files path)
    (grown : ∀ event ∈ acked, event ∈ more) : Doomed codec most more files path :=
  ⟨doomed.seen,doomed.reserved,fun n here short event mem => grown event (doomed.sent n here short event mem)⟩

theorem ReplaySound.grown {more : List ε} (sound : ReplaySound codec most acked files job)
    (grown : ∀ event ∈ acked, event ∈ more) : ReplaySound codec most more files job := by
  cases job with
  | scanning | finished => trivial
  | reading path => exact sound
  | corrupt path | removing path | waiting path events size => exact Doomed.grown sound grown
  | readDone batch => cases batch <;> exact sound
  | splitting ops =>
    rcases sound with done | ⟨path,front,same,doomed,kinds⟩
    · exact .inl done
    · exact .inr ⟨path,front,same,doomed.grown grown,kinds⟩

theorem spillUnlocked {maxFiles : Nat} {free : Bool} {now : Nat} {result : FsResult}
    {later : SpillJob ε} (stepped : spillStep codec maxFiles free now files result spill = some (after,later))
    (unlocked : spill.holds = false) : after = files := by
  cases spill with
  | waiting parts =>
    cases parts with
    | nil =>
      cases stepped
      rfl
    | cons chunk rest =>
      simp only [spillStep] at stepped
      split at stepped
      · split at stepped <;> cases stepped <;> rfl
      · cases stepped
  | storing chunk rest ops => cases unlocked
  | capping ops rest => cases unlocked
  | finished ok => cases stepped

theorem spillLocks {maxFiles : Nat} {free : Bool} {now : Nat} {result : FsResult} {later : SpillJob ε}
    (stepped : spillStep codec maxFiles free now files result spill = some (after,later))
    (holds : later.holds = true) : spill.holds = true ∨ free = true := by
  cases spill with
  | waiting parts =>
    cases parts with
    | nil =>
      cases stepped
      cases holds
    | cons chunk rest =>
      cases free with
      | true => exact .inr rfl
      | false => cases stepped
  | storing chunk rest ops | capping ops rest => exact .inl rfl
  | finished ok => cases stepped

theorem replayLocks {free : Bool} {now : Nat} {result : FsResult}
    (stepped : replayStep codec free now files result job = some (after,next))
    (holds : next.holds = true) : job.holds = true ∨ free = true := by
  cases job with
  | waiting path events size =>
    cases free with
    | true => exact .inr rfl
    | false => cases stepped
  | splitting ops => exact .inl rfl
  | scanning =>
    simp only [replayStep] at stepped
    split at stepped <;> cases stepped <;> cases holds
  | reading path =>
    simp only [replayStep] at stepped
    split at stepped
    · split at stepped <;> cases stepped <;> cases holds
    · cases stepped
      cases holds
  | corrupt path | removing path =>
    cases stepped
    cases holds
  | readDone batch => cases stepped
  | finished => cases stepped

end Crossing

end TelephoneBooth.EventSpool
