import TelephoneBooth.EventSpool
import TelephoneBooth.Transition

/-! The event spool as a bounded queue. The directory's order is the order in which the events were
spilled, as long as no file is cut into more chunks than a chunk's number can count. -/
namespace TelephoneBooth.EventSpool
open BatchNames Listing

variable {ε : Type*} (codec : BatchCodec ε)

def eventsAt (files : SpoolFiles) (name : Name) : List ε :=
  ((bytesAt files name).bind codec.fromSlice).getD []

def batchesOf (files : SpoolFiles) : List (Name × List ε) :=
  (entries files).map fun name => (name,eventsAt codec files name)

/-- Every listed file has a number and can be read, and no file's place lies inside another's. -/
structure QueueFiles (files : SpoolFiles) : Prop where
  sequenced : ∀ name ∈ entries files, ∃ key, batchSortKey name = some key
  readable : ∀ name ∈ entries files, ∃ events, (bytesAt files name).bind codec.fromSlice = some events
  apart : ∀ a ∈ entries files, ∀ b ∈ entries files, a ≠ b → ∀ sequence p q,
    batchSortKey a = some (sequence,p) → batchSortKey b = some (sequence,q) → ¬ p <+: q

section Places
variable {codec} {files after : SpoolFiles}

def Kept (keep : Name → Bool) (files after : SpoolFiles) : Prop :=
  ∀ name, listed name = true → after.lookup name = if keep name then files.lookup name else none

theorem keptEntries {keep : Name → Bool} (kept : Kept keep files after) :
    entries after = (entries files).filter keep := by
  have found {name : Name} {file : SpoolFile} (seen : listed name = true) :
      after.lookup name = some file ↔ files.lookup name = some file ∧ keep name = true := by
    rw [kept name seen]
    by_cases stays : keep name = true <;> simp [stays]
  have filtered : sorted (entryKeys after) =
      (sorted (entryKeys files)).filter fun key => keep (keyName key) := by
    refine sortedFilter (entryKeysNodup files) (entryKeysNodup after) _ fun key => ?_
    rw [entryKeysMem,entryKeysMem]
    constructor
    · rintro ⟨name,file,here,seen,rfl⟩
      obtain ⟨there,stays⟩ := (found seen).mp here
      exact ⟨⟨name,file,there,seen,rfl⟩,by rwa [keyNameSort]⟩
    · rintro ⟨⟨name,file,there,seen,rfl⟩,stays⟩
      rw [keyNameSort] at stays
      exact ⟨name,file,(found seen).mpr ⟨there,stays⟩,seen,rfl⟩
  rw [entries,filtered,entries,List.filter_map]
  rfl

theorem eventsSame {name : Name} (same : after.lookup name = files.lookup name) :
    eventsAt codec after name = eventsAt codec files name := by
  rw [eventsAt,eventsAt,bytesSame same]

theorem keptSame {keep : Name → Bool} (kept : Kept keep files after) {name : Name}
    (mem : name ∈ entries after) : name ∈ entries files ∧ after.lookup name = files.lookup name := by
  rw [keptEntries kept] at mem
  obtain ⟨there,stays⟩ := List.mem_filter.mp mem
  refine ⟨there,?_⟩
  rw [kept name (entriesMem.mp there).1,if_pos stays]

theorem keptBatches {keep : Name → Bool} (kept : Kept keep files after) :
    batchesOf codec after = (batchesOf codec files).filter fun batch => keep batch.1 := by
  have same : batchesOf codec after = (entries after).map fun name => (name,eventsAt codec files name) :=
    List.map_congr_left fun name mem => by rw [eventsSame (keptSame kept mem).2]
  rw [same,keptEntries kept,batchesOf,List.filter_map]
  rfl

theorem keptQueue {keep : Name → Bool} (kept : Kept keep files after) (queue : QueueFiles codec files) :
    QueueFiles codec after := by
  refine ⟨fun name mem => queue.sequenced name (keptSame kept mem).1,fun name mem => ?_,?_⟩
  · obtain ⟨there,same⟩ := keptSame kept mem
    obtain ⟨events,read⟩ := queue.readable name there
    exact ⟨events,by rw [bytesSame same,read]⟩
  · intro a memA b memB
    exact queue.apart a (keptSame kept memA).1 b (keptSame kept memB).1

theorem readBatchesDone {names : List Name}
    (readable : ∀ name ∈ names, ∃ events, (bytesAt files name).bind codec.fromSlice = some events) :
    readBatches codec files names = (files,names.map fun name => (name,eventsAt codec files name)) := by
  induction names with
  | nil => rfl
  | cons name rest ih =>
    obtain ⟨events,read⟩ := readable name List.mem_cons_self
    have later := ih fun other mem => readable other (List.mem_cons_of_mem _ mem)
    obtain ⟨bytes,held,decoded⟩ := Option.bind_eq_some_iff.mp read
    obtain ⟨file,found,rfl⟩ := Option.map_eq_some_iff.mp held
    have here : eventsAt codec files name = events := by rw [eventsAt,read]; rfl
    have one : readBatch codec files name = (files,some (name,events)) := by
      simp only [readBatch,found,decoded]
    rw [readBatches,one]
    simp only [later,List.map_cons,here]
    rfl

theorem drainDone (queue : QueueFiles codec files) :
    drain codec files = (files,batchesOf codec files) := readBatchesDone queue.readable

theorem oldestDone (queue : QueueFiles codec files) :
    oldestBatch codec files = (files,(batchesOf codec files).head?) := by
  have reads (name : Name) (mem : name ∈ entries files) :
      readBatch codec files name = (files,some (name,eventsAt codec files name)) := by
    obtain ⟨events,read⟩ := queue.readable name mem
    obtain ⟨bytes,held,decoded⟩ := Option.bind_eq_some_iff.mp read
    obtain ⟨file,found,rfl⟩ := Option.map_eq_some_iff.mp held
    simp only [readBatch,found,decoded,eventsAt,read,Option.getD_some]
  unfold oldestBatch batchesOf
  split
  · rename_i none_
    rw [none_]
    rfl
  · rename_i name rest first
    rw [first,reads name (first ▸ List.mem_cons_self)]
    rfl

def chunkPlace (sequence : Nat) (parts : List Nat) (stem : Name) (index : Nat) : SortKey :=
  toLex (1,toLex (sequence,toLex ([],toLex (parts ++ [index + 1],chunkName stem index))))

end Places

section Spilling
variable {codec} {files after : SpoolFiles} {sequence : Nat}

theorem addedEntries (queue : QueueFiles codec files) (next : nextSequence files = some sequence)
    {body : List UInt8} (added : Added (batchName sequence) body files after) :
    entries after = entries files ++ [batchName sequence] := by
  obtain ⟨fits,above⟩ := nextSequenceAbove next
  have fresh := nextSequenceFresh next
  obtain ⟨file,here,_⟩ := Option.map_eq_some_iff.mp added.named
  have key := batchKey fits
  have other {name : Name} {file : SpoolFile} (found : files.lookup name = some file) :
      name ≠ batchName sequence := by
    rintro rfl
    rw [fresh] at found
    cases found
  have snoc : sorted (entryKeys after) =
      sorted (entryKeys files) ++ [sortKey (batchName sequence) file.modified] := by
    refine sortedSnoc (entryKeysNodup files) (entryKeysNodup after) ?_ fun k => ?_
    · intro k mem
      obtain ⟨name,old,found,seen,rfl⟩ := entryKeysMem.mp mem
      have present := entriesMem.mpr ⟨seen,Option.isSome_of_eq_some found⟩
      obtain ⟨⟨number,parts⟩,keyed⟩ := queue.sequenced name present
      refine (sequencedLess keyed key _ _).mpr (.inl (above name present number ?_))
      rw [batchSequence,keyed]
      rfl
    · rw [entryKeysMem,entryKeysMem]
      constructor
      · rintro ⟨name,old,found,seen,rfl⟩
        by_cases same : name = batchName sequence
        · subst same
          rw [Option.some.inj (here.symm.trans found)]
          exact .inr rfl
        · exact .inl ⟨name,old,(added.others name seen same).symm.trans found,seen,rfl⟩
      · rintro (⟨name,old,found,seen,rfl⟩ | rfl)
        · exact ⟨name,old,(added.others name seen (other found)).trans found,seen,rfl⟩
        · exact ⟨_,file,here,batchListed sequence,rfl⟩
  rw [entries,snoc,List.map_append,entries,List.map_singleton,keyNameSort]

theorem addedBatches (queue : QueueFiles codec files) (next : nextSequence files = some sequence)
    {batch : List ε} (added : Added (batchName sequence) (codec.toVec batch) files after) :
    QueueFiles codec after ∧ batchesOf codec after = batchesOf codec files ++ [(batchName sequence,batch)] := by
  obtain ⟨fits,above⟩ := nextSequenceAbove next
  have listing := addedEntries queue next added
  have read : (bytesAt after (batchName sequence)).bind codec.fromSlice = some batch := by
    rw [added.named]
    exact codec.reads batch
  have old {name : Name} (mem : name ∈ entries files) : after.lookup name = files.lookup name := by
    obtain ⟨seen,present⟩ := entriesMem.mp mem
    refine added.others name seen ?_
    rintro rfl
    rw [nextSequenceFresh next] at present
    cases present
  have member (name : Name) : name ∈ entries after ↔ name ∈ entries files ∨ name = batchName sequence := by
    rw [listing,List.mem_append,List.mem_singleton]
  have lower {name : Name} (mem : name ∈ entries files) {number : Nat} {parts : List Nat}
      (key : batchSortKey name = some (number,parts)) : number ≠ sequence := by
    refine Nat.ne_of_lt (above name mem number ?_)
    rw [batchSequence,key]
    rfl
  refine ⟨⟨fun name mem => ?_,fun name mem => ?_,fun a memA b memB differ number p q keyA keyB => ?_⟩,?_⟩
  · rcases (member name).mp mem with mem | rfl
    · exact queue.sequenced name mem
    · exact ⟨_,batchKey fits⟩
  · rcases (member name).mp mem with mem | rfl
    · obtain ⟨events,reads⟩ := queue.readable name mem
      exact ⟨events,by rw [bytesSame (old mem),reads]⟩
    · exact ⟨batch,read⟩
  · rcases (member a).mp memA with memA | rfl <;> rcases (member b).mp memB with memB | rfl
    · exact queue.apart a memA b memB differ number p q keyA keyB
    · rw [batchKey fits] at keyB
      exact absurd (Prod.mk.inj (Option.some.inj keyB)).1.symm (lower memA keyA)
    · rw [batchKey fits] at keyA
      exact absurd (Prod.mk.inj (Option.some.inj keyA)).1.symm (lower memB keyB)
    · exact absurd rfl differ
  · have here : eventsAt codec after (batchName sequence) = batch := by
      rw [eventsAt,read]
      rfl
    rw [batchesOf,listing,List.map_append,List.map_singleton,here]
    exact congrArg (· ++ _) (List.map_congr_left fun name mem => by rw [eventsSame (old mem)])

theorem capDone (maxFiles : Nat) (clock : Nat → Nat) (files : SpoolFiles) : ∃ after,
    enforceCap maxFiles clock files = some after ∧
    Kept (fun name => decide (name ∉ (entries files).take ((entries files).length - maxFiles))) files after := by
  have distinct : ((entries files).take ((entries files).length - maxFiles)).Nodup :=
    (entriesNodup files).sublist (List.take_sublist _ _)
  obtain ⟨after,done,left⟩ := @removeAllDone clock files _ distinct fun name mem =>
    (entriesMem.mp (List.mem_of_mem_take mem)).2
  refine ⟨after,done,fun name _ => ?_⟩
  rw [left]
  by_cases mem : name ∈ (entries files).take ((entries files).length - maxFiles) <;> simp [mem]

theorem capBatches (maxFiles : Nat) (clock : Nat → Nat) (queue : QueueFiles codec files) : ∃ after,
    enforceCap maxFiles clock files = some after ∧ QueueFiles codec after ∧
    batchesOf codec after = (batchesOf codec files).drop ((batchesOf codec files).length - maxFiles) := by
  obtain ⟨after,done,kept⟩ := capDone maxFiles clock files
  refine ⟨after,done,keptQueue kept queue,?_⟩
  have listing : entries after = (entries files).drop ((entries files).length - maxFiles) :=
    (keptEntries kept).trans (filterDrop (entriesNodup files) _ fun _ => decide_eq_true_iff)
  rw [batchesOf,List.map_congr_left fun name mem =>
    congrArg (Prod.mk name) (eventsSame (keptSame kept mem).2),listing,List.map_drop]
  rw [batchesOf,List.length_map]

end Spilling

section Splitting
variable {files after : SpoolFiles} {path : Name} {original : SpoolFile} {sequence : Nat}
  {parts : List Nat} {pieces : List (List ε)}

def chunkNames (stem : Name) (count : Nat) : List Name := (List.range count).map (chunkName stem)

theorem chunkNamesMem {stem : Name} {count : Nat} {name : Name} :
    name ∈ chunkNames stem count ↔ ∃ index, index < count ∧ name = chunkName stem index := by
  rw [chunkNames,List.mem_map]
  exact exists_congr fun index => and_congr List.mem_range eq_comm

theorem replacementsApart {stem : Name} {name : Name} (away : name ∉ chunkNames stem pieces.length) :
    ∀ chunk ∈ replacements codec stem pieces, name ≠ chunk.1 := by
  rintro ⟨other,body⟩ mem rfl
  obtain ⟨index,piece,here,rfl,_⟩ := (replacementsMem codec).mp mem
  exact away (chunkNamesMem.mpr ⟨index,(List.getElem?_eq_some_iff.mp here).1,rfl⟩)

def RoomBehind (files : SpoolFiles) (path : Name) (original : SpoolFile) (sequence : Nat)
    (parts : List Nat) (count : Nat) : Prop :=
  ∀ place ∈ entryKeys files, keyName place ∉ chunkNames (fileStem path) count →
    sortKey path original.modified < place →
    ∀ index, index < count → chunkPlace sequence parts (fileStem path) index < place

theorem chunkPlaced (seen : listed path = true) (key : batchSortKey path = some (sequence,parts))
    {index : Nat} (small : index + 1 < 2 ^ 32) (modified : Nat) :
    sortKey (chunkName (fileStem path) index) modified =
      chunkPlace sequence parts (fileStem path) index := by
  have keyed := chunkKey seen key index
  rw [if_pos small] at keyed
  exact sortKeySequenced keyed modified

theorem chunkPlaceAbove (key : batchSortKey path = some (sequence,parts)) (modified index : Nat) :
    sortKey path modified < chunkPlace sequence parts (fileStem path) index := by
  rw [sortKeySequenced key,chunkPlace]
  simp only [Prod.Lex.toLex_lt_toLex,lt_irrefl,false_or,true_and]
  exact .inl (prefixLess parts (List.cons_ne_nil _ _))

theorem chunkPlaceIncreasing (stem : Name) {i j : Nat} (less : i < j) :
    chunkPlace sequence parts stem i < chunkPlace sequence parts stem j := by
  simp only [chunkPlace,Prod.Lex.toLex_lt_toLex,lt_irrefl,false_or,true_and]
  exact .inl (snocLess parts (Nat.succ_lt_succ less))

variable {codec}

theorem replacedKeys (seen : listed path = true) (found : files.lookup path = some original)
    (key : batchSortKey path = some (sequence,parts)) (few : pieces.length < 2 ^ 32)
    (replaced : Replaced (replacements codec (fileStem path) pieces) path files after)
    {place : SortKey} : place ∈ entryKeys after ↔
      (∃ index, index < pieces.length ∧
        place = chunkPlace sequence parts (fileStem path) index) ∨
      (place ∈ entryKeys files ∧ keyName place ∉ chunkNames (fileStem path) pieces.length) ∧
        place ≠ sortKey path original.modified := by
  have small {index : Nat} (less : index < pieces.length) : index + 1 < 2 ^ 32 := by omega
  rw [entryKeysMem,entryKeysMem]
  constructor
  · rintro ⟨name,file,here,seen',rfl⟩
    by_cases chunk : name ∈ chunkNames (fileStem path) pieces.length
    · obtain ⟨index,less,rfl⟩ := chunkNamesMem.mp chunk
      exact .inl ⟨index,less,chunkPlaced seen key (small less) _⟩
    · have away : name ≠ path := by
        rintro rfl
        rw [replaced.gone] at here
        cases here
      rw [replaced.others name away fun other mem =>
        ⟨replacementsApart codec chunk other mem,listedTemporary seen'⟩] at here
      refine .inr ⟨⟨⟨name,file,here,seen',rfl⟩,by rwa [keyNameSort]⟩,fun both => away ?_⟩
      have names := congrArg keyName both
      rwa [keyNameSort,keyNameSort] at names
  · rintro (⟨index,less,rfl⟩ | ⟨⟨⟨name,file,here,seen',rfl⟩,chunk⟩,differ⟩)
    · have body := replaced.named _ _ ((replacementsMem codec).mpr
        ⟨index,pieces[index],List.getElem?_eq_getElem less,rfl,rfl⟩)
      obtain ⟨file,here,_⟩ := Option.map_eq_some_iff.mp body
      exact ⟨_,file,here,chunkListed (listedStem seen).1 index,
        (chunkPlaced seen key (small less) _).symm⟩
    · rw [keyNameSort] at chunk
      have away : name ≠ path := by
        rintro rfl
        rw [Option.some.inj (here.symm.trans found)] at differ
        exact differ rfl
      refine ⟨name,file,?_,seen',rfl⟩
      rw [replaced.others name away fun other mem =>
        ⟨replacementsApart codec chunk other mem,listedTemporary seen'⟩,here]

theorem replacedEntries (seen : listed path = true) (found : files.lookup path = some original)
    (key : batchSortKey path = some (sequence,parts)) (few : pieces.length < 2 ^ 32)
    (room : RoomBehind files path original sequence parts pieces.length)
    (replaced : Replaced (replacements codec (fileStem path) pieces) path files after)
    {front back : List Name} (listing : (entries files).filter
      (fun name => decide (name ∉ chunkNames (fileStem path) pieces.length)) = front ++ path :: back) :
    entries after = front ++ chunkNames (fileStem path) pieces.length ++ back := by
  let keep : SortKey → Bool := fun place =>
    decide (keyName place ∉ chunkNames (fileStem path) pieces.length)
  let keys := (entryKeys files).filter keep
  have distinct : keys.Nodup := (entryKeysNodup files).filter _
  have keysMem {place : SortKey} : place ∈ keys ↔
      place ∈ entryKeys files ∧ keyName place ∉ chunkNames (fileStem path) pieces.length := by
    rw [List.mem_filter,decide_eq_true_iff]
  have keysSorted : sorted keys = (sorted (entryKeys files)).filter keep :=
    sortedFilter (entryKeysNodup files) distinct keep fun place => List.mem_filter
  have named : (sorted keys).map keyName = front ++ path :: back := by
    rw [keysSorted,← listing,entries,List.filter_map]
    rfl
  obtain ⟨frontKeys,restKeys,split_,rfl,rest⟩ := List.map_eq_append_iff.mp named
  obtain ⟨k,backKeys,rfl,same,rfl⟩ := List.map_eq_cons_iff.mp rest
  have kMem : k ∈ keys := sortedMem.mp (by rw [split_]; simp)
  have kIs : k = sortKey path original.modified := by
    obtain ⟨name,file,here,_,rfl⟩ := entryKeysMem.mp (keysMem.mp kMem).1
    rw [keyNameSort] at same
    subst same
    rw [Option.some.inj (found.symm.trans here)]
  subst kIs
  let new := (List.range pieces.length).map (chunkPlace sequence parts (fileStem path))
  have newMem {place : SortKey} : place ∈ new ↔
      ∃ index, index < pieces.length ∧ place = chunkPlace sequence parts (fileStem path) index := by
    rw [List.mem_map]
    exact exists_congr fun index => and_congr List.mem_range eq_comm
  have newNames : new.map keyName = chunkNames (fileStem path) pieces.length := by
    rw [List.map_map]
    exact List.map_congr_left fun index _ => rfl
  have increasing : new.Pairwise (· < ·) :=
    List.pairwise_map.mpr (List.pairwise_lt_range.imp fun less => chunkPlaceIncreasing _ less)
  have members (place : SortKey) : place ∈ entryKeys after ↔
      place ∈ new ∨ place ∈ keys ∧ place ≠ sortKey path original.modified := by
    rw [newMem,keysMem]
    exact replacedKeys seen found key few replaced
  have placed := sortedReplace (entryKeysNodup after) split_ distinct increasing
    (fun place _ less other mem => by
      obtain ⟨index,_,rfl⟩ := newMem.mp mem
      exact lt_trans less (chunkPlaceAbove key _ index))
    (fun place mem less other inside => by
      obtain ⟨index,short,rfl⟩ := newMem.mp inside
      exact room place (keysMem.mp mem).1 (keysMem.mp mem).2 less index short)
    members
  rw [entries,placed,List.map_append,List.map_append,newNames]

end Splitting

section InPlace
variable {codec} {files after : SpoolFiles} {path : Name} {original : SpoolFile} {sequence : Nat}
  {parts : List Nat} {pieces : List (List ε)}

theorem queueNoChunks (queue : QueueFiles codec files) (mem : path ∈ entries files)
    (key : batchSortKey path = some (sequence,parts)) (few : pieces.length < 2 ^ 32) {name : Name}
    (there : name ∈ entries files) : name ∉ chunkNames (fileStem path) pieces.length := by
  intro chunk
  obtain ⟨index,less,rfl⟩ := chunkNamesMem.mp chunk
  have seen := (entriesMem.mp mem).1
  have keyed := chunkKey seen key index
  rw [if_pos (by omega)] at keyed
  have apart : path ≠ chunkName (fileStem path) index := by
    intro same
    exact chunkLonger _ index (same.symm.trans (listedStem seen).2)
  exact queue.apart path mem _ there apart sequence _ _ key keyed (List.prefix_append _ _)

theorem queueRoom (queue : QueueFiles codec files) (mem : path ∈ entries files)
    (found : files.lookup path = some original) (key : batchSortKey path = some (sequence,parts))
    (count : Nat) : RoomBehind files path original sequence parts count := by
  intro place there _ less index _
  obtain ⟨name,file,here,seen,rfl⟩ := entryKeysMem.mp there
  have present : name ∈ entries files := entriesMem.mpr ⟨seen,Option.isSome_of_eq_some here⟩
  obtain ⟨⟨number,q⟩,keyed⟩ := queue.sequenced name present
  have differ : path ≠ name := by
    rintro rfl
    rw [Option.some.inj (found.symm.trans here)] at less
    exact lt_irrefl _ less
  rw [sortKeySequenced keyed,chunkPlace]
  rcases (sequencedLess key keyed _ _).mp less with lower | ⟨rfl,lower | ⟨rfl,_⟩⟩
  · exact Prod.Lex.toLex_lt_toLex.mpr (.inr ⟨rfl,Prod.Lex.toLex_lt_toLex.mpr (.inl lower)⟩)
  · have apart := queue.apart path mem name present differ sequence _ _ key keyed
    have later := appendLess lower apart [index + 1] []
    rw [List.append_nil] at later
    simp only [Prod.Lex.toLex_lt_toLex,lt_irrefl,false_or,true_and]
    exact .inl later
  · exact absurd (List.prefix_refl _) (queue.apart path mem name present differ sequence _ _ key keyed)

theorem replacedMember (seen : listed path = true)
    (replaced : Replaced (replacements codec (replacementStem path) pieces) path files after) {name : Name}
    (there : name ∈ entries after) :
    (name ∈ entries files ∧ name ≠ path ∧ after.lookup name = files.lookup name ∧
      name ∉ chunkNames (replacementStem path) pieces.length) ∨
    ∃ (index : Nat) (less : index < pieces.length), name = chunkName (replacementStem path) index ∧
      bytesAt after name = some (codec.toVec pieces[index]) := by
  obtain ⟨seen',present⟩ := entriesMem.mp there
  by_cases chunk : name ∈ chunkNames (replacementStem path) pieces.length
  · obtain ⟨index,less,rfl⟩ := chunkNamesMem.mp chunk
    exact .inr ⟨index,less,rfl,replaced.named _ _ ((replacementsMem codec).mpr
      ⟨index,pieces[index],List.getElem?_eq_getElem less,rfl,rfl⟩)⟩
  · have away : name ≠ path := by
      rintro rfl
      rw [replaced.gone] at present
      cases present
    have same := replaced.others name away fun other mem =>
      ⟨replacementsApart codec chunk other mem,listedTemporary seen'⟩
    exact .inl ⟨entriesMem.mpr ⟨seen',same ▸ present⟩,away,same,chunk⟩

theorem replacedReadable (seen : listed path = true)
    (readable : ∀ name ∈ entries files, ∃ events, (bytesAt files name).bind codec.fromSlice = some events)
    (replaced : Replaced (replacements codec (replacementStem path) pieces) path files after) {name : Name}
    (there : name ∈ entries after) : ∃ events, (bytesAt after name).bind codec.fromSlice = some events := by
  rcases replacedMember seen replaced there with ⟨old,_,same,_⟩ | ⟨index,less,_,body⟩
  · obtain ⟨events,reads⟩ := readable name old
    exact ⟨events,by rw [bytesSame same,reads]⟩
  · exact ⟨_,by rw [body]; exact codec.reads _⟩

theorem replacedKeepsQueue (queue : QueueFiles codec files) (mem : path ∈ entries files)
    (few : pieces.length < 2 ^ 32)
    (replaced : Replaced (replacements codec (replacementStem path) pieces) path files after) :
    QueueFiles codec after := by
  have seen := (entriesMem.mp mem).1
  obtain ⟨⟨sequence,parts⟩,key⟩ := queue.sequenced path mem
  have member {name : Name} (there : name ∈ entries after) := replacedMember seen replaced there
  rw [replacementSequenced key] at member
  have chunkKeyed {index : Nat} (less : index < pieces.length) :
      batchSortKey (chunkName (fileStem path) index) = some (sequence,parts ++ [index + 1]) := by
    rw [chunkKey seen key,if_pos (by omega)]
  refine ⟨fun name there => ?_,fun name there => ?_,?_⟩
  · rcases member there with ⟨old,_⟩ | ⟨index,less,rfl,_⟩
    · exact queue.sequenced name old
    · exact ⟨_,chunkKeyed less⟩
  · exact replacedReadable seen queue.readable replaced there
  · intro a memA b memB differ number p q keyA keyB inside
    rcases member memA with ⟨oldA,apartA,_⟩ | ⟨i,lessI,rfl,_⟩ <;>
      rcases member memB with ⟨oldB,apartB,_⟩ | ⟨j,lessJ,rfl,_⟩
    · exact queue.apart a oldA b oldB differ number p q keyA keyB inside
    · obtain ⟨rfl,rfl⟩ := Prod.mk.inj (Option.some.inj ((chunkKeyed lessJ).symm.trans keyB))
      rcases List.prefix_concat_iff.mp inside with rfl | shorter
      · exact queue.apart path mem a oldA apartA.symm _ _ _ key keyA (List.prefix_append _ _)
      · exact queue.apart a oldA path mem apartA _ _ _ keyA key shorter
    · obtain ⟨rfl,rfl⟩ := Prod.mk.inj (Option.some.inj ((chunkKeyed lessI).symm.trans keyA))
      exact queue.apart path mem b oldB apartB.symm _ _ _ key keyB
        (List.IsPrefix.trans (List.prefix_append _ _) inside)
    · obtain ⟨rfl,rfl⟩ := Prod.mk.inj (Option.some.inj ((chunkKeyed lessI).symm.trans keyA))
      obtain ⟨_,rfl⟩ := Prod.mk.inj (Option.some.inj ((chunkKeyed lessJ).symm.trans keyB))
      have same := List.append_cancel_left (inside.eq_of_length (by simp))
      exact differ (by rw [Nat.succ.inj (List.singleton_inj.mp same)])

theorem replacedQueue (queue : QueueFiles codec files) (mem : path ∈ entries files)
    (few : pieces.length < 2 ^ 32)
    (replaced : Replaced (replacements codec (replacementStem path) pieces) path files after) :
    QueueFiles codec after ∧ ∃ front back chunks,
      batchesOf codec files = front ++ (path,eventsAt codec files path) :: back ∧
      batchesOf codec after = front ++ chunks ++ back ∧ chunks.map Prod.snd = pieces := by
  obtain ⟨seen,present⟩ := entriesMem.mp mem
  obtain ⟨original,found⟩ := Option.isSome_iff_exists.mp present
  obtain ⟨⟨sequence,parts⟩,key⟩ := queue.sequenced path mem
  have still := replacedKeepsQueue queue mem few replaced
  rw [replacementSequenced key] at replaced
  obtain ⟨front,back,listing⟩ := List.append_of_mem mem
  have noChunk {name : Name} (there : name ∈ entries files) :
      name ∉ chunkNames (fileStem path) pieces.length := queueNoChunks queue mem key few there
  have all : (entries files).filter
      (fun name => decide (name ∉ chunkNames (fileStem path) pieces.length)) = front ++ path :: back := by
    rw [← listing]
    exact List.filter_eq_self.mpr fun name there => decide_eq_true (noChunk there)
  have placed := replacedEntries seen found key few (queueRoom queue mem found key _) replaced all
  have chunkRead {index : Nat} (less : index < pieces.length) :
      (bytesAt after (chunkName (fileStem path) index)).bind codec.fromSlice = some pieces[index] := by
    rw [replaced.named _ _ ((replacementsMem codec).mpr
      ⟨index,pieces[index],List.getElem?_eq_getElem less,rfl,rfl⟩)]
    exact codec.reads _
  have distinct := entriesNodup files
  rw [listing] at distinct
  obtain ⟨_,rest,apart⟩ := List.nodup_append.mp distinct
  have other {name : Name} (there : name ∈ entries files) (differ : name ≠ path) :
      after.lookup name = files.lookup name :=
    replaced.others name differ fun chunk inside =>
      ⟨replacementsApart codec (noChunk there) chunk inside,listedTemporary (entriesMem.mp there).1⟩
  refine ⟨still,
    front.map fun name => (name,eventsAt codec files name),
    back.map fun name => (name,eventsAt codec files name),
    (chunkNames (fileStem path) pieces.length).map fun name => (name,eventsAt codec after name),?_,?_,?_⟩
  · rw [batchesOf,listing,List.map_append,List.map_cons]
  · rw [batchesOf,placed,List.map_append,List.map_append]
    refine congrArg₂ (· ++ ·) (congrArg₂ (· ++ ·) ?_ rfl) ?_
    · refine List.map_congr_left fun name early => congrArg (Prod.mk name) (eventsSame ?_)
      exact other (by rw [listing]; exact List.mem_append_left _ early)
        (apart name early path List.mem_cons_self)
    · refine List.map_congr_left fun name late => congrArg (Prod.mk name) (eventsSame ?_)
      exact other (by rw [listing]; exact List.mem_append_right _ (List.mem_cons_of_mem _ late))
        fun same => (List.nodup_cons.mp rest).1 (same ▸ late)
  · refine List.ext_getElem (by simp [chunkNames]) fun index less short => ?_
    simp only [chunkNames,List.getElem_map,List.getElem_range,eventsAt]
    rw [chunkRead short]
    rfl

end InPlace

end TelephoneBooth.EventSpool
