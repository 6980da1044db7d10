import Mathlib.Data.List.Basic
import TelephoneBooth.Directory
import TelephoneBooth.KeyNames
import TelephoneBooth.Transition

/-! The key-value store over a directory: a value is written to a temporary file, which is then
renamed to the key's name. The temporary name is made of the process id and a clock reading. -/
namespace TelephoneBooth

abbrev Bytes := List UInt8

def tempPrefix : Name := ['.','t','m','p','-']

def tempName (pid ns : Nat) : Name := tempPrefix ++ Nat.toDigits 10 pid ++ '-' :: Nat.toDigits 10 ns

inductive Getting where
  | opening
  | reading (file : Nat) (got : Bytes)
  | returned (value : Option Bytes)
  | failed
  deriving DecidableEq, Repr

inductive Setting where
  | creating
  | writing (file : Nat) (written : Nat)
  | renamingTemp
  | cleaning
  | returned (ok : Bool)
  deriving DecidableEq, Repr

inductive Deleting where
  | removing
  | returned (ok : Bool)
  deriving DecidableEq, Repr

/- A call with what it has been given; a `set` has drawn its clock reading at its start. -/
inductive StorageCall where
  | get (key : Name) (now : Getting)
  | set (key : Name) (value : Bytes) (ns : Nat) (now : Setting)
  | delete (key : Name) (now : Deleting)
  deriving DecidableEq, Repr

inductive IoResult where
  | ok (count : Nat)
  | fails
  deriving DecidableEq, Repr

def writeAt (old : Bytes) (offset : Nat) (piece : Bytes) : Bytes :=
  (old ++ List.replicate (offset - old.length) 0).take offset ++ piece ++
    old.drop (offset + piece.length)

/- `effective` lists the operations that have changed what a key stores, oldest first; no step
reads it. -/
structure FileStorage where
  pid : Nat
  files : Directory Name Bytes
  clock : Nat
  calls : List StorageCall
  effective : List (Name × Option Bytes)

inductive StorageLabel where
  | tick (ns : Nat)
  | get (key : Name)
  | set (key : Name) (value : Bytes)
  | delete (key : Name)
  | io (call : Nat) (result : IoResult)
  deriving DecidableEq, Repr

namespace FileStorage

def new (pid : Nat) : FileStorage := ⟨pid,.empty [],0,[],[]⟩

def getStep (files : Directory Name Bytes) (key : Name) : Getting → IoResult → Option Getting
  | .opening, .ok _ =>
    match files.names (encodeKey key) with
    | some file => some (.reading file [])
    | none => some (.returned none)
  | .reading file got, .ok count =>
    let rest := (files.contents file).drop got.length
    if rest = [] then some (.returned (some got))
    else if count = 0 then none
    else some (.reading file (got ++ rest.take count))
  | .opening, .fails | .reading _ _, .fails => some .failed
  | _, _ => none

def setStep (pid : Nat) (files : Directory Name Bytes) (key : Name) (value : Bytes) (ns : Nat) :
    Setting → IoResult → Option (Directory Name Bytes × Setting × List (Name × Option Bytes))
  | .creating, .ok _ =>
    let (files,file) := files.create (tempName pid ns) []
    some (files,.writing file 0,[])
  | .writing file written, .ok count =>
    let rest := value.drop written
    if rest = [] then some (files,.renamingTemp,[])
    else if count = 0 then none
    else some (files.put file (writeAt (files.contents file) written (rest.take count)),
      .writing file (written + (rest.take count).length),[])
  | .renamingTemp, .ok _ =>
    match files.rename (tempName pid ns) (encodeKey key) with
    | some files => some (files,.returned true,[(key,some value)])
    | none => some (files,.cleaning,[])
  | .cleaning, .ok _ => some (files.remove (tempName pid ns),.returned false,[])
  | .creating, .fails | .writing _ _, .fails | .cleaning, .fails => some (files,.returned false,[])
  | .renamingTemp, .fails => some (files,.cleaning,[])
  | .returned _, _ => none

def deleteStep (files : Directory Name Bytes) (key : Name) :
    Deleting → IoResult → Option (Directory Name Bytes × Deleting × List (Name × Option Bytes))
  | .removing, .ok _ => some (files.remove (encodeKey key),.returned true,[(key,none)])
  | .removing, .fails => some (files,.returned false,[])
  | .returned _, _ => none

def callStep (pid : Nat) (files : Directory Name Bytes) (call : StorageCall) (result : IoResult) :
    Option (Directory Name Bytes × StorageCall × List (Name × Option Bytes)) :=
  match call with
  | .get key now => (getStep files key now result).map fun now => (files,.get key now,[])
  | .set key value ns now => (setStep pid files key value ns now result).map fun (files,now,changes) =>
      (files,.set key value ns now,changes)
  | .delete key now => (deleteStep files key now result).map fun (files,now,changes) =>
      (files,.delete key now,changes)

def step (s : FileStorage) : StorageLabel → Option FileStorage
  | .tick ns => some { s with clock := s.clock + ns }
  | .get key => some { s with calls := s.calls ++ [.get key .opening] }
  | .set key value => some { s with calls := s.calls ++ [.set key value s.clock .creating] }
  | .delete key => some { s with calls := s.calls ++ [.delete key .removing] }
  | .io number result => do
    let call ← s.calls[number]?
    let (files,call,changes) ← callStep s.pid s.files call result
    some { s with
      files
      calls := s.calls.set number call
      effective := s.effective ++ changes }

end FileStorage

def lastEffect (effective : List (Name × Option Bytes)) (key : Name) : Option Bytes :=
  (effective.filter fun change => change.1 = key).getLast?.bind Prod.snd

/-- A value that was returned was set under its key before, and a key stores what the last
operation on it that took effect left there. -/
structure FaithfulMap (s : FileStorage) : Prop where
  returned : ∀ key value, StorageCall.get key (.returned (some value)) ∈ s.calls →
    ∃ ns now, StorageCall.set key value ns now ∈ s.calls
  stored : ∀ key, s.files.find (encodeKey key) = lastEffect s.effective key

def StorageCall.holds (ns : Nat) : StorageCall → Bool
  | .set _ _ held now => decide (held = ns) && !(now matches .returned _)
  | _ => false

def ReadingsApart (s : FileStorage) (label : StorageLabel) (_ : FileStorage) : Prop :=
  match label with
  | .set _ _ => ∀ call ∈ s.calls, call.holds s.clock = false
  | _ => True

instance (s : FileStorage) (label : StorageLabel) (after : FileStorage) :
    Decidable (ReadingsApart s label after) := by
  unfold ReadingsApart
  split <;> infer_instance

theorem digitsInjective {a b : Nat} (same : Nat.toDigits 10 a = Nat.toDigits 10 b) : a = b := by
  have read := congrArg (Nat.ofDigitChars 10 · 0) same
  simpa only [Nat.ofDigitChars_ten_toDigits] using read

theorem tempInjective {pid a b : Nat} (same : tempName pid a = tempName pid b) : a = b := by
  have tail := List.append_cancel_left same
  injection tail with _ digits
  exact digitsInjective digits

theorem tempKey (pid ns : Nat) (key : Name) : tempName pid ns ≠ encodeKey key := by
  intro same
  have dot : '.' ∈ tempName pid ns := List.mem_cons_self
  exact encodeKeyDot key (same ▸ dot)

theorem keyApart {a b : Name} (apart : a ≠ b) : encodeKey a ≠ encodeKey b :=
  fun same => apart (encodeKeyInjective same)

structure Apart (pid : Nat) (own : Option Nat) (files after : Directory Name Bytes) : Prop where
  proper : after.Proper
  next : files.next ≤ after.next
  temps : ∀ ns, some ns ≠ own → after.names (tempName pid ns) = files.names (tempName pid ns)
  contents : ∀ file, file < files.next → (∀ ns ∈ own, files.names (tempName pid ns) ≠ some file) →
    after.contents file = files.contents file
  unnamed : ∀ ns ∈ own, ∀ file, file < files.next → files.names (tempName pid ns) ≠ some file →
    after.names (tempName pid ns) ≠ some file

section Operations
variable {pid ns : Nat} {files : Directory Name Bytes}

theorem apartSame (proper : files.Proper) : Apart pid none files files :=
  ⟨proper,Nat.le_refl _,fun _ _ => rfl,fun _ _ _ => rfl,nofun⟩

theorem ownTemp {other : Nat} (apart : some other ≠ some ns) : tempName pid other ≠ tempName pid ns :=
  fun same => apart (congrArg some (tempInjective same))

theorem apartCreate (proper : files.Proper) :
    Apart pid (some ns) files (files.create (tempName pid ns) []).1 := by
  have created := Directory.createCreated proper (tempName pid ns) []
  refine ⟨created.proper,created.next,fun other apart => created.others _ (ownTemp apart),?_,?_⟩
  · intro file old away
    exact created.kept file old (away ns rfl)
  · rintro _ ⟨⟩ file old away found
    obtain rfl := Option.some.inj (created.named.symm.trans found)
    rcases created.fresh with was | late
    · exact away was
    · exact absurd old (Nat.not_lt.mpr late)

theorem apartPut (proper : files.Proper) {file : Nat} (here : files.names (tempName pid ns) = some file)
    (value : Bytes) : Apart pid (some ns) files (files.put file value) := by
  refine ⟨Directory.putProper proper file value,Nat.le_refl _,fun _ _ => rfl,?_,fun _ _ _ _ away => away⟩
  intro other _ away
  refine Function.update_of_ne ?_ ..
  rintro rfl
  exact away ns rfl here

theorem apartRename (proper : files.Proper) {key : Name} {file : Nat} {after : Directory Name Bytes}
    (renamed : files.Renamed (tempName pid ns) (encodeKey key) file after) :
    Apart pid (some ns) files after := by
  refine ⟨renamed.proper proper,Nat.le_of_eq renamed.next.symm,?_,fun _ _ _ => by rw [renamed.contents],?_⟩
  · intro other apart
    rw [renamed.names,if_neg (tempKey pid other key),if_neg (ownTemp apart)]
  · rintro _ ⟨⟩ other _ _ found
    rw [renamed.names,if_neg (tempKey pid ns key),if_pos rfl] at found
    cases found

theorem apartCleanup (proper : files.Proper) :
    Apart pid (some ns) files (files.remove (tempName pid ns)) := by
  refine ⟨Directory.removeProper proper _,Nat.le_refl _,?_,fun _ _ _ => rfl,?_⟩
  · intro other apart
    rw [Directory.removeNames,if_neg (ownTemp apart)]
  · rintro _ ⟨⟩ other _ _ found
    rw [Directory.removeNames,if_pos rfl] at found
    cases found

theorem apartDelete (proper : files.Proper) (key : Name) :
    Apart pid none files (files.remove (encodeKey key)) := by
  refine ⟨Directory.removeProper proper _,Nat.le_refl _,?_,fun _ _ _ => rfl,nofun⟩
  intro other _
  rw [Directory.removeNames,if_neg (tempKey pid other key)]

end Operations

theorem lastEffectNext (effective : List (Name × Option Bytes)) (key other : Name)
    (value : Option Bytes) : lastEffect (effective ++ [(key,value)]) other =
      if other = key then value else lastEffect effective other := by
  unfold lastEffect
  rw [List.filter_append]
  split
  · rename_i same
    have kept : [(key,value)].filter (fun change => decide (change.1 = other)) = [(key,value)] := by
      simp [same]
    rw [kept,List.getLast?_concat]
    rfl
  · rename_i apart
    have dropped : [(key,value)].filter (fun change => decide (change.1 = other)) = [] := by
      simp [Ne.symm apart]
    rw [dropped,List.append_nil]

def FileStorage.Wrote (s : FileStorage) (key : Name) (value : Bytes) : Prop :=
  ∃ ns now, StorageCall.set key value ns now ∈ s.calls

def CallSound (pid : Nat) (files : Directory Name Bytes) (wrote : Name → Bytes → Prop) :
    StorageCall → Prop
  | .set _ value ns (.writing file written) => files.names (tempName pid ns) = some file ∧
      written ≤ value.length ∧ files.contents file = value.take written
  | .set _ value ns .renamingTemp => ∃ file, files.names (tempName pid ns) = some file ∧
      files.contents file = value
  | .get key (.reading file got) => file < files.next ∧
      (∀ ns, files.names (tempName pid ns) ≠ some file) ∧
      got = (files.contents file).take got.length ∧ wrote key (files.contents file)
  | .get key (.returned (some value)) => wrote key value
  | _ => True

theorem holdsWriting {key : Name} {value : Bytes} {ns : Nat} {now : Setting}
    (unfinished : ∀ ok, now ≠ .returned ok) : (StorageCall.set key value ns now).holds ns = true := by
  cases now with
  | returned ok => exact absurd rfl (unfinished ok)
  | creating | writing | renamingTemp | cleaning => simp [StorageCall.holds]

theorem callKept {pid : Nat} {own : Option Nat} {files after : Directory Name Bytes}
    {wrote wrote' : Name → Bytes → Prop} (apart : Apart pid own files after) (proper : files.Proper)
    (more : ∀ key value, wrote key value → wrote' key value) {call : StorageCall}
    (other : ∀ ns ∈ own, call.holds ns = false) (sound : CallSound pid files wrote call) :
    CallSound pid after wrote' call := by
  -- the temporary name of an unfinished `set` is not the operation's own
  have elsewhere {key value ns now} (same : call = .set key value ns now)
      (unfinished : ∀ ok, now ≠ .returned ok) {file : Nat}
      (here : files.names (tempName pid ns) = some file) :
      after.names (tempName pid ns) = some file ∧ after.contents file = files.contents file := by
    have mine : ∀ ns' ∈ own, ns' ≠ ns := by
      rintro ns' mem rfl
      have held := other ns' mem
      rw [same,holdsWriting unfinished] at held
      cases held
    refine ⟨(apart.temps ns fun own_ => mine ns own_.symm rfl).trans here,?_⟩
    refine apart.contents file (proper.bounded _ _ here) fun ns' mem found => ?_
    exact mine ns' mem (tempInjective (proper.once _ _ _ found here))
  cases call with
  | set key value ns now =>
    cases now with
    | writing file written =>
      obtain ⟨here,fits,contents⟩ := sound
      obtain ⟨named,same⟩ := elsewhere rfl nofun here
      exact ⟨named,fits,same.trans contents⟩
    | renamingTemp =>
      obtain ⟨file,here,contents⟩ := sound
      obtain ⟨named,same⟩ := elsewhere rfl nofun here
      exact ⟨file,named,same.trans contents⟩
    | creating | cleaning | returned => trivial
  | get key now =>
    cases now with
    | reading file got =>
      obtain ⟨old,unnamed,prefix_,source⟩ := sound
      have same := apart.contents file old fun ns _ => unnamed ns
      refine ⟨Nat.lt_of_lt_of_le old apart.next,fun ns => ?_,?_,?_⟩
      · by_cases own_ : some ns = own
        · exact apart.unnamed ns own_.symm file old (unnamed ns)
        · rw [apart.temps ns own_]
          exact unnamed ns
      · rw [same]
        exact prefix_
      · rw [same]
        exact more key _ source
    | returned value =>
      cases value with
      | none => trivial
      | some value => exact more key value sound
    | opening | failed => trivial
  | delete key now => trivial

structure StorageSound (s : FileStorage) : Prop where
  proper : s.files.Proper
  holders : ∀ (i j ns : Nat) (a b : StorageCall), s.calls[i]? = some a → s.calls[j]? = some b →
    a.holds ns = true → b.holds ns = true → i = j
  calls : ∀ call ∈ s.calls, CallSound s.pid s.files s.Wrote call
  stored : ∀ key, s.files.find (encodeKey key) = lastEffect s.effective key
  sources : ∀ key value, s.files.find (encodeKey key) = some value → s.Wrote key value

theorem soundFaithful {s : FileStorage} (sound : StorageSound s) : FaithfulMap s :=
  ⟨fun _ _ mem => sound.calls _ mem,sound.stored⟩

theorem newStorageSound (pid : Nat) : StorageSound (FileStorage.new pid) :=
  ⟨Directory.emptyProper [],nofun,nofun,fun _ => rfl,nofun⟩

theorem startSound {s : FileStorage} (sound : StorageSound s) {call : StorageCall}
    (fresh : ∀ ns, call.holds ns = true → ∀ other ∈ s.calls, other.holds ns = false)
    (idle : ∀ wrote, CallSound s.pid s.files wrote call) :
    StorageSound { s with calls := s.calls ++ [call] } := by
  have wrote {key value} (old : s.Wrote key value) :
      FileStorage.Wrote { s with calls := s.calls ++ [call] } key value := by
    obtain ⟨ns,now,mem⟩ := old
    exact ⟨ns,now,List.mem_append_left _ mem⟩
  refine ⟨sound.proper,?_,?_,sound.stored,fun key value found => wrote (sound.sources key value found)⟩
  · intro i j ns a b here there holdsA holdsB
    have last {i : Nat} {a : StorageCall} (found : (s.calls ++ [call])[i]? = some a) :
        s.calls[i]? = some a ∨ i = s.calls.length ∧ a = call := by
      rw [List.getElem?_append] at found
      split at found
      · exact .inl found
      · obtain ⟨place,rfl⟩ := List.getElem?_eq_some_iff.mp found
        rw [List.length_singleton] at place
        exact .inr ⟨by omega,List.getElem_singleton _⟩
    rcases last here with oldA | ⟨placeA,rfl⟩ <;> rcases last there with oldB | ⟨placeB,rfl⟩
    · exact sound.holders i j ns a b oldA oldB holdsA holdsB
    · rw [fresh ns holdsB a (List.mem_of_getElem? oldA)] at holdsA
      cases holdsA
    · rw [fresh ns holdsA b (List.mem_of_getElem? oldB)] at holdsB
      cases holdsB
    · rw [placeA,placeB]
  · intro other mem
    rcases List.mem_append.mp mem with old | new
    · exact callKept (apartSame sound.proper) sound.proper (fun _ _ => wrote) nofun
        (sound.calls other old)
    · rw [List.mem_singleton.mp new]
      exact idle _

theorem findKept {pid : Nat} {own : Option Nat} {files after : Directory Name Bytes} {key : Name}
    (proper : files.Proper) (apart : Apart pid own files after)
    (names : after.names (encodeKey key) = files.names (encodeKey key)) :
    after.find (encodeKey key) = files.find (encodeKey key) := by
  unfold Directory.find
  rw [names]
  cases here : files.names (encodeKey key) with
  | none => rfl
  | some file =>
    refine congrArg some (apart.contents file (proper.bounded _ _ here) fun ns _ found => ?_)
    exact tempKey pid ns key (proper.once _ _ _ found here)

structure Operation (s : FileStorage) (call : StorageCall) (files : Directory Name Bytes)
    (after : StorageCall) (changes : List (Name × Option Bytes)) : Prop where
  apart : ∃ own, Apart s.pid own s.files files ∧ ∀ ns ∈ own, call.holds ns = true
  holds : ∀ ns, after.holds ns = true → call.holds ns = true
  same : ∀ key value ns now, call = .set key value ns now → ∃ now, after = .set key value ns now
  now : ∀ wrote : Name → Bytes → Prop, (∀ key value, s.Wrote key value → wrote key value) →
    CallSound s.pid files wrote after
  stored : ∀ key, files.find (encodeKey key) = lastEffect (s.effective ++ changes) key
  sources : ∀ key value, files.find (encodeKey key) = some value → s.Wrote key value

theorem operationSound {s : FileStorage} (sound : StorageSound s) {number : Nat}
    {call after : StorageCall} {files : Directory Name Bytes} {changes : List (Name × Option Bytes)}
    (here : s.calls[number]? = some call) (operation : Operation s call files after changes) :
    StorageSound { s with
      files
      calls := s.calls.set number after
      effective := s.effective ++ changes } := by
  obtain ⟨⟨own,apart,mine⟩,holds,same,now,stored,sources⟩ := operation
  have inside := (List.getElem?_eq_some_iff.mp here).1
  have found {i : Nat} {a : StorageCall} (at_ : (s.calls.set number after)[i]? = some a) :
      i = number ∧ a = after ∨ i ≠ number ∧ s.calls[i]? = some a := by
    by_cases place : i = number
    · subst place
      rw [List.getElem?_set_self inside] at at_
      exact .inl ⟨rfl,(Option.some.inj at_).symm⟩
    · rw [List.getElem?_set_ne (Ne.symm place)] at at_
      exact .inr ⟨place,at_⟩
  have wrote {key value} (old : s.Wrote key value) :
      ∃ ns now, StorageCall.set key value ns now ∈ s.calls.set number after := by
    obtain ⟨ns,was,mem⟩ := old
    obtain ⟨i,at_⟩ := List.mem_iff_getElem?.mp mem
    by_cases place : i = number
    · subst place
      obtain ⟨later,made⟩ := same key value ns was (Option.some.inj (here.symm.trans at_))
      exact ⟨ns,later,made ▸ List.mem_set inside _⟩
    · refine ⟨ns,was,List.mem_iff_getElem?.mpr ⟨i,?_⟩⟩
      rw [List.getElem?_set_ne (Ne.symm place)]
      exact at_
  refine ⟨apart.proper,?_,?_,stored,fun key value there => wrote (sources key value there)⟩
  · intro i j ns a b hereA hereB holdsA holdsB
    rcases found hereA with ⟨placeA,rfl⟩ | ⟨_,oldA⟩ <;> rcases found hereB with ⟨placeB,rfl⟩ | ⟨_,oldB⟩
    · rw [placeA,placeB]
    · exact placeA.trans (sound.holders number j ns call b here oldB (holds ns holdsA) holdsB)
    · exact (sound.holders i number ns a call oldA here holdsA (holds ns holdsB)).trans placeB.symm
    · exact sound.holders i j ns a b oldA oldB holdsA holdsB
  · intro other mem
    obtain ⟨i,at_⟩ := List.mem_iff_getElem?.mp mem
    rcases found at_ with ⟨_,rfl⟩ | ⟨place,old⟩
    · exact now _ fun _ _ => wrote
    · refine callKept apart sound.proper (fun _ _ => wrote) (fun ns own_ => ?_)
        (sound.calls other (List.mem_of_getElem? old))
      -- the reading is that of the call which is being served
      by_contra held
      exact place (sound.holders i number ns other call old here
        (Bool.not_eq_false _ ▸ held) (mine ns own_))

section Kept
variable {s : FileStorage} (sound : StorageSound s)
include sound

theorem unchangedStored {own : Option Nat} {files : Directory Name Bytes}
    (apart : Apart s.pid own s.files files)
    (names : ∀ key, files.names (encodeKey key) = s.files.names (encodeKey key)) :
    (∀ key, files.find (encodeKey key) = lastEffect (s.effective ++ []) key) ∧
    ∀ key value, files.find (encodeKey key) = some value → s.Wrote key value := by
  have kept (key : Name) := findKept sound.proper apart (names key)
  refine ⟨fun key => ?_,fun key value found => ?_⟩
  · rw [List.append_nil,kept]
    exact sound.stored key
  · rw [kept] at found
    exact sound.sources key value found

theorem getOperation {key : Name} {now after : Getting} {result : IoResult}
    (mem : StorageCall.get key now ∈ s.calls)
    (stepped : FileStorage.getStep s.files key now result = some after) :
    Operation s (.get key now) s.files (.get key after) [] := by
  have apart := @apartSame s.pid s.files sound.proper
  obtain ⟨stored,sources⟩ := unchangedStored sound apart fun _ => rfl
  refine ⟨⟨none,apart,nofun⟩,nofun,nofun,fun wrote more => ?_,stored,sources⟩
  cases now with
  | opening =>
    cases result with
    | ok count =>
      simp only [FileStorage.getStep] at stepped
      split at stepped <;> cases stepped
      · rename_i file here
        refine ⟨sound.proper.bounded _ _ here,fun ns found => ?_,rfl,more key _ ?_⟩
        · exact tempKey s.pid ns key (sound.proper.once _ _ _ found here)
        · refine sound.sources key _ ?_
          rw [Directory.find,here]
          rfl
      · trivial
    | fails =>
      cases stepped
      trivial
  | reading file got =>
    obtain ⟨old,unnamed,prefix_,source⟩ := sound.calls _ mem
    cases result with
    | ok count =>
      simp only [FileStorage.getStep] at stepped
      split at stepped
      · rename_i all
        cases stepped
        -- nothing is left to read
        have short := List.drop_eq_nil_iff.mp all
        have whole : got = s.files.contents file := by
          rw [prefix_]
          exact List.take_of_length_le short
        exact whole ▸ more key _ source
      split at stepped
      · cases stepped
      · cases stepped
        refine ⟨old,unnamed,?_,more key _ source⟩
        generalize s.files.contents file = contents at prefix_ ⊢
        rw [List.length_append,List.take_add,← prefix_,List.length_take]
        congr 1
        rw [List.take_eq_take_iff]
        omega
    | fails =>
      cases stepped
      trivial
  | returned value => cases result <;> cases stepped
  | failed => cases result <;> cases stepped

theorem deleteOperation {key : Name} {now after : Deleting} {result : IoResult}
    {files : Directory Name Bytes} {changes : List (Name × Option Bytes)}
    (stepped : FileStorage.deleteStep s.files key now result = some (files,after,changes)) :
    Operation s (.delete key now) files (.delete key after) changes := by
  cases now with
  | removing =>
    cases result with
    | ok count =>
      cases stepped
      have apart := @apartDelete s.pid s.files sound.proper key
      have find (other : Name) : (s.files.remove (encodeKey key)).find (encodeKey other) =
          if other = key then none else s.files.find (encodeKey other) := by
        split
        · rename_i same
          rw [Directory.find,Directory.removeNames,same,if_pos rfl]
          rfl
        · rename_i differs
          refine findKept sound.proper apart ?_
          rw [Directory.removeNames,if_neg (keyApart differs)]
      refine ⟨⟨none,apart,nofun⟩,nofun,nofun,fun _ _ => trivial,?_,?_⟩
      · intro other
        rw [find,lastEffectNext,sound.stored]
      · intro other value found
        rw [find] at found
        split at found
        · cases found
        · exact sound.sources other value found
    | fails =>
      cases stepped
      have apart := @apartSame s.pid s.files sound.proper
      obtain ⟨stored,sources⟩ := unchangedStored sound apart fun _ => rfl
      exact ⟨⟨none,apart,nofun⟩,nofun,nofun,fun _ _ => trivial,stored,sources⟩
  | returned ok => cases result <;> cases stepped

omit sound in
theorem writeAtNext (value : Bytes) {written : Nat} (fits : written ≤ value.length) (count : Nat) :
    writeAt (value.take written) written ((value.drop written).take count) =
      value.take (written + ((value.drop written).take count).length) := by
  have long : (value.take written).length = written := by
    rw [List.length_take]
    omega
  have none_ : (value.take written).drop (written + ((value.drop written).take count).length) = [] :=
    List.drop_eq_nil_of_le (by omega)
  rw [writeAt,long,Nat.sub_self,List.replicate_zero,List.append_nil,List.take_take,Nat.min_self,
    none_,List.append_nil,List.take_add,List.length_take]
  congr 1
  rw [List.take_eq_take_iff]
  omega

theorem unchangedSet {key : Name} {value : Bytes} {ns : Nat} {now after : Setting}
    {files : Directory Name Bytes} (unfinished : ∀ ok, now ≠ .returned ok)
    (apart : Apart s.pid (some ns) s.files files)
    (names : ∀ key, files.names (encodeKey key) = s.files.names (encodeKey key))
    (stands : ∀ wrote, CallSound s.pid files wrote (.set key value ns after)) :
    Operation s (.set key value ns now) files (.set key value ns after) [] := by
  obtain ⟨stored,sources⟩ := unchangedStored sound apart names
  have held := @holdsWriting key value ns now unfinished
  refine ⟨⟨some ns,apart,?_⟩,?_,?_,fun wrote _ => stands wrote,stored,sources⟩
  · rintro _ ⟨⟩
    exact held
  · intro other holds
    have same : ns = other := by
      simp only [StorageCall.holds,Bool.and_eq_true,decide_eq_true_eq] at holds
      exact holds.1
    exact same ▸ held
  · rintro _ _ _ _ ⟨⟩
    exact ⟨after,rfl⟩

theorem setRenamed {key : Name} {value : Bytes} {ns file : Nat} {files : Directory Name Bytes}
    (mem : StorageCall.set key value ns .renamingTemp ∈ s.calls)
    (here : s.files.names (tempName s.pid ns) = some file)
    (contents : s.files.contents file = value)
    (renamed : s.files.rename (tempName s.pid ns) (encodeKey key) = some files) :
    Operation s (.set key value ns .renamingTemp) files (.set key value ns (.returned true))
      [(key,some value)] := by
  obtain ⟨found,moved⟩ := Directory.renameRenamed renamed
  obtain rfl := Option.some.inj (here.symm.trans moved.here)
  have apart := apartRename sound.proper moved
  have find (other : Name) : files.find (encodeKey other) =
      if other = key then some value else s.files.find (encodeKey other) := by
    split
    · rename_i same
      rw [Directory.find,moved.names,same,if_pos rfl,moved.contents,← contents]
      rfl
    · rename_i differs
      refine findKept sound.proper apart ?_
      rw [moved.names,if_neg (keyApart differs),if_neg (tempKey s.pid ns other).symm]
  refine ⟨⟨some ns,apart,?_⟩,?_,?_,fun _ _ => trivial,?_,?_⟩
  · rintro _ ⟨⟩
    exact holdsWriting nofun
  · intro other holds
    simp [StorageCall.holds] at holds
  · rintro _ _ _ _ ⟨⟩
    exact ⟨_,rfl⟩
  · intro other
    rw [find,lastEffectNext,sound.stored]
  · intro other stored there
    rw [find] at there
    split at there
    · rename_i same
      cases there
      exact ⟨ns,.renamingTemp,same ▸ mem⟩
    · exact sound.sources other stored there

theorem setOperation {key : Name} {value : Bytes} {ns : Nat} {now after : Setting} {result : IoResult}
    {files : Directory Name Bytes} {changes : List (Name × Option Bytes)}
    (mem : StorageCall.set key value ns now ∈ s.calls)
    (stepped : FileStorage.setStep s.pid s.files key value ns now result = some (files,after,changes)) :
    Operation s (.set key value ns now) files (.set key value ns after) changes := by
  have still : Apart s.pid (some ns) s.files s.files :=
    ⟨sound.proper,Nat.le_refl _,fun _ _ => rfl,fun _ _ _ => rfl,fun _ _ _ _ away => away⟩
  cases now with
  | creating =>
    cases result with
    | ok count =>
      cases stepped
      have created := Directory.createCreated sound.proper (tempName s.pid ns) []
      refine unchangedSet sound nofun (apartCreate sound.proper) ?_ ?_
      · exact fun key => created.others _ (tempKey s.pid ns key).symm
      · exact fun _ => ⟨created.named,Nat.zero_le _,created.blank⟩
    | fails =>
      cases stepped
      exact unchangedSet sound nofun still (fun _ => rfl) fun _ => trivial
  | writing file written =>
    obtain ⟨here,fits,contents⟩ := sound.calls _ mem
    cases result with
    | ok count =>
      simp only [FileStorage.setStep] at stepped
      split at stepped
      · rename_i all
        cases stepped
        refine unchangedSet sound nofun still (fun _ => rfl) fun _ => ⟨file,here,?_⟩
        rw [contents]
        exact List.take_of_length_le (List.drop_eq_nil_iff.mp all)
      split at stepped
      · cases stepped
      · cases stepped
        refine unchangedSet sound nofun (apartPut sound.proper here _) (fun _ => rfl) fun _ =>
          ⟨here,?_,?_⟩
        · rw [List.length_take,List.length_drop]
          omega
        · refine (Function.update_self ..).trans ?_
          rw [contents]
          exact writeAtNext value fits count
    | fails =>
      cases stepped
      exact unchangedSet sound nofun still (fun _ => rfl) fun _ => trivial
  | renamingTemp =>
    obtain ⟨file,here,contents⟩ := sound.calls _ mem
    cases result with
    | ok count =>
      simp only [FileStorage.setStep] at stepped
      split at stepped
      · rename_i files renamed
        cases stepped
        exact setRenamed sound mem here contents renamed
      · cases stepped
        exact unchangedSet sound nofun still (fun _ => rfl) fun _ => trivial
    | fails =>
      cases stepped
      exact unchangedSet sound nofun still (fun _ => rfl) fun _ => trivial
  | cleaning =>
    cases result with
    | ok count =>
      cases stepped
      refine unchangedSet sound nofun (apartCleanup sound.proper) (fun key => ?_) fun _ => trivial
      rw [Directory.removeNames,if_neg (tempKey s.pid ns key).symm]
    | fails =>
      cases stepped
      exact unchangedSet sound nofun still (fun _ => rfl) fun _ => trivial
  | returned ok => cases result <;> cases stepped

end Kept

theorem storageStep {s after : FileStorage} {label : StorageLabel} (stepped : s.step label = some after)
    (sound : StorageSound s) (apart : ReadingsApart s label after) : StorageSound after := by
  cases label with
  | tick ns =>
    cases stepped
    exact ⟨sound.proper,sound.holders,sound.calls,sound.stored,sound.sources⟩
  | get key =>
    cases stepped
    exact startSound sound nofun fun _ => trivial
  | set key value =>
    cases stepped
    refine startSound sound (fun ns holds other mem => ?_) fun _ => trivial
    have same : s.clock = ns := by
      simp only [StorageCall.holds,Bool.and_eq_true,decide_eq_true_eq] at holds
      exact holds.1
    exact same ▸ apart other mem
  | delete key =>
    cases stepped
    exact startSound sound nofun fun _ => trivial
  | io number result =>
    obtain ⟨call,here,rest⟩ := Option.bind_eq_some_iff.mp stepped
    obtain ⟨⟨files,next,changes⟩,moved,last⟩ := Option.bind_eq_some_iff.mp rest
    cases last
    have mem := List.mem_of_getElem? here
    refine operationSound sound here ?_
    cases call with
    | get key now =>
      obtain ⟨now,read,made⟩ := Option.map_eq_some_iff.mp moved
      cases made
      exact getOperation sound mem read
    | set key value ns now =>
      obtain ⟨⟨files,now,changes⟩,written,made⟩ := Option.map_eq_some_iff.mp moved
      cases made
      exact setOperation sound mem written
    | delete key now =>
      obtain ⟨⟨files,now,changes⟩,removed,made⟩ := Option.map_eq_some_iff.mp moved
      cases made
      exact deleteOperation sound removed

theorem storageFaithful {pid : Nat} {labels : List StorageLabel}
    (apart : Transition.Along FileStorage.step ReadingsApart (FileStorage.new pid) labels) :
    Transition.Along FileStorage.step (fun _ _ after => FaithfulMap after) (FileStorage.new pid)
      labels :=
  Transition.along _ StorageSound (fun _ _ _ stepped sound may =>
    have next := storageStep stepped sound may
    ⟨next,soundFaithful next⟩) (newStorageSound pid) apart

theorem twoReadingsFaithful : Transition.Along FileStorage.step (fun _ _ after => FaithfulMap after)
    (FileStorage.new 7) [.set ['a'] [1],.tick 1,.set ['b'] [2],.io 0 (.ok 0),.io 1 (.ok 0),
      .io 0 (.ok 1),.io 1 (.ok 1),.io 0 (.ok 0),.io 1 (.ok 0),.io 0 (.ok 0),.io 1 (.ok 0),
      .get ['a'],.io 2 (.ok 0),.io 2 (.ok 1),.io 2 (.ok 0)] :=
  storageFaithful (by decide)

/- Two `set`s draw one reading and share a temporary file: the first renames what the second wrote,
and its key reads as a value that was never set under it. -/
theorem sharedReadingMixes : ¬ ∀ labels, Transition.Along FileStorage.step
    (fun _ _ after => FaithfulMap after) (FileStorage.new 7) labels := by
  intro faithful
  obtain ⟨s,ends_,read,unset⟩ : ∃ s, Transition.final FileStorage.step (FileStorage.new 7)
      [.set ['a'] [1],.set ['b'] [2],.io 0 (.ok 0),.io 0 (.ok 1),.io 0 (.ok 0),.io 1 (.ok 0),
        .io 1 (.ok 1),.io 0 (.ok 0),.get ['a'],.io 2 (.ok 0),.io 2 (.ok 1),.io 2 (.ok 0)] = some s ∧
      StorageCall.get ['a'] (.returned (some [2])) ∈ s.calls ∧
      s.calls.all (fun call => match call with
        | .set key value _ _ => decide ((key,value) ≠ (['a'],[2]))
        | _ => true) = true :=
    ⟨_,rfl,by decide,by decide⟩
  obtain ⟨ns,now,mem⟩ := (Transition.alongFinal _ (faithful _) ⟨nofun,fun _ => rfl⟩ ends_).returned
    ['a'] [2] read
  have differs : ((['a'],[2]) : Name × Bytes) ≠ (['a'],[2]) :=
    of_decide_eq_true (List.all_eq_true.mp unset _ mem)
  exact differs rfl

end TelephoneBooth
