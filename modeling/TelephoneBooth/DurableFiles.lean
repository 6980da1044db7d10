import TelephoneBooth.FileStorage
import TelephoneBooth.Listing
import TelephoneBooth.Volume

/-! Files that appear whole. `PendingUploadSpool::enqueue` and the end of `finalize_recording` write
a hidden temporary file, sync it, rename it and sync the directory; other tasks remove and read
files beside them. Any operation may fail, the process may be killed, the power may go. -/
namespace TelephoneBooth.DurableFiles

def hidden : Name → Bool
  | '.' :: _ => true
  | _ => false

def visible (name : Name) : Bool := !hidden name

inductive Publishing where
  | creating
  | writing (file written : Nat)
  | syncing (file : Nat)
  | renamingTemp
  | cleaning
  | syncingDir
  | returned (ok : Bool)
  deriving DecidableEq, Repr

inductive FileCall where
  | publish (temp target : Name) (body : Bytes) (now : Publishing)
  | remove (target : Name) (now : Deleting)
  | read (target : Name) (now : Getting)
  deriving DecidableEq, Repr

def FileCall.held : FileCall → Option Name
  | .publish _ _ _ .syncingDir | .publish _ _ _ (.returned _) | .remove _ _ | .read _ _ => none
  | .publish temp _ _ _ => some temp

abbrev Disk := Volume Name Bytes

/- `tidies` is whether the temporary file is removed after a rename that failed. -/
def publishStep (tidies : Bool) (v : Disk) (temp target : Name) (body : Bytes) :
    Publishing → IoResult → Option (Disk × Publishing)
  | .creating, .ok _ =>
    let (v,file) := v.create temp []
    some (v,.writing file 0)
  | .writing file written, .ok count =>
    let rest := body.drop written
    if rest = [] then some (v,.syncing file)
    else if count = 0 then none
    else some (v.put file (writeAt (v.live.contents file) written (rest.take count)),
      .writing file (written + (rest.take count).length))
  | .syncing file, .ok _ => some (v.sync file,.renamingTemp)
  | .renamingTemp, .ok _ =>
    match v.rename temp target with
    | some v => some (v,.syncingDir)
    | none => some (v,if tidies then .cleaning else .returned false)
  | .renamingTemp, .fails => some (v,if tidies then .cleaning else .returned false)
  | .cleaning, .ok _ => some (v.remove temp,.returned false)
  | .syncingDir, .ok _ => some (v.syncNames,.returned true)
  | .creating, .fails | .writing _ _, .fails | .syncing _, .fails | .cleaning, .fails
  | .syncingDir, .fails => some (v,.returned false)
  | .returned _, _ => none

def removeStep (v : Disk) (target : Name) : Deleting → IoResult → Option (Disk × Deleting)
  | .removing, .ok _ => some (v.remove target,.returned true)
  | .removing, .fails => some (v,.returned false)
  | .returned _, _ => none

def readStep (v : Disk) (target : Name) : Getting → IoResult → Option Getting
  | .opening, .ok _ =>
    match v.live.names target with
    | some file => some (.reading file [])
    | none => some (.returned none)
  | .reading file got, .ok count =>
    let rest := (v.live.contents file).drop got.length
    if rest = [] then some (.returned (some got))
    else if count = 0 then none
    else some (.reading file (got ++ rest.take count))
  | .opening, .fails | .reading _ _, .fails => some .failed
  | _, _ => none

def callStep (tidies : Bool) (v : Disk) (call : FileCall) (result : IoResult) :
    Option (Disk × FileCall) :=
  match call with
  | .publish temp target body now =>
    (publishStep tidies v temp target body now result).map fun went =>
      (went.1,.publish temp target body went.2)
  | .remove target now =>
    (removeStep v target now result).map fun went => (went.1,.remove target went.2)
  | .read target now => (readStep v target now result).map fun now => (v,.read target now)

/- `begun` lists what has been given to be published, under its name; no step reads it. -/
structure Files where
  volume : Disk
  calls : List FileCall
  begun : List (Name × Bytes)

inductive Label where
  | publish (temp target : Name) (body : Bytes)
  | remove (target : Name)
  | read (target : Name)
  | io (call : Nat) (result : IoResult)
  | kill
  | lose (image : Nat) (garbage : Nat → Bytes)

namespace Files

def new : Files := ⟨.empty [],[],[]⟩

/- Temporary names are hidden and no two unfinished calls share one; the others are not hidden. -/
def step (tidies : Bool) (s : Files) : Label → Option Files
  | .publish temp target body =>
    if hidden temp = true ∧ visible target = true ∧ ∀ call ∈ s.calls, call.held ≠ some temp then
      some { s with
        calls := s.calls ++ [.publish temp target body .creating]
        begun := s.begun ++ [(target,body)] }
    else none
  | .remove target =>
    if visible target = true then some { s with calls := s.calls ++ [.remove target .removing] }
    else none
  | .read target =>
    if visible target = true then some { s with calls := s.calls ++ [.read target .opening] }
    else none
  | .io number result => do
    let call ← s.calls[number]?
    let (volume,call) ← callStep tidies s.volume call result
    some { s with volume, calls := s.calls.set number call }
  | .kill => some { s with calls := [] }
  | .lose image garbage => do
    let names ← s.volume.images[image]?
    some { s with volume := s.volume.lose names garbage, calls := [] }

end Files

def Files.Begun (s : Files) (name : Name) (bytes : Bytes) : Prop := (name,bytes) ∈ s.begun

def Written (v : Disk) (temp : Name) (body : Bytes) : Publishing → Prop
  | .writing file written => v.live.names temp = some file ∧ written ≤ body.length ∧
      v.live.contents file = body.take written
  | .syncing file => v.live.names temp = some file ∧ v.live.contents file = body
  | .renamingTemp => ∃ file, v.live.names temp = some file ∧ v.live.contents file = body ∧
      v.synced file = true
  | _ => True

def Reads (good : Name → Bytes → Prop) (v : Disk) (target : Name) : Getting → Prop
  | .reading file got => v.Settled visible file ∧ got = (v.live.contents file).take got.length ∧
      good target (v.live.contents file)
  | .returned (some bytes) => good target bytes
  | _ => True

def CallSound (good : Name → Bytes → Prop) (v : Disk) : FileCall → Prop
  | .publish temp target body now => visible temp = false ∧ visible target = true ∧
      good target body ∧ Written v temp body now
  | .remove target _ => visible target = true
  | .read target now => visible target = true ∧ Reads good v target now

def Own (call : FileCall) (name : Name) : Prop := visible name = true ∨ call.held = some name

inductive Change where
  | shows (target : Name) (body : Bytes)
  | removes (target : Name)
  | settles
  deriving DecidableEq, Repr

def FileCall.effect : FileCall → Option Change
  | .publish _ target body .renamingTemp => some (.shows target body)
  | .publish _ _ _ .syncingDir => some .settles
  | .remove target .removing => some (.removes target)
  | _ => none

def effectOf (call : FileCall) : IoResult → Option Change
  | .ok _ => call.effect
  | .fails => none

def Change.under (name : Name) (old : Option Bytes) : Option Change → Option Bytes
  | some (.shows target body) => if name = target then some body else old
  | some (.removes target) => if name = target then none else old
  | some .settles | none => old

structure Went (good : Name → Bytes → Prop) (v : Disk) (call : FileCall) (effect : Option Change)
    (after : Disk) (next : FileCall) : Prop where
  whole : after.Whole visible good
  frame : Volume.Frame visible (Own call) v after
  sound : CallSound good after next
  held : next.held = call.held ∨ next.held = none
  images : ∀ names ∈ after.images,
    names = after.live.names ∨ names ∈ v.images ∧ effect ≠ some .settles
  finds : ∀ name, visible name = true →
    after.live.find name = Change.under name (v.live.find name) effect

section Calls
variable {good : Name → Bytes → Prop} {v after : Disk} {temp target : Name} {body : Bytes}

theorem wentStill (whole : v.Whole visible good) {call next : FileCall} (sound : CallSound good v next)
    (held : next.held = call.held ∨ next.held = none) : Went good v call none v next :=
  ⟨whole,.same _,sound,held,fun _ mem => .inr ⟨mem,Option.some_ne_none _ ∘ Eq.symm⟩,fun _ _ => rfl⟩

theorem findSame {own : Name → Prop} (whole : v.Whole visible good)
    (frame : Volume.Frame visible own v after) {name : Name} (seen : visible name = true)
    (other : ¬ own name) : after.live.find name = v.live.find name := by
  unfold Directory.find
  rw [frame.names name other]
  cases found : v.live.names name with
  | none => rfl
  | some file =>
    obtain ⟨_,_,settled⟩ := whole.found seen found
    exact congrArg some (frame.settled file settled).2.1

theorem wentHidden {now now' : Publishing} (before : v.Whole visible good)
    (whole : after.Whole visible good) (frame : Volume.Frame visible (· = temp) v after)
    (own : (FileCall.publish temp target body now).held = some temp)
    (sound : CallSound good after (.publish temp target body now'))
    (images : ∀ names ∈ after.images, names = after.live.names ∨ names ∈ v.images) :
    Went good v (.publish temp target body now) none after (.publish temp target body now') := by
  refine ⟨whole,frame.mono fun name same => .inr (own.trans (congrArg some same.symm)),sound,?_,
    fun names mem => (images names mem).imp_right fun old => ⟨old,Option.some_ne_none _ ∘ Eq.symm⟩,
    fun name seen => ?_⟩
  · cases now' with
    | syncingDir | returned => exact .inr rfl
    | creating | writing | syncing | renamingTemp | cleaning => exact .inl own.symm
  · exact findSame before frame seen fun same =>
      Bool.false_ne_true (sound.1.symm.trans (same ▸ seen))

theorem publishWent {tidies : Bool} {now now' : Publishing} {result : IoResult}
    (whole : v.Whole visible good) (sound : CallSound good v (.publish temp target body now))
    (stepped : publishStep tidies v temp target body now result = some (after,now')) :
    Went good v (.publish temp target body now)
      (effectOf (.publish temp target body now) result) after (.publish temp target body now') := by
  obtain ⟨away,seen,fits,written⟩ := sound
  have ended (ok : Bool) : Went good v (.publish temp target body now) none v
      (.publish temp target body (.returned ok)) :=
    wentStill whole ⟨away,seen,fits,trivial⟩ (.inr rfl)
  cases now with
  | returned ok => cases stepped
  | creating =>
    cases result with
    | fails =>
      cases stepped
      exact ended false
    | ok count =>
      cases stepped
      have created := Directory.createCreated whole.live temp []
      exact wentHidden whole (Volume.createWhole whole away [])
        (Volume.createFrame whole.live away []) rfl
        ⟨away,seen,fits,created.named,Nat.zero_le _,created.blank⟩ (fun _ => Volume.changedImages)
  | writing file count =>
    obtain ⟨here,bound,contents⟩ := written
    cases result with
    | fails =>
      cases stepped
      exact ended false
    | ok moved =>
      simp only [publishStep] at stepped
      split at stepped
      · rename_i rest
        cases stepped
        have all : v.live.contents file = body := by
          rw [contents]
          exact List.take_of_length_le (List.drop_eq_nil_iff.mp rest)
        exact wentStill whole ⟨away,seen,fits,here,all⟩ (.inl rfl)
      split at stepped
      · cases stepped
      · cases stepped
        refine wentHidden whole (Volume.putWhole whole away here _)
          (Volume.putFrame whole.live away here _) rfl ⟨away,seen,fits,here,?_,?_⟩ (fun _ => .inr)
        · rw [List.length_take,List.length_drop]
          omega
        · refine (Function.update_self ..).trans ?_
          rw [contents]
          exact writeAtNext body bound moved
  | syncing file =>
    obtain ⟨here,contents⟩ := written
    cases result with
    | fails =>
      cases stepped
      exact ended false
    | ok count =>
      cases stepped
      exact wentHidden whole (Volume.syncWhole whole file) (Volume.syncFrame _ file) rfl
        ⟨away,seen,fits,file,here,contents,Function.update_self ..⟩ (fun _ => .inr)
  | renamingTemp =>
    obtain ⟨file,here,contents,synced⟩ := written
    cases result with
    | fails =>
      cases stepped
      cases tidies with
      | false => exact ended false
      | true => exact wentStill whole ⟨away,seen,fits,trivial⟩ (.inl rfl)
    | ok count =>
      simp only [publishStep,Volume.rename,Directory.rename,here,Option.map_some] at stepped
      cases stepped
      have moves : v.live.rename temp target = (some file).map fun file =>
          { v.live with
            names := Function.update (Function.update v.live.names temp none) target (some file) } := by
        rw [Directory.rename,here]
      obtain ⟨_,at_⟩ := Directory.renameRenamed moves
      obtain rfl := Option.some.inj (here.symm.trans at_.here)
      have frame := Volume.renameFrame seen at_
      refine ⟨Volume.renameWhole whole away seen at_ synced (contents ▸ fits),frame.mono ?_,
        ⟨away,seen,fits,trivial⟩,.inr rfl,?_,?_⟩
      · rintro name (rfl | rfl)
        · exact .inr rfl
        · exact .inl seen
      · exact fun _ mem => (Volume.changedImages mem).imp_right fun old =>
          ⟨old,by simp [effectOf,FileCall.effect]⟩
      · intro name looks
        show _ = if name = target then some body else v.live.find name
        split
        · rename_i same
          subst same
          unfold Directory.find
          rw [at_.names,if_pos rfl,at_.contents,Option.map_some,contents]
        · rename_i apart
          refine findSame whole frame looks ?_
          rintro (same | same)
          · exact Bool.false_ne_true (away.symm.trans (same ▸ looks))
          · exact apart same
  | cleaning =>
    cases result with
    | fails =>
      cases stepped
      exact ended false
    | ok count =>
      cases stepped
      exact wentHidden whole (Volume.removeWhole whole temp) (Volume.removeFrame temp) rfl
        ⟨away,seen,fits,trivial⟩ (fun _ => Volume.changedImages)
  | syncingDir =>
    cases result with
    | fails =>
      cases stepped
      exact ended false
    | ok count =>
      cases stepped
      refine ⟨Volume.syncNamesWhole whole,Volume.syncNamesFrame _,⟨away,seen,fits,trivial⟩,.inr rfl,?_,
        fun _ _ => rfl⟩
      exact fun _ mem => .inl (List.mem_singleton.mp mem)

theorem removeWent {now now' : Deleting} {result : IoResult} (whole : v.Whole visible good)
    (seen : visible target = true) (stepped : removeStep v target now result = some (after,now')) :
    Went good v (.remove target now) (effectOf (.remove target now) result) after
      (.remove target now') := by
  cases now with
  | returned ok => cases stepped
  | removing =>
    cases result with
    | fails =>
      cases stepped
      exact wentStill whole seen (.inl rfl)
    | ok count =>
      cases stepped
      have frame : Volume.Frame visible (· = target) v (v.remove target) := Volume.removeFrame target
      refine ⟨Volume.removeWhole whole target,frame.mono ?_,seen,.inl rfl,?_,?_⟩
      · rintro name rfl
        exact .inl seen
      · exact fun _ mem => (Volume.changedImages mem).imp_right fun old =>
          ⟨old,by simp [effectOf,FileCall.effect]⟩
      · intro name looks
        show _ = if name = target then none else v.live.find name
        split
        · rename_i same
          subst same
          unfold Directory.find
          rw [Volume.remove,Directory.removeNames,if_pos rfl,Option.map_none]
        · rename_i apart
          exact findSame whole frame looks apart

theorem readWent {now now' : Getting} {result : IoResult} (whole : v.Whole visible good)
    (sound : CallSound good v (.read target now)) (stepped : readStep v target now result = some now') :
    Went good v (.read target now) (effectOf (.read target now) result) v (.read target now') := by
  obtain ⟨seen,reads⟩ := sound
  have nothing : effectOf (.read target now) result = none := by cases result <;> rfl
  rw [nothing]
  refine wentStill whole ⟨seen,?_⟩ (.inl rfl)
  cases now with
  | failed | returned => cases stepped
  | opening =>
    cases result with
    | fails =>
      cases stepped
      trivial
    | ok count =>
      simp only [readStep] at stepped
      split at stepped <;> cases stepped
      · rename_i file found
        obtain ⟨synced,fits,settled⟩ := whole.found seen found
        exact ⟨settled,rfl,fits⟩
      · trivial
  | reading file got =>
    obtain ⟨settled,front,fits⟩ := reads
    cases result with
    | fails =>
      cases stepped
      trivial
    | ok count =>
      simp only [readStep] at stepped
      split at stepped
      · rename_i rest
        cases stepped
        have all : got = v.live.contents file :=
          front.trans (List.take_of_length_le (List.drop_eq_nil_iff.mp rest))
        exact all ▸ fits
      split at stepped
      · cases stepped
      · cases stepped
        refine ⟨settled,?_,fits⟩
        rw [List.length_append,List.take_add,← front,List.length_take]
        exact congrArg (got ++ ·) (List.take_eq_take_min ..)

theorem callWent {tidies : Bool} {call next : FileCall} {result : IoResult}
    (whole : v.Whole visible good) (sound : CallSound good v call)
    (stepped : callStep tidies v call result = some (after,next)) :
    Went good v call (effectOf call result) after next := by
  cases call with
  | publish temp target body now =>
    obtain ⟨went,done,same⟩ := Option.map_eq_some_iff.mp stepped
    cases same
    exact publishWent whole sound done
  | remove target now =>
    obtain ⟨went,done,same⟩ := Option.map_eq_some_iff.mp stepped
    cases same
    exact removeWent whole sound done
  | read target now =>
    obtain ⟨went,done,same⟩ := Option.map_eq_some_iff.mp stepped
    cases same
    exact readWent whole sound done

theorem publishReturned {tidies : Bool} {now : Publishing} {result : IoResult}
    (stepped : publishStep tidies v temp target body now result = some (after,.returned true)) :
    now = .syncingDir := by
  cases now with
  | syncingDir => rfl
  | returned ok => cases stepped
  | creating | syncing | cleaning => cases result <;> cases stepped
  | writing file written =>
    cases result with
    | fails => cases stepped
    | ok count =>
      simp only [publishStep] at stepped
      split at stepped
      · cases stepped
      · split at stepped <;> cases stepped
  | renamingTemp =>
    cases result with
    | fails => cases tidies <;> cases stepped
    | ok count =>
      simp only [publishStep] at stepped
      split at stepped
      · cases stepped
      · cases tidies <;> cases stepped

theorem publishShown {tidies : Bool} {now : Publishing} {result : IoResult}
    (stepped : publishStep tidies v temp target body now result = some (after,.syncingDir)) :
    effectOf (.publish temp target body now) result = some (.shows target body) := by
  cases now with
  | returned ok => cases stepped
  | creating | syncing | cleaning | syncingDir => cases result <;> cases stepped
  | writing file written =>
    cases result with
    | fails => cases stepped
    | ok count =>
      simp only [publishStep] at stepped
      split at stepped
      · cases stepped
      · split at stepped <;> cases stepped
  | renamingTemp =>
    cases result with
    | fails => cases tidies <;> cases stepped
    | ok count => rfl

theorem nextPublish {tidies : Bool} {call : FileCall} {result : IoResult} {now : Publishing}
    (stepped : callStep tidies v call result = some (after,.publish temp target body now)) :
    ∃ was, call = .publish temp target body was ∧
      publishStep tidies v temp target body was result = some (after,now) := by
  cases call with
  | publish source name bytes was =>
    obtain ⟨went,done,same⟩ := Option.map_eq_some_iff.mp stepped
    obtain ⟨volumes,calls⟩ := Prod.mk.inj same
    injection calls with temps names bodies nows
    subst temps names bodies
    exact ⟨was,rfl,done.trans (congrArg some (Prod.ext volumes nows))⟩
  | remove name was =>
    obtain ⟨went,_,same⟩ := Option.map_eq_some_iff.mp stepped
    cases (Prod.mk.inj same).2
  | read name was =>
    obtain ⟨went,_,same⟩ := Option.map_eq_some_iff.mp stepped
    cases (Prod.mk.inj same).2

theorem nextRemove {tidies : Bool} {call : FileCall} {result : IoResult} {now : Deleting}
    (stepped : callStep tidies v call result = some (after,.remove target now)) :
    ∃ was, call = .remove target was := by
  cases call with
  | publish source name bytes was =>
    obtain ⟨went,_,same⟩ := Option.map_eq_some_iff.mp stepped
    cases (Prod.mk.inj same).2
  | remove name was =>
    obtain ⟨went,_,same⟩ := Option.map_eq_some_iff.mp stepped
    injection (Prod.mk.inj same).2 with names
    exact ⟨was,names ▸ rfl⟩
  | read name was =>
    obtain ⟨went,_,same⟩ := Option.map_eq_some_iff.mp stepped
    cases (Prod.mk.inj same).2

theorem callKept {good' : Name → Bytes → Prop} {call other : FileCall}
    (frame : Volume.Frame visible (Own call) v after)
    (more : ∀ name bytes, good name bytes → good' name bytes)
    (apart : ∀ temp, other.held = some temp → call.held ≠ some temp)
    (sound : CallSound good v other) : CallSound good' after other := by
  cases other with
  | remove target now => exact sound
  | publish temp target body now =>
    obtain ⟨away,seen,fits,written⟩ := sound
    have kept {file : Nat} (held : (FileCall.publish temp target body now).held = some temp)
        (here : v.live.names temp = some file) : after.live.names temp = some file ∧
          after.live.contents file = v.live.contents file ∧
          (v.synced file = true → after.synced file = true) := by
      have foreign : ¬ Own call temp := by
        rintro (looks | own)
        · exact Bool.false_ne_true (away.symm.trans looks)
        · exact apart temp held own
      exact ⟨(frame.names temp foreign).trans here,frame.others temp file foreign here⟩
    refine ⟨away,seen,more target body fits,?_⟩
    cases now with
    | writing file count =>
      obtain ⟨here,bound,contents⟩ := written
      obtain ⟨still,same,_⟩ := kept rfl here
      exact ⟨still,bound,same.trans contents⟩
    | syncing file =>
      obtain ⟨here,contents⟩ := written
      obtain ⟨still,same,_⟩ := kept rfl here
      exact ⟨still,same.trans contents⟩
    | renamingTemp =>
      obtain ⟨file,here,contents,synced⟩ := written
      obtain ⟨still,same,stays⟩ := kept rfl here
      exact ⟨file,still,same.trans contents,stays synced⟩
    | creating | cleaning | syncingDir | returned => trivial
  | read target now =>
    obtain ⟨seen,reads⟩ := sound
    refine ⟨seen,?_⟩
    cases now with
    | reading file got =>
      obtain ⟨settled,front,fits⟩ := reads
      obtain ⟨still,same,_⟩ := frame.settled file settled
      exact ⟨still,same ▸ front,same ▸ more target _ fits⟩
    | returned value =>
      cases value with
      | none => trivial
      | some bytes => exact more target bytes reads
    | opening | failed => trivial

end Calls

structure Sound (s : Files) : Prop where
  whole : s.volume.Whole visible s.Begun
  calls : ∀ call ∈ s.calls, CallSound s.Begun s.volume call
  apart : (s.calls.filterMap FileCall.held).Nodup

theorem newSound : Sound .new := ⟨Volume.emptyWhole [],fun _ mem => (by cases mem),List.nodup_nil⟩

def Files.effect (s : Files) : Label → Option Change
  | .io number result => s.calls[number]?.bind fun call => effectOf call result
  | _ => none

section Steps
variable {tidies : Bool} {s t : Files}

structure Operated (s : Files) (number : Nat) (result : IoResult) (t : Files)
    (call next : FileCall) : Prop where
  here : s.calls[number]? = some call
  begun : t.begun = s.begun
  calls : t.calls = s.calls.set number next
  went : Went s.Begun s.volume call (effectOf call result) t.volume next

inductive Steps (tidies : Bool) (s : Files) : Label → Files → Prop where
  | publish (temp target body) (away : visible temp = false) (seen : visible target = true)
      (free : ∀ call ∈ s.calls, call.held ≠ some temp) :
      Steps tidies s (.publish temp target body)
        ⟨s.volume,s.calls ++ [.publish temp target body .creating],s.begun ++ [(target,body)]⟩
  | remove (target) (seen : visible target = true) :
      Steps tidies s (.remove target) ⟨s.volume,s.calls ++ [.remove target .removing],s.begun⟩
  | read (target) (seen : visible target = true) :
      Steps tidies s (.read target) ⟨s.volume,s.calls ++ [.read target .opening],s.begun⟩
  | io (number result call next t) (io : Operated s number result t call next)
      (done : callStep tidies s.volume call result = some (t.volume,next)) :
      Steps tidies s (.io number result) t
  | kill : Steps tidies s .kill ⟨s.volume,[],s.begun⟩
  | lose (image garbage names) (mem : names ∈ s.volume.images) :
      Steps tidies s (.lose image garbage) ⟨s.volume.lose names garbage,[],s.begun⟩

theorem stepCases {label : Label} (sound : Sound s) (stepped : s.step tidies label = some t) :
    Steps tidies s label t := by
  cases label with
  | publish temp target body =>
    simp only [Files.step] at stepped
    split at stepped <;> cases stepped
    rename_i may
    have away : visible temp = false := by rw [visible,may.1]; rfl
    exact .publish temp target body away may.2.1 may.2.2
  | remove target =>
    simp only [Files.step] at stepped
    split at stepped <;> cases stepped
    exact .remove target (by assumption)
  | read target =>
    simp only [Files.step] at stepped
    split at stepped <;> cases stepped
    exact .read target (by assumption)
  | io number result =>
    simp only [Files.step,Option.bind_eq_bind,Option.bind_eq_some_iff] at stepped
    obtain ⟨call,here,went,done,same⟩ := stepped
    cases same
    have standing := sound.calls call (List.mem_of_getElem? here)
    exact .io number result call went.2 _ ⟨here,rfl,rfl,callWent sound.whole standing done⟩ done
  | kill =>
    cases stepped
    exact .kill
  | lose image garbage =>
    obtain ⟨names,found,same⟩ := Option.bind_eq_some_iff.mp stepped
    cases same
    exact .lose image garbage names (List.mem_of_getElem? found)

theorem ioSound {number : Nat} {result : IoResult} {call next : FileCall} (sound : Sound s)
    (io : Operated s number result t call next) : Sound t := by
  obtain ⟨front,back,split_,placed⟩ := Listing.setSplit io.here
  have same : t.Begun = s.Begun := by
    funext name bytes
    simp only [Files.Begun,io.begun]
  have around := sound.apart
  rw [split_,List.filterMap_append,List.filterMap_cons] at around
  have now := io.calls.trans (placed next)
  refine ⟨same ▸ io.went.whole,?_,?_⟩
  · intro other mem
    rw [now,List.mem_append,List.mem_cons] at mem
    have foreign (among : other ∈ front ∨ other ∈ back) : CallSound t.Begun t.volume other := by
      have before := sound.calls other (by
        rw [split_,List.mem_append,List.mem_cons]
        exact among.imp_right .inr)
      refine callKept io.went.frame (fun _ _ => same ▸ id) (fun temp held own => ?_) before
      rw [own] at around
      have mine : temp ∈ other.held := held
      rcases among with early | late
      · exact List.disjoint_of_nodup_append around (List.mem_filterMap.mpr ⟨other,early,mine⟩)
          List.mem_cons_self
      · exact (List.nodup_cons.mp (List.nodup_append.mp around).2.1).1
          (List.mem_filterMap.mpr ⟨other,late,mine⟩)
    rcases mem with early | rfl | late
    · exact foreign (.inl early)
    · exact same ▸ io.went.sound
    · exact foreign (.inr late)
  · rw [now,List.filterMap_append,List.filterMap_cons]
    rcases io.went.held with stays | gone
    · rw [stays]
      exact around
    · rw [gone]
      refine around.sublist (List.Sublist.append (List.Sublist.refl _) ?_)
      cases call.held with
      | none => exact List.Sublist.refl _
      | some temp => exact List.sublist_cons_self ..

theorem addSound {call : FileCall} {begun : List (Name × Bytes)} (sound : Sound s)
    (more : ∀ entry ∈ s.begun, entry ∈ begun)
    (standing : CallSound (Files.Begun ⟨s.volume,s.calls,begun⟩) s.volume call)
    (fresh : ∀ temp, call.held = some temp → ∀ other ∈ s.calls, other.held ≠ some temp) :
    Sound ⟨s.volume,s.calls ++ [call],begun⟩ := by
  have wider (name : Name) (bytes : Bytes) (old : s.Begun name bytes) : (name,bytes) ∈ begun :=
    more _ old
  refine ⟨sound.whole.mono wider,?_,?_⟩
  · intro other mem
    rcases List.mem_append.mp mem with old | new_
    · -- The calls that were running see an unchanged volume: nobody has taken a step.
      have calm : Volume.Frame visible (Own (FileCall.remove [] .removing)) s.volume s.volume :=
        .same _
      exact callKept calm wider (fun _ _ own => by cases own) (sound.calls other old)
    · obtain rfl := List.mem_singleton.mp new_
      exact standing
  · rw [List.filterMap_append]
    cases held : call.held with
    | none =>
      simp only [List.filterMap_cons,held,List.filterMap_nil,List.append_nil]
      exact sound.apart
    | some temp =>
      simp only [List.filterMap_cons,held,List.filterMap_nil]
      refine List.nodup_append.mpr ⟨sound.apart,List.nodup_singleton _,?_⟩
      intro a old b only same
      obtain rfl := List.mem_singleton.mp only
      obtain ⟨other,mem,its⟩ := List.mem_filterMap.mp old
      exact fresh b held other mem (its.trans (congrArg some same))

theorem stepSound (sound : Sound s) {label : Label} (stepped : s.step tidies label = some t) :
    Sound t := by
  cases stepCases sound stepped with
  | publish temp target body away seen free =>
    refine addSound sound (fun entry old => List.mem_append_left _ old)
      ⟨away,seen,List.mem_append_right _ List.mem_cons_self,trivial⟩ ?_
    rintro _ ⟨⟩ other mem
    exact free other mem
  | remove target seen => exact addSound sound (fun _ old => old) seen (fun _ held => (by cases held))
  | read target seen =>
    exact addSound sound (fun _ old => old) ⟨seen,trivial⟩ (fun _ held => (by cases held))
  | io number result call next t io done => exact ioSound sound io
  | kill => exact ⟨sound.whole,fun _ mem => (by cases mem),List.nodup_nil⟩
  | lose image garbage names mem =>
    exact ⟨Volume.loseWhole sound.whole mem garbage,fun _ mem => (by cases mem),List.nodup_nil⟩

theorem underNone {effect : Option Change} {name : Name} {old : Option Bytes}
    (stays : effect ≠ some (.removes name)) (lost : Change.under name old effect = none) :
    old = none := by
  cases effect with
  | none => exact lost
  | some effect =>
    cases effect with
    | settles => exact lost
    | shows target body =>
      simp only [Change.under] at lost
      split at lost
      · cases lost
      · exact lost
    | removes target =>
      simp only [Change.under] at lost
      split at lost
      · rename_i same
        exact absurd (same ▸ rfl) stays
      · exact lost

theorem operatedBorne {number : Nat} {result : IoResult} {call next : FileCall} {name : Name}
    (io : Operated s number result t call next) (seen : visible name = true)
    (stays : s.effect (.io number result) ≠ some (.removes name))
    (borne : s.volume.live.names name ≠ none) : t.volume.live.names name ≠ none := by
  rw [Files.effect,io.here,Option.bind_some] at stays
  intro gone
  have lost := io.went.finds name seen
  rw [Directory.find,gone] at lost
  exact borne (Option.map_eq_none_iff.mp (underNone stays lost.symm))

theorem stepKept {name : Name} (sound : Sound s) (seen : visible name = true) {label : Label}
    (stepped : s.step tidies label = some t) (stays : s.effect label ≠ some (.removes name))
    (kept : s.volume.Kept name) : t.volume.Kept name := by
  cases stepCases sound stepped with
  | publish | remove | read | kill => exact kept
  | lose image garbage names mem => exact Volume.loseKept kept mem garbage
  | io number result call next t io done =>
    exact kept.change (fun names mem => (io.went.images names mem).imp_right And.left)
      (operatedBorne io seen stays kept.live)

theorem publishedKept {number : Nat} {result : IoResult} {temp target : Name} {body : Bytes}
    (sound : Sound s) (here : s.calls[number]? = some (.publish temp target body .syncingDir))
    (stepped : s.step tidies (.io number result) = some t)
    (done : t.calls[number]? = some (.publish temp target body (.returned true)))
    (borne : s.volume.live.names target ≠ none) : t.volume.Kept target := by
  cases stepCases sound stepped with | io number result call next t io operated => ?_
  obtain rfl := Option.some.inj (here.symm.trans io.here)
  rw [io.calls,List.getElem?_set_self (List.getElem?_eq_some_iff.mp here).1] at done
  obtain rfl := Option.some.inj done
  cases result with
  | fails => simp [callStep,publishStep] at operated
  | ok count =>
    have synced : s.volume.syncNames = t.volume := by
      simpa [callStep,publishStep] using operated
    rw [← synced]
    exact Volume.syncNamesKept borne

end Steps

end TelephoneBooth.DurableFiles
