import TelephoneBooth.Directory

/-! A directory on a disk behind a cache. What bears a name, and what a file holds, is certain to be
on the disk only after a sync: a power loss brings the names back to where they were at some moment
since the directory was last synced, and leaves anything in a file written since its own sync.

Files are published in it: written under a hidden name, synced, and renamed to a visible one. -/
namespace TelephoneBooth

/- `past` are the names since the last sync of the directory, newest first; a rename is one change
of them. -/
structure Volume (ν β : Type*) where
  live : Directory ν β
  past : List (ν → Option Nat)
  synced : Nat → Bool

namespace Volume
variable {ν β : Type*}

def empty (blank : β) : Volume ν β := ⟨.empty blank,[],fun _ => true⟩

def images (v : Volume ν β) : List (ν → Option Nat) := v.live.names :: v.past

section Steps
variable [DecidableEq ν]

def create (v : Volume ν β) (name : ν) (blank : β) : Volume ν β × Nat :=
  let (live,file) := v.live.create name blank
  (⟨live,v.images,Function.update v.synced file false⟩,file)

def put (v : Volume ν β) (file : Nat) (contents : β) : Volume ν β :=
  { v with live := v.live.put file contents, synced := Function.update v.synced file false }

def sync (v : Volume ν β) (file : Nat) : Volume ν β :=
  { v with synced := Function.update v.synced file true }

def rename (v : Volume ν β) (source target : ν) : Option (Volume ν β) :=
  (v.live.rename source target).map fun live => ⟨live,v.images,v.synced⟩

def remove (v : Volume ν β) (name : ν) : Volume ν β := ⟨v.live.remove name,v.images,v.synced⟩

end Steps

def syncNames (v : Volume ν β) : Volume ν β := { v with past := [] }

def lose (v : Volume ν β) (names : ν → Option Nat) (garbage : Nat → β) : Volume ν β where
  live :=
    { names
      contents := fun file => if v.synced file then v.live.contents file else garbage file
      next := v.live.next }
  past := []
  synced := fun _ => true

def Settled (visible : ν → Bool) (v : Volume ν β) (file : Nat) : Prop :=
  file < v.live.next ∧ ∀ name, visible name = false → v.live.names name ≠ some file

/-- Behind a visible name, now or after a power loss, is a synced file that `good` allows under that
name and that bears no hidden name. -/
structure Whole (visible : ν → Bool) (good : ν → β → Prop) (v : Volume ν β) : Prop where
  proper : ∀ names ∈ v.images, Directory.Proper { v.live with names }
  held : ∀ names ∈ v.images, ∀ name file, visible name = true → names name = some file →
    v.synced file = true ∧ good name (v.live.contents file) ∧ Settled visible v file

def Kept (v : Volume ν β) (name : ν) : Prop := ∀ names ∈ v.images, names name ≠ none

structure Frame (visible : ν → Bool) (own : ν → Prop) (v after : Volume ν β) : Prop where
  next : v.live.next ≤ after.live.next
  settled : ∀ file, Settled visible v file → Settled visible after file ∧
    after.live.contents file = v.live.contents file ∧
    (v.synced file = true → after.synced file = true)
  names : ∀ name, ¬ own name → after.live.names name = v.live.names name
  others : ∀ name file, ¬ own name → v.live.names name = some file →
    after.live.contents file = v.live.contents file ∧
    (v.synced file = true → after.synced file = true)

variable {visible : ν → Bool} {good : ν → β → Prop} {v : Volume ν β}

theorem emptyWhole (blank : β) : Whole visible good (empty blank : Volume ν β) := by
  refine ⟨?_,?_⟩
  · intro names mem
    obtain rfl := List.mem_singleton.mp mem
    exact Directory.emptyProper blank
  · intro names mem name file _ found
    obtain rfl := List.mem_singleton.mp mem
    cases found

theorem Whole.live (whole : Whole visible good v) : v.live.Proper :=
  whole.proper _ List.mem_cons_self

theorem Whole.found (whole : Whole visible good v) {name : ν} {file : Nat}
    (seen : visible name = true) (found : v.live.names name = some file) :
    v.synced file = true ∧ good name (v.live.contents file) ∧ Settled visible v file :=
  whole.held _ List.mem_cons_self name file seen found

theorem Whole.mono {good' : ν → β → Prop} (whole : Whole visible good v)
    (more : ∀ name contents, good name contents → good' name contents) : Whole visible good' v :=
  ⟨whole.proper,fun names mem name file seen found =>
    have here := whole.held names mem name file seen found
    ⟨here.1,more _ _ here.2.1,here.2.2⟩⟩

theorem Frame.same (own : ν → Prop) : Frame visible own v v :=
  ⟨Nat.le_refl _,fun _ settled => ⟨settled,rfl,fun synced => synced⟩,fun _ _ => rfl,
    fun _ _ _ _ => ⟨rfl,fun synced => synced⟩⟩

theorem Frame.mono {own own' : ν → Prop} {after : Volume ν β} (frame : Frame visible own v after)
    (more : ∀ name, own name → own' name) : Frame visible own' v after :=
  ⟨frame.next,frame.settled,fun name other => frame.names name fun mine => other (more name mine),
    fun name file other => frame.others name file fun mine => other (more name mine)⟩

theorem Whole.change {own : ν → Prop} {after : Volume ν β} (whole : Whole visible good v)
    (frame : Frame visible own v after)
    (images : ∀ names ∈ after.images, names = after.live.names ∨ names ∈ v.images)
    (proper : after.live.Proper)
    (here : ∀ name file, own name → visible name = true → after.live.names name = some file →
      after.synced file = true ∧ good name (after.live.contents file) ∧ Settled visible after file) :
    Whole visible good after := by
  have kept {names : ν → Option Nat} (old : names ∈ v.images) {name : ν} {file : Nat}
      (seen : visible name = true) (found : names name = some file) :
      after.synced file = true ∧ good name (after.live.contents file) ∧ Settled visible after file := by
    obtain ⟨synced,fits,settled⟩ := whole.held names old name file seen found
    obtain ⟨still,same,stays⟩ := frame.settled file settled
    exact ⟨stays synced,same ▸ fits,still⟩
  refine ⟨?_,?_⟩
  · intro names mem
    rcases images names mem with rfl | old
    · exact proper
    · have was := whole.proper names old
      exact ⟨fun name file found => Nat.lt_of_lt_of_le (was.bounded name file found) frame.next,
        was.once⟩
  · intro names mem name file seen found
    rcases images names mem with rfl | old
    · by_cases mine : own name
      · exact here name file mine seen found
      · exact kept List.mem_cons_self seen ((frame.names name mine).symm.trans found)
    · exact kept old seen found

theorem changedImages {live : Directory ν β} {synced : Nat → Bool} {names : ν → Option Nat}
    (mem : names ∈ (⟨live,v.images,synced⟩ : Volume ν β).images) :
    names = live.names ∨ names ∈ v.images :=
  List.mem_cons.mp mem

section Hidden
variable {name : ν} {file : Nat}

theorem putFrame (proper : v.live.Proper) (hidden : visible name = false)
    (here : v.live.names name = some file) (contents : β) :
    Frame visible (· = name) v (v.put file contents) := by
  have kept {other : Nat} (away : other ≠ file) :
      (v.put file contents).live.contents other = v.live.contents other ∧
        (v.put file contents).synced other = v.synced other :=
    ⟨Function.update_of_ne away ..,Function.update_of_ne away ..⟩
  refine ⟨Nat.le_refl _,?_,fun _ _ => rfl,?_⟩
  · intro other settled
    have away : other ≠ file := by
      rintro rfl
      exact settled.2 name hidden here
    exact ⟨settled,(kept away).1,fun synced => (kept away).2.trans synced⟩
  · intro another other apart there
    have away := proper.apart (Ne.symm apart) here there
    exact ⟨(kept away).1,fun synced => (kept away).2.trans synced⟩

theorem putWhole (whole : Whole visible good v) (hidden : visible name = false)
    (here : v.live.names name = some file) (contents : β) :
    Whole visible good (v.put file contents) := by
  refine whole.change (putFrame whole.live hidden here contents) (fun _ mem => .inr mem)
    (Directory.putProper whole.live file contents) ?_
  rintro _ _ rfl seen
  exact absurd (hidden.symm.trans seen) Bool.false_ne_true

theorem syncFrame (own : ν → Prop) (file : Nat) : Frame visible own v (v.sync file) := by
  have kept {other : Nat} (synced : v.synced other = true) : (v.sync file).synced other = true := by
    show Function.update v.synced file true other = true
    rw [Function.update_apply]
    split
    · rfl
    · exact synced
  exact ⟨Nat.le_refl _,fun _ settled => ⟨settled,rfl,kept⟩,fun _ _ => rfl,fun _ _ _ _ => ⟨rfl,kept⟩⟩

theorem syncWhole (whole : Whole visible good v) (file : Nat) : Whole visible good (v.sync file) :=
  whole.change (syncFrame (fun _ => False) file) (fun _ mem => .inr mem) whole.live
    (fun _ _ own => own.elim)

variable [DecidableEq ν]

theorem createFrame (proper : v.live.Proper) (hidden : visible name = false) (blank : β) :
    Frame visible (· = name) v (v.create name blank).1 := by
  have created := Directory.createCreated proper name blank
  have kept {other : Nat} (old : other < v.live.next) (away : v.live.names name ≠ some other) :
      (v.create name blank).1.live.contents other = v.live.contents other ∧
        (v.synced other = true → (v.create name blank).1.synced other = true) := by
    refine ⟨created.kept other old away,fun synced => (Function.update_of_ne ?_ ..).trans synced⟩
    rintro rfl
    rcases created.fresh with was | late
    · exact away was
    · exact absurd old (Nat.not_lt.mpr late)
  refine ⟨created.next,?_,fun other apart => created.others other apart,?_⟩
  · intro other ⟨old,unnamed⟩
    refine ⟨⟨Nat.lt_of_lt_of_le old created.next,?_⟩,kept old (unnamed name hidden)⟩
    intro another away found
    by_cases same : another = name
    · subst same
      obtain rfl := Option.some.inj (created.named.symm.trans found)
      rcases created.fresh with was | late
      · exact unnamed another hidden was
      · exact absurd old (Nat.not_lt.mpr late)
    · exact unnamed another away ((created.others another same).symm.trans found)
  · intro another other apart there
    exact kept (proper.bounded another other there)
      (fun here => proper.apart (Ne.symm apart) here there rfl)

theorem createWhole (whole : Whole visible good v) (hidden : visible name = false) (blank : β) :
    Whole visible good (v.create name blank).1 := by
  have created := Directory.createCreated whole.live name blank
  refine whole.change (createFrame whole.live hidden blank) (fun _ => changedImages)
    created.proper ?_
  rintro _ _ rfl seen
  exact absurd (hidden.symm.trans seen) Bool.false_ne_true

end Hidden

section Shown
variable [DecidableEq ν] {source target : ν} {file : Nat} {live : Directory ν β}

theorem renameFrame (seen : visible target = true)
    (renamed : v.live.Renamed source target file live) :
    Frame visible (fun name => name = source ∨ name = target) v ⟨live,v.images,v.synced⟩ := by
  have same (other : Nat) : live.contents other = v.live.contents other := by rw [renamed.contents]
  refine ⟨Nat.le_of_eq renamed.next.symm,?_,?_,fun _ other _ _ => ⟨same other,fun synced => synced⟩⟩
  · intro other ⟨old,unnamed⟩
    refine ⟨⟨Nat.lt_of_lt_of_le old (Nat.le_of_eq renamed.next.symm),?_⟩,same other,
      fun synced => synced⟩
    intro name hidden found
    rw [renamed.names] at found
    split at found
    · rename_i at_
      exact Bool.false_ne_true (hidden.symm.trans (at_ ▸ seen))
    split at found
    · cases found
    · exact unnamed name hidden found
  · intro name apart
    rw [renamed.names,if_neg (fun at_ => apart (.inr at_)),if_neg (fun at_ => apart (.inl at_))]

theorem renameSettled (proper : v.live.Proper) (seen : visible target = true)
    (renamed : v.live.Renamed source target file live) :
    Settled visible (⟨live,v.images,v.synced⟩ : Volume ν β) file := by
  have bounded := proper.bounded source file renamed.here
  refine ⟨Nat.lt_of_lt_of_le bounded (Nat.le_of_eq renamed.next.symm),?_⟩
  intro name hidden found
  rw [renamed.names] at found
  split at found
  · rename_i at_
    exact Bool.false_ne_true (hidden.symm.trans (at_ ▸ seen))
  split at found
  · cases found
  · rename_i apart
    exact apart (proper.once name source file found renamed.here)

theorem renameWhole (whole : Whole visible good v) (hidden : visible source = false)
    (seen : visible target = true) (renamed : v.live.Renamed source target file live)
    (synced : v.synced file = true) (fits : good target (v.live.contents file)) :
    Whole visible good ⟨live,v.images,v.synced⟩ := by
  refine whole.change (renameFrame seen renamed) (fun _ => changedImages)
    (renamed.proper whole.live) ?_
  rintro name other (rfl | rfl) looks found
  · exact absurd (hidden.symm.trans looks) Bool.false_ne_true
  · rw [renamed.names,if_pos rfl] at found
    obtain rfl := Option.some.inj found
    refine ⟨synced,?_,renameSettled whole.live seen renamed⟩
    show good name (live.contents file)
    rw [renamed.contents]
    exact fits

theorem removeFrame (name : ν) : Frame visible (· = name) v (v.remove name) := by
  refine ⟨Nat.le_refl _,?_,fun other apart => (Directory.removeNames name other).trans (if_neg apart),
    fun _ _ _ _ => ⟨rfl,fun synced => synced⟩⟩
  intro file ⟨old,unnamed⟩
  refine ⟨⟨old,fun other hidden found => ?_⟩,rfl,fun synced => synced⟩
  rw [remove,Directory.removeNames] at found
  split at found
  · cases found
  · exact unnamed other hidden found

theorem removeWhole (whole : Whole visible good v) (name : ν) :
    Whole visible good (v.remove name) := by
  refine whole.change (removeFrame name) (fun _ => changedImages)
    (Directory.removeProper whole.live name) ?_
  rintro _ file rfl _ found
  rw [remove,Directory.removeNames,if_pos rfl] at found
  cases found

end Shown

theorem syncNamesFrame (own : ν → Prop) : Frame visible own v v.syncNames :=
  ⟨Nat.le_refl _,fun _ settled => ⟨settled,rfl,fun synced => synced⟩,fun _ _ => rfl,
    fun _ _ _ _ => ⟨rfl,fun synced => synced⟩⟩

theorem syncNamesWhole (whole : Whole visible good v) : Whole visible good v.syncNames := by
  refine whole.change (syncNamesFrame fun _ => False) (fun _ mem => .inl ?_) whole.live
    (fun _ _ own => own.elim)
  exact List.mem_singleton.mp mem

theorem loseWhole (whole : Whole visible good v) {names : ν → Option Nat} (mem : names ∈ v.images)
    (garbage : Nat → β) : Whole visible good (v.lose names garbage) := by
  have only {other : ν → Option Nat} (here : other ∈ (v.lose names garbage).images) :
      other = names := List.mem_singleton.mp here
  have proper := whole.proper names mem
  refine ⟨?_,?_⟩
  · intro other here
    obtain rfl := only here
    exact ⟨proper.bounded,proper.once⟩
  · intro other here name file seen found
    obtain rfl := only here
    obtain ⟨synced,fits,settled⟩ := whole.held other mem name file seen found
    refine ⟨rfl,?_,settled.1,?_⟩
    · show good name (if v.synced file then v.live.contents file else garbage file)
      rw [if_pos synced]
      exact fits
    · intro hidden away again
      exact Bool.false_ne_true (away.symm.trans (proper.once hidden name file again found ▸ seen))

section Keeping
variable {name : ν}

theorem Kept.live (kept : Kept v name) : v.live.names name ≠ none := kept _ List.mem_cons_self

theorem Kept.change {after : Volume ν β} (kept : Kept v name)
    (images : ∀ names ∈ after.images, names = after.live.names ∨ names ∈ v.images)
    (still : after.live.names name ≠ none) : Kept after name := by
  intro names mem
  rcases images names mem with rfl | old
  · exact still
  · exact kept names old

theorem syncNamesKept (borne : v.live.names name ≠ none) : Kept v.syncNames name := by
  intro names mem
  obtain rfl := List.mem_singleton.mp mem
  exact borne

theorem loseKept (kept : Kept v name) {names : ν → Option Nat} (mem : names ∈ v.images)
    (garbage : Nat → β) : Kept (v.lose names garbage) name := by
  intro other here
  obtain rfl := List.mem_singleton.mp here
  exact kept _ mem

end Keeping

end Volume
end TelephoneBooth
