import Mathlib.Data.String.Basic
import TelephoneBooth.Rotation
import TelephoneBooth.Transition
import TelephoneBooth.UploadStep

/-! The sweeps of `spawn_upload_replay` while it is alone with the spool and calls are accepted:
the worker's steps, what they attempt, and why every pending entry has its turn. -/
namespace TelephoneBooth
open Uploads (replayOrder)

inductive SweepLabel where
  | reply (reply : ReplayReply)
  | removed (removed : Bool)

/- The worker sets `last_attempt`; `uploads` tells that `upload_recording` is then called, for
which the size of the recording must be known or readable. -/
structure Attempt where
  entry : SpoolEntry
  uploads : Bool

def Replay.isUploading : Replay → Bool
  | .uploading _ _ _ _ => true
  | _ => false

def Replay.unattempted : Replay → List SpoolEntry
  | .sweeping rest | .uploading _ _ _ rest | .dequeuing _ rest => rest
  | .inspecting entry rest | .pending entry rest => entry :: rest
  | _ => []

def Uploads.sweepStep (u : Uploads) : SweepLabel → Option Uploads
  | .reply reply => u.replayStep true reply
  | .removed removed =>
    match u.replay with
    | .dequeuing entry _ => u.dequeued ⟨none,entry.recordingId⟩ removed
    | _ => none

def noteSweeps (sweeps : List (List Attempt)) (u after : Uploads) : List (List Attempt) :=
  match u.replay, after.replay, sweeps with
  | .scanning, .sweeping _, _ => [] :: sweeps
  | .pending entry _, replay, current :: older =>
    (current ++ [⟨entry,replay.isUploading⟩]) :: older
  | _, _, _ => sweeps

def watchSweeps (w : Uploads × List (List Attempt)) (label : SweepLabel) :
    Option (Uploads × List (List Attempt)) :=
  (w.1.sweepStep label).map fun after => (after,noteSweeps w.2 w.1 after)

/- No blocking job fails, and the scan skips no entry: what `enqueue` wrote under the digest of a
recording parses, and its name does not start with a dot. -/
def SweepLabel.reads : SweepLabel → Prop
  | .reply answer => answer.failed = false ∧ answer.unreadable = []
  | .removed _ => True

instance : (label : SweepLabel) → Decidable label.reads
  | .reply answer => inferInstanceAs (Decidable (answer.failed = false ∧ answer.unreadable = []))
  | .removed _ => isTrue trivial

structure Uploads.Rested (u : Uploads) : Prop where
  resting : u.replay = .resting
  unclaimed : u.spool.inFlight = []
  distinct : (u.spool.entries.map SpoolEntry.recordingId).Nodup

theorem enqueueDistinct {s : Spool} (distinct : (s.entries.map SpoolEntry.recordingId).Nodup)
    (entry : SpoolEntry) : ((s.enqueue entry).entries.map SpoolEntry.recordingId).Nodup := by
  refine List.nodup_cons.mpr ⟨fun mem => ?_,?_⟩
  · obtain ⟨old,kept,same⟩ := List.mem_map.mp mem
    have other := (List.mem_filter.mp kept).2
    simp [same] at other
  · exact distinct.sublist (List.filter_sublist.map _)

theorem replayOrderRotates (last : Option RecordingId) (entries : List SpoolEntry) :
    replayOrder last entries = Rotation.rotateAfter SpoolEntry.recordingId last
      (entries.insertionSort fun a b => a.recordingId ≤ b.recordingId) := by
  cases last with
  | none => rfl
  | some last =>
    unfold replayOrder Rotation.rotateAfter
    congr

theorem replayOrderPerm (last : Option RecordingId) (entries : List SpoolEntry) :
    (replayOrder last entries).Perm entries := by
  rw [replayOrderRotates]
  exact (Rotation.rotateAfterPerm _ _ _).trans (List.perm_insertionSort _ _)

theorem replayOrderBefore (last : Option RecordingId) {entries : List SpoolEntry}
    (distinct : (entries.map SpoolEntry.recordingId).Nodup) :
    (replayOrder last entries).Pairwise fun a b =>
      Rotation.Before last a.recordingId b.recordingId := by
  rw [replayOrderRotates]
  apply Rotation.rotateAfterBefore
  let sorted := entries.insertionSort fun a b => a.recordingId ≤ b.recordingId
  have ordered : sorted.Pairwise fun a b => a.recordingId ≤ b.recordingId :=
    List.pairwise_insertionSort _ _
  have apart : sorted.Pairwise fun a b => a.recordingId ≠ b.recordingId :=
    List.pairwise_map.mp (((List.perm_insertionSort _ entries).map _).nodup_iff.mpr distinct)
  exact (ordered.and apart).imp fun both => lt_of_le_of_ne both.1 both.2

structure Underway (last : Option RecordingId) (entries : List SpoolEntry)
    (attempted unattempted : List SpoolEntry) (u : Uploads) : Prop where
  distinct : (entries.map SpoolEntry.recordingId).Nodup
  order : attempted ++ unattempted = replayOrder last entries
  anchor : u.lastAttempt = (attempted.getLast?.map SpoolEntry.recordingId).or last
  fewer : u.spool.entries.Sublist entries
  kept : ∀ entry ∈ entries, entry ∉ attempted → entry ∈ u.spool.entries

namespace Underway
variable {last : Option RecordingId} {entries attempted rest : List SpoolEntry}
  {entry : SpoolEntry} {u u' : Uploads}

theorem begins (distinct : (u.spool.entries.map SpoolEntry.recordingId).Nodup) :
    Underway u.lastAttempt u.spool.entries [] (replayOrder u.lastAttempt u.spool.entries) u :=
  ⟨distinct,rfl,rfl,.refl _,fun _ mem _ => mem⟩

theorem keeps (under : Underway last entries attempted rest u)
    (same : u'.spool.entries = u.spool.entries) (attempt : u'.lastAttempt = u.lastAttempt) :
    Underway last entries attempted rest u' :=
  ⟨under.distinct,under.order,attempt.trans under.anchor,same ▸ under.fewer,same ▸ under.kept⟩

theorem found (under : Underway last entries attempted rest u) :
    ∀ entry ∈ attempted ++ rest, entry ∈ entries := by
  intro entry mem
  rw [under.order] at mem
  exact (replayOrderPerm _ _).mem_iff.mp mem

theorem once (under : Underway last entries attempted rest u) : (attempted ++ rest).Nodup := by
  rw [under.order]
  exact (replayOrderPerm _ _).nodup_iff.mpr (List.Nodup.of_map _ under.distinct)

theorem nextPending (under : Underway last entries attempted (entry :: rest) u) :
    entry ∈ u.spool.entries := by
  have mem : entry ∈ attempted ++ entry :: rest :=
    List.mem_append_right _ List.mem_cons_self
  refine under.kept entry (under.found entry mem) fun had => ?_
  exact (List.nodup_append.mp under.once).2.2 entry had entry List.mem_cons_self rfl

theorem attempt (under : Underway last entries attempted (entry :: rest) u)
    (same : u'.spool.entries = u.spool.entries)
    (attempt : u'.lastAttempt = some entry.recordingId) :
    Underway last entries (attempted ++ [entry]) rest u' := by
  refine ⟨under.distinct,?_,?_,same ▸ under.fewer,?_⟩
  · rw [← under.order,List.append_assoc]
    rfl
  · rw [attempt,List.getLast?_concat]
    rfl
  · intro other mem skipped
    rw [same]
    exact under.kept other mem fun had => skipped (List.mem_append_left _ had)

theorem remove (under : Underway last entries attempted rest u) (had : entry ∈ attempted)
    (same : u'.spool.entries = u.spool.entries.filter fun e => e.recordingId ≠ entry.recordingId)
    (attempt : u'.lastAttempt = u.lastAttempt) : Underway last entries attempted rest u' := by
  refine ⟨under.distinct,under.order,attempt.trans under.anchor,?_,?_⟩
  · rw [same]
    exact List.filter_sublist.trans under.fewer
  · intro other mem skipped
    rw [same]
    refine List.mem_filter.mpr ⟨under.kept other mem skipped,decide_eq_true fun alike => ?_⟩
    have own : entry ∈ entries := under.found entry (List.mem_append_left _ had)
    exact skipped (List.inj_on_of_nodup_map under.distinct mem own alike ▸ had)

theorem ends (under : Underway last entries attempted rest u) (over_ : rest = [] ∨ attempted ≠ []) :
    Rotation.Sweep SpoolEntry.recordingId last entries attempted u.lastAttempt u.spool.entries where
  order := by
    refine ⟨rest,?_,?_⟩ <;> rw [under.order]
    · exact replayOrderPerm _ _
    · exact replayOrderBefore _ under.distinct
  progress some_ := by
    rcases over_ with rfl | had
    · have all := under.order
      rw [List.append_nil] at all
      rw [all]
      intro empty
      have same := replayOrderPerm last entries
      rw [empty] at same
      exact some_ (List.nil_perm.mp same)
    · exact had
  anchor x latest := by
    rw [under.anchor,latest]
    rfl
  fewer := under.fewer
  kept := under.kept

theorem apart (under : Underway last entries attempted rest u) :
    (attempted.map SpoolEntry.recordingId).Nodup := by
  have all : ((attempted ++ rest).map SpoolEntry.recordingId).Nodup := by
    rw [under.order]
    exact ((replayOrderPerm _ _).map _).nodup_iff.mpr under.distinct
  exact all.sublist ((List.sublist_append_left _ _).map _)

end Underway

def attemptedEntries (sweep : List Attempt) : List SpoolEntry := sweep.map Attempt.entry

def Replay.current : Replay → Option SpoolEntry
  | .uploading entry _ _ _ | .dequeuing entry _ => some entry
  | _ => none

def Midway (last : Option RecordingId) (entries unattempted : List SpoolEntry)
    (current : Option SpoolEntry) (u : Uploads) (sweeps : List (List Attempt)) : Prop :=
  ∃ sweep older between found, sweeps = sweep :: older ∧
    Rotation.Sweeps SpoolEntry.recordingId last entries (older.map attemptedEntries)
      between found ∧
    Underway between found (attemptedEntries sweep) unattempted u ∧
    ∀ entry ∈ current, entry ∈ attemptedEntries sweep

def Swept (last : Option RecordingId) (entries : List SpoolEntry) (u : Uploads)
    (sweeps : List (List Attempt)) : Replay → Prop
  | .resting | .scanning =>
    Rotation.Sweeps SpoolEntry.recordingId last entries (sweeps.map attemptedEntries)
      u.lastAttempt u.spool.entries
  | .aborted => False
  | replay => Midway last entries replay.unattempted replay.current u sweeps

structure Sweeping (last : Option RecordingId) (entries : List SpoolEntry)
    (w : Uploads × List (List Attempt)) : Prop where
  claims : w.1.spool.inFlight = w.1.replay.claimed.toList
  distinct : (w.1.spool.entries.map SpoolEntry.recordingId).Nodup
  swept : Swept last entries w.1 w.2 w.1.replay
  sized : ∀ sweep ∈ w.2, ∀ attempt ∈ sweep, attempt.entry.sizeBytes ≠ none →
    attempt.uploads = true

theorem claimSole {s : Spool} (free : s.inFlight = []) (id : RecordingId) :
    s.claim id = some { s with inFlight := [id] } := by
  unfold Spool.claim
  rw [free]
  exact if_neg List.not_mem_nil

theorem releaseSole {s : Spool} {id : RecordingId} (held : s.inFlight = [id]) :
    (s.release id).inFlight = [] := by
  unfold Spool.release
  rw [held]
  simp

theorem pendingContained {s : Spool} {entry : SpoolEntry} (mem : entry ∈ s.entries) :
    s.contains entry.recordingId = true :=
  List.any_eq_true.mpr ⟨entry,mem,beq_self_eq_true _⟩

inductive SweepStep (u : Uploads) : Uploads → Prop where
  | starts (phase : u.replay = .resting) : SweepStep u { u with replay := .scanning }
  | scans (phase : u.replay = .scanning) :
      SweepStep u { u with replay := .sweeping (replayOrder u.lastAttempt u.spool.entries) }
  | ends (phase : u.replay = .sweeping []) : SweepStep u { u with replay := .resting }
  | claims (entry rest) (phase : u.replay = .sweeping (entry :: rest)) :
      SweepStep u { u with
        replay := .inspecting entry rest
        spool := { u.spool with inFlight := [entry.recordingId] } }
  | inspects (entry rest) (phase : u.replay = .inspecting entry rest) :
      SweepStep u { u with replay := .pending entry rest }
  | skips (entry rest) (phase : u.replay = .inspecting entry rest)
      (gone : u.spool.contains entry.recordingId = false) :
      SweepStep u (u.pass entry (.sweeping rest))
  | uploads (entry bytes rest) (phase : u.replay = .pending entry rest) :
      SweepStep u { u with
        replay := .uploading entry bytes .validate rest
        lastAttempt := some entry.recordingId }
  | unreadable (entry rest) (phase : u.replay = .pending entry rest)
      (unknown : entry.sizeBytes = none) : SweepStep u
        (Uploads.pass { u with lastAttempt := some entry.recordingId } entry (.sweeping rest))
  | calls (entry bytes call next rest) (phase : u.replay = .uploading entry bytes call rest) :
      SweepStep u { u with replay := .uploading entry bytes next rest }
  | succeeds (entry bytes call rest) (phase : u.replay = .uploading entry bytes call rest) :
      SweepStep u { (u.acknowledge entry.recordingId) with
        replay := .dequeuing entry rest
        dequeues := u.dequeues ++ [⟨none,entry.recordingId⟩] }
  | fails (entry bytes call rest) (phase : u.replay = .uploading entry bytes call rest) :
      SweepStep u (u.pass entry .resting)
  | dequeues (entry rest removed) (phase : u.replay = .dequeuing entry rest) :
      SweepStep u ((u.removal ⟨none,entry.recordingId⟩ removed).pass entry (.sweeping rest))

theorem sweepStepCases {u after : Uploads} {label : SweepLabel} (reads : label.reads)
    (claims : u.spool.inFlight = u.replay.claimed.toList)
    (stepped : u.sweepStep label = some after) : SweepStep u after := by
  cases label with
  | reply answer =>
    obtain ⟨works,readable⟩ := reads
    change u.replayStep true answer = some after at stepped
    unfold Uploads.replayStep at stepped
    cases phase : u.replay with
    | resting =>
      simp only [phase,if_true] at stepped
      cases stepped
      exact .starts phase
    | scanning =>
      simp only [phase,works,readable] at stepped
      have all : u.spool.entries.filter (fun entry => decide (entry.recordingId ∉ [])) =
          u.spool.entries := by simp
      rw [if_neg Bool.false_ne_true,all] at stepped
      cases stepped
      exact .scans phase
    | sweeping rest =>
      cases rest with
      | nil =>
        simp only [phase] at stepped
        cases stepped
        exact .ends phase
      | cons entry rest =>
        have free : u.spool.inFlight = [] := by rw [claims,phase]; rfl
        simp only [phase,if_true,claimSole free] at stepped
        cases stepped
        exact .claims entry rest phase
    | inspecting entry rest =>
      simp only [phase,works,Bool.false_or] at stepped
      cases there : u.spool.contains entry.recordingId with
      | true =>
        simp only [there,Bool.not_true,if_neg Bool.false_ne_true] at stepped
        cases stepped
        exact .inspects entry rest phase
      | false =>
        simp only [there,Bool.not_false,if_true] at stepped
        cases stepped
        exact .skips entry rest phase there
    | pending entry rest =>
      simp only [phase] at stepped
      cases size : entry.sizeBytes.or answer.fileSize with
      | some bytes =>
        simp only [size] at stepped
        cases stepped
        exact .uploads entry bytes rest phase
      | none =>
        simp only [size] at stepped
        cases stepped
        exact .unreadable entry rest phase (Option.or_eq_none_iff.mp size).1
    | uploading entry bytes call rest =>
      simp only [phase] at stepped
      cases next : uploadCall bytes entry.durationMs answer.error call with
      | call next' =>
        simp only [next] at stepped
        cases stepped
        exact .calls entry bytes call next' rest phase
      | finished outcome =>
        cases outcome with
        | complete =>
          simp only [next] at stepped
          cases stepped
          exact .succeeds entry bytes call rest phase
        | _ =>
          simp only [next] at stepped
          cases stepped
          exact .fails entry bytes call rest phase
    | dequeuing | aborted => simp [phase] at stepped
  | removed removed =>
    simp only [Uploads.sweepStep] at stepped
    cases phase : u.replay with
    | dequeuing entry rest =>
      simp only [phase] at stepped
      obtain ⟨_,done⟩ := Option.ite_none_right_eq_some.mp stepped
      simp only [phase] at done
      cases done
      exact .dequeues entry rest removed phase
    | _ => simp [phase] at stepped

namespace Sweeping
variable {last : Option RecordingId} {entries : List SpoolEntry} {u after : Uploads}
  {sweeps : List (List Attempt)}

theorem finished {unattempted : List SpoolEntry} {current : Option SpoolEntry}
    (midway : Midway last entries unattempted current u sweeps)
    (over_ : unattempted = [] ∨ current ≠ none) :
    Rotation.Sweeps SpoolEntry.recordingId last entries (sweeps.map attemptedEntries)
      u.lastAttempt u.spool.entries := by
  obtain ⟨sweep,older,between,found,rfl,before,under,had⟩ := midway
  refine .next before (under.ends (over_.imp_right fun some_ => ?_))
  obtain ⟨entry,same⟩ := Option.ne_none_iff_exists'.mp some_
  exact List.ne_nil_of_mem (had entry same)

theorem midwayKeeps {unattempted : List SpoolEntry} {current next : Option SpoolEntry}
    (midway : Midway last entries unattempted current u sweeps)
    (same : after.spool.entries = u.spool.entries) (attempt : after.lastAttempt = u.lastAttempt)
    (stays : ∀ entry ∈ next, entry ∈ current) :
    Midway last entries unattempted next after sweeps := by
  obtain ⟨sweep,older,between,found,latest,before,under,had⟩ := midway
  exact ⟨sweep,older,between,found,latest,before,under.keeps same attempt,
    fun entry mem => had entry (stays entry mem)⟩

theorem midwayAttempt {entry : SpoolEntry} {rest : List SpoolEntry}
    {current : Option SpoolEntry}
    (midway : Midway last entries (entry :: rest) current u sweeps) (after : Uploads)
    (next : Option SpoolEntry) (uploads : Bool)
    (same : after.spool.entries = u.spool.entries)
    (attempt : after.lastAttempt = some entry.recordingId) (own : ∀ e ∈ next, e = entry) :
    ∃ sweep older, sweeps = sweep :: older ∧
      Midway last entries rest next after ((sweep ++ [⟨entry,uploads⟩]) :: older) := by
  obtain ⟨sweep,older,between,found,latest,before,under,_⟩ := midway
  have attempted : attemptedEntries (sweep ++ [⟨entry,uploads⟩]) =
      attemptedEntries sweep ++ [entry] := List.map_append
  refine ⟨sweep,older,latest,_,older,between,found,rfl,before,?_,?_⟩
  · rw [attempted]
    exact under.attempt same attempt
  · intro e mem
    rw [attempted,own e mem]
    exact List.mem_append_right _ List.mem_cons_self

theorem midwayNext {entry : SpoolEntry} {rest : List SpoolEntry} {current : Option SpoolEntry}
    (midway : Midway last entries (entry :: rest) current u sweeps) : entry ∈ u.spool.entries := by
  obtain ⟨_,_,_,_,_,_,under,_⟩ := midway
  exact under.nextPending

theorem midwayRemove {entry : SpoolEntry} {rest : List SpoolEntry}
    (midway : Midway last entries rest (some entry) u sweeps) (removed : Bool)
    (same : after.spool.entries = if removed then
      u.spool.entries.filter (fun e => e.recordingId ≠ entry.recordingId) else u.spool.entries)
    (attempt : after.lastAttempt = u.lastAttempt) :
    Midway last entries rest none after sweeps := by
  obtain ⟨sweep,older,between,found,latest,before,under,had⟩ := midway
  refine ⟨sweep,older,between,found,latest,before,?_,nofun⟩
  cases removed with
  | true => exact under.remove (had entry rfl) same attempt
  | false => exact under.keeps same attempt

end Sweeping

theorem sizedSame {sweeps : List (List Attempt)} {entry : SpoolEntry} {uploads : Bool}
    {sweep : List Attempt} {older : List (List Attempt)} (latest : sweeps = sweep :: older)
    (sized : ∀ sweep ∈ sweeps, ∀ attempt ∈ sweep, attempt.entry.sizeBytes ≠ none →
      attempt.uploads = true) (own : entry.sizeBytes ≠ none → uploads = true) :
    ∀ other ∈ (sweep ++ [⟨entry,uploads⟩]) :: older, ∀ attempt ∈ other,
      attempt.entry.sizeBytes ≠ none → attempt.uploads = true := by
  subst latest
  intro other mem attempt there
  rcases List.mem_cons.mp mem with same | before
  · rw [same] at there
    rcases List.mem_append.mp there with old | new
    · exact sized sweep List.mem_cons_self attempt old
    · cases List.mem_singleton.mp new
      exact own
  · exact sized other (List.mem_cons_of_mem _ before) attempt there

def Replay.noted : Replay → Bool
  | .scanning | .pending _ _ => true
  | _ => false

theorem noteQuiet {u after : Uploads} {sweeps : List (List Attempt)}
    (quiet : u.replay.noted = false) : noteSweeps sweeps u after = sweeps := by
  cases phase : u.replay with
  | scanning | pending =>
    rw [phase] at quiet
    cases quiet
  | _ => simp [noteSweeps,phase]

open Sweeping in
theorem sweepingStep {last : Option RecordingId} {entries : List SpoolEntry} {u after : Uploads}
    {sweeps : List (List Attempt)} (sweeping : Sweeping last entries (u,sweeps))
    (stepped : SweepStep u after) :
    Sweeping last entries (after,noteSweeps sweeps u after) := by
  obtain ⟨claims,distinct,swept,sized⟩ := sweeping
  cases stepped with
  | starts phase =>
    rw [phase] at claims swept
    rw [noteQuiet (by rw [phase]; rfl)]
    exact ⟨claims,distinct,swept,sized⟩
  | scans phase =>
    rw [phase] at claims swept
    have noted : noteSweeps sweeps u { u with
        replay := .sweeping (replayOrder u.lastAttempt u.spool.entries) } = [] :: sweeps := by
      simp [noteSweeps,phase]
    rw [noted]
    refine ⟨claims,distinct,?_,?_⟩
    · exact ⟨[],sweeps,u.lastAttempt,u.spool.entries,rfl,swept,
        (Underway.begins distinct).keeps rfl rfl,nofun⟩
    · intro sweep mem
      rcases List.mem_cons.mp mem with rfl | before
      · exact nofun
      · exact sized sweep before
  | ends phase =>
    rw [phase] at claims swept
    rw [noteQuiet (by rw [phase]; rfl)]
    have midway : Midway last entries [] none u sweeps := swept
    have done := finished midway (.inl rfl)
    exact ⟨claims,distinct,done,sized⟩
  | claims entry rest phase =>
    rw [phase] at swept
    rw [noteQuiet (by rw [phase]; rfl)]
    exact ⟨rfl,distinct,midwayKeeps swept rfl rfl nofun,sized⟩
  | inspects entry rest phase =>
    rw [phase] at claims swept
    rw [noteQuiet (by rw [phase]; rfl)]
    exact ⟨claims,distinct,midwayKeeps swept rfl rfl nofun,sized⟩
  | skips entry rest phase gone =>
    rw [phase] at swept
    have there := pendingContained (midwayNext swept)
    rw [gone] at there
    cases there
  | uploads entry bytes rest phase =>
    rw [phase] at claims swept
    have midway : Midway last entries (entry :: rest) none u sweeps := swept
    obtain ⟨sweep,older,latest,next⟩ := midwayAttempt midway { u with
        replay := .uploading entry bytes .validate rest
        lastAttempt := some entry.recordingId } (some entry) true rfl rfl
      fun e mem => (Option.some.inj mem).symm
    have noted : noteSweeps sweeps u { u with
        replay := .uploading entry bytes .validate rest
        lastAttempt := some entry.recordingId } = (sweep ++ [⟨entry,true⟩]) :: older := by
      simp [noteSweeps,phase,latest,Replay.isUploading]
    rw [noted]
    exact ⟨claims,distinct,next,sizedSame latest sized fun _ => rfl⟩
  | unreadable entry rest phase unknown =>
    rw [phase] at claims swept
    have midway : Midway last entries (entry :: rest) none u sweeps := swept
    obtain ⟨sweep,older,latest,next⟩ := midwayAttempt midway
      (Uploads.pass { u with lastAttempt := some entry.recordingId } entry (.sweeping rest))
      none false rfl rfl nofun
    have noted : noteSweeps sweeps u (Uploads.pass
        { u with lastAttempt := some entry.recordingId } entry (.sweeping rest)) =
        (sweep ++ [⟨entry,false⟩]) :: older := by
      simp [noteSweeps,phase,latest,Replay.isUploading,Uploads.pass]
    rw [noted]
    exact ⟨releaseSole claims,distinct,next,
      sizedSame latest sized fun known => absurd unknown known⟩
  | calls entry bytes call next rest phase =>
    rw [phase] at claims swept
    rw [noteQuiet (by rw [phase]; rfl)]
    exact ⟨claims,distinct,midwayKeeps swept rfl rfl fun _ same => same,sized⟩
  | succeeds entry bytes call rest phase =>
    rw [phase] at claims swept
    rw [noteQuiet (by rw [phase]; rfl)]
    exact ⟨claims,distinct,midwayKeeps swept rfl rfl fun _ same => same,sized⟩
  | fails entry bytes call rest phase =>
    rw [phase] at claims swept
    have midway : Midway last entries rest (some entry) u sweeps := swept
    rw [noteQuiet (by rw [phase]; rfl)]
    have done := finished midway (.inr (Option.some_ne_none entry))
    exact ⟨releaseSole claims,distinct,done,sized⟩
  | dequeues entry rest removed phase =>
    rw [phase] at claims swept
    have midway : Midway last entries rest (some entry) u sweeps := swept
    rw [noteQuiet (by rw [phase]; rfl)]
    refine ⟨?_,?_,midwayRemove midway removed ?_ rfl,sized⟩
    · cases removed <;> exact releaseSole claims
    · cases removed with
      | true => exact distinct.sublist (List.filter_sublist.map _)
      | false => exact distinct
    · cases removed <;> rfl

theorem sweepsOnce {last : Option RecordingId} {entries : List SpoolEntry}
    {w : Uploads × List (List Attempt)} (sweeping : Sweeping last entries w) :
    ∀ sweep ∈ w.2, (sweep.map fun attempt => attempt.entry.recordingId).Nodup := by
  have finished {sweeps : List (List Attempt)} {between found}
      (done : Rotation.Sweeps SpoolEntry.recordingId last entries (sweeps.map attemptedEntries)
        between found) :
      ∀ sweep ∈ sweeps, (sweep.map fun attempt => attempt.entry.recordingId).Nodup := by
    intro sweep mem
    have apart := done.once (attemptedEntries sweep) (List.mem_map_of_mem mem)
    unfold attemptedEntries at apart
    rwa [List.map_map] at apart
  have midway {unattempted : List SpoolEntry} {current : Option SpoolEntry}
      (under : Midway last entries unattempted current w.1 w.2) :
      ∀ sweep ∈ w.2, (sweep.map fun attempt => attempt.entry.recordingId).Nodup := by
    obtain ⟨latest,older,between,found,same,before,under,_⟩ := under
    rw [same]
    intro sweep mem
    rcases List.mem_cons.mp mem with rfl | old
    · have apart := (under.apart)
      unfold attemptedEntries at apart
      rwa [List.map_map] at apart
    · exact finished before sweep old
  have swept := sweeping.swept
  cases phase : w.1.replay with
  | resting | scanning =>
    rw [phase] at swept
    exact finished swept
  | aborted =>
    rw [phase] at swept
    exact swept.elim
  | sweeping | inspecting | pending | uploading | dequeuing =>
    rw [phase] at swept
    exact midway swept

theorem restedSweeping {u : Uploads} (rested : u.Rested) :
    Sweeping u.lastAttempt u.spool.entries (u,[]) where
  claims := by rw [rested.unclaimed,rested.resting]; rfl
  distinct := rested.distinct
  swept := by
    rw [rested.resting]
    exact .start
  sized := nofun

theorem sweepingRested {last : Option RecordingId} {entries : List SpoolEntry}
    {w : Uploads × List (List Attempt)} (sweeping : Sweeping last entries w)
    (resting : w.1.replay = .resting) : w.1.Rested := by
  refine ⟨resting,?_,sweeping.distinct⟩
  rw [sweeping.claims,resting]
  rfl

/- No sweep attempts a recording twice. Between two rests of the worker with as many sweeps as
there were pending entries each of them has been attempted, and the worker rests as before. -/
theorem replayStarvesNone {u after : Uploads} {sweeps : List (List Attempt)} (rested : u.Rested)
    {labels : List SweepLabel} (reads : ∀ label ∈ labels, label.reads)
    (ran : Transition.final watchSweeps (u,[]) labels = some (after,sweeps)) :
    (∀ sweep ∈ sweeps, (sweep.map fun attempt => attempt.entry.recordingId).Nodup) ∧
    (after.replay = .resting → after.Rested ∧ (u.spool.entries.length ≤ sweeps.length →
      ∀ entry ∈ u.spool.entries, ∃ sweep ∈ sweeps, ∃ attempt ∈ sweep, attempt.entry = entry ∧
        (entry.sizeBytes ≠ none → attempt.uploads = true))) := by
  have sweeping : Sweeping u.lastAttempt u.spool.entries (after,sweeps) := by
    refine Transition.finalAlong watchSweeps (Sweeping u.lastAttempt u.spool.entries) ?_
      (restedSweeping rested) (Transition.alongLabels watchSweeps reads (u,[])) ran
    intro w label w' stepped sweeping may
    obtain ⟨next,taken,rfl⟩ := Option.map_eq_some_iff.mp stepped
    exact sweepingStep sweeping (sweepStepCases may sweeping.claims taken)
  refine ⟨sweepsOnce sweeping,fun resting =>
    ⟨sweepingRested sweeping resting,fun enough entry mem => ?_⟩⟩
  have swept := sweeping.swept
  rw [resting] at swept
  have long : u.spool.entries.length ≤ (sweeps.map attemptedEntries).length := by
    rwa [List.length_map]
  obtain ⟨_,there,had⟩ := Rotation.Sweeps.all swept long entry mem
  obtain ⟨sweep,in_,rfl⟩ := List.mem_map.mp there
  obtain ⟨attempt,made,rfl⟩ := List.mem_map.mp had
  exact ⟨sweep,in_,attempt,made,rfl,sweeping.sized sweep in_ attempt made⟩

def bothPending : Uploads :=
  .idle (((Spool.opened []).enqueue ⟨"a",none,"a.flac",some 10,some 1000⟩).enqueue
    ⟨"b",none,"b.flac",some 10,some 1000⟩)

def givesUp : List SweepLabel :=
  List.replicate 6 (.reply {}) ++ [.reply { error := some (.transport "down") }]

theorem failingEntryStarvesNone : ∃ after sweeps,
    Transition.final watchSweeps (bothPending,[]) (givesUp ++ givesUp) = some (after,sweeps) ∧
    ∀ entry ∈ bothPending.spool.entries, ∃ sweep ∈ sweeps, ∃ attempt ∈ sweep,
      attempt.entry = entry ∧ (entry.sizeBytes ≠ none → attempt.uploads = true) := by
  have empty : ((Spool.opened []).entries.map SpoolEntry.recordingId).Nodup := .nil
  have rested : bothPending.Rested := ⟨rfl,rfl,enqueueDistinct (enqueueDistinct empty _) _⟩
  have reads : ∀ label ∈ givesUp ++ givesUp, label.reads := by decide
  exact ⟨_,_,rfl,((replayStarvesNone rested reads rfl).2 rfl).2 (by decide)⟩

end TelephoneBooth
