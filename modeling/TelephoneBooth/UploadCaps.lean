import TelephoneBooth.Config
import TelephoneBooth.Uploads

/-! Four limits on a recording: the configured length, the capture limit in samples, the
minimum for an upload and the operator's caps. A recording the booth keeps is one it can
upload exactly where the configuration stays between the operator's two bounds. -/
namespace TelephoneBooth

def u64Max : Nat := 2 ^ 64 - 1

/- `u64::saturating_mul`; `usize` has 64 bits as well. -/
def saturatingMul (a b : Nat) : Nat := min (a * b) u64Max

def AudioConfig.maxSamples (audio : AudioConfig) : Nat :=
  saturatingMul (saturatingMul audio.sampleRateHz.toNat audio.channels.toNat)
    audio.maxRecordingSecs.toNat

def AudioConfig.durationMs (audio : AudioConfig) (samples : Nat) : Nat :=
  let frames := samples / max audio.channels.toNat 1
  saturatingMul frames 1000 / max audio.sampleRateHz.toNat 1

def AudioConfig.minRecordingMs (audio : AudioConfig) : Nat :=
  saturatingMul audio.minRecordingSecs.toNat 1000

def tooShort (minRecordingMs : Nat) (durationMs : Option Nat) : Bool :=
  (durationMs.map fun ms => decide (ms < minRecordingMs)).getD false

/- `UploadRecording` discards a readable recording exactly where the gate finds it too short. -/
theorem acceptGate (u : Uploads) (minRecordingMs number : Nat) (id : RecordingId)
    (question : QuestionId) (path : String) (bytes : Nat) (durationMs : Option Nat) :
    u.accept minRecordingMs number id question ⟨.ok path,bytes,durationMs⟩ =
      (u.refuse id,[outcomeNotice id .complete]) ↔ tooShort minRecordingMs durationMs = true := by
  constructor
  · intro discarded
    by_contra long
    unfold tooShort at long
    simp only [Uploads.accept,if_neg long] at discarded
    cases claimed : u.spool.claim id with
    | none => simp [claimed,outcomeNotice] at discarded
    | some spool => simp [claimed] at discarded
  · exact fun short => if_pos short

theorem capsAccept (bytes durationMs : Nat) : validateUploadCaps bytes (some durationMs) = none ↔
    1 ≤ durationMs ∧ durationMs ≤ maxUploadDurationMs ∧ bytes ≤ maxUploadBytes := by
  simp only [validateUploadCaps]
  split
  · simp only [reduceCtorEq,false_iff]
    omega
  split
  · simp only [reduceCtorEq,false_iff]
    omega
  split
  · simp only [reduceCtorEq,false_iff]
    omega
  · simp only [true_iff]
    omega

/-- Every recording that the configuration lets a caller make, that is long enough to be kept
and small enough for the operator, passes the operator's caps. -/
def KeptUploads (audio : AudioConfig) : Prop :=
  ∀ samples bytes, samples ≤ audio.maxSamples → bytes ≤ maxUploadBytes →
    tooShort audio.minRecordingMs (some (audio.durationMs samples)) = false →
    validateUploadCaps bytes (some (audio.durationMs samples)) = none

structure ValidAudio (audio : AudioConfig) : Prop where
  channels : 1 ≤ audio.channels.toNat
  rate : 1 ≤ audio.sampleRateHz.toNat
  longest : audio.maxRecordingSecs.toNat ≤ 600
  shortest : audio.minRecordingSecs.toNat < audio.maxRecordingSecs.toNat

theorem validAudio {built : Features} {config : RuntimeConfig}
    (valid : validateConfig built config = .ok ()) : ValidAudio config.audio := by
  have passes := validatePasses valid
  have channels := passes ⟨config.audio.channels == 0,_⟩ (.tail _ (.head _))
  have rate := passes ⟨config.audio.sampleRateHz == 0,_⟩ (.tail _ (.tail _ (.head _)))
  have listed {check : Check} (mem : check ∈ RuntimeConfig.recordingChecks config.audio) :
      check ∈ config.checks built := by
    simp [RuntimeConfig.checks,mem]
  have longest := passes _ (listed (.tail _ (.head _)))
  have shortest := passes _ (listed (.tail _ (.tail _ (.head _))))
  have nonzero16 (x : UInt16) (some_ : (x == 0) = false) : 1 ≤ x.toNat := by
    have apart := beq_eq_false_iff_ne.mp some_
    have value : x.toNat ≠ (0 : UInt16).toNat := fun same => apart (UInt16.toNat_inj.mp same)
    exact Nat.one_le_iff_ne_zero.mpr value
  have nonzero32 (x : UInt32) (some_ : (x == 0) = false) : 1 ≤ x.toNat := by
    have apart := beq_eq_false_iff_ne.mp some_
    have value : x.toNat ≠ (0 : UInt32).toNat := fun same => apart (UInt32.toNat_inj.mp same)
    exact Nat.one_le_iff_ne_zero.mpr value
  refine ⟨nonzero16 _ channels,nonzero32 _ rate,?_,?_⟩
  · exact UInt32.le_iff_toNat_le.mp (UInt32.not_lt.mp (of_decide_eq_false longest))
  · exact UInt32.lt_iff_toNat_lt.mp (UInt32.not_le.mp (of_decide_eq_false shortest))

section Valid
variable {audio : AudioConfig} (valid : ValidAudio audio)
include valid

theorem maxSamplesExact : audio.maxSamples =
    audio.sampleRateHz.toNat * audio.channels.toNat * audio.maxRecordingSecs.toNat := by
  have rate : audio.sampleRateHz.toNat < 2 ^ 32 := audio.sampleRateHz.toNat_lt
  have channels : audio.channels.toNat < 2 ^ 16 := audio.channels.toNat_lt
  have pairs : audio.sampleRateHz.toNat * audio.channels.toNat ≤ 2 ^ 32 * 2 ^ 16 :=
    Nat.mul_le_mul rate.le channels.le
  have all : audio.sampleRateHz.toNat * audio.channels.toNat * audio.maxRecordingSecs.toNat ≤
      2 ^ 32 * 2 ^ 16 * 600 := Nat.mul_le_mul pairs valid.longest
  have inner : saturatingMul audio.sampleRateHz.toNat audio.channels.toNat =
      audio.sampleRateHz.toNat * audio.channels.toNat := Nat.min_eq_left (by unfold u64Max; omega)
  rw [AudioConfig.maxSamples,inner]
  exact Nat.min_eq_left (by unfold u64Max; omega)

theorem framesBound {samples : Nat} (captured : samples ≤ audio.maxSamples) :
    samples / audio.channels.toNat ≤ audio.sampleRateHz.toNat * audio.maxRecordingSecs.toNat := by
  rw [maxSamplesExact valid] at captured
  refine Nat.div_le_of_le_mul (captured.trans_eq ?_)
  rw [Nat.mul_comm audio.sampleRateHz.toNat,Nat.mul_assoc]

theorem durationExact {samples : Nat} (captured : samples ≤ audio.maxSamples) :
    audio.durationMs samples =
      samples / audio.channels.toNat * 1000 / audio.sampleRateHz.toNat := by
  have frames := framesBound valid captured
  have rate : audio.sampleRateHz.toNat < 2 ^ 32 := audio.sampleRateHz.toNat_lt
  have bound : audio.sampleRateHz.toNat * audio.maxRecordingSecs.toNat ≤ 2 ^ 32 * 600 :=
    Nat.mul_le_mul rate.le valid.longest
  have whole : saturatingMul (samples / audio.channels.toNat) 1000 =
      samples / audio.channels.toNat * 1000 := Nat.min_eq_left (by unfold u64Max; omega)
  simp only [AudioConfig.durationMs,Nat.max_eq_left valid.channels,Nat.max_eq_left valid.rate,whole]

theorem durationBound {samples : Nat} (captured : samples ≤ audio.maxSamples) :
    audio.durationMs samples ≤ audio.maxRecordingSecs.toNat * 1000 := by
  rw [durationExact valid captured]
  have frames := Nat.mul_le_mul_right 1000 (framesBound valid captured)
  refine Nat.div_le_of_le_mul (frames.trans_eq ?_)
  rw [Nat.mul_assoc]

theorem durationFull : audio.durationMs audio.maxSamples = audio.maxRecordingSecs.toNat * 1000 := by
  have whole : audio.maxSamples = audio.channels.toNat *
      (audio.sampleRateHz.toNat * audio.maxRecordingSecs.toNat) := by
    rw [maxSamplesExact valid,Nat.mul_comm audio.sampleRateHz.toNat,Nat.mul_assoc]
  rw [durationExact valid le_rfl,whole,Nat.mul_div_cancel_left _ valid.channels,Nat.mul_assoc]
  exact Nat.mul_div_cancel_left _ valid.rate

theorem minRecordingExact : audio.minRecordingMs = audio.minRecordingSecs.toNat * 1000 := by
  have shortest := valid.shortest
  have longest := valid.longest
  exact Nat.min_eq_left (by unfold u64Max; omega)

end Valid

theorem keptIff (minRecordingMs durationMs : Nat) :
    tooShort minRecordingMs (some durationMs) = false ↔ minRecordingMs ≤ durationMs := by
  show decide (durationMs < minRecordingMs) = false ↔ _
  rw [decide_eq_false_iff_not,Nat.not_lt]

/- A configuration that `validate_config` accepts keeps only recordings that can be uploaded
exactly if it discards what lasts less than a second and stops within five minutes. -/
theorem keptRecordingsUpload {built : Features} {config : RuntimeConfig}
    (valid : validateConfig built config = .ok ()) : KeptUploads config.audio ↔
      1 ≤ config.audio.minRecordingSecs.toNat ∧ config.audio.maxRecordingSecs.toNat ≤ 300 := by
  have audio := validAudio valid
  have least := minRecordingExact audio
  constructor
  · intro kept
    constructor
    · -- an empty capture is kept where there is no minimum
      by_contra none_
      have zero : config.audio.minRecordingMs = 0 := by omega
      have silent : config.audio.durationMs 0 = 0 := by
        rw [durationExact audio (Nat.zero_le _)]
        simp
      have refused := kept 0 0 (Nat.zero_le _) (Nat.zero_le _)
        ((keptIff _ _).mpr (by omega))
      rw [silent,capsAccept] at refused
      exact absurd refused.1 (by omega)
    · have full := durationFull audio
      have shortest := audio.shortest
      have refused := kept config.audio.maxSamples 0 le_rfl (Nat.zero_le _)
        ((keptIff _ _).mpr (by omega))
      rw [full,capsAccept] at refused
      have capped : config.audio.maxRecordingSecs.toNat * 1000 ≤ 300000 := refused.2.1
      omega
  · rintro ⟨floor,ceiling⟩ samples bytes captured small kept
    have longest := durationBound audio captured
    have above := (keptIff _ _).mp kept
    refine (capsAccept _ _).mpr ⟨by omega,?_,small⟩
    show _ ≤ 300000
    omega

theorem defaultsUpload : KeptUploads ({} : RuntimeConfig).audio :=
  (keptRecordingsUpload (defaultValid ⟨true,true,true,true⟩)).mpr ⟨by decide,by decide⟩

/- Ten minutes at 8 kHz: `validate_config` accepts them, the caps refuse what comes of them. -/
theorem tenMinutesRefused : ¬ ∀ built config, validateConfig built config = .ok () →
    KeptUploads config.audio := by
  intro uploads
  have config : validateConfig ⟨true,true,true,true⟩
    { audio := { sampleRateHz := 8000, maxRecordingSecs := 600 } } = .ok () := rfl
  have kept := uploads _ _ config 4800000 1 (by decide) (by decide) (by decide)
  revert kept
  decide

end TelephoneBooth
