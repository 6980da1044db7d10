import Mathlib.Data.Rat.Init
import Mathlib.Algebra.Order.Ring.Rat
import Mathlib.Data.List.Basic

/-! The runtime configuration, as far as `validate_config` reads it. The checks are kept as
one list in the source's order, the first that fails giving the error. -/
namespace TelephoneBooth

inductive FloatValue where
  | finite (value : Rat)
  | infinite (negative : Bool)
  | notANumber
  deriving DecidableEq

/- `(low..=high).contains(&x)`. -/
def FloatValue.within (low high : Rat) : FloatValue → Bool
  | .finite value => decide (low ≤ value ∧ value ≤ high)
  | _ => false

structure GpioConfig where
  rotaryPulse : UInt8 := 27
  rotaryRead : UInt8 := 22
  hook : UInt8 := 17
  powerButton : UInt8 := 26

structure PowerButtonConfig where
  enabled : Bool := false
  holdMs : UInt64 := 3000

/- `brightnessText` is how the brightness is displayed. -/
structure StatusLedConfig where
  enabled : Bool := false
  red : UInt8 := 5
  green : UInt8 := 6
  blue : UInt8 := 13
  brightness : FloatValue := .finite 1
  brightnessText : String := "1"

structure AudioConfig where
  sampleRateHz : UInt32 := 48000
  channels : UInt16 := 1
  maxRecordingSecs : UInt32 := 60
  minRecordingSecs : UInt32 := 2

structure OperatorConfig where
  baseUrl : String := "https://operator.example.com"
  httpTimeoutSecs : UInt64 := 10
  wsReconnectInitialMs : UInt64 := 500
  wsReconnectMaxMs : UInt64 := 30000

structure OperatorForwardConfig where
  batchMax : Nat := 200
  flushIntervalMs : UInt64 := 2000
  bufferMax : Nat := 4096
  systemPushIntervalMs : UInt64 := 5000

structure ObservabilityConfig where
  enabled : Bool := true
  sampleIntervalMs : UInt64 := 5000
  operatorForward : OperatorForwardConfig := {}

structure ShellyConfig where
  enabled : Bool := false
  device : String := "vivosun_heat_mat"
  endpoint : String := "192.168.8.220"
  pollIntervalSeconds : UInt64 := 15
  requestTimeoutSeconds : UInt64 := 5

structure WeatherConfig where
  enabled : Bool := false
  latitude : Option FloatValue := none
  longitude : Option FloatValue := none
  pollIntervalSeconds : UInt64 := 600
  requestTimeoutSeconds : UInt64 := 15

structure RuntimeStartupConfig where
  mock : Bool := false
  simulator : Bool := false

structure RuntimeConfig where
  gpio : GpioConfig := {}
  powerButton : PowerButtonConfig := {}
  statusLed : StatusLedConfig := {}
  audio : AudioConfig := {}
  operator : OperatorConfig := {}
  observability : ObservabilityConfig := {}
  shelly : ShellyConfig := {}
  weather : WeatherConfig := {}
  runtime : RuntimeStartupConfig := {}

structure Features where
  shelly : Bool
  weather : Bool
  mock : Bool
  simulator : Bool

def maxRecordingSecsCeiling : UInt32 := 600

namespace Shelly
def minPollIntervalSeconds : UInt64 := 2
def maxRequestTimeoutSeconds : UInt64 := 30
end Shelly

namespace Weather
def minPollIntervalSeconds : UInt64 := 60
def maxRequestTimeoutSeconds : UInt64 := 60
end Weather

/- Characters of the Unicode property `White_Space`. -/
def isWhitespace (c : Char) : Bool :=
  let n := c.toNat
  (9 ≤ n && n ≤ 13) || n == 0x20 || n == 0x85 || n == 0xA0 || n == 0x1680 ||
    (0x2000 ≤ n && n ≤ 0x200A) || n == 0x2028 || n == 0x2029 || n == 0x202F || n == 0x205F ||
    n == 0x3000

def blank (text : String) : Bool := text.toList.all isWhitespace

def RuntimeConfig.pins (config : RuntimeConfig) : List UInt8 :=
  [config.gpio.hook,config.gpio.rotaryPulse,config.gpio.rotaryRead] ++
    (if config.powerButton.enabled then [config.gpio.powerButton] else []) ++
    if config.statusLed.enabled then
      [config.statusLed.red,config.statusLed.green,config.statusLed.blue] else []

structure Check where
  fails : Bool
  message : String

namespace RuntimeConfig

def operatorChecks (operator : OperatorConfig) : List Check :=
  [⟨operator.httpTimeoutSecs == 0,"operator.http_timeout_secs must be greater than 0"⟩,
   ⟨operator.wsReconnectInitialMs == 0,"operator.ws_reconnect_initial_ms must be greater than 0"⟩,
   ⟨operator.wsReconnectMaxMs < operator.wsReconnectInitialMs,
    s!"operator.ws_reconnect_max_ms ({operator.wsReconnectMaxMs}) must be >= operator.ws_reconnect_initial_ms ({operator.wsReconnectInitialMs})"⟩]

def recordingChecks (audio : AudioConfig) : List Check :=
  [⟨audio.maxRecordingSecs == 0,"audio.max_recording_secs must be greater than 0"⟩,
   ⟨maxRecordingSecsCeiling < audio.maxRecordingSecs,
    s!"audio.max_recording_secs ({audio.maxRecordingSecs}) exceeds maximum allowed ({maxRecordingSecsCeiling})"⟩,
   ⟨audio.maxRecordingSecs ≤ audio.minRecordingSecs,
    s!"audio.min_recording_secs ({audio.minRecordingSecs}) must be less than audio.max_recording_secs ({audio.maxRecordingSecs})"⟩]

def observabilityChecks (observability : ObservabilityConfig) : List Check :=
  let fwd := observability.operatorForward
  [⟨observability.sampleIntervalMs == 0,"observability.sample_interval_ms must be greater than 0"⟩,
   ⟨fwd.batchMax == 0,"observability.operator_forward.batch_max must be greater than 0"⟩,
   ⟨fwd.flushIntervalMs == 0,
    "observability.operator_forward.flush_interval_ms must be greater than 0"⟩,
   ⟨fwd.bufferMax < fwd.batchMax,
    s!"observability.operator_forward.buffer_max ({fwd.bufferMax}) must be >= observability.operator_forward.batch_max ({fwd.batchMax})"⟩,
   ⟨fwd.systemPushIntervalMs == 0,
    "observability.operator_forward.system_push_interval_ms must be greater than 0"⟩]

def shellyChecks (built : Features) (config : RuntimeConfig) : List Check :=
  let shelly := config.shelly
  [⟨shelly.pollIntervalSeconds < Shelly.minPollIntervalSeconds,
    s!"shelly.poll_interval_seconds must be at least {Shelly.minPollIntervalSeconds}"⟩,
   ⟨shelly.requestTimeoutSeconds == 0 ||
      Shelly.maxRequestTimeoutSeconds < shelly.requestTimeoutSeconds,
    s!"shelly.request_timeout_seconds must be between 1 and {Shelly.maxRequestTimeoutSeconds}"⟩,
   ⟨shelly.enabled && !config.observability.enabled,
    "shelly.enabled requires observability.enabled"⟩,
   ⟨shelly.enabled && blank shelly.device,"shelly.device must not be empty when shelly is enabled"⟩,
   ⟨shelly.enabled && blank shelly.endpoint,
    "shelly.endpoint must not be empty when shelly is enabled"⟩,
   ⟨shelly.enabled && !built.shelly,
    "shelly.enabled = true but this binary was built without the `shelly` Cargo feature"⟩]

def weatherChecks (built : Features) (config : RuntimeConfig) : List Check :=
  let weather := config.weather
  [⟨weather.pollIntervalSeconds < Weather.minPollIntervalSeconds,
    s!"weather.poll_interval_seconds must be at least {Weather.minPollIntervalSeconds}"⟩,
   ⟨weather.requestTimeoutSeconds == 0 ||
      Weather.maxRequestTimeoutSeconds < weather.requestTimeoutSeconds,
    s!"weather.request_timeout_seconds must be between 1 and {Weather.maxRequestTimeoutSeconds}"⟩,
   ⟨weather.latitude.any fun latitude => !latitude.within (-90) 90,
    "weather.latitude must be between -90 and 90"⟩,
   ⟨weather.longitude.any fun longitude => !longitude.within (-180) 180,
    "weather.longitude must be between -180 and 180"⟩,
   ⟨weather.enabled && !config.observability.enabled,
    "weather.enabled requires observability.enabled"⟩,
   ⟨weather.enabled && weather.latitude.isNone,
    "weather.latitude is required when weather is enabled"⟩,
   ⟨weather.enabled && weather.longitude.isNone,
    "weather.longitude is required when weather is enabled"⟩,
   ⟨weather.enabled && !built.weather,
    "weather.enabled = true but this binary was built without the `weather` Cargo feature"⟩]

def deviceChecks (built : Features) (config : RuntimeConfig) : List Check :=
  [⟨config.pins.eraseDups.length != config.pins.length,
    "gpio pins (including power button / status LED, when enabled) must be unique"⟩,
   ⟨config.powerButton.enabled && config.powerButton.holdMs == 0,
    "power_button.hold_ms must be greater than 0"⟩,
   ⟨config.statusLed.enabled && !config.statusLed.brightness.within 0 1,
    s!"status_led.brightness ({config.statusLed.brightnessText}) must be between 0.0 and 1.0"⟩,
   ⟨!built.mock && config.runtime.mock,
    "runtime.mock = true but this binary was built without the `mock` Cargo feature"⟩,
   ⟨!built.simulator && config.runtime.simulator,
    "runtime.simulator = true but this binary was built without the `simulator` Cargo feature"⟩]

def checks (built : Features) (config : RuntimeConfig) : List Check :=
  [⟨blank config.operator.baseUrl,"operator.base_url must not be empty"⟩,
   ⟨config.audio.channels == 0,"audio.channels must be at least 1"⟩,
   ⟨config.audio.sampleRateHz == 0,"audio.sample_rate_hz must be at least 1"⟩] ++
  operatorChecks config.operator ++ recordingChecks config.audio ++
  observabilityChecks config.observability ++ shellyChecks built config ++
  weatherChecks built config ++ deviceChecks built config

end RuntimeConfig

def validateConfig (built : Features) (config : RuntimeConfig) : Except String Unit :=
  match (config.checks built).find? Check.fails with
  | some check => .error check.message
  | none => .ok ()

theorem validatePasses {built : Features} {config : RuntimeConfig}
    (valid : validateConfig built config = .ok ()) (check : Check)
    (mem : check ∈ config.checks built) : check.fails = false := by
  unfold validateConfig at valid
  split at valid
  · cases valid
  · rename_i none_
    simpa using List.find?_eq_none.mp none_ check mem

theorem defaultValid (built : Features) : validateConfig built {} = .ok () := by
  obtain ⟨shelly,weather,mock,simulator⟩ := built
  cases mock <;> cases simulator <;> rfl

end TelephoneBooth
