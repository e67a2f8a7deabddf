import Nshgeoip.Config.Law
import Nshgeoip.Server.RunLoop
import Nshgeoip.ThreadPool

/-!
The ranges of a configuration that reaches `Server::init`.

`Config.InRange` holds of the defaults whatever `hardware_concurrency()`
returns and is kept by every line of the file, every variable and the search
for databases. The conversions the server makes of these numbers, up to the
poll timeout of its loop, then keep their values.
-/

namespace Nshgeoip

open ByteText

structure Config.InRange (cfg : Config) : Prop where
  threads : 1 ≤ cfg.threads ∧ cfg.threads ≤ 256
  maxRequestBytes : 256 ≤ cfg.maxRequestBytes ∧ cfg.maxRequestBytes ≤ 2 ^ 20
  tcpPort : 0 ≤ cfg.tcpPort ∧ cfg.tcpPort ≤ 65535
  socketMode : cfg.socketMode ≤ 0o7777
  metricsIntervalSeconds : 1 ≤ cfg.metricsIntervalSeconds ∧ cfg.metricsIntervalSeconds ≤ 86400

/-- `static_cast<uint16_t>`. -/
def toPort (v : Int) : Nat := (v % 2 ^ 16).toNat

/-- The fields that have a range. -/
def Config.numbers (cfg : Config) : Int × Nat × Int × Nat × Int :=
  (cfg.threads, cfg.maxRequestBytes, cfg.tcpPort, cfg.socketMode, cfg.metricsIntervalSeconds)

/-- The paths, the address and the debug flag do not matter. -/
theorem Config.InRange.of_numbers {cfg cfg' : Config} (h : cfg.InRange)
    (same : cfg'.numbers = cfg.numbers) : cfg'.InRange := by
  simp only [Config.numbers, Prod.mk.injEq] at same
  obtain ⟨threads, bytes, port, mode, interval⟩ := same
  constructor
  · rw [threads]
    exact h.threads
  · rw [bytes]
    exact h.maxRequestBytes
  · rw [port]
    exact h.tcpPort
  · rw [mode]
    exact h.socketMode
  · rw [interval]
    exact h.metricsIntervalSeconds

/-! ### The defaults -/

/-- The cast to `int` may wrap; the clamp comes after it. -/
theorem defaultThreadCount_range (detected : UInt32) :
    4 ≤ defaultThreadCount detected ∧ defaultThreadCount detected ≤ 20 := by
  unfold defaultThreadCount
  dsimp only
  split_ifs <;> omega

theorem Config.default_inRange (detected : UInt32) : (Config.default detected).InRange where
  threads := by
    have range := defaultThreadCount_range detected
    exact ⟨by show 1 ≤ defaultThreadCount detected; omega,
      by show defaultThreadCount detected ≤ 256; omega⟩
  maxRequestBytes := by simp [Config.default]
  tcpPort := by simp [Config.default]
  socketMode := by simp [Config.default]
  metricsIntervalSeconds := by simp [Config.default]

/-! ### The file -/

/-- The check comes after the parse, whatever the parse made of the text. -/
theorem boundedLong_range {value : Bytes} {base : Nat} {low high n : Int}
    (h : boundedLong value base low high = some n) : low ≤ n ∧ n ≤ high := by
  unfold boundedLong at h
  split at h
  · cases h
  · split_ifs at h with outside
    cases h
    obtain ⟨lower, upper⟩ := not_or.mp outside
    exact ⟨Int.not_lt.mp lower, Int.not_lt.mp upper⟩

theorem parsePort_range {value : Bytes} {port : Int} (h : parsePort value = some port) :
    1 ≤ port ∧ port ≤ 65535 := by
  obtain ⟨n, bounded, rfl⟩ := Option.map_eq_some_iff.mp h
  have range := boundedLong_range bounded
  rwa [toInt_eq_self (by omega) (by omega)]

namespace Config.InRange

variable {cfg : Config} {value : Bytes} {n : Int}

theorem setSocketMode (h : cfg.InRange) (bounded : boundedLong value 8 0 0o7777 = some n) :
    InRange { cfg with socketMode := toMode n } := by
  obtain ⟨low, high⟩ := boundedLong_range bounded
  have same := toMode_eq_self low (by omega)
  exact { h with socketMode := by show toMode n ≤ 0o7777; omega }

theorem setThreads (h : cfg.InRange) (bounded : boundedLong value 10 1 256 = some n) :
    InRange { cfg with threads := toInt n } := by
  have range := boundedLong_range bounded
  have same := toInt_eq_self (n := n) (by omega) (by omega)
  exact { h with threads := by rw [same]; exact range }

theorem setMaxRequestBytes (h : cfg.InRange) (bounded : boundedLong value 10 256 (1 <<< 20) = some n) :
    InRange { cfg with maxRequestBytes := toSize n } := by
  obtain ⟨low, high⟩ := boundedLong_range bounded
  have upper : n ≤ 1048576 := high
  have same := toSize_eq_self (n := n) (by omega) (by omega)
  exact { h with maxRequestBytes := ⟨by show 256 ≤ toSize n; omega, by show toSize n ≤ 2 ^ 20; omega⟩ }

theorem setTcpPort (h : cfg.InRange) (parsed : parsePort value = some n) :
    InRange { cfg with tcpPort := n } := by
  obtain ⟨low, high⟩ := parsePort_range parsed
  exact { h with tcpPort := ⟨by show 0 ≤ n; omega, high⟩ }

theorem setMetricsInterval (h : cfg.InRange) (bounded : boundedLong value 10 1 86400 = some n) :
    InRange { cfg with metricsIntervalSeconds := toInt n } := by
  have range := boundedLong_range bounded
  have same := toInt_eq_self (n := n) (by omega) (by omega)
  exact { h with metricsIntervalSeconds := by rw [same]; exact range }

end Config.InRange

theorem setKey_inRange {cfg cfg' : Config} {key value : Bytes} (h : cfg.InRange)
    (eq : setKey cfg key value = some (.ok cfg')) : cfg'.InRange := by
  obtain ⟨k, -, stored⟩ := setKey_stores eq
  cases stored with
  | countryDb => exact h.of_numbers rfl
  | asnDb => exact h.of_numbers rfl
  | cityDb => exact h.of_numbers rfl
  | socket => exact h.of_numbers rfl
  | socketMode parsed => exact h.setSocketMode parsed
  | threads parsed => exact h.setThreads parsed
  | maxRequestBytes parsed => exact h.setMaxRequestBytes parsed
  | debugLog _ => exact h.of_numbers rfl
  | tcpPort parsed => exact h.setTcpPort parsed
  | tcpAddress => exact h.of_numbers rfl
  | metricsFile => exact h.of_numbers rfl
  | metricsIntervalSeconds parsed => exact h.setMetricsInterval parsed

theorem loadLine_inRange {path : Bytes} {state state' : Loaded} {numbered : Bytes × Nat}
    (h : state.cfg.InRange) (eq : loadLine path state numbered = .ok state') :
    state'.cfg.InRange := by
  unfold loadLine at eq
  dsimp only at eq
  split_ifs at eq
  · cases eq
    exact h
  · split at eq
    · cases eq
    · split at eq
      · rename_i set
        cases eq
        exact setKey_inRange h set
      · cases eq
      · cases eq
        exact h

theorem loadLines_inRange {path : Bytes} {lines : List (Bytes × Nat)} {state state' : Loaded}
    (h : state.cfg.InRange) (eq : lines.foldlM (loadLine path) state = .ok state') :
    state'.cfg.InRange := by
  induction lines generalizing state with
  | nil =>
      cases eq
      exact h
  | cons line rest ih =>
      rw [List.foldlM_cons] at eq
      obtain ⟨next, step, later⟩ := bind_ok eq
      exact ih (loadLine_inRange h step) later

theorem loadConfig_inRange {path : Bytes} {file : Option Bytes} {cfg : Config} {loaded : Loaded}
    (h : cfg.InRange) (eq : loadConfig path file cfg = .ok loaded) : loaded.cfg.InRange := by
  cases file with
  | none => cases eq
  | some text =>
      have fresh : (Loaded.mk cfg []).cfg.InRange := h
      exact loadLines_inRange fresh eq

/-! ### The environment -/

/-- A step of the overlay that stays in range. -/
def KeepsRange (f : Config → Except Bytes Config) : Prop :=
  ∀ cfg cfg', cfg.InRange → f cfg = .ok cfg' → cfg'.InRange

theorem KeepsRange.bind {f g : Config → Except Bytes Config} (hf : KeepsRange f)
    (hg : KeepsRange g) : KeepsRange fun cfg => f cfg >>= g := by
  intro cfg cfg' h eq
  obtain ⟨mid, first, second⟩ := bind_ok eq
  exact hg mid cfg' (hf cfg mid h first) second

theorem override_keepsRange {α : Type} {env : Environment} {name : String}
    {parse : Bytes → Option α} {store : Config → α → Config} {complaint : String}
    (stores : ∀ {cfg : Config} {value x}, cfg.InRange → parse value = some x → (store cfg x).InRange) :
    KeepsRange (override env name parse store complaint) := by
  intro cfg cfg' h eq
  unfold override at eq
  split at eq
  · cases eq
    exact h
  · split at eq
    · rename_i parsed
      cases eq
      exact stores h parsed
    · cases eq

theorem applyEnvOverrides_keepsRange (env : Environment) : KeepsRange (applyEnvOverrides env) := by
  refine KeepsRange.bind (override_keepsRange ?_) ?_
  · exact fun h _ => h.of_numbers rfl
  refine KeepsRange.bind (override_keepsRange ?_) ?_
  · exact fun h _ => h.of_numbers rfl
  refine KeepsRange.bind (override_keepsRange ?_) ?_
  · exact fun h _ => h.of_numbers rfl
  refine KeepsRange.bind (override_keepsRange ?_) ?_
  · exact fun h _ => h.of_numbers rfl
  refine KeepsRange.bind (override_keepsRange ?_) ?_
  · exact fun h parsed => h.setSocketMode parsed
  refine KeepsRange.bind (override_keepsRange ?_) ?_
  · exact fun h parsed => h.setThreads parsed
  refine KeepsRange.bind (override_keepsRange ?_) ?_
  · exact fun h parsed => h.setMaxRequestBytes parsed
  refine KeepsRange.bind (override_keepsRange ?_) ?_
  · exact fun h _ => h.of_numbers rfl
  refine KeepsRange.bind (override_keepsRange ?_) ?_
  · exact fun h parsed => h.setTcpPort parsed
  refine KeepsRange.bind (override_keepsRange ?_) ?_
  · exact fun h _ => h.of_numbers rfl
  refine KeepsRange.bind (override_keepsRange ?_) ?_
  · exact fun h _ => h.of_numbers rfl
  refine override_keepsRange ?_
  exact fun h parsed => h.setMetricsInterval parsed

/-! ### Start-up -/

theorem applyDefaultDbPaths_inRange {cfg : Config} (h : cfg.InRange)
    (regularFileExists : Bytes → Bool) (dirs : List Bytes) :
    (applyDefaultDbPaths regularFileExists dirs cfg).1.InRange := by
  unfold applyDefaultDbPaths
  dsimp only
  split_ifs <;> exact h.of_numbers rfl

theorem mapError_ok {α ε ε' : Type} {x : Except ε α} {f : ε → ε'} {a : α}
    (h : x.mapError f = .ok a) : x = .ok a := by
  cases x with
  | error e => cases h
  | ok b => exact congrArg Except.ok (Except.ok.inj h)

theorem startupConfig_inRange {detected : UInt32} {path : Bytes} {explicitPath : Bool}
    {file : ConfigFile} {env : Environment} {regularFileExists : Bytes → Bool} {cfg : Config}
    (eq : startupConfig detected path explicitPath file env regularFileExists = .ok cfg) :
    cfg.InRange := by
  have default := Config.default_inRange detected
  unfold startupConfig at eq
  obtain ⟨loaded, file', rest⟩ := bind_ok eq
  obtain ⟨overridden, env', last⟩ := bind_ok rest
  have read : loaded.cfg.InRange := by
    unfold startupFile at file'
    cases file with
    | absent =>
        dsimp only at file'
        split_ifs at file'
        cases file'
        exact default
    | unreadable =>
        dsimp only at file'
        exact loadConfig_inRange default (mapError_ok file')
    | text content =>
        dsimp only at file'
        exact loadConfig_inRange default (mapError_ok file')
  have applied := applyEnvOverrides_keepsRange env _ _ read (mapError_ok env')
  cases last
  exact applyDefaultDbPaths_inRange applied _ _

theorem toPort_eq_self {n : Int} (low : 0 ≤ n) (high : n < 2 ^ 16) : (toPort n : Int) = n := by
  unfold toPort
  omega

/-- **A configuration that reaches the server is in range**, and with it every
number the server converts: the pool has workers, the port is the configured
one, and no poll timeout of the loop is cut off. -/
theorem startupConfig_safe {detected : UInt32} {path : Bytes} {explicitPath : Bool}
    {file : ConfigFile} {env : Environment} {regularFileExists : Bytes → Bool} {cfg : Config}
    (started : startupConfig detected path explicitPath file env regularFileExists = .ok cfg) :
    ((1 ≤ cfg.threads ∧ cfg.threads ≤ 256) ∧
      (256 ≤ cfg.maxRequestBytes ∧ cfg.maxRequestBytes ≤ 2 ^ 20) ∧
      (0 ≤ cfg.tcpPort ∧ cfg.tcpPort ≤ 65535) ∧ cfg.socketMode ≤ 0o7777 ∧
      (1 ≤ cfg.metricsIntervalSeconds ∧ cfg.metricsIntervalSeconds ≤ 86400)) ∧
    (toSize cfg.threads : Int) = cfg.threads ∧
    (∀ α, (ThreadPool.start (toSize cfg.threads) : ThreadPool α).workers ≠ []) ∧
    (toPort cfg.tcpPort : Int) = cfg.tcpPort ∧
    ∀ start ticks, MonotonicClock start ticks → ∀ top ∈ runLoop cfg start ticks,
      (pollTimeoutMs cfg top.1 top.2 = -1 ∨
        0 ≤ pollTimeoutMs cfg top.1 top.2 ∧ pollTimeoutMs cfg top.1 top.2 ≤ 86400000) ∧
      (cfg.metricsFile ≠ [] → pollTimeoutMs cfg top.1 top.2 = remainingMs top.1 top.2) := by
  have range := startupConfig_inRange started
  have threads := range.threads
  have port := range.tcpPort
  have interval := range.metricsIntervalSeconds
  have size := toSize_eq_self (n := cfg.threads) (by omega) (by omega)
  refine ⟨⟨threads, range.maxRequestBytes, port, range.socketMode, interval⟩, size, ?_,
    toPort_eq_self port.1 (by omega), ?_⟩
  · intro α empty
    have none' : toSize cfg.threads = 0 := by simpa [ThreadPool.start] using empty
    omega
  · intro start ticks forward top mem
    have near : top.1 - top.2 ≤ 86400 * 1000000000 := by
      refine iterations_near ?_ ?_ forward top mem
      · omega
      · omega
    obtain ⟨low, high⟩ := remainingMs_bounds near
    have exact' := toInt_eq_self low (by omega)
    unfold pollTimeoutMs
    split_ifs with disabled
    · exact ⟨.inl rfl, fun enabled => absurd disabled enabled⟩
    · rw [exact']
      exact ⟨.inr ⟨low, high⟩, fun _ => rfl⟩

/-- A host that reports 2^31 cores, and a loop that writes its metrics once. -/
theorem startupConfig_safe_wrapped :
    startupConfig 0x80000000 (ascii "/etc/nshgeoip/nshgeoip.conf") false
        (.text (ascii "metrics_file = /run/m\nmetrics_interval_seconds = 86400\n")) (fun _ => none)
        (fun _ => false)
      = .ok { Config.default 0x80000000 with
          metricsFile := ascii "/run/m", metricsIntervalSeconds := 86400 } ∧
    MonotonicClock 5 [.served 7 9 11 true, .interrupted 12] ∧
    ∃ cfg, cfg.threads = 4 ∧
      ∀ top ∈ runLoop cfg 5 [.served 7 9 11 true, .interrupted 12],
        pollTimeoutMs cfg top.1 top.2 = -1 ∨
          0 ≤ pollTimeoutMs cfg top.1 top.2 ∧ pollTimeoutMs cfg top.1 top.2 ≤ 86400000 := by
  have started : startupConfig 0x80000000 (ascii "/etc/nshgeoip/nshgeoip.conf") false
        (.text (ascii "metrics_file = /run/m\nmetrics_interval_seconds = 86400\n")) (fun _ => none)
        (fun _ => false)
      = .ok { Config.default 0x80000000 with
          metricsFile := ascii "/run/m", metricsIntervalSeconds := 86400 } := by decide +kernel
  have forward : MonotonicClock 5 [.served 7 9 11 true, .interrupted 12] := by
    unfold MonotonicClock
    decide
  refine ⟨started, forward, _, ?_, fun top mem =>
    ((startupConfig_safe started).2.2.2.2 5 _ forward top mem).1⟩
  decide +kernel

end Nshgeoip
