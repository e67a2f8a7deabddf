import Nshgeoip.Lib.Overlay
import Nshgeoip.Config

/-!
The law of the effective configuration.

Every key has a kind, and `interpret` says what a value means for it, in terms
of literals and words alone. The file and the environment are two layers over
the defaults: each of the two functions that read them is shown to lay exactly
the interpreted values of its source over the record (`Lays`), although the
source validates every key twice in separately written code.
-/

namespace Nshgeoip

open ByteText Overlay

/-! ### Keys and their values -/

inductive Key where
  | countryDb
  | asnDb
  | cityDb
  | socket
  | socketMode
  | threads
  | maxRequestBytes
  | debugLog
  | tcpPort
  | tcpAddress
  | metricsFile
  | metricsIntervalSeconds
  deriving DecidableEq

namespace Key

def all : List Key :=
  [countryDb, asnDb, cityDb, socket, socketMode, threads, maxRequestBytes, debugLog, tcpPort,
    tcpAddress, metricsFile, metricsIntervalSeconds]

theorem mem_all (key : Key) : key ∈ all := by cases key <;> decide

/-- The key in the file. -/
def name : Key → Bytes
  | countryDb => ascii "country_db"
  | asnDb => ascii "asn_db"
  | cityDb => ascii "city_db"
  | socket => ascii "socket"
  | socketMode => ascii "socket_mode"
  | threads => ascii "threads"
  | maxRequestBytes => ascii "max_request_bytes"
  | debugLog => ascii "debug_log"
  | tcpPort => ascii "tcp_port"
  | tcpAddress => ascii "tcp_address"
  | metricsFile => ascii "metrics_file"
  | metricsIntervalSeconds => ascii "metrics_interval_seconds"

/-- The variable in the environment. -/
def variableName : Key → Bytes
  | countryDb => ascii "NSHGEOIP_COUNTRY_DB"
  | asnDb => ascii "NSHGEOIP_ASN_DB"
  | cityDb => ascii "NSHGEOIP_CITY_DB"
  | socket => ascii "NSHGEOIP_SOCKET"
  | socketMode => ascii "NSHGEOIP_SOCKET_MODE"
  | threads => ascii "NSHGEOIP_THREADS"
  | maxRequestBytes => ascii "NSHGEOIP_MAX_REQUEST_BYTES"
  | debugLog => ascii "NSHGEOIP_DEBUG_LOG"
  | tcpPort => ascii "NSHGEOIP_TCP_PORT"
  | tcpAddress => ascii "NSHGEOIP_TCP_ADDRESS"
  | metricsFile => ascii "NSHGEOIP_METRICS_FILE"
  | metricsIntervalSeconds => ascii "NSHGEOIP_METRICS_INTERVAL_SECONDS"

def ofName (name : Bytes) : Option Key := all.find? fun key => key.name = name

end Key

inductive Kind where
  | text
  | number (base : Nat) (low high : Int)
  | flag

def Key.kind : Key → Kind
  | socketMode => .number 8 0 0o7777
  | threads => .number 10 1 256
  | maxRequestBytes => .number 10 256 1048576
  | tcpPort => .number 10 1 65535
  | metricsIntervalSeconds => .number 10 1 86400
  | debugLog => .flag
  | _ => .text

inductive Setting where
  | text (s : Bytes)
  | number (n : Int)
  | flag (b : Bool)
  deriving DecidableEq

def onWords : List Bytes := [ascii "1", ascii "true", ascii "yes", ascii "on"]

def offWords : List Bytes := [ascii "0", ascii "false", ascii "no", ascii "off"]

/-- What a value means for a kind of key. -/
inductive Denotes : Kind → Bytes → Setting → Prop where
  | text {value : Bytes} : Denotes .text value (.text value)
  | number {base : Nat} {low high n : Int} {value : Bytes} :
      IntegerLiteral base value n → low ≤ n → n ≤ high →
        Denotes (.number base low high) value (.number n)
  | on {value : Bytes} : toLower value ∈ onWords → Denotes .flag value (.flag true)
  | off {value : Bytes} : toLower value ∈ offWords → Denotes .flag value (.flag false)

/-- The interpretation of a key's value; `none` rejects it. -/
def interpret (key : Key) (value : Bytes) : Option Setting :=
  match key.kind with
  | .text => some (.text value)
  | .number base low high =>
      match scanInteger base value with
      | some (n, []) => if low ≤ n ∧ n ≤ high then some (.number n) else none
      | _ => none
  | .flag =>
      if toLower value ∈ onWords then some (.flag true)
      else if toLower value ∈ offWords then some (.flag false)
      else none

/-- The field of a key. -/
def Config.get (cfg : Config) : Key → Setting
  | .countryDb => .text cfg.countryDb
  | .asnDb => .text cfg.asnDb
  | .cityDb => .text cfg.cityDb
  | .socket => .text cfg.socketPath
  | .socketMode => .number cfg.socketMode
  | .threads => .number cfg.threads
  | .maxRequestBytes => .number cfg.maxRequestBytes
  | .debugLog => .flag cfg.debugLog
  | .tcpPort => .number cfg.tcpPort
  | .tcpAddress => .text cfg.tcpAddress
  | .metricsFile => .text cfg.metricsFile
  | .metricsIntervalSeconds => .number cfg.metricsIntervalSeconds

/-! ### Lines -/

/-- A line that is neither blank nor a comment. -/
def isEntry (line : Bytes) : Bool := decide (trim line ≠ [] ∧ (trim line).head? ≠ some 35)

/-- An entry without `=`. -/
def isKeyless (line : Bytes) : Bool := isEntry line && decide (61 ∉ trim line)

/-- The known key an entry is for, and its trimmed value. -/
def assigns (line : Bytes) : Option (Key × Bytes) :=
  if isEntry line then
    (cut [61] (trim line)).bind fun parts =>
      (Key.ofName (trim parts.1)).map fun key => (key, trim parts.2)
  else none

/-- The values the file gives to known keys, in order. -/
def settings (text : Bytes) : List (Key × Bytes) := (text.splitOn 10).filterMap assigns

/-! ### Interpretation -/

theorem on_not_off {word : Bytes} (on : word ∈ onWords) : word ∉ offWords := by
  have apart : onWords.all (fun w => !offWords.contains w) = true := rfl
  simpa using List.all_eq_true.mp apart word on

theorem interpret_iff {key : Key} {value : Bytes} {setting : Setting} :
    interpret key value = some setting ↔ Denotes key.kind value setting := by
  unfold interpret
  cases key.kind with
  | text =>
      constructor
      · rintro ⟨⟩
        exact .text
      · rintro ⟨⟩
        rfl
  | number base low high =>
      dsimp only
      constructor
      · intro h
        split at h
        · rename_i n scanned
          split_ifs at h with range
          cases h
          exact .number (scanInteger_iff.mp scanned) range.1 range.2
        · cases h
      · rintro (_ | ⟨literal, lower, upper⟩)
        simp only [scanInteger_iff.mpr literal, if_pos (And.intro lower upper)]
  | flag =>
      dsimp only
      constructor
      · intro h
        split_ifs at h with on off
        · cases h
          exact .on on
        · cases h
          exact .off off
      · intro h
        cases h with
        | on on => rw [if_pos on]
        | off off =>
            rw [if_neg fun on => on_not_off on off, if_pos off]

theorem parseLong_iff {value : Bytes} (nulFree : 0 ∉ value) {base : Nat} {n : Int} :
    parseLong value base = some n ↔ IntegerLiteral base value n ∧ longMin ≤ n ∧ n ≤ longMax := by
  rw [← strtol_whole_iff]
  unfold parseLong
  rw [cString_eq_self nulFree]
  constructor
  · intro h
    split_ifs at h with empty
    split at h
    · cases h
    · rename_i out eq
      split_ifs at h with bad
      obtain ⟨range, rest⟩ := not_or.mp bad
      obtain ⟨v, erange, rest'⟩ := out
      simp only [Bool.not_eq_true] at range
      simp only [ne_eq, not_not] at rest
      cases h
      rw [eq, range, rest]
  · intro h
    have nonempty : value ≠ [] := by
      rintro rfl
      cases h
    rw [if_neg nonempty, h]
    rfl

theorem boundedLong_iff {value : Bytes} (nulFree : 0 ∉ value) {base : Nat} {low high n : Int}
    (fitsLow : longMin ≤ low) (fitsHigh : high ≤ longMax) :
    boundedLong value base low high = some n ↔ IntegerLiteral base value n ∧ low ≤ n ∧ n ≤ high := by
  unfold boundedLong
  constructor
  · intro h
    split at h
    · cases h
    · rename_i v parsed
      split_ifs at h with bad
      cases h
      obtain ⟨literal, -, -⟩ := (parseLong_iff nulFree).mp parsed
      obtain ⟨lower, upper⟩ := not_or.mp bad
      exact ⟨literal, Int.not_lt.mp lower, Int.not_lt.mp upper⟩
  · rintro ⟨literal, lower, upper⟩
    have parsed := (parseLong_iff nulFree).mpr ⟨literal, fitsLow.trans lower, upper.trans fitsHigh⟩
    have inside : ¬ (n < low ∨ n > high) :=
      not_or.mpr ⟨Int.not_lt.mpr lower, Int.not_lt.mpr upper⟩
    simp only [parsed, if_neg inside]

/-- The bounded integers of the code are the number kinds of the law. -/
theorem interpret_number {key : Key} {base : Nat} {low high : Int}
    (kind : key.kind = .number base low high) (fitsLow : longMin ≤ low) (fitsHigh : high ≤ longMax)
    {value : Bytes} (nulFree : 0 ∉ value) :
    interpret key value = (boundedLong value base low high).map .number := by
  refine Option.ext fun setting => ?_
  rw [interpret_iff, kind, Option.map_eq_some_iff]
  constructor
  · rintro (_ | ⟨literal, lower, upper⟩)
    exact ⟨_, (boundedLong_iff nulFree fitsLow fitsHigh).mpr ⟨literal, lower, upper⟩, rfl⟩
  · rintro ⟨n, bounded, rfl⟩
    obtain ⟨literal, lower, upper⟩ := (boundedLong_iff nulFree fitsLow fitsHigh).mp bounded
    exact .number literal lower upper

theorem interpret_flag {key : Key} (kind : key.kind = .flag) (value : Bytes) :
    interpret key value = (parseBool value).map .flag := by
  unfold interpret parseBool
  simp only [kind, onWords, offWords, List.mem_cons, List.not_mem_nil, or_false]
  split_ifs <;> rfl

/-! ### Fields -/

theorem toInt_eq_self {n : Int} (low : 0 ≤ n) (high : n < 2 ^ 31) : toInt n = n := by
  unfold toInt
  rw [Int.bmod_eq_of_le] <;> omega

theorem toMode_eq_self {n : Int} (low : 0 ≤ n) (high : n < 2 ^ 32) : (toMode n : Int) = n := by
  unfold toMode
  omega

theorem toSize_eq_self {n : Int} (low : 0 ≤ n) (high : n < 2 ^ 64) : (toSize n : Int) = n := by
  unfold toSize
  omega

theorem Config.get_update {cfg cfg' : Config} {key : Key} {setting : Setting}
    (here : cfg'.get key = setting) (others : ∀ k, k ≠ key → cfg'.get k = cfg.get k) :
    cfg'.get = apply cfg.get [(key, setting)] := by
  funext k
  by_cases same : k = key
  · subst same
    simpa [apply] using here
  · simpa [apply, same] using others k same

/-- The fields of all keys but one. -/
def Config.getOthers (cfg : Config) (key : Key) : List Setting := (Key.all.erase key).map cfg.get

theorem Config.get_of_getOthers {cfg cfg' : Config} {key k : Key}
    (same : cfg'.getOthers key = cfg.getOthers key) (other : k ≠ key) : cfg'.get k = cfg.get k :=
  List.map_inj_left.mp same k ((List.mem_erase_of_ne other).mpr (Key.mem_all k))

/-- How a key is read, in the file and in the environment: its value goes
through `parse`, and `store` changes its field alone. -/
structure Reads {α : Type} (key : Key) (parse : Bytes → Option α) (store : Config → α → Config) :
    Prop where
  refused : ∀ value, 0 ∉ value → parse value = none → interpret key value = none
  stored : ∀ value, 0 ∉ value → ∀ x, parse value = some x → ∀ cfg,
    interpret key value = some ((store cfg x).get key) ∧
      ∀ k, k ≠ key → (store cfg x).get k = cfg.get k

theorem Reads.of_text {key : Key} {store : Config → Bytes → Config} (kind : key.kind = .text)
    (here : ∀ cfg value, (store cfg value).get key = .text value)
    (others : ∀ cfg value, (store cfg value).getOthers key = cfg.getOthers key) :
    Reads key some store where
  refused := fun _ _ h => by cases h
  stored := by
    rintro value - x ⟨⟩ cfg
    refine ⟨?_, fun k => Config.get_of_getOthers (others cfg value)⟩
    rw [here, interpret, kind]

theorem Reads.of_number {key : Key} {base : Nat} {low high : Int} {store : Config → Int → Config}
    (kind : key.kind = .number base low high) (fitsLow : longMin ≤ low) (fitsHigh : high ≤ longMax)
    (here : ∀ cfg n, low ≤ n → n ≤ high → (store cfg n).get key = .number n)
    (others : ∀ cfg n, (store cfg n).getOthers key = cfg.getOthers key) :
    Reads key (boundedLong · base low high) store where
  refused := by
    intro value nulFree h
    rw [interpret_number kind fitsLow fitsHigh nulFree, h]
    rfl
  stored := by
    intro value nulFree n h cfg
    refine ⟨?_, fun k => Config.get_of_getOthers (others cfg n)⟩
    obtain ⟨-, lower, upper⟩ := (boundedLong_iff nulFree fitsLow fitsHigh).mp h
    rw [interpret_number kind fitsLow fitsHigh nulFree, h, here cfg n lower upper]
    rfl

theorem reads_countryDb : Reads .countryDb some fun cfg v => { cfg with countryDb := v } :=
  .of_text rfl (fun _ _ => rfl) fun _ _ => rfl

theorem reads_asnDb : Reads .asnDb some fun cfg v => { cfg with asnDb := v } :=
  .of_text rfl (fun _ _ => rfl) fun _ _ => rfl

theorem reads_cityDb : Reads .cityDb some fun cfg v => { cfg with cityDb := v } :=
  .of_text rfl (fun _ _ => rfl) fun _ _ => rfl

theorem reads_socket : Reads .socket some fun cfg v => { cfg with socketPath := v } :=
  .of_text rfl (fun _ _ => rfl) fun _ _ => rfl

theorem reads_tcpAddress : Reads .tcpAddress some fun cfg v => { cfg with tcpAddress := v } :=
  .of_text rfl (fun _ _ => rfl) fun _ _ => rfl

theorem reads_metricsFile : Reads .metricsFile some fun cfg v => { cfg with metricsFile := v } :=
  .of_text rfl (fun _ _ => rfl) fun _ _ => rfl

theorem reads_socketMode : Reads .socketMode (boundedLong · 8 0 0o7777)
    fun cfg mode => { cfg with socketMode := toMode mode } := by
  refine .of_number rfl (by decide) (by decide) ?_ fun _ _ => rfl
  intro cfg n lower upper
  exact congrArg Setting.number (toMode_eq_self lower (by omega))

theorem reads_threads : Reads .threads (boundedLong · 10 1 256)
    fun cfg threads => { cfg with threads := toInt threads } := by
  refine .of_number rfl (by decide) (by decide) ?_ fun _ _ => rfl
  intro cfg n lower upper
  exact congrArg Setting.number (toInt_eq_self (by omega) (by omega))

theorem reads_maxRequestBytes : Reads .maxRequestBytes (boundedLong · 10 256 (1 <<< 20))
    fun cfg bytes => { cfg with maxRequestBytes := toSize bytes } := by
  refine .of_number rfl (by decide) (by decide) ?_ fun _ _ => rfl
  intro cfg n lower upper
  have bound : n ≤ 1048576 := upper
  exact congrArg Setting.number (toSize_eq_self (by omega) (by omega))

theorem reads_metricsIntervalSeconds : Reads .metricsIntervalSeconds (boundedLong · 10 1 86400)
    fun cfg interval => { cfg with metricsIntervalSeconds := toInt interval } := by
  refine .of_number rfl (by decide) (by decide) ?_ fun _ _ => rfl
  intro cfg n lower upper
  exact congrArg Setting.number (toInt_eq_self (by omega) (by omega))

theorem reads_debugLog : Reads .debugLog parseBool fun cfg debug => { cfg with debugLog := debug } where
  refused := by
    intro value _ h
    rw [interpret_flag rfl, h]
    rfl
  stored := by
    intro value _ x h cfg
    refine ⟨by rw [interpret_flag rfl, h]; rfl, fun k => Config.get_of_getOthers rfl⟩

theorem reads_tcpPort : Reads .tcpPort parsePort fun cfg port => { cfg with tcpPort := port } where
  refused := by
    intro value nulFree h
    rw [interpret_number rfl (by decide) (by decide) nulFree, Option.map_eq_none_iff.mp h]
    rfl
  stored := by
    intro value nulFree x h cfg
    obtain ⟨n, bounded, rfl⟩ := Option.map_eq_some_iff.mp h
    obtain ⟨-, lower, upper⟩ := (boundedLong_iff nulFree (by decide) (by decide)).mp bounded
    constructor
    · rw [interpret_number rfl (by decide) (by decide) nulFree, bounded]
      exact congrArg (some ∘ Setting.number) (toInt_eq_self (by omega) (by omega)).symm
    · exact fun k => Config.get_of_getOthers rfl

/-! ### The file lays its settings -/

/-- The two halves of a computation that went through. -/
theorem bind_ok {ε α β : Type} {x : Except ε α} {f : α → Except ε β} {b : β}
    (h : x >>= f = .ok b) : ∃ a, x = .ok a ∧ f a = .ok b := by
  cases x with
  | error e => cases h
  | ok a => exact ⟨a, rfl, h⟩

theorem orInvalid_ok {α : Type} {parsed : Option α} {store : α → Config} {complaint : String}
    {cfg : Config} (h : orInvalid parsed store complaint = .ok cfg) :
    ∃ x, parsed = some x ∧ store x = cfg := by
  cases parsed with
  | none => cases h
  | some x => exact ⟨x, rfl, Except.ok.inj h⟩

/-- What a source gives to a key, as a part of a layer. -/
def given (key : Key) (value : Bytes) : Part Key Setting :=
  (interpret key value).map fun setting => [(key, setting)]

/-- A known key is refused exactly when its interpretation rejects the value. -/
theorem setKey_reads {α : Type} {key : Key} {parse : Bytes → Option α}
    {store : Config → α → Config} (reads : Reads key parse store) (complaint : String) {cfg : Config}
    {value : Bytes} (nulFree : 0 ∉ value)
    (eq : setKey cfg key.name value = some (orInvalid (parse value) (store cfg) complaint)) :
    (given key value = none ∧ ∃ e, setKey cfg key.name value = some (.error e)) ∨
      ∃ l cfg', given key value = some l ∧ setKey cfg key.name value = some (.ok cfg') ∧
        cfg'.get = apply cfg.get l := by
  rw [eq]
  cases parsed : parse value with
  | none =>
      refine .inl ⟨?_, _, rfl⟩
      rw [given, reads.refused value nulFree parsed]
      rfl
  | some x =>
      obtain ⟨means, others⟩ := reads.stored value nulFree x parsed cfg
      refine .inr ⟨_, store cfg x, ?_, rfl, Config.get_update rfl others⟩
      rw [given, means]
      rfl

theorem setKey_known (key : Key) (cfg : Config) {value : Bytes} (nulFree : 0 ∉ value) :
    (given key value = none ∧ ∃ e, setKey cfg key.name value = some (.error e)) ∨
      ∃ l cfg', given key value = some l ∧ setKey cfg key.name value = some (.ok cfg') ∧
        cfg'.get = apply cfg.get l := by
  cases key with
  | countryDb => exact setKey_reads reads_countryDb "" nulFree rfl
  | asnDb => exact setKey_reads reads_asnDb "" nulFree rfl
  | cityDb => exact setKey_reads reads_cityDb "" nulFree rfl
  | socket => exact setKey_reads reads_socket "" nulFree rfl
  | socketMode => exact setKey_reads reads_socketMode _ nulFree rfl
  | threads => exact setKey_reads reads_threads _ nulFree rfl
  | maxRequestBytes => exact setKey_reads reads_maxRequestBytes _ nulFree rfl
  | debugLog => exact setKey_reads reads_debugLog _ nulFree rfl
  | tcpPort => exact setKey_reads reads_tcpPort _ nulFree rfl
  | tcpAddress => exact setKey_reads reads_tcpAddress "" nulFree rfl
  | metricsFile => exact setKey_reads reads_metricsFile "" nulFree rfl
  | metricsIntervalSeconds => exact setKey_reads reads_metricsIntervalSeconds _ nulFree rfl

theorem Key.ofName_eq_some {name : Bytes} {key : Key} (h : Key.ofName name = some key) :
    key.name = name := by
  simpa using List.find?_some h

/-- A name that is no key's goes through the whole chain. -/
theorem setKey_unknown {name : Bytes} (unknown : Key.ofName name = none) (cfg : Config)
    (value : Bytes) : setKey cfg name value = none := by
  have differs : ∀ key : Key, ¬ name = key.name := by
    intro key same
    have := List.find?_eq_none.mp unknown key (Key.mem_all key)
    exact this (by simp [same])
  unfold setKey
  refine (if_neg (differs .countryDb)).trans ?_
  refine (if_neg (differs .asnDb)).trans ?_
  refine (if_neg (differs .cityDb)).trans ?_
  refine (if_neg (differs .socket)).trans ?_
  refine (if_neg (differs .socketMode)).trans ?_
  refine (if_neg (differs .threads)).trans ?_
  refine (if_neg (differs .maxRequestBytes)).trans ?_
  refine (if_neg (differs .debugLog)).trans ?_
  refine (if_neg (differs .tcpPort)).trans ?_
  refine (if_neg (differs .tcpAddress)).trans ?_
  refine (if_neg (differs .metricsFile)).trans ?_
  refine (if_neg (differs .metricsIntervalSeconds)).trans ?_
  rfl

/-- What a key that is accepted does to the configuration. -/
inductive Stores (cfg : Config) (value : Bytes) : Key → Config → Prop where
  | countryDb : Stores cfg value .countryDb { cfg with countryDb := value }
  | asnDb : Stores cfg value .asnDb { cfg with asnDb := value }
  | cityDb : Stores cfg value .cityDb { cfg with cityDb := value }
  | socket : Stores cfg value .socket { cfg with socketPath := value }
  | socketMode {mode : ℤ} : boundedLong value 8 0 0o7777 = some mode →
      Stores cfg value .socketMode { cfg with socketMode := toMode mode }
  | threads {threads : ℤ} : boundedLong value 10 1 256 = some threads →
      Stores cfg value .threads { cfg with threads := toInt threads }
  | maxRequestBytes {bytes : ℤ} : boundedLong value 10 256 (1 <<< 20) = some bytes →
      Stores cfg value .maxRequestBytes { cfg with maxRequestBytes := toSize bytes }
  | debugLog {debug : Bool} : parseBool value = some debug →
      Stores cfg value .debugLog { cfg with debugLog := debug }
  | tcpPort {port : ℤ} : parsePort value = some port →
      Stores cfg value .tcpPort { cfg with tcpPort := port }
  | tcpAddress : Stores cfg value .tcpAddress { cfg with tcpAddress := value }
  | metricsFile : Stores cfg value .metricsFile { cfg with metricsFile := value }
  | metricsIntervalSeconds {interval : ℤ} : boundedLong value 10 1 86400 = some interval →
      Stores cfg value .metricsIntervalSeconds
        { cfg with metricsIntervalSeconds := toInt interval }

/-- A key that is accepted is a known one and stores its value. -/
theorem setKey_stores {cfg cfg' : Config} {key value : Bytes}
    (eq : setKey cfg key value = some (.ok cfg')) : ∃ k : Key, k.name = key ∧ Stores cfg value k cfg' := by
  cases known : Key.ofName key with
  | none =>
      rw [setKey_unknown known] at eq
      cases eq
  | some k =>
      obtain rfl := Key.ofName_eq_some known
      refine ⟨k, rfl, ?_⟩
      cases k with
      | countryDb =>
          obtain rfl : { cfg with countryDb := value } = cfg' := Except.ok.inj (Option.some.inj eq)
          exact .countryDb
      | asnDb =>
          obtain rfl : { cfg with asnDb := value } = cfg' := Except.ok.inj (Option.some.inj eq)
          exact .asnDb
      | cityDb =>
          obtain rfl : { cfg with cityDb := value } = cfg' := Except.ok.inj (Option.some.inj eq)
          exact .cityDb
      | socket =>
          obtain rfl : { cfg with socketPath := value } = cfg' := Except.ok.inj (Option.some.inj eq)
          exact .socket
      | socketMode =>
          obtain ⟨mode, parsed, rfl⟩ := orInvalid_ok (Option.some.inj eq)
          exact .socketMode parsed
      | threads =>
          obtain ⟨threads, parsed, rfl⟩ := orInvalid_ok (Option.some.inj eq)
          exact .threads parsed
      | maxRequestBytes =>
          obtain ⟨bytes, parsed, rfl⟩ := orInvalid_ok (Option.some.inj eq)
          exact .maxRequestBytes parsed
      | debugLog =>
          obtain ⟨debug, parsed, rfl⟩ := orInvalid_ok (Option.some.inj eq)
          exact .debugLog parsed
      | tcpPort =>
          obtain ⟨port, parsed, rfl⟩ := orInvalid_ok (Option.some.inj eq)
          exact .tcpPort parsed
      | tcpAddress =>
          obtain rfl : { cfg with tcpAddress := value } = cfg' := Except.ok.inj (Option.some.inj eq)
          exact .tcpAddress
      | metricsFile =>
          obtain rfl : { cfg with metricsFile := value } = cfg' := Except.ok.inj (Option.some.inj eq)
          exact .metricsFile
      | metricsIntervalSeconds =>
          obtain ⟨interval, parsed, rfl⟩ := orInvalid_ok (Option.some.inj eq)
          exact .metricsIntervalSeconds parsed

/-- What a line means: nothing, one assignment, or a refusal. -/
def lineMeaning (line : Bytes) : Part Key Setting :=
  if isKeyless line then none
  else
    match assigns line with
    | none => some []
    | some (key, value) => given key value

theorem assigns_of_not_entry {line : Bytes} (h : isEntry line = false) : assigns line = none := by
  rw [assigns, if_neg (by simp [h])]

theorem assigns_of_entry {line front back : Bytes} (h : isEntry line = true)
    (split : cut [61] (trim line) = some (front, back)) :
    assigns line = (Key.ofName (trim front)).map fun key => (key, trim back) := by
  rw [assigns, if_pos h, split]
  rfl

theorem isKeyless_of_cut {line : Bytes} {out : Bytes × Bytes} (split : cut [61] (trim line) = some out) :
    isKeyless line = false := by
  obtain ⟨front, back⟩ := out
  have present : 61 ∈ trim line := by
    rw [(cut_byte_iff.mp split).1]
    simp
  simp [isKeyless, present]

theorem isKeyless_of_no_cut {line : Bytes} (entry : isEntry line = true)
    (split : cut [61] (trim line) = none) : isKeyless line = true := by
  have absent : 61 ∉ trim line := by
    intro mem
    obtain ⟨front, back, eq⟩ := List.append_of_mem mem
    have infix' : [61] <:+: trim line := ⟨front, back, by simp [eq]⟩
    exact cut_eq_none_iff.mp split infix'
  simp [isKeyless, entry, absent]

/-- One iteration of the loop lays what the line means. -/
theorem loadLine_lays (path line : Bytes) (lineNo : Nat) (nulFree : 0 ∉ line) :
    Lays (fun s : Loaded => s.cfg.get) [lineMeaning line] (loadLine path · (line, lineNo)) := by
  intro s
  dsimp only
  cases entry : isEntry line with
  | false =>
      have skipped : trim line = [] ∨ (trim line).head? = some 35 := by
        simp only [isEntry, decide_eq_false_iff_not] at entry
        tauto
      have nothing : lineMeaning line = some [] := by
        simp [lineMeaning, isKeyless, entry, assigns_of_not_entry entry]
      refine .inr ⟨s, ?_, by simp [nothing], by simp [nothing, apply]⟩
      simp only [loadLine, if_pos skipped]
  | true =>
      have kept : ¬ (trim line = [] ∨ (trim line).head? = some 35) := by
        simp only [isEntry, decide_eq_true_eq] at entry
        tauto
      cases split : cut [61] (trim line) with
      | none =>
          have keyless : lineMeaning line = none := by
            simp [lineMeaning, isKeyless_of_no_cut entry split]
          refine .inl ⟨atLine path lineNo (ascii "expected key=value"), ?_, by simp [keyless]⟩
          simp only [loadLine, if_neg kept, split]
      | some out =>
          obtain ⟨front, back⟩ := out
          have keyed := isKeyless_of_cut split
          have assigned := assigns_of_entry entry split
          have clean : 0 ∉ trim back := by
            intro mem
            refine nulFree (mem_of_mem_trim ?_)
            rw [(cut_byte_iff.mp split).1]
            exact List.mem_append_right _ (List.mem_cons_of_mem _ (mem_of_mem_trim mem))
          cases known : Key.ofName (trim front) with
          | none =>
              have nothing : lineMeaning line = some [] := by
                simp [lineMeaning, keyed, assigned, known]
              have unknown := setKey_unknown known s.cfg (trim back)
              let warning := atLine path lineNo
                (ascii "unknown config key '" ++ trim front ++ ascii "'")
              refine .inr ⟨{ s with warnings := s.warnings ++ [warning] }, ?_, by simp [nothing],
                by simp [nothing, apply]⟩
              simp only [loadLine, if_neg kept, split, unknown, warning]
          | some key =>
              have meaning : lineMeaning line = given key (trim back) := by
                simp [lineMeaning, keyed, assigned, known]
              have name := Key.ofName_eq_some known
              rcases setKey_known key s.cfg clean with ⟨none', e, eq⟩ | ⟨l, cfg', some', eq, got⟩
              · rw [name] at eq
                refine .inl ⟨atLine path lineNo e, ?_, by simp [meaning, none']⟩
                simp only [loadLine, if_neg kept, split, eq]
              · rw [name] at eq
                refine .inr ⟨{ s with cfg := cfg' }, ?_, by simp [meaning, some'], ?_⟩
                · simp only [loadLine, if_neg kept, split, eq]
                · simpa [meaning, some'] using got

theorem lineMeaning_nil : lineMeaning [] = some [] := rfl

/-- The lines of `getline` and the pieces between newlines differ by an empty
last one. -/
theorem getLines_pieces (text : Bytes) :
    text.splitOn 10 = getLines text ∨ text.splitOn 10 = getLines text ++ [[]] := by
  unfold getLines
  dsimp only
  split_ifs with trailing
  · exact .inr (List.dropLast_append_getLast? [] trailing).symm
  · exact .inl rfl

theorem loadLines_lays (path : Bytes) {text : Bytes} (nulFree : 0 ∉ text) :
    Lays (fun s : Loaded => s.cfg.get) ((getLines text).map lineMeaning)
      (((getLines text).zipIdx 1).foldlM (loadLine path)) := by
  have each : ∀ numbered ∈ (getLines text).zipIdx 1,
      Lays (fun s : Loaded => s.cfg.get) [lineMeaning numbered.1] (loadLine path · numbered) := by
    intro numbered mem
    have line : numbered.1 ∈ getLines text := by
      rw [← List.zipIdx_map_fst 1 (getLines text)]
      exact List.mem_map_of_mem mem
    have piece : numbered.1 ∈ text.splitOn 10 := by
      rcases getLines_pieces text with eq | eq
      · rwa [eq]
      · rw [eq]
        exact List.mem_append_left _ line
    exact loadLine_lays path numbered.1 numbered.2 fun nul => nulFree (mem_of_mem_splitOn piece nul)
  have all := Lays.foldlM each
  have parts : ((getLines text).zipIdx 1).map (fun numbered => lineMeaning numbered.1)
      = (getLines text).map lineMeaning := by
    conv_rhs => rw [← List.zipIdx_map_fst 1 (getLines text), List.map_map]
    rfl
  rwa [parts] at all

/-- `load_config` lays the lines of the file, the empty piece behind a final
newline included. -/
theorem loadConfig_lays (path : Bytes) {text : Bytes} (nulFree : 0 ∉ text) :
    Lays (fun s : Loaded => s.cfg.get) ((text.splitOn 10).map lineMeaning)
      (fun s => ((getLines text).zipIdx 1).foldlM (loadLine path) s) := by
  have all := loadLines_lays path nulFree
  rcases getLines_pieces text with eq | eq
  · rwa [eq]
  · rw [eq, List.map_append]
    intro s
    rcases all s with ⟨e, failed, bad⟩ | ⟨s', ok, good, got⟩
    · exact .inl ⟨e, failed, List.mem_append_left _ bad⟩
    · refine .inr ⟨s', ok, ?_, ?_⟩
      · simpa [lineMeaning_nil] using good
      · simpa [lineMeaning_nil] using got

/-! ### The environment lays its settings -/

/-- What a variable means: nothing if it is not set. -/
def variableMeaning (env : Environment) (key : Key) : Part Key Setting :=
  match env key.variableName with
  | none => some []
  | some value => given key value

theorem override_lays {α : Type} {key : Key} {parse : Bytes → Option α}
    {store : Config → α → Config} (reads : Reads key parse store) (env : Environment) {name : String}
    (named : ascii name = key.variableName) (complaint : String) :
    Lays Config.get [variableMeaning env key] (override env name parse store complaint) := by
  intro cfg
  unfold override variableMeaning
  rw [named]
  cases env key.variableName with
  | none => exact .inr ⟨cfg, rfl, by simp, rfl⟩
  | some value =>
      cases parsed : parse value with
      | none =>
          have refused := reads.refused value value.2 parsed
          let complaint := key.variableName ++ ascii ": invalid value (expected "
            ++ ascii complaint ++ ascii ")"
          exact .inl ⟨complaint, by simp only [parsed, complaint], by simp [given, refused]⟩
      | some x =>
          obtain ⟨means, others⟩ := reads.stored value value.2 x parsed cfg
          refine .inr ⟨store cfg x, by simp [parsed], by simp [given, means], ?_⟩
          have updated : (store cfg x).get = apply cfg.get [(key, (store cfg x).get key)] :=
            Config.get_update rfl others
          simpa [given, means] using updated

theorem applyEnvOverrides_lays (env : Environment) :
    Lays Config.get (Key.all.map (variableMeaning env)) (applyEnvOverrides env) := by
  refine (override_lays reads_countryDb env rfl "").bind ?_
  refine (override_lays reads_asnDb env rfl "").bind ?_
  refine (override_lays reads_cityDb env rfl "").bind ?_
  refine (override_lays reads_socket env rfl "").bind ?_
  refine (override_lays reads_socketMode env rfl _).bind ?_
  refine (override_lays reads_threads env rfl _).bind ?_
  refine (override_lays reads_maxRequestBytes env rfl _).bind ?_
  refine (override_lays reads_debugLog env rfl _).bind ?_
  refine (override_lays reads_tcpPort env rfl _).bind ?_
  refine (override_lays reads_tcpAddress env rfl "").bind ?_
  refine (override_lays reads_metricsFile env rfl "").bind ?_
  exact override_lays reads_metricsIntervalSeconds env rfl _

/-! ### The law -/

def variableValue (env : Environment) (key : Key) : Option Bytes :=
  (env key.variableName).map Subtype.val

/-- The variables that are set. -/
def overrides (env : Environment) : List (Key × Bytes) :=
  Key.all.filterMap fun key => (variableValue env key).map (key, ·)

theorem last_overrides (env : Environment) (key : Key) :
    last key (overrides env) = variableValue env key := by
  rw [overrides, last_table (variableValue env), if_pos (Key.mem_all key)]

/-- The assignments of a list of raw values, interpreted. -/
def interpreted (raw : List (Key × Bytes)) : List (Key × Setting) :=
  raw.filterMap fun a => (interpret a.1 a.2).map (a.1, ·)

theorem getD_given (key : Key) (value : Bytes) :
    (given key value).getD [] = ((interpret key value).map (key, ·)).toList := by
  unfold given
  cases interpret key value <;> rfl

theorem getD_lineMeaning (line : Bytes) :
    (lineMeaning line).getD []
      = ((assigns line).bind fun a => (interpret a.1 a.2).map (a.1, ·)).toList := by
  unfold lineMeaning
  split_ifs with keyless
  · -- a line without `=` assigns nothing
    have absent : assigns line = none := by
      simp only [isKeyless, Bool.and_eq_true, decide_eq_true_eq] at keyless
      have split : cut [61] (trim line) = none := by
        rw [cut_eq_none_iff]
        intro inside
        exact keyless.2 (inside.subset List.mem_cons_self)
      rw [assigns, if_pos keyless.1, split]
      rfl
    rw [absent]
    rfl
  · cases assigns line with
    | none => rfl
    | some a => exact getD_given a.1 a.2

theorem lineMeaning_eq_none_iff {line : Bytes} :
    lineMeaning line = none ↔
      isKeyless line = true ∨
        ∃ key value, assigns line = some (key, value) ∧ interpret key value = none := by
  unfold lineMeaning
  split_ifs with keyless
  · simp [keyless]
  · cases assigned : assigns line with
    | none => simp [keyless]
    | some a =>
        obtain ⟨key, value⟩ := a
        simp [keyless, given]

theorem file_assignments (text : Bytes) :
    ((text.splitOn 10).map lineMeaning).flatMap (·.getD []) = interpreted (settings text) := by
  rw [List.flatMap_map, interpreted, settings, List.filterMap_filterMap,
    List.filterMap_eq_flatMap_toList]
  simp only [getD_lineMeaning]

theorem getD_variableMeaning (env : Environment) (key : Key) :
    (variableMeaning env key).getD []
      = (((variableValue env key).map (key, ·)).bind fun a =>
          (interpret a.1 a.2).map (a.1, ·)).toList := by
  unfold variableMeaning variableValue
  cases env key.variableName with
  | none => rfl
  | some value => exact getD_given key value

theorem env_assignments (env : Environment) :
    (Key.all.map (variableMeaning env)).flatMap (·.getD []) = interpreted (overrides env) := by
  rw [List.flatMap_map, interpreted, overrides, List.filterMap_filterMap,
    List.filterMap_eq_flatMap_toList]
  simp only [getD_variableMeaning]

theorem variableMeaning_eq_none_iff {env : Environment} {key : Key} :
    variableMeaning env key = none ↔
      ∃ value, env key.variableName = some value ∧ interpret key value = none := by
  unfold variableMeaning
  cases env key.variableName with
  | none => simp
  | some value => simp [given]

/-- Where a layer has a value for a key it wins, and reading it commutes with
taking the last. -/
theorem apply_interpreted {raw : List (Key × Bytes)} (f : Key → Setting)
    (readable : ∀ a ∈ raw, (interpret a.1 a.2).isSome = true) (key : Key) :
    (∀ value, last key raw = some value →
        interpret key value = some (apply f (interpreted raw) key)) ∧
      (last key raw = none → apply f (interpreted raw) key = f key) := by
  have layer := apply_eq_last f (interpreted raw) key
  rw [interpreted, last_filterMap readable] at layer
  constructor
  · intro value found
    obtain ⟨setting, eq⟩ := Option.isSome_iff_exists.mp (readable _ (mem_of_last found))
    have eq' : interpret key value = some setting := eq
    rw [interpreted, layer, found, Option.bind_some, eq']
    rfl
  · intro absent
    rw [interpreted, layer, absent]
    rfl

theorem readable_settings {text : Bytes}
    (accepted : none ∉ (text.splitOn 10).map lineMeaning) :
    ∀ a ∈ settings text, (interpret a.1 a.2).isSome = true := by
  intro a mem
  obtain ⟨line, lineMem, assigned⟩ := List.mem_filterMap.mp mem
  by_contra rejected
  have none' : interpret a.1 a.2 = none := by simpa using rejected
  refine accepted (List.mem_map.mpr ⟨line, lineMem, ?_⟩)
  exact lineMeaning_eq_none_iff.mpr (.inr ⟨a.1, a.2, assigned, none'⟩)

theorem readable_overrides {env : Environment}
    (accepted : none ∉ Key.all.map (variableMeaning env)) :
    ∀ a ∈ overrides env, (interpret a.1 a.2).isSome = true := by
  intro a mem
  obtain ⟨key, keyMem, value⟩ := List.mem_filterMap.mp mem
  obtain ⟨raw, present, rfl⟩ := Option.map_eq_some_iff.mp value
  obtain ⟨v, set, rfl⟩ := Option.map_eq_some_iff.mp present
  by_contra rejected
  have none' : interpret key v = none := by simpa using rejected
  refine accepted (List.mem_map.mpr ⟨key, keyMem, ?_⟩)
  exact variableMeaning_eq_none_iff.mpr ⟨v, set, none'⟩

/-- `load_config` followed by `apply_env_overrides`. -/
def effectiveConfig (path text : Bytes) (env : Environment) (base : Config) : Except Bytes Config := do
  let loaded ← loadConfig path (some text) base
  applyEnvOverrides env loaded.cfg

theorem effectiveConfig_lays (path : Bytes) {text : Bytes} (nulFree : 0 ∉ text) (env : Environment)
    (base : Config) :
    (∃ e, effectiveConfig path text env base = .error e ∧
        (none ∈ (text.splitOn 10).map lineMeaning ∨ none ∈ Key.all.map (variableMeaning env))) ∨
      ∃ cfg, effectiveConfig path text env base = .ok cfg ∧
        none ∉ (text.splitOn 10).map lineMeaning ∧ none ∉ Key.all.map (variableMeaning env) ∧
        cfg.get = apply (apply base.get (interpreted (settings text)))
          (interpreted (overrides env)) := by
  unfold effectiveConfig loadConfig
  dsimp only
  have file := loadConfig_lays path nulFree ⟨base, []⟩
  dsimp only at file
  rcases file with ⟨e, failed, bad⟩ | ⟨loaded, ok, good, got⟩
  · exact .inl ⟨e, by rw [failed]; rfl, .inl bad⟩
  · rw [ok]
    rcases applyEnvOverrides_lays env loaded.cfg with ⟨e, failed, bad⟩ | ⟨cfg, ok', good', got'⟩
    · exact .inl ⟨e, failed, .inr bad⟩
    · refine .inr ⟨cfg, ok', good, good', ?_⟩
      rw [got', got, file_assignments, env_assignments]

/-- **The law of the effective configuration.** There is one interpretation for
each key; reading fails exactly on a line without `=`, a line whose value is
rejected or a variable whose value is rejected; and otherwise a variable beats
the last line for the key, which beats the default. -/
theorem effectiveConfig_law (path : Bytes) (detected : UInt32) (env : Environment) {text : Bytes}
    (nulFree : 0 ∉ text) :
    (∀ key value setting, interpret key value = some setting ↔ Denotes key.kind value setting) ∧
    ((∃ e, effectiveConfig path text env (Config.default detected) = .error e) ↔
      (∃ line ∈ text.splitOn 10, isKeyless line = true) ∨
      (∃ line ∈ text.splitOn 10, ∃ key value,
        assigns line = some (key, value) ∧ interpret key value = none) ∨
      ∃ key value, env (Key.variableName key) = some value ∧ interpret key value = none) ∧
    ∀ cfg, effectiveConfig path text env (Config.default detected) = .ok cfg → ∀ key,
      match env (Key.variableName key), last key (settings text) with
      | some value, _ => interpret key value = some (cfg.get key)
      | none, some value => interpret key value = some (cfg.get key)
      | none, none => cfg.get key = (Config.default detected).get key := by
  refine ⟨fun key value setting => interpret_iff, ?_, ?_⟩
  · have bad : (none ∈ (text.splitOn 10).map lineMeaning ∨ none ∈ Key.all.map (variableMeaning env))
        ↔ (∃ line ∈ text.splitOn 10, isKeyless line = true) ∨
          (∃ line ∈ text.splitOn 10, ∃ key value,
            assigns line = some (key, value) ∧ interpret key value = none) ∨
          ∃ key value, env (Key.variableName key) = some value ∧ interpret key value = none := by
      simp only [List.mem_map, lineMeaning_eq_none_iff, variableMeaning_eq_none_iff, Key.mem_all,
        true_and]
      constructor
      · rintro (⟨line, mem, keyless | assigned⟩ | set)
        · exact .inl ⟨line, mem, keyless⟩
        · exact .inr (.inl ⟨line, mem, assigned⟩)
        · exact .inr (.inr set)
      · rintro (⟨line, mem, keyless⟩ | ⟨line, mem, assigned⟩ | set)
        · exact .inl ⟨line, mem, .inl keyless⟩
        · exact .inl ⟨line, mem, .inr assigned⟩
        · exact .inr set
    rw [← bad]
    rcases effectiveConfig_lays path nulFree env (Config.default detected) with
      ⟨e, failed, refused⟩ | ⟨cfg, ok, goodFile, goodEnv, -⟩
    · exact ⟨fun _ => refused, fun _ => ⟨e, failed⟩⟩
    · rw [ok]
      constructor
      · rintro ⟨e, eq⟩
        cases eq
      · rintro (file | variable')
        · exact absurd file goodFile
        · exact absurd variable' goodEnv
  · intro cfg eq key
    rcases effectiveConfig_lays path nulFree env (Config.default detected) with
      ⟨e, failed, -⟩ | ⟨cfg', ok, goodFile, goodEnv, got⟩
    · rw [failed] at eq
      cases eq
    · obtain rfl : cfg' = cfg := by
        rw [ok] at eq
        exact Except.ok.inj eq
      have file := apply_interpreted (Config.default detected).get (readable_settings goodFile) key
      have environment := apply_interpreted
        (apply (Config.default detected).get (interpreted (settings text)))
        (readable_overrides goodEnv) key
      rw [last_overrides, ← got] at environment
      split
      · rename_i value present
        exact environment.1 value (by rw [variableValue, present]; rfl)
      · rename_i value absent found
        rw [environment.2 (by rw [variableValue, absent]; rfl)]
        exact file.1 value found
      · rename_i absent missing
        rw [environment.2 (by rw [variableValue, absent]; rfl)]
        exact file.2 missing

/-- An unknown key, a key set twice, and a variable with a blank and a sign. -/
theorem effectiveConfig_law_layers :
    ∃ cfg,
      effectiveConfig (ascii "nshgeoip.conf") (ascii "threads = 8\n# more\nthreads=16\nfuture=1\n")
          (fun name => if name = ascii "NSHGEOIP_SOCKET_MODE" then some ⟨ascii " +0770", by decide⟩
            else none) (Config.default 4) = .ok cfg ∧
        cfg.get .threads = .number 16 ∧ cfg.get .socketMode = .number 0o770 := by
  refine ⟨{ Config.default 4 with threads := 16, socketMode := 0o770 }, by decide +kernel, ?_⟩
  have law := (@effectiveConfig_law (ascii "nshgeoip.conf") 4
    (fun name => if name = ascii "NSHGEOIP_SOCKET_MODE" then some ⟨ascii " +0770", by decide⟩
      else none)
    (ascii "threads = 8\n# more\nthreads=16\nfuture=1\n") (by decide)).2.2
    { Config.default 4 with threads := 16, socketMode := 0o770 } (by decide +kernel)
  have threads : interpret .threads (ascii "16") = some (.number 16) := by decide +kernel
  have mode : interpret .socketMode (ascii " +0770") = some (.number 0o770) := by decide +kernel
  exact ⟨Option.some.inj ((law .threads).symm.trans threads),
    Option.some.inj ((law .socketMode).symm.trans mode)⟩

end Nshgeoip
