import Nshgeoip.Main
import Nshgeoip.Lib.Search

/-!
Which command lines mean what.

A command line is a sequence of items, each an option with its value, or such a sequence
followed by something the loop stops at. `asked` says what the items ask for without
following the loop: for each option the last value counts, and a check of a database
comes before everything else. `mode_eq_iff` is the equivalence with `main`.
-/

namespace Nshgeoip

open ByteText ListSearch

/-! ### The grammar -/

inductive Item where
  | healthCheck
  | option (opt : ValueOption) (value : Bytes)

namespace Item

def words : Item → List Bytes
  | healthCheck => [ascii "--health-check"]
  | option opt value => [ascii opt.text, value]

/-- The value an item gives an option. -/
def value (opt : ValueOption) : Item → Option Bytes
  | option other value => if other = opt then some value else none
  | healthCheck => none

def isHealthCheck : Item → Bool
  | healthCheck => true
  | option _ _ => false

/-- A port is one. -/
def Valid : Item → Prop
  | option .port value => (parsePort value).isSome = true
  | _ => True

end Item

/-- The last value of an option. -/
def lastValue (opt : ValueOption) (items : List Item) : Option Bytes :=
  (items.filterMap (Item.value opt)).getLast?

/-- What the items ask for. -/
def asked (items : List Item) : Mode :=
  let socket := (lastValue .socket items).getD []
  let port := ((lastValue .port items).bind parsePort).getD 0
  match lastValue .checkDb items, items.any Item.isHealthCheck with
  | some path, _ =>
      let text := (lastValue .format items).getD (ascii "table")
      match DbMetadataFormat.ofText text with
      | some format => .checkDb path format
      | none =>
          .usage (ascii "unknown --format value: " ++ text ++
            ascii " (expected table, json, or ini)\n") false
  | none, true =>
      if socket ≠ [] ∧ port ≠ 0 then
        .usage (ascii "--socket and --port are mutually exclusive\n") false
      else .healthCheck (if socket = [] then ascii "/run/nshgeoip/nshgeoip.sock" else socket) port
  | none, false =>
      if socket ≠ [] ∨ port ≠ 0 then
        .usage (ascii "--socket and --port only apply together with --health-check\n") false
      else
        match lastValue .config items with
        | some path => .daemon path true
        | none => .daemon (ascii "/etc/nshgeoip/nshgeoip.conf") false

/-- What the loop stops at. -/
inductive Stops : List Bytes → Mode → Prop
  | version (rest : List Bytes) : Stops (ascii "--version" :: rest) .version
  | help {arg : Bytes} (known : arg = ascii "--help" ∨ arg = ascii "-h") (rest : List Bytes) :
      Stops (arg :: rest) .help
  | valueMissing (opt : ValueOption) : Stops [ascii opt.text] (.usage (ascii opt.missing) false)
  | invalidPort {value : Bytes} (invalid : parsePort value = none) (rest : List Bytes) :
      Stops (ascii "--port" :: value :: rest)
        (.usage (ascii "invalid --port value: " ++ value ++ ascii "\n") false)
  | unknown {arg : Bytes} (version : arg ≠ ascii "--version") (help : arg ≠ ascii "--help")
      (short : arg ≠ ascii "-h") (health : arg ≠ ascii "--health-check")
      (options : ∀ opt : ValueOption, arg ≠ ascii opt.text) (rest : List Bytes) :
      Stops (arg :: rest) (.usage (ascii "unknown argument: " ++ arg ++ ascii "\n") true)

/-! ### The comparisons -/

theorem ofText_option (opt : ValueOption) : Argument.ofText (ascii opt.text) = some (.option opt) := by
  cases opt <;> rfl

theorem ofText_healthCheck : Argument.ofText (ascii "--health-check") = some .healthCheck := rfl

theorem ofText_version : Argument.ofText (ascii "--version") = some .version := rfl

theorem ofText_help {arg : Bytes} (known : arg = ascii "--help" ∨ arg = ascii "-h") :
    Argument.ofText arg = some .help := by
  rcases known with rfl | rfl <;> rfl

/-- What is found is what was written. -/
theorem text_of_ofText {arg : Bytes} {a : Argument} (h : Argument.ofText arg = some a) :
    match a with
    | .version => arg = ascii "--version"
    | .help => arg = ascii "--help" ∨ arg = ascii "-h"
    | .healthCheck => arg = ascii "--health-check"
    | .option opt => arg = ascii opt.text := by
  unfold Argument.ofText at h
  split_ifs at h <;> (obtain rfl := Option.some.inj h; assumption)

theorem ofText_eq_none_iff {arg : Bytes} :
    Argument.ofText arg = none ↔ arg ≠ ascii "--version" ∧ arg ≠ ascii "--help" ∧ arg ≠ ascii "-h" ∧
      arg ≠ ascii "--health-check" ∧ ∀ opt : ValueOption, arg ≠ ascii opt.text := by
  constructor
  · intro missing
    have known : ∀ {a : Argument}, Argument.ofText arg ≠ some a := by
      intro a
      rw [missing]
      exact (Option.some_ne_none a).symm
    refine ⟨?_, ?_, ?_, ?_, ?_⟩
    · rintro rfl
      exact known ofText_version
    · rintro rfl
      exact known (ofText_help (Or.inl rfl))
    · rintro rfl
      exact known (ofText_help (Or.inr rfl))
    · rintro rfl
      exact known ofText_healthCheck
    · rintro opt rfl
      exact known (ofText_option opt)
  · rintro ⟨version, help, short, health, options⟩
    cases found : Argument.ofText arg with
    | none => rfl
    | some a =>
        have text := text_of_ofText found
        cases a with
        | version => exact absurd text version
        | help => exact absurd text (by tauto)
        | healthCheck => exact absurd text health
        | option opt => exact absurd text (options opt)

/-! ### The loop reads items -/

/-- What an item does to the options. -/
def Options.take (o : Options) : Item → Options
  | .healthCheck => { o with healthCheckRequested := true }
  | .option .checkDb value => { o with checkDbPath := value, checkDbRequested := true }
  | .option .format value => { o with checkDbFormat := value }
  | .option .config value => { o with configPath := value, configPathExplicit := true }
  | .option .socket value => { o with healthCheckSocket := value }
  | .option .port value => { o with healthCheckPort := (parsePort value).getD 0 }

theorem set_eq_take {opt : ValueOption} {value : Bytes} (valid : (Item.option opt value).Valid)
    (o : Options) : opt.set o value = .ok (o.take (.option opt value)) := by
  cases opt with
  | port =>
      obtain ⟨port, parsed⟩ := Option.isSome_iff_exists.mp valid
      simp only [ValueOption.set, Options.take, parsed, Option.getD_some]
  | _ => rfl

theorem parseArgs_item {item : Item} (valid : item.Valid) (rest : List Bytes) (o : Options) :
    parseArgs (item.words ++ rest) o = parseArgs rest (o.take item) := by
  cases item with
  | healthCheck => rfl
  | option opt value =>
      rw [Item.words, List.cons_append, List.cons_append, List.nil_append]
      conv => lhs; unfold parseArgs
      simp only [ofText_option, set_eq_take valid]

theorem parseArgs_items {items : List Item} (valid : ∀ item ∈ items, item.Valid) (rest : List Bytes)
    (o : Options) :
    parseArgs (items.flatMap Item.words ++ rest) o = parseArgs rest (items.foldl Options.take o) := by
  induction items generalizing o with
  | nil => rfl
  | cons item items ih =>
      rw [List.flatMap_cons, List.append_assoc, parseArgs_item (valid item List.mem_cons_self),
        ih fun other mem => valid other (List.mem_cons_of_mem _ mem)]
      rfl

theorem parseArgs_stops {args : List Bytes} {m : Mode} (h : Stops args m) (o : Options) :
    parseArgs args o = .error m := by
  cases h with
  | version rest => rfl
  | help known rest =>
      unfold parseArgs
      simp only [ofText_help known]
  | valueMissing opt =>
      unfold parseArgs
      simp only [ofText_option]
  | invalidPort invalid rest =>
      have found : Argument.ofText (ascii "--port") = some (.option .port) := rfl
      unfold parseArgs
      simp only [found, ValueOption.set, invalid]
  | unknown version help short health options rest =>
      unfold parseArgs
      simp only [ofText_eq_none_iff.mpr ⟨version, help, short, health, options⟩]

/-- **Every argument begins an item or stops the loop.** -/
theorem item_or_stops (arg : Bytes) (rest : List Bytes) :
    (∃ (item : Item) (later : List Bytes), item.Valid ∧ arg :: rest = item.words ++ later) ∨
      ∃ m, Stops (arg :: rest) m := by
  cases found : Argument.ofText arg with
  | none =>
      obtain ⟨version, help, short, health, options⟩ := ofText_eq_none_iff.mp found
      exact Or.inr ⟨_, .unknown version help short health options rest⟩
  | some a =>
      have text := text_of_ofText found
      cases a with
      | version =>
          obtain rfl : arg = ascii "--version" := text
          exact Or.inr ⟨_, .version rest⟩
      | help => exact Or.inr ⟨_, .help text rest⟩
      | healthCheck =>
          obtain rfl : arg = ascii "--health-check" := text
          exact Or.inl ⟨.healthCheck, rest, trivial, rfl⟩
      | option opt =>
          obtain rfl : arg = ascii opt.text := text
          cases rest with
          | nil => exact Or.inr ⟨_, .valueMissing opt⟩
          | cons value later =>
              by_cases valid : (Item.option opt value).Valid
              · exact Or.inl ⟨.option opt value, later, valid, rfl⟩
              · cases opt with
                | port =>
                    have invalid : parsePort value = none :=
                      Option.not_isSome_iff_eq_none.mp valid
                    exact Or.inr ⟨_, .invalidPort invalid later⟩
                | _ => exact absurd trivial valid

theorem words_ne_nil (item : Item) : item.words ≠ [] := by
  cases item <;> exact List.cons_ne_nil _ _

/-- A command line is items, or items and something the loop stops at. -/
theorem items_or_stops (args : List Bytes) :
    ∃ items : List Item, (∀ item ∈ items, item.Valid) ∧
      (args = items.flatMap Item.words ∨
        ∃ rest m, args = items.flatMap Item.words ++ rest ∧ Stops rest m) := by
  match args with
  | [] => exact ⟨[], fun _ no => absurd no List.not_mem_nil, Or.inl rfl⟩
  | arg :: rest =>
      rcases item_or_stops arg rest with ⟨item, later, valid, split⟩ | ⟨m, stops⟩
      · have shorter : later.length < (arg :: rest).length := by
          rw [split, List.length_append]
          have := List.length_pos_iff.mpr (words_ne_nil item)
          omega
        obtain ⟨items, all, ends⟩ := items_or_stops later
        refine ⟨item :: items, List.forall_mem_cons.mpr ⟨valid, all⟩, ?_⟩
        rw [split, List.flatMap_cons]
        rcases ends with whole | ⟨stop, m, cut, stops⟩
        · exact Or.inl (by rw [whole])
        · exact Or.inr ⟨stop, m, by rw [cut, List.append_assoc], stops⟩
      · exact ⟨[], fun _ no => absurd no List.not_mem_nil, Or.inr ⟨_, m, rfl, stops⟩⟩
termination_by args.length
decreasing_by exact shorter

/-! ### What the options have become -/

/-- A variable that an option sets holds what its last value makes of it. -/
theorem foldl_take {β : Type} (opt : ValueOption) (get : Options → β) (g : Bytes → β)
    (each : ∀ (o : Options) (item : Item), get (o.take item) = ((item.value opt).map g).getD (get o))
    (items : List Item) (o : Options) :
    get (items.foldl Options.take o) = ((lastValue opt items).map g).getD (get o) := by
  rw [foldl_last Options.take get (fun item => (item.value opt).map g) each items o, lastValue,
    ← List.getLast?_map, List.map_filterMap]

theorem foldl_take_health (items : List Item) (o : Options) :
    (items.foldl Options.take o).healthCheckRequested =
      (o.healthCheckRequested || items.any Item.isHealthCheck) := by
  induction items generalizing o with
  | nil => simp
  | cons item items ih =>
      rw [List.foldl_cons, ih, List.any_cons, ← Bool.or_assoc]
      cases item with
      | healthCheck => simp [Options.take, Item.isHealthCheck]
      | option opt value => cases opt <;> simp [Options.take, Item.isHealthCheck]

/-- What a command line leaves in the variables of the loop. -/
structure Collected (items : List Item) (o : Options) : Prop where
  checkDbPath : o.checkDbPath = (lastValue .checkDb items).getD []
  checkDbRequested : o.checkDbRequested = (lastValue .checkDb items).isSome
  checkDbFormat : o.checkDbFormat = (lastValue .format items).getD (ascii "table")
  configPath : o.configPath = (lastValue .config items).getD (ascii "/etc/nshgeoip/nshgeoip.conf")
  configPathExplicit : o.configPathExplicit = (lastValue .config items).isSome
  healthCheckRequested : o.healthCheckRequested = items.any Item.isHealthCheck
  healthCheckSocket : o.healthCheckSocket = (lastValue .socket items).getD []
  healthCheckPort : o.healthCheckPort = ((lastValue .port items).bind parsePort).getD 0

theorem collected (items : List Item) : Collected items (items.foldl Options.take {}) := by
  have flag : ∀ value : Option Bytes, (value.map fun _ => true).getD false = value.isSome := by
    intro value
    cases value <;> rfl
  have number : ∀ value : Option Bytes,
      (value.map fun text => (parsePort text).getD 0).getD 0 = (value.bind parsePort).getD 0 := by
    intro value
    cases value <;> rfl
  constructor
  case checkDbPath =>
    simpa using foldl_take .checkDb Options.checkDbPath id (by rintro o (_ | ⟨⟨⟩, value⟩) <;> rfl) items {}
  case checkDbRequested =>
    rw [foldl_take .checkDb Options.checkDbRequested (fun _ => true)
      (by rintro o (_ | ⟨⟨⟩, value⟩) <;> rfl) items {}]
    exact flag _
  case checkDbFormat =>
    simpa using foldl_take .format Options.checkDbFormat id (by rintro o (_ | ⟨⟨⟩, value⟩) <;> rfl) items {}
  case configPath =>
    simpa using foldl_take .config Options.configPath id (by rintro o (_ | ⟨⟨⟩, value⟩) <;> rfl) items {}
  case configPathExplicit =>
    rw [foldl_take .config Options.configPathExplicit (fun _ => true)
      (by rintro o (_ | ⟨⟨⟩, value⟩) <;> rfl) items {}]
    exact flag _
  case healthCheckRequested =>
    rw [foldl_take_health]
    rfl
  case healthCheckSocket =>
    simpa using foldl_take .socket Options.healthCheckSocket id (by rintro o (_ | ⟨⟨⟩, value⟩) <;> rfl) items {}
  case healthCheckPort =>
    rw [foldl_take .port Options.healthCheckPort (fun text => (parsePort text).getD 0)
      (by rintro o (_ | ⟨⟨⟩, value⟩) <;> rfl) items {}]
    exact number _

theorem selectMode_of_collected {items : List Item} {o : Options} (h : Collected items o) :
    selectMode o = asked items := by
  unfold selectMode asked
  rw [h.checkDbPath, h.checkDbRequested, h.checkDbFormat, h.configPath, h.configPathExplicit,
    h.healthCheckRequested, h.healthCheckSocket, h.healthCheckPort]
  cases lastValue .checkDb items with
  | some path => rfl
  | none =>
      cases items.any Item.isHealthCheck with
      | true => rfl
      | false =>
          simp only [Option.isSome_none, Bool.false_eq_true, if_false, Bool.not_false, true_and]
          split_ifs
          · rfl
          · cases lastValue .config items <;> rfl

/-! ### The law -/

/-- **The command line**: `main` chooses a mode exactly when the arguments are items that ask
for it, or items followed by what the loop stops at with that mode. -/
theorem mode_eq_iff (args : List Bytes) (m : Mode) :
    mode args = m ↔ ∃ items : List Item, (∀ item ∈ items, item.Valid) ∧
      (args = items.flatMap Item.words ∧ m = asked items ∨
        ∃ rest, args = items.flatMap Item.words ++ rest ∧ Stops rest m) := by
  have whole : ∀ items : List Item, (∀ item ∈ items, item.Valid) →
      mode (items.flatMap Item.words) = asked items := by
    intro items valid
    have read := parseArgs_items valid [] {}
    rw [List.append_nil] at read
    rw [mode, read]
    exact selectMode_of_collected (collected items)
  have stopped : ∀ (items : List Item) (rest : List Bytes) (m : Mode), (∀ item ∈ items, item.Valid) →
      Stops rest m → mode (items.flatMap Item.words ++ rest) = m := by
    intro items rest m valid stops
    rw [mode, parseArgs_items valid, parseArgs_stops stops]
  constructor
  · rintro rfl
    obtain ⟨items, valid, rfl | ⟨rest, m, rfl, stops⟩⟩ := items_or_stops args
    · exact ⟨items, valid, Or.inl ⟨rfl, whole items valid⟩⟩
    · refine ⟨items, valid, Or.inr ⟨rest, rfl, ?_⟩⟩
      rw [stopped items rest m valid stops]
      exact stops
  · rintro ⟨items, valid, ⟨rfl, rfl⟩ | ⟨rest, rfl, stops⟩⟩
    · exact whole items valid
    · exact stopped items rest m valid stops

end Nshgeoip
