import Nshgeoip.Config.Law
import Nshgeoip.Ctl
import Nshgeoip.Lib.Lines
import Nshgeoip.Lib.Search

/-!
Two readers of one file: `load_config` of the daemon and `read_config_value` of
nshgeoipctl.sh.

The daemon trims a line, its key and its value; the script greps for the key at
the very start of a line and prints what follows the `=` as it stands. Every line
the script takes is one the daemon takes (`valueFor_verbatim`), but not the other
way round, and the values differ by the white space around them. `ReadsAlike` is
when the two agree on a key, line by line.
-/

namespace Nshgeoip.Ctl

open ByteText ShellText ListSearch

/-! ### What the daemon reads -/

/-- The field of a database. -/
def Edition.configured (e : Edition) (cfg : Config) : Bytes :=
  match e with
  | country => cfg.countryDb
  | asn => cfg.asnDb
  | city => cfg.cityDb

/-- The value a line gives to a key in the daemon's eyes. -/
def valueFor (key line : Bytes) : Option Bytes :=
  if isEntry line then
    (cut [61] (trim line)).bind fun parts => if trim parts.1 = key then some (trim parts.2) else none
  else none

/-- The other keys leave the paths of the databases alone. -/
theorem setKey_other {cfg cfg' : Config} {key value : Bytes}
    (other : ∀ e : Edition, key ≠ ascii e.configKey) (h : setKey cfg key value = some (.ok cfg'))
    (e : Edition) : e.configured cfg' = e.configured cfg := by
  obtain ⟨k, named, stored⟩ := setKey_stores h
  cases stored with
  | countryDb => exact absurd named.symm (other .country)
  | asnDb => exact absurd named.symm (other .asn)
  | cityDb => exact absurd named.symm (other .city)
  | _ => cases e <;> rfl

theorem configKey_injective {d e : Edition} (h : ascii d.configKey = ascii e.configKey) : d = e := by
  revert h
  cases d <;> cases e <;> decide

theorem setKey_edition (cfg : Config) (d : Edition) (value : Bytes) :
    ∃ cfg', setKey cfg (ascii d.configKey) value = some (.ok cfg') ∧
      ∀ e : Edition, e.configured cfg' = if d = e then value else e.configured cfg := by
  cases d with
  | country =>
      refine ⟨{ cfg with countryDb := value }, rfl, ?_⟩
      intro e
      cases e <;> rfl
  | asn =>
      refine ⟨{ cfg with asnDb := value }, rfl, ?_⟩
      intro e
      cases e <;> rfl
  | city =>
      refine ⟨{ cfg with cityDb := value }, rfl, ?_⟩
      intro e
      cases e <;> rfl

theorem setKey_configured {cfg cfg' : Config} {key value : Bytes}
    (h : setKey cfg key value = some (.ok cfg')) (e : Edition) :
    e.configured cfg' = if key = ascii e.configKey then value else e.configured cfg := by
  by_cases known : ∃ d : Edition, key = ascii d.configKey
  · obtain ⟨d, rfl⟩ := known
    obtain ⟨out, stored, fields⟩ := setKey_edition cfg d value
    rw [stored] at h
    cases h
    rw [fields e]
    by_cases same : d = e
    · subst same
      rw [if_pos rfl, if_pos rfl]
    · rw [if_neg same, if_neg fun eq => same (configKey_injective eq)]
  · rw [not_exists] at known
    rw [setKey_other known h, if_neg (known e)]

/-- One line of the file. -/
theorem loadLine_configured {path : Bytes} {state state' : Loaded} {numbered : Bytes × Nat}
    (h : loadLine path state numbered = .ok state') (e : Edition) :
    e.configured state'.cfg =
      (valueFor (ascii e.configKey) numbered.1).getD (e.configured state.cfg) := by
  unfold loadLine at h
  unfold valueFor isEntry
  by_cases skipped : trim numbered.1 = [] ∨ (trim numbered.1).head? = some 35
  · rw [if_pos skipped] at h
    cases h
    rw [if_neg (by rw [decide_eq_true_eq]; tauto)]
    rfl
  · rw [if_neg skipped] at h
    rw [if_pos (by rw [decide_eq_true_eq]; tauto)]
    cases split : cut [61] (trim numbered.1) with
    | none =>
        rw [split] at h
        cases h
    | some parts =>
        obtain ⟨front, back⟩ := parts
        rw [split] at h
        dsimp only at h
        simp only [Option.bind_some]
        cases set : setKey state.cfg (trim front) (trim back) with
        | none =>
            rw [set] at h
            cases h
            -- An unknown key is none of the three.
            have unknown : trim front ≠ ascii e.configKey := by
              intro same
              obtain ⟨cfg', stored, -⟩ := setKey_edition state.cfg e (trim back)
              rw [same, stored] at set
              cases set
            rw [if_neg unknown]
            rfl
        | some outcome =>
            cases outcome with
            | error complaint =>
                rw [set] at h
                cases h
            | ok cfg =>
                rw [set] at h
                cases h
                rw [setKey_configured set e]
                by_cases same : trim front = ascii e.configKey
                · simp [same]
                · simp [same]

theorem loadLines_configured {path : Bytes} (lines : List (Bytes × Nat)) {state state' : Loaded}
    (h : lines.foldlM (loadLine path) state = .ok state') (e : Edition) :
    e.configured state'.cfg =
      ((lines.map Prod.fst).filterMap (valueFor (ascii e.configKey))).getLast?.getD
        (e.configured state.cfg) := by
  rw [List.filterMap_map]
  refine foldlM_last (fun state : Loaded => e.configured state.cfg) _ ?_ h
  intro state numbered state' one
  exact loadLine_configured one e

/-- **What an accepted file stores for a database**: the value of the last line that
sets its key, and nothing without such a line. -/
theorem loadConfig_configured {path text : Bytes} {detected : UInt32} {loaded : Loaded}
    (accepted : loadConfig path (some text) (Config.default detected) = .ok loaded) (e : Edition) :
    e.configured loaded.cfg =
      ((getLines text).filterMap (valueFor (ascii e.configKey))).getLast?.getD [] := by
  have fields := loadLines_configured _ accepted e
  rw [List.zipIdx_map_fst] at fields
  rw [fields]
  cases e <;> rfl

/-! ### What the script reads -/

/-- The last line the script's `grep` prints, if it prints any: a line that starts
with the key and `=`, or the notice in its place. -/
def lastPrinted (notice : Option Bytes) (key text : Bytes) : Option Bytes :=
  ((getLines text).filter (key ++ [61]).isPrefixOf).getLast?.map fun line => notice.getD line

/-- A name the two readers can tell from white space, comments and `=`. -/
def PlainKey (key : Bytes) : Prop := key ≠ [] ∧ ∀ b ∈ key, isSpace b = false ∧ b ≠ 61 ∧ b ≠ 35

theorem plainKey_configKey (e : Edition) : PlainKey (ascii e.configKey) := by
  constructor
  · cases e <;> decide
  · cases e <;> decide +kernel

theorem readConfigValue_eq (notice : Option Bytes) (text : Bytes) (key : String) :
    readConfigValue notice (some text) key =
      captured (afterEquals ((lastPrinted notice (ascii key) text).getD [])) := by
  simp only [readConfigValue, lastPrinted]
  cases found : (getLines text).filter (ascii key ++ [61]).isPrefixOf with
  | nil => cases notice <;> rfl
  | cons line lines =>
      cases notice with
      | none => cases last : (line :: lines).getLast? <;> simp
      | some notice => simp [List.getLast?_cons]

theorem trim_of_solid {s : Bytes} (solid : ∀ b ∈ s, isSpace b = false) : trim s = s := by
  have front : s.dropWhile isSpace = s := by
    cases s with
    | nil => rfl
    | cons b s => exact List.dropWhile_cons_of_neg (by simp [solid b List.mem_cons_self])
  rw [trim, front]
  refine List.rdropWhile_eq_self_iff.mpr fun nonempty => ?_
  simp [solid _ (List.getLast_mem nonempty)]

section Verbatim

variable {key : Bytes}

theorem trim_verbatim (plain : PlainKey key) (value : Bytes) :
    trim (key ++ 61 :: value) = key ++ 61 :: value.rdropWhile isSpace := by
  obtain ⟨nonempty, solid⟩ := plain
  have front : (key ++ 61 :: value).dropWhile isSpace = key ++ 61 :: value := by
    cases key with
    | nil => exact absurd rfl nonempty
    | cons b key => exact List.dropWhile_cons_of_neg (by simp [(solid b List.mem_cons_self).1])
  rw [trim, front, rdropWhile_append_solid (by decide)]

/-- A line the script would take, as the daemon reads it. -/
theorem valueFor_verbatim (plain : PlainKey key) (value : Bytes) :
    valueFor key (key ++ 61 :: value) = some (trim value) := by
  have trimmed := trim_verbatim plain value
  obtain ⟨nonempty, solid⟩ := plain
  have fresh : 61 ∉ key := fun mem => (solid 61 mem).2.1 rfl
  have entry : isEntry (key ++ 61 :: value) = true := by
    rw [isEntry, trimmed, decide_eq_true_eq]
    cases key with
    | nil => exact absurd rfl nonempty
    | cons b key =>
        refine ⟨by simp, ?_⟩
        simpa using (solid b List.mem_cons_self).2.2
  have name : trim key = key := trim_of_solid fun b mem => (solid b mem).1
  rw [valueFor, if_pos entry, trimmed, cut_byte_append fresh, Option.bind_some, if_pos name,
    trim_rdropWhile]

theorem valueFor_of_isPrefixOf (plain : PlainKey key) {line : Bytes}
    (h : (key ++ [61]).isPrefixOf line = true) : valueFor key line ≠ none := by
  obtain ⟨value, rfl⟩ := List.isPrefixOf_iff_prefix.mp h
  rw [List.append_assoc, List.singleton_append, valueFor_verbatim plain]
  exact Option.some_ne_none _

end Verbatim

/-! ### When the two agree -/

/-- The last line of the file that sets the key. -/
def LastSetting (key text line : Bytes) : Prop :=
  ∃ before after, getLines text = before ++ line :: after ∧ valueFor key line ≠ none ∧
    ∀ later ∈ after, valueFor key later = none

/-- **When script and daemon read the same value for a key.** No line sets it; or the
last line that does is written `key=value` from its first column on, with nothing
to trim around the value and no NUL in it, and `grep` prints lines; or what `grep`
prints last is not that line, but happens to carry its value. -/
def ReadsAlike (notice : Option Bytes) (key text : Bytes) : Prop :=
  (∀ line ∈ getLines text, valueFor key line = none) ∨
    (∃ value, notice = none ∧ LastSetting key text (key ++ 61 :: value) ∧ 0 ∉ value ∧
      trim value = value) ∨
    ∃ line, LastSetting key text line ∧ (notice = none → ¬ key ++ [61] <+: line) ∧
      valueFor key line = some (captured (afterEquals ((lastPrinted notice key text).getD [])))

theorem lastSetting_of_exists {key text : Bytes}
    (h : ∃ line ∈ getLines text, valueFor key line ≠ none) : ∃ line, LastSetting key text line := by
  obtain ⟨line, mem, set⟩ := h
  cases last : ((getLines text).filterMap (valueFor key)).getLast? with
  | none =>
      have silent := List.filterMap_eq_nil_iff.mp (List.getLast?_eq_none_iff.mp last)
      exact absurd (silent line mem) set
  | some value =>
      obtain ⟨before, line, after, split, here, fresh⟩ := getLast?_filterMap_eq_some_iff.mp last
      exact ⟨line, before, after, split, by simp [here], fresh⟩

/-- The daemon's value is the one of the last line that sets the key. -/
theorem LastSetting.value {key text line : Bytes} (last : LastSetting key text line) :
    ((getLines text).filterMap (valueFor key)).getLast? = valueFor key line := by
  obtain ⟨before, after, split, set, fresh⟩ := last
  obtain ⟨value, here⟩ := Option.ne_none_iff_exists'.mp set
  rw [here]
  exact getLast?_filterMap_eq_some_iff.mpr ⟨before, line, after, split, here, fresh⟩

theorem LastSetting.unique {key text line line' : Bytes} (h : LastSetting key text line)
    (h' : LastSetting key text line') : line = line' := by
  obtain ⟨before, after, split, set, fresh⟩ := h
  obtain ⟨before', after', split', set', fresh'⟩ := h'
  rw [split] at split'
  rcases List.append_eq_append_iff.mp split' with ⟨mid, rfl, eq⟩ | ⟨mid, rfl, eq⟩
  · cases mid with
    | nil =>
        cases eq
        rfl
    | cons first mid =>
        obtain ⟨rfl, rfl⟩ := List.cons_eq_cons.mp eq
        exact absurd (fresh line' (by simp)) set'
  · cases mid with
    | nil =>
        cases eq
        rfl
    | cons first mid =>
        obtain ⟨rfl, rfl⟩ := List.cons_eq_cons.mp eq
        exact absurd (fresh' line (by simp)) set

/-- A last setting that starts with the key is what `grep` prints last. -/
theorem LastSetting.printed {key text line : Bytes} (plain : PlainKey key)
    (last : LastSetting key text line) (verbatim : key ++ [61] <+: line) :
    lastPrinted none key text = some line := by
  obtain ⟨before, after, split, -, fresh⟩ := last
  have none : after.filter (key ++ [61]).isPrefixOf = [] := by
    refine List.filter_eq_nil_iff.mpr fun later mem found => ?_
    exact valueFor_of_isPrefixOf plain found (fresh later mem)
  rw [lastPrinted, split, List.filter_append, List.filter_cons_of_pos
    (List.isPrefixOf_iff_prefix.mpr verbatim), none, List.getLast?_concat]
  rfl

theorem not_mem_getLines {text line : Bytes} (h : line ∈ getLines text) : 10 ∉ line := by
  have piece : line ∈ text.splitOn 10 := by
    rcases getLines_pieces text with eq | eq
    · rwa [eq]
    · rw [eq]
      exact List.mem_append_left _ h
  exact not_mem_of_mem_splitOn piece

/-- What the shell keeps of a value on one line. -/
theorem captured_line {value : Bytes} (line : 10 ∉ value) : captured value = value.filter (· ≠ 0) := by
  refine List.rdropWhile_eq_self_iff.mpr fun nonempty => ?_
  have mem := List.mem_of_mem_filter (List.getLast_mem nonempty)
  intro newline
  rw [decide_eq_true_eq] at newline
  exact line (newline ▸ mem)

/-- Dropping NUL bytes and trimming come to the same only where neither does anything. -/
theorem filter_eq_trim_iff {value : Bytes} :
    value.filter (· ≠ 0) = trim value ↔ 0 ∉ value ∧ trim value = value := by
  constructor
  · intro same
    have nulFree : 0 ∉ value := by
      intro mem
      have inside : (0 : UInt8) ∈ value.filter (· ≠ 0) := by
        rw [same]
        exact mem_trim_of_not_space mem (by decide)
      simp at inside
    exact ⟨nulFree, by rw [← same, filter_nul_eq_self nulFree]⟩
  · rintro ⟨nulFree, trimmed⟩
    rw [filter_nul_eq_self nulFree, trimmed]

section Agreement

variable {notice : Option Bytes} {key text line : Bytes}

theorem afterEquals_verbatim (plain : PlainKey key) (value : Bytes) :
    afterEquals (key ++ 61 :: value) = value := by
  have fresh : 61 ∉ key := fun mem => (plain.2 61 mem).2.1 rfl
  rw [afterEquals, cut_byte_append fresh]

theorem LastSetting.mem (last : LastSetting key text line) : line ∈ getLines text := by
  obtain ⟨before, after, split, -⟩ := last
  rw [split]
  exact List.mem_append_right _ List.mem_cons_self

/-- With no setting there is nothing to print. -/
theorem lastPrinted_of_unset (plain : PlainKey key)
    (unset : ∀ line ∈ getLines text, valueFor key line = none) : lastPrinted notice key text = none := by
  have none : (getLines text).filter (key ++ [61]).isPrefixOf = [] := by
    refine List.filter_eq_nil_iff.mpr fun line mem found => ?_
    exact valueFor_of_isPrefixOf plain found (unset line mem)
  rw [lastPrinted, none]
  rfl

/-- The last setting is the line `grep` prints. -/
theorem readsAlike_verbatim_iff (plain : PlainKey key) {value : Bytes}
    (last : LastSetting key text (key ++ 61 :: value)) :
    captured (afterEquals ((lastPrinted none key text).getD [])) = trim value ↔
      ReadsAlike none key text := by
  have starts : key ++ [61] <+: key ++ 61 :: value := ⟨value, by simp⟩
  have line : 10 ∉ value := by
    intro newline
    exact not_mem_getLines last.mem (List.mem_append_right _ (List.mem_cons_of_mem _ newline))
  rw [last.printed plain starts, Option.getD_some, afterEquals_verbatim plain, captured_line line,
    filter_eq_trim_iff]
  constructor
  · rintro ⟨nulFree, trimmed⟩
    exact .inr (.inl ⟨value, rfl, last, nulFree, trimmed⟩)
  · rintro (unset | ⟨value', -, last', nulFree, trimmed⟩ | ⟨line', last', other, -⟩)
    · have set := valueFor_verbatim plain value
      rw [unset _ last.mem] at set
      cases set
    · have same := List.append_cancel_left (last.unique last')
      obtain rfl : value = value' := (List.cons_eq_cons.mp same).2
      exact ⟨nulFree, trimmed⟩
    · exact absurd (last.unique last' ▸ starts) (other rfl)

/-- The last setting is not a line `grep` prints. -/
theorem readsAlike_other_iff (last : LastSetting key text line)
    (other : notice = none → ¬ key ++ [61] <+: line) :
    valueFor key line = some (captured (afterEquals ((lastPrinted notice key text).getD []))) ↔
      ReadsAlike notice key text := by
  constructor
  · exact fun same => .inr (.inr ⟨line, last, other, same⟩)
  · rintro (unset | ⟨value, plainText, last', -⟩ | ⟨line', last', -, same⟩)
    · obtain ⟨before, after, split, set, -⟩ := last
      exact absurd (unset line (split ▸ List.mem_append_right _ List.mem_cons_self)) set
    · refine absurd ?_ (other plainText)
      rw [last.unique last']
      exact ⟨value, by simp⟩
    · rw [last.unique last']
      exact same

end Agreement

/-- **Exactly when the script reads what the daemon reads**, for every file the daemon
accepts and each database. -/
theorem readConfigValue_eq_configured_iff (path text : Bytes) (detected : UInt32)
    (notice : Option Bytes) (loaded : Loaded)
    (accepted : loadConfig path (some text) (Config.default detected) = .ok loaded) (e : Edition) :
    readConfigValue notice (some text) e.configKey = e.configured loaded.cfg ↔
      ReadsAlike notice (ascii e.configKey) text := by
  have plain := plainKey_configKey e
  rw [readConfigValue_eq, loadConfig_configured accepted e]
  by_cases set : ∃ line ∈ getLines text, valueFor (ascii e.configKey) line ≠ none
  · obtain ⟨line, last⟩ := lastSetting_of_exists set
    rw [last.value]
    by_cases verbatim : notice = none ∧ ascii e.configKey ++ [61] <+: line
    · obtain ⟨rfl, value, rfl⟩ := verbatim
      rw [List.append_assoc, List.singleton_append] at last ⊢
      rw [valueFor_verbatim plain, Option.getD_some]
      exact readsAlike_verbatim_iff plain last
    · have other := not_and.mp verbatim
      rw [← readsAlike_other_iff last other]
      obtain ⟨before, after, split, some, -⟩ := last
      obtain ⟨value, eq⟩ := Option.ne_none_iff_exists'.mp some
      rw [eq, Option.getD_some, Option.some_inj]
      exact eq_comm
  · have unset : ∀ line ∈ getLines text, valueFor (ascii e.configKey) line = none := by
      intro line mem
      by_contra some
      exact set ⟨line, mem, some⟩
    rw [lastPrinted_of_unset plain unset, List.filterMap_eq_nil_iff.mpr unset]
    exact iff_of_true rfl (.inl unset)

/-- A file that spaces its `=`, as the daemon allows. -/
def spacedConf : Bytes := ascii "# databases\ncity_db = /srv/City.mmdb\nasn_db=/srv/ASN.mmdb\n"

/-- The daemon opens the configured city database; the script sees none. -/
theorem spacedConf_counterexample :
    ∃ loaded, loadConfig (ascii "nshgeoip.conf") (some spacedConf) (Config.default 4) = .ok loaded ∧
      loaded.cfg.cityDb = ascii "/srv/City.mmdb" ∧
      readConfigValue none (some spacedConf) "city_db" = [] := by
  refine ⟨⟨{ Config.default 4 with
    cityDb := ascii "/srv/City.mmdb", asnDb := ascii "/srv/ASN.mmdb" }, []⟩, ?_, rfl, ?_⟩
  · decide +kernel
  · decide +kernel

/-- On the same file the two agree about the database written without blanks. -/
theorem readConfigValue_eq_configured_spaced :
    readConfigValue none (some spacedConf) "asn_db" = ascii "/srv/ASN.mmdb" := by
  have alike : ReadsAlike none (ascii "asn_db") spacedConf := by
    refine .inr (.inl ⟨ascii "/srv/ASN.mmdb", rfl, ?_, by decide, by decide⟩)
    refine ⟨[ascii "# databases", ascii "city_db = /srv/City.mmdb"], [], ?_, ?_, by simp⟩
    · decide +kernel
    · decide +kernel
  have accepted : loadConfig (ascii "nshgeoip.conf") (some spacedConf) (Config.default 4) =
      .ok ⟨{ Config.default 4 with
        cityDb := ascii "/srv/City.mmdb", asnDb := ascii "/srv/ASN.mmdb" }, []⟩ := by
    decide +kernel
  exact (readConfigValue_eq_configured_iff _ spacedConf 4 none _ accepted .asn).mpr alike

end Nshgeoip.Ctl
