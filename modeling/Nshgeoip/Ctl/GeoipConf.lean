import Nshgeoip.Config.Law
import Nshgeoip.Ctl
import Nshgeoip.Lib.Search

/-!
`read_geoip_conf`: what is taken from /etc/GeoIP.conf.

The last line that sets a key decides, line by line as one would read the file
(`ReadsWhole`). The loop is `while read`, and `read` fails at the end of the file
even when it has read something, so the last line counts only with a newline behind
it. `readsWhole_iff` says when that makes no difference.
-/

namespace Nshgeoip.Ctl

open ByteText ShellText ListSearch

/-! ### A line -/

/-- The line without its comment and the white space around it. -/
def plainLine (raw : Bytes) : Bytes := trim (raw.takeWhile (· ≠ 35))

/-- The first word of the line is the key; the value is what follows the white space
behind it. -/
def Sets (key value raw : Bytes) : Prop :=
  ∃ gap, plainLine raw = key ++ (gap ++ value) ∧ (∀ b ∈ gap, isSpace b = true) ∧
    (∀ b ∈ value.head?, isSpace b = false) ∧ (gap = [] → value = [])

/-- The value a line has for a key. -/
def settingOf (key raw : Bytes) : Option Bytes :=
  if (plainLine raw).takeWhile (!isSpace ·) = key then
    some (((plainLine raw).drop key.length).dropWhile isSpace)
  else none

/-- A key as the script spells them: a word. -/
def Word (key : Bytes) : Prop := key ≠ [] ∧ ∀ b ∈ key, isSpace b = false

section Line

variable {key value raw : Bytes}

theorem settingOf_of_sets (word : Word key) (h : Sets key value raw) :
    settingOf key raw = some value := by
  obtain ⟨gap, line, blanks, solid, alone⟩ := h
  have inside : ∀ b ∈ key, (!isSpace b) = true := by
    intro b mem
    rw [word.2 b mem, Bool.not_false]
  have stop : ∀ b ∈ (gap ++ value).head?, (!isSpace b) = false := by
    intro b mem
    cases gap with
    | nil =>
        rw [alone rfl] at mem
        cases mem
    | cons blank gap =>
        cases mem
        rw [blanks _ List.mem_cons_self, Bool.not_true]
  rw [settingOf, line, if_pos (takeWhile_run inside stop).1, List.drop_left,
    dropWhile_blanks blanks solid]

theorem sets_of_settingOf (h : settingOf key raw = some value) : Sets key value raw := by
  unfold settingOf at h
  split_ifs at h with first
  have rest : (plainLine raw).drop key.length = (plainLine raw).dropWhile (!isSpace ·) := by
    conv_lhs => rw [← List.takeWhile_append_dropWhile (p := (!isSpace ·)) (l := plainLine raw), first]
    exact List.drop_left
  obtain rfl := Option.some.inj h
  refine ⟨((plainLine raw).drop key.length).takeWhile isSpace, ?_, ?_, ?_, ?_⟩
  · rw [List.takeWhile_append_dropWhile, rest]
    conv_lhs => rw [← List.takeWhile_append_dropWhile (p := (!isSpace ·)) (l := plainLine raw), first]
  · intro b mem
    exact List.mem_takeWhile_imp mem
  · intro b mem
    have stops := List.head?_dropWhile_not isSpace ((plainLine raw).drop key.length)
    rw [Option.mem_def.mp mem] at stops
    simpa using stops
  · intro none
    rw [rest] at none ⊢
    -- What follows a word starts with white space, if anything follows.
    have stops := List.head?_dropWhile_not (!isSpace ·) (plainLine raw)
    cases after : (plainLine raw).dropWhile (!isSpace ·) with
    | nil => rfl
    | cons b more =>
        rw [after] at stops none
        have space : isSpace b = true := by simpa using stops
        rw [List.takeWhile_cons_of_pos space] at none
        cases none

theorem sets_iff (word : Word key) : Sets key value raw ↔ settingOf key raw = some value :=
  ⟨settingOf_of_sets word, sets_of_settingOf⟩

theorem settingOf_nil (word : Word key) : settingOf key [] = none := by
  have line : plainLine [] = [] := by decide
  rw [settingOf, line, if_neg fun same => word.1 same.symm]

end Line

/-! ### The file -/

/-- The value of the last line that sets the key, or nothing without one. -/
def LastValue (key : Bytes) (lines : List Bytes) (value : Bytes) : Prop :=
  (∃ before raw after, lines = before ++ raw :: after ∧ Sets key value raw ∧
      ∀ later ∈ after, ∀ v, ¬ Sets key v later) ∨
    value = [] ∧ ∀ raw ∈ lines, ∀ v, ¬ Sets key v raw

/-- **The whole file is read**: each key has the value of its last line, the one at the
end of the file included whether or not a newline ends it. -/
structure ReadsWhole (text : Bytes) (conf : GeoipConf) : Prop where
  accountId : LastValue (ascii "AccountID") (getLines text) conf.accountId
  licenseKey : LastValue (ascii "LicenseKey") (getLines text) conf.licenseKey
  databaseDir : LastValue (ascii "DatabaseDirectory") (getLines text) conf.databaseDir
  editionIds : ∃ value, LastValue (ascii "EditionIDs") (getLines text) value ∧
    conf.editionIds = words value

/-- The lines a newline ends. -/
def completeLines (text : Bytes) : List Bytes := (text.splitOn 10).dropLast

/-- What follows the last newline. -/
def unterminated (text : Bytes) : Bytes := (text.splitOn 10).getLast?.getD []

/-- **When dropping the unterminated line changes nothing**: it sets none of the four
keys, or gives one the value it has from the lines before. -/
structure TailIdle (text : Bytes) : Prop where
  texts : ∀ key ∈ [ascii "AccountID", ascii "LicenseKey", ascii "DatabaseDirectory"],
    ∀ value, Sets key value (unterminated text) → LastValue key (completeLines text) value
  editionIds : ∀ value, Sets (ascii "EditionIDs") value (unterminated text) →
    ∃ earlier, LastValue (ascii "EditionIDs") (completeLines text) earlier ∧
      words earlier = words value

/-- The value a list of lines has for a key. -/
def valueIn (key : Bytes) (lines : List Bytes) : Bytes :=
  (lines.filterMap (settingOf key)).getLast?.getD []

theorem lastValue_iff {key : Bytes} (word : Word key) {lines : List Bytes} {value : Bytes} :
    LastValue key lines value ↔ valueIn key lines = value := by
  have unset : ∀ raw, (∀ v, ¬ settingOf key raw = some v) ↔ settingOf key raw = none := by
    intro raw
    exact Option.eq_none_iff_forall_ne_some.symm
  simp only [LastValue, valueIn, sets_iff word, unset]
  cases last : (lines.filterMap (settingOf key)).getLast? with
  | none =>
      have silent := List.filterMap_eq_nil_iff.mp (List.getLast?_eq_none_iff.mp last)
      constructor
      · rintro (⟨before, raw, after, rfl, set, -⟩ | ⟨rfl, -⟩)
        · rw [silent raw (by simp)] at set
          cases set
        · rfl
      · rintro rfl
        exact .inr ⟨rfl, silent⟩
  | some found =>
      rw [Option.getD_some, ← getLast?_filterMap_eq_some_iff, last, Option.some_inj]
      constructor
      · rintro (same | ⟨-, silent⟩)
        · exact same
        · rw [List.filterMap_eq_nil_iff.mpr silent] at last
          cases last
      · exact .inl

theorem getLines_eq (text : Bytes) :
    getLines text = completeLines text ++ if unterminated text = [] then [] else [unterminated text] := by
  have nonempty := List.splitOn_ne_nil 10 text
  have last := List.getLast?_eq_some_getLast nonempty
  unfold getLines completeLines unterminated
  dsimp only
  rw [last, Option.getD_some]
  by_cases ended : (text.splitOn 10).getLast nonempty = []
  · rw [if_pos (congrArg some ended), if_pos ended, List.append_nil]
  · rw [if_neg fun same => ended (Option.some.inj same), if_neg ended,
      List.dropLast_append_getLast]

/-- What the unterminated line says is said last. -/
theorem valueIn_getLines {key : Bytes} (word : Word key) (text : Bytes) :
    valueIn key (getLines text) =
      (settingOf key (unterminated text)).getD (valueIn key (completeLines text)) := by
  rw [getLines_eq]
  by_cases ended : unterminated text = []
  · rw [if_pos ended, List.append_nil, ended, settingOf_nil word, Option.getD_none]
  · rw [if_neg ended, valueIn, List.filterMap_append]
    cases set : settingOf key (unterminated text) with
    | none => simp [set, valueIn]
    | some value => simp [set]

/-! ### The loop -/

theorem word_of_all {s : String} (solid : (!(ascii s).isEmpty && (ascii s).all (!isSpace ·)) = true) :
    Word (ascii s) := by
  simpa [Word] using solid

theorem word_accountId : Word (ascii "AccountID") := word_of_all rfl

theorem word_licenseKey : Word (ascii "LicenseKey") := word_of_all rfl

theorem word_databaseDirectory : Word (ascii "DatabaseDirectory") := word_of_all rfl

theorem word_editionIds : Word (ascii "EditionIDs") := word_of_all rfl

/-- One round of the loop, field by field. -/
theorem readGeoipLine_eq (conf : GeoipConf) (raw : Bytes) :
    readGeoipLine conf raw =
      { accountId := (settingOf (ascii "AccountID") raw).getD conf.accountId
        licenseKey := (settingOf (ascii "LicenseKey") raw).getD conf.licenseKey
        editionIds := ((settingOf (ascii "EditionIDs") raw).map words).getD conf.editionIds
        databaseDir := (settingOf (ascii "DatabaseDirectory") raw).getD conf.databaseDir } := by
  unfold readGeoipLine settingOf plainLine
  dsimp only
  generalize trim (raw.takeWhile (· ≠ 35)) = line
  generalize line.takeWhile (!isSpace ·) = key
  -- The four keys are different words, so one case at most applies.
  by_cases account : key = ascii "AccountID"
  · subst account
    rw [if_pos rfl, if_pos rfl, if_neg (by decide), if_neg (by decide), if_neg (by decide)]
    rfl
  by_cases license : key = ascii "LicenseKey"
  · subst license
    rw [if_neg account, if_pos rfl, if_neg account, if_pos rfl, if_neg (by decide),
      if_neg (by decide)]
    rfl
  by_cases database : key = ascii "DatabaseDirectory"
  · subst database
    rw [if_neg account, if_neg license, if_pos rfl, if_neg account, if_neg license,
      if_neg (by decide), if_pos rfl]
    rfl
  by_cases editions : key = ascii "EditionIDs"
  · subst editions
    rw [if_neg account, if_neg license, if_neg database, if_pos rfl, if_neg account,
      if_neg license, if_pos rfl, if_neg database]
    rfl
  · simp only [account, license, database, editions, if_false, Option.getD_none, Option.map_none]

theorem readGeoipConf_eq {text : Bytes} (nulFree : 0 ∉ text) :
    readGeoipConf text =
      { accountId := valueIn (ascii "AccountID") (completeLines text)
        licenseKey := valueIn (ascii "LicenseKey") (completeLines text)
        editionIds := words (valueIn (ascii "EditionIDs") (completeLines text))
        databaseDir := valueIn (ascii "DatabaseDirectory") (completeLines text) } := by
  have loop : readGeoipConf text = (completeLines text).foldl readGeoipLine {} := by
    rw [readGeoipConf, filter_nul_eq_self nulFree, completeLines]
  have account := foldl_last readGeoipLine GeoipConf.accountId (settingOf (ascii "AccountID"))
    (fun conf raw => by rw [readGeoipLine_eq]) (completeLines text) {}
  have license := foldl_last readGeoipLine GeoipConf.licenseKey (settingOf (ascii "LicenseKey"))
    (fun conf raw => by rw [readGeoipLine_eq]) (completeLines text) {}
  have database := foldl_last readGeoipLine GeoipConf.databaseDir
    (settingOf (ascii "DatabaseDirectory")) (fun conf raw => by rw [readGeoipLine_eq])
    (completeLines text) {}
  have editions := foldl_last readGeoipLine GeoipConf.editionIds
    (fun raw => (settingOf (ascii "EditionIDs") raw).map words)
    (fun conf raw => by rw [readGeoipLine_eq]) (completeLines text) {}
  have split : ((completeLines text).filterMap fun raw =>
      (settingOf (ascii "EditionIDs") raw).map words).getLast?.getD [] =
        words (valueIn (ascii "EditionIDs") (completeLines text)) := by
    rw [← List.map_filterMap, List.getLast?_map]
    cases last : ((completeLines text).filterMap (settingOf (ascii "EditionIDs"))).getLast? with
    | none => simp [valueIn, last, words]
    | some value => simp [valueIn, last]
  rw [split] at editions
  rw [loop, ← editions]
  simp only [valueIn]
  rw [← account, ← license, ← database]

/-! ### When nothing is lost -/

section Tail

variable {text : Bytes}

theorem lastValue_getLines_iff {key : Bytes} (word : Word key) {value : Bytes} :
    LastValue key (getLines text) value ↔
      (settingOf key (unterminated text)).getD (valueIn key (completeLines text)) = value := by
  rw [lastValue_iff word, valueIn_getLines word]

/-- A key that holds one text is read whole unless the unterminated line changes it. -/
theorem lastValue_completeLines_iff {key : Bytes} (word : Word key) :
    LastValue key (getLines text) (valueIn key (completeLines text)) ↔
      ∀ value, Sets key value (unterminated text) → LastValue key (completeLines text) value := by
  simp only [lastValue_getLines_iff word, sets_iff word, lastValue_iff word]
  cases set : settingOf key (unterminated text) with
  | none => simp
  | some value =>
      simp only [Option.getD_some, Option.some_inj, forall_eq']
      exact eq_comm

theorem editionIds_iff :
    (∃ value, LastValue (ascii "EditionIDs") (getLines text) value ∧
        words (valueIn (ascii "EditionIDs") (completeLines text)) = words value) ↔
      ∀ value, Sets (ascii "EditionIDs") value (unterminated text) →
        ∃ earlier, LastValue (ascii "EditionIDs") (completeLines text) earlier ∧
          words earlier = words value := by
  simp only [lastValue_getLines_iff word_editionIds, sets_iff word_editionIds,
    lastValue_iff word_editionIds, exists_eq_left']
  cases set : settingOf (ascii "EditionIDs") (unterminated text) with
  | none => simp
  | some value => simp

/-- A file that ends in a newline, or in a comment, loses nothing. -/
theorem tailIdle_of_blank (blank : plainLine (unterminated text) = []) : TailIdle text := by
  have silent : ∀ key value, key ≠ [] → ¬ Sets key value (unterminated text) := by
    rintro key value nonempty ⟨gap, line, -⟩
    rw [blank] at line
    exact nonempty (List.append_eq_nil_iff.mp line.symm).1
  constructor
  case texts =>
    intro key mem value set
    refine absurd set (silent key value ?_)
    simp only [List.mem_cons, List.not_mem_nil, or_false] at mem
    rcases mem with rfl | rfl | rfl
    · exact word_accountId.1
    · exact word_licenseKey.1
    · exact word_databaseDirectory.1
  case editionIds =>
    intro value set
    exact absurd set (silent _ value word_editionIds.1)

end Tail

/-- **Exactly when `read_geoip_conf` reads the whole file**, for every text without NUL
bytes. -/
theorem readsWhole_iff (text : Bytes) (nulFree : 0 ∉ text) :
    ReadsWhole text (readGeoipConf text) ↔ TailIdle text := by
  rw [readGeoipConf_eq nulFree]
  have account := @lastValue_completeLines_iff text _ word_accountId
  have license := @lastValue_completeLines_iff text _ word_licenseKey
  have database := @lastValue_completeLines_iff text _ word_databaseDirectory
  constructor
  · intro whole
    constructor
    case texts =>
      simp only [List.mem_cons, List.not_mem_nil, or_false, forall_eq_or_imp, forall_eq]
      exact ⟨account.mp whole.accountId, license.mp whole.licenseKey, database.mp whole.databaseDir⟩
    case editionIds => exact editionIds_iff.mp whole.editionIds
  · intro idle
    constructor
    case accountId => exact account.mpr (idle.texts _ (by simp))
    case licenseKey => exact license.mpr (idle.texts _ (by simp))
    case databaseDir => exact database.mpr (idle.texts _ (by simp))
    case editionIds => exact editionIds_iff.mpr idle.editionIds

/-- A file whose last line is not ended by a newline. -/
def openEnded : Bytes := ascii "AccountID 123456\nLicenseKey abcDEF123xyz"

/-- The license key of such a file is not seen. -/
theorem openEnded_counterexample :
    (readGeoipConf openEnded).licenseKey = [] ∧
      ¬ ReadsWhole openEnded (readGeoipConf openEnded) := by
  have missed : (readGeoipConf openEnded).licenseKey = [] := by decide +kernel
  refine ⟨missed, fun whole => ?_⟩
  have read := (lastValue_getLines_iff word_licenseKey).mp whole.licenseKey
  rw [missed] at read
  exact absurd read (by decide +kernel)

/-- An open end that is only a comment does no harm. -/
theorem readsWhole_commented :
    ReadsWhole (ascii "AccountID 123456\n# end") (readGeoipConf (ascii "AccountID 123456\n# end")) ∧
      (readGeoipConf (ascii "AccountID 123456\n# end")).accountId = ascii "123456" := by
  have nulFree : 0 ∉ ascii "AccountID 123456\n# end" := by decide +kernel
  refine ⟨(readsWhole_iff _ nulFree).mpr (tailIdle_of_blank ?_), ?_⟩
  · decide +kernel
  · decide +kernel

end Nshgeoip.Ctl
