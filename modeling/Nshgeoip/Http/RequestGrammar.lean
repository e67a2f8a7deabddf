import Nshgeoip.Http

/-!
The language `parse_http_request` accepts.

`RequestText` is the grammar of a request, stated on the text alone: a request
line of three space-separated parts before the first CRLF, and an encoding
condition on each component of the target. `parseHttpRequest_isSome_iff` says
the parser accepts exactly that, and that what it decodes is NUL-free with a
path that starts at the root, which is what `parse_ip_address` relies on when
it hands `c_str()` to `inet_pton`.
-/

namespace Nshgeoip

open ByteText

/-! ### The grammar -/

/-- Text percent-decoding accepts: plain bytes, and escapes of a byte other
than NUL. -/
inductive Encoded : Bytes → Prop where
  | nil : Encoded []
  | plain {b : UInt8} {rest : Bytes} :
      b ≠ 37 → 0x20 ≤ b → b ≠ 0x7f → Encoded rest → Encoded (b :: rest)
  | escape {h l : UInt8} {hi lo : Nat} {rest : Bytes} :
      hexVal h = some hi → hexVal l = some lo → (hi, lo) ≠ (0, 0) → Encoded rest →
        Encoded (37 :: h :: l :: rest)

/-- The bytes before the first `c`, all of them if there is none. -/
def before (c : UInt8) (s : Bytes) : Bytes := s.takeWhile (· ≠ c)

/-- The bytes after the first `c`, none if there is none. -/
def after (c : UInt8) (s : Bytes) : Bytes := (s.dropWhile (· ≠ c)).drop 1

/-- `?` ends the path, `&` separates components, `=` ends a key. -/
structure TargetText (target : Bytes) : Prop where
  root : target.head? = some 47
  spaceFree : 32 ∉ target
  path : Encoded (before 63 target)
  query : ∀ pair ∈ (after 63 target).splitOn 38, pair ≠ [] →
    Encoded (before 61 pair) ∧ Encoded (after 61 pair)

def MethodText (method : Bytes) : Prop := method ≠ [] ∧ ∀ c ∈ method, 65 ≤ c ∧ c ≤ 90

def VersionText (version : Bytes) : Prop :=
  version = ascii "HTTP/1.0" ∨ version = ascii "HTTP/1.1"

/-- A request line in front of the first CRLF. -/
def RequestText (raw : Bytes) : Prop :=
  ∃ method target version rest,
    raw = method ++ 32 :: (target ++ 32 :: version) ++ crlf ++ rest ∧
      ¬ crlf <:+: method ++ 32 :: (target ++ 32 :: version) ∧
      MethodText method ∧ TargetText target ∧ VersionText version

/-! ### Percent-decoding -/

theorem hexVal_lt {h : UInt8} {v : Nat} (eq : hexVal h = some v) : v < 16 := by
  unfold hexVal at eq
  split_ifs at eq with digit lower upper
  all_goals
    simp only [Option.some.injEq] at eq
    simp only [UInt8.le_iff_toNat_le, UInt8.reduceToNat] at *
    omega

/-- An escape that is not `%00` does not decode to NUL. -/
theorem escape_ne_nul {h l : UInt8} {hi lo : Nat} (heq : hexVal h = some hi)
    (leq : hexVal l = some lo) (nonzero : ¬ hi * 16 + lo = 0) :
    (0 : UInt8) ≠ (hi * 16 + lo).toUInt8 := by
  have high := hexVal_lt heq
  have low := hexVal_lt leq
  intro zero
  have := congrArg UInt8.toNat zero
  simp only [Nat.toUInt8_eq, UInt8.toNat_ofNat', UInt8.reduceToNat] at this
  omega

/-- What is decoded was encoded text, and holds no NUL. -/
theorem percentDecode_sound {s out : Bytes} (h : percentDecode s = some out) :
    Encoded s ∧ 0 ∉ out := by
  fun_induction percentDecode s generalizing out with
  | case1 =>
      cases h
      exact ⟨.nil, by simp⟩
  | case2 rest ih =>
      obtain ⟨tail, eq, rfl⟩ := Option.map_eq_some_iff.mp h
      obtain ⟨encoded, fresh⟩ := ih eq
      exact ⟨.plain (by decide) (by decide) (by decide) encoded, by simpa using fresh⟩
  | case3 => cases h
  | case4 hd ld rest hi lo leq heq nonzero _ ih =>
      obtain ⟨tail, eq, rfl⟩ := Option.map_eq_some_iff.mp h
      obtain ⟨encoded, fresh⟩ := ih eq
      refine ⟨.escape heq leq ?_ encoded, ?_⟩
      · rintro ⟨rfl, rfl⟩
        exact nonzero rfl
      · rw [List.mem_cons, not_or]
        exact ⟨escape_ne_nul heq leq nonzero, fresh⟩
  | case5 => cases h
  | case6 => cases h
  | case7 => cases h
  | case8 c rest _ percent control ih =>
      obtain ⟨tail, eq, rfl⟩ := Option.map_eq_some_iff.mp h
      obtain ⟨encoded, fresh⟩ := ih eq
      obtain ⟨low, del⟩ := not_or.mp control
      refine ⟨.plain percent (UInt8.not_lt.mp low) del encoded, ?_⟩
      rw [List.mem_cons, not_or]
      refine ⟨?_, fresh⟩
      rintro rfl
      exact low (by decide)

theorem percentDecode_complete {s : Bytes} (h : Encoded s) : ∃ out, percentDecode s = some out := by
  induction h with
  | nil => exact ⟨[], rfl⟩
  | @plain b rest percent low del _ ih =>
      obtain ⟨out, eq⟩ := ih
      rw [percentDecode.eq_def]
      by_cases plus : b = 43
      · simp [plus, eq]
      · simp [plus, percent, UInt8.not_lt.mpr low, del, eq]
  | @escape h l hi lo rest heq leq nonzero _ ih =>
      obtain ⟨out, eq⟩ := ih
      have value : ¬ (hi = 0 ∧ lo = 0) := fun zero => nonzero (by rw [zero.1, zero.2])
      rw [percentDecode.eq_def]
      simp [heq, leq, value, eq]

theorem percentDecode_root {s out : Bytes} (h : percentDecode s = some out)
    (root : s.head? = some 47) : out.head? = some 47 := by
  obtain ⟨rest, rfl⟩ : ∃ rest, s = 47 :: rest := by
    cases s with
    | nil => cases root
    | cons b rest => exact ⟨rest, by simpa using root⟩
  rw [percentDecode.eq_def] at h
  obtain ⟨tail, -, rfl⟩ : ∃ tail, percentDecode rest = some tail ∧ 47 :: tail = out := by
    simpa using h
  rfl

/-! ### The target -/

theorem parsePair_eq (pair : Bytes) :
    parsePair pair = (percentDecode (before 61 pair)).bind fun k =>
      (percentDecode (after 61 pair)).map fun v => (k, v) := by
  unfold parsePair
  rw [cut_byte_getD]
  dsimp only [before, after]
  cases percentDecode (pair.takeWhile (· ≠ 61)) with
  | none => rfl
  | some k => cases percentDecode ((pair.dropWhile (· ≠ 61)).drop 1) <;> rfl

theorem parsePair_sound {pair : Bytes} {kv : Bytes × Bytes} (h : parsePair pair = some kv) :
    (Encoded (before 61 pair) ∧ Encoded (after 61 pair)) ∧ 0 ∉ kv.1 ∧ 0 ∉ kv.2 := by
  rw [parsePair_eq] at h
  obtain ⟨k, keq, mapped⟩ := Option.bind_eq_some_iff.mp h
  obtain ⟨v, veq, rfl⟩ := Option.map_eq_some_iff.mp mapped
  have key := percentDecode_sound keq
  have value := percentDecode_sound veq
  exact ⟨⟨key.1, value.1⟩, key.2, value.2⟩

theorem parsePair_complete {pair : Bytes}
    (h : Encoded (before 61 pair) ∧ Encoded (after 61 pair)) : ∃ kv, parsePair pair = some kv := by
  obtain ⟨k, keq⟩ := percentDecode_complete h.1
  obtain ⟨v, veq⟩ := percentDecode_complete h.2
  exact ⟨(k, v), by simp [parsePair_eq, keq, veq]⟩

theorem parseQuery_sound {pairs : List Bytes} {query : List (Bytes × Bytes)}
    (h : parseQuery pairs = some query) :
    (∀ pair ∈ pairs, pair ≠ [] → Encoded (before 61 pair) ∧ Encoded (after 61 pair)) ∧
      ∀ kv ∈ query, 0 ∉ kv.1 ∧ 0 ∉ kv.2 := by
  induction pairs generalizing query with
  | nil =>
      cases h
      simp
  | cons pair rest ih =>
      rw [parseQuery] at h
      split at h
      · rename_i empty
        obtain ⟨texts, values⟩ := ih h
        refine ⟨?_, values⟩
        intro p mem nonempty
        rcases List.mem_cons.mp mem with rfl | mem
        · exact absurd empty nonempty
        · exact texts p mem nonempty
      · cases parsed : parsePair pair with
        | none => simp [parsed] at h
        | some kv =>
            rw [parsed] at h
            obtain ⟨tail, eq, rfl⟩ := Option.map_eq_some_iff.mp h
            obtain ⟨texts, values⟩ := ih eq
            obtain ⟨here, fresh⟩ := parsePair_sound parsed
            exact ⟨List.forall_mem_cons.mpr ⟨fun _ => here, texts⟩,
              List.forall_mem_cons.mpr ⟨fresh, values⟩⟩

theorem parseQuery_complete {pairs : List Bytes}
    (h : ∀ pair ∈ pairs, pair ≠ [] → Encoded (before 61 pair) ∧ Encoded (after 61 pair)) :
    ∃ query, parseQuery pairs = some query := by
  induction pairs with
  | nil => exact ⟨[], rfl⟩
  | cons pair rest ih =>
      obtain ⟨query, eq⟩ := ih fun p mem => h p (List.mem_cons_of_mem _ mem)
      by_cases empty : pair = []
      · exact ⟨query, by simp [parseQuery, empty, eq]⟩
      · obtain ⟨kv, parsed⟩ := parsePair_complete (h pair List.mem_cons_self empty)
        exact ⟨kv :: query, by simp [parseQuery, empty, parsed, eq]⟩

theorem parseTarget_eq (target : Bytes) :
    parseTarget target = (percentDecode (before 63 target)).bind fun path =>
      (parseQuery ((after 63 target).splitOn 38)).map fun query => (path, query) := by
  unfold parseTarget
  rw [cut_byte_getD]
  dsimp only [before, after]
  cases percentDecode (target.takeWhile (· ≠ 63)) <;> rfl

theorem head?_before {target : Bytes} (root : target.head? = some 47) :
    (before 63 target).head? = some 47 := by
  cases target with
  | nil => cases root
  | cons b rest =>
      obtain rfl : b = 47 := by simpa using root
      simp [before]

/-! ### The request line -/

theorem parseRequestLine_iff {line method target : Bytes} :
    parseRequestLine line = some (method, target) ↔
      ∃ version, line = method ++ 32 :: (target ++ 32 :: version) ∧ MethodText method ∧
        32 ∉ target ∧ target.head? = some 47 ∧ VersionText version := by
  constructor
  · intro h
    unfold parseRequestLine at h
    split at h
    · cases h
    · rename_i method' rest found
      split at h
      · cases h
      · rename_i target' version found'
        split_ifs at h with badVersion badParts upper
        cases h
        obtain ⟨rfl, fresh⟩ := cut_byte_iff.mp found
        obtain ⟨rfl, fresh'⟩ := cut_byte_iff.mp found'
        simp only [not_or, not_not] at badParts
        refine ⟨version, rfl, ⟨badParts.1, ?_⟩, fresh', badParts.2.2, ?_⟩
        · intro c mem
          simpa [isUpper] using List.all_eq_true.mp upper c mem
        · by_contra neither
          exact badVersion ⟨fun h => neither (.inr h), fun h => neither (.inl h)⟩
  · rintro ⟨version, rfl, ⟨nonempty, letters⟩, spaceFree, root, version'⟩
    have noSpace : (32 : UInt8) ∉ method := by
      intro mem
      exact absurd (letters 32 mem).1 (by decide)
    have upper : method.all isUpper = true :=
      List.all_eq_true.mpr fun c mem => by simpa [isUpper] using letters c mem
    have notEmpty : target ≠ [] := by
      rintro rfl
      cases root
    have known : ¬ (version ≠ ascii "HTTP/1.1" ∧ version ≠ ascii "HTTP/1.0") := by
      rintro ⟨h₁, h₀⟩
      exact version'.elim h₀ h₁
    have found := cut_byte_append noSpace (target ++ 32 :: version)
    have found' := cut_byte_append spaceFree version
    simp only [parseRequestLine, found, found']
    rw [if_neg known, if_neg (by simp [nonempty, notEmpty, root]), if_pos upper]

/-- What a successful parse passed through. -/
theorem parseHttpRequest_sound {raw : Bytes} {req : HttpRequest}
    (h : parseHttpRequest raw = some req) :
    RequestText raw ∧ req.path.head? = some 47 ∧ 0 ∉ req.path ∧
      ∀ kv ∈ req.query, 0 ∉ kv.1 ∧ 0 ∉ kv.2 := by
  unfold parseHttpRequest at h
  split at h
  · cases h
  · rename_i line rest found
    split at h
    · cases h
    · rename_i method target parsed
      obtain ⟨version, rfl, methodText, spaceFree, root, versionText⟩ :=
        parseRequestLine_iff.mp parsed
      obtain ⟨⟨path, query⟩, targetEq, rfl⟩ := Option.map_eq_some_iff.mp h
      rw [parseTarget_eq] at targetEq
      obtain ⟨path', pathEq, mapped⟩ := Option.bind_eq_some_iff.mp targetEq
      obtain ⟨query', queryEq, eq⟩ := Option.map_eq_some_iff.mp mapped
      cases eq
      obtain ⟨encoded, fresh⟩ := percentDecode_sound pathEq
      obtain ⟨texts, values⟩ := parseQuery_sound queryEq
      obtain ⟨text, noCrlf⟩ := cut_crlf_iff.mp found
      exact ⟨⟨method, target, version, rest, text, noCrlf, methodText,
          ⟨root, spaceFree, encoded, texts⟩, versionText⟩,
        percentDecode_root pathEq (head?_before root), fresh, values⟩

theorem parseHttpRequest_complete {raw : Bytes} (h : RequestText raw) :
    (parseHttpRequest raw).isSome = true := by
  obtain ⟨method, target, version, rest, rfl, noCrlf, methodText, targetText, versionText⟩ := h
  have found := cut_crlf_append noCrlf rest
  have line := parseRequestLine_iff.mpr
    ⟨version, rfl, methodText, targetText.spaceFree, targetText.root, versionText⟩
  obtain ⟨path, pathEq⟩ := percentDecode_complete targetText.path
  obtain ⟨query, queryEq⟩ := parseQuery_complete targetText.query
  simp only [parseHttpRequest, found, line, parseTarget_eq, pathEq, queryEq, Option.bind_some,
    Option.map_some, Option.isSome_some]

/-- **The parser accepts exactly its grammar**, and what it decodes is NUL-free
with a path that starts at the root. -/
theorem parseHttpRequest_isSome_iff (raw : Bytes) :
    ((parseHttpRequest raw).isSome = true ↔ RequestText raw) ∧
      ∀ req, parseHttpRequest raw = some req →
        req.path ≠ [] ∧ req.path.head? = some 47 ∧ 0 ∉ req.path ∧
          ∀ kv ∈ req.query, 0 ∉ kv.1 ∧ 0 ∉ kv.2 := by
  refine ⟨⟨?_, parseHttpRequest_complete⟩, ?_⟩
  · intro h
    obtain ⟨req, eq⟩ := Option.isSome_iff_exists.mp h
    exact (parseHttpRequest_sound eq).1
  · intro req h
    obtain ⟨-, root, rest⟩ := parseHttpRequest_sound h
    refine ⟨?_, root, rest⟩
    intro empty
    rw [empty] at root
    cases root

end Nshgeoip
