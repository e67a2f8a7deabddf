import Nshgeoip.Http.RequestGrammar

/-!
Parsing undoes encoding.

`Encodes` is what a client may write for a decoded text: every byte as an
escape, most of them raw, the space also as a plus. The delimiters of a target
are never raw, so the text of a component holds none of them, splitting undoes
joining, and decoding undoes the encoding of each component.
-/

namespace Nshgeoip

open ByteText

/-! ### What a client may write -/

/-- Bytes that may stand for themselves: no control byte, no space, and none of
`%`, `+`, `?`, `&` and `=`. -/
def isRaw (b : UInt8) : Bool :=
  decide (0x20 < b ∧ b ≠ 0x7f ∧ b ≠ 37 ∧ b ≠ 43 ∧ b ≠ 63 ∧ b ≠ 38 ∧ b ≠ 61)

/-- The second text is a way of writing the first. -/
inductive Encodes : Bytes → Bytes → Prop where
  | nil : Encodes [] []
  | raw {b : UInt8} {s t : Bytes} : isRaw b = true → Encodes s t → Encodes (b :: s) (b :: t)
  | plus {s t : Bytes} : Encodes s t → Encodes (32 :: s) (43 :: t)
  | escape {b h l : UInt8} {hi lo : Nat} {s t : Bytes} :
      hexVal h = some hi → hexVal l = some lo → b.toNat = hi * 16 + lo → Encodes s t →
        Encodes (b :: s) (37 :: h :: l :: t)

/-- `key=value` with both parts encoded. -/
def EncodesPair (kv : Bytes × Bytes) (text : Bytes) : Prop :=
  ∃ k v, Encodes kv.1 k ∧ Encodes kv.2 v ∧ text = k ++ 61 :: v

/-- The path with its root raw, and the pairs behind the `?`; a target without
pairs may leave the `?` out. -/
inductive EncodesTarget (path : Bytes) (query : List (Bytes × Bytes)) : Bytes → Prop where
  | pairs {rest text : Bytes} {texts : List Bytes} :
      path = 47 :: rest → Encodes rest text → List.Forall₂ EncodesPair query texts →
        EncodesTarget path query (47 :: text ++ 63 :: [38].intercalate texts)
  | bare {rest text : Bytes} :
      path = 47 :: rest → Encodes rest text → query = [] → EncodesTarget path query (47 :: text)

/-! ### Encoded text holds no delimiter -/

/-- A hexadecimal digit is a letter or a number, hence may stand raw. -/
theorem isRaw_of_hexVal {h : UInt8} {v : Nat} (eq : hexVal h = some v) : isRaw h = true := by
  unfold hexVal at eq
  simp only [isRaw, decide_eq_true_eq, UInt8.lt_iff_toNat_lt, ne_eq, ← UInt8.toNat_inj,
    UInt8.reduceToNat]
  simp only [UInt8.le_iff_toNat_le, UInt8.reduceToNat] at eq
  split_ifs at eq with digit lower upper
  all_goals omega

/-- Every byte of an encoding is raw, a plus or a percent sign. -/
theorem Encodes.bytes {s t : Bytes} (h : Encodes s t) :
    ∀ b ∈ t, isRaw b = true ∨ b = 43 ∨ b = 37 := by
  induction h with
  | nil => simp
  | raw plain _ ih => exact List.forall_mem_cons.mpr ⟨.inl plain, ih⟩
  | plus _ ih => exact List.forall_mem_cons.mpr ⟨.inr (.inl rfl), ih⟩
  | escape heq leq _ _ ih =>
      refine List.forall_mem_cons.mpr ⟨.inr (.inr rfl), ?_⟩
      refine List.forall_mem_cons.mpr ⟨.inl (isRaw_of_hexVal heq), ?_⟩
      exact List.forall_mem_cons.mpr ⟨.inl (isRaw_of_hexVal leq), ih⟩

theorem Encodes.fresh {s t : Bytes} (h : Encodes s t) {c : UInt8} (notRaw : isRaw c = false)
    (notPlus : c ≠ 43) (notPercent : c ≠ 37) : c ∉ t := by
  intro mem
  rcases h.bytes c mem with raw | plus | percent
  · rw [notRaw] at raw
    cases raw
  · exact notPlus plus
  · exact notPercent percent

theorem EncodesPair.fresh {kv : Bytes × Bytes} {text : Bytes} (h : EncodesPair kv text) {c : UInt8}
    (notRaw : isRaw c = false) (notPlus : c ≠ 43) (notPercent : c ≠ 37) (notEquals : c ≠ 61) :
    c ∉ text := by
  obtain ⟨k, v, key, value, rfl⟩ := h
  simp only [List.mem_append, List.mem_cons, not_or]
  exact ⟨key.fresh notRaw notPlus notPercent, notEquals, value.fresh notRaw notPlus notPercent⟩

theorem mem_intercalate {c d : UInt8} {texts : List Bytes} (h : c ∈ [d].intercalate texts) :
    c = d ∨ ∃ text ∈ texts, c ∈ text := by
  induction texts with
  | nil => cases h
  | cons text rest ih =>
      cases rest with
      | nil => exact .inr ⟨text, List.mem_cons_self, by simpa using h⟩
      | cons next rest =>
          rw [List.intercalate_cons_cons] at h
          simp only [List.append_assoc, List.mem_append, List.mem_singleton] at h
          rcases h with here | sep | later
          · exact .inr ⟨text, List.mem_cons_self, here⟩
          · exact .inl sep
          · rcases ih later with sep | ⟨found, mem, inside⟩
            · exact .inl sep
            · exact .inr ⟨found, List.mem_cons_of_mem _ mem, inside⟩

theorem forall₂_right {α β : Type} {R : α → β → Prop} {xs : List α} {ys : List β}
    (h : List.Forall₂ R xs ys) : ∀ y ∈ ys, ∃ x ∈ xs, R x y := by
  induction h with
  | nil => simp
  | cons here _ ih =>
      refine List.forall_mem_cons.mpr ⟨⟨_, List.mem_cons_self, here⟩, ?_⟩
      intro y mem
      obtain ⟨x, xMem, related⟩ := ih y mem
      exact ⟨x, List.mem_cons_of_mem _ xMem, related⟩

/-- A target in this encoding is one word of the request line. -/
theorem EncodesTarget.fresh {path target : Bytes} {query : List (Bytes × Bytes)}
    (h : EncodesTarget path query target) {c : UInt8} (notRaw : isRaw c = false)
    (delimiter : c ∉ [43, 37, 61, 47, 63, 38]) : c ∉ target := by
  simp only [List.mem_cons, List.not_mem_nil, or_false, not_or] at delimiter
  obtain ⟨notPlus, notPercent, notEquals, notSlash, notQuestion, notAmp⟩ := delimiter
  cases h with
  | bare _ encoded _ =>
      simp only [List.mem_cons, not_or]
      exact ⟨notSlash, encoded.fresh notRaw notPlus notPercent⟩
  | pairs _ encoded each =>
      simp only [List.cons_append, List.mem_cons, List.mem_append, not_or]
      refine ⟨notSlash, encoded.fresh notRaw notPlus notPercent, notQuestion, ?_⟩
      intro mem
      rcases mem_intercalate mem with sep | ⟨text, textMem, inside⟩
      · exact notAmp sep
      · obtain ⟨kv, -, pair⟩ := forall₂_right each text textMem
        exact pair.fresh notRaw notPlus notPercent notEquals inside

/-! ### Decoding undoes encoding -/

theorem percentDecode_encodes {s t : Bytes} (h : Encodes s t) (nulFree : 0 ∉ s) :
    percentDecode t = some s := by
  induction h with
  | nil => rfl
  | @raw b s t plain _ ih =>
      have tail := ih fun mem => nulFree (List.mem_cons_of_mem _ mem)
      simp only [isRaw, decide_eq_true_eq] at plain
      obtain ⟨low, del, percent, plus, -⟩ := plain
      have high : ¬ (b < 0x20 ∨ b = 0x7f) :=
        not_or.mpr ⟨UInt8.not_lt.mpr (UInt8.le_of_lt low), del⟩
      rw [percentDecode.eq_def]
      simp only [if_neg plus, if_neg percent, if_neg high, tail, Option.map_some]
  | plus _ ih =>
      have tail := ih fun mem => nulFree (List.mem_cons_of_mem _ mem)
      rw [percentDecode.eq_def]
      simp [tail]
  | @escape b h l hi lo s t heq leq value _ ih =>
      have tail := ih fun mem => nulFree (List.mem_cons_of_mem _ mem)
      have nonzero : ¬ hi * 16 + lo = 0 := by
        rw [← value]
        intro zero
        have nul : b = 0 := UInt8.toNat_inj.mp zero
        exact nulFree (nul ▸ List.mem_cons_self)
      have byte : (hi * 16 + lo).toUInt8 = b := by rw [← value]; simp
      rw [percentDecode.eq_def]
      simp only [heq, leq, tail, byte, if_neg nonzero, Option.map_some]
      rfl

theorem before_append {c : UInt8} {a : Bytes} (fresh : c ∉ a) (z : Bytes) :
    before c (a ++ c :: z) = a := by
  have split := cut_byte_getD c (a ++ c :: z)
  rw [cut_byte_append fresh] at split
  exact (congrArg Prod.fst split).symm

theorem after_append {c : UInt8} {a : Bytes} (fresh : c ∉ a) (z : Bytes) :
    after c (a ++ c :: z) = z := by
  have split := cut_byte_getD c (a ++ c :: z)
  rw [cut_byte_append fresh] at split
  exact (congrArg Prod.snd split).symm

theorem parsePair_encodes {kv : Bytes × Bytes} {text : Bytes} (h : EncodesPair kv text)
    (nulFree : 0 ∉ kv.1 ∧ 0 ∉ kv.2) : parsePair text = some kv := by
  obtain ⟨k, v, key, value, rfl⟩ := h
  have noEquals : (61 : UInt8) ∉ k := key.fresh rfl (by decide) (by decide)
  rw [parsePair_eq, before_append noEquals, after_append noEquals,
    percentDecode_encodes key nulFree.1, percentDecode_encodes value nulFree.2]
  rfl

/-- A pair is never the empty component the loop skips: it holds its `=`. -/
theorem parseQuery_encodes {query : List (Bytes × Bytes)} {texts : List Bytes}
    (h : List.Forall₂ EncodesPair query texts) (nulFree : ∀ kv ∈ query, 0 ∉ kv.1 ∧ 0 ∉ kv.2) :
    parseQuery texts = some query := by
  induction h with
  | nil => rfl
  | @cons kv text query texts here _ ih =>
      have tail := ih fun kv mem => nulFree kv (List.mem_cons_of_mem _ mem)
      have parsed := parsePair_encodes here (nulFree kv List.mem_cons_self)
      have nonempty : text ≠ [] := by
        obtain ⟨k, v, -, -, rfl⟩ := here
        simp
      rw [parseQuery, if_neg nonempty, parsed, tail]
      rfl

theorem parseQuery_intercalate {query : List (Bytes × Bytes)} {texts : List Bytes}
    (h : List.Forall₂ EncodesPair query texts) (nulFree : ∀ kv ∈ query, 0 ∉ kv.1 ∧ 0 ∉ kv.2) :
    parseQuery (([38].intercalate texts).splitOn 38) = some query := by
  cases h with
  | nil => rfl
  | @cons kv text query texts here more =>
      have all := List.Forall₂.cons here more
      have noAmp : ∀ t ∈ text :: texts, (38 : UInt8) ∉ t := by
        intro t mem
        obtain ⟨kv, -, pair⟩ := forall₂_right all t mem
        exact pair.fresh rfl (by decide) (by decide) (by decide)
      rw [List.splitOn_intercalate _ noAmp (by simp)]
      exact parseQuery_encodes all nulFree

theorem percentDecode_slash {rest text : Bytes} (encoded : Encodes rest text)
    (nulFree : 0 ∉ (47 : UInt8) :: rest) : percentDecode (47 :: text) = some (47 :: rest) :=
  percentDecode_encodes (.raw rfl encoded) nulFree

theorem parseTarget_encodes {path target : Bytes} {query : List (Bytes × Bytes)}
    (h : EncodesTarget path query target) (pathNulFree : 0 ∉ path)
    (nulFree : ∀ kv ∈ query, 0 ∉ kv.1 ∧ 0 ∉ kv.2) : parseTarget target = some (path, query) := by
  rw [parseTarget_eq]
  cases h with
  | @pairs rest text texts root encoded each =>
      subst root
      have noQuestion : (63 : UInt8) ∉ 47 :: text :=
        (Encodes.raw (b := 47) rfl encoded).fresh rfl (by decide) (by decide)
      rw [before_append noQuestion, after_append noQuestion, percentDecode_slash encoded pathNulFree,
        parseQuery_intercalate each nulFree]
      rfl
  | @bare rest text root encoded empty =>
      subst root empty
      have noQuestion : (63 : UInt8) ∉ 47 :: text :=
        (Encodes.raw (b := 47) rfl encoded).fresh rfl (by decide) (by decide)
      have differs : ∀ b ∈ 47 :: text, decide (b ≠ 63) = true := by
        intro b mem
        exact decide_eq_true fun eq => noQuestion (eq ▸ mem)
      have whole : before 63 (47 :: text) = 47 :: text := List.takeWhile_eq_self_iff.mpr differs
      have nothing : after 63 (47 :: text) = [] := by
        rw [after, List.dropWhile_eq_nil_iff.mpr differs, List.drop_nil]
      rw [whole, nothing, percentDecode_slash encoded pathNulFree]
      rfl

/-! ### The request -/

theorem findQueryParam_eq_some_iff {req : HttpRequest} {key value : Bytes} :
    findQueryParam req key = some value ↔
      ∃ front back, req.query = front ++ (key, value) :: back ∧ ∀ kv ∈ front, kv.1 ≠ key := by
  unfold findQueryParam
  rw [Option.map_eq_some_iff]
  constructor
  · rintro ⟨⟨k, v⟩, found, rfl⟩
    obtain ⟨same, front, back, eq, differs⟩ := List.find?_eq_some_iff_append.mp found
    obtain rfl : k = key := by simpa using same
    exact ⟨front, back, eq, fun kv mem => by simpa using differs kv mem⟩
  · rintro ⟨front, back, eq, differs⟩
    refine ⟨(key, value), ?_, rfl⟩
    rw [List.find?_eq_some_iff_append]
    exact ⟨by simp, front, back, eq, fun kv mem => by simpa using differs kv mem⟩

theorem findQueryParam_eq_none_iff {req : HttpRequest} {key : Bytes} :
    findQueryParam req key = none ↔ ∀ kv ∈ req.query, kv.1 ≠ key := by
  unfold findQueryParam
  rw [Option.map_eq_none_iff, List.find?_eq_none]
  simp

/-- **Parsing undoes encoding**: the request a client wrote is the request
parsed, whatever way it chose to encode it and whatever headers follow. -/
theorem parseHttpRequest_roundTrip {method path target version : Bytes}
    {query : List (Bytes × Bytes)} (methodText : MethodText method) (pathNulFree : 0 ∉ path)
    (queryNulFree : ∀ kv ∈ query, 0 ∉ kv.1 ∧ 0 ∉ kv.2) (encoded : EncodesTarget path query target)
    (versionText : VersionText version) (headers : Bytes) :
    ∃ req,
      parseHttpRequest (method ++ 32 :: (target ++ 32 :: version) ++ crlf ++ headers) = some req ∧
        req.method = method ∧ req.path = path ∧ req.query = query ∧
        ∀ key,
          (∀ value, findQueryParam req key = some value ↔
            ∃ front back, query = front ++ (key, value) :: back ∧ ∀ kv ∈ front, kv.1 ≠ key) ∧
          (findQueryParam req key = none ↔ ∀ kv ∈ query, kv.1 ≠ key) := by
  have spaceFree : (32 : UInt8) ∉ target := encoded.fresh rfl (by decide)
  have root : target.head? = some 47 := by cases encoded <;> rfl
  have line := parseRequestLine_iff.mpr ⟨version, rfl, methodText, spaceFree, root, versionText⟩
  have noReturn : (13 : UInt8) ∉ method ++ 32 :: (target ++ 32 :: version) := by
    simp only [List.mem_append, List.mem_cons, not_or]
    refine ⟨?_, by decide, encoded.fresh rfl (by decide), by decide, ?_⟩
    · intro mem
      exact absurd (methodText.2 13 mem).1 (by decide)
    · rcases versionText with rfl | rfl <;> decide
  have found : cut crlf (method ++ 32 :: (target ++ 32 :: version) ++ crlf ++ headers)
      = some (method ++ 32 :: (target ++ 32 :: version), headers) := by
    rw [List.append_assoc]
    exact cut_append noReturn headers
  have parsed := parseTarget_encodes encoded pathNulFree queryNulFree
  refine ⟨⟨method, path, query, scanHeaders headers.length headers []⟩, ?_, rfl, rfl, rfl, ?_⟩
  · simp only [parseHttpRequest, found, line, parsed, Option.map_some]
  · intro key
    exact ⟨fun value => findQueryParam_eq_some_iff, findQueryParam_eq_none_iff⟩

/-- `GET /a%2f%2Fb?q=1+2&q=%26&= HTTP/1.1`: escapes in both cases, a plus, a
repeated key, a delimiter inside a value, and a pair of empty texts. -/
theorem parseHttpRequest_roundTrip_get :
    ∃ req,
      parseHttpRequest (ascii "GET" ++ 32 ::
          ((47 :: ascii "a%2f%2Fb" ++ 63 :: [38].intercalate [ascii "q=1+2", ascii "q=%26", ascii "="])
            ++ 32 :: ascii "HTTP/1.1") ++ crlf ++ ascii "Host: x\r\n\r\n") = some req ∧
        req.method = ascii "GET" ∧ req.path = ascii "/a//b" ∧
        req.query = [(ascii "q", ascii "1 2"), (ascii "q", ascii "&"), ([], [])] ∧
        ∀ key,
          (∀ value, findQueryParam req key = some value ↔
            ∃ front back, [(ascii "q", ascii "1 2"), (ascii "q", ascii "&"), ([], [])]
              = front ++ (key, value) :: back ∧ ∀ kv ∈ front, kv.1 ≠ key) ∧
          (findQueryParam req key = none ↔
            ∀ kv ∈ [(ascii "q", ascii "1 2"), (ascii "q", ascii "&"), ([], [])], kv.1 ≠ key) := by
  have q : Encodes (ascii "q") (ascii "q") := .raw rfl .nil
  have spaced : Encodes (ascii "1 2") (ascii "1+2") := .raw rfl (.plus (.raw rfl .nil))
  have ampersand : Encodes (ascii "&") (ascii "%26") := .escape rfl rfl rfl .nil
  have path : Encodes (ascii "a//b") (ascii "a%2f%2Fb") :=
    .raw rfl (.escape rfl rfl rfl (.escape rfl rfl rfl (.raw rfl .nil)))
  have upper : (ascii "GET").all (fun c => decide (65 ≤ c ∧ c ≤ 90)) = true := rfl
  have method : MethodText (ascii "GET") := by
    refine ⟨by decide, fun c mem => ?_⟩
    simpa using List.all_eq_true.mp upper c mem
  refine parseHttpRequest_roundTrip method (by decide) (by decide) (.pairs rfl path ?_) (.inr rfl)
    (ascii "Host: x\r\n\r\n")
  exact .cons ⟨_, _, q, spaced, rfl⟩ (.cons ⟨_, _, q, ampersand, rfl⟩
    (.cons ⟨_, _, .nil, .nil, rfl⟩ .nil))

end Nshgeoip
