import Nshgeoip.Geoip

/-!
The age of a database.

`make_metadata` takes the difference of the host's clock and the build time of the file,
scales it to milliseconds and nanoseconds and converts the products to unsigned numbers.
`makeMetadataExact` is the same function with the difference and the products in exact
arithmetic. The doubles of the code differ from it for no database that is up to 146
years old (`makeMetadata_eq_exact`), so what is shown about the one holds for the other.
-/

namespace Nshgeoip

open ByteText

/-- `difftime(now, build_time)` as a whole number of seconds. The build time has gone
through a cast to `time_t`. -/
def ageSeconds (host : Host) (mmdb : Mmdb) : ℤ :=
  host.now.toInt - mmdb.buildEpoch.toInt64.toInt

/-- `static_cast<std::uint64_t>` of a whole number. -/
def castExact (host : Host) (v : ℤ) : UInt64 :=
  if 0 ≤ v ∧ v < 2 ^ 64 then v.toNat.toUInt64 else host.unrepresentable (.ofInt v)

/-- `make_metadata` in exact arithmetic. -/
def makeMetadataExact (host : Host) (mmdb : Mmdb) : GeoIpDbMetadata :=
  { makeMetadata host mmdb with
    ageMs := castExact host (ageSeconds host mmdb * 1000)
    ageNs := castExact host (ageSeconds host mmdb * 1000000000) }

theorem makeMetadata_ageDays_isFinite (host : Host) (mmdb : Mmdb) :
    (makeMetadata host mmdb).ageDays.isFinite = true := by
  have now := host.now.toInt_lt
  have now' := host.now.le_toInt
  have build := mmdb.buildEpoch.toInt64.toInt_lt
  have build' := mmdb.buildEpoch.toInt64.le_toInt
  refine Binary64.div_isFinite (Binary64.ofInt_isFinite ?_) (by decide +kernel) (by decide +kernel)
  rw [abs_le]
  omega

/-! ### The products of the code -/

theorem difftime_eq (host : Host) (mmdb : Mmdb) :
    difftime host.now mmdb.buildEpoch.toInt64 = .ofInt (ageSeconds host mmdb) := rfl

/-- The cast of an exact product. -/
theorem castU64_product (host : Host) {n odd j : ℕ} (digits : n * odd < 2 ^ 53)
    (factor : odd * 2 ^ j < 2 ^ 53) (nonzero : 0 < odd) (fits : n * (odd * 2 ^ j) < 2 ^ 64) :
    castU64 host ((Binary64.ofInt n).mul (.ofInt (odd * 2 ^ j : ℕ))) =
      castExact host (n * (odd * 2 ^ j : ℕ)) := by
  obtain ⟨finite, value⟩ := Binary64.mul_ofInt_exact digits factor nonzero fits
  have small : (n * (odd * 2 ^ j : ℕ) : ℤ) < 2 ^ 64 := by exact_mod_cast fits
  have nonneg : (0 : ℤ) ≤ n * (odd * 2 ^ j : ℕ) := by positivity
  have low : (-1 : ℚ) < (n * (odd * 2 ^ j) : ℕ) := neg_one_lt_zero.trans_le (Nat.cast_nonneg _)
  have high : ((n * (odd * 2 ^ j) : ℕ) : ℚ) < 2 ^ 64 := by exact_mod_cast fits
  rw [← value] at low high
  rw [castU64, if_pos ⟨finite, low, high⟩, value, Int.floor_natCast, castExact,
    if_pos ⟨nonneg, small⟩]
  rfl

/-- **For a database up to 146 years old the doubles lose nothing.** -/
theorem makeMetadata_eq_exact {host : Host} {mmdb : Mmdb} (past : 0 ≤ ageSeconds host mmdb)
    (recent : ageSeconds host mmdb * 1953125 < 2 ^ 53) :
    makeMetadata host mmdb = makeMetadataExact host mmdb := by
  obtain ⟨n, age⟩ := Int.eq_ofNat_of_zero_le past
  have ms := @castU64_product host n 125 3 (by omega) (by norm_num) (by norm_num) (by omega)
  have ns := @castU64_product host n 1953125 9 (by omega) (by norm_num) (by norm_num) (by omega)
  have thousand : ((125 * 2 ^ 3 : ℕ) : ℤ) = 1000 := by norm_num
  have billion : ((1953125 * 2 ^ 9 : ℕ) : ℤ) = 1000000000 := by norm_num
  rw [thousand] at ms
  rw [billion] at ns
  simp only [makeMetadataExact, makeMetadata, difftime_eq, age, ms, ns]

/-! ### The age in days -/

/-- The days that are shown, with one decimal, are the age in days to within a tenth. -/
theorem abs_ageDays_sub_lt {host : Host} {mmdb : Mmdb} {n : ℕ} (age : ageSeconds host mmdb = n)
    (short : n < 2 ^ 48) :
    |Binary64.roundPlaces 1 (makeMetadata host mmdb).ageDays.value - n / 86400| < 1 / 10 := by
  have day : (Binary64.ofInt (86400 : ℕ)).magnitude = 86400 := Binary64.magnitude_ofInt (by norm_num)
  have nonzero : (Binary64.ofInt (86400 : ℕ)).magnitude ≠ 0 := by
    rw [day]
    norm_num
  have quotient : (makeMetadata host mmdb).ageDays = .ofRat false (n / 86400) := by
    have divided := @Binary64.div_eq (.ofInt n) (.ofInt (86400 : ℕ))
      (Binary64.ofInt_natCast_isFinite (by omega)) (Binary64.ofInt_natCast_isFinite (by norm_num))
      nonzero
    rw [Binary64.magnitude_ofInt (short.trans (by norm_num)), day, Binary64.ofInt_natCast_sign,
      Binary64.ofInt_natCast_sign, Bool.xor_false] at divided
    simp only [makeMetadata, difftime_eq, age]
    exact divided
  have seconds : (n : ℚ) < 2 ^ 48 := by exact_mod_cast short
  have near := @Binary64.abs_ofRat_value_sub_le (n / 86400) (by positivity) (by linarith)
  have shown := Binary64.abs_roundPlaces_sub_le 1 (Binary64.ofRat false ((n : ℚ) / 86400)).value
  rw [quotient]
  calc |Binary64.roundPlaces 1 (Binary64.ofRat false ((n : ℚ) / 86400)).value - n / 86400|
      ≤ _ + _ := abs_sub_le _ (Binary64.ofRat false ((n : ℚ) / 86400)).value _
    _ ≤ 1 / (2 * 10 ^ 1) + 1 / 64 := add_le_add shown near
    _ < 1 / 10 := by norm_num

end Nshgeoip
