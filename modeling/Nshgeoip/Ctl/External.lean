import Nshgeoip.Ctl
import Nshgeoip.Lib.Search

/-!
`external_db_path`: a database somebody else looks after.

The function drops the managed directory from the default ones and searches the
rest. Its search, `nshgeoip_find_db`, takes an empty list for "not given" and goes
through all the defaults then, the managed directory among them; so the filter
holds unless it leaves nothing (`externalOnly_iff`).
-/

namespace Nshgeoip.Ctl

open ByteText ListSearch

/-- **What is reported is external.** A path is the file of the first default directory,
other than the managed one, that has a readable one; without such a directory nothing
is reported, and the edition is left for `download_one_db`. -/
structure ExternalOnly (fs : FileSystem) (defaults : List Bytes) (geoipDir : Bytes) (e : Edition)
    (reported : Option Bytes) : Prop where
  first : ∀ path, reported = some path →
    ∃ before dir after, defaults = before ++ dir :: after ∧ dir ≠ geoipDir ∧ path = e.fileIn dir ∧
      fs.readable path = true ∧ ∀ d ∈ before, d ≠ geoipDir → fs.readable (e.fileIn d) = false
  absent : reported = none ↔ ∀ d ∈ defaults, d ≠ geoipDir → fs.readable (e.fileIn d) = false
  /-- The country database of a run without arguments is left to the city one. -/
  managed : ∀ h : Host, h.fs = fs → h.defaults = defaults → h.geoipDir = geoipDir →
    (∀ d ∈ defaults, d ≠ geoipDir → fs.readable (e.fileIn d) = false) →
      ∀ (autoDefaulted : Bool) (editions : List Edition), e ∈ editions →
        ¬ (autoDefaulted = true ∧ .city ∈ editions ∧ e = .country) →
          e ∈ h.toProcess autoDefaulted editions

/-- Nothing but the managed directory is listed, and the file is there. -/
def OnlyManaged (fs : FileSystem) (defaults : List Bytes) (geoipDir : Bytes) (e : Edition) : Prop :=
  defaults ≠ [] ∧ (∀ d ∈ defaults, d = geoipDir) ∧ fs.readable (e.fileIn geoipDir) = true

/-- An edition that is not reported elsewhere is processed. -/
theorem Host.mem_toProcess {h : Host} {e : Edition} {autoDefaulted : Bool} {editions : List Edition}
    (mem : e ∈ editions) (unreported : h.external e = none)
    (wanted : ¬ (autoDefaulted = true ∧ .city ∈ editions ∧ e = .country)) :
    e ∈ h.toProcess autoDefaulted editions := by
  have left : e ∈ editions.filter fun e => (h.external e).isNone :=
    List.mem_filter.mpr ⟨mem, by rw [unreported, Option.isNone_none]⟩
  unfold toProcess
  dsimp only
  split_ifs with covered
  · refine List.mem_filter.mpr ⟨left, decide_eq_true ?_⟩
    intro country
    exact wanted ⟨covered.1, covered.2, country⟩
  · exact left

section Search

variable {fs : FileSystem} {defaults : List Bytes} {geoipDir : Bytes} {e : Edition}

theorem filter_eq_nil_iff_managed :
    defaults.filter (· ≠ geoipDir) = [] ↔ ∀ d ∈ defaults, d = geoipDir := by
  simp [List.filter_eq_nil_iff]

/-- The search over what the filter leaves. -/
theorem externalDbPath_of_other (other : ∃ d ∈ defaults, d ≠ geoipDir) :
    externalDbPath fs defaults geoipDir e =
      ((defaults.filter (· ≠ geoipDir)).map e.fileIn).find? fs.readable := by
  obtain ⟨d, mem, differs⟩ := other
  rw [externalDbPath, findDb, if_neg]
  intro nothing
  exact differs (filter_eq_nil_iff_managed.mp nothing d mem)

/-- The search over the managed directory alone. -/
theorem externalDbPath_of_managed (managed : ∀ d ∈ defaults, d = geoipDir) :
    externalDbPath fs defaults geoipDir e = (defaults.map e.fileIn).find? fs.readable := by
  rw [externalDbPath, findDb, if_pos (filter_eq_nil_iff_managed.mpr managed)]

theorem externalDbPath_of_managed_eq_none_iff (managed : ∀ d ∈ defaults, d = geoipDir) :
    externalDbPath fs defaults geoipDir e = none ↔ ¬ OnlyManaged fs defaults geoipDir e := by
  rw [externalDbPath_of_managed managed, find?_map_eq_none_iff]
  constructor
  · rintro unreadable ⟨nonempty, -, readable⟩
    obtain ⟨d, mem⟩ := List.exists_mem_of_ne_nil _ nonempty
    have here := unreadable d mem
    rw [managed d mem, readable] at here
    cases here
  · intro allowed d mem
    by_contra readable
    rw [Bool.not_eq_false, managed d mem] at readable
    exact allowed ⟨List.ne_nil_of_mem mem, managed, readable⟩

/-- An entry of the filtered list, found in the list itself. -/
theorem split_of_filter {before : List Bytes} {dir : Bytes} {after : List Bytes}
    (h : defaults.filter (· ≠ geoipDir) = before ++ dir :: after) :
    ∃ before' after', defaults = before' ++ dir :: after' ∧ dir ≠ geoipDir ∧
      ∀ d ∈ before', d ≠ geoipDir → d ∈ before := by
  obtain ⟨front, back, rfl, frontEq, backEq⟩ := List.filter_eq_append_iff.mp h
  obtain ⟨skipped, after', rfl, skip, other, -⟩ := List.filter_eq_cons_iff.mp backEq
  refine ⟨front ++ skipped, after', by rw [List.append_assoc], by simpa using other, ?_⟩
  intro d mem differs
  rcases List.mem_append.mp mem with inFront | inSkipped
  · rw [← frontEq]
    exact List.mem_filter.mpr ⟨inFront, decide_eq_true differs⟩
  · exact absurd (decide_eq_true differs) (skip d inSkipped)

/-- A search over other directories reports the first that has the file. -/
theorem externalOnly_of_other (other : ∃ d ∈ defaults, d ≠ geoipDir) :
    ExternalOnly fs defaults geoipDir e (externalDbPath fs defaults geoipDir e) := by
  have search := @externalDbPath_of_other fs defaults geoipDir e other
  have absent : externalDbPath fs defaults geoipDir e = none ↔
      ∀ d ∈ defaults, d ≠ geoipDir → fs.readable (e.fileIn d) = false := by
    rw [search, find?_map_eq_none_iff]
    simp only [List.mem_filter, decide_eq_true_eq, and_imp]
  constructor
  case first =>
    intro path reported
    rw [search] at reported
    obtain ⟨before, dir, after, split, rfl, here, earlier⟩ := find?_map_eq_some_iff.mp reported
    obtain ⟨before', after', split', differs, kept⟩ := split_of_filter split
    refine ⟨before', dir, after', split', differs, rfl, here, ?_⟩
    intro d mem other
    exact earlier d (kept d mem other)
  case absent => exact absent
  case managed =>
    rintro h rfl rfl rfl nowhere autoDefaulted editions mem wanted
    exact Host.mem_toProcess mem (absent.mpr nowhere) wanted

/-- A search over the managed directory alone must not report anything. -/
theorem externalOnly_of_managed_iff (managed : ∀ d ∈ defaults, d = geoipDir) :
    ExternalOnly fs defaults geoipDir e (externalDbPath fs defaults geoipDir e) ↔
      ¬ OnlyManaged fs defaults geoipDir e := by
  have nowhere : ∀ d ∈ defaults, d ≠ geoipDir → fs.readable (e.fileIn d) = false := by
    intro d mem differs
    exact absurd (managed d mem) differs
  rw [← externalDbPath_of_managed_eq_none_iff managed]
  constructor
  · intro only
    exact only.absent.mpr nowhere
  · intro unreported
    constructor
    case first =>
      intro path reported
      rw [unreported] at reported
      cases reported
    case absent => exact iff_of_true unreported nowhere
    case managed =>
      rintro h rfl rfl rfl - autoDefaulted editions mem wanted
      exact Host.mem_toProcess mem unreported wanted

end Search

/-- **Exactly when `external_db_path` keeps to external directories**, for every list of
default directories, every managed one, every edition and every file system. -/
theorem externalOnly_iff (fs : FileSystem) (defaults : List Bytes) (geoipDir : Bytes) (e : Edition) :
    ExternalOnly fs defaults geoipDir e (externalDbPath fs defaults geoipDir e) ↔
      ¬ OnlyManaged fs defaults geoipDir e := by
  by_cases managed : ∀ d ∈ defaults, d = geoipDir
  · exact externalOnly_of_managed_iff managed
  · have other : ∃ d ∈ defaults, d ≠ geoipDir := by
      by_contra none
      refine managed fun d mem => ?_
      by_contra differs
      exact none ⟨d, mem, differs⟩
    exact iff_of_true (externalOnly_of_other other) fun only => managed only.2.1

/-- The managed directory, with a city database in it. -/
def managedFiles : FileSystem where
  regular path := path = ascii "/var/lib/GeoIP/GeoLite2-City.mmdb"
  readable path := path = ascii "/var/lib/GeoIP/GeoLite2-City.mmdb"
  leadsTo p q := p = q
  leadsTo_refl _ := decide_eq_true rfl
  leadsTo_trans p q r pq qr := by
    rw [decide_eq_true_eq] at pq qr ⊢
    exact pq.trans qr
  regular_of_leadsTo p q here leads := by
    rw [decide_eq_true_eq] at here leads ⊢
    exact leads.symm.trans here

/-- With the managed directory as the only default, the database in it is reported as one
that is looked after elsewhere. -/
theorem managedOnly_counterexample :
    externalDbPath managedFiles [ascii "/var/lib/GeoIP"] (ascii "/var/lib/GeoIP") .city =
        some (Edition.city.fileIn (ascii "/var/lib/GeoIP")) ∧
      ¬ ExternalOnly managedFiles [ascii "/var/lib/GeoIP"] (ascii "/var/lib/GeoIP") .city
        (externalDbPath managedFiles [ascii "/var/lib/GeoIP"] (ascii "/var/lib/GeoIP") .city) := by
  have reported : externalDbPath managedFiles [ascii "/var/lib/GeoIP"] (ascii "/var/lib/GeoIP") .city =
      some (Edition.city.fileIn (ascii "/var/lib/GeoIP")) := by decide +kernel
  refine ⟨reported, fun only => ?_⟩
  have silent := only.absent.mpr fun d mem differs => absurd (List.mem_singleton.mp mem) differs
  rw [reported] at silent
  cases silent

end Nshgeoip.Ctl
