import Nshgeoip.Config
import Nshgeoip.Metrics

/-!
`--check-db`: `print_db_metadata` and the three formats it prints the metadata of a
database file in.

What is printed is a list of bytes; `printf` and `c_str()` read their strings up to
the first NUL, which is `cString` here. The strings of an `MMDB_metadata_s` are C
strings and hold any other byte: the file is not trusted. libmaxminddb sets both
pointers of a description.
-/

namespace Nshgeoip

open ByteText JsonText

/-! ### The metadata of a file -/

/-- `MMDB_description_s`. -/
structure MmdbDescription where
  language : CStr
  description : CStr

/-- `MMDB_metadata_s`, as far as it is not in `Mmdb`. -/
structure MmdbMetadata where
  ipVersion : UInt16
  binaryFormatMajorVersion : UInt16
  binaryFormatMinorVersion : UInt16
  nodeCount : UInt32
  recordSize : UInt16
  languages : List CStr
  description : List MmdbDescription

def joinLanguages (metadata : MmdbMetadata) (sep : Bytes) : Bytes :=
  sep.intercalate (metadata.languages.map Subtype.val)

/-- The first description whose language is `en`. -/
def englishDescription (metadata : MmdbMetadata) : Bytes :=
  match metadata.description.find? fun d => d.language.val = ascii "en" with
  | some d => d.description
  | none => []

/-- What a `print_metadata_*` function is given: the path as named on the command line,
`MMDB_lib_version()`, the open database with its metadata, and `make_metadata` of it. -/
structure CheckedDb where
  path : Bytes
  libVersion : CStr
  mmdb : Mmdb
  metadata : MmdbMetadata
  info : GeoIpDbMetadata

/-! ### The formats -/

/-- `"%-16s: %s\n"`. -/
def tableRow (label value : Bytes) : Bytes :=
  cString label ++ List.replicate (16 - (cString label).length) 32 ++ ascii ": " ++ cString value
    ++ ascii "\n"

def printMetadataTable (db : CheckedDb) : Bytes :=
  tableRow (ascii "Path") db.path
    ++ tableRow (ascii "libmaxminddb") db.libVersion
    ++ tableRow (ascii "Database type") db.info.databaseType
    ++ tableRow (ascii "IP version") (dec db.metadata.ipVersion.toNat)
    ++ tableRow (ascii "Binary format")
      (dec db.metadata.binaryFormatMajorVersion.toNat ++ ascii "."
        ++ dec db.metadata.binaryFormatMinorVersion.toNat)
    ++ tableRow (ascii "Node count") (dec db.metadata.nodeCount.toNat)
    ++ tableRow (ascii "Record size") (dec db.metadata.recordSize.toNat ++ ascii " bits")
    ++ tableRow (ascii "Build epoch") (dec db.mmdb.buildEpoch.toNat)
    ++ tableRow (ascii "Build date") db.info.buildTime
    ++ tableRow (ascii "Age") (db.info.ageDays.formatF 1 ++ ascii " days")
    ++ tableRow (ascii "Age (ms)") (dec db.info.ageMs.toNat)
    ++ tableRow (ascii "Age (ns)") (dec db.info.ageNs.toNat)
    ++ (if db.metadata.languages = [] then []
      else tableRow (ascii "Languages") (joinLanguages db.metadata (ascii ", ")))
    ++ db.metadata.description.flatMap fun d =>
      tableRow (ascii "Description [" ++ d.language ++ ascii "]") d.description

/-- The stream `print_metadata_json` fills. -/
def metadataJson (db : CheckedDb) : Bytes :=
  ascii "\x7b" ++ ascii "\"path\":" ++ jsonString db.path
    ++ ascii ",\"libmaxminddb_version\":" ++ jsonString db.libVersion
    ++ ascii ",\"database_type\":" ++ jsonString db.info.databaseType
    ++ ascii ",\"ip_version\":" ++ dec db.metadata.ipVersion.toNat
    ++ ascii ",\"binary_format_major_version\":" ++ dec db.metadata.binaryFormatMajorVersion.toNat
    ++ ascii ",\"binary_format_minor_version\":" ++ dec db.metadata.binaryFormatMinorVersion.toNat
    ++ ascii ",\"node_count\":" ++ dec db.metadata.nodeCount.toNat
    ++ ascii ",\"record_size\":" ++ dec db.metadata.recordSize.toNat
    ++ ascii ",\"build_epoch\":" ++ dec db.mmdb.buildEpoch.toNat
    ++ ascii ",\"build_date\":" ++ jsonString db.info.buildTime
    ++ ascii ",\"age_days\":" ++ db.info.ageDays.formatF 1
    ++ ascii ",\"age_ms\":" ++ dec db.info.ageMs.toNat
    ++ ascii ",\"age_ns\":" ++ dec db.info.ageNs.toNat
    ++ ascii ",\"languages\":["
    ++ (ascii ",").intercalate (db.metadata.languages.map fun name => jsonString name) ++ ascii "]"
    ++ ascii ",\"description\":" ++ jsonString (englishDescription db.metadata)
    ++ ascii ",\"description_list\":["
    ++ (ascii ",").intercalate (db.metadata.description.map fun d =>
      ascii "\x7b\"language\":" ++ jsonString d.language ++ ascii ",\"description\":"
        ++ jsonString d.description ++ ascii "\x7d")
    ++ ascii "]" ++ ascii "\x7d"

def printMetadataJson (db : CheckedDb) : Bytes := cString (metadataJson db) ++ ascii "\n"

/-- `"<key>=%s\n"` and its like. -/
def iniRow (key value : Bytes) : Bytes := key ++ ascii "=" ++ value ++ ascii "\n"

/-- A row of a string that went through `sanitize_header_value`. -/
def sanitizedRow (key value : Bytes) : Bytes := iniRow key (cString (sanitizeHeaderValue value))

def printMetadataIni (db : CheckedDb) : Bytes :=
  sanitizedRow (ascii "path") db.path
    ++ iniRow (ascii "libmaxminddb_version") db.libVersion
    ++ sanitizedRow (ascii "database_type") db.info.databaseType
    ++ iniRow (ascii "ip_version") (dec db.metadata.ipVersion.toNat)
    ++ iniRow (ascii "binary_format_major_version") (dec db.metadata.binaryFormatMajorVersion.toNat)
    ++ iniRow (ascii "binary_format_minor_version") (dec db.metadata.binaryFormatMinorVersion.toNat)
    ++ iniRow (ascii "node_count") (dec db.metadata.nodeCount.toNat)
    ++ iniRow (ascii "record_size") (dec db.metadata.recordSize.toNat)
    ++ iniRow (ascii "build_epoch") (dec db.mmdb.buildEpoch.toNat)
    ++ iniRow (ascii "build_date") (cString db.info.buildTime)
    ++ iniRow (ascii "age_days") (db.info.ageDays.formatF 1)
    ++ iniRow (ascii "age_ms") (dec db.info.ageMs.toNat)
    ++ iniRow (ascii "age_ns") (dec db.info.ageNs.toNat)
    ++ (if db.metadata.languages = [] then []
      else sanitizedRow (ascii "languages") (joinLanguages db.metadata (ascii ",")))
    ++ sanitizedRow (ascii "description") (englishDescription db.metadata)
    ++ db.metadata.description.flatMap fun d =>
      -- the language goes into the key as it is
      sanitizedRow (ascii "description_" ++ d.language) d.description

/-! ### The command -/

inductive DbMetadataFormat where
  | table
  | json
  | ini

/-- `print_db_metadata`; `opened` is the database if `MMDB_open` could open it, and
`errorText` the text for its status otherwise. -/
def printDbMetadata (host : Host) (libVersion : CStr) (path : Bytes)
    (opened : Option (Mmdb × MmdbMetadata)) (errorText : Bytes) (format : DbMetadataFormat) :
    Except Bytes Bytes :=
  match opened with
  | none => .error (ascii "failed to open database '" ++ path ++ ascii "': " ++ errorText)
  | some (mmdb, metadata) =>
      let db := ⟨path, libVersion, mmdb, metadata, makeMetadata host mmdb⟩
      match format with
      | .table => .ok (printMetadataTable db)
      | .json => .ok (printMetadataJson db)
      | .ini => .ok (printMetadataIni db)

end Nshgeoip
