import FocalDesk.Archive.FileSystem
import FocalDesk.Integer

/-! The names and the numbers of an archive, and the limits it is held to. -/
namespace FocalDesk.Archive
open Library

def maxArchiveBytes : ℕ := 1024 * 1024 * 1024

def maxEntryBytes : ℕ := 512 * 1024 * 1024

def maxExtractedBytes : ℕ := 2 * 1024 * 1024 * 1024

def maxEntries : ℕ := 10000

def maxPathDepth : ℕ := 64

def maxMetadataBytes : ℕ := 1024 * 1024

def maxCompressionRatio : ℕ := 1000

def ratioAllowance : ℕ := 64 * 1024 * 1024

def u64Max : ℕ := 2 ^ 64 - 1

/-- `u64::saturating_mul` -/
def saturatingMul (a b : ℕ) : ℕ := min (a * b) u64Max

def compressedOutputLimit (archiveSize : ℕ) : ℕ :=
  min maxExtractedBytes
    (saturatingAdd (saturatingMul archiveSize maxCompressionRatio) ratioAllowance)

inductive ErrorKind where
  | invalidInput
  | invalidData
  | alreadyExists
  | notFound
  | notADirectory
  | unexpectedEof
  | interrupted
  | other
deriving DecidableEq

inductive Message where
  | text (text : String)
  /-- "… already exists and is not a safe folder", with the path as it is displayed. -/
  | notSafeFolder (path : Path)
  /-- "could not start xz: …" -/
  | couldNotStartXz
  /-- What the system or a decoder says. -/
  | system
deriving DecidableEq

structure IoError where
  kind : ErrorKind
  message : Message
deriving DecidableEq

def unsafeEntry (message : String) : IoError := ⟨.invalidData, .text message⟩

def limitError (message : String) : IoError := ⟨.invalidData, .text message⟩

/-! Paths. -/

/-- Why there is nothing under a path. -/
def missing (fs : FileSystem) (path : Path) : IoError :=
  if path.inits.any fun above => (getKey above fs).any (· ≠ .dir) then ⟨.notADirectory, .system⟩
  else ⟨.notFound, .system⟩

def lookupNode (fs : FileSystem) (path : Path) : Except IoError Node :=
  (getKey path fs).elim (.error (missing fs path)) .ok

inductive Component where
  | rootDir
  | curDir
  | parentDir
  | normal (part : Name)
deriving DecidableEq

/-- The component of a part between two slashes, unless the part is dropped. -/
def component (part : Name) : Option Component :=
  if part = [] ∨ part = [46] then none
  else if part = [46, 46] then some .parentDir
  else some (.normal part)

/-- `Path::components`: a dot is a component at the start of a path only. -/
def components (path : List UInt8) : List Component :=
  let parts := path.splitOn 47
  let rest := parts.filterMap component
  if path.head? = some 47 then .rootDir :: rest
  else if parts.head? = some [46] then .curDir :: rest
  else rest

def safeComponents : List Component → Path → ℕ → Except IoError Path
  | [], safe, _ => .ok safe
  | .normal part :: rest, safe, depth =>
    if maxPathDepth < depth + 1 then .error (limitError "an archive path is deeper than 64 levels")
    else safeComponents rest (safe ++ [part]) (depth + 1)
  | .curDir :: rest, safe, depth => safeComponents rest safe depth
  | .parentDir :: _, _, _ => .error (unsafeEntry "an entry would escape the destination folder")
  | .rootDir :: _, _, _ => .error (unsafeEntry "an entry would escape the destination folder")

def safeRelativePath (path : List UInt8) : Except IoError Path :=
  match safeComponents (components path) [] 0 with
  | .error error => .error error
  | .ok safe =>
    if safe = [] then .error (unsafeEntry "an archive entry has an empty path") else .ok safe

theorem safeRelativePath_ne_nil {path : List UInt8} {safe : Path}
    (h : safeRelativePath path = .ok safe) : safe ≠ [] := by
  unfold safeRelativePath at h
  split at h
  · cases h
  · split at h
    · cases h
    · rename_i hne
      cases h
      exact hne

/-! Numbers. -/

/-- Text that is not UTF-8 has a byte that is no digit. -/
def parseBytes (radix : ℕ) (text : List UInt8) : Option ℕ :=
  fromStrRadix radix (text.map fun byte => Char.ofNat byte.toNat)

def trimmed (byte : UInt8) : Bool := byte = 0 || byte = 32

def parseTarNumber (field : List UInt8) : Except IoError ℕ :=
  if field.head?.any fun byte => byte &&& 0x80 ≠ 0 then
    .error (unsafeEntry "base-256 tar sizes are not supported")
  else
    let text := ((field.dropWhile trimmed).reverse.dropWhile trimmed).reverse
    if text = [] then .ok 0
    else match parseBytes 8 text with
      | some value => .ok value
      | none => .error (unsafeEntry "invalid tar size")

def slice (start stop : ℕ) (bytes : List UInt8) : List UInt8 := (bytes.take stop).drop start

/-- The bytes of the checksum itself count as blanks. -/
def checksum (header : List UInt8) : ℕ :=
  ((header.take 148 ++ List.replicate 8 32 ++ header.drop 156).map UInt8.toNat).sum

def validateTarChecksum (header : List UInt8) : Except IoError Unit :=
  match parseTarNumber (slice 148 156 header) with
  | .error error => .error error
  | .ok expected =>
    if checksum header = expected then .ok ()
    else .error ⟨.invalidData, .text "tar header checksum is invalid"⟩

/-! Names. -/

def nulTerminated (bytes : List UInt8) : List UInt8 := bytes.takeWhile (· ≠ 0)

def tarHeaderPath (header : List UInt8) : Except IoError (List UInt8) :=
  let name := nulTerminated (slice 0 100 header)
  let folder := nulTerminated (slice 345 500 header)
  let bytes := if folder = [] then name else folder ++ 47 :: name
  if bytes = [] then .error (unsafeEntry "tar entry has no path") else .ok bytes

/-- The bytes of `path=`. -/
def paxPathKey : List UInt8 := [112, 97, 116, 104, 61]

/-- The value of a record for the path. -/
def paxPathValue (record : List UInt8) : Option (List UInt8) :=
  let record := if record.getLast? = some 10 then record.dropLast else record
  if paxPathKey <+: record then some (record.drop paxPathKey.length) else none

/-- The records from an offset on. A record has at least one byte, so there are no more records
than bytes. -/
def parsePaxRecords : ℕ → List UInt8 → Option (List UInt8) → Except IoError (Option (List UInt8))
  | 0, _, path => .ok path
  | fuel + 1, rest, path =>
    if rest = [] then .ok path
    else match rest.idxOf? 32 with
      | none => .error (unsafeEntry "invalid PAX metadata")
      | some space =>
        match parseBytes 10 (rest.take space) with
        | none => .error (unsafeEntry "invalid PAX record length")
        | some length =>
          if length = 0 ∨ rest.length < length ∨ length ≤ space + 1 then
            .error (unsafeEntry "invalid PAX record")
          else
            parsePaxRecords fuel (rest.drop length)
              ((paxPathValue (slice (space + 1) length rest)).orElse fun _ => path)

def parsePaxPath (data : List UInt8) : Except IoError (Option (List UInt8)) :=
  parsePaxRecords data.length data none

end FocalDesk.Archive
