import ClassLoom.Error
import ClassLoom.Source

/-!
# Archives

An archive is a list of named entries with a comment. Each entry carries what
has to survive: how it is compressed, when it was modified and which
permissions it has. An entry may be damaged: its stored data does not match its
checksum, which shows only when the data is read to the end.

A container is what a file holds, an archive or data that is none. The one piece
of raw data that counts as an archive is the record that closes every archive,
standing alone: the archive without entries.
-/

namespace ClassLoom

/-- How the data of an entry is compressed. -/
inductive Compression where
  | stored
  | deflated
  deriving DecidableEq, Repr

/-- A time of modification. -/
structure Timestamp where
  year : Nat
  month : Nat
  day : Nat
  hour : Nat
  minute : Nat
  second : Nat
  deriving DecidableEq, Repr

namespace Timestamp

/-- The earliest time that an archive can record. -/
def epoch : Timestamp := ⟨1980, 1, 1, 0, 0, 0⟩

/-- Whether a year has a leap day. -/
def isLeapYear (year : Nat) : Bool :=
  year % 4 = 0 && (year % 100 ≠ 0 || year % 400 = 0)

/-- The number of days of a month. -/
def daysIn (year month : Nat) : Nat :=
  if month = 2 then if isLeapYear year then 29 else 28
  else if month ∈ [4, 6, 9, 11] then 30
  else 31

/-- Whether an archive can record the time: seven bits hold the years from 1980,
and a minute may have a leap second at its end. -/
def isRecordable (t : Timestamp) : Bool :=
  1980 ≤ t.year && t.year ≤ 2107 && 1 ≤ t.month && t.month ≤ 12 &&
    1 ≤ t.day && t.day ≤ daysIn t.year t.month &&
    t.hour ≤ 23 && t.minute ≤ 59 && t.second ≤ 60

/-- The last second of a minute that an archive can record. -/
def lastSecond : Nat := 58

/-- The time as an archive records it: to the even second before, where a leap
second counts to the last one. A time that no archive can record becomes the
earliest. -/
def recorded (t : Timestamp) : Timestamp :=
  if t.isRecordable then { t with second := min t.second lastSecond / 2 * 2 } else epoch

end Timestamp

/-- An entry of an archive. -/
structure Entry where
  /-- The path of the entry. A directory's path ends with a slash. -/
  name : String
  data : Bytes
  /-- Whether the stored data matches its checksum. -/
  intact : Bool
  compression : Compression
  modified : Timestamp
  /-- The kind of file and its permissions. -/
  mode : Nat
  deriving DecidableEq

namespace Entry

/-- Whether the entry is a directory. -/
def isDirectory (e : Entry) : Bool :=
  ['/'].isSuffixOf e.name.toList

/-- The data of the entry, read to the end. -/
def read (e : Entry) : Except IoFault Bytes :=
  if e.intact then .ok e.data else .error .badChecksum

/-- The bits of a mode that are permissions. -/
def permissionMask : Nat := 0o777

/-- The bits of a mode that mark a regular file. -/
def regularFile : Nat := 0o100000

/-- The bits of a mode that mark a directory. -/
def directory : Nat := 0o40000

/-- The entry as a transformed archive records it: a regular file with the same
permissions. -/
def asRegular (e : Entry) : Entry :=
  { e with mode := regularFile ||| (e.mode &&& permissionMask) }

end Entry

/-- A list of entries with a comment. -/
structure Archive where
  comment : String
  entries : List Entry
  deriving DecidableEq

/-- What a file holds. -/
inductive Container where
  /-- An archive. -/
  | archive (a : Archive)
  /-- Data that was not made as an archive. -/
  | raw (data : Bytes)
  deriving DecidableEq

namespace Container

/-- The record that closes an archive, standing alone. -/
def emptyArchive : Bytes :=
  [0x50, 0x4b, 0x05, 0x06] ++ List.replicate 18 0

/-- The archive that the container holds. -/
def open? : Container → Except ArchiveFault Archive
  | .archive a => .ok a
  | .raw data => if data = emptyArchive then .ok ⟨"", []⟩ else .error .noDirectory

end Container

namespace Archive

/-- The entry of a name. -/
def entry? (a : Archive) (name : String) : Option Entry :=
  a.entries.find? (·.name == name)

/-- The bytes of a class that the archive holds. -/
def find (a : Archive) (name : ClassName) : SourceAnswer :=
  match a.entry? name.resourcePath with
  | some e => e.read.map some
  | none => .ok none

/-- The archive as a source. -/
def toSource {σ : Type} (a : Archive) : Source σ :=
  .ofAnswers a.find

/-- Opens a file as a source; there is no file if there is no container. -/
def openSource {σ : Type} : Option Container → Except IoFault (Source σ)
  | none => .error .notFound
  | some container => (container.open?.mapError .archive).map toSource

end Archive

end ClassLoom
