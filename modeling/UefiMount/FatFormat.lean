import UefiMount.ByteBuffer
import UefiMount.Decimal
import UefiMount.LittleEndian

namespace UefiMount.MkFatImg

/-!
# The on-disk format of the FAT32 image

The byte-level helpers of `tools/mkfatimg.py`: boot sector and FSInfo sector,
8.3 names, long file names, and directory entries.  A Python string is a list
of code points, a `bytes` or `bytearray` value a list of bytes, and what
Python raises is an error.
-/

/-- A code point of a Python string; surrogates are code points too. -/
abbrev CodePoint := Fin 0x110000

/-- Numerals for code points rest on this. -/
instance neZeroCodePoints : NeZero 0x110000 :=
  ⟨by decide⟩

/-- A Python string. -/
abbrev PyStr := List CodePoint

/-- The exceptions of the tool. -/
inductive PyError where
  /-- `RuntimeError` of `short_name`. -/
  | noShortName (name : PyStr)
  /-- `RuntimeError` of `write_dir_entries`. -/
  | entryBudgetDrift (name : PyStr) (layout write : Nat)
  /-- `struct.error`: a value or an offset is out of range. -/
  | structError
  /-- A lone surrogate cannot be encoded. -/
  | unicodeEncodeError
  /-- `ValueError`: a byte must be in `range(0, 256)`. -/
  | byteRange
  | indexError
  /-- `SystemExit` of `create_image`. -/
  | tooFewClusters (sizeMb clusCount : Int)
  /-- `ValueError` of `read_bpb`. -/
  | unexpectedSector (sec : Nat)
  deriving DecidableEq

/-- A computation returns normally exactly when each of its two stages does. -/
theorem bind_eq_ok
    {first : Except ε α}
    {next : α → Except ε β}
    {result : β} :
    first >>= next = .ok result ↔
      ∃ value, first = .ok value ∧ next value = .ok result := by
  cases first with
  | error => simp [bind, Except.bind]
  | ok value => simp [bind, Except.bind]

/-- Where a computation of two stages fails. -/
theorem bind_eq_error
    {first : Except ε α}
    {next : α → Except ε β}
    {problem : ε} :
    first >>= next = .error problem ↔
      first = .error problem ∨
        ∃ value, first = .ok value ∧ next value = .error problem := by
  cases first with
  | error => simp [bind, Except.bind]
  | ok value => simp [bind, Except.bind]

/-- `SECTOR`. -/
def sector : Nat := 512

/-- `SEC_PER_CLUS`. -/
def secPerClus : Nat := 8

/-- `BYTES_PER_CLUSTER`. -/
def bytesPerCluster : Nat := sector * secPerClus

/-- `RSVD_SEC_CNT`. -/
def rsvdSecCnt : Nat := 32

/-- `NUM_FATS`. -/
def numFats : Nat := 2

/-- `ROOT_CLUS`. -/
def rootClus : Nat := 2

/-- `FAT32_MIN_CLUSTERS`. -/
def fat32MinClusters : Int := 0xFFF5

/-- `EOC`. -/
def eoc : Nat := 0x0FFFFFFF

/-- `FAT0`. -/
def fat0 : Nat := 0x0FFFFFF8

/-- `ATTR_LFN`. -/
def attrLfn : UInt8 := 0x0F

/-- `ATTR_DIRECTORY`. -/
def attrDirectory : UInt8 := 0x10

/-- `ATTR_ARCHIVE`. -/
def attrArchive : UInt8 := 0x20

/-- `FIXED_DATE`. -/
def fixedDate : Nat := ((2026 - 1980) <<< 9) ||| (8 <<< 5) ||| 1

/-- `FIXED_TIME`. -/
def fixedTime : Nat := 12 <<< 11

/-- `VOL_ID`. -/
def volId : Nat := 0x20260801

/-- The bytes of a `b"..."` literal. -/
def byteString (literal : String) : List UInt8 :=
  literal.toList.map fun character => UInt8.ofNat character.toNat

/-- `struct.pack` of one unsigned little-endian field. -/
def pack (width value : Nat) : Except PyError (List UInt8) :=
  if value < 256 ^ width then
    .ok (LittleEndian.bytes width value)
  else
    .error .structError

theorem pack_eq_ok
    {width value : Nat}
    {field : List UInt8} :
    pack width value = .ok field ↔
      value < 256 ^ width ∧ field = LittleEndian.bytes width value := by
  simp only [pack]
  split
  case isTrue fits =>
    simp [fits, eq_comm]
  case isFalse large =>
    simp [large]

/-- Assignment of a number to one place of a `bytearray`. -/
def byteOf (value : Nat) : Except PyError UInt8 :=
  if value < 256 then
    .ok (UInt8.ofNat value)
  else
    .error .byteRange

theorem byteOf_eq_ok
    {value : Nat}
    {byte : UInt8} :
    byteOf value = .ok byte ↔ value < 256 ∧ byte = UInt8.ofNat value := by
  simp only [byteOf]
  split
  case isTrue fits =>
    simp [fits, eq_comm]
  case isFalse large =>
    simp [large]

theorem byteOf_error
    {value : Nat}
    {problem : PyError}
    (failed : byteOf value = .error problem) :
    problem = .byteRange ∧ 256 ≤ value := by
  simp only [byteOf] at failed
  split at failed
  case isTrue =>
    cases failed
  case isFalse large =>
    exact ⟨(Except.error.inj failed).symm, Nat.not_lt.mp large⟩

theorem pack_error
    {width value : Nat}
    {problem : PyError}
    (failed : pack width value = .error problem) :
    problem = .structError ∧ 256 ^ width ≤ value := by
  simp only [pack] at failed
  split at failed
  case isTrue =>
    cases failed
  case isFalse large =>
    exact ⟨(Except.error.inj failed).symm, Nat.not_lt.mp large⟩

/-- The assignments of `bpb_bytes` up to the volume label. -/
def bpbRows
    (totSec rsvd fatSec rootClus : List UInt8)
    (numFats : UInt8) :
    List (Nat × Nat × List UInt8) :=
  [(0, 3, [0xEB, 0x58, 0x90]),
    (3, 11, byteString "MSWIN4.1"),
    (11, 13, LittleEndian.bytes 2 sector),
    (13, 14, [UInt8.ofNat secPerClus]),
    (14, 16, rsvd),
    (16, 17, [numFats]),
    (17, 19, LittleEndian.bytes 2 0),
    (19, 21, LittleEndian.bytes 2 0),
    (21, 22, [0xF8]),
    (22, 24, LittleEndian.bytes 2 0),
    (24, 26, LittleEndian.bytes 2 63),
    (26, 28, LittleEndian.bytes 2 255),
    (28, 32, LittleEndian.bytes 4 0),
    (32, 36, totSec),
    (36, 40, fatSec),
    (40, 42, LittleEndian.bytes 2 0),
    (42, 44, LittleEndian.bytes 2 0),
    (44, 48, rootClus),
    (48, 50, LittleEndian.bytes 2 1),
    (50, 52, LittleEndian.bytes 2 6),
    (52, 64, List.replicate 12 0),
    (64, 65, [0x80]),
    (65, 66, [0]),
    (66, 67, [0x29]),
    (67, 71, LittleEndian.bytes 4 volId)]

/-- `bpb_bytes`. -/
def bpbBytes
    (totSec rsvd numFats fatSec rootClus : Nat) :
    Except PyError (List UInt8) := do
  let rsvd ← pack 2 rsvd
  let numFats ← byteOf numFats
  let totSec ← pack 4 totSec
  let fatSec ← pack 4 fatSec
  let rootClus ← pack 4 rootClus
  return ByteBuffer.assign (List.replicate sector 0)
    (bpbRows totSec rsvd fatSec rootClus numFats ++
      -- The label has twelve characters: the sector grows by one byte.
      [(71, 82, byteString "GUFILE      "),
        (82, 90, byteString "FAT32   "),
        (510, 512, [0x55, 0xAA])])

/-- `fsinfo_bytes`. -/
def fsinfoBytes : List UInt8 :=
  LittleEndian.bytes 4 0x41615252 ++ List.replicate 480 0 ++
    LittleEndian.bytes 4 0x61417272 ++ LittleEndian.bytes 4 0xFFFFFFFF ++
    LittleEndian.bytes 4 0xFFFFFFFF ++ List.replicate 12 0 ++
    LittleEndian.bytes 4 0xAA550000

/-- The 11 bytes of an 8.3 name. -/
structure ShortName where
  bytes : List UInt8
  length_eq : bytes.length = 11
  deriving DecidableEq

/-- `str.ljust`, on text whose characters are bytes. -/
def ljust (text : List UInt8) (width : Nat) (fill : UInt8) : List UInt8 :=
  text ++ List.replicate (width - text.length) fill

theorem length_ljust
    {text : List UInt8}
    {width : Nat}
    (fits : text.length ≤ width)
    (fill : UInt8) :
    (ljust text width fill).length = width := by
  simp only [ljust, List.length_append, List.length_replicate]
  omega

namespace ShortName

/-- Base name and extension, filled up with spaces. -/
def ofFields
    (base ext : List UInt8)
    (baseFits : base.length ≤ 8)
    (extFits : ext.length ≤ 3) :
    ShortName where
  bytes := ljust base 8 0x20 ++ ljust ext 3 0x20
  length_eq := by
    rw [List.length_append, length_ljust baseFits, length_ljust extFits]

/-- `b"." + b" " * 10`. -/
def dot : ShortName := ofFields [0x2E] [] (by decide) (by decide)

/-- `b".." + b" " * 9`. -/
def dotDot : ShortName := ofFields [0x2E, 0x2E] [] (by decide) (by decide)

end ShortName

/-- `bytes.decode("latin-1")`. -/
def latin1 (bytes : List UInt8) : PyStr :=
  bytes.map fun byte =>
    ⟨byte.toNat, Nat.lt_trans byte.toNat_lt (by decide)⟩

/-- `str.isspace`, for the characters that Latin-1 can decode to. -/
def isSpace (character : CodePoint) : Bool :=
  (9 ≤ character.val && character.val ≤ 13) ||
    (28 ≤ character.val && character.val ≤ 32) ||
    character.val == 0x85 || character.val == 0xA0

/-- `str.rstrip`. -/
def rstrip (text : PyStr) : PyStr :=
  (text.reverse.dropWhile isSpace).reverse

/-- The full stop. -/
def fullStop : CodePoint := 0x2E

/-- `short_to_name`. -/
def shortToName (short11 : List UInt8) : PyStr :=
  let base := rstrip (latin1 (short11.take 8))
  let ext := rstrip (latin1 (short11.drop 8))
  base ++ if ext ≠ [] then fullStop :: ext else []

/-- `lfn_checksum`. -/
def lfnChecksum (short11 : List UInt8) : UInt8 :=
  short11.foldl
    (fun sum byte => (((sum &&& 1) <<< 7) ||| (sum >>> 1)) + byte) 0

/-- One code point in UTF-16LE. -/
def encodeCodePoint (character : CodePoint) : Except PyError (List UInt8) :=
  if 0xD800 ≤ character.val ∧ character.val < 0xE000 then
    .error .unicodeEncodeError
  else if character.val < 0x10000 then
    .ok (LittleEndian.bytes 2 character.val)
  else
    let offset := character.val - 0x10000
    .ok (LittleEndian.bytes 2 (0xD800 + offset / 0x400) ++
      LittleEndian.bytes 2 (0xDC00 + offset % 0x400))

/-- `str.encode("utf-16-le")`. -/
def encodeUtf16 : PyStr → Except PyError (List UInt8)
  | [] =>
      .ok []
  | character :: rest => do
      let unit ← encodeCodePoint character
      let later ← encodeUtf16 rest
      return unit ++ later

/-- The 13 characters of one long name entry. -/
def lfnChars (name : PyStr) (seq : Nat) : PyStr :=
  let chunk := (name.drop ((seq - 1) * 13)).take 13
  if chunk.length < 13 then
    chunk ++ [0] ++ List.replicate (12 - chunk.length) 0xFFFF
  else
    chunk

/-- One entry of `lfn_entries`. -/
def lfnEntry
    (name : PyStr)
    (cksum : UInt8)
    (total seq : Nat) :
    Except PyError (List UInt8) := do
  let raw ← encodeUtf16 (lfnChars name seq)
  let ord ← byteOf ((if seq = total then 0x40 else 0) ||| seq)
  return [ord] ++ raw.take 10 ++ [attrLfn, 0, cksum] ++
    (raw.drop 10).take 12 ++ [0, 0] ++ (raw.drop 22).take 4

/-- The entries from sequence number `seq` down to 1. -/
def lfnEntriesFrom
    (name : PyStr)
    (cksum : UInt8)
    (total : Nat) :
    Nat → Except PyError (List (List UInt8))
  | 0 =>
      .ok []
  | seq + 1 => do
      let entry ← lfnEntry name cksum total (seq + 1)
      let later ← lfnEntriesFrom name cksum total seq
      return entry :: later

/-- `lfn_entries`. -/
def lfnEntries
    (name : PyStr)
    (short11 : ShortName) :
    Except PyError (List (List UInt8)) :=
  let total := (name.length + 12) / 13
  lfnEntriesFrom name (lfnChecksum short11.bytes) total total

/-- `str.rpartition(".")`, with the whole name as base when there is no stop. -/
def splitName (name : PyStr) : PyStr × PyStr :=
  if fullStop ∈ name then
    (((name.reverse.dropWhile (· ≠ fullStop)).drop 1).reverse,
      (name.reverse.takeWhile (· ≠ fullStop)).reverse)
  else
    (name, [])

/-- `"".join(ch.upper() for ch in text if ch.isascii())`. -/
def asciiUpper (text : PyStr) : List UInt8 :=
  (text.filter (·.val < 128)).map fun character =>
    UInt8.ofNat
      (if 97 ≤ character.val ∧ character.val ≤ 122 then
        character.val - 32
      else
        character.val)

/-- The short name with a numeric tail, cut off at eight characters. -/
def tildeName (stem ext : List UInt8) (number : Nat) : ShortName :=
  .ofFields
    ((stem.take 6 ++ [0x7E] ++
      (Decimal.digits number).map fun digit =>
        UInt8.ofNat (48 + digit)).take 8)
    (ext.take 3)
    (List.length_take_le _ _) (List.length_take_le _ _)

/-- `short_name`; the caller adds the result to the taken names. -/
def shortName
    (name : PyStr)
    (taken : List ShortName) :
    Except PyError ShortName :=
  let base := (splitName name).1
  let ext := (splitName name).2
  let b := asciiUpper base
  let e := asciiUpper ext
  let asciiOk := b.length = base.length ∧ e.length = ext.length
  let plain : Option ShortName :=
    if fits : asciiOk ∧ b.length ≤ 8 ∧ e.length ≤ 3 then
      some (.ofFields b e fits.2.1 fits.2.2)
    else
      none
  match plain.filter (· ∉ taken) with
  | some short =>
      .ok short
  | none =>
      let stem :=
        ljust ((if asciiOk then b else byteString "GUNAME").take 6) 3 0x5F
      let numbered :=
        (List.range 999).map fun index => tildeName stem e (index + 1)
      match numbered.find? (· ∉ taken) with
      | some short =>
          .ok short
      | none =>
          .error (.noShortName name)

/-- `dir_entry`. -/
def dirEntry
    (short11 : ShortName)
    (attr : UInt8)
    (firstClus size : Nat) :
    Except PyError (List UInt8) := do
  let size ← pack 4 size
  return short11.bytes ++ [attr, 0, 0] ++
    LittleEndian.bytes 2 fixedTime ++ LittleEndian.bytes 2 fixedDate ++
    LittleEndian.bytes 2 fixedDate ++
    LittleEndian.bytes 2 ((firstClus >>> 16) &&& 0xFFFF) ++
    LittleEndian.bytes 2 fixedTime ++ LittleEndian.bytes 2 fixedDate ++
    LittleEndian.bytes 2 (firstClus &&& 0xFFFF) ++ size

section Lengths

@[simp] theorem length_byteString (literal : String) :
    (byteString literal).length = literal.toList.length := by
  simp [byteString]

/-- The boot sector that `bpb_bytes` means to build. -/
def bootSector
    (totSec rsvd numFats fatSec rootClus : Nat) :
    List UInt8 :=
  (bpbRows (LittleEndian.bytes 4 totSec) (LittleEndian.bytes 2 rsvd)
      (LittleEndian.bytes 4 fatSec) (LittleEndian.bytes 4 rootClus)
      (UInt8.ofNat numFats)).flatMap (·.2.2) ++
    byteString "GUFILE     " ++ byteString "FAT32   " ++
    List.replicate 420 0 ++ [0x55, 0xAA]

/-- The rows before the label fill the sector up to the label. -/
theorem bpbRows_adjoining
    (totSec rsvd numFats fatSec rootClus : Nat) :
    ByteBuffer.Adjoining 0
        (bpbRows (LittleEndian.bytes 4 totSec) (LittleEndian.bytes 2 rsvd)
          (LittleEndian.bytes 4 fatSec) (LittleEndian.bytes 4 rootClus)
          (UInt8.ofNat numFats)) ∧
      ((bpbRows (LittleEndian.bytes 4 totSec) (LittleEndian.bytes 2 rsvd)
          (LittleEndian.bytes 4 fatSec) (LittleEndian.bytes 4 rootClus)
          (UInt8.ofNat numFats)).flatMap (·.2.2)).length = 71 := by
  simp [bpbRows, ByteBuffer.Adjoining]

theorem length_bootSector (totSec rsvd numFats fatSec rootClus : Nat) :
    (bootSector totSec rsvd numFats fatSec rootClus).length = sector := by
  have front :=
    (bpbRows_adjoining totSec rsvd numFats fatSec rootClus).2
  simp only [bootSector, List.length_append, front, length_byteString,
    List.length_replicate, List.length_cons, List.length_nil]
  decide

/-- The fields of the boot sector. -/
def bootRows
    (totSec rsvd numFats fatSec rootClus : Nat) :
    List (Nat × Nat × List UInt8) :=
  bpbRows (LittleEndian.bytes 4 totSec) (LittleEndian.bytes 2 rsvd)
      (LittleEndian.bytes 4 fatSec) (LittleEndian.bytes 4 rootClus)
      (UInt8.ofNat numFats) ++
    [(71, 82, byteString "GUFILE     "),
      (82, 90, byteString "FAT32   "),
      (90, 510, List.replicate 420 0),
      (510, 512, [0x55, 0xAA])]

/-- The boot sector holds each of its fields. -/
theorem slice_bootSector
    {totSec rsvd numFats fatSec rootClus : Nat}
    {row : Nat × Nat × List UInt8}
    (member : row ∈ bootRows totSec rsvd numFats fatSec rootClus) :
    ByteBuffer.slice (bootSector totSec rsvd numFats fatSec rootClus)
        row.1 row.2.2.length = row.2.2 := by
  have adjoining :
      ByteBuffer.Adjoining 0
        (bootRows totSec rsvd numFats fatSec rootClus) := by
    simp [-List.reduceReplicate, bootRows, bpbRows, ByteBuffer.Adjoining]
  have held := @ByteBuffer.slice_adjoining _ _ [] adjoining [] _ member
  have same :
      (bootRows totSec rsvd numFats fatSec rootClus).flatMap (·.2.2) =
        bootSector totSec rsvd numFats fatSec rootClus := by
    simp [-List.reduceReplicate, bootRows, bootSector]
  rwa [same, List.nil_append, List.append_nil] at held

/-- The label pushes what follows it one place up, and the rest overwrites it. -/
theorem assign_label
    {front : List UInt8}
    (length : front.length = 71) :
    ByteBuffer.assign (front ++ List.replicate 441 0)
        [(71, 82, byteString "GUFILE      "),
          (82, 90, byteString "FAT32   "),
          (510, 512, [0x55, 0xAA])] =
      front ++ byteString "GUFILE     " ++ byteString "FAT32   " ++
        List.replicate 420 0 ++ [0x55, 0xAA] ++ [0] := by
  have labelSplit :
      byteString "GUFILE      " = byteString "GUFILE     " ++ [0x20] := by
    decide
  have labelLength : (byteString "GUFILE     ").length = 11 := by decide
  have typeLength : (byteString "FAT32   ").length = 8 := by decide
  generalize byteString "GUFILE     " = label at labelSplit labelLength ⊢
  generalize byteString "FAT32   " = fsType at typeLength ⊢
  have labelWritten :
      ByteBuffer.splice (front ++ List.replicate 441 0) 71 82
          (label ++ [0x20]) =
        front ++ label ++
          ((0x20 :: List.replicate 7 0) ++ List.replicate 423 0) := by
    have blank :
        List.replicate 441 (0 : UInt8) =
          List.replicate 11 0 ++ (List.replicate 7 0 ++
            List.replicate 423 0) := by
      simp only [List.replicate_append_replicate]
    rw [blank, ByteBuffer.splice_middle _ _ _ _ length.symm
      (by rw [List.length_replicate, length])]
    simp only [List.append_assoc, List.cons_append, List.nil_append]
  have fsTypeWritten :
      ByteBuffer.splice
          (front ++ label ++
            ((0x20 :: List.replicate 7 0) ++ List.replicate 423 0))
          82 90 fsType =
        front ++ label ++ fsType ++ List.replicate 420 0 ++
          (List.replicate 2 0 ++ [0]) := by
    have blank :
        List.replicate 423 (0 : UInt8) =
          List.replicate 420 0 ++ (List.replicate 2 0 ++ [0]) := by
      rw [show [(0 : UInt8)] = List.replicate 1 0 from rfl,
        List.replicate_append_replicate, List.replicate_append_replicate]
    rw [ByteBuffer.splice_middle]
    · rw [blank]
      simp only [List.append_assoc]
    · simp only [List.length_append, length, labelLength]
    · simp only [List.length_append, length, labelLength, List.length_cons,
        List.length_replicate]
  simp only [ByteBuffer.assign, List.foldl_cons, List.foldl_nil, labelSplit,
    labelWritten, fsTypeWritten]
  rw [ByteBuffer.splice_middle]
  · simp only [List.length_append, length, labelLength, typeLength,
      List.length_replicate]
  · simp only [List.length_append, length, labelLength, typeLength,
      List.length_replicate]

/-- `bpb_bytes` builds the boot sector and one zero byte behind it. -/
theorem bpbBytes_eq_ok
    {totSec rsvd numFats fatSec rootClus : Nat}
    {bpb : List UInt8} :
    bpbBytes totSec rsvd numFats fatSec rootClus = .ok bpb ↔
      (rsvd < 256 ^ 2 ∧ numFats < 256 ∧ totSec < 256 ^ 4 ∧
        fatSec < 256 ^ 4 ∧ rootClus < 256 ^ 4) ∧
      bpb = bootSector totSec rsvd numFats fatSec rootClus ++ [0] := by
  obtain ⟨adjoining, length⟩ :=
    bpbRows_adjoining totSec rsvd numFats fatSec rootClus
  have front :=
    @ByteBuffer.assign_adjoining _ _ [] adjoining (0 : UInt8) sector
  simp only [List.nil_append, length] at front
  have built := assign_label length
  rw [show 441 = sector - 71 from rfl, ← front,
    ← ByteBuffer.assign_append] at built
  simp only [bpbBytes, bind_eq_ok, pack_eq_ok, byteOf_eq_ok]
  constructor
  · rintro ⟨_, ⟨rsvdFits, rfl⟩, _, ⟨numFatsFits, rfl⟩, _,
      ⟨totSecFits, rfl⟩, _, ⟨fatSecFits, rfl⟩, _, ⟨rootFits, rfl⟩,
      result⟩
    obtain rfl := Except.ok.inj result
    exact ⟨⟨rsvdFits, numFatsFits, totSecFits, fatSecFits, rootFits⟩,
      built⟩
  · rintro ⟨⟨rsvdFits, numFatsFits, totSecFits, fatSecFits, rootFits⟩, rfl⟩
    refine ⟨_, ⟨rsvdFits, rfl⟩, _, ⟨numFatsFits, rfl⟩, _,
      ⟨totSecFits, rfl⟩, _, ⟨fatSecFits, rfl⟩, _, ⟨rootFits, rfl⟩, ?_⟩
    exact congrArg Except.ok built

theorem length_fsinfoBytes : fsinfoBytes.length = sector := by
  simp only [fsinfoBytes, List.length_append, List.length_replicate,
    LittleEndian.length_bytes, sector]

/-- A UTF-16 unit has two bytes. -/
theorem length_encodeUtf16
    {text : PyStr}
    {raw : List UInt8}
    (encoded : encodeUtf16 text = .ok raw) :
    2 * text.length ≤ raw.length := by
  induction text generalizing raw with
  | nil =>
      simp
  | cons character rest inductionHypothesis =>
      simp only [encodeUtf16, bind_eq_ok] at encoded
      obtain ⟨unit, first, later, others, joined⟩ := encoded
      obtain rfl := Except.ok.inj joined
      have long := inductionHypothesis others
      have unitLong : 2 ≤ unit.length := by
        simp only [encodeCodePoint] at first
        split at first
        · cases first
        · split at first
          all_goals
            obtain rfl := Except.ok.inj first
            simp
      simp only [List.length_cons, List.length_append]
      omega

@[simp] theorem length_lfnChars (name : PyStr) (seq : Nat) :
    (lfnChars name seq).length = 13 := by
  have atMost := List.length_take_le 13 (name.drop ((seq - 1) * 13))
  simp only [lfnChars]
  split
  · simp only [List.length_append, List.length_cons, List.length_nil,
      List.length_replicate]
    omega
  · omega

theorem length_lfnEntry
    {name : PyStr}
    {cksum : UInt8}
    {total seq : Nat}
    {entry : List UInt8}
    (built : lfnEntry name cksum total seq = .ok entry) :
    entry.length = 32 := by
  simp only [lfnEntry, bind_eq_ok] at built
  obtain ⟨raw, encoded, ord, _, built⟩ := built
  have long := length_encodeUtf16 encoded
  rw [length_lfnChars] at long
  obtain rfl := Except.ok.inj built
  simp only [List.length_append, List.length_cons, List.length_nil,
    List.length_take, List.length_drop]
  omega

theorem length_lfnEntriesFrom
    {name : PyStr}
    {cksum : UInt8}
    {total seq : Nat}
    {entries : List (List UInt8)}
    (built : lfnEntriesFrom name cksum total seq = .ok entries) :
    ∀ entry ∈ entries, entry.length = 32 := by
  induction seq generalizing entries with
  | zero =>
      obtain rfl := Except.ok.inj built
      simp
  | succ seq inductionHypothesis =>
      simp only [lfnEntriesFrom, bind_eq_ok] at built
      obtain ⟨entry, first, later, others, joined⟩ := built
      obtain rfl := Except.ok.inj joined
      intro other member
      rcases List.mem_cons.mp member with rfl | member
      · exact length_lfnEntry first
      · exact inductionHypothesis others other member

theorem length_dirEntry
    {short11 : ShortName}
    {attr : UInt8}
    {firstClus size : Nat}
    {entry : List UInt8}
    (built : dirEntry short11 attr firstClus size = .ok entry) :
    entry.length = 32 := by
  simp only [dirEntry, bind_eq_ok, pack_eq_ok] at built
  obtain ⟨_, ⟨_, rfl⟩, built⟩ := built
  obtain rfl := Except.ok.inj built
  simp [short11.length_eq]

end Lengths

end UefiMount.MkFatImg
