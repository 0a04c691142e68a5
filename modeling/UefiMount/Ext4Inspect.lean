import UefiMount.Ext4Image
import UefiMount.FatInspect
import UefiMount.FuelledRuns

namespace UefiMount.MkExt4Img

open ByteBuffer
open FuelledRuns
open MkFatImg (PyError unpackFrom bind_eq_ok
  bind_eq_error)

/-!
# Inspecting an ext4 image

`inspect_image` of `mkext4img.py`: the superblock line, the listing of the root
directory, and the walk from the group descriptor to the data of the marker
file.  The listing advances by a length that it reads from the image, so it
takes fuel.  What is printed is returned line by line.
-/

/-- `ROOT_DIR_BLOCK`. -/
def rootDirBlock : Nat := 38

/-- `ROOT_INODE`. -/
def rootInode : Nat := 2

/-- `MARKER_INODE`. -/
def markerInode : Nat := 12

/-- `EXT_MAGIC`. -/
def extMagic : Nat := 0xF30A

/-- `MARKER_TEXT.encode("ascii")`. -/
def markerText : List UInt8 := "EXT4-MOUNT-OK\n".toUTF8.data.toList

/-- Why an inspection has no result. -/
inductive InspectError where
  | raised (problem : PyError)
  | unicodeDecodeError
  | outOfFuel
  deriving DecidableEq

/-- An exception passes through. -/
def raising : Except PyError α → Except InspectError α
  | .ok value =>
      .ok value
  | .error problem =>
      .error (.raised problem)

/-- `struct.unpack_from` of one field. -/
def unpack
    (width : Nat)
    (data : List UInt8)
    (start : Nat) :
    Except InspectError Nat :=
  raising (unpackFrom width data start)

/-- `bytes.decode()`. -/
def decode (bytes : List UInt8) : Except InspectError (List Char) :=
  match (ByteArray.mk bytes.toArray).utf8Decode? with
  | some text =>
      .ok text.toList
  | none =>
      .error .unicodeDecodeError

/-- `bytes.rstrip(b"\x00")`. -/
def rstripZeros (bytes : List UInt8) : List UInt8 :=
  (bytes.reverse.dropWhile (· = 0)).reverse

/-- A line of the output. -/
inductive Line where
  | superblock
      (magic rev : Nat)
      (label : List Char)
      (compat incompat roCompat : Nat)
  | dirEnd
  | entry (ino ftype : Nat) (name : List Char) (recLen : Nat)
  | badExtent (label : String) (magic depth : Nat)
  | extent (label : String) (entries eb elen ehi elo : Nat)
  | rootInode (mode size links : Nat)
  | markerContent (content : List UInt8)
  | markerMismatch
  deriving DecidableEq

section Superblock

/-- The volume name field. -/
def labelBytes (img : List UInt8) : List UInt8 :=
  rstripZeros (slice img (1024 + 0x78) 16)

/-- The first part of `inspect_image`. -/
def inspectSuperblock (img : List UInt8) : Except InspectError Line := do
  let magic ← unpack 2 img (1024 + 0x38)
  let rev ← unpack 4 img (1024 + 0x4C)
  let label ← decode (labelBytes img)
  let compat ← unpack 4 img (1024 + 0x5C)
  let incompat ← unpack 4 img (1024 + 0x60)
  let roCompat ← unpack 4 img (1024 + 0x64)
  return .superblock magic rev label compat incompat roCompat

end Superblock

section Listing

/-- `root_data`. -/
def rootData (img : List UInt8) : List UInt8 :=
  slice img (rootDirBlock * block) 64

/-- A directory entry, decoded. -/
structure Entry where
  ino : Nat
  recLen : Nat
  ftype : Nat
  name : List Char
  deriving DecidableEq

/-- What the loop body reads at an offset; the terminator has no entry. -/
def readEntry
    (data : List UInt8)
    (off : Nat) :
    Except InspectError (Option Entry) := do
  -- The fields of "<IHBB", all of them or none.
  let _ ← unpack 8 data off
  let ino ← unpack 4 data off
  let recLen ← unpack 2 data (off + 4)
  let nlen ← unpack 1 data (off + 6)
  let ftype ← unpack 1 data (off + 7)
  if ino = 0 then
    return none
  else
    let name ← decode (slice data (off + 8) nlen)
    return some ⟨ino, recLen, ftype, name⟩

/-- The loop over the directory entries. -/
def listEntries
    (data : List UInt8) :
    Nat → Nat → Except InspectError (List Line)
  | 0, _ =>
      .error .outOfFuel
  | fuel + 1, off =>
      if off < data.length then do
        match ← readEntry data off with
        | none =>
            return [.dirEnd]
        | some entry =>
            let later ← listEntries data fuel (off + entry.recLen)
            return .entry entry.ino entry.ftype entry.name entry.recLen ::
              later
      else
        .ok []

/-- The offset that follows, when the loop goes on. -/
def nextOffset (data : List UInt8) (off : Nat) : Option Nat :=
  if off < data.length then
    match readEntry data off with
    | .ok (some entry) =>
        some (off + entry.recLen)
    | _ =>
        none
  else
    none

/-- The offset of a round of the loop, when there is one. -/
def offsetAt (data : List UInt8) : Nat → Option Nat
  | 0 =>
      some 0
  | round + 1 =>
      (offsetAt data round).bind (nextOffset data)

end Listing

section Walk

/-- `read_inode`. -/
def readInode
    (img : List UInt8)
    (gdtInodeTable inodeSize ino : Nat) :
    List UInt8 :=
  slice img (gdtInodeTable * block + (ino - 1) * inodeSize) inodeSize

/-- `follow_extent`: the lines printed and the block found. -/
def followExtent
    (inode : List UInt8)
    (label : String) :
    Except InspectError (List Line × Option Nat) := do
  -- The fields of "<HHHHI".
  let _ ← unpack 12 inode 0x28
  let magic ← unpack 2 inode 0x28
  let entries ← unpack 2 inode (0x28 + 2)
  let depth ← unpack 2 inode (0x28 + 6)
  if magic ≠ extMagic ∨ depth ≠ 0 then
    return ([.badExtent label magic depth], none)
  else
    let eb ← unpack 4 inode (0x28 + 12)
    let elen ← unpack 2 inode (0x28 + 16)
    let ehi ← unpack 2 inode (0x28 + 18)
    let elo ← unpack 4 inode (0x28 + 20)
    return ([.extent label entries eb elen ehi elo],
      if eb = 0 ∧ ehi = 0 then some elo else none)

/-- The last part of `inspect_image`. -/
def inspectWalk (img : List UInt8) : Except InspectError (List Line) := do
  let inodeSize ← unpack 2 img (1024 + 0x58)
  let _ ← unpack 4 img (1024 + 0x28)
  let gdtInodeTable ← unpack 4 img (2048 + 0x08)
  let root := readInode img gdtInodeTable inodeSize rootInode
  let (rootLines, dirBlk) ← followExtent root "root inode"
  let statLines ←
    match dirBlk with
    | none =>
        .ok []
    | some _ => do
        let mode ← unpack 2 root 0
        let size ← unpack 4 root 4
        let links ← unpack 2 root 0x1A
        .ok [.rootInode mode size links]
  let marker := readInode img gdtInodeTable inodeSize markerInode
  let (markerLines, dataBlk) ← followExtent marker "marker inode"
  let contentLines :=
    match dataBlk with
    | none =>
        []
    | some dataBlk =>
        let content := rstripZeros (slice img (dataBlk * block) 32)
        .markerContent content ::
          if content ≠ markerText then [.markerMismatch] else []
  return rootLines ++ statLines ++ markerLines ++ contentLines

/-- `inspect_image`. -/
def inspectImage
    (fuel : Nat)
    (img : List UInt8) :
    Except InspectError (List Line) := do
  let superblock ← inspectSuperblock img
  let listing ← listEntries (rootData img) fuel 0
  let walk ← inspectWalk img
  return superblock :: listing ++ walk

end Walk

/-- The listing ends and comes by no offset twice, if it is reached. -/
def ListingEnds (img : List UInt8) : Prop :=
  ∀ superblock,
    inspectSuperblock img = .ok superblock →
    Ends (.error .outOfFuel)
        (fun fuel => listEntries (rootData img) fuel 0) ∧
      ∀ round later off,
        round < later →
        offsetAt (rootData img) round = some off →
        offsetAt (rootData img) later ≠ some off

section Records

/-- The `rec_len` field of the record at an offset. -/
def recLenAt (data : List UInt8) (off : Nat) : Nat :=
  LittleEndian.value (slice data (off + 4) 2)

/-- The name of the record at an offset. -/
def nameAt (data : List UInt8) (off : Nat) : List UInt8 :=
  slice data (off + 8) (LittleEndian.value (slice data (off + 6) 1))

/-- A whole record with an inode and a name that is UTF-8. -/
structure Listed (data : List UInt8) (off : Nat) : Prop where
  within :
    off + 8 ≤ data.length
  ino :
    LittleEndian.value (slice data off 4) ≠ 0
  name :
    ∃ text, decode (nameAt data off) = .ok text

/-- The offsets that the record lengths lead to. -/
inductive Chained (data : List UInt8) : Nat → Prop where
  | start :
      Chained data 0
  | next
      {off : Nat}
      (chained : Chained data off)
      (listed : Listed data off) :
      Chained data (off + recLenAt data off)

/-- The record lengths lead to a record that has none itself. -/
def Stalls (data : List UInt8) : Prop :=
  ∃ off, Chained data off ∧ Listed data off ∧ recLenAt data off = 0

end Records

theorem unpack_ok
    {width start : Nat}
    {data : List UInt8}
    (within : start + width ≤ data.length) :
    unpack width data start =
      .ok (LittleEndian.value (slice data start width)) := by
  rw [unpack, unpackFrom, if_pos within]
  rfl

theorem unpack_eq_ok
    {width start number : Nat}
    {data : List UInt8}
    (unpacked : unpack width data start = .ok number) :
    start + width ≤ data.length := by
  by_contra beyond
  rw [unpack, unpackFrom, if_neg beyond] at unpacked
  cases unpacked

theorem unpack_ne_outOfFuel
    (width : Nat)
    (data : List UInt8)
    (start : Nat) :
    unpack width data start ≠ .error .outOfFuel := by
  rw [unpack]
  cases unpackFrom width data start <;> exact fun stopped => by cases stopped

theorem decode_ne_outOfFuel (bytes : List UInt8) :
    decode bytes ≠ .error .outOfFuel := by
  rw [decode]
  split <;> exact fun stopped => by cases stopped

/-- The loop body itself always has a result. -/
theorem readEntry_ne_outOfFuel (data : List UInt8) (off : Nat) :
    readEntry data off ≠ .error .outOfFuel := by
  intro stopped
  simp only [readEntry, bind_eq_error, unpack_ne_outOfFuel, false_or]
    at stopped
  obtain ⟨_, _, ino, _, recLen, _, nlen, _, ftype, _, stopped⟩ := stopped
  split at stopped
  · cases stopped
  · rcases bind_eq_error.mp stopped with undecoded | ⟨name, _, returned⟩
    · exact decode_ne_outOfFuel _ undecoded
    · cases returned

/-- The loop body goes on exactly at a listed record, by its length. -/
theorem readEntry_some_iff
    {data : List UInt8}
    {off recLen : Nat} :
    (∃ entry,
        readEntry data off = .ok (some entry) ∧ entry.recLen = recLen) ↔
      Listed data off ∧ recLen = recLenAt data off := by
  by_cases within : off + 8 ≤ data.length
  · simp only [readEntry, unpack_ok within,
      unpack_ok (show off + 4 ≤ data.length by omega),
      unpack_ok (show off + 4 + 2 ≤ data.length by omega),
      unpack_ok (show off + 6 + 1 ≤ data.length by omega),
      unpack_ok (show off + 7 + 1 ≤ data.length by omega),
      bind, Except.bind]
    constructor
    · rintro ⟨entry, read, rfl⟩
      split at read
      · cases read
      · rename_i some
        cases named : decode (nameAt data off) with
        | error =>
            rw [nameAt] at named
            simp only [named] at read
            cases read
        | ok text =>
            have same := named
            rw [nameAt] at same
            simp only [same] at read
            cases read
            exact ⟨⟨within, some, text, named⟩, rfl⟩
    · rintro ⟨⟨_, some, text, named⟩, rfl⟩
      rw [nameAt] at named
      simp only [if_neg some, named]
      exact ⟨_, rfl, rfl⟩
  · constructor
    · rintro ⟨entry, read, _⟩
      simp only [readEntry, bind_eq_ok] at read
      obtain ⟨_, first, _⟩ := read
      exact absurd (unpack_eq_ok first) within
    · rintro ⟨listed, _⟩
      exact absurd listed.within within

/-- The next offset is that behind a listed record. -/
theorem nextOffset_eq_some_iff
    {data : List UInt8}
    {off next : Nat} :
    nextOffset data off = some next ↔
      Listed data off ∧ next = off + recLenAt data off := by
  constructor
  · intro goesOn
    rw [nextOffset] at goesOn
    split at goesOn
    · split at goesOn
      · rename_i entry read
        cases goesOn
        obtain ⟨listed, length⟩ :=
          readEntry_some_iff.mp ⟨entry, read, rfl⟩
        exact ⟨listed, by rw [length]⟩
      · cases goesOn
    · cases goesOn
  · rintro ⟨listed, rfl⟩
    obtain ⟨entry, read, length⟩ :=
      readEntry_some_iff.mpr ⟨listed, rfl⟩
    have within := listed.within
    rw [nextOffset, if_pos (by omega), read]
    simp only [length]

/-- One round of the loop at a listed record. -/
theorem listEntries_listed
    {data : List UInt8}
    {off : Nat}
    (listed : Listed data off)
    (fuel : Nat) :
    ∃ line,
      listEntries data (fuel + 1) off =
        (listEntries data fuel (off + recLenAt data off)).map (line :: ·) := by
  obtain ⟨entry, read, length⟩ :=
    readEntry_some_iff.mpr ⟨listed, rfl⟩
  have within := listed.within
  refine ⟨.entry entry.ino entry.ftype entry.name entry.recLen, ?_⟩
  rw [listEntries, if_pos (by omega), read, ← length]
  change (listEntries data fuel (off + entry.recLen) >>= _) = _
  cases listEntries data fuel (off + entry.recLen) <;> rfl

/-- Anywhere else the loop ends at once. -/
theorem listEntries_unlisted
    {data : List UInt8}
    {off : Nat}
    (unlisted : ¬ Listed data off)
    (fuel : Nat) :
    listEntries data (fuel + 1) off ≠ .error .outOfFuel := by
  rw [listEntries]
  split
  · cases read : readEntry data off with
    | error problem =>
        intro stopped
        cases stopped
        exact readEntry_ne_outOfFuel data off read
    | ok found =>
        cases found with
        | none =>
            exact fun stopped => by cases stopped
        | some entry =>
            exact absurd (readEntry_some_iff.mp ⟨entry, read, rfl⟩).1
              unlisted
  · exact fun stopped => by cases stopped

/-- Where the record lengths do not stall, they go on upwards. -/
theorem advance_of_not_stalls
    {data : List UInt8}
    (advances : ¬ Stalls data)
    {off : Nat}
    (chained : Chained data off)
    (listed : Listed data off) :
    off < off + recLenAt data off := by
  have positive : recLenAt data off ≠ 0 := fun zero =>
    advances ⟨off, chained, listed, zero⟩
  omega

/-- The loop ends when it does not stall: what is left gets shorter. -/
theorem listEntries_ends
    {data : List UInt8}
    (advances : ¬ Stalls data)
    {off : Nat}
    (chained : Chained data off) :
    Ends (.error .outOfFuel) fun fuel => listEntries data fuel off := by
  induction left : data.length - off using Nat.strong_induction_on
    generalizing off with
  | _ left inductionHypothesis =>
      by_cases listed : Listed data off
      · have further := advance_of_not_stalls advances chained listed
        have within := listed.within
        obtain ⟨fuel, result⟩ := inductionHypothesis
          (data.length - (off + recLenAt data off)) (by omega)
          (chained.next listed) rfl
        obtain ⟨line, round⟩ := listEntries_listed listed fuel
        refine ⟨fuel + 1, ?_⟩
        dsimp only at result ⊢
        rw [round]
        intro stopped
        apply result
        cases later : listEntries data fuel (off + recLenAt data off) with
        | error problem =>
            rw [later] at stopped
            exact congrArg _ (Except.error.inj stopped)
        | ok lines =>
            rw [later] at stopped
            cases stopped
      · exact ⟨1, listEntries_unlisted listed 0⟩

/-- A record without a length keeps the loop at its offset. -/
theorem listEntries_stuck
    {data : List UInt8}
    {off : Nat}
    (listed : Listed data off)
    (stuck : recLenAt data off = 0)
    (fuel : Nat) :
    listEntries data fuel off = .error .outOfFuel := by
  induction fuel with
  | zero =>
      rfl
  | succ fuel inductionHypothesis =>
      obtain ⟨line, round⟩ := listEntries_listed listed fuel
      rw [round, stuck, Nat.add_zero, inductionHypothesis]
      rfl

/-- A loop that does not end somewhere on the way does not end at all. -/
theorem listEntries_of_chained
    {data : List UInt8}
    {off : Nat}
    (chained : Chained data off)
    (endless : ∀ fuel, listEntries data fuel off = .error .outOfFuel)
    (fuel : Nat) :
    listEntries data fuel 0 = .error .outOfFuel := by
  induction chained generalizing fuel with
  | start =>
      exact endless fuel
  | next chained listed inductionHypothesis =>
      apply inductionHypothesis
      intro fuel
      cases fuel with
      | zero =>
          rfl
      | succ fuel =>
          obtain ⟨line, round⟩ := listEntries_listed listed fuel
          rw [round, endless]
          rfl

/-- The rounds follow the record lengths. -/
theorem chained_of_offsetAt
    {data : List UInt8}
    {round off : Nat}
    (reached : offsetAt data round = some off) :
    Chained data off := by
  induction round generalizing off with
  | zero =>
      cases reached
      exact .start
  | succ round inductionHypothesis =>
      obtain ⟨before, earlier, goesOn⟩ :=
        Option.bind_eq_some_iff.mp reached
      obtain ⟨listed, rfl⟩ := nextOffset_eq_some_iff.mp goesOn
      exact (inductionHypothesis earlier).next listed

/-- Later rounds are at larger offsets. -/
theorem offsetAt_strictMono
    {data : List UInt8}
    (advances : ¬ Stalls data)
    {round later first second : Nat}
    (before : round < later)
    (reached : offsetAt data round = some first)
    (reachedLater : offsetAt data later = some second) :
    first < second := by
  induction later generalizing second with
  | zero =>
      omega
  | succ later inductionHypothesis =>
      obtain ⟨middle, earlier, goesOn⟩ :=
        Option.bind_eq_some_iff.mp reachedLater
      obtain ⟨listed, rfl⟩ := nextOffset_eq_some_iff.mp goesOn
      have further :=
        advance_of_not_stalls advances (chained_of_offsetAt earlier) listed
      rcases Nat.lt_succ_iff_lt_or_eq.mp before with less | rfl
      · exact Nat.lt_trans (inductionHypothesis less earlier) further
      · rw [reached] at earlier
        cases earlier
        exact further

/-- Behind the boot block, a label that is UTF-8 is all that can be missing. -/
theorem inspectSuperblock_ok
    {img : List UInt8}
    (long : 1024 + 0x68 ≤ img.length)
    {label : List Char}
    (decoded : decode (labelBytes img) = .ok label) :
    ∃ superblock, inspectSuperblock img = .ok superblock := by
  simp only [inspectSuperblock, decoded,
    unpack_ok (show 1024 + 0x38 + 2 ≤ img.length by omega),
    unpack_ok (show 1024 + 0x4C + 4 ≤ img.length by omega),
    unpack_ok (show 1024 + 0x5C + 4 ≤ img.length by omega),
    unpack_ok (show 1024 + 0x60 + 4 ≤ img.length by omega),
    unpack_ok (show 1024 + 0x64 + 4 ≤ img.length by omega),
    bind, Except.bind]
  exact ⟨_, rfl⟩

/-- A listing that stalls does not end. -/
theorem not_listingEnds_of_stalls
    {img : List UInt8}
    (stalls : Stalls (rootData img))
    {label : List Char}
    (decoded : decode (labelBytes img) = .ok label) :
    ¬ ListingEnds img := by
  obtain ⟨off, chained, listed, stuck⟩ := stalls
  have long : 1024 + 0x68 ≤ img.length := by
    have within := listed.within
    simp only [rootData, slice, List.length_take, List.length_drop,
      rootDirBlock, block] at within
    omega
  obtain ⟨superblock, shown⟩ := inspectSuperblock_ok long decoded
  intro ends
  obtain ⟨⟨fuel, result⟩, _⟩ := ends superblock shown
  exact result
    (listEntries_of_chained chained (listEntries_stuck listed stuck) fuel)

/--
The listing ends, without coming by an offset twice, exactly when the record
lengths of the root directory do not stall or the label is no UTF-8.
-/
theorem listingEnds_iff (img : List UInt8) :
    ListingEnds img ↔
      ¬ (Stalls (rootData img) ∧
        ∃ label, decode (labelBytes img) = .ok label) := by
  constructor
  · rintro ends ⟨stalls, label, decoded⟩
    exact not_listingEnds_of_stalls stalls decoded ends
  · intro advances superblock shown
    have decoded : ∃ label, decode (labelBytes img) = .ok label := by
      simp only [inspectSuperblock, bind_eq_ok] at shown
      obtain ⟨_, _, _, _, label, decoded, _⟩ := shown
      exact ⟨label, decoded⟩
    have goesOn : ¬ Stalls (rootData img) := fun stalls =>
      advances ⟨stalls, decoded⟩
    refine ⟨listEntries_ends goesOn .start, ?_⟩
    intro round later off before reached again
    exact Nat.lt_irrefl off
      (offsetAt_strictMono goesOn before reached again)

/-- The root directory starts with a record that has no length. -/
def stuckImage : List UInt8 :=
  List.replicate (rootDirBlock * block) 0 ++ [2, 0, 0, 0, 0, 0, 0, 2]

theorem decode_nil : decode [] = .ok [] := by
  have decoded := ByteArray.utf8Decode?_empty
  rw [decode]
  change (match ByteArray.empty.utf8Decode? with
    | some text => Except.ok text.toList
    | none => .error InspectError.unicodeDecodeError) = _
  rw [decoded]

/-- The loop stays at the first record. -/
theorem stuckImage_not_listingEnds : ¬ ListingEnds stuckImage := by
  have data : rootData stuckImage = [2, 0, 0, 0, 0, 0, 0, 2] := by
    rw [rootData, stuckImage, slice]
    generalize rootDirBlock * block = length
    rw [List.drop_left' List.length_replicate]
    rfl
  have label : labelBytes stuckImage = [] := by
    rw [labelBytes, stuckImage, slice_replicate_append _ _ (by decide)]
    decide
  have listed : Listed [2, 0, 0, 0, 0, 0, 0, 2] 0 :=
    ⟨by decide, by decide, [],
      by rw [show nameAt _ 0 = [] from rfl, decode_nil]⟩
  have decoded : decode (labelBytes stuckImage) = .ok [] := by
    rw [label, decode_nil]
  refine not_listingEnds_of_stalls ?_ decoded
  rw [data]
  exact ⟨0, .start, listed, by decide⟩

end UefiMount.MkExt4Img
