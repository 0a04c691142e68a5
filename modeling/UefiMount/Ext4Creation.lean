import UefiMount.Ext4Inspect

namespace UefiMount.MkExt4Img

open ByteBuffer

/-!
# What the ext4 generator lays down

`create_image` of `mkext4img.py`, with what its constants say as parameters:
the two inodes, the entries of the root directory and the marker text.  Its
calls of `put_block` go upwards, so what they move is blank, and every block
holds what was written there although the image grows.  `inspect_image` then
reads everything back.
-/

section Model

/-- `RESERVED_GDT`. -/
def reservedGdt : Nat := 0

/-- `BLOCKS_PER_GROUP`. -/
def blocksPerGroup : Nat := 8192

/-- `INODE_SIZE`. -/
def inodeSize : Nat := 256

/-- `INODE_TABLE_BLOCKS`. -/
def inodeTableBlocks : Nat := inodesPerGroup * inodeSize / block

/-- `FIRST_INO`. -/
def firstIno : Nat := 11

/-- `MARKER_DATA_BLOCK`. -/
def markerDataBlock : Nat := 39

/-- `FIXED_TS`. -/
def fixedTs : Nat := 1787299200

/-- `EXT4_EXTENTS_FL`. -/
def ext4ExtentsFl : Nat := 0x00080000

/-- `struct.pack_into`, as the assignment of a slice. -/
def packed
    (offset : Nat)
    (bytes : List UInt8) :
    Nat × Nat × List UInt8 :=
  (offset, offset + bytes.length, bytes)

/-- The assignments of `build_superblock`; one slice gets a byte too few. -/
def superblockRows : List (Nat × Nat × List UInt8) :=
  [packed 0x00 (LittleEndian.bytes 4 inodesPerGroup),
    packed 0x04 (LittleEndian.bytes 4 blocksTotal),
    packed 0x08 (LittleEndian.bytes 4 0),
    packed 0x0C (LittleEndian.bytes 4 (blocksTotal - usedBlocks)),
    packed 0x10 (LittleEndian.bytes 4 (inodesPerGroup - 3)),
    packed 0x14 (LittleEndian.bytes 4 1),
    packed 0x18 (LittleEndian.bytes 4 0),
    packed 0x1C (LittleEndian.bytes 4 0),
    packed 0x20 (LittleEndian.bytes 4 blocksPerGroup),
    packed 0x24 (LittleEndian.bytes 4 blocksPerGroup),
    packed 0x28 (LittleEndian.bytes 4 inodesPerGroup),
    packed 0x2C (LittleEndian.bytes 4 fixedTs),
    packed 0x30 (LittleEndian.bytes 4 fixedTs),
    packed 0x34 (LittleEndian.bytes 2 0),
    packed 0x36 (LittleEndian.bytes 2 0xFFFF),
    packed 0x38 (LittleEndian.bytes 2 0xEF53),
    packed 0x3A (LittleEndian.bytes 2 1),
    packed 0x3C (LittleEndian.bytes 2 1),
    packed 0x40 (LittleEndian.bytes 4 fixedTs),
    packed 0x44 (LittleEndian.bytes 4 0),
    packed 0x48 (LittleEndian.bytes 4 0),
    packed 0x4C (LittleEndian.bytes 4 1),
    packed 0x50 (LittleEndian.bytes 2 0),
    packed 0x52 (LittleEndian.bytes 2 0),
    packed 0x54 (LittleEndian.bytes 4 firstIno),
    packed 0x58 (LittleEndian.bytes 2 inodeSize),
    packed 0x5A (LittleEndian.bytes 2 0),
    packed 0x5C (LittleEndian.bytes 4 0x2),
    packed 0x60 (LittleEndian.bytes 4 0x40),
    packed 0x64 (LittleEndian.bytes 4 0x0),
    (0x68, 0x78,
      [0x5C, 0x6D, 0x7E, 0x8F, 0x11, 0x11, 0x40, 0x01,
        0x80, 0x01, 0x00, 0x00, 0x00, 0x00, 0x02]),
    (0x78, 0x88,
      [0x45, 0x58, 0x54, 0x34, 0x54, 0x45, 0x53, 0x54] ++
        List.replicate 8 0),
    packed 0xD0 (LittleEndian.bytes 2 reservedGdt),
    (0xEE, 0xFE,
      [0x00, 0x11, 0x22, 0x33, 0x44, 0x55, 0x66, 0x77,
        0x88, 0x99, 0xAA, 0xBB, 0xCC, 0xDD, 0xEE, 0xFF]),
    (0xFE, 0xFF, [1]),
    packed 0x100 (LittleEndian.bytes 2 0x20),
    packed 0x10A (LittleEndian.bytes 4 fixedTs),
    packed 0x15E (LittleEndian.bytes 2 32),
    packed 0x160 (LittleEndian.bytes 2 32)]

/-- `build_superblock`. -/
def buildSuperblock : List UInt8 :=
  assign (List.replicate block 0) superblockRows

/-- Arguments that `build_inode` can pack. -/
structure InodeFields where
  mode : Nat
  size : Nat
  links : Nat
  dataBlock : Nat
  mode_lt : mode < 256 ^ 2
  size_lt : size < 256 ^ 4
  links_lt : links < 256 ^ 2
  dataBlock_lt : dataBlock < 256 ^ 4

/-- The assignments of `build_inode`. -/
def inodeRows (inode : InodeFields) : List (Nat × Nat × List UInt8) :=
  [packed 0x00 (LittleEndian.bytes 2 inode.mode),
    packed 0x02 (LittleEndian.bytes 2 0),
    packed 0x04 (LittleEndian.bytes 4 inode.size),
    packed 0x08 (LittleEndian.bytes 4 fixedTs),
    packed 0x0C (LittleEndian.bytes 4 fixedTs),
    packed 0x10 (LittleEndian.bytes 4 fixedTs),
    packed 0x14 (LittleEndian.bytes 4 fixedTs),
    packed 0x18 (LittleEndian.bytes 2 0),
    packed 0x1A (LittleEndian.bytes 2 inode.links),
    packed 0x1C (LittleEndian.bytes 4 2),
    packed 0x20 (LittleEndian.bytes 4 ext4ExtentsFl),
    packed 0x28 (LittleEndian.bytes 2 extMagic ++ LittleEndian.bytes 2 1 ++
      LittleEndian.bytes 2 4 ++ LittleEndian.bytes 2 0),
    packed (0x28 + 12) (LittleEndian.bytes 4 0 ++ LittleEndian.bytes 2 1 ++
      LittleEndian.bytes 2 0 ++ LittleEndian.bytes 4 inode.dataBlock),
    packed 0x80 (LittleEndian.bytes 2 32)]

/-- `build_inode`. -/
def buildInode (inode : InodeFields) : List UInt8 :=
  assign (List.replicate inodeSize 0) (inodeRows inode)

/-- Arguments that `dir_entry` can pack, and whose assertion holds. -/
structure DirEntry where
  inode : Nat
  name : List Char
  fileType : Nat
  recLen : Nat
  inode_lt : inode < 256 ^ 4
  name_lt : name.length < 256
  fileType_lt : fileType < 256
  recLen_lt : recLen < 256 ^ 2
  /-- `name.encode("ascii")` succeeds. -/
  ascii : name.all fun c => c.toNat < 128
  fits : 8 + name.length ≤ recLen

/-- `name.encode("ascii")`. -/
def encodeAscii (name : List Char) : List UInt8 :=
  name.map fun c => UInt8.ofNat c.toNat

/-- `dir_entry`. -/
def DirEntry.bytes (entry : DirEntry) : List UInt8 :=
  let b :=
    LittleEndian.bytes 4 entry.inode ++ LittleEndian.bytes 2 entry.recLen ++
      LittleEndian.bytes 1 entry.name.length ++
      LittleEndian.bytes 1 entry.fileType ++ encodeAscii entry.name
  b ++ List.replicate (entry.recLen - b.length) 0

/-- The entry behind the last one. -/
def terminator (recLen : Nat) : List UInt8 :=
  LittleEndian.bytes 4 0 ++ LittleEndian.bytes 2 recLen ++
    LittleEndian.bytes 1 0 ++ LittleEndian.bytes 1 0

/-- `bitmap[bit // 8] |= 1 << (bit % 8)`. -/
def setBit (bitmap : List UInt8) (bit : Nat) : List UInt8 :=
  bitmap.modify (bit / 8) (· ||| (1 <<< UInt8.ofNat (bit % 8)))

/-- A block with some bits set. -/
def bitmap (bits : List Nat) : List UInt8 :=
  bits.foldl setBit (List.replicate block 0)

/-- What the constants of `create_image` say. -/
structure Contents where
  root : InodeFields
  marker : InodeFields
  entries : List DirEntry
  text : List UInt8
  /-- The terminator fits into the block of the root directory. -/
  room : (entries.flatMap DirEntry.bytes).length + 8 ≤ block
  behind : rootDirBlock < marker.dataBlock
  fits : (text.length : Int) ≤ (blocksTotal - marker.dataBlock) * block

namespace Contents

variable (contents : Contents)

/-- `table`, with an inode at the place of its number. -/
def inodeTable : List UInt8 :=
  assign (List.replicate (inodeTableBlocks * block) 0)
    [((rootInode - 1) * inodeSize,
        (rootInode - 1) * inodeSize + inodeSize,
        buildInode contents.root),
      ((markerInode - 1) * inodeSize,
        (markerInode - 1) * inodeSize + inodeSize,
        buildInode contents.marker)]

/-- `root`, with its terminator. -/
def rootDirectory : List UInt8 :=
  let root := contents.entries.flatMap DirEntry.bytes
  root ++ terminator (block - root.length)

end Contents

end Model

section Lengths

theorem length_setBit (bitmap : List UInt8) (bit : Nat) :
    (setBit bitmap bit).length = bitmap.length :=
  List.length_modify ..

theorem length_bitmap (bits : List Nat) : (bitmap bits).length = block := by
  have kept (bitmap : List UInt8) :
      (bits.foldl setBit bitmap).length = bitmap.length := by
    induction bits generalizing bitmap with
    | nil => rfl
    | cons bit rest inductionHypothesis =>
        rw [List.foldl_cons, inductionHypothesis, length_setBit]
  rw [bitmap, kept, List.length_replicate]

/-- The slip in the superblock costs a byte. -/
theorem length_buildSuperblock : buildSuperblock.length = 1023 := by
  decide +kernel

theorem length_assign_of_same
    {rows : List (Nat × Nat × List UInt8)}
    {buffer : List UInt8}
    (same :
      ∀ row ∈ rows, row.2.1 = row.1 + row.2.2.length ∧
        row.2.1 ≤ buffer.length) :
    (assign buffer rows).length = buffer.length := by
  induction rows generalizing buffer with
  | nil => rfl
  | cons row rest inductionHypothesis =>
      obtain ⟨own, others⟩ := List.forall_mem_cons.mp same
      have length :
          (splice buffer row.1 row.2.1 row.2.2).length = buffer.length := by
        rw [length_splice]
        omega
      rw [assign, List.foldl_cons]
      rw [← length] at others
      exact (inductionHypothesis others).trans length

end Lengths

section Ascending

/-- Each call starts behind the blocks of the ones before. -/
def Ascending (writes : List Write) : Prop :=
  writes.Pairwise fun earlier later => earlier.n + earlier.blocks ≤ later.n

/-- A call, as the assignment of a slice. -/
def Write.row (write : Write) : Nat × Nat × List UInt8 :=
  (write.n * block, write.n * block + write.data.length, write.padded)

theorem putBlocks_eq_assign (writes : List Write) (img : List UInt8) :
    putBlocks writes img = assign img (writes.map Write.row) := by
  rw [putBlocks, assign, List.foldl_map]
  rfl

theorem Ascending.ascends
    {writes : List Write}
    (ascending : Ascending writes)
    {low length : Nat}
    (above : ∀ write ∈ writes, low ≤ write.n * block)
    (whole : blocksTotal * block ≤ length) :
    Ascends low length (writes.map Write.row) := by
  induction writes generalizing low length with
  | nil => trivial
  | cons write rest inductionHypothesis =>
      obtain ⟨before, ascending⟩ := List.pairwise_cons.mp ascending
      have within := blocks_within write
      have covers := length_padded write
      have fits : write.data.length ≤ write.padded.length := by
        simp [Write.padded]
      rw [Nat.add_mul] at within
      refine ⟨above write List.mem_cons_self, Nat.le_add_right _ _,
        by omega, ?_⟩
      refine inductionHypothesis ascending (fun later member => ?_)
        (by omega)
      rw [covers, ← Nat.add_mul]
      exact Nat.mul_le_mul_right block (before later member)

/-- What the calls of a run have written, block by block. -/
structure ReadsBack (writes : List Write) (img : List UInt8) : Prop where
  /-- The image has grown by all that the calls pad. -/
  length :
    img.length = blocksTotal * block + (writes.map Write.pad).sum
  written :
    ∀ write ∈ writes,
      slice img (write.n * block) (write.blocks * block) = write.padded
  blank :
    ∀ index,
      index < img.length →
      (∀ write ∈ writes,
        index < write.n * block ∨
          (write.n + write.blocks) * block ≤ index) →
      img[index]? = some 0

/-- The image of a run that goes upwards shows what its calls write. -/
theorem Ascending.shows
    {writes : List Write}
    (ascending : Ascending writes) :
    Shows (0 : UInt8) (rowPatches (writes.map Write.row))
      (putBlocks writes freshImage) := by
  have ascends :=
    @Ascending.ascends writes ascending 0 freshImage.length
      (fun _ _ => Nat.zero_le _) (Nat.le_of_eq length_freshImage.symm)
  have fresh : Shows (0 : UInt8) [] freshImage := .fresh _
  have shown := fresh.assign ascends fun _ absurdity => by cases absurdity
  rwa [← putBlocks_eq_assign, List.append_nil] at shown

/-- A run that goes upwards loses nothing, whatever the lengths of its data. -/
theorem Ascending.readsBack
    {writes : List Write}
    (ascending : Ascending writes) :
    ReadsBack writes (putBlocks writes freshImage) where
  length := by
    rw [length_putBlocks writes (Nat.le_of_eq length_freshImage.symm),
      length_freshImage]
  written write member := by
    have ascends :=
      @Ascending.ascends writes ascending 0 (blocksTotal * block)
        (fun _ _ => Nat.zero_le _) (Nat.le_refl _)
    have read :=
      @slice_assign _ _ 0 _ ascends _ (List.mem_map_of_mem member)
    rw [putBlocks_eq_assign, ← length_padded]
    exact read
  blank index inside outside := by
    rw [ascending.shows.shown index inside, patched_outside]
    intro patch member
    obtain ⟨row, isRow, rfl⟩ := mem_rowPatches.mp member
    obtain ⟨write, isWrite, rfl⟩ := List.mem_map.mp isRow
    have beside := outside write isWrite
    rwa [Nat.add_mul, ← length_padded] at beside

/-- What `put_block` is meant to do: replace the blocks that it fills. -/
def putInPlace (write : Write) (img : List UInt8) : List UInt8 :=
  splice img (write.n * block) ((write.n + write.blocks) * block)
    write.padded

/-- The calls of a run as they are meant. -/
def putAllInPlace (writes : List Write) (img : List UInt8) : List UInt8 :=
  writes.foldl (fun img write => putInPlace write img) img

/-- A call as it is meant leaves the length alone. -/
theorem length_putInPlace
    (write : Write)
    {img : List UInt8}
    (length : img.length = blocksTotal * block) :
    (putInPlace write img).length = blocksTotal * block := by
  have within := blocks_within write
  have covers := length_padded write
  rw [Nat.add_mul] at within
  rw [putInPlace, length_splice, Nat.add_mul]
  omega

/-- Calls as they are meant show what they write, in any order. -/
theorem putAllInPlace_shows
    (writes : List Write)
    {patches : List (Patch UInt8)}
    {img : List UInt8}
    (shows : Shows 0 patches img)
    (length : img.length = blocksTotal * block) :
    (putAllInPlace writes img).length = blocksTotal * block ∧
      Shows 0 (rowPatches (writes.map Write.row) ++ patches)
        (putAllInPlace writes img) := by
  induction writes generalizing patches img with
  | nil => exact ⟨length, shows⟩
  | cons write rest inductionHypothesis =>
      have within := blocks_within write
      rw [Nat.add_mul] at within
      have shown :=
        shows.splice (show write.n * block ≤ img.length by omega)
          write.padded
      rw [length_padded, ← Nat.add_mul] at shown
      have later :=
        inductionHypothesis shown (length_putInPlace write length)
      rwa [List.map_cons, rowPatches, List.map_cons, List.reverse_cons,
        List.append_assoc]

/--
A run that goes upwards does what it is meant to do, whatever the lengths of
its data; only zeros behind the image tell that its calls have moved something.
-/
theorem putBlocks_eq_inPlace
    (writes : List Write)
    (ascending : Ascending writes) :
    putBlocks writes freshImage =
      putAllInPlace writes freshImage ++
        List.replicate (writes.map Write.pad).sum 0 := by
  have fresh : Shows (0 : UInt8) [] freshImage := .fresh _
  obtain ⟨length, meant⟩ :=
    putAllInPlace_shows writes fresh length_freshImage
  have shown := ascending.shows
  have grown := ascending.readsBack.length
  rw [List.append_nil] at meant
  apply List.ext_getElem?
  intro index
  by_cases inside : index < (putBlocks writes freshImage).length
  · rw [shown.shown index inside]
    by_cases within : index < blocksTotal * block
    · rw [List.getElem?_append_left (by omega),
        meant.shown index (by omega)]
    · rw [List.getElem?_append_right (by omega),
        List.getElem?_replicate_of_lt (by omega), patched_outside]
      intro patch member
      obtain ⟨row, isRow, rfl⟩ := mem_rowPatches.mp member
      obtain ⟨write, _, rfl⟩ := List.mem_map.mp isRow
      have below := blocks_within write
      rw [Nat.add_mul, ← length_padded] at below
      exact .inr (Nat.le_trans below (Nat.not_lt.mp within))
  · rw [List.getElem?_eq_none (by omega), List.getElem?_eq_none]
    rw [List.length_append, List.length_replicate, length]
    omega

/-- What a call wrote is read back piece by piece. -/
theorem ReadsBack.slice_eq
    {writes : List Write}
    {img : List UInt8}
    (reads : ReadsBack writes img)
    {write : Write}
    (member : write ∈ writes)
    {offset count : Nat}
    (within : offset + count ≤ write.padded.length) :
    slice img (write.n * block + offset) count =
      slice write.padded offset count := by
  rw [length_padded] at within
  rw [← slice_slice img within, reads.written write member]

/-- Within the data the padding does not show. -/
theorem Write.slice_padded
    (write : Write)
    {offset count : Nat}
    (within : offset + count ≤ write.data.length) :
    slice write.padded offset count = slice write.data offset count := by
  simp only [slice, padded]
  rw [List.drop_append_of_le_length (by omega),
    List.take_append_of_le_length (by rw [List.length_drop]; omega)]

end Ascending

section Inodes

variable (inode : InodeFields)

theorem inodeRows_ascends : Ascends 0 inodeSize (inodeRows inode) := by
  simp [inodeRows, packed, Ascends, inodeSize]

theorem length_buildInode : (buildInode inode).length = inodeSize := by
  have same :
      ∀ row ∈ inodeRows inode, row.2.1 = row.1 + row.2.2.length ∧
        row.2.1 ≤ inodeSize := by
    simp [inodeRows, packed, inodeSize]
  rw [← @List.length_replicate _ inodeSize (0 : UInt8)] at same
  rw [buildInode, length_assign_of_same same, List.length_replicate]

/-- A field of an inode is read back. -/
theorem slice_buildInode
    {inode : InodeFields}
    {offset : Nat}
    {bytes : List UInt8}
    (member : packed offset bytes ∈ inodeRows inode) :
    slice (buildInode inode) offset bytes.length = bytes :=
  slice_assign (inodeRows_ascends inode) member

/-- The fields that `inspect_image` looks at. -/
theorem unpack_buildInode :
    unpack 2 (buildInode inode) 0 = .ok inode.mode ∧
      unpack 4 (buildInode inode) 4 = .ok inode.size ∧
      unpack 2 (buildInode inode) 0x1A = .ok inode.links := by
  have length := length_buildInode inode
  have mode :=
    @slice_buildInode inode 0 (LittleEndian.bytes 2 inode.mode)
      (by simp [inodeRows])
  have size :=
    @slice_buildInode inode 4 (LittleEndian.bytes 4 inode.size)
      (by simp [inodeRows])
  have links :=
    @slice_buildInode inode 0x1A (LittleEndian.bytes 2 inode.links)
      (by simp [inodeRows])
  rw [LittleEndian.length_bytes] at mode size links
  rw [inodeSize] at length
  rw [unpack_ok (by omega), unpack_ok (by omega), unpack_ok (by omega),
    mode, size, links, LittleEndian.value_bytes_of_lt inode.mode_lt,
    LittleEndian.value_bytes_of_lt inode.size_lt,
    LittleEndian.value_bytes_of_lt inode.links_lt]
  exact ⟨rfl, rfl, rfl⟩

/-- A part of a field is read back too. -/
theorem unpack_buildInode_part
    {inode : InodeFields}
    {start : Nat}
    {bytes : List UInt8}
    (member : packed start bytes ∈ inodeRows inode)
    {offset width : Nat}
    (part : offset + width ≤ bytes.length)
    (inside : start + bytes.length ≤ inodeSize) :
    unpack width (buildInode inode) (start + offset) =
      .ok (LittleEndian.value (slice bytes offset width)) := by
  have length := length_buildInode inode
  rw [unpack_ok (by omega), ← slice_slice (buildInode inode) part,
    slice_buildInode member]

/-- The extent header of every inode. -/
def extentHeader : List UInt8 :=
  LittleEndian.bytes 2 extMagic ++ LittleEndian.bytes 2 1 ++
    LittleEndian.bytes 2 4 ++ LittleEndian.bytes 2 0

/-- The one extent of an inode, in front of its block. -/
def extentFront : List UInt8 :=
  LittleEndian.bytes 4 0 ++ LittleEndian.bytes 2 1 ++
    LittleEndian.bytes 2 0

/-- The one extent of an inode leads to its block. -/
theorem followExtent_buildInode (label : String) :
    followExtent (buildInode inode) label =
      .ok ([.extent label 1 0 1 0 inode.dataBlock],
        some inode.dataBlock) := by
  have inHeader : packed 0x28 extentHeader ∈ inodeRows inode := by
    simp [inodeRows, extentHeader]
  have inExtent :
      packed (0x28 + 12)
          (extentFront ++ LittleEndian.bytes 4 inode.dataBlock) ∈
        inodeRows inode := by
    simp [inodeRows, extentFront]
  have header {offset width : Nat} (part : offset + width ≤ 8) :=
    @unpack_buildInode_part inode _ _ inHeader offset width part (by decide)
  have extentLength :
      (extentFront ++ LittleEndian.bytes 4 inode.dataBlock).length = 12 := by
    simp [extentFront]
  have extent {offset width : Nat} (part : offset + width ≤ 12) :=
    @unpack_buildInode_part inode _ _ inExtent offset width
      (by rw [extentLength]; exact part) (by rw [extentLength]; decide)
  have front {offset width : Nat} (part : offset + width ≤ 8) :
      slice (extentFront ++ LittleEndian.bytes 4 inode.dataBlock) offset
          width =
        slice extentFront offset width := by
    have long : extentFront.length = 8 := by decide
    rw [slice, slice, List.drop_append_of_le_length (by omega),
      List.take_append_of_le_length (by rw [List.length_drop]; omega)]
  have whole : unpack 12 (buildInode inode) 0x28 = .ok _ :=
    unpack_ok (by rw [length_buildInode]; decide)
  have magic : unpack 2 (buildInode inode) 0x28 = .ok extMagic :=
    (@header 0 2 (by decide)).trans (congrArg _ (by decide))
  have entries : unpack 2 (buildInode inode) (0x28 + 2) = .ok 1 :=
    (@header 2 2 (by decide)).trans (congrArg _ (by decide))
  have depth : unpack 2 (buildInode inode) (0x28 + 6) = .ok 0 :=
    (@header 6 2 (by decide)).trans (congrArg _ (by decide))
  have eb : unpack 4 (buildInode inode) (0x28 + 12) = .ok 0 := by
    refine (@extent 0 4 (by decide)).trans (congrArg _ ?_)
    rw [front (by decide)]
    decide
  have elen : unpack 2 (buildInode inode) (0x28 + 16) = .ok 1 := by
    refine (@extent 4 2 (by decide)).trans (congrArg _ ?_)
    rw [front (by decide)]
    decide
  have ehi : unpack 2 (buildInode inode) (0x28 + 18) = .ok 0 := by
    refine (@extent 6 2 (by decide)).trans (congrArg _ ?_)
    rw [front (by decide)]
    decide
  have elo :
      unpack 4 (buildInode inode) (0x28 + 20) = .ok inode.dataBlock := by
    refine (@extent 8 4 (by decide)).trans (congrArg _ ?_)
    have behind :=
      slice_append_length extentFront
        (LittleEndian.bytes 4 inode.dataBlock) 0 4
    have whole :
        slice (LittleEndian.bytes 4 inode.dataBlock) 0 4 =
          LittleEndian.bytes 4 inode.dataBlock :=
      List.take_of_length_le (by simp)
    rw [show extentFront.length + 0 = 8 by decide, whole] at behind
    rw [behind, LittleEndian.value_bytes_of_lt inode.dataBlock_lt]
  simp only [followExtent, whole, magic, entries, depth, eb, elen, ehi, elo,
    bind, Except.bind, pure, Except.pure]
  rfl

end Inodes

section Entries

theorem decode_encodeAscii
    {name : List Char}
    (ascii : name.all fun c => c.toNat < 128) :
    decode (encodeAscii name) = .ok name := by
  simp only [List.all_eq_true, decide_eq_true_eq] at ascii
  have each : ∀ c ∈ name,
      String.utf8EncodeChar c = [UInt8.ofNat c.toNat] := by
    intro c member
    have small : c.toNat ≤ 127 := Nat.le_of_lt_succ (ascii c member)
    simp [String.utf8EncodeChar, small]
  have same : ByteArray.mk (encodeAscii name).toArray = name.utf8Encode := by
    have bytes : name.flatMap String.utf8EncodeChar = encodeAscii name := by
      rw [encodeAscii, List.map_eq_flatMap]
      exact List.flatMap_congr each
    rw [List.utf8Encode, bytes]
    apply ByteArray.ext
    simp
  rw [decode, same, List.utf8Decode?_utf8Encode]

section Fields

variable (entry : DirEntry) (rest : List UInt8)

theorem length_bytes_entry : entry.bytes.length = entry.recLen := by
  have fits := entry.fits
  simp [DirEntry.bytes, encodeAscii]
  omega

/-- The fields of an entry, wherever it lies. -/
theorem slices_entry :
    slice (entry.bytes ++ rest) 0 4 = LittleEndian.bytes 4 entry.inode ∧
      slice (entry.bytes ++ rest) 4 2 =
        LittleEndian.bytes 2 entry.recLen ∧
      slice (entry.bytes ++ rest) 6 1 =
        LittleEndian.bytes 1 entry.name.length ∧
      slice (entry.bytes ++ rest) 7 1 =
        LittleEndian.bytes 1 entry.fileType ∧
      slice (entry.bytes ++ rest) 8 entry.name.length =
        encodeAscii entry.name := by
  simp [slice, DirEntry.bytes, LittleEndian.bytes, encodeAscii]

/-- The loop body reads an entry back, wherever it lies. -/
theorem readEntry_append
    (front : List UInt8)
    (inUse : entry.inode ≠ 0) :
    readEntry (front ++ (entry.bytes ++ rest)) front.length =
      .ok (some ⟨entry.inode, entry.recLen, entry.fileType, entry.name⟩) := by
  have own := length_bytes_entry entry
  have fits := entry.fits
  have long :
      front.length + 8 ≤ (front ++ (entry.bytes ++ rest)).length := by
    simp only [List.length_append]
    omega
  obtain ⟨inode, recLen, nlen, ftype, name⟩ := slices_entry entry rest
  have behind (start count : Nat) :=
    slice_append_length front (entry.bytes ++ rest) start count
  have first := behind 0 4
  rw [Nat.add_zero] at first
  simp only [readEntry]
  rw [unpack_ok long, unpack_ok (by omega), unpack_ok (by omega),
    unpack_ok (by omega), unpack_ok (by omega), first, behind, behind, behind,
    inode, recLen, nlen, ftype,
    LittleEndian.value_bytes_of_lt entry.inode_lt,
    LittleEndian.value_bytes_of_lt entry.recLen_lt,
    LittleEndian.value_bytes_of_lt (by simpa using entry.name_lt),
    LittleEndian.value_bytes_of_lt (by simpa using entry.fileType_lt)]
  simp only [bind, Except.bind, if_neg inUse, behind, name,
    decode_encodeAscii entry.ascii]
  rfl

end Fields

theorem readEntry_terminator
    (front : List UInt8)
    (recLen : Nat)
    (rest : List UInt8) :
    readEntry (front ++ (terminator recLen ++ rest)) front.length =
      .ok none := by
  have own : (terminator recLen).length = 8 := by simp [terminator]
  have long :
      front.length + 8 ≤ (front ++ (terminator recLen ++ rest)).length := by
    simp only [List.length_append]
    omega
  have ino :
      slice (front ++ (terminator recLen ++ rest)) front.length 4 =
        LittleEndian.bytes 4 0 := by
    have behind := slice_append_length front (terminator recLen ++ rest) 0 4
    rw [Nat.add_zero] at behind
    rw [behind]
    simp [slice, terminator, LittleEndian.bytes]
  have zero : LittleEndian.value (LittleEndian.bytes 4 0) = 0 := by decide
  simp only [readEntry]
  rw [unpack_ok long, unpack_ok (by omega), unpack_ok (by omega),
    unpack_ok (by omega), unpack_ok (by omega), ino, zero]
  rfl

/-- The line of an entry. -/
def DirEntry.line (entry : DirEntry) : Line :=
  .entry entry.inode entry.fileType entry.name entry.recLen

/-- The listing shows the entries up to the terminator. -/
theorem listEntries_entries
    {entries : List DirEntry}
    (inUse : ∀ entry ∈ entries, entry.inode ≠ 0)
    (front : List UInt8)
    (recLen : Nat)
    (rest : List UInt8)
    {fuel : Nat}
    (enough : entries.length < fuel) :
    listEntries
        (front ++
          (entries.flatMap DirEntry.bytes ++ (terminator recLen ++ rest)))
        fuel front.length =
      .ok (entries.map DirEntry.line ++ [.dirEnd]) := by
  obtain ⟨less, rfl⟩ : ∃ less, fuel = less + 1 := ⟨fuel - 1, by omega⟩
  induction entries generalizing front less with
  | nil =>
      have own : (terminator recLen).length = 8 := by simp [terminator]
      rw [List.flatMap_nil, List.nil_append, listEntries,
        readEntry_terminator, if_pos (by simp only [List.length_append]; omega)]
      rfl
  | cons entry entries inductionHypothesis =>
      obtain ⟨used, inUse⟩ := List.forall_mem_cons.mp inUse
      have own := length_bytes_entry entry
      have fits := entry.fits
      have later :=
        inductionHypothesis inUse (front ++ entry.bytes) (less - 1) (by
          rw [List.length_cons] at enough
          omega)
      rw [List.length_cons] at enough
      rw [show less - 1 + 1 = less by omega, List.length_append, own,
        List.append_assoc] at later
      rw [List.flatMap_cons, List.append_assoc, listEntries,
        readEntry_append _ _ _ used,
        if_pos (by simp only [List.length_append]; omega)]
      simp only [bind, Except.bind, later]
      rfl

end Entries

section Creation

namespace Contents

variable (contents : Contents)

theorem length_inodeTable :
    contents.inodeTable.length = inodeTableBlocks * block := by
  have root := length_buildInode contents.root
  have marker := length_buildInode contents.marker
  rw [inodeTable, length_assign_of_same, List.length_replicate]
  rw [List.length_replicate]
  simp only [List.forall_mem_cons, List.not_mem_nil, false_implies,
    implies_true, and_true, root, marker, true_and]
  decide

theorem length_rootDirectory :
    contents.rootDirectory.length =
      (contents.entries.flatMap DirEntry.bytes).length + 8 := by
  simp [rootDirectory, terminator]

theorem rootDirectory_fits :
    (contents.rootDirectory.length : Int) ≤
      (blocksTotal - rootDirBlock) * block := by
  have room := contents.room
  rw [length_rootDirectory]
  simp only [block, blocksTotal, rootDirBlock] at room ⊢
  omega

/-- The call that writes the superblock. -/
def superblockWrite : Write where
  n := 1
  data := buildSuperblock
  fits := by rw [length_buildSuperblock]; decide

/-- The call that writes the inode table. -/
def inodeTableWrite : Write where
  n := inodeTableBlock
  data := contents.inodeTable
  fits := by rw [length_inodeTable]; decide

/-- The call that writes the root directory. -/
def rootDirWrite : Write where
  n := rootDirBlock
  data := contents.rootDirectory
  fits := contents.rootDirectory_fits

/-- The call that writes the marker text. -/
def textWrite : Write where
  n := contents.marker.dataBlock
  data := contents.text
  fits := contents.fits

/-- The calls of `put_block` in `create_image`. -/
def writes : List Write :=
  [superblockWrite,
    groupDescWrite,
    { n := blockBitmapBlock
      data := bitmap (List.range usedBlocks)
      fits := by rw [length_bitmap]; decide },
    { n := inodeBitmapBlock
      data := bitmap [1, rootInode, markerInode]
      fits := by rw [length_bitmap]; decide },
    contents.inodeTableWrite,
    contents.rootDirWrite,
    contents.textWrite]

/-- `create_image`: the bytes of the file. -/
def createImage : List UInt8 :=
  putBlocks contents.writes freshImage

/-- Each call starts behind the ones before. -/
theorem writes_ascending : Ascending contents.writes := by
  have behind := contents.behind
  have room := contents.room
  simp only [Ascending, writes, List.pairwise_cons, List.forall_mem_cons,
    List.not_mem_nil, false_implies, implies_true, and_true,
    List.Pairwise.nil, Write.blocks, length_buildSuperblock, length_bitmap,
    length_inodeTable, length_rootDirectory, superblockWrite, groupDescWrite,
    inodeTableWrite, rootDirWrite, textWrite, gdtBlock,
    blockBitmapBlock, inodeBitmapBlock, inodeTableBlock, rootDirBlock,
    block] at behind room ⊢
  have tableBlocks : inodeTableBlocks = 32 := by decide
  have descriptor : buildGroupDesc.length = 32 := by decide
  omega

/-- The created image holds what was written. -/
theorem createImage_readsBack :
    ReadsBack contents.writes contents.createImage :=
  contents.writes_ascending.readsBack

/-- What `inspect_image` shows of the marker text. -/
def shownText : List UInt8 :=
  rstripZeros (contents.text.take 32)

/-- The lines of `inspect_image`. -/
def lines : List Line :=
  .superblock 0xEF53 1 "EXT4TEST".toList 0x2 0x40 0x0 ::
    (contents.entries.map DirEntry.line ++ [.dirEnd]) ++
    ([.extent "root inode" 1 0 1 0 contents.root.dataBlock,
        .rootInode contents.root.mode contents.root.size contents.root.links,
        .extent "marker inode" 1 0 1 0 contents.marker.dataBlock] ++
      .markerContent contents.shownText ::
        if contents.shownText ≠ markerText then [.markerMismatch] else [])

variable {contents : Contents}

/-- A piece of the data of one of the calls. -/
theorem slice_createImage
    {write : Write}
    (member : write ∈ contents.writes)
    {offset count : Nat}
    (within : offset + count ≤ write.data.length) :
    slice contents.createImage (write.n * block + offset) count =
      slice write.data offset count := by
  have fits : write.data.length ≤ write.padded.length := by
    simp [Write.padded]
  rw [contents.createImage_readsBack.slice_eq member (by omega),
    write.slice_padded within]

theorem length_createImage_ge :
    blocksTotal * block ≤ contents.createImage.length := by
  rw [contents.createImage_readsBack.length]
  exact Nat.le_add_right _ _

/-- A part of the superblock. -/
theorem slice_superblock
    {offset count : Nat}
    (within : offset + count ≤ 1023) :
    slice contents.createImage (1024 + offset) count =
      slice buildSuperblock offset count := by
  have place : superblockWrite.n * block = 1024 := by decide
  have length : superblockWrite.data.length = 1023 := length_buildSuperblock
  rw [← place]
  exact slice_createImage List.mem_cons_self (by omega)

theorem unpack_superblock
    {offset width : Nat}
    (within : offset + width ≤ 1023) :
    unpack width contents.createImage (1024 + offset) =
      .ok (LittleEndian.value (slice buildSuperblock offset width)) := by
  have long := @length_createImage_ge contents
  simp only [blocksTotal, block] at long
  rw [unpack_ok (by omega), slice_superblock within]

theorem inspectSuperblock_createImage :
    inspectSuperblock contents.createImage =
      .ok (.superblock 0xEF53 1 "EXT4TEST".toList 0x2 0x40 0x0) := by
  have magic : unpack 2 contents.createImage (1024 + 0x38) = .ok 0xEF53 :=
    (unpack_superblock (by decide)).trans (congrArg _ (by decide +kernel))
  have rev : unpack 4 contents.createImage (1024 + 0x4C) = .ok 1 :=
    (unpack_superblock (by decide)).trans (congrArg _ (by decide +kernel))
  have compat : unpack 4 contents.createImage (1024 + 0x5C) = .ok 0x2 :=
    (unpack_superblock (by decide)).trans (congrArg _ (by decide +kernel))
  have incompat : unpack 4 contents.createImage (1024 + 0x60) = .ok 0x40 :=
    (unpack_superblock (by decide)).trans (congrArg _ (by decide +kernel))
  have roCompat : unpack 4 contents.createImage (1024 + 0x64) = .ok 0x0 :=
    (unpack_superblock (by decide)).trans (congrArg _ (by decide +kernel))
  have label :
      labelBytes contents.createImage = encodeAscii "EXT4TEST".toList := by
    rw [labelBytes, slice_superblock (by decide)]
    decide +kernel
  have decoded : decode (labelBytes contents.createImage) =
      .ok "EXT4TEST".toList := by
    rw [label]
    exact decode_encodeAscii (by decide)
  simp only [inspectSuperblock, magic, rev, compat, incompat, roCompat,
    decoded, bind, Except.bind]
  rfl

/-- An inode is read from its place in the table. -/
theorem readInode_createImage
    {ino : Nat}
    (inside : (ino - 1) * inodeSize + inodeSize ≤ inodeTableBlocks * block) :
    readInode contents.createImage inodeTableBlock inodeSize ino =
      slice contents.inodeTable ((ino - 1) * inodeSize) inodeSize := by
  have length : contents.inodeTableWrite.data.length = _ :=
    length_inodeTable contents
  exact @slice_createImage contents contents.inodeTableWrite
    (by simp [writes]) _ _ (by omega)

theorem inodeTable_ascends :
    Ascends 0 (inodeTableBlocks * block)
      [((rootInode - 1) * inodeSize,
          (rootInode - 1) * inodeSize + inodeSize,
          buildInode contents.root),
        ((markerInode - 1) * inodeSize,
          (markerInode - 1) * inodeSize + inodeSize,
          buildInode contents.marker)] := by
  have root := length_buildInode contents.root
  have tableBlocks : inodeTableBlocks = 32 := by decide
  simp only [Ascends, root, tableBlocks, rootInode, markerInode, inodeSize,
    block]
  decide

theorem readInode_root :
    readInode contents.createImage inodeTableBlock inodeSize rootInode =
      buildInode contents.root := by
  have read :=
    @slice_assign _ _ (0 : UInt8) _ contents.inodeTable_ascends _
      List.mem_cons_self
  rw [readInode_createImage (by decide), inodeTable]
  rwa [length_buildInode] at read

theorem readInode_marker :
    readInode contents.createImage inodeTableBlock inodeSize markerInode =
      buildInode contents.marker := by
  have read :=
    @slice_assign _ _ (0 : UInt8) _ contents.inodeTable_ascends _
      (List.mem_cons_of_mem _ List.mem_cons_self)
  rw [readInode_createImage (by decide), inodeTable]
  rwa [length_buildInode] at read

/-- The group descriptor leads to the inode table. -/
theorem unpack_inodeTable :
    unpack 4 contents.createImage (2048 + 0x08) = .ok inodeTableBlock := by
  have long := @length_createImage_ge contents
  have place : groupDescWrite.n * block = 2048 := by decide
  have length : groupDescWrite.data.length = 32 := by decide
  have read :
      slice contents.createImage (2048 + 0x08) 4 =
        slice groupDescWrite.data 0x08 4 := by
    rw [← place]
    exact slice_createImage (by simp [writes]) (by omega)
  simp only [blocksTotal, block] at long
  rw [unpack_ok (by omega), read]
  exact congrArg _ (by decide)

/-- The front of what a call wrote, with zeros behind it. -/
theorem slice_front
    {write : Write}
    (member : write ∈ contents.writes)
    {count : Nat}
    (some : write.data ≠ [])
    (atMost : count ≤ block) :
    ∃ zeros,
      slice contents.createImage (write.n * block) count =
        write.data.take count ++ List.replicate zeros 0 := by
  have positive := List.length_pos_iff.mpr some
  have reaches : 0 + count ≤ write.padded.length := by
    rw [length_padded]
    simp only [Write.blocks, block] at atMost ⊢
    omega
  have read :=
    contents.createImage_readsBack.slice_eq member reaches
  rw [Nat.add_zero] at read
  refine ⟨min (count - write.data.length) write.pad, ?_⟩
  rw [read, slice, List.drop_zero, Write.padded, List.take_append,
    List.take_replicate]

/-- Where nothing was written, there are zeros. -/
theorem slice_blank
    {start count : Nat}
    (outside :
      ∀ write ∈ contents.writes,
        (write.n + write.blocks) * block ≤ start) :
    ∃ zeros,
      slice contents.createImage start count = List.replicate zeros 0 := by
  refine ⟨_, List.eq_replicate_iff.mpr ⟨rfl, fun byte member => ?_⟩⟩
  obtain ⟨index, inside, isByte⟩ := List.mem_iff_getElem.mp member
  have below : index < count := by
    simp only [slice, List.length_take] at inside
    omega
  have shown : contents.createImage[start + index]? = some byte := by
    rw [← getElem?_slice _ below, List.getElem?_eq_getElem inside, isByte]
  have blank :=
    contents.createImage_readsBack.blank (start + index)
      (List.getElem?_eq_some_iff.mp shown).1
      (fun write isWrite =>
        .inr (Nat.le_add_right_of_le (outside write isWrite)))
  exact (Option.some.inj (shown.symm.trans blank))

theorem rstripZeros_append (bytes : List UInt8) (zeros : Nat) :
    rstripZeros (bytes ++ List.replicate zeros 0) = rstripZeros bytes := by
  rw [rstripZeros, rstripZeros, List.reverse_append, List.reverse_replicate,
    List.dropWhile_append_of_pos]
  intro byte member
  simp [List.eq_of_mem_replicate member]

/-- What is read of the marker text. -/
theorem rstripZeros_text :
    rstripZeros
        (slice contents.createImage (contents.marker.dataBlock * block) 32) =
      contents.shownText := by
  by_cases empty : contents.text = []
  · have outside :
        ∀ write ∈ contents.writes,
          (write.n + write.blocks) * block ≤
            contents.marker.dataBlock * block := by
      have ordered := contents.writes_ascending
      have split :
          contents.writes = contents.writes.dropLast ++ [contents.textWrite] :=
        rfl
      rw [split] at ordered ⊢
      have before := (List.pairwise_append.mp ordered).2.2
      intro write member
      refine Nat.mul_le_mul_right block ?_
      rcases List.mem_append.mp member with front | last
      · exact before write front _ List.mem_cons_self
      · rw [List.mem_singleton.mp last]
        simp [textWrite, Write.blocks, empty, block]
    obtain ⟨zeros, read⟩ := @slice_blank contents _ 32 outside
    have stripped := rstripZeros_append [] zeros
    rw [List.nil_append] at stripped
    rw [read, stripped, shownText, empty, List.take_nil]
  · obtain ⟨zeros, read⟩ :=
      @slice_front contents contents.textWrite (by simp [writes]) 32 empty
        (by decide)
    have place : contents.textWrite.n = contents.marker.dataBlock := rfl
    rw [place] at read
    rw [read, rstripZeros_append]
    rfl

/-- The listing shows the entries. -/
theorem listEntries_createImage
    (inUse : ∀ entry ∈ contents.entries, entry.inode ≠ 0)
    (short : (contents.entries.flatMap DirEntry.bytes).length + 8 ≤ 64)
    {fuel : Nat}
    (enough : contents.entries.length < fuel) :
    listEntries (rootData contents.createImage) fuel 0 =
      .ok (contents.entries.map DirEntry.line ++ [.dirEnd]) := by
  have length := contents.length_rootDirectory
  obtain ⟨zeros, read⟩ :=
    @slice_front contents contents.rootDirWrite (by simp [writes]) 64
      (by
        intro empty
        change contents.rootDirectory = [] at empty
        rw [empty] at length
        cases length)
      (by decide)
  have whole :
      contents.rootDirWrite.data.take 64 = contents.rootDirectory :=
    List.take_of_length_le (Nat.le_trans (Nat.le_of_eq length) short)
  have data :
      rootData contents.createImage =
        [] ++
          (contents.entries.flatMap DirEntry.bytes ++
            (terminator
              (block - (contents.entries.flatMap DirEntry.bytes).length) ++
              List.replicate zeros 0)) := by
    rw [whole] at read
    rw [List.nil_append, ← List.append_assoc]
    exact read
  rw [data]
  exact listEntries_entries inUse [] _ _ enough

/-- The walk from the group descriptor to the marker text. -/
theorem inspectWalk_createImage :
    inspectWalk contents.createImage =
      .ok ([.extent "root inode" 1 0 1 0 contents.root.dataBlock,
          .rootInode contents.root.mode contents.root.size
            contents.root.links,
          .extent "marker inode" 1 0 1 0 contents.marker.dataBlock] ++
        .markerContent contents.shownText ::
          if contents.shownText ≠ markerText then [.markerMismatch]
          else []) := by
  have size : unpack 2 contents.createImage (1024 + 0x58) = .ok inodeSize :=
    (unpack_superblock (by decide)).trans (congrArg _ (by decide +kernel))
  have perGroup :
      unpack 4 contents.createImage (1024 + 0x28) = .ok inodesPerGroup :=
    (unpack_superblock (by decide)).trans (congrArg _ (by decide +kernel))
  obtain ⟨mode, fileSize, links⟩ := unpack_buildInode contents.root
  simp only [inspectWalk, size, perGroup, unpack_inodeTable, readInode_root,
    readInode_marker, followExtent_buildInode, mode, fileSize, links,
    rstripZeros_text, bind, Except.bind, pure, Except.pure]
  rfl

/--
`inspect_image` reads back all that `create_image` laid down, though the image
is longer than its blocks.
-/
theorem inspectImage_createImage
    (contents : Contents)
    (inUse : ∀ entry ∈ contents.entries, entry.inode ≠ 0)
    (short : (contents.entries.flatMap DirEntry.bytes).length + 8 ≤ 64)
    {fuel : Nat}
    (enough : contents.entries.length < fuel) :
    inspectImage fuel contents.createImage = .ok contents.lines := by
  have listing := listEntries_createImage inUse short enough
  have walk := @inspectWalk_createImage contents
  simp only [inspectImage, inspectSuperblock_createImage, listing, walk,
    bind, Except.bind]
  rfl

/-- The constants of the source. -/
def ofSource : Contents where
  root := {
    mode := 0x41ED
    size := block
    links := 2
    dataBlock := rootDirBlock
    mode_lt := by decide
    size_lt := by decide
    links_lt := by decide
    dataBlock_lt := by decide
  }
  marker := {
    mode := 0x81A4
    size := markerText.length
    links := 1
    dataBlock := markerDataBlock
    mode_lt := by decide
    size_lt := by decide
    links_lt := by decide
    dataBlock_lt := by decide
  }
  entries := [
    { inode := rootInode, name := ".".toList, fileType := 2, recLen := 12
      inode_lt := by decide, name_lt := by decide
      fileType_lt := by decide, recLen_lt := by decide
      ascii := by decide, fits := by decide },
    { inode := rootInode, name := "..".toList, fileType := 2, recLen := 12
      inode_lt := by decide, name_lt := by decide
      fileType_lt := by decide, recLen_lt := by decide
      ascii := by decide, fits := by decide },
    { inode := markerInode, name := "marker.txt".toList, fileType := 1
      recLen := 20
      inode_lt := by decide, name_lt := by decide
      fileType_lt := by decide, recLen_lt := by decide
      ascii := by decide, fits := by decide }]
  text := markerText
  room := by decide
  behind := by decide
  fits := by decide

/-- The marker text of the source is found. -/
theorem inspectImage_createImage_ofSource :
    inspectImage 4 ofSource.createImage = .ok ofSource.lines ∧
      .markerMismatch ∉ ofSource.lines :=
  ⟨inspectImage_createImage ofSource (by decide) (by decide) (by decide),
    by decide⟩

/-- Four of the seven calls make the image longer. -/
theorem sum_pad_ofSource :
    (ofSource.writes.map Write.pad).sum = 1 + 992 + 972 + 1010 := by
  have tableBlocks : inodeTableBlocks = 32 := by decide
  have descriptor : groupDescWrite.data.length = 32 := by decide
  have entries :
      (ofSource.entries.flatMap DirEntry.bytes).length = 44 := by
    decide
  have text : ofSource.text.length = 14 := by decide
  simp only [writes, List.map_cons, List.map_nil, List.sum_cons,
    List.sum_nil, Write.pad, superblockWrite, inodeTableWrite, rootDirWrite,
    textWrite, length_buildSuperblock, length_bitmap, length_inodeTable,
    length_rootDirectory, descriptor, tableBlocks, entries, text, block]
  decide

/-- The created image is that of the blocks, and 2975 zeros. -/
theorem putBlocks_eq_inPlace_ofSource :
    ofSource.createImage =
      putAllInPlace ofSource.writes freshImage ++
        List.replicate (1 + 992 + 972 + 1010) 0 := by
  have meant :=
    putBlocks_eq_inPlace ofSource.writes ofSource.writes_ascending
  rwa [sum_pad_ofSource] at meant

end Contents

end Creation

end UefiMount.MkExt4Img
