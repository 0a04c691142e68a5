import Mathlib.Algebra.Ring.Nat
import UefiMount.ByteBuffer
import UefiMount.LittleEndian

namespace UefiMount.MkExt4Img

open ByteBuffer

/-!
# The block writer of the ext4 generator

`create_image` of `mkext4img.py` collects an image in one `bytearray` and fills
it through `put_block`.  The slice that `put_block` replaces is as long as the
data, and what it puts there is as long as the blocks that the data fills.
`Write` is one call that passes the assertion; a run is a list of calls on the
fresh image, and `InPlace` says what a call ought to do to the image.
-/

/-- `BLOCK`. -/
def block : Nat := 1024

/-- `BLOCKS_TOTAL`. -/
def blocksTotal : Nat := 8192

/-- `GDT_BLOCK`. -/
def gdtBlock : Nat := 2

/-- `BLOCK_BITMAP_BLOCK`. -/
def blockBitmapBlock : Nat := 4

/-- `INODE_BITMAP_BLOCK`. -/
def inodeBitmapBlock : Nat := 5

/-- `INODE_TABLE_BLOCK`. -/
def inodeTableBlock : Nat := 6

/-- `USED_BLOCKS`. -/
def usedBlocks : Nat := 40

/-- `INODES_PER_GROUP`. -/
def inodesPerGroup : Nat := 128

/-- Calls of `struct.pack_into` with one field each, on a fresh buffer. -/
def packInto
    (length : Nat)
    (fields : List (Nat × List UInt8)) :
    List UInt8 :=
  assign (List.replicate length 0)
    (fields.map fun field =>
      (field.1, field.1 + field.2.length, field.2))

/-- `build_group_desc`. -/
def buildGroupDesc : List UInt8 :=
  packInto 32 [
    (0x00, LittleEndian.bytes 4 blockBitmapBlock),
    (0x04, LittleEndian.bytes 4 inodeBitmapBlock),
    (0x08, LittleEndian.bytes 4 inodeTableBlock),
    (0x0C, LittleEndian.bytes 2 (blocksTotal - usedBlocks)),
    (0x0E, LittleEndian.bytes 2 (inodesPerGroup - 3)),
    (0x10, LittleEndian.bytes 2 1)]

/-- The image that `create_image` starts from. -/
def freshImage : List UInt8 :=
  List.replicate (blocksTotal * block) 0

/-- A call of `put_block` whose assertion holds. -/
structure Write where
  n : Nat
  data : List UInt8
  fits : (data.length : Int) ≤ (blocksTotal - n) * block

namespace Write

/-- `pad`. -/
def pad (write : Write) : Nat :=
  ((-write.data.length : Int) % block).toNat

/-- The data, filled up to whole blocks. -/
def padded (write : Write) : List UInt8 :=
  write.data ++ List.replicate write.pad 0

/-- The blocks that the data fills, the last one perhaps in part. -/
def blocks (write : Write) : Nat :=
  (write.data.length + block - 1) / block

end Write

/-- `put_block`, behind its assertion. -/
def putBlock (write : Write) (img : List UInt8) : List UInt8 :=
  splice img (write.n * block) (write.n * block + write.data.length)
    (write.data ++ List.replicate write.pad 0)

/-- Calls of `put_block`, one after the other. -/
def putBlocks (writes : List Write) (img : List UInt8) : List UInt8 :=
  writes.foldl (fun img write => putBlock write img) img

/-- What a call ought to make of an image. -/
structure InPlace (write : Write) (before after : List UInt8) : Prop where
  length :
    after.length = blocksTotal * block
  written :
    slice after (write.n * block) (write.blocks * block) = write.padded
  frame :
    ∀ index,
      index < write.n * block ∨ (write.n + write.blocks) * block ≤ index →
      after[index]? = before[index]?

/-- Every call of a run on the fresh image is in place. -/
def RunInPlace (writes : List Write) : Prop :=
  ∀ earlier write later,
    writes = earlier ++ write :: later →
    InPlace write (putBlocks earlier freshImage)
      (putBlock write (putBlocks earlier freshImage))

section Lengths

variable (write : Write)

theorem length_padded :
    write.padded.length = write.blocks * block := by
  simp only [Write.padded, Write.pad, Write.blocks, block,
    List.length_append, List.length_replicate]
  omega

theorem pad_eq_zero_iff :
    write.pad = 0 ↔ block ∣ write.data.length := by
  simp only [Write.pad, block]
  omega

/-- The blocks of a call lie within the image. -/
theorem blocks_within :
    (write.n + write.blocks) * block ≤ blocksTotal * block := by
  have fits := write.fits
  simp only [Write.blocks, block, blocksTotal] at fits ⊢
  omega

/-- A call makes the image longer by what it pads. -/
theorem length_putBlock
    {img : List UInt8}
    (whole : blocksTotal * block ≤ img.length) :
    (putBlock write img).length = img.length + write.pad := by
  have fits := write.fits
  simp only [putBlock, length_splice, List.length_append,
    List.length_replicate]
  simp only [block, blocksTotal] at fits whole ⊢
  omega

end Lengths

/-- A run makes the image longer by all that its calls pad. -/
theorem length_putBlocks
    (writes : List Write)
    {img : List UInt8}
    (whole : blocksTotal * block ≤ img.length) :
    (putBlocks writes img).length =
      img.length + (writes.map Write.pad).sum := by
  induction writes generalizing img with
  | nil =>
      rfl
  | cons write later inductionHypothesis =>
      have longer := length_putBlock write whole
      rw [putBlocks, List.foldl_cons]
      have rest := @inductionHypothesis (putBlock write img) (by omega)
      rw [putBlocks] at rest
      rw [rest, longer, List.map_cons, List.sum_cons, Nat.add_assoc]

theorem length_freshImage :
    freshImage.length = blocksTotal * block :=
  List.length_replicate

/-- On an image of the right length, calls with whole blocks are in place. -/
theorem putBlock_inPlace_iff
    (write : Write)
    {img : List UInt8}
    (length : img.length = blocksTotal * block) :
    InPlace write img (putBlock write img) ↔
      block ∣ write.data.length := by
  have longer := length_putBlock write (Nat.le_of_eq length.symm)
  constructor
  · intro inPlace
    rw [← pad_eq_zero_iff]
    have same := inPlace.length
    omega
  · intro whole
    have noPad := (pad_eq_zero_iff write).mpr whole
    have within := blocks_within write
    have covers := length_padded write
    have own : write.padded.length = write.data.length := by
      simp only [Write.padded, noPad, List.replicate_zero, List.append_nil]
    have start : write.n * block ≤ img.length := by
      rw [length]
      rw [Nat.add_mul] at within
      omega
    refine ⟨by omega, ?_, ?_⟩
    · rw [← covers]
      exact slice_splice start _ write.padded
    · intro index outside
      rw [Nat.add_mul] at outside
      rw [putBlock, ← Write.padded, getElem?_splice start]
      rcases outside with before | behind
      · rw [if_pos before]
      · rw [if_neg (by omega), if_neg (by omega)]
        congr 1
        omega

/--
A run is in place call by call exactly when the length of each data is a
multiple of the block size.
-/
theorem putBlocks_inPlace_iff
    (writes : List Write) :
    RunInPlace writes ↔
      ∀ write ∈ writes, block ∣ write.data.length := by
  constructor
  · intro inPlace write member
    obtain ⟨earlier, later, rfl⟩ := List.append_of_mem member
    have after := (inPlace earlier write later rfl).length
    have earlierLength :=
      length_putBlocks earlier (Nat.le_of_eq length_freshImage.symm)
    have longer :=
      @length_putBlock write (putBlocks earlier freshImage)
        (by rw [earlierLength, length_freshImage]; omega)
    rw [← pad_eq_zero_iff]
    rw [length_freshImage] at earlierLength
    omega
  · intro whole earlier write later rfl
    have noPads : (earlier.map Write.pad).sum = 0 := by
      rw [List.sum_eq_zero_iff_forall_eq_nat]
      intro pad member
      obtain ⟨other, otherMember, rfl⟩ := List.mem_map.mp member
      exact (pad_eq_zero_iff other).mpr
        (whole other (List.mem_append_left _ otherMember))
    have length :=
      length_putBlocks earlier (Nat.le_of_eq length_freshImage.symm)
    rw [noPads, length_freshImage, Nat.add_zero] at length
    exact (putBlock_inPlace_iff write length).mpr
      (whole write (by simp))

/-- The call that writes the group descriptor. -/
def groupDescWrite : Write where
  n := gdtBlock
  data := buildGroupDesc
  fits := by decide

/-- The group descriptor moves all that follows it. -/
theorem groupDescWrite_not_inPlace : ¬ RunInPlace [groupDescWrite] := by
  intro inPlace
  have after := (inPlace [] groupDescWrite [] rfl).length
  have longer := length_putBlock groupDescWrite
    (Nat.le_of_eq length_freshImage.symm)
  have padded : groupDescWrite.pad = 992 := by decide
  rw [putBlocks, List.foldl_nil, longer, length_freshImage, padded] at after
  omega

end UefiMount.MkExt4Img
