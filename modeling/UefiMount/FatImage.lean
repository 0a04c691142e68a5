import UefiMount.FatLayout

namespace UefiMount.MkFatImg

open ByteBuffer

/-!
# Writing the image

The second half of `create_image`: the geometry of the volume, and the passes
that write directories, files and the two FAT copies into one buffer.  Slice
assignments are those of a `bytearray`: the buffer grows or shrinks when the
data is longer or shorter than the slice.
-/

/-- The data clusters that a FAT of so many sectors leaves room for. -/
def clusWith (partTotSec fatSec : Int) : Int :=
  (partTotSec - rsvdSecCnt - numFats * fatSec) / secPerClus

/-- The FAT sectors that the clusters left by so many FAT sectors need. -/
def needSec (partTotSec fatSec : Int) : Int :=
  ((clusWith partTotSec fatSec + 2) * 4 + sector - 1) / sector

/-- The larger the FAT, the smaller the FAT that is needed. -/
theorem needSec_antitone
    {fatSec larger : Int}
    (partTotSec : Int)
    (atMost : fatSec ≤ larger) :
    needSec partTotSec larger ≤ needSec partTotSec fatSec := by
  simp only [needSec, clusWith, rsvdSecCnt, numFats, secPerClus, sector]
  omega

/-- The loop of `fat_sz_for`. -/
def fatSzFrom (partTotSec fatSec : Int) : Int × Int :=
  if needSec partTotSec fatSec ≤ fatSec then
    (fatSec, clusWith partTotSec fatSec)
  else
    fatSzFrom partTotSec (needSec partTotSec fatSec)
termination_by (needSec partTotSec fatSec - fatSec).toNat
decreasing_by
  rename_i larger
  have next :=
    needSec_antitone partTotSec (Int.le_of_lt (Int.not_le.mp larger))
  omega

/-- `fat_sz_for`, with the constants that `create_image` passes. -/
def fatSzFor (partTotSec : Int) : Int × Int :=
  fatSzFrom partTotSec 1

/-- The geometry of the volume. -/
structure Geometry where
  totSec : Nat
  fatSec : Nat
  clusCount : Nat
  deriving DecidableEq

namespace Geometry

/-- `data_sec`. -/
def dataSec (geometry : Geometry) : Nat :=
  rsvdSecCnt + numFats * geometry.fatSec

/-- `data_start`. -/
def dataStart (geometry : Geometry) : Nat :=
  geometry.dataSec * sector

/-- The offset of a cluster. -/
def offset (geometry : Geometry) (clus : Nat) : Nat :=
  geometry.dataStart + (clus - rootClus) * bytesPerCluster

end Geometry

/-- The size computation of `create_image` and its check. -/
def createGeometry (sizeMb : Int) : Except PyError Geometry :=
  let totSec := sizeMb * 1024 * 1024 / sector
  let (fatSec, clusCount) := fatSzFor totSec
  if clusCount < fat32MinClusters then
    .error (.tooFewClusters sizeMb clusCount)
  else
    .ok ⟨totSec.toNat, fatSec.toNat, clusCount.toNat⟩

/-- The loop of `write_dir_entries` over the clusters of the directory. -/
def writeClusters
    (geometry : Geometry)
    (firstClus n : Nat)
    (entries img : List UInt8) :
    List UInt8 :=
  (List.range n).foldl
    (fun img i =>
      let off := geometry.offset (firstClus + i)
      splice img off (off + bytesPerCluster)
        (slice entries (i * bytesPerCluster) bytesPerCluster))
    img

/-- `write_dir_entries`. -/
def writeDirEntries
    (geometry : Geometry)
    (name : PyStr)
    (parentClus firstClus dirN : Nat)
    (children : Nodes)
    (img : List UInt8) :
    Except PyError (List UInt8) := do
  let entries ← buildDirEntries parentClus firstClus children
  let n := clustersFor entries.length
  if n ≠ dirN then
    .error (.entryBudgetDrift name dirN n)
  else
    .ok (writeClusters geometry firstClus n entries img)

/-- The recursion of `write_all_dir_entries` into the directories. -/
def writeNodesDirEntries
    (geometry : Geometry) :
    Nodes → List UInt8 → Except PyError (List UInt8)
  | .nil, img =>
      .ok img
  | .file _ _ _ rest, img =>
      writeNodesDirEntries geometry rest img
  | .dir name parentClus firstClus dirN children rest, img => do
      let img ← writeDirEntries geometry name parentClus firstClus dirN
        children img
      let img ← writeNodesDirEntries geometry children img
      writeNodesDirEntries geometry rest img

/-- `write_all_dir_entries`, from the root on. -/
def writeAllDirEntries
    (geometry : Geometry)
    (root : Root)
    (img : List UInt8) :
    Except PyError (List UInt8) := do
  let img ← writeDirEntries geometry [] 0 root.firstClus root.dirN
    root.children img
  writeNodesDirEntries geometry root.children img

/-- `write_files`. -/
def writeFiles (geometry : Geometry) : Nodes → List UInt8 → List UInt8
  | .nil, img =>
      img
  | .file _ content firstClus rest, img =>
      if firstClus ≠ 0 then
        let off := geometry.offset firstClus
        writeFiles geometry rest
          (splice img off (off + content.length) content)
      else
        writeFiles geometry rest img
  | .dir _ _ _ _ children rest, img =>
      writeFiles geometry rest (writeFiles geometry children img)

/-- `struct.pack_into` of one FAT entry. -/
def packEntry
    (rawFat : List UInt8)
    (c nxt : Nat) :
    Except PyError (List UInt8) := do
  let field ← pack 4 nxt
  if c * 4 + 4 ≤ rawFat.length then
    .ok (splice rawFat (c * 4) (c * 4 + 4) field)
  else
    .error .structError

/-- The loop over `fat.items()`. -/
def packEntries :
    List (Nat × Nat) → List UInt8 → Except PyError (List UInt8)
  | [], rawFat =>
      .ok rawFat
  | (c, nxt) :: rest, rawFat => do
      let rawFat ← packEntry rawFat c nxt
      packEntries rest rawFat

/-- The bytes of one FAT copy. -/
def packFat
    (fatSec : Nat)
    (fat : List (Nat × Nat)) :
    Except PyError (List UInt8) := do
  let rawFat ← packEntries fat (List.replicate (fatSec * sector) 0)
  let rawFat ← packEntry rawFat 0 fat0
  packEntry rawFat 1 eoc

/-- What a run of `create_image` has computed and written. -/
structure Created where
  geometry : Geometry
  root : Root
  alloc : Allocator
  img : List UInt8

/-- The buffer with the boot sector, FSInfo and the backup boot sector. -/
def writeBoot (geometry : Geometry) (bpb : List UInt8) : List UInt8 :=
  let img := List.replicate (geometry.totSec * sector) 0
  let img := splice img 0 sector bpb
  let img := splice img sector (2 * sector) fsinfoBytes
  splice img (6 * sector) (7 * sector) bpb

/-- The offset of a FAT copy. -/
def Geometry.fatOffset (geometry : Geometry) (copy : Nat) : Nat :=
  (rsvdSecCnt + copy * geometry.fatSec) * sector

/-- The loop over the FAT copies. -/
def writeFats
    (geometry : Geometry)
    (rawFat img : List UInt8) :
    List UInt8 :=
  (List.range numFats).foldl
    (fun img copy =>
      let off := geometry.fatOffset copy
      splice img off (off + rawFat.length) rawFat)
    img

/-- `create_image`. -/
def createImage (source : Nodes) (sizeMb : Int) : Except PyError Created := do
  let geometry ← createGeometry sizeMb
  let bpb ← bpbBytes geometry.totSec rsvdSecCnt numFats geometry.fatSec
    rootClus
  let img := writeBoot geometry bpb
  let (root, alloc) ← layoutRoot source
  let img ← writeAllDirEntries geometry root img
  let img := writeFiles geometry root.children img
  let rawFat ← packFat geometry.fatSec alloc.fat
  return ⟨geometry, root, alloc, writeFats geometry rawFat img⟩

end UefiMount.MkFatImg
