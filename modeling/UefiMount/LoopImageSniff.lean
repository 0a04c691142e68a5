import UefiMount.LoopReadFidelity
import UefiMount.LoopCreateOwnership

namespace UefiMount

/-!
# What the content sniff finds

`LoopSniff` over the file protocol instead of over given answers, and what its
six sectors say about the volume descriptors of the image.  The size check
lets the sector of the primary descriptor fall behind the end of the file, a
file that ends inside the six sectors is not looked at, and every sector is
compared with a part of the identifiers only.
-/

section Model

variable {FileSystem : Type}

/-- The comparisons of `LoopSniff` with the six sectors from sector 16 on. -/
def sniffTags (buffer : List UInt8) : LoopSniff where
  iso9660 := sectorTag buffer 0 == ascii "CD001"
  udf :=
    sectorTag buffer 0 == ascii "BEA01" ||
      sectorTag buffer 1 == ascii "BEA01" ||
      sectorTag buffer 2 == ascii "NSR02" ||
      sectorTag buffer 2 == ascii "NSR03" ||
      sectorTag buffer 3 == ascii "NSR02" ||
      sectorTag buffer 3 == ascii "NSR03"

/-- What `LoopSniff` stores, and the file state behind it. -/
structure FileSniff (FileSystem : Type) where
  sniff : LoopSniff
  fileSystem : FileSystem

/-- `LoopSniff`, reading the file. -/
def loopSniffFile
    (files : FileProtocol FileSystem)
    (file : FileHandle)
    (fileSystem : FileSystem) :
    FileSniff FileSystem :=
  let finish (sniff : LoopSniff) (fileSystem : FileSystem) :
      FileSniff FileSystem :=
    ⟨sniff, (files.setPosition file 0 fileSystem).2⟩
  let (status, fileSystem) :=
    files.setPosition file (16 * loopBlockSize) fileSystem
  if status.isError then
    finish ⟨false, false⟩ fileSystem
  else
    let (status, buffer, fileSystem) :=
      files.read file (UInt64.ofNat loopSniffSize) fileSystem
    if status.isError ∨ buffer.length ≠ loopSniffSize then
      finish ⟨false, false⟩ fileSystem
    else
      finish (sniffTags buffer) fileSystem

/-- The read of `LoopSniff`, behind its seek. -/
def sniffRead
    (files : FileProtocol FileSystem)
    (file : FileHandle)
    (fileSystem : FileSystem) :
    EfiStatus × List UInt8 × FileSystem :=
  files.read file (UInt64.ofNat loopSniffSize)
    (files.setPosition file (16 * loopBlockSize) fileSystem).2

/-- The answers of one `LoopCreate` are those of the file that it opens. -/
structure LoopCreateOutcomes.Observes
    (outcomes : LoopCreateOutcomes)
    (files : FileProtocol FileSystem)
    (content : FileHandle → List UInt8)
    (fileSystem : FileSystem) : Prop where
  fileSize :
    (content outcomes.file).length = outcomes.fileSize.toNat
  setPosition :
    outcomes.setPosition =
      (files.setPosition outcomes.file (16 * loopBlockSize) fileSystem).1
  read :
    outcomes.read = (sniffRead files outcomes.file fileSystem).1
  buffer :
    outcomes.buffer = (sniffRead files outcomes.file fileSystem).2.1

/-- The sniff over given answers is the one that reads the file. -/
theorem loopSniff_eq_loopSniffFile
    {outcomes : LoopCreateOutcomes}
    {files : FileProtocol FileSystem}
    {content : FileHandle → List UInt8}
    {fileSystem : FileSystem}
    (observes : outcomes.Observes files content fileSystem) :
    loopSniff outcomes =
      (loopSniffFile files outcomes.file fileSystem).sniff := by
  simp only [loopSniff, loopSniffFile, observes.setPosition, observes.read,
    observes.buffer, sniffRead]
  split
  case isTrue refused =>
    split
    · rfl
    · rename_i positioned
      rw [if_pos (refused.resolve_left positioned)]
  case isFalse accepted =>
    obtain ⟨positioned, readable⟩ := not_or.mp accepted
    rw [if_neg positioned, if_neg readable]
    rfl

end Model

section Descriptors

/-- The whole sector lies in the file. -/
def SectorIn (content : List UInt8) (sector : Nat) : Prop :=
  (sector + 1) * 2048 ≤ content.length

/-- The sectors in front of one that lies in the file do, too. -/
theorem SectorIn.mono
    {content : List UInt8}
    {sector last : Nat}
    (inside : SectorIn content last)
    (before : sector ≤ last) :
    SectorIn content sector :=
  Nat.le_trans (Nat.mul_le_mul_right 2048 (Nat.succ_le_succ before)) inside

/-- The identifiers of a UDF volume recognition sequence. -/
def IsUdfTag (tag : List UInt8) : Prop :=
  tag = ascii "BEA01" ∨ tag = ascii "NSR02" ∨ tag = ascii "NSR03"

/-- One of the sectors 16 to 19 lies in the file and holds a UDF descriptor. -/
def HasUdfDescriptor (content : List UInt8) : Prop :=
  ∃ sector, 16 ≤ sector ∧ sector ≤ 19 ∧
    SectorIn content sector ∧ IsUdfTag (sectorTag content sector)

/-- The pairs of sector and identifier that `LoopSniff` compares. -/
def ComparesTag (sector : Nat) (tag : List UInt8) : Prop :=
  ((sector = 16 ∨ sector = 17) ∧ tag = ascii "BEA01") ∨
    ((sector = 18 ∨ sector = 19) ∧
      (tag = ascii "NSR02" ∨ tag = ascii "NSR03"))

/-- `LoopSniff` compares one of the descriptors of the file. -/
def HasComparedDescriptor (content : List UInt8) : Prop :=
  ∃ sector, 16 ≤ sector ∧ sector ≤ 19 ∧
    ComparesTag sector (sectorTag content sector)

/-- The descriptors of a file that the sniff gets right. -/
structure SniffCovers (content : List UInt8) : Prop where
  /-- The primary volume descriptor fits. -/
  primary :
    SectorIn content 16
  /-- A file that ends inside the six sectors holds no descriptor. -/
  short :
    ¬ SectorIn content 21 →
    sectorTag content 16 ≠ ascii "CD001" ∧ ¬ HasUdfDescriptor content
  /-- Not all UDF descriptors of a longer file lie in the wrong sector. -/
  whole :
    SectorIn content 21 →
    HasUdfDescriptor content →
    HasComparedDescriptor content

/-- A window of a window is a window. -/
theorem take_drop_take_drop
    (bytes : List UInt8)
    {start length offset size : Nat}
    (inside : offset + size ≤ length) :
    ((((bytes.drop start).take length).drop offset).take size) =
      (bytes.drop (start + offset)).take size := by
  rw [List.drop_take, List.take_take, List.drop_drop,
    Nat.min_eq_left (by omega)]

/-- A sector of the window that is read is a sector of the file. -/
theorem sectorTag_window
    (content : List UInt8)
    {sector : Nat}
    (inside : sector < 6) :
    sectorTag ((content.drop (16 * 2048)).take loopSniffSize) sector =
      sectorTag content (16 + sector) := by
  have size : loopSniffSize = 6 * 2048 := rfl
  have block : loopBlockSize.toNat = 2048 := rfl
  rw [sectorTag, sectorTag, size, block, Nat.add_mul, Nat.add_assoc]
  exact take_drop_take_drop content (by omega)

/-- What the sniff says about a file that holds all six sectors. -/
theorem sniffTags_window (content : List UInt8) :
    let sniff :=
      sniffTags ((content.drop (16 * 2048)).take loopSniffSize)
    (sniff.iso9660 = true ↔ sectorTag content 16 = ascii "CD001") ∧
      (sniff.udf = true ↔ HasComparedDescriptor content) := by
  have places (holds : Nat → Prop) :
      (∃ sector, 16 ≤ sector ∧ sector ≤ 19 ∧ holds sector) ↔
        holds 16 ∨ holds 17 ∨ holds 18 ∨ holds 19 := by
    constructor
    · rintro ⟨sector, first, last, holding⟩
      have place :
          sector = 16 ∨ sector = 17 ∨ sector = 18 ∨ sector = 19 := by
        omega
      rcases place with rfl | rfl | rfl | rfl
      · exact .inl holding
      · exact .inr (.inl holding)
      · exact .inr (.inr (.inl holding))
      · exact .inr (.inr (.inr holding))
    · rintro (holding | holding | holding | holding)
      · exact ⟨16, by decide, by decide, holding⟩
      · exact ⟨17, by decide, by decide, holding⟩
      · exact ⟨18, by decide, by decide, holding⟩
      · exact ⟨19, by decide, by decide, holding⟩
  have first := sectorTag_window content (by decide : 0 < 6)
  have second := sectorTag_window content (by decide : 1 < 6)
  have third := sectorTag_window content (by decide : 2 < 6)
  have fourth := sectorTag_window content (by decide : 3 < 6)
  simp only [sniffTags, first, second, third, fourth, beq_iff_eq,
    Bool.or_eq_true, HasComparedDescriptor, places, ComparesTag,
    Nat.reduceAdd, Nat.reduceEqDiff, or_false, or_true, true_and,
    false_and, false_or, or_self, or_assoc]

/-- A compared descriptor of a file that holds all six sectors is one. -/
theorem HasComparedDescriptor.hasUdfDescriptor
    {content : List UInt8}
    (whole : SectorIn content 21)
    (compared : HasComparedDescriptor content) :
    HasUdfDescriptor content := by
  obtain ⟨sector, first, last, tag⟩ := compared
  refine ⟨sector, first, last, whole.mono (by omega), ?_⟩
  rcases tag with ⟨_, tag⟩ | ⟨_, tag | tag⟩
  · exact .inl tag
  · exact .inr (.inl tag)
  · exact .inr (.inr tag)

end Descriptors

section Files

variable {FileSystem : Type}
  {files : FileProtocol FileSystem}
  {content : FileHandle → List UInt8}
  {position : FileSystem → FileHandle → Nat}

/-- The read of the sniff gets the window, as far as the file has it. -/
theorem sniffRead_faithful
    (faithful : files.Faithful content position)
    {file : FileHandle}
    (large : 16 * 2048 ≤ (content file).length)
    (fileSystem : FileSystem) :
    (sniffRead files file fileSystem).1 = .success ∧
      (sniffRead files file fileSystem).2.1 =
        ((content file).drop (16 * 2048)).take loopSniffSize := by
  have size : (UInt64.ofNat loopSniffSize).toNat = loopSniffSize := rfl
  have start : (16 * loopBlockSize : UInt64).toNat = 16 * 2048 := rfl
  have positioned :
      position (files.setPosition file (16 * loopBlockSize) fileSystem).2
        file = 16 * 2048 := by
    rw [← start]
    exact faithful.setPosition_position _ _ _ (by decide)
  have within :
      position (files.setPosition file (16 * loopBlockSize) fileSystem).2
        file ≤ (content file).length := by
    rw [positioned]
    exact large
  have bytes :=
    faithful.read_bytes file (UInt64.ofNat loopSniffSize) _ within
  rw [positioned, size] at bytes
  exact ⟨faithful.read_status _ _ _ within, bytes⟩

/-- The sniff looks at files that hold all six sectors, and rewinds. -/
theorem loopSniffFile_faithful
    (faithful : files.Faithful content position)
    {file : FileHandle}
    (large : 16 * 2048 ≤ (content file).length)
    (fileSystem : FileSystem) :
    let sniffed := loopSniffFile files file fileSystem
    (SectorIn (content file) 21 →
        sniffed.sniff =
          sniffTags (((content file).drop (16 * 2048)).take
            loopSniffSize)) ∧
      (¬ SectorIn (content file) 21 → sniffed.sniff = ⟨false, false⟩) ∧
      position sniffed.fileSystem file = 0 := by
  have six : loopSniffSize = 6 * 2048 := rfl
  have rewound (later : FileSystem) :
      position (files.setPosition file 0 later).2 file = 0 :=
    faithful.setPosition_position _ _ _ (by decide)
  obtain ⟨status, bytes⟩ := sniffRead_faithful faithful large fileSystem
  have full :
      (sniffRead files file fileSystem).2.1.length = loopSniffSize ↔
        SectorIn (content file) 21 := by
    rw [bytes, List.length_take, List.length_drop, six]
    unfold SectorIn
    omega
  have outcome :
      loopSniffFile files file fileSystem =
        let rewind :=
          (files.setPosition file 0
            (sniffRead files file fileSystem).2.2).2
        if (sniffRead files file fileSystem).2.1.length ≠
            loopSniffSize then
          ⟨⟨false, false⟩, rewind⟩
        else
          ⟨sniffTags (sniffRead files file fileSystem).2.1, rewind⟩ := by
    simp only [sniffRead] at status
    simp only [loopSniffFile, sniffRead, faithful.setPosition_status, status,
      EfiStatus.isError_success, Bool.false_eq_true, ↓reduceIte, false_or]
    rfl
  intro sniffed
  have whole : sniffed = _ := outcome
  by_cases inside : SectorIn (content file) 21
  · simp only [full.mpr inside, ne_eq, not_true_eq_false,
      ↓reduceIte] at whole
    rw [whole, bytes]
    exact ⟨fun _ => rfl, fun outside => absurd inside outside, rewound _⟩
  · simp only [mt full.mp inside, ne_eq, not_false_eq_true,
      ↓reduceIte] at whole
    rw [whole]
    exact ⟨fun isInside => absurd isInside inside, fun _ => rfl, rewound _⟩

/-- `LoopCreate` opens the image, stats it and accepts its size. -/
structure LoopCreateOutcomes.AcceptsSize
    (outcomes : LoopCreateOutcomes) : Prop where
  opened :
    outcomes.openFile.isError = false
  infoPool :
    outcomes.infoPool = true
  statted :
    outcomes.getInfo.isError = false
  large :
    ¬ outcomes.fileSize < loopMinSize

/-- Every creation that accepts the size reports its sniff. -/
theorem loopCreate_sniff
    {outcomes : LoopCreateOutcomes}
    (accepts : outcomes.AcceptsSize)
    (isoPath : Text)
    (session : Session) :
    (loopCreate outcomes isoPath session).1.sniff = loopSniff outcomes := by
  simp only [loopCreate, accepts.opened, accepts.infoPool, accepts.statted,
    if_neg accepts.large, Bool.not_true, Bool.false_eq_true, ↓reduceIte]
  split
  · rfl
  · simp only [loopCreateDevice]
    split
    · split
      · rfl
      · rfl
    · split
      · rfl
      · rfl

/-- The sector of the primary descriptor of a device can be read. -/
def PrimaryReadable
    (files : FileProtocol FileSystem)
    (content : FileHandle → List UInt8)
    (disk : LoopDisk) : Prop :=
  ∀ buffer fileSystem,
    let outcome :=
      loopReadBlocks files disk disk.media.mediaId 16 loopBlockSize
        (some buffer) fileSystem
    outcome.status = .success ∧
      ∃ after,
        outcome.buffer = some after ∧
          ∀ offset,
            offset < 2048 →
            (content disk.backingFile)[16 * 2048 + offset]? =
              some (after offset)

/--
The check of an image and its sniff agree with the descriptors in the file,
and the file is rewound.
-/
structure DescriptorsFound
    (files : FileProtocol FileSystem)
    (content : FileHandle → List UInt8)
    (position : FileSystem → FileHandle → Nat)
    (outcomes : LoopCreateOutcomes)
    (fileSystem : FileSystem)
    (created : LoopCreated × Session) : Prop where
  primary :
    SectorIn (content outcomes.file) 16
  readable :
    ∀ {handle disk},
      created.1.loopHandle = some handle →
      created.2.machine.dxe.diskAt handle = some disk →
      PrimaryReadable files content disk
  iso9660 :
    created.1.sniff.iso9660 = true ↔
      sectorTag (content outcomes.file) 16 = ascii "CD001"
  udf :
    created.1.sniff.udf = true ↔ HasUdfDescriptor (content outcomes.file)
  rewound :
    position (loopSniffFile files outcomes.file fileSystem).fileSystem
      outcomes.file = 0

/-- Block 16 of a device over a file that holds sector 16 is readable. -/
theorem primaryReadable
    (faithful : files.Faithful content position)
    {outcomes : LoopCreateOutcomes}
    (sized :
      (content outcomes.file).length = outcomes.fileSize.toNat)
    (large : ¬ outcomes.fileSize < loopMinSize)
    {disk : LoopDisk}
    (describes : outcomes.Describes disk)
    (primary : SectorIn (content outcomes.file) 16) :
    PrimaryReadable files content disk := by
  intro buffer fileSystem outcome
  have geometry :
      LoopGeometry (content disk.backingFile) disk.lastBlock := {
    sized :=
      ⟨outcomes.fileSize, by rw [describes.backingFile, sized],
        UInt64.not_lt.mp large, describes.lastBlock⟩
  }
  obtain ⟨blocks, _⟩ := geometry.blocks_eq
  have sixteen : (16 : UInt64).toNat = 16 := rfl
  have block : loopBlockSize.toNat = 2048 := rfl
  unfold SectorIn at primary
  rw [← describes.backingFile] at primary
  have accepted :
      AcceptedRead (content disk.backingFile) disk disk.media.mediaId 16
        loopBlockSize (some buffer) := {
    mediaId := rfl
    buffer := Option.some_ne_none buffer
    wholeBlocks := by rw [block]
    start := by omega
    range := by omega
  }
  have fidelity := loopReadBlocks_fidelity faithful geometry
    disk.media.mediaId 16 loopBlockSize (some buffer) fileSystem
  obtain ⟨_, after, _, delivered, bytes, _⟩ := fidelity.delivers accepted
  exact ⟨fidelity.succeeds.mpr accepted, after, delivered, bytes⟩

/-- A device that `LoopCreate` reports is one that it has asked for. -/
theorem loopCreate_describes
    {outcomes : LoopCreateOutcomes}
    (accepts : outcomes.AcceptsSize)
    {session : Session}
    (wellFormed : session.machine.dxe.WellFormed)
    (fresh : outcomes.create.Fresh session.machine.dxe)
    {isoPath : Text}
    {handle : Handle}
    {disk : LoopDisk}
    (isNew :
      (loopCreate outcomes isoPath session).1.loopHandle = some handle)
    (atHandle :
      (loopCreate outcomes isoPath session).2.machine.dxe.diskAt handle =
        some disk) :
    outcomes.Describes disk := by
  simp only [loopCreate, accepts.opened, accepts.infoPool, accepts.statted,
    if_neg accepts.large, Bool.not_true, Bool.false_eq_true, ↓reduceIte]
    at isNew atHandle
  have warned : (session.warnTail outcomes).machine = session.machine := by
    rw [Session.warnTail_eq]
  rw [← warned] at wellFormed fresh
  cases resolved : mountIsoFileDevicePath outcomes with
  | none =>
      simp [resolved] at isNew
  | some fileDevicePath =>
      simp only [resolved] at isNew atHandle
      rcases loopCreateDevice_devices wellFormed fresh fileDevicePath with
        ⟨_, other, atNew, _, describes, added⟩ | ⟨_, noHandle, _⟩
      · obtain rfl := Option.some.inj (atNew.symm.trans isNew)
        rw [added, Function.update_self] at atHandle
        obtain rfl := Option.some.inj atHandle
        exact describes
      · rw [noHandle] at isNew
        cases isNew

/--
The check and the sniff agree with the descriptors in the file exactly when
the primary one fits, a file that ends inside the six sectors holds none, and
a longer one has one in its right sector or none at all.
-/
theorem loopCreate_descriptors_iff
    (faithful : files.Faithful content position)
    {outcomes : LoopCreateOutcomes}
    {session : Session}
    {fileSystem : FileSystem}
    (wellFormed : session.machine.dxe.WellFormed)
    (fresh : outcomes.create.Fresh session.machine.dxe)
    (accepts : outcomes.AcceptsSize)
    (observes : outcomes.Observes files content fileSystem)
    (isoPath : Text) :
    DescriptorsFound files content position outcomes fileSystem
        (loopCreate outcomes isoPath session) ↔
      SniffCovers (content outcomes.file) := by
  have sized := observes.fileSize
  have large : 16 * 2048 ≤ (content outcomes.file).length := by
    have accepted := accepts.large
    rw [UInt64.not_lt, UInt64.le_iff_toNat_le] at accepted
    rw [sized]
    exact accepted
  obtain ⟨looked, skipped, rewound⟩ :=
    loopSniffFile_faithful faithful large fileSystem
  have sniffs :
      (loopCreate outcomes isoPath session).1.sniff =
        (loopSniffFile files outcomes.file fileSystem).sniff := by
    rw [loopCreate_sniff accepts, loopSniff_eq_loopSniffFile observes]
  constructor
  · intro found
    obtain ⟨primary, _, iso9660, udf, _⟩ := found
    rw [sniffs] at iso9660 udf
    refine ⟨primary, ?_, ?_⟩
    · intro short
      rw [skipped short] at iso9660 udf
      exact ⟨fun isIso => Bool.false_ne_true (iso9660.mpr isIso),
        fun isUdf => Bool.false_ne_true (udf.mpr isUdf)⟩
    · intro whole isUdf
      rw [looked whole] at udf
      exact (sniffTags_window _).2.mp (udf.mpr isUdf)
  · intro covers
    have tags :
        ((loopCreate outcomes isoPath session).1.sniff.iso9660 = true ↔
            sectorTag (content outcomes.file) 16 = ascii "CD001") ∧
          ((loopCreate outcomes isoPath session).1.sniff.udf = true ↔
            HasUdfDescriptor (content outcomes.file)) := by
      rw [sniffs]
      by_cases whole : SectorIn (content outcomes.file) 21
      · rw [looked whole]
        obtain ⟨iso9660, udf⟩ := sniffTags_window (content outcomes.file)
        refine ⟨iso9660, udf.trans ⟨?_, covers.whole whole⟩⟩
        exact fun compared => compared.hasUdfDescriptor whole
      · obtain ⟨noIso, noUdf⟩ := covers.short whole
        rw [skipped whole]
        exact ⟨iff_of_false Bool.false_ne_true noIso,
          iff_of_false Bool.false_ne_true noUdf⟩
    exact {
      primary := covers.primary
      readable := fun isNew atHandle =>
        primaryReadable faithful sized accepts.large
          (loopCreate_describes accepts wellFormed fresh isNew atHandle)
          covers.primary
      iso9660 := tags.1
      udf := tags.2
      rewound := rewound
    }

/-- With both kinds of descriptors in the file both are reported. -/
theorem DescriptorsFound.sniff_eq
    {outcomes : LoopCreateOutcomes}
    {fileSystem : FileSystem}
    {created : LoopCreated × Session}
    (found :
      DescriptorsFound files content position outcomes fileSystem created)
    (iso : sectorTag (content outcomes.file) 16 = ascii "CD001")
    (udf : HasUdfDescriptor (content outcomes.file)) :
    created.1.sniff = ⟨true, true⟩ := by
  have isIso := found.iso9660.mpr iso
  have isUdf := found.udf.mpr udf
  generalize created.1.sniff = sniff at isIso isUdf ⊢
  cases sniff
  exact congrArg₂ LoopSniff.mk isIso isUdf

end Files

section Examples

/-- Every file handle opens the one image. -/
def imageFiles (image : List UInt8) : FileHandle → List UInt8 :=
  fun _ => image

/-- The answers of a creation over an image. -/
def imageCreate (image : List UInt8) : LoopCreateOutcomes :=
  workingCreate (UInt64.ofNat image.length)
    ((image.drop (16 * 2048)).take loopSniffSize)

theorem imageCreate_acceptsSize
    {image : List UInt8}
    (large : 16 * 2048 ≤ image.length)
    (small : image.length < 2 ^ 64) :
    (imageCreate image).AcceptsSize where
  opened := rfl
  infoPool := rfl
  statted := rfl
  large := by
    rw [UInt64.not_lt, UInt64.le_iff_toNat_le]
    exact large.trans_eq (UInt64.toNat_ofNat_of_lt' small).symm

theorem imageCreate_observes
    {image : List UInt8}
    (large : 16 * 2048 ≤ image.length)
    (small : image.length < 2 ^ 64) :
    (imageCreate image).Observes (memoryFiles (imageFiles image))
      (imageFiles image) (fun _ => 0) := by
  have window :=
    @sniffRead_faithful _ _ _ _ (memoryFiles_faithful (imageFiles image))
      (imageCreate image).file large (fun _ => 0)
  exact {
    fileSize := (UInt64.toNat_ofNat_of_lt' small).symm
    setPosition := rfl
    read := window.1.symm
    buffer := window.2.symm
  }

/-- A sector with an identifier behind its first byte. -/
def tagSector (tag : String) : List UInt8 :=
  0 :: ascii tag ++ List.replicate 2042 0

/-- Sixteen empty sectors, and three with an identifier before three more. -/
@[irreducible] def bridgeImage : List UInt8 :=
  List.replicate (16 * 2048) 0 ++
    (tagSector "CD001" ++ (tagSector "BEA01" ++
      (tagSector "NSR02" ++ List.replicate (3 * 2048) 0)))

theorem length_tagSector (tag : String) :
    (tagSector tag).length = tag.toList.length + 2043 := by
  simp only [tagSector, ascii, List.length_append, List.length_cons,
    List.length_map, List.length_replicate]

theorem length_bridgeImage : bridgeImage.length = 45056 := by
  simp only [bridgeImage, List.length_append, List.length_replicate,
    length_tagSector]
  rfl

/-- Behind whole sectors the sectors are those of the rest. -/
theorem sectorTag_append
    {front : List UInt8}
    {sectors : Nat}
    (whole : front.length = sectors * 2048)
    (rest : List UInt8)
    (sector : Nat) :
    sectorTag (front ++ rest) (sectors + sector) =
      sectorTag rest sector := by
  have block : loopBlockSize.toNat = 2048 := rfl
  rw [sectorTag, sectorTag, block, Nat.add_mul, Nat.add_assoc, ← whole,
    List.drop_length_add_append]

theorem sectorTag_bridgeImage :
    sectorTag bridgeImage 16 = ascii "CD001" ∧
      sectorTag bridgeImage 17 = ascii "BEA01" := by
  have front : (List.replicate (16 * 2048) (0 : UInt8)).length = 16 * 2048 :=
    List.length_replicate
  have behind := sectorTag_append front
    (tagSector "CD001" ++ (tagSector "BEA01" ++
      (tagSector "NSR02" ++ List.replicate (3 * 2048) 0)))
  rw [bridgeImage]
  constructor
  · exact (behind 0).trans (by decide)
  · refine (behind 1).trans ?_
    exact (@sectorTag_append _ 1 (by decide +kernel) _ 0).trans (by decide)

theorem loopCreate_descriptors_iff_bridge :
    let created :=
      loopCreate (imageCreate bridgeImage) (wide "disk.iso") firstMount
    DescriptorsFound (memoryFiles (imageFiles bridgeImage))
        (imageFiles bridgeImage) (fun positions => positions)
        (imageCreate bridgeImage) (fun _ => 0) created ∧
      created.1.sniff = ⟨true, true⟩ := by
  intro created
  have large : 16 * 2048 ≤ bridgeImage.length := by
    simp [length_bridgeImage]
  have small : bridgeImage.length < 2 ^ 64 := by
    simp [length_bridgeImage]
  have last : SectorIn bridgeImage 21 := length_bridgeImage.ge
  obtain ⟨iso, udf⟩ := sectorTag_bridgeImage
  have covers : SniffCovers bridgeImage := {
    primary := last.mono (by decide)
    short := fun cut => absurd last cut
    whole := fun _ _ => ⟨17, by decide, by decide, .inl ⟨.inr rfl, udf⟩⟩
  }
  have fresh := workingCreate_fresh (UInt64.ofNat bridgeImage.length)
    ((bridgeImage.drop (16 * 2048)).take loopSniffSize)
  have found :=
    (@loopCreate_descriptors_iff _ _ _ _
      (memoryFiles_faithful (imageFiles bridgeImage))
      (imageCreate bridgeImage) firstMount _ firstMount_wellFormed fresh
      (imageCreate_acceptsSize large small)
      (imageCreate_observes large small) (wide "disk.iso")).mpr covers
  exact ⟨found, found.sniff_eq iso
    ⟨17, by decide, by decide, last.mono (by decide), .inl udf⟩⟩

/-- An image of sixteen sectors is accepted: its last one is sector 15. -/
theorem loopCreate_descriptors_sixteenSectors :
    let image := List.replicate 32768 0
    (imageCreate image).AcceptsSize ∧
      (imageCreate image).Observes (memoryFiles (imageFiles image))
        (imageFiles image) (fun _ => 0) ∧
      ¬ DescriptorsFound (memoryFiles (imageFiles image))
        (imageFiles image) (fun positions => positions)
        (imageCreate image) (fun _ => 0)
        (loopCreate (imageCreate image) (wide "disk.iso") firstMount) := by
  intro image
  have size : image.length = 32768 := List.length_replicate
  have large : 16 * 2048 ≤ image.length := size.ge
  have small : image.length < 2 ^ 64 := by
    simp [size]
  refine ⟨imageCreate_acceptsSize large small,
    imageCreate_observes large small, ?_⟩
  intro found
  have primary : 17 * 2048 ≤ image.length := found.primary
  omega

end Examples

end UefiMount
