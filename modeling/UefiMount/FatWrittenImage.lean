import UefiMount.FatImagePasses

namespace UefiMount.MkFatImg

open BumpAllocation ByteBuffer

/-!
# The written image

What `create_image` has put into the buffer when it returns.  As long as only
files of whole clusters reach beyond the buffer of the directory pass, each
region and each area shows what has been written there; otherwise the buffer
does not even reach to the last cluster.
-/

section Geometry

/-- What `fat_sz_for` and the cluster check establish. -/
structure Geometry.Valid (geometry : Geometry) : Prop where
  fits :
    geometry.dataSec + geometry.clusCount * secPerClus ≤ geometry.totSec
  table :
    (geometry.clusCount + 2) * 4 ≤ geometry.fatSec * sector
  many :
    65525 ≤ geometry.clusCount

/-- The loop stops at a FAT size that suffices for the clusters it leaves. -/
theorem fatSzFrom_fixed (partTotSec fatSec : Int) :
    (fatSzFrom partTotSec fatSec).2 =
        clusWith partTotSec (fatSzFrom partTotSec fatSec).1 ∧
      needSec partTotSec (fatSzFrom partTotSec fatSec).1 ≤
        (fatSzFrom partTotSec fatSec).1 ∧
      fatSec ≤ (fatSzFrom partTotSec fatSec).1 := by
  induction fatSec using fatSzFrom.induct partTotSec with
  | case1 fatSec enough =>
      rw [fatSzFrom, if_pos enough]
      exact ⟨rfl, enough, Int.le_refl _⟩
  | case2 fatSec short inductionHypothesis =>
      rw [fatSzFrom, if_neg short]
      obtain ⟨clusters, enough, atLeast⟩ := inductionHypothesis
      exact ⟨clusters, enough, by omega⟩

theorem createGeometry_valid
    {sizeMb : Int}
    {geometry : Geometry}
    (created : createGeometry sizeMb = .ok geometry) :
    geometry.Valid := by
  have fixed := fatSzFrom_fixed (sizeMb * 1024 * 1024 / sector) 1
  cases found : fatSzFrom (sizeMb * 1024 * 1024 / sector) 1 with
  | mk fatSec clusCount =>
      rw [found] at fixed
      obtain ⟨clusters, enough, atLeast⟩ := fixed
      simp only [createGeometry, fatSzFor, found] at created
      split at created
      · cases created
      case isFalse many =>
        obtain rfl := Except.ok.inj created
        simp only [needSec, clusWith, fat32MinClusters, rsvdSecCnt, numFats,
          secPerClus, sector] at *
        constructor
        · simp only [Geometry.dataSec, rsvdSecCnt, numFats, secPerClus]
          omega
        · simp only [sector]
          omega
        · dsimp only
          omega

variable {geometry : Geometry}

/-- The boot sectors lie before the FAT copies, and these before the data. -/
theorem Geometry.Valid.regions (valid : geometry.Valid) :
    7 * sector ≤ geometry.fatOffset 0 ∧
      geometry.fatOffset 1 = geometry.fatOffset 0 + geometry.fatSec * sector ∧
      geometry.dataStart = geometry.fatOffset 1 + geometry.fatSec * sector ∧
      geometry.dataStart ≤ geometry.totSec * sector := by
  have fits := valid.fits
  simp only [fatOffset, dataStart, dataSec, rsvdSecCnt, numFats, secPerClus,
    sector] at *
  omega

end Geometry

section BootSectors

/-- The patches of the boot sector, FSInfo and the backup boot sector. -/
def bootPatches (boot : List UInt8) : List (Patch UInt8) :=
  [⟨6 * sector, boot⟩, ⟨sector, fsinfoBytes⟩, ⟨0, boot⟩]

/-- Each boot sector brings one byte more than its slice has. -/
theorem writeBoot_shows
    {geometry : Geometry}
    (large : 7 * sector ≤ geometry.totSec * sector)
    {boot : List UInt8}
    (length : boot.length = sector) :
    Shows 0 (bootPatches boot) (writeBoot geometry (boot ++ [0])) ∧
      (writeBoot geometry (boot ++ [0])).length =
        geometry.totSec * sector + 2 := by
  let blank := List.replicate (geometry.totSec * sector) (0 : UInt8)
  let booted := splice blank 0 sector (boot ++ [0])
  let informed := splice booted sector (2 * sector) fsinfoBytes
  have room : blank.length = geometry.totSec * sector :=
    List.length_replicate ..
  have bootedLength : booted.length = geometry.totSec * sector + 1 := by
    rw [length_splice, List.length_append, length, List.length_singleton]
    omega
  have informedLength :
      informed.length = geometry.totSec * sector + 1 := by
    rw [length_splice, length_fsinfoBytes]
    omega
  have bootedShows : Shows 0 [⟨0, boot⟩] booted := by
    have written := (Shows.fresh (geometry.totSec * sector)).splice_blank
      (show 0 + sector ≤ blank.length by omega) (boot ++ [0]) (by simp)
    rw [Nat.zero_add] at written
    exact written.congr (patched_trim boot 1 (by simp))
  have informedShows :
      Shows 0 [⟨sector, fsinfoBytes⟩, ⟨0, boot⟩] informed := by
    have written := bootedShows.splice
      (show sector ≤ booted.length by omega) fsinfoBytes
    rwa [length_fsinfoBytes, ← Nat.two_mul] at written
  have below :
      ∀ patch ∈ [⟨sector, fsinfoBytes⟩, ⟨0, boot⟩],
        Patch.stop patch ≤ 6 * sector := by
    simp only [List.forall_mem_cons, Patch.stop, length,
      length_fsinfoBytes]
    exact ⟨by decide, by decide, by simp⟩
  have written := informedShows.splice_blank
    (show 6 * sector + sector ≤ informed.length by omega) (boot ++ [0])
    below
  refine ⟨written.congr (patched_trim boot 1 below), ?_⟩
  rw [writeBoot, length_splice, List.length_append, length,
    List.length_singleton]
  change min (6 * sector) informed.length + _ +
    (informed.length - 7 * sector) = _
  omega

end BootSectors

section FatCopies

variable {geometry : Geometry} {rawFat img : List UInt8}

theorem packEntry_eq_ok
    {c nxt : Nat}
    {written : List UInt8} :
    packEntry rawFat c nxt = .ok written ↔
      nxt < 256 ^ 4 ∧ c * 4 + 4 ≤ rawFat.length ∧
        written = splice rawFat (c * 4) (c * 4 + 4)
          (LittleEndian.bytes 4 nxt) := by
  simp only [packEntry, bind_eq_ok, pack_eq_ok]
  constructor
  · rintro ⟨_, ⟨fits, rfl⟩, stored⟩
    split at stored
    case isTrue inside =>
      exact ⟨fits, inside, (Except.ok.inj stored).symm⟩
    case isFalse =>
      cases stored
  · rintro ⟨fits, inside, rfl⟩
    exact ⟨_, ⟨fits, rfl⟩, by rw [if_pos inside]⟩

theorem length_packEntry
    {c nxt : Nat}
    {written : List UInt8}
    (packed : packEntry rawFat c nxt = .ok written) :
    written.length = rawFat.length := by
  obtain ⟨_, inside, rfl⟩ := packEntry_eq_ok.mp packed
  rw [length_splice, LittleEndian.length_bytes]
  omega

theorem length_packEntries
    {fat : List (Nat × Nat)}
    {written : List UInt8}
    (packed : packEntries fat rawFat = .ok written) :
    written.length = rawFat.length := by
  induction fat generalizing rawFat with
  | nil =>
      rw [← Except.ok.inj packed]
  | cons entry rest inductionHypothesis =>
      simp only [packEntries, bind_eq_ok] at packed
      obtain ⟨next, first, later⟩ := packed
      rw [inductionHypothesis later, length_packEntry first]

/-- A FAT copy has just the sectors of a FAT. -/
theorem length_packFat
    {fatSec : Nat}
    {fat : List (Nat × Nat)}
    (packed : packFat fatSec fat = .ok rawFat) :
    rawFat.length = fatSec * sector := by
  simp only [packFat, bind_eq_ok] at packed
  obtain ⟨entries, entriesPacked, marked, first, second⟩ := packed
  rw [length_packEntry second, length_packEntry first,
    length_packEntries entriesPacked, List.length_replicate]

/-- Entries that lie in the FAT are packed. -/
theorem packEntries_fits
    {fat : List (Nat × Nat)}
    (fits :
      ∀ entry ∈ fat,
        entry.1 * 4 + 4 ≤ rawFat.length ∧ entry.2 < 256 ^ 4) :
    ∃ written, packEntries fat rawFat = .ok written := by
  induction fat generalizing rawFat with
  | nil =>
      exact ⟨rawFat, rfl⟩
  | cons entry rest inductionHypothesis =>
      rw [List.forall_mem_cons] at fits
      obtain ⟨next, packed⟩ : ∃ next,
          packEntry rawFat entry.1 entry.2 = .ok next :=
        ⟨_, packEntry_eq_ok.mpr ⟨fits.1.2, fits.1.1, rfl⟩⟩
      obtain ⟨written, later⟩ := @inductionHypothesis next
        (by rw [length_packEntry packed]; exact fits.2)
      exact ⟨written, by simp [packEntries, packed, later, bind, Except.bind]⟩

theorem packFat_fits
    {fatSec : Nat}
    {fat : List (Nat × Nat)}
    (fits :
      ∀ entry ∈ fat,
        entry.1 * 4 + 4 ≤ fatSec * sector ∧ entry.2 < 256 ^ 4)
    (marks : 8 ≤ fatSec * sector) :
    ∃ rawFat, packFat fatSec fat = .ok rawFat := by
  obtain ⟨entries, packed⟩ :=
    @packEntries_fits (List.replicate (fatSec * sector) 0) fat
      (by rwa [List.length_replicate])
  have length := length_packEntries packed
  rw [List.length_replicate] at length
  obtain ⟨marked, first⟩ : ∃ marked, packEntry entries 0 fat0 = .ok marked :=
    ⟨_, packEntry_eq_ok.mpr ⟨by decide, by omega, rfl⟩⟩
  obtain ⟨rawFat, second⟩ : ∃ rawFat, packEntry marked 1 eoc = .ok rawFat :=
    ⟨_, packEntry_eq_ok.mpr
      ⟨by decide, by rw [length_packEntry first]; omega, rfl⟩⟩
  exact ⟨rawFat, by simp [packFat, packed, first, second, bind, Except.bind]⟩

/-- Entries that are packed lie in the FAT. -/
theorem packEntries_inside
    {fat : List (Nat × Nat)}
    {written : List UInt8}
    (packed : packEntries fat rawFat = .ok written) :
    ∀ entry ∈ fat, entry.1 * 4 + 4 ≤ rawFat.length := by
  induction fat generalizing rawFat with
  | nil =>
      exact fun entry member => (List.not_mem_nil member).elim
  | cons entry rest inductionHypothesis =>
      simp only [packEntries, bind_eq_ok] at packed
      obtain ⟨next, first, later⟩ := packed
      have inside := inductionHypothesis later
      rw [length_packEntry first] at inside
      exact List.forall_mem_cons.mpr
        ⟨(packEntry_eq_ok.mp first).2.1, inside⟩

theorem packFat_inside
    {fatSec : Nat}
    {fat : List (Nat × Nat)}
    (packed : packFat fatSec fat = .ok rawFat) :
    ∀ entry ∈ fat, entry.1 * 4 + 4 ≤ fatSec * sector := by
  simp only [packFat, bind_eq_ok] at packed
  obtain ⟨entries, entriesPacked, _⟩ := packed
  have inside := packEntries_inside entriesPacked
  rwa [List.length_replicate] at inside

/-- The patches of the FAT copies. -/
def fatPatches
    (geometry : Geometry)
    (rawFat : List UInt8) :
    List (Patch UInt8) :=
  [⟨geometry.fatOffset 1, rawFat⟩, ⟨geometry.fatOffset 0, rawFat⟩]

theorem writeFats_eq
    (geometry : Geometry)
    (rawFat img : List UInt8) :
    writeFats geometry rawFat img =
      splice
        (splice img (geometry.fatOffset 0)
          (geometry.fatOffset 0 + rawFat.length) rawFat)
        (geometry.fatOffset 1)
        (geometry.fatOffset 1 + rawFat.length) rawFat := by
  simp [writeFats, numFats, List.range_succ]

/-- The FAT copies keep a length that reaches to the data area. -/
theorem length_writeFats
    (valid : geometry.Valid)
    (length : rawFat.length = geometry.fatSec * sector) :
    (geometry.dataStart ≤ img.length →
      (writeFats geometry rawFat img).length = img.length) ∧
    (writeFats geometry rawFat img).length ≤
      max img.length geometry.dataStart := by
  obtain ⟨_, second, start, _⟩ := valid.regions
  simp only [writeFats_eq, length_splice]
  omega

theorem writeFats_shows
    (valid : geometry.Valid)
    (length : rawFat.length = geometry.fatSec * sector)
    (inside : geometry.dataStart ≤ img.length)
    {patches : List (Patch UInt8)}
    (shows : Shows 0 patches img) :
    Shows 0 (fatPatches geometry rawFat ++ patches)
      (writeFats geometry rawFat img) := by
  obtain ⟨_, second, start, _⟩ := valid.regions
  have first := shows.splice
    (show geometry.fatOffset 0 ≤ img.length by omega) rawFat
  rw [writeFats_eq]
  apply first.splice
  rw [length_splice]
  omega

end FatCopies

section WrittenImage

/-- The boot sector of a volume. -/
def Geometry.boot (geometry : Geometry) : List UInt8 :=
  bootSector geometry.totSec rsvdSecCnt numFats geometry.fatSec rootClus

/-- How `create_image` has come to the image. -/
structure Written
    (source : Nodes)
    (sizeMb : Int)
    (created : Created)
    (rawFat : List UInt8) : Prop where
  geometry :
    createGeometry sizeMb = .ok created.geometry
  totSec :
    created.geometry.totSec < 256 ^ 4
  fatSec :
    created.geometry.fatSec < 256 ^ 4
  laidOut :
    layoutRoot source = .ok (created.root, created.alloc)
  packed :
    packFat created.geometry.fatSec created.alloc.fat = .ok rawFat
  img :
    created.img =
      writeFats created.geometry rawFat
        (writeFileAreas created.geometry created.root.extents
          (writeDirAreas created.geometry created.root.extents
            (writeBoot created.geometry (created.geometry.boot ++ [0]))))

/-- The runs of the layout lie in the data area and are occupied. -/
theorem layoutRoot_occupied
    {source : Nodes}
    {root : Root}
    {alloc : Allocator}
    (laidOut : layoutRoot source = .ok (root, alloc)) :
    ∀ extent ∈ root.extents,
      Occupied extent ∧ rootClus ≤ extent.first := by
  obtain ⟨_, tiles, _, rootBudgeted, budgeted⟩ :=
    layoutRoot_allocated laidOut
  intro extent member
  refine ⟨?_, (tiles.bounds member).1⟩
  rcases List.mem_cons.mp member with rfl | member
  · exact rootBudgeted.occupied
  · exact budgeted.occupied extent member

/-- `create_image` returns normally in one way only. -/
theorem createImage_eq_ok
    {source : Nodes}
    {sizeMb : Int}
    {created : Created} :
    createImage source sizeMb = .ok created ↔
      ∃ rawFat, Written source sizeMb created rawFat := by
  have rest {geometry : Geometry} {root : Root} {alloc : Allocator}
      (laidOut : layoutRoot source = .ok (root, alloc)) (img : List UInt8) :
      writeFiles geometry root.children
          (writeDirAreas geometry root.extents img) =
        writeFileAreas geometry root.extents
          (writeDirAreas geometry root.extents img) := by
    obtain ⟨_, _, _, _, budgeted⟩ := layoutRoot_allocated laidOut
    have occupied := layoutRoot_occupied laidOut
    rw [writeFiles_budgeted budgeted fun extent member =>
      (occupied extent (List.mem_cons_of_mem _ member)).2]
    rfl
  constructor
  · intro made
    simp only [createImage, bind_eq_ok] at made
    obtain ⟨geometry, sized, bpb, booted, ⟨root, alloc⟩, laidOut, img,
      dirsWritten, rawFat, packed, joined⟩ := made
    obtain rfl := Except.ok.inj joined
    obtain ⟨⟨_, _, totSec, fatSec, _⟩, rfl⟩ := bpbBytes_eq_ok.mp booted
    rw [writeAllDirEntries_laidOut laidOut] at dirsWritten
    obtain rfl := Except.ok.inj dirsWritten
    refine ⟨rawFat, sized, totSec, fatSec, laidOut, packed, ?_⟩
    rw [rest laidOut]
    rfl
  · rintro ⟨rawFat, written⟩
    obtain ⟨geometry, root, alloc, img⟩ := created
    obtain ⟨sized, totSec, fatSec, laidOut, packed, image⟩ := written
    dsimp only at *
    subst image
    simp only [createImage, bind_eq_ok]
    refine ⟨geometry, sized, _, bpbBytes_eq_ok.mpr ⟨⟨by decide, by decide,
      totSec, fatSec, by decide⟩, rfl⟩, (root, alloc), laidOut, _,
      writeAllDirEntries_laidOut laidOut _ _, rawFat, packed, ?_⟩
    rw [rest laidOut]
    rfl

/-- A tree whose clusters have entries in the FAT is written. -/
theorem createImage_packs
    {source : Nodes}
    {sizeMb : Int}
    {geometry : Geometry}
    {root : Root}
    {alloc : Allocator}
    (sized : createGeometry sizeMb = .ok geometry)
    (totSec : geometry.totSec < 256 ^ 4)
    (laidOut : layoutRoot source = .ok (root, alloc))
    (inside : alloc.nextClus * 4 ≤ geometry.fatSec * sector)
    (small : alloc.nextClus ≤ 256 ^ 4) :
    ∃ rawFat img,
      Written source sizeMb ⟨geometry, root, alloc, img⟩ rawFat := by
  obtain ⟨fits, table, many⟩ := createGeometry_valid sized
  obtain ⟨_, tiles, fat, _, _⟩ := layoutRoot_allocated laidOut
  simp only [Geometry.dataSec, rsvdSecCnt, numFats, secPerClus, sector]
    at fits table inside
  obtain ⟨rawFat, packed⟩ :
      ∃ rawFat, packFat geometry.fatSec alloc.fat = .ok rawFat := by
    apply packFat_fits
    · intro entry member
      rw [fat] at member
      obtain ⟨extent, known, link⟩ := List.mem_flatMap.mp member
      obtain ⟨place, below, rfl⟩ := List.mem_map.mp link
      have within := (tiles.bounds known).2.2
      rw [List.mem_range] at below
      simp only [Extent.behind] at within
      simp only [Extent.link, sector, eoc]
      refine ⟨by omega, ?_⟩
      split <;> omega
    · simp only [sector]
      omega
  refine ⟨rawFat,
    writeFats geometry rawFat
      (writeFileAreas geometry root.extents
        (writeDirAreas geometry root.extents
          (writeBoot geometry (geometry.boot ++ [0])))), ?_⟩
  exact {
    geometry := sized
    totSec := totSec
    fatSec := by dsimp only; omega
    laidOut := laidOut
    packed := packed
    img := rfl
  }

/-- A tree that fits into the volume is written. -/
theorem createImage_fits
    {source : Nodes}
    {sizeMb : Int}
    {geometry : Geometry}
    {root : Root}
    {alloc : Allocator}
    (sized : createGeometry sizeMb = .ok geometry)
    (totSec : geometry.totSec < 256 ^ 4)
    (laidOut : layoutRoot source = .ok (root, alloc))
    (fits : alloc.nextClus ≤ geometry.clusCount + rootClus) :
    ∃ rawFat img,
      Written source sizeMb ⟨geometry, root, alloc, img⟩ rawFat := by
  obtain ⟨within, table, _⟩ := createGeometry_valid sized
  simp only [secPerClus, sector, rootClus] at within table fits
  apply createImage_packs sized totSec laidOut
  · simp only [sector]
    omega
  · omega

/-- The patches of the whole image. -/
def imagePatches
    (created : Created)
    (rawFat : List UInt8) :
    List (Patch UInt8) :=
  fatPatches created.geometry rawFat ++
    (filePatches created.geometry created.root.extents ++
      (dirPatches created.geometry created.root.extents ++
        bootPatches created.geometry.boot))

/-- The bytes of the volume that the boot sector declares. -/
def Created.volume (created : Created) : Nat :=
  created.geometry.totSec * sector

/-- Only files of whole clusters reach beyond the shortened buffer. -/
def Roomy (created : Created) : Prop :=
  ∀ extent ∈ created.root.extents,
    created.volume + 2 <
      created.geometry.offset extent.behind +
        dirShortage created.root.extents →
    FullFile extent

namespace Written

variable
  {source : Nodes}
  {sizeMb : Int}
  {created : Created}
  {rawFat : List UInt8}

theorem valid (written : Written source sizeMb created rawFat) :
    created.geometry.Valid :=
  createGeometry_valid written.geometry

theorem tiles (written : Written source sizeMb created rawFat) :
    Tiles rootClus created.root.extents created.alloc.nextClus :=
  (layoutRoot_allocated written.laidOut).2.1

/-- The root directory is the first run. -/
theorem root (written : Written source sizeMb created rawFat) :
    ∃ extent ∈ created.root.extents, extent.payload.isDir = true ∧
      extent.first = rootClus ∧ Occupied extent := by
  refine ⟨_, List.mem_cons_self .., rfl,
    (layoutRoot_allocated written.laidOut).1, ?_⟩
  exact (layoutRoot_occupied written.laidOut _ (List.mem_cons_self ..)).1

/-- The directory pass makes up for more than the boot sectors bring. -/
theorem shortened (written : Written source sizeMb created rawFat) :
    31 ≤ dirShortage created.root.extents := by
  obtain ⟨extent, member, isDir, _, occupied⟩ := written.root
  have less := shortage_le_dirShortage member isDir
  have short := occupied.stream_short isDir
  have odd := occupied.stream isDir
  simp only [shortage, bytesPerCluster, sector, secPerClus] at less short
  omega

/-- The boot sectors end before the data area. -/
theorem boot_shows (written : Written source sizeMb created rawFat) :
    (Shows 0 (bootPatches created.geometry.boot)
        (writeBoot created.geometry (created.geometry.boot ++ [0])) ∧
      (writeBoot created.geometry (created.geometry.boot ++ [0])).length =
        created.volume + 2) ∧
    ∀ patch ∈ bootPatches created.geometry.boot,
      patch.stop ≤ created.geometry.dataStart := by
  obtain ⟨first, second, start, inside⟩ := written.valid.regions
  have length :
      created.geometry.boot.length = sector :=
    length_bootSector ..
  refine ⟨writeBoot_shows (by omega) length, ?_⟩
  simp only [bootPatches, List.forall_mem_cons, Patch.stop, length,
    length_fsinfoBytes]
  exact ⟨by omega, by omega, by omega, by simp⟩

/-- In a roomy volume the image shows everything that has been written. -/
theorem shows
    (written : Written source sizeMb created rawFat)
    (roomy : Roomy created) :
    Shows 0 (imagePatches created rawFat) created.img ∧
      created.img.length =
        max (created.volume + 2 - dirShortage created.root.extents)
          (created.geometry.offset created.alloc.nextClus) := by
  have occupied := layoutRoot_occupied written.laidOut
  have area := fun extent member => (occupied extent member).1
  obtain ⟨⟨bootShows, bootLength⟩, bootEarlier⟩ := written.boot_shows
  have start := created.geometry.dataStart_le_offset rootClus
  have inside :
      ∀ extent ∈ created.root.extents,
        extent.payload.isDir = true →
        created.geometry.offset extent.behind +
          dirShortage created.root.extents ≤ created.volume + 2 := by
    intro extent member isDir
    refine Nat.not_lt.mp fun beyond => ?_
    exact Occupied.not_fullFile isDir (roomy extent member beyond)
  obtain ⟨dirShows, dirLength⟩ :=
    writeDirAreas_shows written.tiles (Nat.le_refl _) area bootShows
      (fun patch member => Nat.le_trans (bootEarlier patch member) start)
      (by rwa [bootLength])
  rw [bootLength] at dirLength
  obtain ⟨root, rootMember, rootDir, rootFirst, _⟩ := written.root
  have rootInside := inside root rootMember rootDir
  have rootReach := created.geometry.offset_mono
    (show rootClus ≤ root.behind by simp [Extent.behind, rootFirst])
  obtain ⟨fileShows, fileLength⟩ :=
    @writeFileAreas_shows created.geometry _ _ _ written.tiles
      (Nat.le_refl _) area _ _ dirShows (by omega)
      (fun extent member beyond => roomy extent member (by omega))
  have rawLength := length_packFat written.packed
  have reached : created.geometry.dataStart ≤
      (writeFileAreas created.geometry created.root.extents
        (writeDirAreas created.geometry created.root.extents
          (writeBoot created.geometry
            (created.geometry.boot ++ [0])))).length := by
    omega
  have kept := (length_writeFats written.valid rawLength).1 reached
  rw [written.img]
  refine ⟨writeFats_shows written.valid rawLength reached fileShows, ?_⟩
  omega

/-- In any other volume the image does not reach to the last cluster. -/
theorem short
    (written : Written source sizeMb created rawFat)
    (notRoomy : ¬ Roomy created) :
    created.img.length <
      created.geometry.offset created.alloc.nextClus := by
  have occupied := layoutRoot_occupied written.laidOut
  have area := fun extent member => (occupied extent member).1
  obtain ⟨⟨_, bootLength⟩, _⟩ := written.boot_shows
  obtain ⟨before, second, data, _⟩ := written.valid.regions
  have unreached :
      ∃ extent ∈ created.root.extents,
        (writeDirAreas created.geometry created.root.extents
            (writeBoot created.geometry
              (created.geometry.boot ++ [0]))).length <
          created.geometry.offset extent.behind ∧
        ¬ FullFile extent := by
    rcases @length_writeDirAreas created.geometry _ area
      (fun extent member => (occupied extent member).2)
      (writeBoot created.geometry (created.geometry.boot ++ [0])) with
      length | ⟨extent, member, isDir, beyond⟩
    · rw [bootLength] at length
      simp only [Roomy, not_forall] at notRoomy
      obtain ⟨extent, member, beyond, notFull⟩ := notRoomy
      have behind := created.geometry.dataStart_le_offset extent.behind
      have boots : 0 < 7 * sector := by decide
      exact ⟨extent, member, by omega, notFull⟩
    · exact ⟨extent, member, beyond, Occupied.not_fullFile isDir⟩
  have files := length_writeFileAreas_short written.tiles (Nat.le_refl _)
    area (.inr unreached)
  obtain ⟨root, rootMember, _, rootFirst, _⟩ := written.root
  obtain ⟨_, some, reached⟩ := written.tiles.bounds rootMember
  have start := created.geometry.dataStart_le_offset rootClus
  have next := created.geometry.offset_lt (Nat.le_refl rootClus)
    (show rootClus < created.alloc.nextClus by
      simp only [Extent.behind] at reached
      omega)
  have fats :=
    (@length_writeFats created.geometry rawFat
      (writeFileAreas created.geometry created.root.extents
        (writeDirAreas created.geometry created.root.extents
          (writeBoot created.geometry (created.geometry.boot ++ [0]))))
      written.valid (length_packFat written.packed)).2
  rw [written.img]
  omega

/-- The boot sectors and the FAT copies end before the data area. -/
theorem regions_end
    (written : Written source sizeMb created rawFat)
    {patch : Patch UInt8}
    (member :
      patch ∈ fatPatches created.geometry rawFat ++
        bootPatches created.geometry.boot) :
    patch.stop ≤ created.geometry.dataStart := by
  obtain ⟨_, second, data, _⟩ := written.valid.regions
  have rawLength := length_packFat written.packed
  rcases List.mem_append.mp member with fat | boot
  · simp only [fatPatches, List.mem_cons, List.not_mem_nil, or_false] at fat
    rcases fat with rfl | rfl <;> simp only [Patch.stop] <;> omega
  · exact written.boot_shows.2 patch boot

/-- A patch is that of an area, or it lies before the data area. -/
theorem patches
    {patch : Patch UInt8}
    (member : patch ∈ imagePatches created rawFat) :
    (∃ extent ∈ created.root.extents,
      patch = areaPatch created.geometry extent) ∨
    patch ∈ fatPatches created.geometry rawFat ++
      bootPatches created.geometry.boot := by
  have area {keep : Extent Area → Bool}
      (found : patch ∈
        ((created.root.extents.filter keep).map
          (areaPatch created.geometry)).reverse) :
      ∃ extent ∈ created.root.extents,
        patch = areaPatch created.geometry extent := by
    obtain ⟨extent, kept, rfl⟩ :=
      List.mem_map.mp (List.mem_reverse.mp found)
    exact ⟨extent, List.mem_of_mem_filter kept, rfl⟩
  simp only [imagePatches, List.mem_append] at member ⊢
  rcases member with fat | file | dir | boot
  · exact .inr (.inl fat)
  · exact .inl (area file)
  · exact .inl (area dir)
  · exact .inr (.inr boot)

/-- Each area of the image holds its content, filled up with zeros. -/
theorem area
    (written : Written source sizeMb created rawFat)
    (shows : Shows 0 (imagePatches created rawFat) created.img)
    {extent : Extent Area}
    (member : extent ∈ created.root.extents)
    (inside :
      created.geometry.offset extent.behind ≤ created.img.length) :
    slice created.img (created.geometry.offset extent.first)
        (extent.count * bytesPerCluster) =
      extent.payload.data ++
        List.replicate
          (extent.count * bytesPerCluster - extent.payload.data.length)
          0 := by
  have occupied := layoutRoot_occupied written.laidOut
  have ends {other : Extent Area}
      (known : other ∈ created.root.extents) :
      (areaPatch created.geometry other).stop ≤
        created.geometry.offset other.behind := by
    obtain ⟨own, data⟩ := occupied other known
    have fits := own.bounds.2.1
    have reach := created.geometry.offset_add data other.count
    simp only [Patch.stop, areaPatch, Extent.behind]
    omega
  obtain ⟨own, data⟩ := occupied extent member
  have reach := created.geometry.offset_add data extent.count
  have listed :
      areaPatch created.geometry extent ∈ imagePatches created rawFat := by
    simp only [imagePatches, List.mem_append]
    cases isDir : extent.payload.isDir with
    | true =>
        refine .inr (.inr (.inl (List.mem_reverse.mpr ?_)))
        exact List.mem_map_of_mem (List.mem_filter.mpr ⟨member, isDir⟩)
    | false =>
        refine .inr (.inl (List.mem_reverse.mpr ?_))
        exact List.mem_map_of_mem
          (List.mem_filter.mpr ⟨member, by simp [isDir]⟩)
  apply shows.slice_eq listed own.bounds.2.1
  · simp only [Extent.behind] at inside
    dsimp only [areaPatch]
    omega
  intro other otherMember
  rcases patches otherMember with ⟨another, known, rfl⟩ | other
  · rcases written.tiles.apart known member with rfl | before | behind
    · exact .inl rfl
    · right
      left
      exact Nat.le_trans (ends known) (created.geometry.offset_mono before)
    · right
      right
      have later := created.geometry.offset_mono behind
      simp only [Extent.behind] at later
      dsimp only [areaPatch]
      omega
  · right
    left
    exact Nat.le_trans (written.regions_end other)
      (created.geometry.dataStart_le_offset _)

/-- Each region before the data area holds what has been written there. -/
theorem region
    (written : Written source sizeMb created rawFat)
    (shows : Shows 0 (imagePatches created rawFat) created.img)
    (reached : created.geometry.dataStart ≤ created.img.length)
    (patch : Patch UInt8)
    (member :
      patch ∈ fatPatches created.geometry rawFat ++
        bootPatches created.geometry.boot) :
    slice created.img patch.offset patch.data.length = patch.data := by
  obtain ⟨first, second, data, _⟩ := written.valid.regions
  have rawLength := length_packFat written.packed
  have bootLength : created.geometry.boot.length = sector :=
    length_bootSector ..
  -- From the last FAT copy down to the boot sector.
  have ordered :
      (fatPatches created.geometry rawFat ++
          bootPatches created.geometry.boot).Pairwise
        fun later earlier => earlier.stop ≤ later.offset := by
    simp only [fatPatches, bootPatches, List.cons_append, List.nil_append,
      List.pairwise_cons, List.forall_mem_cons, Patch.stop, rawLength,
      bootLength, length_fsinfoBytes, List.Pairwise.nil, List.not_mem_nil,
      false_implies, implies_true, and_true]
    omega
  have listed : patch ∈ imagePatches created rawFat := by
    simp only [imagePatches, List.mem_append] at member ⊢
    exact member.imp_right fun boot => .inr (.inr boot)
  have ends := written.regions_end member
  simp only [Patch.stop] at ends
  rw [shows.slice_eq listed (Nat.le_refl _) (by omega), Nat.sub_self,
    List.replicate_zero, List.append_nil]
  intro other otherMember
  rcases patches otherMember with ⟨extent, known, rfl⟩ | otherRegion
  · right
    right
    exact Nat.le_trans ends (created.geometry.dataStart_le_offset _)
  · exact Patch.apart_of_ordered ordered otherRegion member

end Written

end WrittenImage

end UefiMount.MkFatImg
