import UefiMount.FatEntryDecoding
import UefiMount.FatWrittenImage

namespace UefiMount.MkFatImg

open BumpAllocation ByteBuffer

/-!
# The layout of the image

The image has the size and the layout that its boot sector declares only when
the tree fills the volume up to its last byte.  The buffer is two bytes too
long after the boot sectors and at least 31 bytes shorter after the directory
pass; a file of whole clusters that reaches to the end of the volume restores
the size.
-/

/-- The image has the size and the layout that its boot sector declares. -/
structure ImageLayout (created : Created) : Prop where
  size :
    created.img.length = created.geometry.totSec * sector
  totSec :
    LittleEndian.value (slice created.img 32 4) = created.geometry.totSec
  backup :
    slice created.img 0 sector = slice created.img (6 * sector) sector
  fats :
    slice created.img (created.geometry.fatOffset 0)
        (created.geometry.fatSec * sector) =
      slice created.img (created.geometry.fatOffset 1)
        (created.geometry.fatSec * sector)
  areas :
    ∀ extent ∈ created.root.extents,
      slice created.img (created.geometry.offset extent.first)
          (extent.count * bytesPerCluster) =
        extent.payload.data ++
          List.replicate
            (extent.count * bytesPerCluster - extent.payload.data.length)
            0

section Demands

/-- What a node takes of the volume: an area with so many bytes in use. -/
structure Demand where
  isDir : Bool
  size : Nat
  deriving DecidableEq

/-- What the nodes below a directory take, in the order of their allocation. -/
def Nodes.demands : Nodes → List Demand
  | .nil =>
      []
  | .file _ content _ rest =>
      if content = [] then
        rest.demands
      else
        ⟨false, content.length⟩ :: rest.demands
  | .dir _ _ _ _ children rest =>
      ⟨true, (dirStream rootClus 0 children).length⟩ ::
        (children.demands ++ rest.demands)

/-- What the nodes of a source tree take, the root first. -/
def demands (source : Nodes) : List Demand :=
  ⟨true, (dirStream 0 0 source).length⟩ :: source.demands

/-- The clusters that the nodes take together. -/
def clustersOf (taken : List Demand) : Nat :=
  (taken.map fun demand => clustersFor demand.size).sum

/-- What the directories leave unused of their last clusters. -/
def unusedByDirs : List Demand → Nat
  | [] =>
      0
  | demand :: rest =>
      (if demand.isDir then
        clustersFor demand.size * bytesPerCluster - demand.size
      else
        0) + unusedByDirs rest

/-- From a place on, all but files of whole clusters end within the limit. -/
def OthersWithin (limit : Nat) : Nat → List Demand → Prop
  | _, [] =>
      True
  | place, demand :: rest =>
      (limit < place + clustersFor demand.size * bytesPerCluster →
        demand.isDir = false ∧ demand.size % bytesPerCluster = 0) ∧
      OthersWithin limit
        (place + clustersFor demand.size * bytesPerCluster) rest

/--
The tree fills the volume up to its last cluster, and what the directories
leave unused is made up for by files of whole clusters at the end.
-/
structure FillsVolume (source : Nodes) (geometry : Geometry) : Prop where
  full :
    geometry.dataStart + clustersOf (demands source) * bytesPerCluster =
      geometry.totSec * sector
  tail :
    OthersWithin
      (geometry.totSec * sector + 2 - unusedByDirs (demands source))
      geometry.dataStart (demands source)

/-- What a run takes. -/
def takenBy (extent : Extent Area) : Demand where
  isDir := extent.payload.isDir
  size := extent.payload.data.length

/-- The layout does not change what a directory stream takes. -/
theorem length_dirStream_renumber
    {nodes renumbered : Nodes}
    (same : renumbered.erase = nodes.erase)
    {parentClus firstClus : Nat}
    {stream : List UInt8}
    (built : buildDirEntries parentClus firstClus nodes = .ok stream)
    {otherParent another : Nat}
    (otherKind : otherParent ≠ 0 ↔ parentClus ≠ 0)
    (anotherKind : another ≠ 0 ↔ parentClus ≠ 0)
    (otherFirst anotherFirst : Nat) :
    (dirStream otherParent otherFirst renumbered).length =
      (dirStream another anotherFirst nodes).length := by
  obtain ⟨left, leftBuilt, leftLength⟩ :=
    buildDirEntries_renumber same built otherKind otherFirst
  obtain ⟨right, rightBuilt, rightLength⟩ :=
    buildDirEntries_renumber rfl built anotherKind anotherFirst
  simp [dirStream, leftBuilt, rightBuilt, Except.toOption, leftLength,
    rightLength]

/-- The runs of a part of the tree take what its nodes take. -/
theorem layoutNodes_takenBy
    {parentClus : Nat}
    {nodes laid : Nodes}
    {alloc after : Allocator}
    (result : layoutNodes parentClus nodes alloc = .ok (laid, after))
    (hasParent : parentClus ≠ 0)
    (reached : rootClus ≤ alloc.nextClus) :
    laid.extents.map takenBy = nodes.demands ∧
      rootClus ≤ after.nextClus := by
  induction nodes generalizing parentClus laid alloc after with
  | nil =>
      obtain ⟨rfl, rfl⟩ := Prod.mk.inj (Except.ok.inj result)
      exact ⟨rfl, reached⟩
  | file name content firstClus rest restIH =>
      simp only [layoutNodes, bind_eq_ok] at result
      obtain ⟨⟨rest', alloc'⟩, restLaid, joined⟩ := result
      obtain ⟨rfl, rfl⟩ := Prod.mk.inj (Except.ok.inj joined)
      obtain ⟨later, further⟩ := restIH restLaid hasParent (by
        simp only [allocRun]
        split
        · exact reached
        · exact Nat.le_trans reached (Nat.le_add_right ..))
      refine ⟨?_, further⟩
      by_cases empty : content = [] <;>
        simp [Nodes.extents, Nodes.demands, empty, later, takenBy]
  | dir name oldParent firstClus dirN children rest childrenIH restIH =>
      simp only [layoutNodes, bind_eq_ok] at result
      obtain ⟨entries, built, ⟨children', alloc'⟩, childrenLaid,
        ⟨rest', alloc''⟩, restLaid, joined⟩ := result
      obtain ⟨rfl, rfl⟩ := Prod.mk.inj (Except.ok.inj joined)
      obtain ⟨positive, _⟩ := clustersFor_stream built
      have first :
          (allocRun (clustersFor entries.length * bytesPerCluster)
            alloc).1 = alloc.nextClus := by
        rw [allocRun, if_neg (Nat.pos_iff_ne_zero.mp positive)]
      have own := @length_dirStream_renumber _ _
        (layoutNodes_erase childrenLaid) _ _ _ built parentClus rootClus
        Iff.rfl (by simp [hasParent, rootClus]) alloc.nextClus 0
      have parentAllocated : rootClus ≤ alloc.nextClus := reached
      obtain ⟨inChildren, further⟩ := childrenIH childrenLaid
        (by rw [first]; simp only [rootClus] at reached; omega)
        (by
          rw [allocRun, if_neg (Nat.pos_iff_ne_zero.mp positive)]
          exact Nat.le_trans reached (Nat.le_add_right ..))
      obtain ⟨later, furthest⟩ := restIH restLaid hasParent further
      refine ⟨?_, furthest⟩
      simp only [Nodes.extents, Nodes.demands, List.map_cons,
        List.map_append, takenBy, first, own, inChildren, later]

/-- The runs of the layout take what the source tree takes. -/
theorem layoutRoot_takenBy
    {source : Nodes}
    {root : Root}
    {alloc : Allocator}
    (laidOut : layoutRoot source = .ok (root, alloc)) :
    root.extents.map takenBy = demands source := by
  simp only [layoutRoot, bind_eq_ok] at laidOut
  obtain ⟨entries, built, ⟨children, alloc'⟩, childrenLaid, joined⟩ :=
    laidOut
  obtain ⟨rfl, rfl⟩ := Prod.mk.inj (Except.ok.inj joined)
  obtain ⟨positive, _⟩ := clustersFor_stream built
  rw [allocRun, if_neg (Nat.pos_iff_ne_zero.mp positive)] at childrenLaid ⊢
  have own := @length_dirStream_renumber _ _
    (layoutNodes_erase childrenLaid) _ _ _ built 0 0 Iff.rfl Iff.rfl
    rootClus 0
  obtain ⟨inChildren, _⟩ := layoutNodes_takenBy childrenLaid
    (show rootClus ≠ 0 by decide) (Nat.le_add_right ..)
  simp only [Root.extents, demands, List.map_cons, takenBy, own, inChildren]

variable {start stop : Nat} {extents : List (Extent Area)}

/-- Occupied runs take just the clusters they have. -/
theorem tiles_clustersOf
    (tiles : Tiles start extents stop)
    (occupied : ∀ extent ∈ extents, Occupied extent) :
    stop = start + clustersOf (extents.map takenBy) := by
  induction tiles with
  | nil =>
      rfl
  | @cons extent _ rest stop _ inductionHypothesis =>
      have own := (occupied extent (List.mem_cons_self ..)).count
      have later := inductionHypothesis fun other member =>
        occupied other (List.mem_cons_of_mem _ member)
      simp only [clustersOf, List.map_cons, List.sum_cons] at later ⊢
      simp only [Extent.behind] at later
      simp only [takenBy, ← own]
      omega

/-- The layout allocates the clusters that the nodes take. -/
theorem layoutRoot_nextClus
    {source : Nodes}
    {root : Root}
    {alloc : Allocator}
    (laidOut : layoutRoot source = .ok (root, alloc)) :
    alloc.nextClus = rootClus + clustersOf (demands source) := by
  obtain ⟨_, tiles, _⟩ := layoutRoot_allocated laidOut
  rw [← layoutRoot_takenBy laidOut]
  exact tiles_clustersOf tiles fun extent member =>
    (layoutRoot_occupied laidOut extent member).1

/-- What a directory leaves unused is less than a cluster. -/
theorem unusedByDirs_le (taken : List Demand) :
    unusedByDirs taken ≤ taken.countP Demand.isDir * bytesPerCluster := by
  induction taken with
  | nil =>
      exact Nat.zero_le _
  | cons demand rest inductionHypothesis =>
      have own :
          clustersFor demand.size * bytesPerCluster - demand.size ≤
            bytesPerCluster := by
        simp only [clustersFor, bytesPerCluster, sector, secPerClus]
        omega
      cases isDir : demand.isDir with
      | true =>
          rw [unusedByDirs, if_pos isDir, List.countP_cons_of_pos isDir,
            Nat.add_mul, Nat.one_mul]
          omega
      | false =>
          rw [unusedByDirs, if_neg (by simp [isDir]), Nat.zero_add,
            List.countP_cons_of_neg (by simp [isDir])]
          exact inductionHypothesis

theorem unusedByDirs_takenBy
    (occupied : ∀ extent ∈ extents, Occupied extent) :
    unusedByDirs (extents.map takenBy) = dirShortage extents := by
  induction extents with
  | nil =>
      rfl
  | cons extent rest inductionHypothesis =>
      have own := (occupied extent (List.mem_cons_self ..)).count
      rw [List.map_cons, unusedByDirs, dirShortage, inductionHypothesis
        fun other member => occupied other (List.mem_cons_of_mem _ member)]
      simp only [takenBy, ← own, shortage]

/-- A file fills its run when its size is that of whole clusters. -/
theorem Occupied.fullFile_iff
    {extent : Extent Area}
    (occupied : Occupied extent) :
    FullFile extent ↔
      extent.payload.isDir = false ∧
        extent.payload.data.length % bytesPerCluster = 0 := by
  obtain ⟨positive, fits, reached⟩ := occupied.bounds
  simp only [FullFile, bytesPerCluster, sector, secPerClus] at *
  constructor <;> rintro ⟨isFile, whole⟩ <;> exact ⟨isFile, by omega⟩

/-- The nodes that are within the limit are those whose runs end there. -/
theorem othersWithin_takenBy
    (tiles : Tiles start extents stop)
    (data : rootClus ≤ start)
    (occupied : ∀ extent ∈ extents, Occupied extent)
    (geometry : Geometry)
    (limit : Nat) :
    OthersWithin limit (geometry.offset start) (extents.map takenBy) ↔
      ∀ extent ∈ extents,
        limit < geometry.offset extent.behind → FullFile extent := by
  induction tiles with
  | nil =>
      simp [OthersWithin]
  | @cons extent _ rest stop _ inductionHypothesis =>
      have own := occupied extent (List.mem_cons_self ..)
      have place :
          geometry.offset extent.behind =
            geometry.offset extent.first +
              clustersFor extent.payload.data.length * bytesPerCluster := by
        rw [← own.count]
        exact geometry.offset_add data extent.count
      have later := inductionHypothesis
        (Nat.le_trans data (Nat.le_add_right ..))
        fun other member => occupied other (List.mem_cons_of_mem _ member)
      rw [List.map_cons, OthersWithin, List.forall_mem_cons,
        own.fullFile_iff]
      simp only [takenBy] at later ⊢
      rw [← place, later]

end Demands

namespace Written

variable
  {source : Nodes}
  {sizeMb : Int}
  {created : Created}
  {rawFat : List UInt8}

/-- The runs end where the demands of the tree end. -/
theorem stop_eq (written : Written source sizeMb created rawFat) :
    created.geometry.offset created.alloc.nextClus =
      created.geometry.dataStart +
        clustersOf (demands source) * bytesPerCluster := by
  rw [layoutRoot_nextClus written.laidOut,
    created.geometry.offset_add (Nat.le_refl _)]
  simp [Geometry.offset]

theorem unused_eq (written : Written source sizeMb created rawFat) :
    unusedByDirs (demands source) = dirShortage created.root.extents := by
  have occupied := layoutRoot_occupied written.laidOut
  rw [← layoutRoot_takenBy written.laidOut]
  exact unusedByDirs_takenBy fun extent member => (occupied extent member).1

/-- The boot sector holds the number of sectors. -/
theorem totSec_stored (written : Written source sizeMb created rawFat) :
    LittleEndian.value (slice created.geometry.boot 32 4) =
      created.geometry.totSec := by
  have stored := @slice_bootSector created.geometry.totSec rsvdSecCnt
    numFats created.geometry.fatSec rootClus
    (32, 36, LittleEndian.bytes 4 created.geometry.totSec)
    (List.mem_append_left _ (by simp [bpbRows]))
  rw [LittleEndian.length_bytes] at stored
  rw [Geometry.boot, stored, LittleEndian.value_bytes_of_lt written.totSec]

/-- An image whose areas hold their contents reaches to the last cluster. -/
theorem reaches
    (written : Written source sizeMb created rawFat)
    (layout : ImageLayout created) :
    created.geometry.offset created.alloc.nextClus ≤
      created.img.length := by
  obtain ⟨last, member, ends⟩ := written.tiles.last (List.cons_ne_nil _ _)
  obtain ⟨occupied, data⟩ := layoutRoot_occupied written.laidOut last member
  obtain ⟨positive, fits, _⟩ := occupied.bounds
  have held := congrArg List.length (layout.areas last member)
  simp only [slice, List.length_take, List.length_drop, List.length_append,
    List.length_replicate] at held
  have reach := created.geometry.offset_add data last.count
  have some : 0 < last.count * bytesPerCluster :=
    Nat.mul_pos positive (by decide)
  rw [← ends, Extent.behind]
  omega

/-- A roomy image of the declared size has the declared layout. -/
theorem layout
    (written : Written source sizeMb created rawFat)
    (roomy : Roomy created)
    (full :
      created.geometry.offset created.alloc.nextClus = created.volume) :
    ImageLayout created := by
  obtain ⟨shows, length⟩ := written.shows roomy
  have short := written.shortened
  have size : created.img.length = created.volume := by
    omega
  obtain ⟨_, _, _, inside⟩ := written.valid.regions
  have reached :
      created.geometry.dataStart ≤ created.img.length := by
    rw [size]
    exact inside
  have rawLength := length_packFat written.packed
  have bootLength : created.geometry.boot.length = sector :=
    length_bootSector ..
  have boot : slice created.img 0 sector = created.geometry.boot := by
    have held := written.region shows reached ⟨0, created.geometry.boot⟩
      (by simp [bootPatches])
    rwa [bootLength] at held
  have backup :
      slice created.img (6 * sector) sector = created.geometry.boot := by
    have held := written.region shows reached
      ⟨6 * sector, created.geometry.boot⟩ (by simp [bootPatches])
    rwa [bootLength] at held
  have first :=
    written.region shows reached ⟨created.geometry.fatOffset 0, rawFat⟩
      (by simp [fatPatches])
  have second :=
    written.region shows reached ⟨created.geometry.fatOffset 1, rawFat⟩
      (by simp [fatPatches])
  rw [rawLength] at first second
  constructor
  case size =>
    exact size
  case totSec =>
    rw [← written.totSec_stored, ← boot, slice_slice _ (by decide)]
  case backup =>
    rw [boot, backup]
  case fats =>
    rw [first, second]
  case areas =>
    intro extent member
    have ends := created.geometry.offset_mono
      (written.tiles.bounds member).2.2
    exact written.area shows member (by omega)

end Written

/--
The image has the declared size and layout exactly when the tree fills the
volume in this way.
-/
theorem imageLayout_iff_fillsVolume
    {source : Nodes}
    {sizeMb : Int}
    {geometry : Geometry}
    (sized : createGeometry sizeMb = .ok geometry)
    {created : Created}
    (made : createImage source sizeMb = .ok created) :
    ImageLayout created ↔ FillsVolume source geometry := by
  obtain ⟨rawFat, written⟩ := createImage_eq_ok.mp made
  have same : created.geometry = geometry :=
    Except.ok.inj (written.geometry.symm.trans sized)
  subst same
  have occupied := layoutRoot_occupied written.laidOut
  have area := fun extent member => (occupied extent member).1
  have stop := written.stop_eq
  have unused := written.unused_eq
  have tail := othersWithin_takenBy written.tiles (Nat.le_refl _) area
    created.geometry
    (created.geometry.totSec * sector + 2 -
      unusedByDirs (demands source))
  rw [layoutRoot_takenBy written.laidOut] at tail
  have start : created.geometry.offset rootClus =
      created.geometry.dataStart := by
    simp [Geometry.offset]
  have positive : ∀ clus, 0 < created.geometry.offset clus := by
    obtain ⟨boots, _, _, _⟩ := written.valid.regions
    intro clus
    have behind := created.geometry.dataStart_le_offset clus
    have some : 0 < 7 * sector := by decide
    omega
  have tailRoomy :
      OthersWithin
          (created.geometry.totSec * sector + 2 -
            unusedByDirs (demands source))
          created.geometry.dataStart (demands source) ↔
        Roomy created := by
    rw [← start, tail]
    refine forall₂_congr fun extent _ => ?_
    have some := positive extent.behind
    rw [unused, Created.volume]
    exact ⟨fun full beyond => full (by omega),
      fun full beyond => full (by omega)⟩
  constructor
  · intro layout
    have reached := written.reaches layout
    have roomy : Roomy created := by
      by_contra notRoomy
      have short := written.short notRoomy
      omega
    have length := (written.shows roomy).2
    have short := written.shortened
    have size := layout.size
    simp only [Created.volume] at length
    exact {
      full := by omega
      tail := tailRoomy.mpr roomy
    }
  · intro fills
    exact written.layout (tailRoomy.mp fills.tail) (stop.trans fills.full)

section Towers

/-- Directories in one another, each with a file of this content. -/
def tower (content : List UInt8) : Nat → Nodes
  | 0 =>
      .nil
  | levels + 1 =>
      .dir [0x44] 0 0 0 (tower content levels) (.file [0x46] content 0 .nil)

variable {content : List UInt8}

/-- The short name of a letter. -/
def letterName (letter : UInt8) : ShortName :=
  .ofFields [letter] [] (by simp) (by simp)

theorem childEntries_short
    {name : PyStr}
    {s11 : ShortName}
    (spelled : name = shortToName s11.bytes)
    {size : Nat}
    (fits : size < 256 ^ 4)
    (attr : UInt8)
    (first : Nat) :
    ∃ short, childEntries name s11 attr first size = .ok [short] := by
  refine ⟨_, bind_eq_ok.mpr ⟨[], ?_, bind_eq_ok.mpr
    ⟨_, dirEntry_eq_ok.mpr ⟨fits, rfl⟩, rfl⟩⟩⟩
  rw [longEntries, if_neg (not_not.mpr spelled)]

theorem nodeEntries_tower
    (fits : content.length < 256 ^ 4)
    (levels : Nat) :
    ∃ entries,
      nodeEntries (tower content levels) [] = .ok entries ∧
        entries.length ≤ 2 := by
  cases levels with
  | zero =>
      exact ⟨[], rfl, Nat.zero_le _⟩
  | succ levels =>
      have dirNamed : shortName [0x44] [] = .ok (letterName 0x44) := by
        decide +kernel
      have fileNamed :
          shortName [0x46] [letterName 0x44] = .ok (letterName 0x46) := by
        decide +kernel
      obtain ⟨dir, dirBuilt⟩ :=
        @childEntries_short [0x44] (letterName 0x44) (by decide +kernel) 0
          (by decide) attrDirectory 0
      obtain ⟨file, fileBuilt⟩ :=
        @childEntries_short [0x46] (letterName 0x46) (by decide +kernel)
          content.length fits attrArchive
          (if content.length ≠ 0 then 0 else 0)
      refine ⟨[dir, file], ?_, Nat.le_refl _⟩
      simp only [tower, nodeEntries, dirNamed, dirBuilt, fileNamed,
        fileBuilt, bind, Except.bind]
      rfl

theorem buildDirEntries_tower
    (fits : content.length < 256 ^ 4)
    (levels parentClus firstClus : Nat) :
    ∃ stream,
      buildDirEntries parentClus firstClus (tower content levels) =
          .ok stream ∧
        clustersFor stream.length = 1 := by
  obtain ⟨own, ownBuilt, few⟩ := nodeEntries_tower fits levels
  obtain ⟨dots, dotsBuilt⟩ :
      ∃ dots, dotEntries parentClus firstClus = .ok dots := by
    rw [dotEntries]
    split
    · exact ⟨_, rfl⟩
    · exact ⟨_, rfl⟩
  refine ⟨_, bind_eq_ok.mpr ⟨dots, dotsBuilt,
    bind_eq_ok.mpr ⟨own, ownBuilt, rfl⟩⟩, ?_⟩
  have fewDots := length_dotEntries_le dotsBuilt
  have each : ∀ entry ∈ dots ++ own, entry.length = 32 := by
    intro entry member
    rcases List.mem_append.mp member with inDots | inOwn
    · exact length_dotEntries dotsBuilt entry inDots
    · exact length_nodeEntries ownBuilt entry inOwn
  rw [List.length_append, length_flatten_entries each, List.length_append,
    List.length_singleton]
  simp only [clustersFor, bytesPerCluster, sector, secPerClus]
  omega

theorem layoutNodes_tower
    (fits : content.length < 256 ^ 4)
    (levels parentClus : Nat)
    (alloc : Allocator) :
    ∃ laid,
      layoutNodes parentClus (tower content levels) alloc = .ok laid := by
  induction levels generalizing parentClus alloc with
  | zero =>
      exact ⟨_, rfl⟩
  | succ levels inductionHypothesis =>
      obtain ⟨stream, built, _⟩ :=
        buildDirEntries_tower fits levels parentClus 0
      obtain ⟨inside, insideLaid⟩ :=
        inductionHypothesis
          (allocRun (clustersFor stream.length * bytesPerCluster) alloc).1
          (allocRun (clustersFor stream.length * bytesPerCluster) alloc).2
      refine ⟨_, bind_eq_ok.mpr ⟨stream, built, bind_eq_ok.mpr
        ⟨inside, insideLaid, bind_eq_ok.mpr ⟨_, rfl, rfl⟩⟩⟩⟩

theorem layoutRoot_tower
    (fits : content.length < 256 ^ 4)
    (levels : Nat) :
    ∃ root alloc,
      layoutRoot (tower content levels) = .ok (root, alloc) := by
  obtain ⟨stream, built, _⟩ := buildDirEntries_tower fits levels 0 0
  obtain ⟨inside, insideLaid⟩ :=
    layoutNodes_tower fits levels
      (allocRun (clustersFor stream.length * bytesPerCluster)
        ⟨rootClus, []⟩).1
      (allocRun (clustersFor stream.length * bytesPerCluster)
        ⟨rootClus, []⟩).2
  exact ⟨_, _, bind_eq_ok.mpr ⟨stream, built,
    bind_eq_ok.mpr ⟨inside, insideLaid, rfl⟩⟩⟩

theorem clustersOf_append (taken others : List Demand) :
    clustersOf (taken ++ others) = clustersOf taken + clustersOf others := by
  simp [clustersOf]

/-- Each level takes a cluster for the directory and those of the file. -/
theorem clustersOf_tower
    (some : content ≠ [])
    (fits : content.length < 256 ^ 4)
    (levels : Nat) :
    clustersOf (tower content levels).demands =
        levels * (clustersFor content.length + 1) ∧
      (tower content levels).demands.countP Demand.isDir = levels := by
  induction levels with
  | zero =>
      exact ⟨(Nat.zero_mul _).symm, rfl⟩
  | succ levels inductionHypothesis =>
      obtain ⟨clusters, dirs⟩ := inductionHypothesis
      obtain ⟨stream, built, one⟩ :=
        buildDirEntries_tower fits levels rootClus 0
      have own : clustersFor (dirStream rootClus 0
          (tower content levels)).length = 1 := by
        rw [dirStream, built]
        exact one
      constructor
      · simp only [tower, Nodes.demands, some, ↓reduceIte] at clusters ⊢
        rw [← List.singleton_append, clustersOf_append, clustersOf_append,
          clusters, Nat.succ_mul]
        simp only [clustersOf, List.map_cons, List.map_nil, List.sum_cons,
          List.sum_nil, own]
        omega
      · simp only [tower, Nodes.demands, some, ↓reduceIte]
        simp [dirs]

theorem clustersOf_demands_tower
    (some : content ≠ [])
    (fits : content.length < 256 ^ 4)
    (levels : Nat) :
    clustersOf (demands (tower content levels)) =
        1 + levels * (clustersFor content.length + 1) ∧
      (demands (tower content levels)).countP Demand.isDir = levels + 1 := by
  obtain ⟨clusters, dirs⟩ := clustersOf_tower some fits levels
  obtain ⟨stream, built, one⟩ := buildDirEntries_tower fits levels 0 0
  have own : clustersFor (dirStream 0 0 (tower content levels)).length =
      1 := by
    rw [dirStream, built]
    exact one
  constructor
  · rw [demands, ← List.singleton_append, clustersOf_append, clusters]
    simp only [clustersOf, List.map_cons, List.map_nil, List.sum_cons,
      List.sum_nil, own, Nat.add_zero]
  · rw [demands, List.countP_cons_of_pos rfl, dirs]

/-- Two directories of one cluster, and a file of whole clusters behind. -/
theorem othersWithin_dirs
    {rootSize dirSize fileSize : Nat}
    (rootOne : clustersFor rootSize = 1)
    (dirOne : clustersFor dirSize = 1)
    (whole : fileSize % bytesPerCluster = 0)
    {limit place : Nat}
    (room : place + 2 * bytesPerCluster ≤ limit) :
    OthersWithin limit place
      [⟨true, rootSize⟩, ⟨true, dirSize⟩, ⟨false, fileSize⟩] := by
  simp only [OthersWithin, rootOne, dirOne]
  refine ⟨fun beyond => ?_, fun beyond => ?_,
    fun _ => ⟨trivial, whole⟩, trivial⟩
  · omega
  · omega

/-- A geometry whose clusters reach to the last sector. -/
theorem createGeometry_258 :
    createGeometry 258 = .ok ⟨528384, 516, 65915⟩ := by
  have found : fatSzFor (258 * 1024 * 1024 / sector) = (516, 65915) := by
    rw [fatSzFor, fatSzFrom, if_neg (by decide), fatSzFrom,
      if_pos (by decide)]
    decide
  simp only [createGeometry, found]
  decide

/-- A directory and a file that take all clusters behind the root. -/
def fullTree : Nodes :=
  tower (List.replicate (65913 * bytesPerCluster) 0) 1

theorem fillsVolume_tower
    (some : content ≠ [])
    (fits : content.length < 256 ^ 4)
    (large : content.length = 65913 * bytesPerCluster) :
    FillsVolume (tower content 1) ⟨528384, 516, 65915⟩ := by
  obtain ⟨clusters, dirs⟩ := clustersOf_demands_tower some fits 1
  rw [large, clustersFor_mul] at clusters
  refine ⟨by rw [clusters]; decide, ?_⟩
  have taken :
      demands (tower content 1) =
        [⟨true, (dirStream 0 0 (tower content 1)).length⟩,
          ⟨true, (dirStream rootClus 0 .nil).length⟩,
          ⟨false, content.length⟩] := by
    simp [demands, tower, Nodes.demands, some]
  obtain ⟨stream, built, rootOne⟩ := buildDirEntries_tower fits 1 0 0
  have dirOne : clustersFor (dirStream rootClus 0 .nil).length = 1 := by
    decide +kernel
  have whole : content.length % bytesPerCluster = 0 := by
    rw [large, Nat.mul_mod_left]
  have unused := unusedByDirs_le (demands (tower content 1))
  rw [dirs] at unused
  generalize unusedByDirs (demands (tower content 1)) = unusedBytes
    at unused ⊢
  rw [taken, dirStream, built]
  apply othersWithin_dirs rootOne dirOne whole
  have start : (Geometry.mk 528384 516 65915).dataStart = 544768 := by
    decide
  have total : (Geometry.mk 528384 516 65915).totSec = 528384 := rfl
  have cluster : bytesPerCluster = 4096 := rfl
  have sectorSize : sector = 512 := rfl
  rw [cluster] at unused
  rw [start, total, cluster, sectorSize]
  omega

/-- The image of that tree has the layout that is asked for. -/
theorem imageLayout_iff_fillsVolume_fullTree :
    ∃ created,
      createImage fullTree 258 = .ok created ∧ ImageLayout created := by
  have large := @List.length_replicate UInt8 (65913 * bytesPerCluster) 0
  rw [fullTree]
  generalize List.replicate (65913 * bytesPerCluster) (0 : UInt8) = content
    at large ⊢
  have some : content ≠ [] := by
    rintro rfl
    exact absurd large (by decide)
  have fits : content.length < 256 ^ 4 := by
    rw [large]
    decide
  obtain ⟨clusters, _⟩ := clustersOf_demands_tower some fits 1
  rw [large, clustersFor_mul] at clusters
  obtain ⟨root, alloc, laidOut⟩ := layoutRoot_tower fits 1
  have next := layoutRoot_nextClus laidOut
  rw [clusters] at next
  obtain ⟨rawFat, img, written⟩ :=
    createImage_fits createGeometry_258 (by decide) laidOut
      (by rw [next]; decide)
  have made := createImage_eq_ok.mpr ⟨rawFat, written⟩
  exact ⟨_, made, (imageLayout_iff_fillsVolume createGeometry_258 made).mpr
    (fillsVolume_tower some fits large)⟩

end Towers

section EmptyTree

/-- The geometry of the smallest volume that is accepted. -/
theorem createGeometry_257 :
    createGeometry 257 = .ok ⟨526336, 514, 65659⟩ := by
  have found : fatSzFor (257 * 1024 * 1024 / sector) = (514, 65659) := by
    rw [fatSzFor, fatSzFrom, if_neg (by decide), fatSzFrom,
      if_pos (by decide)]
    decide
  simp only [createGeometry, found]
  decide

/-- An empty directory takes one cluster for its root. -/
theorem layoutRoot_nil :
    layoutRoot .nil = .ok (⟨2, 1, .nil⟩, ⟨3, [(2, eoc)]⟩) :=
  rfl

/-- The image of an empty directory is 4093 bytes shorter than the volume. -/
theorem imageLayout_empty_short :
    ∃ created,
      createImage .nil 257 = .ok created ∧
        created.geometry.totSec * sector = 269484032 ∧
        created.img.length = 269479939 ∧
        ¬ ImageLayout created := by
  obtain ⟨rawFat, img, written⟩ :=
    createImage_fits createGeometry_257 (by decide) layoutRoot_nil
      (by decide)
  have stop : (Geometry.mk 526336 514 65659).offset 3 = 546816 := by decide
  have unused : dirShortage (Root.extents ⟨2, 1, .nil⟩) = 4095 := by decide
  have roomy :
      Roomy ⟨⟨526336, 514, 65659⟩, ⟨2, 1, .nil⟩, ⟨3, [(2, eoc)]⟩, img⟩ := by
    intro extent member beyond
    obtain rfl := List.mem_singleton.mp member
    change 526336 * 512 + 2 <
      (Geometry.mk 526336 514 65659).offset 3 +
        dirShortage (Root.extents ⟨2, 1, .nil⟩) at beyond
    rw [stop, unused] at beyond
    omega
  have length := (written.shows roomy).2
  change img.length =
    max (526336 * 512 + 2 - dirShortage (Root.extents ⟨2, 1, .nil⟩))
      ((Geometry.mk 526336 514 65659).offset 3) at length
  rw [stop, unused] at length
  refine ⟨_, createImage_eq_ok.mpr ⟨rawFat, written⟩, ?_, ?_, ?_⟩
  · change 526336 * 512 = 269484032
    decide
  · rw [length]
    decide
  intro layout
  have size : img.length = 526336 * 512 := layout.size
  omega

end EmptyTree

end UefiMount.MkFatImg
