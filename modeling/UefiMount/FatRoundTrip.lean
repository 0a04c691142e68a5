import UefiMount.FatImageLayout
import UefiMount.FatTreeWalk

namespace UefiMount.MkFatImg

open BumpAllocation ByteBuffer

/-!
# Creating and inspecting an image

The reading side gives the tree back from the written image, as long as no
cluster that it has to follow has a number that the FAT reserves for end
marks.
-/

section ReadBack

theorem pySlice_eq_slice
    {data : List UInt8}
    {start length : Nat}
    (inside : start + length ≤ data.length) :
    pySlice data start (start + length) = slice data start length := by
  have startBound : sliceBound data start = start := by
    simp only [sliceBound]
    omega
  have stopBound :
      sliceBound data ((start : Int) + length) = start + length := by
    simp only [sliceBound]
    omega
  rw [pySlice, startBound, stopBound, Nat.add_sub_cancel_left]

/-- An entry is stored in its place, and the others stay as they were. -/
theorem packEntry_slice
    {rawFat written : List UInt8}
    {c nxt : Nat}
    (packed : packEntry rawFat c nxt = .ok written) :
    slice written (c * 4) 4 = LittleEndian.bytes 4 nxt ∧
      nxt < 256 ^ 4 ∧
      ∀ other, other ≠ c →
        slice written (other * 4) 4 = slice rawFat (other * 4) 4 := by
  obtain ⟨fits, inside, rfl⟩ := packEntry_eq_ok.mp packed
  have width := LittleEndian.length_bytes 4 nxt
  refine ⟨?_, fits, ?_⟩
  · have stored := slice_splice (show c * 4 ≤ rawFat.length by omega)
      (c * 4 + 4) (LittleEndian.bytes 4 nxt)
    rwa [width] at stored
  · intro other different
    have kept := @slice_splice_beside _ rawFat (LittleEndian.bytes 4 nxt)
      (c * 4) (by omega) (other * 4) 4 (by omega)
    rwa [width] at kept

/-- The FAT holds what has been packed, and the rest stays as it was. -/
theorem packEntries_slice
    {fat : List (Nat × Nat)}
    (distinct : (fat.map Prod.fst).Nodup)
    {rawFat written : List UInt8}
    (packed : packEntries fat rawFat = .ok written) :
    (∀ c, c ∉ fat.map Prod.fst →
      slice written (c * 4) 4 = slice rawFat (c * 4) 4) ∧
    ∀ entry ∈ fat,
      slice written (entry.1 * 4) 4 = LittleEndian.bytes 4 entry.2 ∧
        entry.2 < 256 ^ 4 := by
  induction fat generalizing rawFat with
  | nil =>
      obtain rfl := Except.ok.inj packed
      simp
  | cons entry rest inductionHypothesis =>
      simp only [packEntries, bind_eq_ok] at packed
      obtain ⟨next, first, later⟩ := packed
      obtain ⟨own, fits, beside⟩ := packEntry_slice first
      simp only [List.map_cons, List.nodup_cons] at distinct
      obtain ⟨others, stored⟩ := inductionHypothesis distinct.2 later
      constructor
      · intro c absent
        simp only [List.map_cons, List.mem_cons, not_or] at absent
        rw [others c absent.2, beside c absent.1]
      · intro other member
        rcases List.mem_cons.mp member with rfl | member
        · rw [others _ distinct.1, own]
          exact ⟨rfl, fits⟩
        · exact stored other member

theorem packFat_slice
    {fatSec : Nat}
    {fat : List (Nat × Nat)}
    (distinct : (fat.map Prod.fst).Nodup)
    (data : ∀ entry ∈ fat, rootClus ≤ entry.1)
    {rawFat : List UInt8}
    (packed : packFat fatSec fat = .ok rawFat) :
    ∀ entry ∈ fat,
      slice rawFat (entry.1 * 4) 4 = LittleEndian.bytes 4 entry.2 ∧
        entry.2 < 256 ^ 4 := by
  simp only [packFat, bind_eq_ok] at packed
  obtain ⟨entries, entriesPacked, marked, first, second⟩ := packed
  intro entry member
  have place := data entry member
  simp only [rootClus] at place
  rw [(packEntry_slice second).2.2 entry.1 (by omega),
    (packEntry_slice first).2.2 entry.1 (by omega)]
  exact (packEntries_slice distinct entriesPacked).2 entry member

variable
  {source : Nodes}
  {sizeMb : Int}
  {created : Created}
  {rawFat : List UInt8}

/-- The boot sector as the reading side parses it. -/
def Geometry.bpb (geometry : Geometry) : Bpb where
  spc := secPerClus
  rsvd := rsvdSecCnt
  nfat := numFats
  tot := geometry.totSec
  fatSec := geometry.fatSec
  root := rootClus
  bpbOff := 0
  dataStart := geometry.dataStart

theorem Geometry.bpc_bpb (geometry : Geometry) :
    geometry.bpb.bpc = bytesPerCluster :=
  rfl

/-- The image reaches to the last cluster and shows what has been written. -/
structure Complete
    (source : Nodes)
    (sizeMb : Int)
    (created : Created)
    (rawFat : List UInt8) : Prop where
  written :
    Written source sizeMb created rawFat
  shows :
    Shows 0 (imagePatches created rawFat) created.img
  reached :
    created.geometry.offset created.alloc.nextClus ≤ created.img.length
  within :
    created.alloc.nextClus ≤ created.geometry.clusCount + rootClus

/-- When the directories' clusters fit a second time, the image is complete. -/
theorem Written.complete
    (written : Written source sizeMb created rawFat)
    (fits :
      clustersOf (demands source) +
          (demands source).countP Demand.isDir ≤
        created.geometry.clusCount) :
    Complete source sizeMb created rawFat := by
  have stop := written.stop_eq
  have unused := unusedByDirs_le (demands source)
  rw [written.unused_eq] at unused
  have inside := written.valid.fits
  have room :
      created.geometry.offset created.alloc.nextClus +
          dirShortage created.root.extents ≤ created.volume := by
    simp only [Created.volume, Geometry.dataStart, bytesPerCluster, sector,
      secPerClus] at *
    omega
  obtain ⟨shows, length⟩ := written.shows (by
    intro extent member beyond
    have ends := created.geometry.offset_mono
      (written.tiles.bounds member).2.2
    omega)
  exact {
    written := written
    shows := shows
    reached := by omega
    within := by
      have ends := layoutRoot_nextClus written.laidOut
      omega
  }

namespace Complete

theorem dataStart_reached
    (complete : Complete source sizeMb created rawFat) :
    created.geometry.dataStart ≤ created.img.length :=
  Nat.le_trans (created.geometry.dataStart_le_offset _) complete.reached

/-- A field of the boot sector is read from the image. -/
theorem slice_boot
    (complete : Complete source sizeMb created rawFat)
    {start width : Nat}
    (inside : start + width ≤ sector)
    {field : List UInt8}
    (held : slice created.geometry.boot start width = field) :
    slice created.img start width = field := by
  have boot := complete.written.region complete.shows
    complete.dataStart_reached ⟨0, created.geometry.boot⟩
    (by simp [bootPatches])
  have length : created.geometry.boot.length = sector :=
    length_bootSector ..
  rw [length] at boot
  have cut := @slice_slice _ created.img 0 sector start width inside
  rw [boot, held, Nat.zero_add] at cut
  exact cut.symm

/-- There is no partition table: the boot sector is the first one. -/
theorem partitionStart_eq
    (complete : Complete source sizeMb created rawFat) :
    partitionStart created.img = .ok 0 := by
  have blank := @slice_bootSector created.geometry.totSec rsvdSecCnt
    numFats created.geometry.fatSec rootClus
    (90, 510, List.replicate 420 0)
    (List.mem_append_right _ (.tail _ (.tail _ (.head _))))
  dsimp only at blank
  rw [List.length_replicate] at blank
  have blankByte {index : Nat} (within : index < 420) :
      byteAt created.img (90 + index) = .ok 0 := by
    have held := complete.slice_boot (by decide) blank
    rw [byteAt, ← getElem?_slice created.img within, held,
      List.getElem?_replicate_of_lt within]
  have indicator : byteAt created.img 446 = .ok 0 :=
    @blankByte 356 (by decide)
  have type : byteAt created.img 450 = .ok 0 :=
    @blankByte 360 (by decide)
  rw [partitionStart]
  split
  · simp only [indicator, type, bind, Except.bind, ne_eq,
      not_true_eq_false, and_false, ↓reduceIte]
    rfl
  · rfl

/-- A field of fixed width is read from the boot sector. -/
theorem unpackFrom_boot
    (complete : Complete source sizeMb created rawFat)
    {start width number : Nat}
    (member :
      (start, start + width, LittleEndian.bytes width number) ∈
        bpbRows (LittleEndian.bytes 4 created.geometry.totSec)
          (LittleEndian.bytes 2 rsvdSecCnt)
          (LittleEndian.bytes 4 created.geometry.fatSec)
          (LittleEndian.bytes 4 rootClus) (UInt8.ofNat numFats))
    (inside : start + width ≤ sector)
    (positive : 0 < width)
    (fits : number < 256 ^ width) :
    unpackFrom width created.img (start + 0) = .ok number := by
  have held := @slice_bootSector created.geometry.totSec rsvdSecCnt
    numFats created.geometry.fatSec rootClus _
    (List.mem_append_left _ member)
  rw [LittleEndian.length_bytes] at held
  exact unpackFrom_slice (complete.slice_boot inside held) positive fits

/-- The geometry is read back. -/
theorem readBpb_eq
    (complete : Complete source sizeMb created rawFat) :
    readBpb created.img 0 = .ok created.geometry.bpb := by
  have written := complete.written
  have field {start width number : Nat} := fun member =>
    @unpackFrom_boot _ _ _ _ complete start width number member
  have sec := @field 11 2 sector (by simp [bpbRows]) (by decide) (by decide)
    (by decide)
  have spc := @field 13 1 secPerClus (by simp [bpbRows]; decide)
    (by decide) (by decide) (by decide)
  have rsvd := @field 14 2 rsvdSecCnt (by simp [bpbRows]) (by decide)
    (by decide) (by decide)
  have nfat := @field 16 1 numFats (by simp [bpbRows]; decide) (by decide)
    (by decide) (by decide)
  have tot16 := @field 19 2 0 (by simp [bpbRows]) (by decide) (by decide)
    (by decide)
  have fat16 := @field 22 2 0 (by simp [bpbRows]) (by decide) (by decide)
    (by decide)
  have tot := @field 32 4 created.geometry.totSec (by simp [bpbRows])
    (by decide) (by decide) written.totSec
  have fatSec := @field 36 4 created.geometry.fatSec (by simp [bpbRows])
    (by decide) (by decide) written.fatSec
  have root := @field 44 4 rootClus (by simp [bpbRows]) (by decide)
    (by decide) (by decide)
  obtain ⟨fields, whole⟩ :
      ∃ fields, unpackFrom 25 created.img (11 + 0) = .ok fields := by
    obtain ⟨boots, _, _, _⟩ := written.valid.regions
    have reached := complete.dataStart_reached
    simp only [sector] at boots
    exact ⟨_, if_pos (by omega)⟩
  simp only [readBpb, whole, sec, spc, rsvd, nfat, tot16, fat16, tot, fatSec,
    root, bind, Except.bind, ↓reduceIte, ne_eq, not_true_eq_false,
    Nat.zero_add]
  rfl

/-- A cluster is read from its place. -/
theorem readClus_eq
    (complete : Complete source sizeMb created rawFat)
    {clus : Nat}
    (data : rootClus ≤ clus)
    (within : clus < created.alloc.nextClus) :
    created.geometry.bpb.readClus created.img clus =
      slice created.img (created.geometry.offset clus) bytesPerCluster := by
  have start :
      (created.geometry.bpb.dataStart : Int) +
          ((clus : Int) - rootClus) * bytesPerCluster =
        (created.geometry.offset clus : Nat) := by
    have place : ((clus - rootClus : Nat) : Int) = clus - rootClus :=
      Int.ofNat_sub data
    rw [← place]
    rfl
  have next := created.geometry.offset_add data 1
  have ends := created.geometry.offset_mono
    (show clus + 1 ≤ created.alloc.nextClus from within)
  have reached := complete.reached
  rw [Nat.one_mul] at next
  simp only [Bpb.readClus, Geometry.bpc_bpb, start]
  exact pySlice_eq_slice (by omega)

/-- The FAT links each cluster of a run. -/
theorem nextClus_eq
    (complete : Complete source sizeMb created rawFat)
    {extent : Extent Area}
    (member : extent ∈ created.root.extents)
    {place : Nat}
    (within : place < extent.count) :
    created.geometry.bpb.nextClus created.img (extent.first + place) =
      .ok (extent.link eoc place) := by
  have written := complete.written
  have fat := (layoutRoot_allocated written.laidOut).2.2.1
  have keys :
      (created.alloc.fat.map Prod.fst) =
        created.root.extents.flatMap Extent.units := by
    rw [fat, List.map_flatMap]
    simp only [Extent.links_map_fst]
  have distinct : (created.alloc.fat.map Prod.fst).Nodup := by
    rw [keys]
    exact written.tiles.nodup
  have data : ∀ entry ∈ created.alloc.fat, rootClus ≤ entry.1 := by
    intro entry known
    have unit : entry.1 ∈ created.alloc.fat.map Prod.fst :=
      List.mem_map.mpr ⟨entry, known, rfl⟩
    rw [keys, written.tiles.flatMap_units, List.mem_range'_1] at unit
    exact unit.1
  have entry :
      (extent.first + place, extent.link eoc place) ∈ created.alloc.fat := by
    rw [fat]
    exact List.mem_flatMap.mpr ⟨extent, member,
      List.mem_map.mpr ⟨place, List.mem_range.mpr within, rfl⟩⟩
  obtain ⟨stored, fits⟩ :=
    packFat_slice distinct data written.packed _ entry
  have copy := written.region complete.shows complete.dataStart_reached
    ⟨created.geometry.fatOffset 0, rawFat⟩ (by simp [fatPatches])
  dsimp only at copy stored fits
  have length := congrArg List.length stored
  simp only [slice, List.length_take, List.length_drop,
    LittleEndian.length_bytes] at length
  have cut := @slice_slice _ created.img (created.geometry.fatOffset 0)
    rawFat.length ((extent.first + place) * 4) 4 (by omega)
  rw [copy, stored] at cut
  have start :
      created.geometry.bpb.fatOff = created.geometry.fatOffset 0 := by
    simp [Bpb.fatOff, Geometry.bpb, Geometry.fatOffset]
  rw [Bpb.nextClus, start]
  exact unpackFrom_slice cut.symm (by decide) fits

/-- The reading side finds every run. -/
theorem readable
    (complete : Complete source sizeMb created rawFat)
    {extent : Extent Area}
    (member : extent ∈ created.root.extents) :
    Readable created.geometry.bpb created.img extent where
  content := by
    intro place within
    obtain ⟨data, _, ends⟩ := complete.written.tiles.bounds member
    simp only [Extent.behind] at ends
    have inside := created.geometry.offset_mono
      (show extent.behind ≤ created.alloc.nextClus from ends)
    have total : (place + 1) * bytesPerCluster ≤
        extent.count * bytesPerCluster :=
      Nat.mul_le_mul_right _ within
    rw [Nat.add_mul, Nat.one_mul] at total
    rw [complete.readClus_eq (by omega) (by omega),
      created.geometry.offset_add data,
      ← complete.written.area complete.shows member
        (Nat.le_trans inside complete.reached),
      slice_slice _ total]
  next := by
    intro place within
    exact complete.nextClus_eq member within

end Complete

end ReadBack

section Recovery

/-- A line without the short name. -/
def Line.plain : Line → Line
  | .root count =>
      .root count
  | .dir depth count =>
      .dir depth count
  | .entry depth isDir _ real size clus =>
      .entry depth isDir [] real size clus

/-- The number of children. -/
def Nodes.count : Nodes → Nat
  | .nil =>
      0
  | .file _ _ _ rest =>
      rest.count + 1
  | .dir _ _ _ _ _ rest =>
      rest.count + 1

/-- The children of a directory with all that is below them. -/
def Nodes.listing (depth : Nat) : Nodes → List Line
  | .nil =>
      []
  | .file name content firstClus rest =>
      .entry (depth + 1) false [] name content.length firstClus ::
        rest.listing depth
  | .dir name _ firstClus _ children rest =>
      .entry (depth + 1) true [] name 0 firstClus ::
        .dir (depth + 1) children.count ::
        (children.listing (depth + 1) ++ rest.listing depth)

/-- The whole tree as a listing. -/
def Root.listing (root : Root) : List Line :=
  .root root.children.count :: root.children.listing 0

/-- The clusters of all files, with their use. -/
def Nodes.fileUses (path : PyStr) : Nodes → List (Nat × Use)
  | .nil =>
      []
  | .file name content firstClus rest =>
      (List.range' firstClus (clustersFor content.length)).map
          (fun c => (c, .file (childPath path name))) ++
        rest.fileUses path
  | .dir name _ _ _ children rest =>
      children.fileUses (childPath path name) ++ rest.fileUses path

/-- The inspection gives back what has been created. -/
structure Recovers
    (source : Nodes)
    (created : Created)
    (inspection : Inspection) : Prop where
  tree :
    created.root.children.erase = source.erase
  bpb :
    inspection.bpb = created.geometry.bpb
  lines :
    inspection.report.lines.map Line.plain = created.root.listing
  chains :
    ∀ entry ∈ created.root.children.fileUses [],
      inspection.report.occup.lookup entry.1 = some entry.2
  conflicts :
    inspection.report.conflicts = []

/-- Inspecting the image returns with a result. -/
def Inspects (img : List UInt8) (inspection : Inspection) : Prop :=
  ∃ bound, ∀ fuel, bound ≤ fuel →
    inspectImage fuel img = .ok inspection

/--
From a cluster on, no cluster of a file and none with entries of a directory
but its first one has a number that is an end mark.
-/
def Addressable : Nat → List Demand → Prop
  | _, [] =>
      True
  | place, demand :: rest =>
      (if demand.isDir then
        clustersFor (demand.size - 1) ≤ 1 ∨
          place + clustersFor (demand.size - 1) ≤ endMarks
      else
        place + clustersFor demand.size ≤ endMarks) ∧
      Addressable (place + clustersFor demand.size) rest

instance Addressable.decidable :
    ∀ place taken, Decidable (Addressable place taken)
  | _, [] =>
      isTrue trivial
  | place, demand :: rest =>
      have := Addressable.decidable (place + clustersFor demand.size) rest
      inferInstanceAs (Decidable (_ ∧ _))

/-- Names do not depend on what the layout fills in. -/
theorem Nodes.namesOk_of_erase
    {nodes renumbered : Nodes}
    (same : renumbered.erase = nodes.erase)
    (namesOk : nodes.NamesOk) :
    renumbered.NamesOk := by
  induction nodes generalizing renumbered with
  | nil =>
      cases renumbered with
      | nil => trivial
      | file => simp [Nodes.erase] at same
      | dir => simp [Nodes.erase] at same
  | file name content firstClus rest restIH =>
      cases renumbered with
      | nil => simp [Nodes.erase] at same
      | dir => simp [Nodes.erase] at same
      | file =>
          simp only [Nodes.erase, Nodes.file.injEq] at same
          obtain ⟨rfl, _, _, sameRest⟩ := same
          exact ⟨namesOk.1, restIH sameRest namesOk.2⟩
  | dir name parentClus firstClus dirN children rest childrenIH restIH =>
      cases renumbered with
      | nil => simp [Nodes.erase] at same
      | file => simp [Nodes.erase] at same
      | dir =>
          simp only [Nodes.erase, Nodes.dir.injEq] at same
          obtain ⟨rfl, _, _, _, sameChildren, sameRest⟩ := same
          exact ⟨namesOk.1, childrenIH sameChildren namesOk.2.1,
            restIH sameRest namesOk.2.2⟩

variable
  {source : Nodes}
  {sizeMb : Int}
  {created : Created}
  {rawFat : List UInt8}

/-- The walk may meet everything below the root. -/
theorem Complete.walkable
    (complete : Complete source sizeMb created rawFat)
    (namesOk : source.NamesOk) :
    Walkable created.geometry.bpb created.img created.root.children
      (rootClus + created.root.dirN) created.alloc.nextClus := by
  have written := complete.written
  obtain ⟨first, _, _, _, budgeted⟩ :=
    layoutRoot_allocated written.laidOut
  obtain ⟨_, _, rest⟩ := written.tiles.uncons
  simp only [Extent.behind, first] at rest
  have within := complete.within
  have inside := written.valid.fits
  have fits := written.totSec
  exact {
    namesOk := Nodes.namesOk_of_erase (layoutRoot_erase written.laidOut) namesOk
    budgeted := budgeted
    readable := fun extent member =>
      complete.readable (List.mem_cons_of_mem _ member)
    tiles := rest
    data := Nat.le_add_right ..
    fits := by
      simp only [rootClus, secPerClus] at *
      omega
  }

/-- What the inspection reports when it reaches all entries. -/
theorem Complete.inspectImage_eq
    (complete : Complete source sizeMb created rawFat)
    (namesOk : source.NamesOk)
    (reachable :
      ∀ extent ∈ created.root.extents, EntriesReachable extent)
    {fuel : Nat}
    (enough :
      created.root.children.height + created.alloc.nextClus < fuel) :
    inspectImage fuel created.img =
      .ok {
        bpb := created.geometry.bpb
        report := {
          lines :=
            .root (created.root.children.listed []).length ::
              created.root.children.lines 0 []
          occup :=
            (dirClusters rootClus created.root.dirN).map
                (fun c => (c, .dir [])) ++
              created.root.children.uses []
          conflicts := []
        }
      } := by
  have written := complete.written
  obtain ⟨first, _, _, rootBudgeted, _⟩ :=
    layoutRoot_allocated written.laidOut
  rw [first] at rootBudgeted
  obtain ⟨_, childEntries, _, childrenBuilt, _⟩ := rootBudgeted.holds
  have walkable := complete.walkable namesOk
  obtain ⟨rootPositive, stopReached⟩ :
      0 < created.root.dirN ∧
        rootClus + created.root.dirN ≤ created.alloc.nextClus := by
    obtain ⟨_, positive, ends⟩ :=
      written.tiles.bounds (List.mem_cons_self ..)
    dsimp only [Extent.behind] at positive ends
    rw [first] at ends
    exact ⟨positive, ends⟩
  obtain ⟨fuel, rfl⟩ : ∃ less, fuel = less + 1 := ⟨fuel - 1, by omega⟩
  have readable := complete.readable (List.mem_cons_self ..)
  have rootReachable := reachable _ (List.mem_cons_self ..)
  rw [first] at readable rootReachable
  have opened := walkDir_opened rootBudgeted walkable.namesOk
    walkable.numbered readable rootReachable rfl
    (show ∀ c ∈ ([] : List Nat), c < rootClus by simp)
    (show created.root.dirN ≤ fuel by omega)
    (show Report.Below ⟨[], [], []⟩ rootClus by simp [Report.Below]) 0 []
  have marked :=
    @Report.Below.extend ⟨[], [], []⟩ (rootClus + created.root.dirN)
      (by simp [Report.Below])
      [.root (created.root.children.listed []).length]
      ((dirClusters rootClus created.root.dirN).map fun c => (c, .dir []))
      (by
        rw [List.forall_mem_map]
        exact fun c member => (mem_dirClusters rootPositive member).2)
  have walked := walkChildren_nodes rfl walkable
    (fun extent member => reachable extent (List.mem_cons_of_mem _ member))
    childrenBuilt
    (show ∀ c ∈ [rootClus], c < rootClus + created.root.dirN by
      intro c member
      rw [List.mem_singleton.mp member]
      exact Nat.lt_add_of_pos_right rootPositive)
    (show created.root.children.height + created.alloc.nextClus ≤ fuel by
      omega)
    marked 0 []
  have partition := complete.partitionStart_eq
  have bpb := complete.readBpb_eq
  simp only [↓reduceIte] at opened
  rw [walked] at opened
  simp only [inspectImage, partition, Nat.zero_mul, bpb, raising, bind,
    Except.bind]
  change (walkDir created.geometry.bpb created.img (fuel + 1) 0 rootClus [] []
    ⟨[], [], []⟩).bind _ = _
  rw [opened]
  rfl

end Recovery

end UefiMount.MkFatImg
