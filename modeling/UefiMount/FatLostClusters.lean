import UefiMount.FatRecovery

namespace UefiMount.MkFatImg

open BumpAllocation ByteBuffer

/-!
# No lost clusters

The walk of an inspection starts at the root and sees only what is reachable.
On a created image that is all there is: the clusters that it finds in use are
those that the FAT has an entry for, and the entries lead from each of them to
a cluster of the same file or directory or to the end of the chain.
-/

/-- The table of an inspection says of the data clusters what the FAT says. -/
structure ExactOccupancy
    (g : Bpb)
    (img : List UInt8)
    (clusters : Nat)
    (occup : List (Nat × Use)) : Prop where
  /-- Only data clusters are in use. -/
  data :
    ∀ clus use, occup.lookup clus = some use →
      rootClus ≤ clus ∧ clus < clusters + rootClus
  /-- A cluster is in use exactly when its FAT entry is not zero. -/
  marked :
    ∀ clus, rootClus ≤ clus → clus < clusters + rootClus →
      ∃ next,
        g.nextClus img clus = .ok next ∧
          (next ≠ 0 ↔ ∃ use, occup.lookup clus = some use)
  /-- A chain stays with the file or directory that it belongs to. -/
  chained :
    ∀ clus use, occup.lookup clus = some use →
      g.nextClus img clus = .ok eoc ∨
        ∃ next,
          g.nextClus img clus = .ok next ∧
            occup.lookup next = some use

section Table

variable
  {source : Nodes}
  {sizeMb : Int}
  {created : Created}
  {rawFat : List UInt8}

/-- Data clusters that have no entry are zero in the FAT. -/
theorem packFat_blank
    {fatSec : Nat}
    {fat : List (Nat × Nat)}
    (distinct : (fat.map Prod.fst).Nodup)
    (packed : packFat fatSec fat = .ok rawFat)
    {clus : Nat}
    (data : rootClus ≤ clus)
    (unused : clus ∉ fat.map Prod.fst)
    (inside : clus * 4 + 4 ≤ fatSec * sector) :
    slice rawFat (clus * 4) 4 = LittleEndian.bytes 4 0 := by
  simp only [packFat, bind_eq_ok] at packed
  obtain ⟨entries, entriesPacked, marked, first, second⟩ := packed
  simp only [rootClus] at data
  rw [(packEntry_slice second).2.2 clus (by omega),
    (packEntry_slice first).2.2 clus (by omega),
    (packEntries_slice distinct entriesPacked).1 clus unused,
    slice, List.drop_replicate, List.take_replicate, Nat.min_eq_left]
  · rfl
  · omega

/-- The clusters that the dictionary has entries for. -/
theorem Written.keys
    (written : Written source sizeMb created rawFat) :
    created.alloc.fat.map Prod.fst =
      List.range' rootClus (created.alloc.nextClus - rootClus) := by
  obtain ⟨_, tiles, fat, _⟩ := layoutRoot_allocated written.laidOut
  rw [fat, List.map_flatMap]
  simp only [Extent.links_map_fst]
  exact tiles.flatMap_units

/-- Behind the allocated clusters the FAT is blank. -/
theorem Complete.nextClus_blank
    (complete : Complete source sizeMb created rawFat)
    {clus : Nat}
    (behind : created.alloc.nextClus ≤ clus)
    (data : rootClus ≤ clus)
    (inside : clus < created.geometry.clusCount + rootClus) :
    created.geometry.bpb.nextClus created.img clus = .ok 0 := by
  have written := complete.written
  have table := written.valid.table
  simp only [rootClus] at inside
  have blank := packFat_blank
    (by rw [written.keys]; exact List.nodup_range') written.packed data
    (by rw [written.keys, List.mem_range'_1]; omega)
    (show clus * 4 + 4 ≤ _ by omega)
  have copy := written.region complete.shows complete.dataStart_reached
    ⟨created.geometry.fatOffset 0, rawFat⟩ (by simp [fatPatches])
  dsimp only at copy
  have length := length_packFat written.packed
  have cut := @slice_slice _ created.img (created.geometry.fatOffset 0)
    rawFat.length (clus * 4) 4 (by omega)
  rw [copy, blank] at cut
  have start :
      created.geometry.bpb.fatOff = created.geometry.fatOffset 0 := by
    simp [Bpb.fatOff, Geometry.bpb, Geometry.fatOffset]
  rw [Bpb.nextClus, start]
  exact unpackFrom_slice cut.symm (by decide) (by decide)

end Table

section Owners

/-- A directory's clusters below the end marks are all found. -/
theorem dirClusters_eq
    {first count : Nat}
    (positive : 0 < count)
    (within : first + count ≤ endMarks) :
    dirClusters first count = List.range' first count := by
  obtain ⟨less, rfl⟩ : ∃ less, count = less + 1 := ⟨count - 1, by omega⟩
  rw [dirClusters, Nat.add_sub_cancel, followed_eq (by omega),
    List.range'_succ]

/-- All clusters of a run have the same use. -/
theorem Nodes.uses_of_extent
    {nodes : Nodes}
    {extent : Extent Area}
    (member : extent ∈ nodes.extents)
    (occupied : 0 < extent.count)
    (within : extent.behind ≤ endMarks)
    (path : PyStr) :
    ∃ use, ∀ clus ∈ extent.units, (clus, use) ∈ nodes.uses path := by
  induction nodes generalizing path with
  | nil =>
      cases member
  | file name content firstClus rest restIH =>
      simp only [extents] at member
      split at member
      case isTrue =>
        obtain ⟨use, known⟩ := restIH member path
        exact ⟨use, fun clus unit => List.mem_append_right _ (known clus unit)⟩
      case isFalse =>
        rcases List.mem_cons.mp member with rfl | member
        · refine ⟨.file (childPath path name), fun clus unit => ?_⟩
          refine List.mem_append_left _ (List.mem_map.mpr ⟨clus, ?_, rfl⟩)
          rw [followed_eq within]
          exact unit
        · obtain ⟨use, known⟩ := restIH member path
          exact ⟨use, fun clus unit =>
            List.mem_append_right _ (known clus unit)⟩
  | dir name parentClus firstClus dirN children rest childrenIH restIH =>
      simp only [extents, List.mem_cons, List.mem_append] at member
      simp only [uses, List.mem_append]
      rcases member with rfl | inChildren | inRest
      · refine ⟨.dir (childPath path name), fun clus unit => .inl ?_⟩
        refine List.mem_map.mpr ⟨clus, ?_, rfl⟩
        rw [dirClusters_eq occupied within]
        exact unit
      · obtain ⟨use, known⟩ := childrenIH inChildren (childPath path name)
        exact ⟨use, fun clus unit => .inr (.inl (known clus unit))⟩
      · obtain ⟨use, known⟩ := restIH inRest path
        exact ⟨use, fun clus unit => .inr (.inr (known clus unit))⟩

/-- The clusters that the walk of a created image finds in use. -/
def Root.uses (root : Root) : List (Nat × Use) :=
  (dirClusters rootClus root.dirN).map (fun clus => (clus, .dir [])) ++
    root.children.uses []

variable
  {source : Nodes}
  {sizeMb : Int}
  {created : Created}
  {rawFat : List UInt8}

/-- Only clusters of the runs are in use, each of them once. -/
theorem Written.uses_sublist
    (written : Written source sizeMb created rawFat) :
    (created.root.uses.map Prod.fst).Sublist
      (created.root.extents.flatMap Extent.units) := by
  obtain ⟨first, _, _, own, budgeted⟩ :=
    layoutRoot_allocated written.laidOut
  rw [Root.uses, Root.extents, List.flatMap_cons, List.map_append]
  refine List.Sublist.append ?_ (Nodes.uses_sublist budgeted [])
  simpa [Function.comp_def, Extent.units, first] using
    dirClusters_sublist own.occupied.bounds.1

/-- When no number is an end mark, each run has one use of its own. -/
theorem Written.use_of_extent
    (written : Written source sizeMb created rawFat)
    (small : created.alloc.nextClus ≤ endMarks)
    {extent : Extent Area}
    (member : extent ∈ created.root.extents) :
    ∃ use, ∀ clus ∈ extent.units,
      created.root.uses.lookup clus = some use := by
  obtain ⟨_, occupied, ends⟩ := written.tiles.bounds member
  have within := Nat.le_trans ends small
  have distinct : (created.root.uses.map Prod.fst).Nodup :=
    written.uses_sublist.nodup written.tiles.nodup
  obtain ⟨use, known⟩ :
      ∃ use, ∀ clus ∈ extent.units, (clus, use) ∈ created.root.uses := by
    rcases List.mem_cons.mp member with rfl | inChildren
    · refine ⟨.dir [], fun clus unit => ?_⟩
      refine List.mem_append_left _ (List.mem_map.mpr ⟨clus, ?_, rfl⟩)
      have first := (layoutRoot_allocated written.laidOut).1
      simp only [Extent.units, Extent.behind, first] at unit within
      rwa [dirClusters_eq occupied within]
    · obtain ⟨use, known⟩ :=
        Nodes.uses_of_extent inChildren occupied within []
      exact ⟨use, fun clus unit =>
        List.mem_append_right _ (known clus unit)⟩
  exact ⟨use, fun clus unit => lookup_of_mem distinct (known clus unit)⟩

/-- A cluster in use lies in a run, and the FAT has its link there. -/
theorem Complete.entry_of_use
    (complete : Complete source sizeMb created rawFat)
    {clus : Nat}
    {use : Use}
    (found : created.root.uses.lookup clus = some use) :
    ∃ extent ∈ created.root.extents, ∃ place < extent.count,
      clus = extent.first + place ∧
        created.geometry.bpb.nextClus created.img clus =
          .ok (extent.link eoc place) := by
  obtain ⟨front, back, shape, _⟩ := List.lookup_eq_some_iff.mp found
  have key : clus ∈ created.root.uses.map Prod.fst := by
    rw [shape]
    simp
  obtain ⟨extent, member, unit⟩ :=
    List.mem_flatMap.mp (complete.written.uses_sublist.subset key)
  rw [Extent.mem_units, Extent.behind] at unit
  obtain ⟨place, rfl⟩ := Nat.exists_eq_add_of_le unit.1
  have inside : place < extent.count := by omega
  exact ⟨extent, member, place, inside, rfl,
    complete.nextClus_eq member inside⟩

/-- The walk's table is exact on a complete image without end marks in it. -/
theorem Complete.exactOccupancy
    (complete : Complete source sizeMb created rawFat)
    (small : created.alloc.nextClus ≤ endMarks) :
    ExactOccupancy created.geometry.bpb created.img
      created.geometry.clusCount created.root.uses where
  data := by
    intro clus use found
    obtain ⟨extent, member, place, within, rfl, _⟩ :=
      complete.entry_of_use found
    obtain ⟨starts, _, ends⟩ := complete.written.tiles.bounds member
    have inside := complete.within
    rw [Extent.behind] at ends
    omega
  marked := by
    intro clus data inside
    by_cases allocated : clus < created.alloc.nextClus
    · have unit : clus ∈ created.root.extents.flatMap Extent.units := by
        rw [complete.written.tiles.flatMap_units, List.mem_range'_1]
        omega
      obtain ⟨extent, member, unit⟩ := List.mem_flatMap.mp unit
      obtain ⟨use, known⟩ := complete.written.use_of_extent small member
      obtain ⟨other, otherMember, place, within, rfl, entry⟩ :=
        complete.entry_of_use (known clus unit)
      refine ⟨_, entry, fun _ => ⟨use, known _ unit⟩, fun _ => ?_⟩
      rw [Extent.link]
      split
      · omega
      · decide
    · refine ⟨0, complete.nextClus_blank (Nat.not_lt.mp allocated) data
        inside, fun notZero => (notZero rfl).elim, ?_⟩
      rintro ⟨use, found⟩
      obtain ⟨extent, member, place, within, rfl, _⟩ :=
        complete.entry_of_use found
      have ends := (complete.written.tiles.bounds member).2.2
      rw [Extent.behind] at ends
      omega
  chained := by
    intro clus use found
    obtain ⟨extent, member, place, within, rfl, entry⟩ :=
      complete.entry_of_use found
    obtain ⟨owner, known⟩ := complete.written.use_of_extent small member
    have here := known (extent.first + place)
      (Extent.mem_units.mpr (by rw [Extent.behind]; omega))
    rw [found] at here
    obtain rfl := Option.some.inj here
    by_cases last : place + 1 < extent.count
    · right
      refine ⟨_, entry, ?_⟩
      rw [Extent.link, if_pos last]
      exact known _ (Extent.mem_units.mpr (by rw [Extent.behind]; omega))
    · left
      rw [entry, Extent.link, if_neg last]

/--
An inspection of a created image finds every cluster that the FAT marks, and
the chains stay with their files and directories: no cluster is lost.
-/
theorem inspectImage_exactOccupancy
    (made : createImage source sizeMb = .ok created)
    (namesOk : source.NamesOk)
    (fits :
      created.alloc.nextClus - rootClus +
          (demands source).countP Demand.isDir ≤
        created.geometry.clusCount)
    (small : created.alloc.nextClus ≤ endMarks) :
    ∃ inspection,
      Inspects created.img inspection ∧
        ExactOccupancy inspection.bpb created.img
          created.geometry.clusCount inspection.report.occup := by
  obtain ⟨rawFat, written⟩ := createImage_eq_ok.mp made
  have complete := written.complete (by
    rwa [layoutRoot_nextClus written.laidOut,
      Nat.add_sub_cancel_left] at fits)
  have reachable :
      ∀ extent ∈ created.root.extents, EntriesReachable extent := by
    intro extent member _ place _ inside
    obtain ⟨_, _, ends⟩ := written.tiles.bounds member
    have holds := (layoutRoot_occupied written.laidOut extent member).1.bounds
    simp only [Extent.behind, bytesPerCluster, sector, secPerClus] at *
    omega
  exact ⟨_, ⟨_, fun fuel enough => complete.inspectImage_eq namesOk reachable
    (Nat.lt_of_succ_le enough)⟩, complete.exactOccupancy small⟩

/-- The small tree has no lost cluster. -/
theorem inspectImage_exactOccupancy_sample :
    ∃ created inspection,
      createImage sampleTree 257 = .ok created ∧
        Inspects created.img inspection ∧
        ExactOccupancy inspection.bpb created.img 65659
          inspection.report.occup := by
  obtain ⟨created, made, next, size, fits⟩ := createImage_sample
  obtain ⟨inspection, inspects, exact⟩ :=
    inspectImage_exactOccupancy made sampleTree_namesOk fits
      (Nat.le_trans (Nat.le_of_eq next) (by decide))
  exact ⟨created, inspection, made, inspects, size ▸ exact⟩

end Owners

end UefiMount.MkFatImg
