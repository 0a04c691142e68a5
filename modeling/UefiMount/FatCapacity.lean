import UefiMount.FatRecovery
import UefiMount.FatSizing

namespace UefiMount.MkFatImg

open BumpAllocation

/-!
# What the volume has room for

`create_image` counts clusters up as it allocates them, and nothing compares
them with the clusters that the volume has.  The only limit is the FAT: a
cluster without an entry there stops the run.  The FAT has entries to spare
behind the last cluster, so a tree that needs a few clusters too many is
written, and its last clusters lie outside the declared volume.
-/

/-- The cluster number is one of the data area's. -/
structure InDataArea (geometry : Geometry) (clus : Nat) : Prop where
  first :
    rootClus ≤ clus
  last :
    clus ≤ geometry.clusCount + 1

/-- The first clusters that the directory entries below a directory hold. -/
def Nodes.storedClusters : Nodes → List Nat
  | .nil =>
      []
  | .file _ content firstClus rest =>
      (if content.length ≠ 0 then firstClus else 0) :: rest.storedClusters
  | .dir _ parentClus firstClus _ children rest =>
      -- The directory's own entry, then "." and "..".
      firstClus :: firstClus ::
        (if parentClus ≠ rootClus then parentClus else 0) ::
          (children.storedClusters ++ rest.storedClusters)

/-- What an image stores about clusters is about those of its data area. -/
structure WithinVolume (created : Created) : Prop where
  allocated :
    ∀ entry ∈ created.alloc.fat, InDataArea created.geometry entry.1
  links :
    ∀ entry ∈ created.alloc.fat,
      entry.2 ≠ eoc →
      InDataArea created.geometry entry.2
  entries :
    ∀ clus ∈ created.root.children.storedClusters,
      clus ≠ 0 →
      InDataArea created.geometry clus

/-- No image overcommits its volume, and a tree too large has no image. -/
structure NeverOvercommits (source : Nodes) (sizeMb : Int) : Prop where
  within :
    ∀ created,
      createImage source sizeMb = .ok created →
      WithinVolume created
  refused :
    ∀ geometry,
      createGeometry sizeMb = .ok geometry →
      geometry.clusCount < clustersOf (demands source) →
      ∃ problem, createImage source sizeMb = .error problem

section Listings

/-- The entries of each directory below a directory can be built. -/
def Nodes.Listable : Nodes → Prop
  | .nil =>
      True
  | .file _ _ _ rest =>
      rest.Listable
  | .dir _ _ _ _ children rest =>
      (∃ stream, buildDirEntries rootClus 0 children = .ok stream) ∧
        children.Listable ∧ rest.Listable

/-- The entries of each directory of the tree can be built. -/
def TreeListable (source : Nodes) : Prop :=
  (∃ stream, buildDirEntries 0 0 source = .ok stream) ∧ source.Listable

theorem nextClus_le_allocRun (size : Nat) (alloc : Allocator) :
    alloc.nextClus ≤ (allocRun size alloc).2.nextClus := by
  rw [allocRun]
  split
  · exact Nat.le_refl _
  · exact Nat.le_add_right ..

/-- Whether entries can be built does not depend on the cluster numbers. -/
theorem buildDirEntries_returns_iff
    {parentClus : Nat}
    (hasParent : parentClus ≠ 0)
    (firstClus : Nat)
    (children : Nodes) :
    (∃ stream, buildDirEntries parentClus firstClus children = .ok stream) ↔
      ∃ stream, buildDirEntries rootClus 0 children = .ok stream := by
  have kinds : rootClus ≠ 0 ↔ parentClus ≠ 0 :=
    ⟨fun _ => hasParent, fun _ => by decide⟩
  constructor
  · rintro ⟨stream, built⟩
    obtain ⟨rebuilt, other, _⟩ := buildDirEntries_renumber rfl built kinds 0
    exact ⟨rebuilt, other⟩
  · rintro ⟨stream, built⟩
    obtain ⟨rebuilt, other, _⟩ :=
      buildDirEntries_renumber rfl built kinds.symm firstClus
    exact ⟨rebuilt, other⟩

/-- The layout of a part of the tree fails on entries only. -/
theorem layoutNodes_returns_iff
    {parentClus : Nat}
    {nodes : Nodes}
    {alloc : Allocator}
    (hasParent : parentClus ≠ 0)
    (reached : rootClus ≤ alloc.nextClus) :
    (∃ result, layoutNodes parentClus nodes alloc = .ok result) ↔
      nodes.Listable := by
  induction nodes generalizing parentClus alloc with
  | nil =>
      exact ⟨fun _ => trivial, fun _ => ⟨_, rfl⟩⟩
  | file name content firstClus rest restIH =>
      rw [Nodes.Listable, ← restIH hasParent
        (Nat.le_trans reached (nextClus_le_allocRun content.length alloc))]
      simp only [layoutNodes, bind_eq_ok]
      constructor
      · rintro ⟨_, result, restLaid, _⟩
        exact ⟨result, restLaid⟩
      · rintro ⟨result, restLaid⟩
        exact ⟨_, result, restLaid, rfl⟩
  | dir name oldParent firstClus dirN children rest childrenIH restIH =>
      rw [Nodes.Listable,
        ← buildDirEntries_returns_iff hasParent firstClus]
      simp only [layoutNodes, bind_eq_ok]
      -- Where the parts are laid out, once the entries are built.
      have parts :
          ∀ {entries : List UInt8},
            buildDirEntries parentClus firstClus children = .ok entries →
            (allocRun (clustersFor entries.length * bytesPerCluster)
                alloc).1 ≠ 0 ∧
              rootClus ≤
                (allocRun (clustersFor entries.length * bytesPerCluster)
                  alloc).2.nextClus := by
        intro entries built
        obtain ⟨positive, _⟩ := clustersFor_stream built
        refine ⟨?_, Nat.le_trans reached (nextClus_le_allocRun ..)⟩
        rw [allocRun, if_neg (Nat.pos_iff_ne_zero.mp positive)]
        simp only [rootClus] at reached ⊢
        omega
      constructor
      · rintro ⟨_, entries, built, inside, childrenLaid, later, restLaid, _⟩
        obtain ⟨firstSome, within⟩ := parts built
        obtain ⟨_, further⟩ :=
          layoutNodes_takenBy childrenLaid firstSome within
        exact ⟨⟨entries, built⟩,
          (childrenIH firstSome within).mp ⟨inside, childrenLaid⟩,
          (restIH hasParent further).mp ⟨later, restLaid⟩⟩
      · rintro ⟨⟨entries, built⟩, childrenListable, restListable⟩
        obtain ⟨firstSome, within⟩ := parts built
        obtain ⟨inside, childrenLaid⟩ :=
          (childrenIH firstSome within).mpr childrenListable
        obtain ⟨_, further⟩ :=
          layoutNodes_takenBy childrenLaid firstSome within
        obtain ⟨later, restLaid⟩ :=
          (restIH hasParent further).mpr restListable
        exact ⟨_, entries, built, inside, childrenLaid, later, restLaid, rfl⟩

/-- The layout of a tree fails on entries only. -/
theorem layoutRoot_returns_iff (source : Nodes) :
    (∃ result, layoutRoot source = .ok result) ↔ TreeListable source := by
  simp only [TreeListable, layoutRoot, bind_eq_ok]
  have parts :
      ∀ {entries : List UInt8},
        buildDirEntries 0 0 source = .ok entries →
        (allocRun (clustersFor entries.length * bytesPerCluster)
            ⟨rootClus, []⟩).1 ≠ 0 := by
    intro entries built
    obtain ⟨positive, _⟩ := clustersFor_stream built
    rw [allocRun, if_neg (Nat.pos_iff_ne_zero.mp positive)]
    exact (by decide : rootClus ≠ 0)
  constructor
  · rintro ⟨_, entries, built, inside, childrenLaid, _⟩
    exact ⟨⟨entries, built⟩,
      (layoutNodes_returns_iff (parts built)
        (nextClus_le_allocRun _ ⟨rootClus, []⟩)).mp ⟨inside, childrenLaid⟩⟩
  · rintro ⟨⟨entries, built⟩, listable⟩
    obtain ⟨inside, childrenLaid⟩ :=
      (layoutNodes_returns_iff (parts built)
        (nextClus_le_allocRun _ ⟨rootClus, []⟩)).mpr listable
    exact ⟨_, entries, built, inside, childrenLaid, rfl⟩

end Listings

section Stored

/-- Directory entries hold first clusters of runs, or none. -/
theorem layoutNodes_stored
    {parentClus : Nat}
    {nodes laid : Nodes}
    {alloc after : Allocator}
    (result : layoutNodes parentClus nodes alloc = .ok (laid, after)) :
    ∀ clus ∈ laid.storedClusters,
      clus = 0 ∨ clus = parentClus ∨
        ∃ extent ∈ laid.extents, extent.first = clus := by
  induction nodes generalizing parentClus laid alloc after with
  | nil =>
      obtain ⟨rfl, rfl⟩ := Prod.mk.inj (Except.ok.inj result)
      exact fun clus member => (List.not_mem_nil member).elim
  | file name content firstClus rest restIH =>
      simp only [layoutNodes, bind_eq_ok] at result
      obtain ⟨⟨rest', alloc'⟩, restLaid, joined⟩ := result
      obtain ⟨rfl, rfl⟩ := Prod.mk.inj (Except.ok.inj joined)
      have later := restIH restLaid
      by_cases empty : content = []
      · simpa [Nodes.storedClusters, Nodes.extents, empty] using later
      · have some : content.length ≠ 0 :=
          Nat.ne_of_gt (List.length_pos_iff.mpr empty)
        simp only [Nodes.storedClusters, Nodes.extents, if_pos some,
          if_neg empty, List.forall_mem_cons]
        refine ⟨.inr (.inr ⟨_, List.mem_cons_self .., rfl⟩), ?_⟩
        intro clus member
        refine (later clus member).imp_right (.imp_right ?_)
        rintro ⟨extent, known, first⟩
        exact ⟨extent, List.mem_cons_of_mem _ known, first⟩
  | dir name oldParent firstClus dirN children rest childrenIH restIH =>
      simp only [layoutNodes, bind_eq_ok] at result
      obtain ⟨entries, _, ⟨children', alloc'⟩, childrenLaid,
        ⟨rest', alloc''⟩, restLaid, joined⟩ := result
      obtain ⟨rfl, rfl⟩ := Prod.mk.inj (Except.ok.inj joined)
      simp only [Nodes.storedClusters, Nodes.extents]
      intro clus member
      simp only [List.mem_cons, List.mem_append] at member
      have own :
          ∃ extent ∈
              (⟨(allocRun (clustersFor entries.length * bytesPerCluster)
                  alloc).1, clustersFor entries.length, true,
                dirStream parentClus
                  (allocRun (clustersFor entries.length * bytesPerCluster)
                    alloc).1 children'⟩ :: (children'.extents ++
                  rest'.extents) : List (Extent Area)),
            extent.first =
              (allocRun (clustersFor entries.length * bytesPerCluster)
                alloc).1 :=
        ⟨_, List.mem_cons_self .., rfl⟩
      rcases member with rfl | rfl | rfl | inChildren | inRest
      · exact .inr (.inr own)
      · exact .inr (.inr own)
      · split
        · exact .inr (.inl rfl)
        · exact .inl rfl
      · rcases childrenIH childrenLaid clus inChildren with
          none | rfl | ⟨extent, known, first⟩
        · exact .inl none
        · exact .inr (.inr own)
        · exact .inr (.inr ⟨extent, List.mem_cons_of_mem _
            (List.mem_append_left _ known), first⟩)
      · rcases restIH restLaid clus inRest with
          none | parent | ⟨extent, known, first⟩
        · exact .inl none
        · exact .inr (.inl parent)
        · exact .inr (.inr ⟨extent, List.mem_cons_of_mem _
            (List.mem_append_right _ known), first⟩)

theorem layoutRoot_stored
    {source : Nodes}
    {root : Root}
    {alloc : Allocator}
    (laidOut : layoutRoot source = .ok (root, alloc)) :
    ∀ clus ∈ root.children.storedClusters,
      clus = 0 ∨ ∃ extent ∈ root.extents, extent.first = clus := by
  simp only [layoutRoot, bind_eq_ok] at laidOut
  obtain ⟨entries, _, ⟨children, alloc'⟩, childrenLaid, joined⟩ := laidOut
  obtain ⟨rfl, rfl⟩ := Prod.mk.inj (Except.ok.inj joined)
  intro clus member
  rcases layoutNodes_stored childrenLaid clus member with
    none | rfl | ⟨extent, known, first⟩
  · exact .inl none
  · exact .inr ⟨_, List.mem_cons_self .., rfl⟩
  · exact .inr ⟨extent, List.mem_cons_of_mem _ known, first⟩

/-- The last cluster of a run is a key of the FAT. -/
theorem lastKey_mem
    {root : Root}
    {alloc : Allocator}
    (fat : alloc.fat = root.extents.flatMap (Extent.links eoc))
    {extent : Extent Area}
    (member : extent ∈ root.extents)
    (positive : 0 < extent.count) :
    (extent.first + (extent.count - 1), extent.link eoc (extent.count - 1)) ∈
      alloc.fat := by
  rw [fat]
  exact List.mem_flatMap.mpr ⟨extent, member, List.mem_map.mpr
    ⟨extent.count - 1, List.mem_range.mpr (by omega), rfl⟩⟩

/-- Everything is within the volume exactly when the allocation ends there. -/
theorem Written.within_iff
    {source : Nodes}
    {sizeMb : Int}
    {created : Created}
    {rawFat : List UInt8}
    (written : Written source sizeMb created rawFat) :
    WithinVolume created ↔
      clustersOf (demands source) ≤ created.geometry.clusCount := by
  obtain ⟨_, tiles, fat, _, _⟩ := layoutRoot_allocated written.laidOut
  have next := layoutRoot_nextClus written.laidOut
  constructor
  · intro within
    obtain ⟨last, member, ends⟩ := tiles.last (List.cons_ne_nil _ _)
    have positive := (tiles.bounds member).2.1
    have key := lastKey_mem fat member positive
    have inside := (within.allocated _ key).last
    simp only [Extent.behind, rootClus] at ends next inside
    omega
  · intro fits
    have inRange :
        ∀ clus,
          rootClus ≤ clus →
          clus < created.alloc.nextClus →
          InDataArea created.geometry clus := by
      intro clus first below
      refine ⟨first, ?_⟩
      simp only [rootClus] at next
      omega
    have linked :
        ∀ entry ∈ created.alloc.fat,
          ∃ extent ∈ created.root.extents, ∃ place < extent.count,
            entry = (extent.first + place, extent.link eoc place) := by
      intro entry member
      rw [fat] at member
      obtain ⟨extent, known, link⟩ := List.mem_flatMap.mp member
      obtain ⟨place, below, rfl⟩ := List.mem_map.mp link
      exact ⟨extent, known, place, List.mem_range.mp below, rfl⟩
    constructor
    case allocated =>
      intro entry member
      obtain ⟨extent, known, place, below, rfl⟩ := linked entry member
      obtain ⟨first, _, behind⟩ := tiles.bounds known
      simp only [Extent.behind] at behind
      exact inRange _ (Nat.le_trans first (Nat.le_add_right ..)) (by omega)
    case links =>
      intro entry member notEnd
      obtain ⟨extent, known, place, below, rfl⟩ := linked entry member
      obtain ⟨first, _, behind⟩ := tiles.bounds known
      simp only [Extent.behind] at behind
      simp only [Extent.link] at notEnd ⊢
      split
      · exact inRange _ (by omega) (by omega)
      · rename_i last
        exact absurd (if_neg last) notEnd
    case entries =>
      intro clus member some
      obtain ⟨extent, known, rfl⟩ :=
        (layoutRoot_stored written.laidOut clus member).resolve_left some
      obtain ⟨first, positive, behind⟩ := tiles.bounds known
      simp only [Extent.behind] at behind
      exact inRange _ first (by omega)

end Stored

section Sizes

/-- The FAT has no more sectors than one sector's data area needs. -/
theorem createGeometry_fatSec
    {sizeMb : Int}
    {geometry : Geometry}
    (sized : createGeometry sizeMb = .ok geometry) :
    geometry.fatSec * 128 ≤ geometry.totSec / 8 + 128 := by
  have returned :=
    @fatSzLoop_returns (sizeMb * 1024 * 1024 / sector) rsvdSecCnt numFats
      secPerClus (by decide) (by decide) 0
  rw [fatSzLoop_eq_fatSzFor] at returned
  have sizes := Option.some.inj returned
  simp only [createGeometry] at sized
  rw [sizes] at sized
  split at sized
  case isTrue =>
    cases sized
  case isFalse many =>
    obtain rfl := Except.ok.inj sized
    have first := @fatSectors_clusFor (sizeMb * 1024 * 1024 / sector)
      rsvdSecCnt numFats secPerClus (by decide) 1
    rw [reachedSize, first] at *
    simp only [clusFor, scaledTotal, rsvdSecCnt, numFats, secPerClus, sector,
      fat32MinClusters] at *
    omega

/-- The declared data area has just the clusters of `clus_count`. -/
theorem inDataArea_iff
    {sizeMb : Int}
    {geometry : Geometry}
    (sized : createGeometry sizeMb = .ok geometry)
    (clus : Nat) :
    InDataArea geometry clus ↔
      rootClus ≤ clus ∧
        geometry.dataSec + (clus - rootClus + 1) * secPerClus ≤
          geometry.totSec := by
  have fixed := fatSzFrom_fixed (sizeMb * 1024 * 1024 / sector) 1
  have valid := createGeometry_valid sized
  rw [← fatSzFor] at fixed
  obtain ⟨clusters, _, atLeast⟩ := fixed
  simp only [createGeometry] at sized
  split at sized
  case isTrue =>
    cases sized
  case isFalse many =>
    obtain rfl := Except.ok.inj sized
    have fits := valid.fits
    simp only [clusWith, Geometry.dataSec, rsvdSecCnt, numFats, secPerClus,
      sector, fat32MinClusters, rootClus] at *
    constructor
    · rintro ⟨first, last⟩
      simp only [rootClus] at first last ⊢
      omega
    · rintro ⟨first, within⟩
      refine ⟨first, ?_⟩
      dsimp only
      omega

variable {source : Nodes} {sizeMb : Int}

/-- `create_image` writes a file exactly when the FAT has the entries. -/
theorem createImage_returns_iff :
    (∃ created, createImage source sizeMb = .ok created) ↔
      ∃ geometry,
        createGeometry sizeMb = .ok geometry ∧
          geometry.totSec < 256 ^ 4 ∧
          TreeListable source ∧
          clustersOf (demands source) + 2 ≤ geometry.fatSec * 128 := by
  constructor
  · rintro ⟨created, made⟩
    obtain ⟨rawFat, written⟩ := createImage_eq_ok.mp made
    refine ⟨created.geometry, written.geometry, written.totSec,
      (layoutRoot_returns_iff source).mp ⟨_, written.laidOut⟩, ?_⟩
    obtain ⟨_, tiles, fat, _, _⟩ := layoutRoot_allocated written.laidOut
    have next := layoutRoot_nextClus written.laidOut
    obtain ⟨last, member, ends⟩ := tiles.last (List.cons_ne_nil _ _)
    have key := lastKey_mem fat member (tiles.bounds member).2.1
    have inside := packFat_inside written.packed _ key
    simp only [Extent.behind, rootClus, sector] at ends next inside
    omega
  · rintro ⟨geometry, sized, totSec, listable, entries⟩
    obtain ⟨⟨root, alloc⟩, laidOut⟩ :=
      (layoutRoot_returns_iff source).mpr listable
    have next := layoutRoot_nextClus laidOut
    have sectors := createGeometry_fatSec sized
    simp only [rootClus] at next
    obtain ⟨rawFat, img, written⟩ :=
      createImage_packs sized totSec laidOut
        (by simp only [sector]; omega) (by omega)
    exact ⟨_, createImage_eq_ok.mpr ⟨rawFat, written⟩⟩

/-- The sizes of an image are those that its capacity gives. -/
theorem Written.geometry_eq
    {created : Created}
    {rawFat : List UInt8}
    (written : Written source sizeMb created rawFat)
    {geometry : Geometry}
    (sized : createGeometry sizeMb = .ok geometry) :
    geometry = created.geometry :=
  Except.ok.inj (sized.symm.trans written.geometry)

/--
The tree needs more clusters than the volume has, but not more than the FAT
has entries for, and nothing else stops the run.
-/
structure Overcommits (source : Nodes) (sizeMb : Int) : Prop where
  listable :
    TreeListable source
  spare :
    ∃ geometry,
      createGeometry sizeMb = .ok geometry ∧
        geometry.totSec < 256 ^ 4 ∧
        geometry.clusCount < clustersOf (demands source) ∧
        clustersOf (demands source) + 2 ≤ geometry.fatSec * 128

/-- A tree that fits into the spare entries only is written all the same. -/
theorem Overcommits.created (overcommits : Overcommits source sizeMb) :
    ∃ created,
      createImage source sizeMb = .ok created ∧ ¬ WithinVolume created := by
  obtain ⟨listable, geometry, sized, totSec, many, entries⟩ := overcommits
  obtain ⟨created, made⟩ :=
    createImage_returns_iff.mpr ⟨geometry, sized, totSec, listable, entries⟩
  obtain ⟨rawFat, written⟩ := createImage_eq_ok.mp made
  obtain rfl := written.geometry_eq sized
  exact ⟨created, made, fun within =>
    Nat.not_le.mpr many (written.within_iff.mp within)⟩

/-- Images stay within their volumes unless the spare entries are used. -/
theorem neverOvercommits_iff (source : Nodes) (sizeMb : Int) :
    NeverOvercommits source sizeMb ↔ ¬ Overcommits source sizeMb := by
  constructor
  · intro never overcommits
    obtain ⟨created, made, notWithin⟩ := overcommits.created
    exact notWithin (never.within created made)
  · intro fits
    have enough :
        ∀ created,
          createImage source sizeMb = .ok created →
          clustersOf (demands source) ≤ created.geometry.clusCount := by
      intro created made
      obtain ⟨rawFat, written⟩ := createImage_eq_ok.mp made
      obtain ⟨geometry, sized, totSec, listable, entries⟩ :=
        createImage_returns_iff.mp ⟨created, made⟩
      obtain rfl := written.geometry_eq sized
      by_contra many
      exact fits ⟨listable, _, sized, totSec, Nat.not_le.mp many, entries⟩
    constructor
    case within =>
      intro created made
      obtain ⟨rawFat, written⟩ := createImage_eq_ok.mp made
      exact written.within_iff.mpr (enough created made)
    case refused =>
      intro geometry sized many
      cases made : createImage source sizeMb with
      | error problem =>
          exact ⟨problem, rfl⟩
      | ok created =>
          obtain ⟨rawFat, written⟩ := createImage_eq_ok.mp made
          obtain rfl := written.geometry_eq sized
          exact absurd (enough created made) (Nat.not_le.mpr many)

/-- A directory with a file that takes all but the first cluster behind it. -/
def crowdedTree : Nodes :=
  tower (List.replicate (65658 * bytesPerCluster) 0) 1

/-- The volume of 257 MB has 65659 clusters; the tree takes 65660. -/
theorem not_neverOvercommits_crowdedTree :
    ¬ NeverOvercommits crowdedTree 257 := by
  intro never
  have large := @List.length_replicate UInt8 (65658 * bytesPerCluster) 0
  have notEmpty : List.replicate (65658 * bytesPerCluster) (0 : UInt8) ≠ [] :=
    List.ne_nil_of_length_pos (by rw [large]; decide)
  have fits :
      (List.replicate (65658 * bytesPerCluster) (0 : UInt8)).length <
        256 ^ 4 := by
    rw [large]
    decide
  obtain ⟨clusters, _⟩ := clustersOf_demands_tower notEmpty fits 1
  rw [large, clustersFor_mul] at clusters
  obtain ⟨root, alloc, laidOut⟩ := layoutRoot_tower fits 1
  have overcommits : Overcommits crowdedTree 257 := {
    listable := (layoutRoot_returns_iff _).mp ⟨_, laidOut⟩
    spare := ⟨_, createGeometry_257, by decide,
      by rw [crowdedTree, clusters]; decide,
      by rw [crowdedTree, clusters]; decide⟩
  }
  obtain ⟨created, made, notWithin⟩ := overcommits.created
  exact notWithin (never.within created made)

end Sizes

end UefiMount.MkFatImg
