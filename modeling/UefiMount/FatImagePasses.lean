import UefiMount.FatClusterPartition

namespace UefiMount.MkFatImg

open BumpAllocation ByteBuffer

/-!
# The passes over the image buffer

What each pass of `create_image` leaves in the buffer, and how long the buffer
is then.  The two boot sectors lengthen it by one byte each, the last cluster
of every directory shortens it by what the stream lacks to whole clusters, and
a file that reaches beyond the end lengthens it again.
-/

/-- Consecutive clusters lie one behind the other. -/
theorem Geometry.offset_add
    (geometry : Geometry)
    {clus : Nat}
    (data : rootClus ≤ clus)
    (count : Nat) :
    geometry.offset (clus + count) =
      geometry.offset clus + count * bytesPerCluster := by
  simp only [offset]
  rw [Nat.sub_add_comm data, Nat.add_mul, Nat.add_assoc]

theorem Geometry.offset_mono
    (geometry : Geometry)
    {clus later : Nat}
    (atMost : clus ≤ later) :
    geometry.offset clus ≤ geometry.offset later := by
  have places : clus - rootClus ≤ later - rootClus :=
    Nat.sub_le_sub_right atMost _
  exact Nat.add_le_add_left (Nat.mul_le_mul_right _ places) _

theorem Geometry.offset_lt
    (geometry : Geometry)
    {clus later : Nat}
    (data : rootClus ≤ clus)
    (below : clus < later) :
    geometry.offset clus < geometry.offset later := by
  have places : clus - rootClus < later - rootClus := by omega
  exact Nat.add_lt_add_left (Nat.mul_lt_mul_of_pos_right places (by decide)) _

/-- The data area begins at the root directory. -/
theorem Geometry.dataStart_le_offset (geometry : Geometry) (clus : Nat) :
    geometry.dataStart ≤ geometry.offset clus :=
  Nat.le_add_right ..

/-- What is written of an area lies at its first cluster. -/
def areaPatch (geometry : Geometry) (extent : Extent Area) : Patch UInt8 where
  offset := geometry.offset extent.first
  data := extent.payload.data

/-- What the content of an area lacks to whole clusters. -/
def shortage (extent : Extent Area) : Nat :=
  extent.count * bytesPerCluster - extent.payload.data.length

/-- The area is a file of whole clusters. -/
def FullFile (extent : Extent Area) : Prop :=
  extent.payload.isDir = false ∧
    extent.payload.data.length = extent.count * bytesPerCluster

/-- The content takes just the clusters of the run, and a stream has its form. -/
structure Occupied (extent : Extent Area) : Prop where
  nonempty :
    0 < extent.payload.data.length
  count :
    extent.count = clustersFor extent.payload.data.length
  stream :
    extent.payload.isDir = true →
    extent.payload.data.length % 32 = 1

namespace Occupied

variable {extent : Extent Area}

/-- The content reaches into the last cluster of the run, and not beyond. -/
theorem bounds (occupied : Occupied extent) :
    0 < extent.count ∧
      extent.payload.data.length ≤ extent.count * bytesPerCluster ∧
      (extent.count - 1) * bytesPerCluster <
        extent.payload.data.length := by
  rw [occupied.count]
  exact clustersFor_bounds occupied.nonempty

/-- A directory stream never fills its last cluster. -/
theorem stream_short
    (occupied : Occupied extent)
    (isDir : extent.payload.isDir = true) :
    extent.payload.data.length < extent.count * bytesPerCluster := by
  have odd := occupied.stream isDir
  have fits := occupied.bounds.2.1
  simp only [bytesPerCluster, sector, secPerClus] at fits ⊢
  omega

/-- A directory is no file of whole clusters. -/
theorem not_fullFile
    (isDir : extent.payload.isDir = true) :
    ¬ FullFile extent := by
  simp [FullFile, isDir]

end Occupied

theorem DirBudgeted.occupied
    {parentClus firstClus dirN : Nat}
    {children : Nodes}
    (budgeted : DirBudgeted parentClus firstClus dirN children) :
    Occupied ⟨firstClus, dirN, true,
      dirStream parentClus firstClus children⟩ := by
  obtain ⟨stream, built, count⟩ := budgeted
  have same : dirStream parentClus firstClus children = stream := by
    simp [dirStream, built, Except.toOption]
  have odd := length_buildDirEntries built
  rw [same]
  exact {
    nonempty := by dsimp only; omega
    count := by
      rw [count]
      exact (clustersFor_stream built).2.symm
    stream := fun _ => odd
  }

theorem Nodes.Budgeted.occupied
    {nodes : Nodes}
    (budgeted : nodes.Budgeted) :
    ∀ extent ∈ nodes.extents, Occupied extent := by
  induction nodes with
  | nil =>
      simp [Nodes.extents]
  | file name content firstClus rest restIH =>
      intro extent member
      simp only [Nodes.extents] at member
      split at member
      · exact restIH budgeted.2 extent member
      case isFalse nonempty =>
        rcases List.mem_cons.mp member with rfl | member
        · exact {
            nonempty := List.length_pos_iff.mpr nonempty
            count := rfl
            stream := by simp
          }
        · exact restIH budgeted.2 extent member
  | dir name parentClus firstClus dirN children rest childrenIH restIH =>
      obtain ⟨own, inChildren, inRest⟩ := budgeted
      intro extent member
      simp only [Nodes.extents, List.mem_cons, List.mem_append] at member
      rcases member with rfl | member | member
      · exact own.occupied
      · exact childrenIH inChildren extent member
      · exact restIH inRest extent member

section OneDirectory

variable {geometry : Geometry} {firstClus n : Nat} {entries img : List UInt8}

theorem writeClusters_succ
    (geometry : Geometry)
    (firstClus n : Nat)
    (entries img : List UInt8) :
    writeClusters geometry firstClus (n + 1) entries img =
      splice (writeClusters geometry firstClus n entries img)
        (geometry.offset (firstClus + n))
        (geometry.offset (firstClus + n) + bytesPerCluster)
        (slice entries (n * bytesPerCluster) bytesPerCluster) := by
  simp [writeClusters, List.range_succ]

/-- All clusters but the last are full. -/
theorem length_slice_full
    {place : Nat}
    (full : (place + 1) * bytesPerCluster ≤ entries.length) :
    (slice entries (place * bytesPerCluster) bytesPerCluster).length =
      bytesPerCluster := by
  apply length_slice
  rwa [Nat.add_mul, Nat.one_mul] at full

/-- The last cluster holds what is left. -/
theorem length_slice_last
    {place : Nat}
    (last : entries.length ≤ (place + 1) * bytesPerCluster) :
    (slice entries (place * bytesPerCluster) bytesPerCluster).length =
      entries.length - place * bytesPerCluster := by
  rw [Nat.add_mul, Nat.one_mul] at last
  simp only [slice, List.length_take, List.length_drop]
  omega

/-- As long as its clusters lie inside, whole clusters keep the length. -/
theorem length_writeClusters_full
    (data : rootClus ≤ firstClus)
    (full : n * bytesPerCluster ≤ entries.length) :
    (geometry.offset (firstClus + n) ≤ img.length →
      (writeClusters geometry firstClus n entries img).length =
        img.length) ∧
    (∀ bound,
      img.length < bound →
      geometry.offset (firstClus + n) < bound →
      (writeClusters geometry firstClus n entries img).length < bound) := by
  induction n with
  | zero =>
      exact ⟨fun _ => rfl, fun _ below _ => below⟩
  | succ n inductionHypothesis =>
      have stop := geometry.offset_add
        (show rootClus ≤ firstClus + n by omega) 1
      rw [Nat.one_mul, Nat.add_assoc] at stop
      obtain ⟨kept, bounded⟩ :=
        inductionHypothesis (by rw [Nat.add_mul] at full; omega)
      rw [writeClusters_succ, length_splice, length_slice_full full]
      constructor
      · intro inside
        have same := kept (by omega)
        omega
      · intro bound below reached
        have before := bounded bound below (by omega)
        omega

/-- A directory inside the buffer shortens it by what the stream lacks. -/
theorem length_writeClusters
    {extent : Extent Area}
    (occupied : Occupied extent)
    (data : rootClus ≤ extent.first)
    (isDir : extent.payload.isDir = true) :
    (geometry.offset extent.behind ≤ img.length →
      (writeClusters geometry extent.first extent.count
          extent.payload.data img).length =
        img.length - shortage extent) ∧
    (img.length < geometry.offset extent.behind →
      (writeClusters geometry extent.first extent.count
          extent.payload.data img).length <
        geometry.offset extent.behind) := by
  obtain ⟨positive, fits, reached⟩ := occupied.bounds
  have short := occupied.stream_short isDir
  obtain ⟨n, count⟩ : ∃ n, extent.count = n + 1 :=
    ⟨extent.count - 1, by omega⟩
  simp only [shortage, Extent.behind, count, Nat.add_sub_cancel] at *
  have stop := geometry.offset_add
    (show rootClus ≤ extent.first + n by omega) 1
  rw [Nat.one_mul, Nat.add_assoc] at stop
  have width : 0 < bytesPerCluster := by decide
  have total : (n + 1) * bytesPerCluster =
      n * bytesPerCluster + bytesPerCluster := by
    rw [Nat.add_mul, Nat.one_mul]
  obtain ⟨kept, bounded⟩ :=
    @length_writeClusters_full geometry extent.first n
      extent.payload.data img data (by omega)
  rw [writeClusters_succ, length_splice, length_slice_last fits]
  constructor
  · intro inside
    have same := kept (by omega)
    omega
  · intro below
    have before := bounded _ below (by omega)
    omega

/-- Whole clusters inside the buffer show what has been written so far. -/
theorem writeClusters_full_shows
    {patches : List (Patch UInt8)}
    (shows : Shows 0 patches img)
    (data : rootClus ≤ firstClus)
    (full : n * bytesPerCluster ≤ entries.length)
    (inside : geometry.offset (firstClus + n) ≤ img.length) :
    Shows 0
      (⟨geometry.offset firstClus, entries.take (n * bytesPerCluster)⟩ ::
        patches)
      (writeClusters geometry firstClus n entries img) := by
  induction n with
  | zero =>
      apply shows.congr
      intro index
      exact (patched_beside (by simp; omega)).symm
  | succ n inductionHypothesis =>
      have stop := geometry.offset_add
        (show rootClus ≤ firstClus + n by omega) 1
      rw [Nat.one_mul, Nat.add_assoc] at stop
      have total : (n + 1) * bytesPerCluster =
          n * bytesPerCluster + bytesPerCluster := by
        rw [Nat.add_mul, Nat.one_mul]
      have before := inductionHypothesis (by omega) (by omega)
      have kept := (@length_writeClusters_full geometry firstClus n
        entries img data (by omega)).1 (by omega)
      have front : (entries.take (n * bytesPerCluster)).length =
          n * bytesPerCluster :=
        List.length_take_of_le (by omega)
      have next := before.splice
        (show geometry.offset (firstClus + n) ≤ _ by omega)
        (slice entries (n * bytesPerCluster) bytesPerCluster)
      rw [length_slice_full full] at next
      rw [writeClusters_succ]
      apply next.congr
      intro index
      rw [geometry.offset_add data n, total, List.take_add]
      have merged := @patched_merge _ (0 : UInt8) patches
        (geometry.offset firstClus)
        (entries.take (n * bytesPerCluster))
        (slice entries (n * bytesPerCluster) bytesPerCluster) index
      rwa [front] at merged

/-- A directory inside the buffer shows its stream. -/
theorem writeClusters_shows
    {patches : List (Patch UInt8)}
    (shows : Shows 0 patches img)
    {extent : Extent Area}
    (occupied : Occupied extent)
    (data : rootClus ≤ extent.first)
    (inside : geometry.offset extent.behind ≤ img.length)
    (earlier :
      ∀ patch ∈ patches, patch.stop ≤ geometry.offset extent.first) :
    Shows 0 (areaPatch geometry extent :: patches)
      (writeClusters geometry extent.first extent.count
        extent.payload.data img) := by
  obtain ⟨positive, fits, reached⟩ := occupied.bounds
  obtain ⟨n, count⟩ : ∃ n, extent.count = n + 1 :=
    ⟨extent.count - 1, by omega⟩
  simp only [Extent.behind, count, Nat.add_sub_cancel] at *
  have stop := geometry.offset_add
    (show rootClus ≤ extent.first + n by omega) 1
  rw [Nat.one_mul, Nat.add_assoc] at stop
  have place := geometry.offset_add data n
  have total : (n + 1) * bytesPerCluster =
      n * bytesPerCluster + bytesPerCluster := by
    rw [Nat.add_mul, Nat.one_mul]
  have front :
      (extent.payload.data.take (n * bytesPerCluster)).length =
        n * bytesPerCluster :=
    List.length_take_of_le (by omega)
  have kept := (@length_writeClusters_full geometry extent.first n
    extent.payload.data img data (by omega)).1 (by omega)
  have before :=
    @writeClusters_full_shows geometry extent.first n extent.payload.data
      img patches shows data (by omega) (by omega)
  -- Everything behind the last cluster is still blank, so it may move.
  have last := before.splice_blank
    (show geometry.offset (extent.first + n) + bytesPerCluster ≤ _ by omega)
    (slice extent.payload.data (n * bytesPerCluster) bytesPerCluster)
    (by
      intro patch member
      rcases List.mem_cons.mp member with rfl | member
      · simp only [Patch.stop, front]
        omega
      · have ends := earlier patch member
        omega)
  rw [writeClusters_succ]
  apply last.congr
  intro index
  have merged := @patched_merge _ (0 : UInt8) patches
    (geometry.offset extent.first)
    (extent.payload.data.take (n * bytesPerCluster))
    (slice extent.payload.data (n * bytesPerCluster) bytesPerCluster) index
  rw [front, slice, ← List.take_add, ← total,
    List.take_of_length_le fits] at merged
  rw [place]
  exact merged

end OneDirectory

section DirectoryPass

variable {geometry : Geometry} {extents : List (Extent Area)}

/-- What the directories lack to whole clusters, all together. -/
def dirShortage : List (Extent Area) → Nat
  | [] =>
      0
  | extent :: rest =>
      (if extent.payload.isDir then shortage extent else 0) +
        dirShortage rest

/-- The patches of the directories, the latest first. -/
def dirPatches
    (geometry : Geometry)
    (extents : List (Extent Area)) :
    List (Patch UInt8) :=
  ((extents.filter (·.payload.isDir)).map (areaPatch geometry)).reverse

/--
After the directory pass the buffer is shorter by what the directories lack,
or it does not even reach to the end of some directory.
-/
theorem length_writeDirAreas
    (occupied : ∀ extent ∈ extents, Occupied extent)
    (data : ∀ extent ∈ extents, rootClus ≤ extent.first)
    (img : List UInt8) :
    (writeDirAreas geometry extents img).length =
        img.length - dirShortage extents ∨
      ∃ extent ∈ extents, extent.payload.isDir = true ∧
        (writeDirAreas geometry extents img).length <
          geometry.offset extent.behind := by
  induction extents generalizing img with
  | nil =>
      exact .inl rfl
  | cons extent rest inductionHypothesis =>
      have own := occupied extent (List.mem_cons_self ..)
      have ownData := data extent (List.mem_cons_self ..)
      have later := inductionHypothesis
        (fun other member => occupied other (List.mem_cons_of_mem _ member))
        (fun other member => data other (List.mem_cons_of_mem _ member))
      simp only [writeDirAreas, List.foldl_cons, dirShortage,
        List.exists_mem_cons_iff] at later ⊢
      by_cases isDir : extent.payload.isDir = true
      · simp only [isDir, ↓reduceIte, true_and]
        obtain ⟨shorter, bounded⟩ :=
          @length_writeClusters geometry img extent own ownData isDir
        rcases later (writeClusters geometry extent.first extent.count
          extent.payload.data img) with length | beyond
        · by_cases inside : geometry.offset extent.behind ≤ img.length
          · left
            rw [length, shorter inside, Nat.sub_sub]
          · right
            left
            have below := bounded (by omega)
            omega
        · exact .inr (.inr beyond)
      · simp only [isDir, Bool.false_eq_true, ↓reduceIte, false_and,
          false_or, Nat.zero_add]
        exact later img

/--
When the directories lie inside even after the buffer has shortened, each
shows its stream.
-/
theorem writeDirAreas_shows
    {start stop : Nat}
    (tiles : Tiles start extents stop)
    (data : rootClus ≤ start)
    (occupied : ∀ extent ∈ extents, Occupied extent)
    {patches : List (Patch UInt8)}
    {img : List UInt8}
    (shows : Shows 0 patches img)
    (earlier : ∀ patch ∈ patches, patch.stop ≤ geometry.offset start)
    (roomy :
      ∀ extent ∈ extents,
        extent.payload.isDir = true →
        geometry.offset extent.behind + dirShortage extents ≤ img.length) :
    Shows 0 (dirPatches geometry extents ++ patches)
        (writeDirAreas geometry extents img) ∧
      (writeDirAreas geometry extents img).length =
        img.length - dirShortage extents := by
  induction tiles generalizing patches img with
  | nil =>
      exact ⟨shows, rfl⟩
  | @cons extent count rest stop tiles inductionHypothesis =>
      have own := occupied extent (List.mem_cons_self ..)
      have further : geometry.offset extent.first ≤
          geometry.offset extent.behind :=
        geometry.offset_mono (Nat.le_add_right ..)
      have dataNext : rootClus ≤ extent.behind :=
        Nat.le_trans data (Nat.le_add_right ..)
      have occupiedRest :
          ∀ other ∈ rest, Occupied other := fun other member =>
        occupied other (List.mem_cons_of_mem _ member)
      have roomyRest := fun other (member : other ∈ rest) =>
        roomy other (List.mem_cons_of_mem _ member)
      by_cases isDir : extent.payload.isDir = true
      · have ownRoomy := roomy extent (List.mem_cons_self ..) isDir
        simp only [dirShortage, isDir, ↓reduceIte] at ownRoomy roomyRest
        have written := writeClusters_shows shows own data
          (by omega) earlier
        have shorter :=
          (@length_writeClusters geometry img extent own data isDir).1
            (by omega)
        have fits := own.bounds.2.1
        have reach := geometry.offset_add data extent.count
        obtain ⟨laterShows, laterLength⟩ :=
          inductionHypothesis dataNext occupiedRest written
            (by
              intro patch member
              rcases List.mem_cons.mp member with rfl | member
              · simp only [Patch.stop, areaPatch, Extent.behind]
                omega
              · exact Nat.le_trans (earlier patch member) further)
            (by
              intro other member otherDir
              have room := roomyRest other member otherDir
              omega)
        simp only [writeDirAreas, List.foldl_cons, dirShortage, isDir,
          ↓reduceIte, dirPatches, List.filter_cons, List.map_cons,
          List.reverse_cons, List.append_assoc, List.cons_append,
          List.nil_append] at laterShows laterLength ⊢
        refine ⟨laterShows, ?_⟩
        rw [laterLength, shorter, Nat.sub_sub]
      · simp only [dirShortage, isDir, Bool.false_eq_true, ↓reduceIte,
          Nat.zero_add] at roomyRest
        obtain ⟨laterShows, laterLength⟩ :=
          inductionHypothesis dataNext occupiedRest shows
            (fun patch member =>
              Nat.le_trans (earlier patch member) further)
            roomyRest
        simp only [writeDirAreas, List.foldl_cons, dirShortage, isDir,
          Bool.false_eq_true, ↓reduceIte, Nat.zero_add, dirPatches,
          not_false_eq_true, List.filter_cons_of_neg]
          at laterShows laterLength ⊢
        exact ⟨laterShows, laterLength⟩

/-- Some byte of the last cluster of a directory is missing. -/
theorem shortage_le_dirShortage
    {extent : Extent Area}
    (member : extent ∈ extents)
    (isDir : extent.payload.isDir = true) :
    shortage extent ≤ dirShortage extents := by
  induction extents with
  | nil =>
      cases member
  | cons first rest inductionHypothesis =>
      rw [dirShortage]
      rcases List.mem_cons.mp member with rfl | member
      · rw [if_pos isDir]
        exact Nat.le_add_right ..
      · exact Nat.le_trans (inductionHypothesis member) (Nat.le_add_left ..)

end DirectoryPass

section FilePass

variable {geometry : Geometry} {extents : List (Extent Area)}

/-- The file pass over the runs. -/
def writeFileAreas
    (geometry : Geometry)
    (extents : List (Extent Area))
    (img : List UInt8) :
    List UInt8 :=
  extents.foldl
    (fun img extent =>
      if extent.payload.isDir then
        img
      else
        let off := geometry.offset extent.first
        splice img off (off + extent.payload.data.length)
          extent.payload.data)
    img

theorem writeFileAreas_append
    (geometry : Geometry)
    (earlier later : List (Extent Area))
    (img : List UInt8) :
    writeFileAreas geometry (earlier ++ later) img =
      writeFileAreas geometry later (writeFileAreas geometry earlier img) :=
  List.foldl_append

/-- The file pass over a budgeted tree is the pass over its runs. -/
theorem writeFiles_budgeted
    {nodes : Nodes}
    (budgeted : nodes.Budgeted)
    (data : ∀ extent ∈ nodes.extents, rootClus ≤ extent.first)
    (geometry : Geometry)
    (img : List UInt8) :
    writeFiles geometry nodes img =
      writeFileAreas geometry nodes.extents img := by
  induction nodes generalizing img with
  | nil =>
      rfl
  | file name content firstClus rest restIH =>
      by_cases empty : content = []
      · have noCluster := budgeted.1 empty
        simp only [Nodes.extents, empty, ↓reduceIte] at data ⊢
        simp only [writeFiles, noCluster, ne_eq, not_true_eq_false,
          ↓reduceIte]
        exact restIH budgeted.2 data img
      · simp only [Nodes.extents, empty, ↓reduceIte, List.forall_mem_cons]
          at data ⊢
        have some : firstClus ≠ 0 := by
          have least : rootClus = 2 := rfl
          omega
        simp only [writeFiles, some, ne_eq, not_false_eq_true, ↓reduceIte,
          restIH budgeted.2 data.2]
        rfl
  | dir name parentClus firstClus dirN children rest childrenIH restIH =>
      obtain ⟨_, inChildren, inRest⟩ := budgeted
      simp only [Nodes.extents, List.forall_mem_cons, List.forall_mem_append]
        at data
      rw [writeFiles, childrenIH inChildren data.2.1,
        restIH inRest data.2.2, ← writeFileAreas_append, Nodes.extents]
      rfl

/-- The patches of the files, the latest first. -/
def filePatches
    (geometry : Geometry)
    (extents : List (Extent Area)) :
    List (Patch UInt8) :=
  ((extents.filter (!·.payload.isDir)).map (areaPatch geometry)).reverse

/--
When only files of whole clusters reach beyond the buffer, each file shows its
content, and the buffer then reaches to the last cluster.
-/
theorem writeFileAreas_shows
    {start stop : Nat}
    (tiles : Tiles start extents stop)
    (data : rootClus ≤ start)
    (occupied : ∀ extent ∈ extents, Occupied extent)
    {patches : List (Patch UInt8)}
    {img : List UInt8}
    (shows : Shows 0 patches img)
    (reached : geometry.offset start ≤ img.length)
    (full :
      ∀ extent ∈ extents,
        img.length < geometry.offset extent.behind →
        FullFile extent) :
    Shows 0 (filePatches geometry extents ++ patches)
        (writeFileAreas geometry extents img) ∧
      (writeFileAreas geometry extents img).length =
        max img.length (geometry.offset stop) := by
  induction tiles generalizing patches img with
  | nil =>
      exact ⟨shows, (Nat.max_eq_left reached).symm⟩
  | @cons extent count rest stop tiles inductionHypothesis =>
      have own := occupied extent (List.mem_cons_self ..)
      have ownFull := full extent (List.mem_cons_self ..)
      have dataNext : rootClus ≤ extent.behind :=
        Nat.le_trans data (Nat.le_add_right ..)
      have occupiedRest :
          ∀ other ∈ rest, Occupied other := fun other member =>
        occupied other (List.mem_cons_of_mem _ member)
      have fullRest := fun other (member : other ∈ rest) =>
        full other (List.mem_cons_of_mem _ member)
      have fits := own.bounds.2.1
      have reach := geometry.offset_add data extent.count
      have further := geometry.offset_mono tiles.le
      simp only [Extent.behind] at ownFull reach further
      by_cases isDir : extent.payload.isDir = true
      · have inside : geometry.offset (extent.first + extent.count) ≤
            img.length := by
          refine Nat.not_lt.mp fun beyond => ?_
          exact Occupied.not_fullFile isDir (ownFull beyond)
        obtain ⟨laterShows, laterLength⟩ :=
          inductionHypothesis dataNext occupiedRest shows inside fullRest
        simp only [writeFileAreas, List.foldl_cons, isDir, ↓reduceIte,
          filePatches, Bool.not_true, Bool.false_eq_true,
          not_false_eq_true, List.filter_cons_of_neg]
          at laterShows laterLength ⊢
        exact ⟨laterShows, laterLength⟩
      · have written := shows.splice reached extent.payload.data
        have length := length_splice img (geometry.offset extent.first)
          (geometry.offset extent.first + extent.payload.data.length)
          extent.payload.data
        have ends :
            img.length < geometry.offset (extent.first + extent.count) →
            extent.payload.data.length =
              extent.count * bytesPerCluster := fun beyond =>
          (ownFull beyond).2
        obtain ⟨laterShows, laterLength⟩ :=
          inductionHypothesis dataNext occupiedRest written
            (by simp only [Extent.behind]; omega)
            (fun other member beyond =>
              fullRest other member (by omega))
        simp only [Bool.not_eq_true] at isDir
        simp only [writeFileAreas, List.foldl_cons, isDir,
          Bool.false_eq_true, ↓reduceIte, filePatches, Bool.not_false,
          List.filter_cons_of_pos, List.map_cons, List.reverse_cons,
          List.append_assoc, List.cons_append, List.nil_append]
          at laterShows laterLength ⊢
        refine ⟨laterShows, ?_⟩
        omega

/--
When the buffer does not reach to a run, or to the end of one that is no file
of whole clusters, it never reaches to the last cluster.
-/
theorem length_writeFileAreas_short
    {start stop : Nat}
    (tiles : Tiles start extents stop)
    (data : rootClus ≤ start)
    (occupied : ∀ extent ∈ extents, Occupied extent)
    {img : List UInt8}
    (short :
      img.length < geometry.offset start ∨
        ∃ extent ∈ extents,
          img.length < geometry.offset extent.behind ∧
            ¬ FullFile extent) :
    (writeFileAreas geometry extents img).length <
      geometry.offset stop := by
  induction tiles generalizing img with
  | nil =>
      simpa [writeFileAreas] using short
  | @cons extent count rest stop tiles inductionHypothesis =>
      have own := occupied extent (List.mem_cons_self ..)
      have fits := own.bounds.2.1
      have reach := geometry.offset_add data extent.count
      have next := fun written => @inductionHypothesis
        (Nat.le_trans data (Nat.le_add_right ..))
        (fun other member => occupied other (List.mem_cons_of_mem _ member))
        written
      rw [List.exists_mem_cons_iff] at short
      simp only [Extent.behind] at reach short next
      by_cases isDir : extent.payload.isDir = true
      · simp only [writeFileAreas, List.foldl_cons, isDir, ↓reduceIte]
          at next ⊢
        apply next
        rcases short with before | ⟨own, _⟩ | later
        · left
          omega
        · exact .inl own
        · exact .inr later
      · have length := length_splice img (geometry.offset extent.first)
          (geometry.offset extent.first + extent.payload.data.length)
          extent.payload.data
        simp only [Bool.not_eq_true] at isDir
        simp only [writeFileAreas, List.foldl_cons, isDir,
          Bool.false_eq_true, ↓reduceIte] at next ⊢
        apply next
        by_cases before : img.length < geometry.offset extent.first
        · left
          omega
        rcases short with unreached | ⟨beyond, notFull⟩ |
          ⟨other, member, beyond, notFull⟩
        · exact (before unreached).elim
        · left
          have partly :
              extent.payload.data.length ≠
                extent.count * bytesPerCluster := fun whole =>
            notFull ⟨isDir, whole⟩
          omega
        · right
          refine ⟨other, member, ?_, notFull⟩
          obtain ⟨later, occupied, _⟩ := tiles.bounds member
          simp only [Extent.behind] at later beyond ⊢
          have behind := geometry.offset_mono later
          have some := geometry.offset_lt
            (show rootClus ≤ other.first by omega)
            (show other.first < other.first + other.count by omega)
          omega

end FilePass

end UefiMount.MkFatImg
