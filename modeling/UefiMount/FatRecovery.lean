import Mathlib.Data.List.TakeWhile
import UefiMount.FatPartialWalk
import UefiMount.FatRoundTrip

namespace UefiMount.MkFatImg

open BumpAllocation

/-!
# What an inspection gives back

An inspection gives the created tree back exactly when no cluster that it has
to follow has a number that is an end mark.  Volumes of more than a terabyte
have such numbers, and `create_image` gives them to files.
-/

section Listings

theorem Nodes.length_listed
    {nodes : Nodes}
    {taken : List ShortName}
    {entries : List (List UInt8)}
    (built : nodeEntries nodes taken = .ok entries) :
    (nodes.listed taken).length = nodes.count := by
  induction nodes generalizing taken entries with
  | nil =>
      rfl
  | file name content firstClus rest restIH =>
      simp only [nodeEntries, bind_eq_ok] at built
      obtain ⟨s11, named, _, _, later, laterBuilt, _⟩ := built
      simp only [Nodes.listed, named, List.length_cons, Nodes.count,
        restIH laterBuilt]
  | dir name parentClus firstClus dirN children rest _ restIH =>
      simp only [nodeEntries, bind_eq_ok] at built
      obtain ⟨s11, named, _, _, later, laterBuilt, _⟩ := built
      simp only [Nodes.listed, named, List.length_cons, Nodes.count,
        restIH laterBuilt]

/-- Up to the short names, the lines are the listing of the tree. -/
theorem Nodes.map_plain_lines
    {nodes : Nodes}
    (budgeted : nodes.Budgeted)
    {taken : List ShortName}
    {entries : List (List UInt8)}
    (built : nodeEntries nodes taken = .ok entries)
    (depth : Nat) :
    (nodes.lines depth taken).map Line.plain = nodes.listing depth := by
  induction nodes generalizing taken entries depth with
  | nil =>
      rfl
  | file name content firstClus rest restIH =>
      simp only [nodeEntries, bind_eq_ok] at built
      obtain ⟨s11, named, _, _, later, laterBuilt, _⟩ := built
      have first :
          (if content.length ≠ 0 then firstClus else 0) = firstClus := by
        split
        · rfl
        case isFalse empty =>
          exact (budgeted.1 (List.length_eq_zero_iff.mp
            (not_not.mp empty))).symm
      simp only [Nodes.lines, named, Nodes.listing, List.map_cons,
        Line.plain, first, restIH budgeted.2 laterBuilt]
  | dir name parentClus firstClus dirN children rest childrenIH restIH =>
      simp only [nodeEntries, bind_eq_ok] at built
      obtain ⟨s11, named, _, _, later, laterBuilt, _⟩ := built
      obtain ⟨own, inChildren, inRest⟩ := budgeted
      obtain ⟨childEntries, childrenBuilt⟩ := own.built
      simp only [Nodes.lines, named, Nodes.listing, List.map_cons,
        List.map_append, Line.plain, Nodes.length_listed childrenBuilt,
        childrenIH inChildren childrenBuilt, restIH inRest laterBuilt]

end Listings

section Uses

/-- The clusters of a chain without end marks are all followed. -/
theorem followed_eq
    {first count : Nat}
    (within : first + count ≤ endMarks) :
    followed first count = List.range' first count := by
  rw [followed, List.takeWhile_eq_self_iff]
  intro c member
  rw [List.mem_range'_1] at member
  exact decide_eq_true (by omega)

theorem mem_followed_lt
    {first count c : Nat}
    (member : c ∈ followed first count) :
    c < endMarks :=
  of_decide_eq_true (@List.mem_takeWhile_imp _ (· < endMarks) _ _ member)

theorem dirClusters_sublist
    {first count : Nat}
    (positive : 0 < count) :
    (dirClusters first count).Sublist (List.range' first count) := by
  obtain ⟨less, rfl⟩ : ∃ less, count = less + 1 := ⟨count - 1, by omega⟩
  rw [List.range'_succ, dirClusters, Nat.add_sub_cancel]
  exact (List.takeWhile_sublist _).cons_cons first

/-- The clusters in use are units of the runs, each of them once. -/
theorem Nodes.uses_sublist
    {nodes : Nodes}
    (budgeted : nodes.Budgeted)
    (path : PyStr) :
    ((nodes.uses path).map Prod.fst).Sublist
      (nodes.extents.flatMap Extent.units) := by
  induction nodes generalizing path with
  | nil =>
      simp [Nodes.uses]
  | file name content firstClus rest restIH =>
      have later := restIH budgeted.2 path
      by_cases empty : content = []
      · simpa [Nodes.uses, Nodes.extents, empty, followed] using later
      · simp only [Nodes.uses, Nodes.extents, empty, ↓reduceIte,
          List.map_append, List.map_map, List.flatMap_cons]
        refine List.Sublist.append ?_ later
        simpa [Function.comp_def, followed, Extent.units] using
          List.takeWhile_sublist _
  | dir name parentClus firstClus dirN children rest childrenIH restIH =>
      obtain ⟨own, inChildren, inRest⟩ := budgeted
      simp only [Nodes.uses, Nodes.extents, List.map_append, List.map_map,
        List.flatMap_cons, List.flatMap_append]
      refine List.Sublist.append ?_
        ((childrenIH inChildren _).append (restIH inRest path))
      simpa [Function.comp_def, Extent.units] using
        dirClusters_sublist own.occupied.bounds.1

/-- A cluster that is marked for a file has a number below the end marks. -/
theorem Nodes.uses_file_lt
    {nodes : Nodes}
    {path file : PyStr}
    {c : Nat}
    (member : (c, .file file) ∈ nodes.uses path) :
    c < endMarks := by
  induction nodes generalizing path with
  | nil =>
      simp [Nodes.uses] at member
  | file name content firstClus rest restIH =>
      rcases List.mem_append.mp member with own | later
      · obtain ⟨c', inChain, same⟩ := List.mem_map.mp own
        obtain ⟨rfl, _⟩ := Prod.mk.inj same
        exact mem_followed_lt inChain
      · exact restIH later
  | dir name parentClus firstClus dirN children rest childrenIH restIH =>
      simp only [Nodes.uses, List.mem_append] at member
      rcases member with own | inChildren | later
      · obtain ⟨_, _, same⟩ := List.mem_map.mp own
        cases (Prod.mk.inj same).2
      · exact childrenIH inChildren
      · exact restIH later

/-- Every cluster of a file's run belongs to the file. -/
theorem Nodes.fileUses_of_unit
    {nodes : Nodes}
    {extent : Extent Area}
    (member : extent ∈ nodes.extents)
    (isFile : extent.payload.isDir = false)
    {c : Nat}
    (unit : c ∈ extent.units)
    (path : PyStr) :
    ∃ file, (c, .file file) ∈ nodes.fileUses path := by
  induction nodes generalizing path with
  | nil =>
      simp [Nodes.extents] at member
  | file name content firstClus rest restIH =>
      simp only [Nodes.extents] at member
      split at member
      · obtain ⟨file, known⟩ := restIH member path
        exact ⟨file, List.mem_append_right _ known⟩
      · rcases List.mem_cons.mp member with rfl | member
        · exact ⟨childPath path name, List.mem_append_left _
            (List.mem_map.mpr ⟨c, unit, rfl⟩)⟩
        · obtain ⟨file, known⟩ := restIH member path
          exact ⟨file, List.mem_append_right _ known⟩
  | dir name parentClus firstClus dirN children rest childrenIH restIH =>
      simp only [Nodes.extents, List.mem_cons, List.mem_append] at member
      rcases member with rfl | member | member
      · cases isFile
      · obtain ⟨file, known⟩ := childrenIH member (childPath path name)
        exact ⟨file, List.mem_append_left _ known⟩
      · obtain ⟨file, known⟩ := restIH member path
        exact ⟨file, List.mem_append_right _ known⟩

/-- Files that end below the end marks are marked with all their clusters. -/
theorem Nodes.fileUses_subset
    {nodes : Nodes}
    (within :
      ∀ extent ∈ nodes.extents, extent.payload.isDir = false →
        extent.behind ≤ endMarks)
    (path : PyStr) :
    nodes.fileUses path ⊆ nodes.uses path := by
  induction nodes generalizing path with
  | nil =>
      exact List.Subset.refl _
  | file name content firstClus rest restIH =>
      by_cases empty : content = []
      · simp only [Nodes.extents, empty, ↓reduceIte] at within
        simpa [Nodes.fileUses, Nodes.uses, empty, followed] using
          restIH within path
      · simp only [Nodes.extents, empty, ↓reduceIte, List.forall_mem_cons]
          at within
        have chain :
            followed firstClus (clustersFor content.length) =
              List.range' firstClus (clustersFor content.length) :=
          followed_eq (within.1 trivial)
        rw [Nodes.fileUses, Nodes.uses, chain, List.append_subset]
        exact ⟨List.subset_append_left .., List.subset_append_of_subset_right _
          (restIH within.2 path)⟩
  | dir name parentClus firstClus dirN children rest childrenIH restIH =>
      simp only [Nodes.extents, List.forall_mem_cons,
        List.forall_mem_append] at within
      intro entry member
      rcases List.mem_append.mp member with inChildren | later
      · exact List.mem_append_right _ (List.mem_append_left _
          (childrenIH within.2.1 _ inChildren))
      · exact List.mem_append_right _ (List.mem_append_right _
          (restIH within.2.2 path later))

end Uses

section Recoveries

/-- The clusters that the reading side has to follow lie below the end marks. -/
structure Followable (extent : Extent Area) : Prop where
  dir :
    EntriesReachable extent
  file :
    extent.payload.isDir = false → extent.behind ≤ endMarks

theorem entriesReachable_iff
    {extent : Extent Area}
    (isDir : extent.payload.isDir = true) :
    EntriesReachable extent ↔
      clustersFor (extent.payload.data.length - 1) ≤ 1 ∨
        extent.first + clustersFor (extent.payload.data.length - 1) ≤
          endMarks := by
  generalize used : clustersFor (extent.payload.data.length - 1) = n
  simp only [clustersFor] at used
  constructor
  · intro reachable
    by_contra beyond
    have last := reachable isDir (n - 1) (by omega) (by
      simp only [bytesPerCluster, sector, secPerClus] at *
      omega)
    omega
  · intro followed _ place positive within
    simp only [bytesPerCluster, sector, secPerClus] at *
    omega

/-- The demands are addressable when the runs that take them can be followed. -/
theorem addressable_takenBy
    {start stop : Nat}
    {extents : List (Extent Area)}
    (tiles : Tiles start extents stop)
    (occupied : ∀ extent ∈ extents, Occupied extent) :
    Addressable start (extents.map takenBy) ↔
      ∀ extent ∈ extents, Followable extent := by
  induction tiles with
  | nil =>
      simp [Addressable]
  | @cons extent _ rest stop _ inductionHypothesis =>
      have count := (occupied extent (List.mem_cons_self ..)).count
      have later := inductionHypothesis fun other member =>
        occupied other (List.mem_cons_of_mem _ member)
      have own :
          (if (takenBy extent).isDir then
            clustersFor ((takenBy extent).size - 1) ≤ 1 ∨
              extent.first + clustersFor ((takenBy extent).size - 1) ≤
                endMarks
          else
            extent.first + clustersFor (takenBy extent).size ≤ endMarks) ↔
            Followable extent := by
        simp only [takenBy, ← count]
        cases isDir : extent.payload.isDir with
        | true =>
            rw [if_pos rfl, ← entriesReachable_iff isDir]
            exact {
              mp := fun reachable => {
                dir := reachable
                file := fun isFile => by simp [isDir] at isFile
              }
              mpr := Followable.dir
            }
        | false =>
            rw [if_neg (by simp)]
            exact {
              mp := fun within => {
                dir := fun other => by simp [isDir] at other
                file := fun _ => within
              }
              mpr := fun followable => followable.file isDir
            }
      have behind :
          extent.first + clustersFor (takenBy extent).size =
            extent.behind := by
        rw [takenBy, ← count]
        rfl
      rw [List.map_cons, Addressable, List.forall_mem_cons, own, behind,
        later]

variable
  {source : Nodes}
  {sizeMb : Int}
  {created : Created}
  {rawFat : List UInt8}

namespace Complete

/-- The demands are addressable when all runs of the image can be followed. -/
theorem addressable_iff
    (complete : Complete source sizeMb created rawFat) :
    Addressable rootClus (demands source) ↔
      ∀ extent ∈ created.root.extents, Followable extent := by
  have occupied := layoutRoot_occupied complete.written.laidOut
  rw [← layoutRoot_takenBy complete.written.laidOut]
  exact addressable_takenBy complete.written.tiles
    fun extent member => (occupied extent member).1

/-- The listing has as many lines as the walk prints when it reaches all. -/
theorem map_plain_lines
    (complete : Complete source sizeMb created rawFat) :
    (Line.root (created.root.children.listed []).length ::
        created.root.children.lines 0 []).map Line.plain =
      created.root.listing := by
  obtain ⟨_, _, _, own, budgeted⟩ :=
    layoutRoot_allocated complete.written.laidOut
  obtain ⟨entries, built⟩ := own.built
  rw [List.map_cons, Nodes.map_plain_lines budgeted built,
    Nodes.length_listed built]
  rfl

/-- An inspection that prints as many lines has reached all entries. -/
theorem reachable_of_lines
    (complete : Complete source sizeMb created rawFat)
    (namesOk : source.NamesOk)
    {fuel : Nat}
    {inspection : Inspection}
    (inspected : inspectImage fuel created.img = .ok inspection)
    (all :
      inspection.report.lines.length = created.root.listing.length) :
    ∀ extent ∈ created.root.extents, EntriesReachable extent := by
  have written := complete.written
  obtain ⟨first, _, _, rootBudgeted, _⟩ :=
    layoutRoot_allocated written.laidOut
  have readable := complete.readable (List.mem_cons_self ..)
  have walkable := complete.walkable namesOk
  obtain ⟨_, positive, _⟩ := written.tiles.bounds (List.mem_cons_self ..)
  simp only [inspectImage, complete.partitionStart_eq, Nat.zero_mul,
    complete.readBpb_eq, raising, bind, Except.bind] at inspected
  split at inspected
  · cases inspected
  · rename_i report walked
    obtain rfl := Except.ok.inj inspected
    rw [first] at rootBudgeted readable
    obtain ⟨less, count, opened, walked, printed, missing⟩ :=
      walkDir_listed rootBudgeted walkable.namesOk walkable.numbered
        readable rfl List.not_mem_nil walked
    obtain ⟨childEntries, childrenBuilt⟩ := rootBudgeted.built
    obtain ⟨_, reached⟩ := walkChildren_lines rfl walkable childrenBuilt
      (by
        intro c member
        rw [List.mem_singleton.mp member]
        exact Nat.lt_add_of_pos_right positive)
      walked
    rw [← complete.map_plain_lines, List.length_map,
      List.length_cons] at all
    obtain ⟨listed, reachable⟩ := reached (by
      rw [printed]
      exact all.trans (by rw [List.length_nil, Nat.zero_add, Nat.add_comm]))
    intro extent member
    rcases List.mem_cons.mp member with rfl | member
    · by_contra unreachable
      rw [first] at unreachable
      exact Nat.lt_irrefl _
        (Nat.lt_of_lt_of_le (missing unreachable) listed)
    · exact reachable extent member

/-- An inspection that gives the tree back could follow all runs. -/
theorem addressable_of_recovers
    (complete : Complete source sizeMb created rawFat)
    (namesOk : source.NamesOk)
    {inspection : Inspection}
    (inspects : Inspects created.img inspection)
    (recovers : Recovers source created inspection) :
    Addressable rootClus (demands source) := by
  rw [complete.addressable_iff]
  obtain ⟨bound, inspected⟩ := inspects
  have reachable := complete.reachable_of_lines namesOk
    (inspected bound (Nat.le_refl _))
    (by rw [← recovers.lines, List.length_map])
  have exactly := complete.inspectImage_eq namesOk reachable
    (show created.root.children.height + created.alloc.nextClus <
        bound + (created.root.children.height + created.alloc.nextClus + 1)
      by omega)
  rw [inspected _ (Nat.le_add_right ..)] at exactly
  obtain rfl := Except.ok.inj exactly
  intro extent member
  refine ⟨reachable extent member, fun isFile => ?_⟩
  rcases List.mem_cons.mp member with rfl | inChildren
  · cases isFile
  · obtain ⟨_, positive, _⟩ := complete.written.tiles.bounds member
    have last : extent.behind - 1 ∈ extent.units :=
      Extent.mem_units.mpr (by simp only [Extent.behind]; omega)
    obtain ⟨file, listed⟩ :=
      Nodes.fileUses_of_unit inChildren isFile last []
    obtain ⟨front, back, marked, _⟩ :=
      List.lookup_eq_some_iff.mp (recovers.chains _ listed)
    have known : (extent.behind - 1, Use.file file) ∈ front ++ _ :: back :=
      List.mem_append_right _ (List.mem_cons_self ..)
    rw [← marked] at known
    rcases List.mem_append.mp known with own | below
    · obtain ⟨_, _, same⟩ := List.mem_map.mp own
      cases (Prod.mk.inj same).2
    · have small := Nodes.uses_file_lt below
      omega

/-- When all runs can be followed, the inspection gives the tree back. -/
theorem recovers_of_addressable
    (complete : Complete source sizeMb created rawFat)
    (namesOk : source.NamesOk)
    (addressable : Addressable rootClus (demands source)) :
    ∃ inspection,
      Inspects created.img inspection ∧
        Recovers source created inspection := by
  rw [complete.addressable_iff] at addressable
  obtain ⟨first, tiles, _, own, budgeted⟩ :=
    layoutRoot_allocated complete.written.laidOut
  refine ⟨_, ⟨_, fun fuel enough => complete.inspectImage_eq namesOk
    (fun extent member => (addressable extent member).dir)
    (Nat.lt_of_succ_le enough)⟩, ?_⟩
  have positive := own.occupied.bounds.1
  have keys :
      (((dirClusters rootClus created.root.dirN).map
            (fun c => (c, Use.dir [])) ++
          created.root.children.uses []).map Prod.fst).Nodup := by
    refine List.Nodup.sublist ?_ tiles.nodup
    rw [Root.extents, List.flatMap_cons, List.map_append]
    refine List.Sublist.append ?_ (Nodes.uses_sublist budgeted [])
    simpa [Function.comp_def, Extent.units, first] using
      dirClusters_sublist positive
  exact {
    tree := layoutRoot_erase complete.written.laidOut
    bpb := rfl
    lines := complete.map_plain_lines
    chains := by
      intro entry member
      refine lookup_of_mem keys (List.mem_append_right _ ?_)
      refine Nodes.fileUses_subset ?_ [] member
      exact fun extent inChildren =>
        (addressable extent (List.mem_cons_of_mem _ inChildren)).file
    conflicts := rfl
  }

end Complete

/--
An inspection gives the created tree back if and only if no cluster that it has
to follow has a number that is an end mark.
-/
theorem recovers_iff_addressable
    (made : createImage source sizeMb = .ok created)
    (namesOk : source.NamesOk)
    (fits :
      created.alloc.nextClus - rootClus +
          (demands source).countP Demand.isDir ≤
        created.geometry.clusCount) :
    (∃ inspection,
      Inspects created.img inspection ∧
        Recovers source created inspection) ↔
      Addressable rootClus (demands source) := by
  obtain ⟨rawFat, written⟩ := createImage_eq_ok.mp made
  have complete := written.complete (by
    rwa [layoutRoot_nextClus written.laidOut,
      Nat.add_sub_cancel_left] at fits)
  constructor
  · rintro ⟨inspection, inspects, recovers⟩
    exact complete.addressable_of_recovers namesOk inspects recovers
  · exact complete.recovers_of_addressable namesOk

theorem nameOk_letter
    {character : CodePoint}
    (plain : PlainChar character)
    (notDot : character ≠ fullStop) :
    NameOk [character] where
  some := List.cons_ne_nil _ _
  short := by simp
  plain := by simpa using plain
  notDot := by simpa using notDot
  notDotDot := by simp

/-- The layout of a small tree, as far as its size goes. -/
theorem layoutRoot_sample :
    ∃ root alloc,
      layoutRoot sampleTree = .ok (root, alloc) ∧ alloc.nextClus = 5 := by
  have next :
      (layoutRoot sampleTree).toOption.map (fun laid => laid.2.nextClus) =
        some 5 := by
    decide +kernel
  cases laidOut : layoutRoot sampleTree with
  | error problem =>
      rw [laidOut] at next
      cases next
  | ok laid =>
      rw [laidOut] at next
      exact ⟨laid.1, laid.2, rfl, Option.some.inj next⟩

theorem sampleTree_namesOk : sampleTree.NamesOk := by
  refine ⟨?_, ⟨?_, trivial⟩, ?_, trivial⟩
  · have plain : PlainChar 0x62 ∧ PlainChar 0x69 ∧ PlainChar 0x6E := by
      decide
    exact {
      some := List.cons_ne_nil _ _
      short := by decide
      plain := by simpa using plain
      notDot := by decide
      notDotDot := by decide
    }
  · exact nameOk_letter (by decide) (by decide)
  · exact nameOk_letter (by decide) (by decide)

/-- The image of a small tree is created, and the tree fits. -/
theorem createImage_sample :
    ∃ created,
      createImage sampleTree 257 = .ok created ∧
        created.alloc.nextClus = 5 ∧
        created.geometry.clusCount = 65659 ∧
        created.alloc.nextClus - rootClus +
            (demands sampleTree).countP Demand.isDir ≤
          created.geometry.clusCount := by
  obtain ⟨root, alloc, laidOut, next⟩ := layoutRoot_sample
  obtain ⟨rawFat, img, written⟩ :=
    createImage_fits createGeometry_257 (by decide) laidOut
      (Nat.le_trans (Nat.le_of_eq next) (by decide))
  refine ⟨_, createImage_eq_ok.mpr ⟨rawFat, written⟩, next, rfl, ?_⟩
  change alloc.nextClus - rootClus + _ ≤ 65659
  rw [next]
  decide +kernel

/-- A small tree is given back. -/
theorem recovers_iff_addressable_sample :
    ∃ created,
      createImage sampleTree 257 = .ok created ∧
        ∃ inspection,
          Inspects created.img inspection ∧
            Recovers sampleTree created inspection := by
  obtain ⟨created, made, _, _, fits⟩ := createImage_sample
  exact ⟨created, made,
    (recovers_iff_addressable made sampleTree_namesOk fits).mpr
      (by decide +kernel)⟩

end Recoveries

section Towers

variable {content : List UInt8}

theorem tower_namesOk (levels : Nat) : (tower content levels).NamesOk := by
  induction levels with
  | zero =>
      trivial
  | succ levels inductionHypothesis =>
      exact ⟨nameOk_letter (by decide) (by decide), inductionHypothesis,
        nameOk_letter (by decide) (by decide), trivial⟩

/-- The file of the last demand ends below the end marks. -/
theorem Addressable.last
    {place size : Nat}
    {taken : List Demand}
    (addressable : Addressable place (taken ++ [⟨false, size⟩])) :
    place + clustersOf taken + clustersFor size ≤ endMarks := by
  induction taken generalizing place with
  | nil =>
      exact addressable.1
  | cons demand rest inductionHypothesis =>
      have later := inductionHypothesis addressable.2
      simp only [clustersOf, List.map_cons, List.sum_cons] at later ⊢
      omega

/-- The geometry of a volume with cluster numbers beyond the end marks. -/
theorem createGeometry_1100000 :
    createGeometry 1100000 = .ok ⟨2252800000, 2200000, 281049996⟩ := by
  have found :
      fatSzFor (1100000 * 1024 * 1024 / sector) = (2200000, 281049996) := by
    rw [fatSzFor, fatSzFrom, if_neg (by decide), fatSzFrom,
      if_pos (by decide)]
    decide
  simp only [createGeometry, found]
  decide

/-- The last file of an addressable tower ends below the end marks. -/
theorem addressable_tower
    (some : content ≠ [])
    (fits : content.length < 256 ^ 4)
    {levels : Nat}
    (addressable :
      Addressable rootClus (demands (tower content (levels + 1)))) :
    levels * (clustersFor content.length + 1) +
        clustersFor content.length ≤
      endMarks := by
  obtain ⟨clusters, _⟩ := clustersOf_tower some fits levels
  have split :
      demands (tower content (levels + 1)) =
        (⟨true, (dirStream 0 0 (tower content (levels + 1))).length⟩ ::
          ⟨true, (dirStream rootClus 0 (tower content levels)).length⟩ ::
          (tower content levels).demands) ++ [⟨false, content.length⟩] := by
    simp only [demands, tower, Nodes.demands, some, ↓reduceIte]
    rfl
  rw [split] at addressable
  have ends := addressable.last
  simp only [clustersOf, List.map_cons, List.sum_cons] at ends clusters
  omega

/-- A tower whose files go beyond the end marks is not given back. -/
theorem not_recovers_tower
    (some : content ≠ [])
    (fits : content.length < 256 ^ 4)
    {levels : Nat}
    (beyond :
      endMarks <
        levels * (clustersFor content.length + 1) +
          clustersFor content.length)
    {sizeMb : Int}
    {geometry : Geometry}
    (sized : createGeometry sizeMb = .ok geometry)
    (totSec : geometry.totSec < 256 ^ 4)
    (room :
      1 + (levels + 1) * (clustersFor content.length + 1) +
          (levels + 1 + 1) ≤
        geometry.clusCount) :
    ∃ created,
      createImage (tower content (levels + 1)) sizeMb = .ok created ∧
        created.alloc.nextClus - rootClus +
            (demands (tower content (levels + 1))).countP Demand.isDir ≤
          created.geometry.clusCount ∧
        ¬ ∃ inspection,
          Inspects created.img inspection ∧
            Recovers (tower content (levels + 1)) created inspection := by
  obtain ⟨clusters, dirs⟩ :=
    clustersOf_demands_tower some fits (levels + 1)
  obtain ⟨root, alloc, laidOut⟩ := layoutRoot_tower fits (levels + 1)
  have next := layoutRoot_nextClus laidOut
  rw [clusters] at next
  obtain ⟨rawFat, img, written⟩ :=
    createImage_fits sized totSec laidOut (by rw [next]; omega)
  refine ⟨_, createImage_eq_ok.mpr ⟨rawFat, written⟩, ?_, ?_⟩
  · rw [dirs, next, Nat.add_sub_cancel_left]
    exact room
  · rintro ⟨inspection, inspects, recovers⟩
    have complete := written.complete (by rw [clusters, dirs]; exact room)
    have within := addressable_tower some fits
      (complete.addressable_of_recovers (tower_namesOk _) inspects recovers)
    exact Nat.lt_irrefl _ (Nat.lt_of_lt_of_le beyond within)

/-- Files of one byte less than 4 GiB, 256 directories deep. -/
def largeTower : Nodes :=
  tower (List.replicate (256 ^ 4 - 1) 0) 256

/-- The image of such a tree is created, but it is not given back. -/
theorem not_recovers_largeTower :
    largeTower.NamesOk ∧
      ∃ created,
        createImage largeTower 1100000 = .ok created ∧
          created.alloc.nextClus - rootClus +
              (demands largeTower).countP Demand.isDir ≤
            created.geometry.clusCount ∧
          ¬ ∃ inspection,
            Inspects created.img inspection ∧
              Recovers largeTower created inspection := by
  have large := @List.length_replicate UInt8 (256 ^ 4 - 1) 0
  have size : clustersFor (256 ^ 4 - 1) = 1048576 := by decide
  rw [largeTower]
  generalize List.replicate (256 ^ 4 - 1) (0 : UInt8) = content at large ⊢
  refine ⟨tower_namesOk 256, ?_⟩
  have some : content ≠ [] := by
    rintro rfl
    exact absurd large (by decide)
  exact @not_recovers_tower content some (by rw [large]; decide) 255
    (by rw [large, size]; decide) 1100000 _ createGeometry_1100000
    (by decide) (by rw [large, size]; decide)

end Towers

end UefiMount.MkFatImg
