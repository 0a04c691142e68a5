import UefiMount.FatEntryDecoding
import UefiMount.FatImagePasses

namespace UefiMount.MkFatImg

open BumpAllocation ByteBuffer

/-!
# Walking the tree

What `walk_dir` makes of an image whose runs hold their contents and whose FAT
links them.  The walk follows a chain only as long as the cluster numbers are
no end marks, so it depends on where the runs lie whether it finds them whole.
-/

/-- The reading side finds the content of the run and its links. -/
structure Readable
    (g : Bpb)
    (img : List UInt8)
    (extent : Extent Area) : Prop where
  content :
    ∀ place < extent.count,
      g.readClus img (extent.first + place) =
        slice
          (extent.payload.data ++
            List.replicate
              (extent.count * bytesPerCluster - extent.payload.data.length)
              0)
          (place * bytesPerCluster) bytesPerCluster
  next :
    ∀ place < extent.count,
      g.nextClus img (extent.first + place) = .ok (extent.link eoc place)

namespace Report

/-- Lines and uses that have been added. -/
def extend
    (report : Report)
    (lines : List Line)
    (uses : List (Nat × Use)) :
    Report where
  lines := report.lines ++ lines
  occup := report.occup ++ uses
  conflicts := report.conflicts

@[simp] theorem extend_extend
    (report : Report)
    (lines more : List Line)
    (uses others : List (Nat × Use)) :
    (report.extend lines uses).extend more others =
      report.extend (lines ++ more) (uses ++ others) := by
  simp [extend]

@[simp] theorem extend_nil (report : Report) :
    report.extend [] [] = report := by
  simp [extend]

theorem print_eq_extend (report : Report) (line : Line) :
    report.print line = report.extend [line] [] := by
  simp [print, extend]

/-- All clusters in use lie below a bound. -/
def Below (report : Report) (bound : Nat) : Prop :=
  ∀ entry ∈ report.occup, entry.1 < bound

theorem Below.mono
    {report : Report}
    {bound larger : Nat}
    (below : report.Below bound)
    (atMost : bound ≤ larger) :
    report.Below larger :=
  fun entry member => Nat.lt_of_lt_of_le (below entry member) atMost

theorem Below.extend
    {report : Report}
    {bound : Nat}
    (below : report.Below bound)
    (lines : List Line)
    {uses : List (Nat × Use)}
    (others : ∀ entry ∈ uses, entry.1 < bound) :
    (report.extend lines uses).Below bound := by
  intro entry member
  rcases List.mem_append.mp member with old | new
  · exact below entry old
  · exact others entry new

/-- A cluster above all those in use is marked without conflict. -/
theorem mark_fresh
    {report : Report}
    {c : Nat}
    (below : report.Below c)
    (what : Use) :
    report.mark c what = report.extend [] [(c, what)] := by
  have unused : report.occup.lookup c = none := by
    rw [List.lookup_eq_none_iff]
    intro entry member
    have less := below entry member
    simp only [bne_iff_ne]
    omega
  rw [mark, unused]
  simp [extend]

/-- Clusters in ascending order are marked without conflict. -/
theorem foldl_mark_fresh
    {report : Report}
    {clusters : List Nat}
    (ascending : clusters.Pairwise (· < ·))
    (below : ∀ c ∈ clusters, report.Below c)
    (what : Use) :
    clusters.foldl (fun report c => report.mark c what) report =
      report.extend [] (clusters.map fun c => (c, what)) := by
  induction clusters generalizing report with
  | nil =>
      simp
  | cons c rest inductionHypothesis =>
      obtain ⟨first, others⟩ := List.pairwise_cons.mp ascending
      rw [List.foldl_cons,
        mark_fresh (below c (List.mem_cons_self ..)), inductionHypothesis
          others]
      · simp
      · intro other member
        refine Below.extend (below other (List.mem_cons_of_mem _ member)) _ ?_
        intro entry known
        rw [List.mem_singleton.mp known]
        exact first other member

end Report

/-- The clusters from one on that the walk can follow a chain through. -/
def followed (first count : Nat) : List Nat :=
  (List.range' first count).takeWhile fun c => c < endMarks

theorem mem_followed
    {first count c : Nat}
    (member : c ∈ followed first count) :
    first ≤ c ∧ c < first + count := by
  have listed := (List.takeWhile_sublist _).subset member
  rwa [List.mem_range'_1] at listed

theorem followed_succ (first count : Nat) :
    followed first (count + 1) =
      if first < endMarks then first :: followed (first + 1) count else [] := by
  simp [followed, List.range'_succ, List.takeWhile_cons]

section Runs

variable {g : Bpb} {img : List UInt8} {extent : Extent Area}

/-- One round of the walk along the chain of a run. -/
theorem walkChainMark_step
    (readable : Readable g img extent)
    (data : rootClus ≤ extent.first)
    (what : Use)
    {place : Nat}
    (within : place < extent.count)
    (fuel : Nat)
    {seen : List Nat}
    (fresh : ∀ c ∈ seen, c < extent.first + place)
    {report : Report}
    (below : report.Below (extent.first + place)) :
    walkChainMark g img what (fuel + 1) (extent.first + place) seen report =
      if extent.first + place < endMarks then
        walkChainMark g img what fuel (extent.link eoc place)
          ((extent.first + place) :: seen)
          (report.extend [] [(extent.first + place, what)])
      else
        .ok report := by
  have unseen : extent.first + place ∉ seen := fun member =>
    Nat.lt_irrefl _ (fresh _ member)
  have allocated : rootClus ≤ extent.first + place := by omega
  simp only [walkChainMark, allocated, unseen, not_false_eq_true, and_true,
    true_and, readable.next place within, Report.mark_fresh below]
  rfl

/-- The chain of a file is marked up to the first end mark in it. -/
theorem walkChainMark_from
    (readable : Readable g img extent)
    (data : rootClus ≤ extent.first)
    (what : Use)
    {place left : Nat}
    (rest : place + left + 1 = extent.count)
    {fuel : Nat}
    (enough : left + 2 ≤ fuel)
    {seen : List Nat}
    (fresh : ∀ c ∈ seen, c < extent.first + place)
    {report : Report}
    (below : report.Below (extent.first + place)) :
    walkChainMark g img what fuel (extent.first + place) seen report =
      .ok (report.extend []
        ((followed (extent.first + place) (left + 1)).map
          fun c => (c, what))) := by
  induction left generalizing place fuel seen report with
  | zero =>
      obtain ⟨fuel, rfl⟩ : ∃ less, fuel = less + 2 := ⟨fuel - 2, by omega⟩
      rw [walkChainMark_step readable data what (by omega) _ fresh below,
        followed_succ]
      split
      · have last : extent.link eoc place = eoc := if_neg (by omega)
        rw [last, walkChainMark,
          if_neg fun holds => absurd holds.2.1 (by decide)]
        rfl
      · simp
  | succ left inductionHypothesis =>
      obtain ⟨fuel, rfl⟩ : ∃ less, fuel = less + 1 := ⟨fuel - 1, by omega⟩
      rw [walkChainMark_step readable data what (by omega) _ fresh below,
        followed_succ]
      split
      · have next : extent.link eoc place = extent.first + (place + 1) :=
          if_pos (by omega)
        have later := @inductionHypothesis (place + 1) (by omega) fuel
          (by omega) ((extent.first + place) :: seen)
          (by
            intro c member
            rcases List.mem_cons.mp member with rfl | member
            · omega
            · exact Nat.lt_succ_of_lt (fresh c member))
          (report.extend [] [(extent.first + place, what)])
          (by
            refine Report.Below.extend (below.mono (by omega)) _ ?_
            intro entry member
            rw [List.mem_singleton.mp member]
            exact Nat.lt_succ_self _)
        rw [next, later]
        simp [Nat.add_assoc]
      · simp

/-- The chain of a file is marked from its first cluster on. -/
theorem walkChainMark_run
    (readable : Readable g img extent)
    (data : rootClus ≤ extent.first)
    (occupied : 0 < extent.count)
    (what : Use)
    {fuel : Nat}
    (enough : extent.count + 1 ≤ fuel)
    {report : Report}
    (below : report.Below extent.first) :
    walkChainMark g img what fuel extent.first [] report =
      .ok (report.extend []
        ((followed extent.first extent.count).map fun c => (c, what))) := by
  have walked := @walkChainMark_from g img extent readable data what 0
    (extent.count - 1) (by omega) fuel (by omega) [] (by simp) report below
  rwa [Nat.sub_add_cancel occupied] at walked

/-- The run holds a directory with these entries. -/
structure HoldsEntries
    (extent : Extent Area)
    (entries : List (List UInt8)) : Prop where
  each :
    ∀ entry ∈ entries, entry.length = 32
  stream :
    extent.payload.data = entries.flatten ++ [0]
  occupied :
    Occupied extent

/-- The entries of one cluster. -/
def perCluster : Nat := 128

namespace HoldsEntries

variable {es : List (List UInt8)}

theorem length (holds : HoldsEntries extent es) :
    extent.payload.data.length = 32 * es.length + 1 := by
  rw [holds.stream, List.length_append, length_flatten_entries holds.each,
    List.length_singleton]

/-- The end of the directory lies in the last cluster. -/
theorem bounds (holds : HoldsEntries extent es) :
    (extent.count - 1) * perCluster ≤ es.length ∧
      es.length < extent.count * perCluster := by
  obtain ⟨positive, fits, reached⟩ := holds.occupied.bounds
  rw [holds.length] at fits reached
  simp only [bytesPerCluster, sector, secPerClus, perCluster] at *
  omega

/-- The pieces of the run, with blank ones behind the entries. -/
def pieces
    (extent : Extent Area)
    (es : List (List UInt8)) :
    List (List UInt8) :=
  es ++ List.replicate (extent.count * perCluster - es.length)
    (List.replicate 32 0)

theorem each_pieces (holds : HoldsEntries extent es) :
    ∀ piece ∈ pieces extent es, piece.length = 32 := by
  intro piece member
  rcases List.mem_append.mp member with own | blank
  · exact holds.each piece own
  · rw [List.eq_of_mem_replicate blank, List.length_replicate]

theorem length_pieces (holds : HoldsEntries extent es) :
    (pieces extent es).length = extent.count * perCluster := by
  have within := holds.bounds.2
  rw [pieces, List.length_append, List.length_replicate]
  omega

theorem flatten_pieces (holds : HoldsEntries extent es) :
    (pieces extent es).flatten =
      extent.payload.data ++
        List.replicate
          (extent.count * bytesPerCluster - extent.payload.data.length)
          0 := by
  have within := holds.bounds.2
  rw [pieces, List.flatten_append, List.flatten_replicate_replicate,
    holds.stream, List.append_assoc, List.length_append,
    length_flatten_entries holds.each, List.length_singleton]
  congr 1
  rw [← List.replicate_one, List.replicate_append_replicate]
  congr 1
  simp only [bytesPerCluster, sector, secPerClus, perCluster] at *
  omega

/-- The pieces that are read from one cluster of the run. -/
theorem pieces_readClus
    (holds : HoldsEntries extent es)
    (readable : Readable g img extent)
    (bpc : g.bpc = bytesPerCluster)
    {place : Nat}
    (within : place < extent.count) :
    MkFatImg.pieces (g.readClus img (extent.first + place)) g.bpc =
      ((pieces extent es).drop (place * perCluster)).take perCluster := by
  have each := holds.each_pieces
  have length := holds.length_pieces
  have total : (place + 1) * perCluster ≤ extent.count * perCluster :=
    Nat.mul_le_mul_right _ within
  rw [Nat.add_mul, Nat.one_mul] at total
  have held := slice_flatten each (place * perCluster) perCluster
  have widths : 32 * (place * perCluster) = place * bytesPerCluster ∧
      32 * perCluster = bytesPerCluster := by
    refine ⟨?_, rfl⟩
    change 32 * (place * 128) = place * 4096
    omega
  rw [widths.1, widths.2, holds.flatten_pieces] at held
  rw [readable.content place within, held, MkFatImg.pieces, bpc]
  have ownEach :
      ∀ piece ∈
        ((pieces extent es).drop (place * perCluster)).take perCluster,
        piece.length = 32 := fun piece member =>
    each piece (List.mem_of_mem_drop (List.mem_of_mem_take member))
  have ownLength :
      (((pieces extent es).drop (place * perCluster)).take
        perCluster).length = perCluster := by
    rw [List.length_take, List.length_drop]
    omega
  have read := map_slice_flatten ownEach (Nat.le_of_eq ownLength.symm)
  rw [List.take_take, Nat.min_self] at read
  exact read

/-- A cluster before the last one holds entries only. -/
theorem pieces_full
    (holds : HoldsEntries extent es)
    {place : Nat}
    (notLast : place + 1 < extent.count) :
    ((pieces extent es).drop (place * perCluster)).take perCluster =
      (es.drop (place * perCluster)).take perCluster := by
  have reached := holds.bounds.1
  have total : (place + 1) * perCluster ≤ (extent.count - 1) * perCluster :=
    Nat.mul_le_mul_right _ (by omega)
  rw [Nat.add_mul, Nat.one_mul] at total
  rw [pieces, List.drop_append_of_le_length (by omega),
    List.take_append_of_le_length (by rw [List.length_drop]; omega)]

/-- The last cluster holds the other entries and a blank piece behind them. -/
theorem pieces_last
    (holds : HoldsEntries extent es)
    {place : Nat}
    (last : place + 1 = extent.count) :
    ∃ blanks,
      ((pieces extent es).drop (place * perCluster)).take perCluster =
        es.drop (place * perCluster) ++ List.replicate 32 0 :: blanks := by
  obtain ⟨reached, within⟩ := holds.bounds
  rw [← last, Nat.add_sub_cancel] at reached
  obtain ⟨more, blank⟩ : ∃ more,
      extent.count * perCluster - es.length = more + 1 :=
    ⟨extent.count * perCluster - es.length - 1, by omega⟩
  refine ⟨List.replicate more (List.replicate 32 0), ?_⟩
  rw [List.take_of_length_le, pieces, List.drop_append_of_le_length reached,
    blank, List.replicate_succ]
  rw [List.length_drop, holds.length_pieces, ← last, Nat.add_mul]
  omega

end HoldsEntries

/-- The directory ends at a blank piece. -/
theorem scanEntries_blank
    (blanks pending : List (List UInt8)) :
    scanEntries (List.replicate 32 0 :: blanks) pending =
      .ok ([], pending, true) :=
  rfl

/--
The chain of a directory is read up to its end when no cluster with entries is
taken for an end mark.
-/
theorem readChain_from
    {es : List (List UInt8)}
    (holds : HoldsEntries extent es)
    (readable : Readable g img extent)
    (bpc : g.bpc = bytesPerCluster)
    {visited : List Nat}
    (earlier : ∀ c ∈ visited, c ≤ extent.first)
    {place left : Nat}
    (rest : place + left + 1 = extent.count)
    {fuel : Nat}
    (enough : left + 1 ≤ fuel)
    {pending last : List (List UInt8)}
    {entries : List DirEntry}
    (scanned :
      scanEntries (es.drop (place * perCluster)) pending =
        .ok (entries, last, false))
    (reachable :
      ∀ later, place < later → later * perCluster < es.length →
        extent.first + later < endMarks) :
    readChain g img visited fuel (extent.first + place) pending =
      .ok (entries,
        (extent.first + place) ::
          followed (extent.first + place + 1) left) := by
  induction left generalizing place fuel pending entries with
  | zero =>
      obtain ⟨fuel, rfl⟩ : ∃ less, fuel = less + 1 := ⟨fuel - 1, by omega⟩
      obtain ⟨blanks, pieces⟩ := holds.pieces_last (by omega)
      have found := scanEntries_append scanned
        (scanEntries_blank blanks last)
      rw [List.append_nil, ← pieces,
        ← holds.pieces_readClus readable bpc (by omega)] at found
      simp only [readChain, found, raising, bind, Except.bind, ↓reduceIte]
      rfl
  | succ left inductionHypothesis =>
      obtain ⟨fuel, rfl⟩ : ∃ less, fuel = less + 1 := ⟨fuel - 1, by omega⟩
      have cut := scanned
      rw [← List.take_append_drop perCluster
        (es.drop (place * perCluster)), List.drop_drop] at cut
      obtain ⟨front, middle, back, first, second, rfl⟩ :=
        scanEntries_split cut
      rw [← holds.pieces_full (by omega),
        ← holds.pieces_readClus readable bpc (by omega)] at first
      have next : extent.link eoc place = extent.first + (place + 1) :=
        if_pos (by omega)
      have unvisited : extent.first + (place + 1) ∉ visited := by
        intro member
        have atMost := earlier _ member
        omega
      have further : place * perCluster + perCluster =
          (place + 1) * perCluster := by
        rw [Nat.add_mul, Nat.one_mul]
      rw [further] at second
      have same : extent.first + place + 1 = extent.first + (place + 1) :=
        rfl
      simp only [readChain, first, readable.next place (by omega), next,
        raising, bind, Except.bind, Bool.false_eq_true, ↓reduceIte,
        unvisited, or_false]
      rw [same, followed_succ]
      by_cases small : extent.first + (place + 1) < endMarks
      · have later := @inductionHypothesis (place + 1) (by omega) fuel
          (by omega) middle back second
          (fun other behind => reachable other (by omega))
        rw [if_neg (Nat.not_le.mpr small), if_pos small, later]
        rfl
      · have atEnd : es.length ≤ (place + 1) * perCluster := by
          refine Nat.not_lt.mp fun more => small ?_
          exact reachable (place + 1) (Nat.lt_succ_self _) more
        rw [List.drop_eq_nil_of_le atEnd] at second
        obtain ⟨rfl, _⟩ := Prod.mk.inj (Except.ok.inj second)
        rw [if_pos (Nat.not_lt.mp small), if_neg small, List.append_nil]
        rfl

/-- A directory's chain is read from its first cluster on. -/
theorem readChain_run
    {es : List (List UInt8)}
    (holds : HoldsEntries extent es)
    (readable : Readable g img extent)
    (bpc : g.bpc = bytesPerCluster)
    {visited : List Nat}
    (earlier : ∀ c ∈ visited, c ≤ extent.first)
    {fuel : Nat}
    (enough : extent.count ≤ fuel)
    {last : List (List UInt8)}
    {entries : List DirEntry}
    (scanned : scanEntries es [] = .ok (entries, last, false))
    (reachable :
      ∀ place, 0 < place → place * perCluster < es.length →
        extent.first + place < endMarks) :
    readChain g img visited fuel extent.first [] =
      .ok (entries,
        extent.first :: followed (extent.first + 1) (extent.count - 1)) := by
  have positive := holds.occupied.bounds.1
  exact @readChain_from g img extent es holds readable bpc visited earlier 0
    (extent.count - 1) (by omega) fuel (by omega) [] last entries
    (by rwa [Nat.zero_mul, List.drop_zero])
    reachable

end Runs

section Trees

/-- The clusters of a directory that the walk finds. -/
def dirClusters (first count : Nat) : List Nat :=
  first :: followed (first + 1) (count - 1)

theorem mem_dirClusters
    {first count c : Nat}
    (positive : 0 < count)
    (member : c ∈ dirClusters first count) :
    first ≤ c ∧ c < first + count := by
  rcases List.mem_cons.mp member with rfl | member
  · omega
  · have within := mem_followed member
    omega

/-- The uses of clusters below a directory that the walk finds. -/
def Nodes.uses (path : PyStr) : Nodes → List (Nat × Use)
  | .nil =>
      []
  | .file name content firstClus rest =>
      (followed firstClus (clustersFor content.length)).map
          (fun c => (c, .file (childPath path name))) ++
        rest.uses path
  | .dir name _ firstClus dirN children rest =>
      (dirClusters firstClus dirN).map
          (fun c => (c, .dir (childPath path name))) ++
        (children.uses (childPath path name) ++ rest.uses path)

/-- The lines for the children of a directory at a depth. -/
def Nodes.lines (depth : Nat) : Nodes → List ShortName → List Line
  | .nil, _ =>
      []
  | .file name content firstClus rest, taken =>
      match shortName name taken with
      | .ok s11 =>
          .entry (depth + 1) false (shortToName s11.bytes) name
              content.length
              (if content.length ≠ 0 then firstClus else 0) ::
            rest.lines depth (s11 :: taken)
      | .error _ =>
          []
  | .dir name _ firstClus _ children rest, taken =>
      match shortName name taken with
      | .ok s11 =>
          .entry (depth + 1) true (shortToName s11.bytes) name 0
              firstClus ::
            .dir (depth + 1) (children.listed []).length ::
            (children.lines (depth + 1) [] ++
              rest.lines depth (s11 :: taken))
      | .error _ =>
          []

/-- How deep the directories are nested. -/
def Nodes.height : Nodes → Nat
  | .nil =>
      0
  | .file _ _ _ rest =>
      rest.height
  | .dir _ _ _ _ children rest =>
      max (children.height + 1) rest.height

/-- No cluster with entries of the directory is taken for an end mark. -/
def EntriesReachable (extent : Extent Area) : Prop :=
  extent.payload.isDir = true →
    ∀ place, 0 < place →
      place * bytesPerCluster + 1 < extent.payload.data.length →
      extent.first + place < endMarks

/-- The entries of a budgeted directory are those of its children. -/
theorem DirBudgeted.holds
    {parentClus firstClus dirN : Nat}
    {children : Nodes}
    (budgeted : DirBudgeted parentClus firstClus dirN children) :
    ∃ dots own,
      dotEntries parentClus firstClus = .ok dots ∧
        nodeEntries children [] = .ok own ∧
        HoldsEntries
          ⟨firstClus, dirN, true, dirStream parentClus firstClus children⟩
          (dots ++ own) := by
  have occupied := budgeted.occupied
  obtain ⟨stream, built, _⟩ := budgeted
  obtain ⟨dots, own, dotsBuilt, ownBuilt, each, joined⟩ :=
    buildDirEntries_eq_ok built
  refine ⟨dots, own, dotsBuilt, ownBuilt, each, ?_, occupied⟩
  simp [dirStream, built, Except.toOption, joined]

/-- The numbers of laid out nodes fit the fields when those of the runs do. -/
theorem Nodes.Budgeted.numbered
    {nodes : Nodes}
    (budgeted : nodes.Budgeted)
    (fits : ∀ extent ∈ nodes.extents, extent.first < 256 ^ 4) :
    nodes.Numbered := by
  induction nodes with
  | nil =>
      trivial
  | file name content firstClus rest restIH =>
      by_cases empty : content = []
      · simp only [Nodes.extents, empty, ↓reduceIte] at fits
        rw [Nodes.Numbered, budgeted.1 empty]
        exact ⟨by decide, restIH budgeted.2 fits⟩
      · simp only [Nodes.extents, empty, ↓reduceIte, List.forall_mem_cons]
          at fits
        exact ⟨fits.1, restIH budgeted.2 fits.2⟩
  | dir name parentClus firstClus dirN children rest _ restIH =>
      simp only [Nodes.extents, List.forall_mem_cons, List.forall_mem_append]
        at fits
      exact ⟨fits.1, restIH budgeted.2.2 fits.2.2⟩

variable {g : Bpb} {img : List UInt8}

/-- A directory is read, its chain is marked, and its children are walked. -/
theorem walkDir_opened
    {parentClus firstClus dirN : Nat}
    {children : Nodes}
    (budgeted : DirBudgeted parentClus firstClus dirN children)
    (namesOk : children.NamesOk)
    (numbered : children.Numbered)
    (readable :
      Readable g img
        ⟨firstClus, dirN, true, dirStream parentClus firstClus children⟩)
    (reachable :
      EntriesReachable
        ⟨firstClus, dirN, true, dirStream parentClus firstClus children⟩)
    (bpc : g.bpc = bytesPerCluster)
    {visited : List Nat}
    (earlier : ∀ c ∈ visited, c < firstClus)
    {fuel : Nat}
    (enough : dirN ≤ fuel)
    {report : Report}
    (below : report.Below firstClus)
    (depth : Nat)
    (path : PyStr) :
    walkDir g img (fuel + 1) depth firstClus visited path report =
      walkChildren g img fuel depth path
        (fun first path =>
          walkDir g img fuel (depth + 1) first (firstClus :: visited) path)
        (children.listed [])
        (report.extend
          [if depth = 0 then
            .root (children.listed []).length
          else
            .dir depth (children.listed []).length]
          ((dirClusters firstClus dirN).map fun c => (c, .dir path))) := by
  obtain ⟨dots, own, dotsBuilt, ownBuilt, holds⟩ := budgeted.holds
  obtain ⟨dotsFound, dotsScanned, noChild⟩ :=
    scanEntries_dotEntries dotsBuilt
  have scanned := scanEntries_append dotsScanned
    (scanEntries_nodeEntries namesOk numbered ownBuilt)
  have positive : 0 < dirN := holds.occupied.bounds.1
  have found :=
    @readChain_run g img
      ⟨firstClus, dirN, true, dirStream parentClus firstClus children⟩
      _ holds readable bpc (firstClus :: visited)
      (by
        intro c member
        rcases List.mem_cons.mp member with rfl | member
        · exact Nat.le_refl _
        · exact Nat.le_of_lt (earlier c member))
      fuel enough [] _ scanned
      (by
        intro place behind within
        refine reachable rfl place behind ?_
        rw [holds.length]
        simp only [bytesPerCluster, sector, secPerClus, perCluster] at *
        omega)
  have unvisited : firstClus ∉ visited := fun member =>
    Nat.lt_irrefl _ (earlier _ member)
  have marked :=
    @Report.foldl_mark_fresh report (dirClusters firstClus dirN)
      (by
        refine List.pairwise_cons.mpr ⟨?_, ?_⟩
        · intro c member
          exact (mem_followed member).1
        · exact List.Pairwise.sublist (List.takeWhile_sublist _)
            (List.pairwise_lt_range' ..))
      (fun c member => below.mono (mem_dirClusters positive member).1)
      (.dir path)
  have ownChildren :
      childrenOf (dotsFound ++ children.listed []) = children.listed [] := by
    rw [childrenOf_append, noChild, childrenOf_listed namesOk,
      List.nil_append]
  change readChain g img (firstClus :: visited) fuel firstClus [] =
    .ok (_, dirClusters firstClus dirN) at found
  simp only [walkDir, if_neg unvisited, found, bind, Except.bind, marked,
    ownChildren, Report.print_eq_extend, Report.extend_extend, List.nil_append,
    List.append_nil]

/-- A part of the tree as the walk may meet it. -/
structure Walkable
    (g : Bpb)
    (img : List UInt8)
    (nodes : Nodes)
    (start stop : Nat) : Prop where
  namesOk :
    nodes.NamesOk
  budgeted :
    nodes.Budgeted
  readable :
    ∀ extent ∈ nodes.extents, Readable g img extent
  tiles :
    Tiles start nodes.extents stop
  data :
    rootClus ≤ start
  fits :
    stop ≤ 256 ^ 4

namespace Walkable

variable {start stop : Nat}

theorem numbered
    {nodes : Nodes}
    (walkable : Walkable g img nodes start stop) :
    nodes.Numbered := by
  apply walkable.budgeted.numbered
  intro extent member
  obtain ⟨_, positive, within⟩ := walkable.tiles.bounds member
  have fits := walkable.fits
  simp only [Extent.behind] at within
  omega

theorem emptyFile
    {name : PyStr}
    {firstClus : Nat}
    {rest : Nodes}
    (walkable : Walkable g img (.file name [] firstClus rest) start stop) :
    firstClus = 0 ∧ Walkable g img rest start stop := by
  obtain ⟨namesOk, budgeted, readable, tiles, data, fits⟩ := walkable
  exact ⟨budgeted.1 rfl, namesOk.2, budgeted.2, readable, tiles, data, fits⟩

theorem file
    {name : PyStr}
    {content : List UInt8}
    (some : content ≠ [])
    {firstClus : Nat}
    {rest : Nodes}
    (walkable :
      Walkable g img (.file name content firstClus rest) start stop) :
    firstClus = start ∧
      0 < clustersFor content.length ∧
      Readable g img
        ⟨firstClus, clustersFor content.length, false, content⟩ ∧
      Walkable g img rest (start + clustersFor content.length) stop := by
  obtain ⟨namesOk, budgeted, readable, tiles, data, fits⟩ := walkable
  simp only [Nodes.extents, some, ↓reduceIte] at readable tiles
  obtain ⟨own, others⟩ := List.forall_mem_cons.mp readable
  obtain ⟨rfl, positive, rest⟩ := tiles.uncons
  exact ⟨rfl, positive, own, namesOk.2, budgeted.2, others, rest,
    Nat.le_trans data (Nat.le_add_right ..), fits⟩

theorem dir
    {name : PyStr}
    {parentClus firstClus dirN : Nat}
    {children rest : Nodes}
    (walkable :
      Walkable g img
        (.dir name parentClus firstClus dirN children rest) start stop) :
    firstClus = start ∧
      0 < dirN ∧
      DirBudgeted parentClus firstClus dirN children ∧
      Readable g img
        ⟨firstClus, dirN, true, dirStream parentClus firstClus children⟩ ∧
      ∃ middle,
        Walkable g img children (start + dirN) middle ∧
          Walkable g img rest middle stop := by
  obtain ⟨namesOk, budgeted, readable, tiles, data, fits⟩ := walkable
  simp only [Nodes.extents, List.forall_mem_cons, List.forall_mem_append]
    at readable
  obtain ⟨own, inChildren, inRest⟩ := readable
  obtain ⟨first, positive, others⟩ := tiles.uncons
  dsimp only at first
  subst first
  obtain ⟨middle, childrenTiles, restTiles⟩ := others.split
  have reached := childrenTiles.le
  have further := restTiles.le
  simp only [Extent.behind] at reached
  exact ⟨rfl, positive, budgeted.1, own, middle,
    ⟨namesOk.2.1, budgeted.2.1, inChildren, childrenTiles,
      by omega, by omega⟩,
    ⟨namesOk.2.2, budgeted.2.2, inRest, restTiles,
      by omega, fits⟩⟩

/-- The uses that the walk finds lie in the runs of the nodes. -/
theorem uses_below
    {nodes : Nodes}
    (walkable : Walkable g img nodes start stop)
    (path : PyStr) :
    ∀ entry ∈ nodes.uses path, entry.1 < stop := by
  induction nodes generalizing start stop path with
  | nil =>
      simp [Nodes.uses]
  | file name content firstClus rest restIH =>
      by_cases empty : content = []
      · subst empty
        obtain ⟨_, inRest⟩ := walkable.emptyFile
        simpa [Nodes.uses, followed] using restIH inRest path
      · obtain ⟨rfl, _, _, inRest⟩ := walkable.file empty
        have reached := inRest.tiles.le
        simp only [Nodes.uses, List.forall_mem_append, List.forall_mem_map]
        refine ⟨fun c member => ?_, restIH inRest path⟩
        have within := mem_followed member
        omega
  | dir name parentClus firstClus dirN children rest childrenIH restIH =>
      obtain ⟨rfl, positive, _, _, middle, inChildren, inRest⟩ :=
        walkable.dir
      have reached := inChildren.tiles.le
      have further := inRest.tiles.le
      simp only [Nodes.uses, List.forall_mem_append, List.forall_mem_map]
      refine ⟨fun c member => ?_, fun entry member => ?_,
        restIH inRest path⟩
      · have within := mem_dirClusters positive member
        omega
      · have below := childrenIH inChildren _ entry member
        omega

end Walkable

/-- Every directory of a part of the tree lists all of its entries. -/
def Nodes.Reachable (nodes : Nodes) : Prop :=
  ∀ extent ∈ nodes.extents, EntriesReachable extent

/-- Files have no entries of their own. -/
theorem reachable_file_iff
    {name : PyStr}
    {content : List UInt8}
    {firstClus : Nat}
    {rest : Nodes} :
    (Nodes.file name content firstClus rest).Reachable ↔
      rest.Reachable := by
  simp only [Nodes.Reachable, Nodes.extents]
  split
  · rfl
  · rw [List.forall_mem_cons]
    exact and_iff_right fun isDir => by cases isDir

theorem reachable_dir_iff
    {name : PyStr}
    {parentClus firstClus dirN : Nat}
    {children rest : Nodes} :
    (Nodes.dir name parentClus firstClus dirN children rest).Reachable ↔
      EntriesReachable
          ⟨firstClus, dirN, true,
            dirStream parentClus firstClus children⟩ ∧
        children.Reachable ∧ rest.Reachable := by
  rw [Nodes.Reachable, Nodes.extents, List.forall_mem_cons,
    List.forall_mem_append]
  rfl

/-- Visited clusters stay in front of what comes later. -/
theorem visited_mono
    {visited : List Nat}
    {start behind : Nat}
    (earlier : ∀ c ∈ visited, c < start)
    (reached : start ≤ behind) :
    ∀ c ∈ visited, c < behind :=
  fun c member => Nat.lt_of_lt_of_le (earlier c member) reached

theorem visited_cons
    {visited : List Nat}
    {start behind : Nat}
    (earlier : ∀ c ∈ visited, c < start)
    (further : start < behind) :
    ∀ c ∈ start :: visited, c < behind :=
  List.forall_mem_cons.mpr
    ⟨further, visited_mono earlier (Nat.le_of_lt further)⟩

/-- The children of a directory are walked one after the other. -/
theorem walkChildren_nodes
    (bpc : g.bpc = bytesPerCluster)
    {nodes : Nodes}
    {start stop : Nat}
    (walkable : Walkable g img nodes start stop)
    (reachable : nodes.Reachable)
    {taken : List ShortName}
    {entries : List (List UInt8)}
    (built : nodeEntries nodes taken = .ok entries)
    {visited : List Nat}
    (earlier : ∀ c ∈ visited, c < start)
    {fuel : Nat}
    (enough : nodes.height + stop ≤ fuel)
    {report : Report}
    (below : report.Below start)
    (depth : Nat)
    (path : PyStr) :
    walkChildren g img fuel depth path
        (fun first path => walkDir g img fuel (depth + 1) first visited path)
        (nodes.listed taken) report =
      .ok (report.extend (nodes.lines depth taken) (nodes.uses path)) := by
  induction nodes generalizing start stop taken entries visited fuel report
      depth path with
  | nil =>
      simp [Nodes.listed, Nodes.lines, Nodes.uses, walkChildren]
  | file name content firstClus rest restIH =>
      simp only [nodeEntries, bind_eq_ok] at built
      obtain ⟨s11, named, own, ownBuilt, later, laterBuilt, joined⟩ := built
      simp only [Nodes.height] at enough
      by_cases empty : content = []
      · subst empty
        obtain ⟨rfl, inRest⟩ := walkable.emptyFile
        have walked := restIH inRest (reachable_file_iff.mp reachable)
          laterBuilt earlier enough
          (@Report.Below.extend report start below
            [.entry (depth + 1) false (shortToName s11.bytes) name 0 0] []
            (by simp))
          depth path
        have noChain : ¬ rootClus ≤ 0 := by decide
        simp only [Nodes.listed, Nodes.lines, Nodes.uses, named,
          walkChildren, List.length_nil, ne_eq, not_true_eq_false,
          Bool.false_eq_true, ↓reduceIte, noChain, Report.print_eq_extend,
          bind, Except.bind, walked, Report.extend_extend]
        simp [followed]
      · obtain ⟨rfl, positive, readable, inRest⟩ := walkable.file empty
        have reached := inRest.tiles.le
        have data := walkable.data
        have some : content.length ≠ 0 :=
          Nat.pos_iff_ne_zero.mp (List.length_pos_iff.mpr empty)
        have printed :=
          @Report.Below.extend report firstClus below
            [.entry (depth + 1) false (shortToName s11.bytes) name
              content.length firstClus] [] (by simp)
        have chain := walkChainMark_run readable data positive
          (.file (childPath path name))
          (show clustersFor content.length + 1 ≤ fuel by
            simp only [rootClus] at data; omega)
          printed
        have marked :=
          @Report.Below.extend report
            (firstClus + clustersFor content.length)
            (below.mono (Nat.le_add_right ..))
            [.entry (depth + 1) false (shortToName s11.bytes) name
              content.length firstClus]
            ((followed firstClus (clustersFor content.length)).map
              fun c => (c, .file (childPath path name)))
            (by
              rw [List.forall_mem_map]
              exact fun c member => (mem_followed member).2)
        have walked := restIH inRest (reachable_file_iff.mp reachable)
          laterBuilt (visited_mono earlier (Nat.le_add_right ..))
          enough marked depth path
        simp only [Nodes.listed, Nodes.lines, Nodes.uses, named,
          walkChildren, some, ne_eq, not_false_eq_true, Bool.false_eq_true,
          ↓reduceIte, data, Report.print_eq_extend, chain, bind,
          Except.bind, Report.extend_extend, List.append_nil,
          List.nil_append, walked, List.cons_append]
  | dir name parentClus firstClus dirN children rest childrenIH restIH =>
      simp only [nodeEntries, bind_eq_ok] at built
      obtain ⟨s11, named, own, ownBuilt, later, laterBuilt, joined⟩ := built
      obtain ⟨rfl, positive, budgeted, readable, middle, inChildren,
        inRest⟩ := walkable.dir
      obtain ⟨ownReachable, childrenReachable, restReachable⟩ :=
        reachable_dir_iff.mp reachable
      have reached := inChildren.tiles.le
      have further := inRest.tiles.le
      simp only [Nodes.height] at enough
      obtain ⟨fuel, rfl⟩ : ∃ less, fuel = less + 1 := ⟨fuel - 1, by omega⟩
      have printed :=
        @Report.Below.extend report firstClus below
          [.entry (depth + 1) true (shortToName s11.bytes) name 0 firstClus]
          [] (by simp)
      obtain ⟨_, childEntries, _, childrenBuilt, _⟩ := budgeted.holds
      have opened := walkDir_opened budgeted walkable.namesOk.2.1
        inChildren.numbered readable ownReachable bpc earlier
        (show dirN ≤ fuel by omega) printed (depth + 1)
        (childPath path name)
      simp only [Nat.add_one_ne_zero, ↓reduceIte, Report.extend_extend,
        List.cons_append, List.nil_append] at opened
      have marked :=
        @Report.Below.extend report (firstClus + dirN)
          (below.mono (Nat.le_add_right ..))
          [.entry (depth + 1) true (shortToName s11.bytes) name 0 firstClus,
            .dir (depth + 1) (children.listed []).length]
          ((dirClusters firstClus dirN).map
            fun c => (c, .dir (childPath path name)))
          (by
            rw [List.forall_mem_map]
            exact fun c member => (mem_dirClusters positive member).2)
      have usesBelow := inChildren.uses_below (childPath path name)
      have inside := @childrenIH _ _ inChildren childrenReachable
        _ _ childrenBuilt (firstClus :: visited)
        (visited_cons earlier (by omega))
        fuel (by omega) _ marked (depth + 1) (childPath path name)
      have walked := restIH inRest restReachable laterBuilt
        (visited_mono earlier (by omega))
        (show rest.height + stop ≤ fuel + 1 by omega)
        (@Report.Below.extend _ middle (marked.mono reached)
          (children.lines (depth + 1) []) _ usesBelow)
        depth path
      simp only [Report.extend_extend, List.cons_append, List.nil_append,
        List.append_assoc] at inside walked
      simp only [Nodes.listed, Nodes.lines, Nodes.uses, named, walkChildren,
        ↓reduceIte, Report.print_eq_extend, opened, inside, walked, bind,
        Except.bind]

end Trees

end UefiMount.MkFatImg
