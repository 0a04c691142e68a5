import UefiMount.FatInspectEnds
import UefiMount.FatTreeWalk

namespace UefiMount.MkFatImg

open BumpAllocation

/-!
# Walking a tree in part

The walk reads a directory up to a cluster whose number it takes for an end
mark.  It then lists the front of the children only, so it prints fewer lines
than the tree below has.
-/

/-- The entries of a budgeted directory can be built. -/
theorem DirBudgeted.built
    {parentClus firstClus dirN : Nat}
    {children : Nodes}
    (budgeted : DirBudgeted parentClus firstClus dirN children) :
    ∃ entries, nodeEntries children [] = .ok entries := by
  obtain ⟨_, own, _, built, _⟩ := budgeted.holds
  exact ⟨own, built⟩

section Cuts

/--
However many of the entries are read, they begin the list of children, and a
child is missing when an entry is.
-/
def ListsInPart
    (entries : List (List UInt8))
    (listed : List DirEntry) :
    Prop :=
  ∀ cut, ∃ count pending,
    scanEntries (entries.take cut) [] =
        .ok (listed.take count, pending, false) ∧
      (cut < entries.length → count < listed.length)

/-- A child whose short name has not been read yet is missing. -/
theorem scanEntries_take_childEntries
    {name : PyStr}
    (nameOk : NameOk name)
    {s11 : ShortName}
    {attr : UInt8}
    {first size : Nat}
    {entries : List (List UInt8)}
    (built : childEntries name s11 attr first size = .ok entries)
    {cut : Nat}
    (less : cut < entries.length) :
    ∃ pending,
      scanEntries (entries.take cut) [] = .ok ([], pending, false) := by
  simp only [childEntries, bind_eq_ok] at built
  obtain ⟨long, longBuilt, short, _, joined⟩ := built
  obtain rfl := Except.ok.inj joined
  rw [List.length_append, List.length_singleton] at less
  rw [List.take_append_of_le_length (by omega)]
  simp only [longEntries] at longBuilt
  split at longBuilt
  · rw [lfnEntriesFrom_eq_ok nameOk.plain longBuilt, ← List.map_reverse,
      ← List.map_take]
    have few := nameOk.short
    refine ⟨_, scanEntries_long (show (name.length + 12) / 13 ≤ 20 by omega)
      (fun seq member => ?_) []⟩
    have inRange := List.mem_of_mem_take member
    rw [List.mem_reverse, List.mem_range'_1] at inRange
    omega
  · obtain rfl := Except.ok.inj longBuilt
    rw [List.take_nil]
    exact ⟨[], rfl⟩

theorem ListsInPart.cons
    {own later : List (List UInt8)}
    {child : DirEntry}
    {listed : List DirEntry}
    (whole : scanEntries own [] = .ok ([child], [], false))
    (part :
      ∀ cut < own.length, ∃ pending,
        scanEntries (own.take cut) [] = .ok ([], pending, false))
    (others : ListsInPart later listed) :
    ListsInPart (own ++ later) (child :: listed) := by
  intro cut
  by_cases inOwn : cut < own.length
  · obtain ⟨pending, scanned⟩ := part cut inOwn
    rw [List.take_append_of_le_length (Nat.le_of_lt inOwn)]
    exact ⟨0, pending, scanned, fun _ => Nat.succ_pos _⟩
  · obtain ⟨count, pending, scanned, less⟩ := others (cut - own.length)
    refine ⟨count + 1, pending, ?_, fun within => ?_⟩
    · rw [List.take_append, List.take_of_length_le (by omega)]
      exact scanEntries_append whole scanned
    · rw [List.length_append] at within
      have fewer := less (by omega)
      rw [List.length_cons]
      omega

/-- The entries of a directory list its children in part. -/
theorem nodeEntries_listsInPart
    {nodes : Nodes}
    (namesOk : nodes.NamesOk)
    (numbered : nodes.Numbered)
    {taken : List ShortName}
    {entries : List (List UInt8)}
    (built : nodeEntries nodes taken = .ok entries) :
    ListsInPart entries (nodes.listed taken) := by
  induction nodes generalizing taken entries with
  | nil =>
      obtain rfl := Except.ok.inj built
      intro cut
      refine ⟨0, [], ?_, fun less => absurd less (Nat.not_lt_zero _)⟩
      rw [List.take_nil]
      rfl
  | file name content firstClus rest restIH =>
      simp only [nodeEntries, bind_eq_ok] at built
      obtain ⟨s11, named, own, ownBuilt, later, laterBuilt, joined⟩ := built
      obtain rfl := Except.ok.inj joined
      simp only [Nodes.listed, named]
      exact ListsInPart.cons
        (scanEntries_childEntries namesOk.1
          (asciiByte_shortName namesOk.1.plain named) (.inr rfl)
          (by split; exacts [numbered.1, by decide]) ownBuilt)
        (fun cut => scanEntries_take_childEntries namesOk.1 ownBuilt)
        (restIH namesOk.2 numbered.2 laterBuilt)
  | dir name parentClus firstClus dirN children rest _ restIH =>
      simp only [nodeEntries, bind_eq_ok] at built
      obtain ⟨s11, named, own, ownBuilt, later, laterBuilt, joined⟩ := built
      obtain rfl := Except.ok.inj joined
      simp only [Nodes.listed, named]
      exact ListsInPart.cons
        (scanEntries_childEntries namesOk.1
          (asciiByte_shortName namesOk.1.plain named) (.inl rfl)
          numbered.1 ownBuilt)
        (fun cut => scanEntries_take_childEntries namesOk.1 ownBuilt)
        (restIH namesOk.2.2 numbered.2 laterBuilt)

variable {g : Bpb} {img : List UInt8}

theorem fuel_of_readChain
    {visited : List Nat}
    {fuel clus : Nat}
    {pending : List (List UInt8)}
    {found : List DirEntry × List Nat}
    (read : readChain g img visited fuel clus pending = .ok found) :
    ∃ less, fuel = less + 1 := by
  cases fuel with
  | zero =>
      cases read
  | succ less =>
      exact ⟨less, rfl⟩

/--
The chain of a directory is read up to some cluster, and no cluster behind the
first one that has been read has a number that is an end mark.
-/
theorem readChain_cut
    {extent : Extent Area}
    {es : List (List UInt8)}
    (holds : HoldsEntries extent es)
    (readable : Readable g img extent)
    (bpc : g.bpc = bytesPerCluster)
    {visited : List Nat}
    {place left : Nat}
    (rest : place + left + 1 = extent.count)
    {pending last : List (List UInt8)}
    {entries : List DirEntry}
    (scanned :
      scanEntries (es.drop (place * perCluster)) pending =
        .ok (entries, last, false))
    {fuel : Nat}
    {found : List DirEntry × List Nat}
    (read :
      readChain g img visited fuel (extent.first + place) pending =
        .ok found) :
    ∃ behind,
      (∀ later, place < later → later < place + behind + 1 →
        extent.first + later < endMarks) ∧
      ∃ last,
        scanEntries
            ((es.drop (place * perCluster)).take
              ((behind + 1) * perCluster))
            pending =
          .ok (found.1, last, false) := by
  induction left generalizing place fuel pending entries found with
  | zero =>
      obtain ⟨fuel, rfl⟩ := fuel_of_readChain read
      obtain ⟨blanks, pieces⟩ := holds.pieces_last (by omega)
      have whole := scanEntries_append scanned
        (scanEntries_blank blanks last)
      rw [List.append_nil, ← pieces,
        ← holds.pieces_readClus readable bpc (by omega)] at whole
      simp only [readChain, whole, raising, bind, Except.bind, ↓reduceIte]
        at read
      obtain rfl := Except.ok.inj read
      have within := holds.bounds.2
      rw [← rest, Nat.add_zero, Nat.add_mul, Nat.one_mul] at within
      refine ⟨0, fun later above below => by omega, last, ?_⟩
      rw [List.take_of_length_le (by rw [List.length_drop]; omega)]
      exact scanned
  | succ left inductionHypothesis =>
      obtain ⟨fuel, rfl⟩ := fuel_of_readChain read
      have cut := scanned
      rw [← List.take_append_drop perCluster
        (es.drop (place * perCluster)), List.drop_drop] at cut
      obtain ⟨front, middle, back, first, second, rfl⟩ :=
        scanEntries_split cut
      have one := first
      rw [← holds.pieces_full (by omega),
        ← holds.pieces_readClus readable bpc (by omega)] at first
      have next : extent.link eoc place = extent.first + (place + 1) :=
        if_pos (by omega)
      have further : place * perCluster + perCluster =
          (place + 1) * perCluster := by
        rw [Nat.add_mul, Nat.one_mul]
      rw [further] at second
      simp only [readChain, first, readable.next place (by omega), next,
        raising, bind, Except.bind, Bool.false_eq_true, ↓reduceIte] at read
      split at read
      · obtain rfl := Except.ok.inj read
        refine ⟨0, fun later above below => by omega, middle, ?_⟩
        rw [Nat.zero_add, Nat.one_mul]
        exact one
      · rename_i goesOn
        split at read
        · cases read
        · rename_i later others
          obtain rfl := Except.ok.inj read
          obtain ⟨behind, small, last', rescanned⟩ :=
            inductionHypothesis (by omega) second others
          refine ⟨behind + 1, fun later above below => ?_, last', ?_⟩
          · by_cases here : later = place + 1
            · rw [here]
              exact Nat.lt_of_not_le fun stops => goesOn (.inl stops)
            · exact small later (by omega) (by omega)
          · have joined := scanEntries_append one rescanned
            have total : (behind + 1 + 1) * perCluster =
                perCluster + (behind + 1) * perCluster := by
              rw [Nat.add_mul _ 1, Nat.one_mul, Nat.add_comm]
            rw [total, List.take_add, List.drop_drop, further]
            exact joined

theorem childrenOf_take_listed
    {nodes : Nodes}
    (namesOk : nodes.NamesOk)
    (taken : List ShortName)
    (count : Nat) :
    childrenOf ((nodes.listed taken).take count) =
      (nodes.listed taken).take count := by
  have all := childrenOf_listed namesOk taken
  rw [childrenOf, List.filter_eq_self] at all ⊢
  exact fun entry member => all entry (List.mem_of_mem_take member)

end Cuts

section Lines

variable {g : Bpb} {img : List UInt8}

@[simp] theorem Report.length_lines_print (report : Report) (line : Line) :
    (report.print line).lines.length = report.lines.length + 1 := by
  simp [Report.print]

@[simp] theorem Report.mark_lines
    (report : Report)
    (c : Nat)
    (what : Use) :
    (report.mark c what).lines = report.lines := by
  rw [Report.mark]
  split
  · rfl
  · rfl

theorem Report.length_lines_opened
    (report : Report)
    (depth : Nat)
    (path : PyStr)
    (found : List DirEntry × List Nat) :
    (report.opened depth path found).lines.length =
      report.lines.length + 1 := by
  rw [Report.opened, Report.length_lines_print]
  congr 2
  induction found.2 generalizing report with
  | nil =>
      rfl
  | cons c rest inductionHypothesis =>
      rw [List.foldl_cons, inductionHypothesis, Report.mark_lines]

theorem walkChainMark_lines
    {what : Use}
    {fuel clus : Nat}
    {seen : List Nat}
    {report final : Report}
    (walked :
      walkChainMark g img what fuel clus seen report = .ok final) :
    final.lines = report.lines := by
  induction fuel generalizing clus seen report with
  | zero =>
      cases walked
  | succ fuel inductionHypothesis =>
      by_cases goesOn : rootClus ≤ clus ∧ clus < endMarks ∧ clus ∉ seen
      · rw [walkChainMark_onward goesOn] at walked
        obtain ⟨next, _, walked⟩ := bind_eq_ok.mp walked
        rw [inductionHypothesis walked, Report.mark_lines]
      · rw [walkChainMark_stop goesOn] at walked
        obtain rfl := Except.ok.inj walked
        rfl

theorem visitChild_lines
    {child : DirEntry}
    (isFile : child.isDir = false)
    {fuel depth : Nat}
    {path : PyStr}
    {walk : Nat → PyStr → Report → Except InspectError Report}
    {report final : Report}
    (visit : visitChild g img fuel depth path walk child report = .ok final) :
    final.lines.length = report.lines.length + 1 := by
  simp only [visitChild, isFile, Bool.false_eq_true, ↓reduceIte] at visit
  split at visit
  · rw [walkChainMark_lines visit, Report.length_lines_print]
  · obtain rfl := Except.ok.inj visit
    exact Report.length_lines_print ..

/-- A directory is listed as far as its chain is read. -/
theorem walkDir_listed
    {parentClus firstClus dirN : Nat}
    {children : Nodes}
    (budgeted : DirBudgeted parentClus firstClus dirN children)
    (namesOk : children.NamesOk)
    (numbered : children.Numbered)
    (readable :
      Readable g img
        ⟨firstClus, dirN, true, dirStream parentClus firstClus children⟩)
    (bpc : g.bpc = bytesPerCluster)
    {visited : List Nat}
    (fresh : firstClus ∉ visited)
    {fuel depth : Nat}
    {path : PyStr}
    {report final : Report}
    (walked :
      walkDir g img fuel depth firstClus visited path report = .ok final) :
    ∃ less count opened,
      walkChildren g img less depth path
          (fun first path =>
            walkDir g img less (depth + 1) first (firstClus :: visited) path)
          ((children.listed []).take count) opened =
        .ok final ∧
      opened.lines.length = report.lines.length + 1 ∧
      (¬ EntriesReachable
          ⟨firstClus, dirN, true,
            dirStream parentClus firstClus children⟩ →
        count < (children.listed []).length) := by
  obtain ⟨less, rfl⟩ : ∃ less, fuel = less + 1 := by
    cases fuel with
    | zero => cases walked
    | succ less => exact ⟨less, rfl⟩
  rw [walkDir_fresh fresh] at walked
  obtain ⟨found, read, walked⟩ := bind_eq_ok.mp walked
  obtain ⟨dots, own, dotsBuilt, ownBuilt, holds⟩ := budgeted.holds
  obtain ⟨dotsFound, dotsScanned, noChild⟩ :=
    scanEntries_dotEntries dotsBuilt
  have few := length_dotEntries_le dotsBuilt
  have scanned := scanEntries_append dotsScanned
    (scanEntries_nodeEntries namesOk numbered ownBuilt)
  have positive : 0 < dirN := holds.occupied.bounds.1
  obtain ⟨behind, small, _, cut⟩ :=
    @readChain_cut g img
      ⟨firstClus, dirN, true, dirStream parentClus firstClus children⟩
      _ holds readable bpc (firstClus :: visited) 0 (dirN - 1)
      (by dsimp only; omega) [] [] _ (by simpa using scanned) less found
      read
  obtain ⟨count, pending, inPart, missing⟩ :=
    nodeEntries_listsInPart namesOk numbered ownBuilt
      ((behind + 1) * perCluster - dots.length)
  have all : dots.length ≤ (behind + 1) * perCluster := by
    simp only [perCluster]
    omega
  rw [Nat.zero_mul, List.drop_zero, List.take_append,
    List.take_of_length_le all, scanEntries_append dotsScanned inPart,
    Except.ok.injEq, Prod.mk.injEq] at cut
  refine ⟨less, count, _, ?_,
    report.length_lines_opened depth path found, fun unreachable => ?_⟩
  · rw [walkFound, ← cut.1, childrenOf_append, noChild,
      childrenOf_take_listed namesOk, List.nil_append] at walked
    exact walked
  · simp only [EntriesReachable, true_implies, not_forall] at unreachable
    obtain ⟨place, positive, within, beyond⟩ := unreachable
    have later : behind + 1 ≤ place :=
      Nat.le_of_not_lt fun less =>
        beyond (small place positive (by omega))
    have ends : (behind + 1) * perCluster ≤ place * perCluster :=
      Nat.mul_le_mul_right _ later
    rw [holds.length, List.length_append] at within
    apply missing
    simp only [bytesPerCluster, sector, secPerClus, perCluster] at *
    omega

/--
The walk of children prints at most the lines of the tree below them, and all
of these only if no child is missing and all entries of all directories are
reached.
-/
theorem walkChildren_lines
    (bpc : g.bpc = bytesPerCluster)
    {nodes : Nodes}
    {start stop : Nat}
    (walkable : Walkable g img nodes start stop)
    {taken : List ShortName}
    {entries : List (List UInt8)}
    (built : nodeEntries nodes taken = .ok entries)
    {visited : List Nat}
    (earlier : ∀ c ∈ visited, c < start)
    {fuel depth count : Nat}
    {path : PyStr}
    {report final : Report}
    (walked :
      walkChildren g img fuel depth path
          (fun first path => walkDir g img fuel (depth + 1) first visited path)
          ((nodes.listed taken).take count) report =
        .ok final) :
    final.lines.length ≤
        report.lines.length + (nodes.lines depth taken).length ∧
      (final.lines.length =
          report.lines.length + (nodes.lines depth taken).length →
        (nodes.listed taken).length ≤ count ∧ nodes.Reachable) := by
  induction nodes generalizing start stop taken entries visited fuel depth
      count path report final with
  | nil =>
      rw [Nodes.listed, List.take_nil] at walked
      obtain rfl := Except.ok.inj walked
      exact ⟨Nat.le_add_right .., fun _ =>
        ⟨Nat.zero_le _, by simp [Nodes.Reachable, Nodes.extents]⟩⟩
  | file name content firstClus rest restIH =>
      simp only [nodeEntries, bind_eq_ok] at built
      obtain ⟨s11, named, own, ownBuilt, later, laterBuilt, joined⟩ := built
      simp only [Nodes.listed, Nodes.lines, named, List.length_cons]
        at walked ⊢
      cases count with
      | zero =>
          obtain rfl := Except.ok.inj walked
          exact ⟨Nat.le_add_right .., fun same => by omega⟩
      | succ count =>
          rw [List.take_succ_cons, walkChildren_cons] at walked
          obtain ⟨middle, visit, walked⟩ := bind_eq_ok.mp walked
          have printed := visitChild_lines rfl visit
          obtain ⟨behind, reached, inRest⟩ :
              ∃ behind, start ≤ behind ∧
                Walkable g img rest behind stop := by
            by_cases empty : content = []
            · subst empty
              exact ⟨start, Nat.le_refl _, walkable.emptyFile.2⟩
            · obtain ⟨_, _, _, inRest⟩ := walkable.file empty
              exact ⟨_, Nat.le_add_right .., inRest⟩
          obtain ⟨atMost, all⟩ := restIH inRest laterBuilt
            (visited_mono earlier reached) walked
          refine ⟨by omega, fun same => ?_⟩
          obtain ⟨listed, reachable⟩ := all (by omega)
          exact ⟨Nat.succ_le_succ listed, reachable_file_iff.mpr reachable⟩
  | dir name parentClus firstClus dirN children rest childrenIH restIH =>
      simp only [nodeEntries, bind_eq_ok] at built
      obtain ⟨s11, named, own, ownBuilt, later, laterBuilt, joined⟩ := built
      simp only [Nodes.listed, Nodes.lines, named, List.length_cons,
        List.length_append] at walked ⊢
      cases count with
      | zero =>
          obtain rfl := Except.ok.inj walked
          exact ⟨Nat.le_add_right .., fun same => by omega⟩
      | succ count =>
          rw [List.take_succ_cons, walkChildren_cons] at walked
          obtain ⟨middle, visit, walked⟩ := bind_eq_ok.mp walked
          obtain ⟨rfl, positive, budgeted, readable, between, inChildren,
            inRest⟩ := walkable.dir
          have reached := inChildren.tiles.le
          simp only [visitChild, ↓reduceIte] at visit
          obtain ⟨less, seen, opened, visit, printed, missing⟩ :=
            walkDir_listed budgeted walkable.namesOk.2.1
              inChildren.numbered readable bpc
              (fun member => Nat.lt_irrefl _ (earlier _ member)) visit
          rw [Report.length_lines_print] at printed
          obtain ⟨childEntries, childrenBuilt⟩ := budgeted.built
          obtain ⟨few, allChildren⟩ := childrenIH inChildren childrenBuilt
            (visited_cons earlier (by omega)) visit
          obtain ⟨atMost, all⟩ := restIH inRest laterBuilt
            (visited_mono earlier (by omega)) walked
          refine ⟨by omega, fun same => ?_⟩
          obtain ⟨listedChildren, childrenReachable⟩ :=
            allChildren (by omega)
          obtain ⟨listed, reachable⟩ := all (by omega)
          refine ⟨Nat.succ_le_succ listed,
            reachable_dir_iff.mpr ⟨?_, childrenReachable, reachable⟩⟩
          by_contra unreachable
          exact Nat.lt_irrefl _
            (Nat.lt_of_lt_of_le (missing unreachable) listedChildren)

end Lines

end UefiMount.MkFatImg
