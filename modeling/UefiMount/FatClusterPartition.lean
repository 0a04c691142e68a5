import UefiMount.FatImage

namespace UefiMount.MkFatImg

open BumpAllocation

/-!
# Cluster allocation is a partition

The lengths of the directory streams are computed before the cluster numbers
are known.  They depend on the names and sizes only, so the streams of the
write phase have the lengths that the layout phase has budgeted, and the
allocator tiles the clusters with the runs of the nodes.
-/

/-- The tree without the numbers that the layout fills in. -/
def Nodes.erase : Nodes → Nodes
  | .nil =>
      .nil
  | .file name content _ rest =>
      .file name content 0 rest.erase
  | .dir name _ _ _ children rest =>
      .dir name 0 0 0 children.erase rest.erase

section Renumbering

/-- The cluster number does not decide how many entries a child has. -/
theorem childEntries_renumber
    {name : PyStr}
    {s11 : ShortName}
    {attr : UInt8}
    {first size : Nat}
    {entries : List (List UInt8)}
    (built : childEntries name s11 attr first size = .ok entries)
    (other : Nat) :
    ∃ renumbered,
      childEntries name s11 attr other size = .ok renumbered ∧
        renumbered.length = entries.length := by
  simp only [childEntries, dirEntry, bind_eq_ok, pack_eq_ok] at built ⊢
  obtain ⟨long, longBuilt, short, ⟨field, fits, entry⟩, joined⟩ := built
  obtain rfl := Except.ok.inj joined
  exact ⟨_, ⟨long, longBuilt, _, ⟨field, fits, rfl⟩, rfl⟩, by simp⟩

/-- Trees that differ in their numbers only have equally many entries. -/
theorem nodeEntries_renumber
    {nodes renumbered : Nodes}
    (same : renumbered.erase = nodes.erase)
    {taken : List ShortName}
    {entries : List (List UInt8)}
    (built : nodeEntries nodes taken = .ok entries) :
    ∃ others,
      nodeEntries renumbered taken = .ok others ∧
        others.length = entries.length := by
  induction nodes generalizing renumbered taken entries with
  | nil =>
      cases renumbered with
      | nil => exact ⟨entries, built, rfl⟩
      | file => simp [Nodes.erase] at same
      | dir => simp [Nodes.erase] at same
  | file name content firstClus rest restIH =>
      cases renumbered with
      | nil => simp [Nodes.erase] at same
      | dir => simp [Nodes.erase] at same
      | file name' content' firstClus' rest' =>
          simp only [Nodes.erase, Nodes.file.injEq, true_and] at same
          obtain ⟨rfl, rfl, sameRest⟩ := same
          simp only [nodeEntries, bind_eq_ok] at built ⊢
          obtain ⟨s11, named, own, ownBuilt, later, laterBuilt, joined⟩ :=
            built
          obtain rfl := Except.ok.inj joined
          obtain ⟨own', ownBuilt', ownLength⟩ :=
            childEntries_renumber ownBuilt
              (if content'.length ≠ 0 then firstClus' else 0)
          obtain ⟨later', laterBuilt', laterLength⟩ :=
            restIH sameRest laterBuilt
          exact ⟨own' ++ later',
            ⟨s11, named, own', ownBuilt', later', laterBuilt', rfl⟩,
            by simp [ownLength, laterLength]⟩
  | dir name parentClus firstClus dirN children rest _ restIH =>
      cases renumbered with
      | nil => simp [Nodes.erase] at same
      | file => simp [Nodes.erase] at same
      | dir name' parentClus' firstClus' dirN' children' rest' =>
          simp only [Nodes.erase, Nodes.dir.injEq, true_and] at same
          obtain ⟨rfl, _, sameRest⟩ := same
          simp only [nodeEntries, bind_eq_ok] at built ⊢
          obtain ⟨s11, named, own, ownBuilt, later, laterBuilt, joined⟩ :=
            built
          obtain rfl := Except.ok.inj joined
          obtain ⟨own', ownBuilt', ownLength⟩ :=
            childEntries_renumber ownBuilt firstClus'
          obtain ⟨later', laterBuilt', laterLength⟩ :=
            restIH sameRest laterBuilt
          exact ⟨own' ++ later',
            ⟨s11, named, own', ownBuilt', later', laterBuilt', rfl⟩,
            by simp [ownLength, laterLength]⟩

/-- The dot entries depend on whether there is a parent only. -/
theorem dotEntries_renumber
    {parentClus firstClus : Nat}
    {entries : List (List UInt8)}
    (built : dotEntries parentClus firstClus = .ok entries)
    {otherParent : Nat}
    (sameKind : otherParent ≠ 0 ↔ parentClus ≠ 0)
    (otherFirst : Nat) :
    ∃ renumbered,
      dotEntries otherParent otherFirst = .ok renumbered ∧
        renumbered.length = entries.length := by
  simp only [dotEntries] at built ⊢
  split at built
  case isTrue hasParent =>
    rw [if_pos (sameKind.mpr hasParent)]
    simp only [dirEntry, bind_eq_ok, pack_eq_ok] at built ⊢
    obtain ⟨dot, ⟨field, fits, _⟩, dotDot, ⟨field', fits', _⟩, joined⟩ :=
      built
    obtain rfl := Except.ok.inj joined
    exact ⟨_, ⟨_, ⟨field, fits, rfl⟩, _, ⟨field', fits', rfl⟩, rfl⟩, rfl⟩
  case isFalse noParent =>
    obtain rfl := Except.ok.inj built
    exact ⟨[], if_neg (mt sameKind.mp noParent), rfl⟩

/-- The stream of a directory keeps its length under renumbering. -/
theorem buildDirEntries_renumber
    {nodes renumbered : Nodes}
    (same : renumbered.erase = nodes.erase)
    {parentClus firstClus : Nat}
    {stream : List UInt8}
    (built : buildDirEntries parentClus firstClus nodes = .ok stream)
    {otherParent : Nat}
    (sameKind : otherParent ≠ 0 ↔ parentClus ≠ 0)
    (otherFirst : Nat) :
    ∃ rebuilt,
      buildDirEntries otherParent otherFirst renumbered = .ok rebuilt ∧
        rebuilt.length = stream.length := by
  obtain ⟨dots, own, dotsBuilt, ownBuilt, each, rfl⟩ :=
    buildDirEntries_eq_ok built
  obtain ⟨dots', dotsBuilt', dotsLength⟩ :=
    dotEntries_renumber dotsBuilt sameKind otherFirst
  obtain ⟨own', ownBuilt', ownLength⟩ := nodeEntries_renumber same ownBuilt
  have built' :
      buildDirEntries otherParent otherFirst renumbered =
        .ok ((dots' ++ own').flatten ++ [0]) := by
    rw [buildDirEntries, dotsBuilt', ownBuilt']
    rfl
  obtain ⟨dots'', own'', dotsBuilt'', ownBuilt'', each', joined⟩ :=
    buildDirEntries_eq_ok built'
  rw [dotsBuilt'] at dotsBuilt''
  rw [ownBuilt'] at ownBuilt''
  obtain rfl := Except.ok.inj dotsBuilt''
  obtain rfl := Except.ok.inj ownBuilt''
  refine ⟨_, built', ?_⟩
  simp only [List.length_append, length_flatten_entries each,
    length_flatten_entries each', dotsLength, ownLength]

end Renumbering

/-- What a run of clusters holds: a directory stream or a file. -/
structure Area where
  isDir : Bool
  data : List UInt8

/-- The stream of a directory with the numbers it has. -/
def dirStream
    (parentClus firstClus : Nat)
    (children : Nodes) :
    List UInt8 :=
  (buildDirEntries parentClus firstClus children).toOption.getD []

/-- The runs of clusters of the nodes, in the order of their allocation. -/
def Nodes.extents : Nodes → List (Extent Area)
  | .nil =>
      []
  | .file _ content firstClus rest =>
      if content = [] then
        rest.extents
      else
        ⟨firstClus, clustersFor content.length, false, content⟩ ::
          rest.extents
  | .dir _ parentClus firstClus dirN children rest =>
      ⟨firstClus, dirN, true, dirStream parentClus firstClus children⟩ ::
        (children.extents ++ rest.extents)

/-- The runs of all nodes, the root's first. -/
def Root.extents (root : Root) : List (Extent Area) :=
  ⟨root.firstClus, root.dirN, true,
      dirStream 0 root.firstClus root.children⟩ ::
    root.children.extents

/-- The directory's stream is built, and it takes the budgeted clusters. -/
def DirBudgeted
    (parentClus firstClus dirN : Nat)
    (children : Nodes) :
    Prop :=
  ∃ stream,
    buildDirEntries parentClus firstClus children = .ok stream ∧
      dirN = max 1 (clustersFor stream.length)

/-- Every directory is budgeted, and every empty file is without clusters. -/
def Nodes.Budgeted : Nodes → Prop
  | .nil =>
      True
  | .file _ content firstClus rest =>
      (content = [] → firstClus = 0) ∧ rest.Budgeted
  | .dir _ parentClus firstClus dirN children rest =>
      DirBudgeted parentClus firstClus dirN children ∧
        children.Budgeted ∧ rest.Budgeted

section Layout

theorem layoutNodes_erase
    {parentClus : Nat}
    {nodes laid : Nodes}
    {alloc after : Allocator}
    (result : layoutNodes parentClus nodes alloc = .ok (laid, after)) :
    laid.erase = nodes.erase := by
  induction nodes generalizing parentClus laid alloc after with
  | nil =>
      obtain ⟨rfl, rfl⟩ := Prod.mk.inj (Except.ok.inj result)
      rfl
  | file name content firstClus rest restIH =>
      simp only [layoutNodes, bind_eq_ok] at result
      obtain ⟨⟨rest', alloc'⟩, restLaid, joined⟩ := result
      obtain ⟨rfl, rfl⟩ := Prod.mk.inj (Except.ok.inj joined)
      simp [Nodes.erase, restIH restLaid]
  | dir name oldParent firstClus dirN children rest childrenIH restIH =>
      simp only [layoutNodes, bind_eq_ok] at result
      obtain ⟨entries, _, ⟨children', alloc'⟩, childrenLaid,
        ⟨rest', alloc''⟩, restLaid, joined⟩ := result
      obtain ⟨rfl, rfl⟩ := Prod.mk.inj (Except.ok.inj joined)
      simp [Nodes.erase, childrenIH childrenLaid, restIH restLaid]

/-- The directory tree has the names and the contents of the source. -/
theorem layoutRoot_erase
    {source : Nodes}
    {root : Root}
    {alloc : Allocator}
    (laidOut : layoutRoot source = .ok (root, alloc)) :
    root.children.erase = source.erase := by
  simp only [layoutRoot, bind_eq_ok] at laidOut
  obtain ⟨_, _, ⟨children, alloc'⟩, childrenLaid, joined⟩ := laidOut
  obtain ⟨rfl, rfl⟩ := Prod.mk.inj (Except.ok.inj joined)
  exact layoutNodes_erase childrenLaid

/-- What the allocation of a part of the tree has to keep. -/
structure Allocated
    (alloc after : Allocator)
    (extents : List (Extent Area)) : Prop where
  tiles :
    Tiles alloc.nextClus extents after.nextClus
  fat :
    after.fat = alloc.fat ++ extents.flatMap (Extent.links eoc)
  fresh :
    after.Fresh

namespace Allocated

theorem nil {alloc : Allocator} (fresh : alloc.Fresh) :
    Allocated alloc alloc [] where
  tiles := .nil
  fat := by simp
  fresh := fresh

theorem append
    {alloc middle after : Allocator}
    {extents others : List (Extent Area)}
    (first : Allocated alloc middle extents)
    (later : Allocated middle after others) :
    Allocated alloc after (extents ++ others) where
  tiles := first.tiles.append later.tiles
  fat := by
    rw [later.fat, first.fat, List.flatMap_append, List.append_assoc]
  fresh := later.fresh

/-- A run of a positive size. -/
theorem allocRun
    {alloc : Allocator}
    (fresh : alloc.Fresh)
    {size : Nat}
    (positive : 0 < size)
    (area : Area) :
    (MkFatImg.allocRun size alloc).1 = alloc.nextClus ∧
      Allocated alloc (MkFatImg.allocRun size alloc).2
        [⟨alloc.nextClus, clustersFor size, area⟩] := by
  rw [allocRun_extent fresh positive area]
  refine ⟨rfl, ?_, ?_, ?_⟩
  · exact @Tiles.cons _ ⟨alloc.nextClus, clustersFor size, area⟩
      (clustersFor_bounds positive).1 _ _ .nil
  · simp
  · exact fresh.extend ⟨alloc.nextClus, clustersFor size, area⟩ rfl

end Allocated

/-- A stream takes at least one cluster, and just its clusters are allocated. -/
theorem clustersFor_stream
    {parentClus firstClus : Nat}
    {children : Nodes}
    {stream : List UInt8}
    (built : buildDirEntries parentClus firstClus children = .ok stream) :
    0 < clustersFor stream.length * bytesPerCluster ∧
      clustersFor stream.length = max 1 (clustersFor stream.length) := by
  have odd := length_buildDirEntries built
  have some := (clustersFor_bounds (show 0 < stream.length by omega)).1
  have bytes : 0 < bytesPerCluster := by decide
  exact ⟨Nat.mul_pos some bytes, by omega⟩

/-- The layout of a part of the tree allocates its runs one after the other. -/
theorem layoutNodes_allocated
    {parentClus : Nat}
    {nodes laid : Nodes}
    {alloc after : Allocator}
    (result : layoutNodes parentClus nodes alloc = .ok (laid, after))
    (fresh : alloc.Fresh) :
    Allocated alloc after laid.extents ∧ laid.Budgeted := by
  induction nodes generalizing parentClus laid alloc after with
  | nil =>
      obtain ⟨rfl, rfl⟩ := Prod.mk.inj (Except.ok.inj result)
      exact ⟨.nil fresh, trivial⟩
  | file name content firstClus rest restIH =>
      simp only [layoutNodes, bind_eq_ok] at result
      obtain ⟨⟨rest', alloc'⟩, restLaid, joined⟩ := result
      obtain ⟨rfl, rfl⟩ := Prod.mk.inj (Except.ok.inj joined)
      by_cases empty : content = []
      · subst empty
        have same : allocRun ([] : List UInt8).length alloc = (0, alloc) :=
          rfl
        rw [same] at restLaid ⊢
        obtain ⟨allocated, budgeted⟩ := restIH restLaid fresh
        refine ⟨?_, fun _ => rfl, budgeted⟩
        simpa [Nodes.extents] using allocated
      · have positive := List.length_pos_iff.mpr empty
        obtain ⟨first, allocated⟩ :=
          Allocated.allocRun fresh positive ⟨false, content⟩
        obtain ⟨later, budgeted⟩ := restIH restLaid allocated.fresh
        refine ⟨?_, fun isEmpty => (empty isEmpty).elim, budgeted⟩
        simpa [Nodes.extents, empty, first] using allocated.append later
  | dir name oldParent firstClus dirN children rest childrenIH restIH =>
      simp only [layoutNodes, bind_eq_ok] at result
      obtain ⟨entries, built, ⟨children', alloc'⟩, childrenLaid,
        ⟨rest', alloc''⟩, restLaid, joined⟩ := result
      obtain ⟨rfl, rfl⟩ := Prod.mk.inj (Except.ok.inj joined)
      obtain ⟨positive, atLeastOne⟩ := clustersFor_stream built
      obtain ⟨stream, rebuilt, sameLength⟩ :=
        buildDirEntries_renumber (layoutNodes_erase childrenLaid) built
          Iff.rfl alloc.nextClus
      obtain ⟨first, allocated⟩ :=
        Allocated.allocRun fresh positive
          ⟨true, dirStream parentClus alloc.nextClus children'⟩
      rw [clustersFor_mul] at allocated
      obtain ⟨inChildren, childrenBudgeted⟩ :=
        childrenIH childrenLaid allocated.fresh
      obtain ⟨later, restBudgeted⟩ := restIH restLaid inChildren.fresh
      rw [first] at childrenLaid ⊢
      refine ⟨?_, ⟨stream, rebuilt, ?_⟩, childrenBudgeted, restBudgeted⟩
      · simpa [Nodes.extents] using
          allocated.append (inChildren.append later)
      · rw [sameLength]
        exact atLeastOne

/-- The layout of the whole tree tiles the clusters from the root's on. -/
theorem layoutRoot_allocated
    {source : Nodes}
    {root : Root}
    {alloc : Allocator}
    (laidOut : layoutRoot source = .ok (root, alloc)) :
    root.firstClus = rootClus ∧
      Tiles rootClus root.extents alloc.nextClus ∧
      alloc.fat = root.extents.flatMap (Extent.links eoc) ∧
      DirBudgeted 0 root.firstClus root.dirN root.children ∧
      root.children.Budgeted := by
  simp only [layoutRoot, bind_eq_ok] at laidOut
  obtain ⟨entries, built, ⟨children, alloc'⟩, childrenLaid, joined⟩ :=
    laidOut
  obtain ⟨rfl, rfl⟩ := Prod.mk.inj (Except.ok.inj joined)
  obtain ⟨positive, atLeastOne⟩ := clustersFor_stream built
  have fresh : Allocator.Fresh ⟨rootClus, []⟩ := by
    simp [Allocator.Fresh]
  obtain ⟨first, allocated⟩ :=
    Allocated.allocRun fresh positive
      ⟨true, dirStream 0 rootClus children⟩
  rw [clustersFor_mul] at allocated
  obtain ⟨inChildren, budgeted⟩ :=
    layoutNodes_allocated childrenLaid allocated.fresh
  obtain ⟨stream, rebuilt, sameLength⟩ :=
    buildDirEntries_renumber (layoutNodes_erase childrenLaid) built
      Iff.rfl rootClus
  have whole := allocated.append inChildren
  rw [first] at childrenLaid ⊢
  refine ⟨rfl, whole.tiles, ?_, ⟨stream, rebuilt, ?_⟩, budgeted⟩
  · simpa [Root.extents] using whole.fat
  · rw [sameLength]
    exact atLeastOne

end Layout

section Writing

/-- The directory pass over the runs. -/
def writeDirAreas
    (geometry : Geometry)
    (extents : List (Extent Area))
    (img : List UInt8) :
    List UInt8 :=
  extents.foldl
    (fun img extent =>
      if extent.payload.isDir then
        writeClusters geometry extent.first extent.count
          extent.payload.data img
      else
        img)
    img

theorem writeDirAreas_append
    (geometry : Geometry)
    (earlier later : List (Extent Area))
    (img : List UInt8) :
    writeDirAreas geometry (earlier ++ later) img =
      writeDirAreas geometry later (writeDirAreas geometry earlier img) :=
  List.foldl_append

/-- A budgeted directory is written without drift. -/
theorem writeDirEntries_budgeted
    {parentClus firstClus dirN : Nat}
    {children : Nodes}
    (budgeted : DirBudgeted parentClus firstClus dirN children)
    (geometry : Geometry)
    (name : PyStr)
    (img : List UInt8) :
    writeDirEntries geometry name parentClus firstClus dirN children img =
      .ok (writeClusters geometry firstClus dirN
        (dirStream parentClus firstClus children) img) := by
  obtain ⟨stream, built, count⟩ := budgeted
  have inBudget : clustersFor stream.length = dirN := by
    rw [count]
    exact (clustersFor_stream built).2
  simp [writeDirEntries, dirStream, built, inBudget, bind, Except.bind,
    Except.toOption]

/-- The directory pass over a budgeted tree is the pass over its runs. -/
theorem writeNodesDirEntries_budgeted
    {nodes : Nodes}
    (budgeted : nodes.Budgeted)
    (geometry : Geometry)
    (img : List UInt8) :
    writeNodesDirEntries geometry nodes img =
      .ok (writeDirAreas geometry nodes.extents img) := by
  induction nodes generalizing img with
  | nil =>
      rfl
  | file name content firstClus rest restIH =>
      rw [writeNodesDirEntries, restIH budgeted.2, Nodes.extents]
      split
      · rfl
      · simp [writeDirAreas]
  | dir name parentClus firstClus dirN children rest childrenIH restIH =>
      obtain ⟨own, inChildren, inRest⟩ := budgeted
      simp only [writeNodesDirEntries,
        writeDirEntries_budgeted own geometry name img,
        childrenIH inChildren, restIH inRest, Nodes.extents, bind,
        Except.bind]
      rw [← writeDirAreas_append]
      simp [writeDirAreas]

/-- The directory pass over a tree that has been laid out. -/
theorem writeAllDirEntries_laidOut
    {source : Nodes}
    {root : Root}
    {alloc : Allocator}
    (laidOut : layoutRoot source = .ok (root, alloc))
    (geometry : Geometry)
    (img : List UInt8) :
    writeAllDirEntries geometry root img =
      .ok (writeDirAreas geometry root.extents img) := by
  obtain ⟨_, _, _, own, budgeted⟩ := layoutRoot_allocated laidOut
  simp only [writeAllDirEntries,
    writeDirEntries_budgeted own geometry [] img,
    writeNodesDirEntries_budgeted budgeted, bind, Except.bind]
  simp [writeDirAreas, Root.extents]

end Writing

/-- Lone surrogates cannot be encoded. -/
def Surrogate (character : CodePoint) : Prop :=
  0xD800 ≤ character.val ∧ character.val < 0xE000

instance : DecidablePred Surrogate :=
  fun _ => inferInstanceAs (Decidable (_ ∧ _))

/-- What keeps an entry with this name and size from being packed. -/
def Unpackable (name : PyStr) (size : Nat) (problem : PyError) : Prop :=
  (problem = .unicodeEncodeError ∧ ∃ character ∈ name, Surrogate character) ∨
    (problem = .byteRange ∧ 255 * 13 < name.length) ∨
      (problem = .structError ∧ 256 ^ 4 ≤ size)

/-- Some node of the tree cannot be packed. -/
def Nodes.Unpackable (problem : PyError) : Nodes → Prop
  | .nil =>
      False
  | .file name content _ rest =>
      MkFatImg.Unpackable name content.length problem ∨
        rest.Unpackable problem
  | .dir name _ _ _ children rest =>
      MkFatImg.Unpackable name 0 problem ∨
        children.Unpackable problem ∨ rest.Unpackable problem

section Failures

theorem encodeUtf16_error
    {text : PyStr}
    {problem : PyError}
    (failed : encodeUtf16 text = .error problem) :
    problem = .unicodeEncodeError ∧ ∃ character ∈ text, Surrogate character := by
  induction text with
  | nil =>
      cases failed
  | cons character rest inductionHypothesis =>
      simp only [encodeUtf16, bind_eq_error] at failed
      rcases failed with first | ⟨unit, _, later | ⟨others, _, joined⟩⟩
      · simp only [encodeCodePoint] at first
        split at first
        case isTrue surrogate =>
          exact ⟨(Except.error.inj first).symm, character,
            List.mem_cons_self .., surrogate⟩
        case isFalse =>
          split at first <;> cases first
      · obtain ⟨isEncode, bad, member, surrogate⟩ :=
          inductionHypothesis later
        exact ⟨isEncode, bad, List.mem_cons_of_mem _ member, surrogate⟩
      · cases joined

/-- The characters of an entry are the name's or fill characters. -/
theorem surrogate_of_lfnChars
    {name : PyStr}
    {seq : Nat}
    {character : CodePoint}
    (member : character ∈ lfnChars name seq)
    (surrogate : Surrogate character) :
    character ∈ name := by
  have inName :
      character ∈ (name.drop ((seq - 1) * 13)).take 13 →
        character ∈ name :=
    fun inChunk => List.mem_of_mem_drop (List.mem_of_mem_take inChunk)
  simp only [lfnChars] at member
  split at member
  · simp only [List.mem_append, List.mem_singleton,
      List.mem_replicate] at member
    rcases member with (inChunk | rfl) | ⟨_, rfl⟩
    · exact inName inChunk
    · exact absurd surrogate (by decide)
    · exact absurd surrogate (by decide)
  · exact inName member

theorem lfnEntry_error
    {name : PyStr}
    {cksum : UInt8}
    {total seq : Nat}
    {problem : PyError}
    (failed : lfnEntry name cksum total seq = .error problem) :
    (problem = .unicodeEncodeError ∧
        ∃ character ∈ name, Surrogate character) ∨
      problem = .byteRange ∧ 256 ≤ seq := by
  simp only [lfnEntry, bind_eq_error] at failed
  rcases failed with encode | ⟨raw, _, range | ⟨ord, _, joined⟩⟩
  · obtain ⟨isEncode, bad, member, surrogate⟩ := encodeUtf16_error encode
    exact .inl ⟨isEncode, bad, surrogate_of_lfnChars member surrogate,
      surrogate⟩
  · right
    obtain ⟨isRange, large⟩ := byteOf_error range
    refine ⟨isRange, ?_⟩
    by_contra small
    have fits :
        (if seq = total then 0x40 else 0) ||| seq < 2 ^ 8 := by
      apply Nat.or_lt_two_pow
      · split <;> decide
      · omega
    omega
  · cases joined

theorem lfnEntriesFrom_error
    {name : PyStr}
    {cksum : UInt8}
    {total seq : Nat}
    {problem : PyError}
    (failed : lfnEntriesFrom name cksum total seq = .error problem) :
    (problem = .unicodeEncodeError ∧
        ∃ character ∈ name, Surrogate character) ∨
      problem = .byteRange ∧ 256 ≤ seq := by
  induction seq with
  | zero =>
      cases failed
  | succ seq inductionHypothesis =>
      simp only [lfnEntriesFrom, bind_eq_error] at failed
      rcases failed with first | ⟨entry, _, later | ⟨others, _, joined⟩⟩
      · exact lfnEntry_error first
      · rcases inductionHypothesis later with encode | ⟨range, large⟩
        · exact .inl encode
        · exact .inr ⟨range, by omega⟩
      · cases joined

theorem dirEntry_error
    {short11 : ShortName}
    {attr : UInt8}
    {firstClus size : Nat}
    {problem : PyError}
    (failed : dirEntry short11 attr firstClus size = .error problem) :
    problem = .structError ∧ 256 ^ 4 ≤ size := by
  simp only [dirEntry, bind_eq_error] at failed
  rcases failed with packed | ⟨field, _, joined⟩
  · exact pack_error packed
  · cases joined

theorem childEntries_error
    {name : PyStr}
    {s11 : ShortName}
    {attr : UInt8}
    {first size : Nat}
    {problem : PyError}
    (failed : childEntries name s11 attr first size = .error problem) :
    Unpackable name size problem := by
  simp only [childEntries, bind_eq_error] at failed
  rcases failed with long | ⟨_, _, short | ⟨_, _, joined⟩⟩
  · simp only [longEntries] at long
    split at long
    · rcases lfnEntriesFrom_error long with encode | ⟨range, large⟩
      · exact .inl encode
      · exact .inr (.inl ⟨range, by omega⟩)
    · cases long
  · exact .inr (.inr (dirEntry_error short))
  · cases joined

theorem shortName_error
    {name : PyStr}
    {taken : List ShortName}
    {problem : PyError}
    (failed : shortName name taken = .error problem) :
    problem = .noShortName name := by
  simp only [shortName] at failed
  split at failed
  · cases failed
  · split at failed
    · cases failed
    · exact (Except.error.inj failed).symm

/-- Entries fail for want of a short name, or for a child that cannot be packed. -/
theorem nodeEntries_error
    {nodes : Nodes}
    {taken : List ShortName}
    {problem : PyError}
    (failed : nodeEntries nodes taken = .error problem) :
    (∃ name, problem = .noShortName name) ∨ nodes.Unpackable problem := by
  induction nodes generalizing taken with
  | nil =>
      cases failed
  | file name content firstClus rest restIH =>
      simp only [nodeEntries, bind_eq_error] at failed
      rcases failed with
        named | ⟨_, _, own | ⟨_, _, later | ⟨_, _, joined⟩⟩⟩
      · exact .inl ⟨name, shortName_error named⟩
      · exact .inr (.inl (childEntries_error own))
      · exact (restIH later).imp_right .inr
      · cases joined
  | dir name parentClus firstClus dirN children rest _ restIH =>
      simp only [nodeEntries, bind_eq_error] at failed
      rcases failed with
        named | ⟨_, _, own | ⟨_, _, later | ⟨_, _, joined⟩⟩⟩
      · exact .inl ⟨name, shortName_error named⟩
      · exact .inr (.inl (childEntries_error own))
      · exact (restIH later).imp_right fun bad => .inr (.inr bad)
      · cases joined

theorem buildDirEntries_error
    {parentClus firstClus : Nat}
    {children : Nodes}
    {problem : PyError}
    (failed :
      buildDirEntries parentClus firstClus children = .error problem) :
    (∃ name, problem = .noShortName name) ∨
      children.Unpackable problem := by
  simp only [buildDirEntries, bind_eq_error] at failed
  rcases failed with dots | ⟨_, _, own | ⟨_, _, joined⟩⟩
  · simp only [dotEntries] at dots
    split at dots
    · simp only [bind_eq_error] at dots
      rcases dots with dot | ⟨_, _, dotDot | ⟨_, _, joined⟩⟩
      · exact absurd (dirEntry_error dot).2 (by decide)
      · exact absurd (dirEntry_error dotDot).2 (by decide)
      · cases joined
    · cases dots
  · exact nodeEntries_error own
  · cases joined

theorem layoutNodes_error
    {parentClus : Nat}
    {nodes : Nodes}
    {alloc : Allocator}
    {problem : PyError}
    (failed : layoutNodes parentClus nodes alloc = .error problem) :
    (∃ name, problem = .noShortName name) ∨ nodes.Unpackable problem := by
  induction nodes generalizing parentClus alloc with
  | nil =>
      cases failed
  | file name content firstClus rest restIH =>
      simp only [layoutNodes, bind_eq_error] at failed
      rcases failed with later | ⟨_, _, joined⟩
      · exact (restIH later).imp_right .inr
      · cases joined
  | dir name oldParent firstClus dirN children rest childrenIH restIH =>
      simp only [layoutNodes, bind_eq_error] at failed
      rcases failed with
        own | ⟨_, _, inChildren | ⟨_, _, later | ⟨_, _, joined⟩⟩⟩
      · exact (buildDirEntries_error own).imp_right
          fun bad => .inr (.inl bad)
      · exact (childrenIH inChildren).imp_right fun bad => .inr (.inl bad)
      · exact (restIH later).imp_right fun bad => .inr (.inr bad)
      · cases joined

/-- The layout fails for want of a short name, or for a node that cannot be packed. -/
theorem layoutRoot_error
    {source : Nodes}
    {problem : PyError}
    (failed : layoutRoot source = .error problem) :
    (∃ name, problem = .noShortName name) ∨ source.Unpackable problem := by
  simp only [layoutRoot, bind_eq_error] at failed
  rcases failed with own | ⟨_, _, inChildren | ⟨_, _, joined⟩⟩
  · exact buildDirEntries_error own
  · exact layoutNodes_error inChildren
  · cases joined

end Failures

/-- The clusters that the content of an area asks for. -/
def Area.clusters (area : Area) : Nat :=
  if area.isDir then
    max 1 (clustersFor area.data.length)
  else
    clustersFor area.data.length

/-- A budgeted directory has the clusters its stream asks for. -/
theorem DirBudgeted.clusters
    {parentClus firstClus dirN : Nat}
    {children : Nodes}
    (budgeted : DirBudgeted parentClus firstClus dirN children) :
    dirN =
      Area.clusters ⟨true, dirStream parentClus firstClus children⟩ := by
  obtain ⟨stream, built, count⟩ := budgeted
  simpa [Area.clusters, dirStream, built, Except.toOption] using count

/-- The runs of a budgeted tree have the clusters their contents ask for. -/
theorem Nodes.Budgeted.clusters
    {nodes : Nodes}
    (budgeted : nodes.Budgeted) :
    ∀ extent ∈ nodes.extents, extent.count = extent.payload.clusters := by
  induction nodes with
  | nil =>
      simp [Nodes.extents]
  | file name content firstClus rest restIH =>
      intro extent member
      simp only [Nodes.extents] at member
      split at member
      · exact restIH budgeted.2 extent member
      · rcases List.mem_cons.mp member with rfl | member
        · rfl
        · exact restIH budgeted.2 extent member
  | dir name parentClus firstClus dirN children rest childrenIH restIH =>
      obtain ⟨own, inChildren, inRest⟩ := budgeted
      intro extent member
      simp only [Nodes.extents, List.mem_cons, List.mem_append] at member
      rcases member with rfl | member | member
      · exact own.clusters
      · exact childrenIH inChildren extent member
      · exact restIH inRest extent member

/-- The runs partition the allocated clusters into chains. -/
structure ClusterPartition (root : Root) (alloc : Allocator) : Prop where
  /-- The streams are built, and the directories have their clusters. -/
  rootBudgeted :
    DirBudgeted 0 root.firstClus root.dirN root.children
  budgeted :
    root.children.Budgeted
  counts :
    ∀ extent ∈ root.extents, extent.count = extent.payload.clusters
  rootFirst :
    root.firstClus = rootClus
  disjoint :
    root.extents.Pairwise fun earlier later =>
      List.Disjoint earlier.units later.units
  exactly :
    root.extents.flatMap Extent.units =
      List.range' rootClus (alloc.nextClus - rootClus)
  chains :
    ∀ extent ∈ root.extents,
      Chain (fun cluster => alloc.fat.lookup cluster) eoc
        extent.first extent.units

/--
The layout of a tree whose short names exist has its nodes, partitions the
clusters, and no directory pass over it drifts; or some node cannot be packed
at all.
-/
theorem layout_partitions
    {source : Nodes}
    (named : ∀ name, layoutRoot source ≠ .error (.noShortName name)) :
    (∃ problem,
      layoutRoot source = .error problem ∧ source.Unpackable problem) ∨
    ∃ root alloc,
      layoutRoot source = .ok (root, alloc) ∧
        root.children.erase = source.erase ∧
        ClusterPartition root alloc ∧
        ∀ geometry img, ∃ written,
          writeAllDirEntries geometry root img = .ok written := by
  cases laidOut : layoutRoot source with
  | error problem =>
      left
      refine ⟨problem, rfl, ?_⟩
      rcases layoutRoot_error laidOut with ⟨name, noName⟩ | unpackable
      · exact (named name (noName ▸ laidOut)).elim
      · exact unpackable
  | ok result =>
      right
      obtain ⟨root, alloc⟩ := result
      obtain ⟨rootFirst, tiles, fat, rootBudgeted, budgeted⟩ :=
        layoutRoot_allocated laidOut
      refine ⟨root, alloc, rfl, layoutRoot_erase laidOut, ?_,
        fun geometry img =>
          ⟨_, writeAllDirEntries_laidOut laidOut geometry img⟩⟩
      exact {
        rootBudgeted := rootBudgeted
        budgeted := budgeted
        counts := by
          intro extent member
          rcases List.mem_cons.mp member with rfl | member
          · exact rootBudgeted.clusters
          · exact budgeted.clusters extent member
        rootFirst := rootFirst
        disjoint := by
          refine tiles.pairwise.imp ?_
          intro earlier later apart cluster inEarlier inLater
          have below := (Extent.mem_units.mp inEarlier).2
          have above := (Extent.mem_units.mp inLater).1
          omega
        exactly := tiles.flatMap_units
        chains := by
          rw [fat]
          exact fun extent member => tiles.chain member
      }

/-- A directory with a file of one byte, and an empty file. -/
def sampleTree : Nodes :=
  .dir [0x62, 0x69, 0x6E] 0 0 0 (.file [0x61] [0x2A] 0 .nil)
    (.file [0x62] [] 0 .nil)

/-- The layout of a small tree. -/
theorem layout_partitions_sample :
    ∃ root alloc,
      layoutRoot sampleTree = .ok (root, alloc) ∧
        root.children.erase = sampleTree.erase ∧
        ClusterPartition root alloc ∧
        ∀ geometry img, ∃ written,
          writeAllDirEntries geometry root img = .ok written := by
  have succeeds : (layoutRoot sampleTree).toBool = true := by
    decide +kernel
  have noError :
      ∀ problem, layoutRoot sampleTree ≠ .error problem := by
    intro problem failed
    rw [failed] at succeeds
    cases succeeds
  rcases layout_partitions (fun name => noError (.noShortName name)) with
    ⟨problem, failed, _⟩ | laidOut
  · exact (noError problem failed).elim
  · exact laidOut

end UefiMount.MkFatImg
