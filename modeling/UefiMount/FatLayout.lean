import UefiMount.BumpAllocation
import UefiMount.FatFormat

namespace UefiMount.MkFatImg

open BumpAllocation

/-!
# Layout of the tree

The first half of `create_image`: the directory entries of every directory,
and the allocation of clusters to directories and files.  The nodes carry the
fields that the layout fills in; `scan_tree` leaves them zero.
-/

/-- The `Node`s of one directory: a file or a directory, and its siblings. -/
inductive Nodes where
  | nil
  | file
      (name : PyStr)
      (content : List UInt8)
      (firstClus : Nat)
      (rest : Nodes)
  | dir
      (name : PyStr)
      (parentClus firstClus dirN : Nat)
      (children rest : Nodes)

/-- The long name entries of a child whose short name does not spell its name. -/
def longEntries
    (name : PyStr)
    (s11 : ShortName) :
    Except PyError (List (List UInt8)) :=
  if name ≠ shortToName s11.bytes then
    lfnEntries name s11
  else
    .ok []

/-- The entries of one child: its long name and its short name. -/
def childEntries
    (name : PyStr)
    (s11 : ShortName)
    (attr : UInt8)
    (first size : Nat) :
    Except PyError (List (List UInt8)) := do
  let long ← longEntries name s11
  let short ← dirEntry s11 attr first size
  return long ++ [short]

/-- The entries of all children of a directory. -/
def nodeEntries : Nodes → List ShortName → Except PyError (List (List UInt8))
  | .nil, _ =>
      .ok []
  | .file name content firstClus rest, taken => do
      let s11 ← shortName name taken
      let own ← childEntries name s11 attrArchive
        (if content.length ≠ 0 then firstClus else 0) content.length
      let later ← nodeEntries rest (s11 :: taken)
      return own ++ later
  | .dir name _ firstClus _ _ rest, taken => do
      let s11 ← shortName name taken
      let own ← childEntries name s11 attrDirectory firstClus 0
      let later ← nodeEntries rest (s11 :: taken)
      return own ++ later

/-- The entries "." and "..", which the root directory does not have. -/
def dotEntries
    (parentClus firstClus : Nat) :
    Except PyError (List (List UInt8)) :=
  if parentClus ≠ 0 then do
    let dot ← dirEntry .dot attrDirectory firstClus 0
    let dotDot ← dirEntry .dotDot attrDirectory
      (if parentClus ≠ rootClus then parentClus else 0) 0
    return [dot, dotDot]
  else
    .ok []

/-- `build_dir_entries`. -/
def buildDirEntries
    (parentClus firstClus : Nat)
    (children : Nodes) :
    Except PyError (List UInt8) := do
  let dots ← dotEntries parentClus firstClus
  let own ← nodeEntries children []
  return (dots ++ own).flatten ++ [0]

/-- How many clusters so many bytes take. -/
def clustersFor (size : Nat) : Nat :=
  (size + bytesPerCluster - 1) / bytesPerCluster

/-- The dictionary `fat` in its insertion order, and `next_clus`. -/
structure Allocator where
  nextClus : Nat
  fat : List (Nat × Nat)

/-- `fat[c] = nxt`. -/
def setFat (fat : List (Nat × Nat)) (c nxt : Nat) : List (Nat × Nat) :=
  if fat.any (·.1 == c) then
    fat.map fun entry => if entry.1 = c then (c, nxt) else entry
  else
    fat ++ [(c, nxt)]

/-- `alloc_run`: the first cluster of the run. -/
def allocRun (size : Nat) (alloc : Allocator) : Nat × Allocator :=
  if size = 0 then
    (0, alloc)
  else
    let n := clustersFor size
    (alloc.nextClus, {
      nextClus := alloc.nextClus + n
      fat :=
        (List.range n).foldl
          (fun fat i =>
            setFat fat (alloc.nextClus + i)
              (if i + 1 < n then alloc.nextClus + i + 1 else eoc))
          alloc.fat
    })

/-- The children loop of `layout_dir`, with the recursion into directories. -/
def layoutNodes
    (parentClus : Nat) :
    Nodes → Allocator → Except PyError (Nodes × Allocator)
  | .nil, alloc =>
      .ok (.nil, alloc)
  | .file name content _ rest, alloc => do
      let (first, alloc) := allocRun content.length alloc
      let (rest, alloc) ← layoutNodes parentClus rest alloc
      return (.file name content first rest, alloc)
  | .dir name _ firstClus _ children rest, alloc => do
      let entries ← buildDirEntries parentClus firstClus children
      let dirN := clustersFor entries.length
      let (first, alloc) := allocRun (dirN * bytesPerCluster) alloc
      let (children, alloc) ← layoutNodes first children alloc
      let (rest, alloc) ← layoutNodes parentClus rest alloc
      return (.dir name parentClus first dirN children rest, alloc)

/-- The root node; it has no parent and no name of its own. -/
structure Root where
  firstClus : Nat
  dirN : Nat
  children : Nodes

/-- The layout of the whole tree. -/
def layoutRoot (source : Nodes) : Except PyError (Root × Allocator) := do
  let entries ← buildDirEntries 0 0 source
  let dirN := clustersFor entries.length
  let (first, alloc) :=
    allocRun (dirN * bytesPerCluster) ⟨rootClus, []⟩
  let (children, alloc) ← layoutNodes first source alloc
  return (⟨first, dirN, children⟩, alloc)

section Lengths

theorem length_longEntries
    {name : PyStr}
    {s11 : ShortName}
    {entries : List (List UInt8)}
    (built : longEntries name s11 = .ok entries) :
    ∀ entry ∈ entries, entry.length = 32 := by
  simp only [longEntries] at built
  split at built
  · exact length_lfnEntriesFrom built
  · obtain rfl := Except.ok.inj built
    simp

theorem length_childEntries
    {name : PyStr}
    {s11 : ShortName}
    {attr : UInt8}
    {first size : Nat}
    {entries : List (List UInt8)}
    (built : childEntries name s11 attr first size = .ok entries) :
    ∀ entry ∈ entries, entry.length = 32 := by
  simp only [childEntries, bind_eq_ok] at built
  obtain ⟨long, longBuilt, short, shortBuilt, joined⟩ := built
  obtain rfl := Except.ok.inj joined
  intro entry member
  rcases List.mem_append.mp member with inLong | isShort
  · exact length_longEntries longBuilt entry inLong
  · obtain rfl := List.mem_singleton.mp isShort
    exact length_dirEntry shortBuilt

theorem length_nodeEntries
    {nodes : Nodes}
    {taken : List ShortName}
    {entries : List (List UInt8)}
    (built : nodeEntries nodes taken = .ok entries) :
    ∀ entry ∈ entries, entry.length = 32 := by
  induction nodes generalizing taken entries with
  | nil =>
      obtain rfl := Except.ok.inj built
      simp
  | file name content firstClus rest restIH =>
      simp only [nodeEntries, bind_eq_ok] at built
      obtain ⟨s11, _, own, ownBuilt, later, laterBuilt, joined⟩ := built
      obtain rfl := Except.ok.inj joined
      intro entry member
      rcases List.mem_append.mp member with inOwn | inLater
      · exact length_childEntries ownBuilt entry inOwn
      · exact restIH laterBuilt entry inLater
  | dir name parentClus firstClus dirN children rest _ restIH =>
      simp only [nodeEntries, bind_eq_ok] at built
      obtain ⟨s11, _, own, ownBuilt, later, laterBuilt, joined⟩ := built
      obtain rfl := Except.ok.inj joined
      intro entry member
      rcases List.mem_append.mp member with inOwn | inLater
      · exact length_childEntries ownBuilt entry inOwn
      · exact restIH laterBuilt entry inLater

theorem length_dotEntries
    {parentClus firstClus : Nat}
    {entries : List (List UInt8)}
    (built : dotEntries parentClus firstClus = .ok entries) :
    ∀ entry ∈ entries, entry.length = 32 := by
  simp only [dotEntries] at built
  split at built
  · simp only [bind_eq_ok] at built
    obtain ⟨dot, dotBuilt, dotDot, dotDotBuilt, joined⟩ := built
    obtain rfl := Except.ok.inj joined
    simp [length_dirEntry dotBuilt, length_dirEntry dotDotBuilt]
  · obtain rfl := Except.ok.inj built
    simp

theorem length_dotEntries_le
    {parentClus firstClus : Nat}
    {dots : List (List UInt8)}
    (built : dotEntries parentClus firstClus = .ok dots) :
    dots.length ≤ 2 := by
  simp only [dotEntries] at built
  split at built
  · simp only [bind_eq_ok] at built
    obtain ⟨_, _, _, _, joined⟩ := built
    obtain rfl := Except.ok.inj joined
    exact Nat.le_refl _
  · obtain rfl := Except.ok.inj built
    exact Nat.zero_le _

/-- Entries of 32 bytes each. -/
theorem length_flatten_entries
    {entries : List (List UInt8)}
    (each : ∀ entry ∈ entries, entry.length = 32) :
    entries.flatten.length = 32 * entries.length := by
  induction entries with
  | nil =>
      rfl
  | cons entry rest inductionHypothesis =>
      have first := each entry (List.mem_cons_self ..)
      have others :=
        inductionHypothesis fun other member =>
          each other (List.mem_cons_of_mem _ member)
      simp only [List.flatten_cons, List.length_append, List.length_cons,
        first, others]
      omega

/-- A directory stream: entries of 32 bytes each and the end mark. -/
theorem buildDirEntries_eq_ok
    {parentClus firstClus : Nat}
    {children : Nodes}
    {stream : List UInt8}
    (built : buildDirEntries parentClus firstClus children = .ok stream) :
    ∃ dots own,
      dotEntries parentClus firstClus = .ok dots ∧
        nodeEntries children [] = .ok own ∧
        (∀ entry ∈ dots ++ own, entry.length = 32) ∧
        stream = (dots ++ own).flatten ++ [0] := by
  simp only [buildDirEntries, bind_eq_ok] at built
  obtain ⟨dots, dotsBuilt, own, ownBuilt, joined⟩ := built
  obtain rfl := Except.ok.inj joined
  refine ⟨dots, own, dotsBuilt, ownBuilt, ?_, rfl⟩
  intro entry member
  rcases List.mem_append.mp member with inDots | inOwn
  · exact length_dotEntries dotsBuilt entry inDots
  · exact length_nodeEntries ownBuilt entry inOwn

/-- The length of a directory stream is one more than a multiple of 32. -/
theorem length_buildDirEntries
    {parentClus firstClus : Nat}
    {children : Nodes}
    {stream : List UInt8}
    (built : buildDirEntries parentClus firstClus children = .ok stream) :
    stream.length % 32 = 1 := by
  obtain ⟨dots, own, _, _, each, rfl⟩ := buildDirEntries_eq_ok built
  rw [List.length_append, length_flatten_entries each, List.length_singleton]
  omega

end Lengths

section Clusters

/-- So many clusters hold the bytes, and one less does not. -/
theorem clustersFor_bounds {size : Nat} (positive : 0 < size) :
    0 < clustersFor size ∧
      size ≤ clustersFor size * bytesPerCluster ∧
      (clustersFor size - 1) * bytesPerCluster < size := by
  simp only [clustersFor, bytesPerCluster, sector, secPerClus]
  omega

@[simp] theorem clustersFor_zero : clustersFor 0 = 0 := by
  decide

/-- Whole clusters take just as many clusters. -/
theorem clustersFor_mul (n : Nat) :
    clustersFor (n * bytesPerCluster) = n := by
  simp only [clustersFor, bytesPerCluster, sector, secPerClus]
  omega

/-- No key of the dictionary has been reached yet. -/
def Allocator.Fresh (alloc : Allocator) : Prop :=
  ∀ entry ∈ alloc.fat, entry.1 < alloc.nextClus

/-- Assigning to keys that are not in use appends the entries. -/
theorem foldl_setFat
    {fat : List (Nat × Nat)}
    {start : Nat}
    (fresh : ∀ entry ∈ fat, entry.1 < start)
    (next : Nat → Nat)
    (n : Nat) :
    (List.range n).foldl
        (fun fat i => setFat fat (start + i) (next i)) fat =
      fat ++ (List.range n).map fun i => (start + i, next i) := by
  induction n with
  | zero =>
      simp
  | succ n inductionHypothesis =>
      rw [List.range_succ, List.foldl_append, inductionHypothesis]
      have unused :
          (fat ++ (List.range n).map fun i => (start + i, next i)).any
              (·.1 == start + n) = false := by
        rw [List.any_eq_false]
        intro entry member
        simp only [beq_iff_eq]
        rcases List.mem_append.mp member with old | new
        · have below := fresh entry old
          omega
        · obtain ⟨i, inRange, rfl⟩ := List.mem_map.mp new
          have below := List.mem_range.mp inRange
          dsimp only
          omega
      simp [setFat, unused]

/-- A run of a positive size is a new extent behind all earlier ones. -/
theorem allocRun_extent
    {alloc : Allocator}
    (fresh : alloc.Fresh)
    {size : Nat}
    (positive : 0 < size)
    (payload : π) :
    allocRun size alloc =
      (alloc.nextClus, {
        nextClus := alloc.nextClus + clustersFor size
        fat :=
          alloc.fat ++
            (Extent.mk alloc.nextClus (clustersFor size) payload).links eoc
      }) := by
  rw [allocRun, if_neg (Nat.pos_iff_ne_zero.mp positive)]
  simp only [foldl_setFat fresh]
  rfl

theorem Allocator.Fresh.extend
    {alloc : Allocator}
    (fresh : alloc.Fresh)
    (extent : Extent π)
    (first : extent.first = alloc.nextClus) :
    Allocator.Fresh
      ⟨extent.behind, alloc.fat ++ extent.links eoc⟩ := by
  intro entry member
  rcases List.mem_append.mp member with old | new
  · have below := fresh entry old
    simp only [Extent.behind]
    omega
  · have unit : entry.1 ∈ (extent.links eoc).map Prod.fst :=
      List.mem_map_of_mem new
    rw [Extent.links_map_fst] at unit
    exact (Extent.mem_units.mp unit).2

end Clusters

end UefiMount.MkFatImg
