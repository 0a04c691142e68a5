import Mathlib.Data.Prod.Lex
import Mathlib.Data.List.Nodup
import Mathlib.Order.Lattice
import UefiMount.FatImage
import UefiMount.StableSorting

namespace UefiMount.MkFatImg

open StableSorting

/-!
# Scanning the host directory

`scan_tree` of `tools/mkfatimg.py`: the recursion over the host directory, and
the sort that is to make the image independent of the order in which
`os.listdir` gives the names.  `str.lower` is a parameter: nothing depends on
which characters it folds.
-/

/-- What the host has under a name. -/
inductive HostNode where
  | file (name : PyStr) (content : List UInt8)
  | directory (name : PyStr) (listing : List HostNode)
  /-- Neither `os.path.isdir` nor `os.path.isfile`. -/
  | other (name : PyStr)

namespace HostNode

/-- The name that `os.listdir` gives. -/
def name : HostNode → PyStr
  | file name _ =>
      name
  | directory name _ =>
      name
  | other name =>
      name

end HostNode

/-- A `Node` as the scan of its directory makes it. -/
inductive ScannedNode where
  | file (name : PyStr) (content : List UInt8)
  | dir (name : PyStr) (children : Nodes)

namespace ScannedNode

/-- `nd.name`. -/
def name : ScannedNode → PyStr
  | file name _ =>
      name
  | dir name _ =>
      name

/-- `nd.is_dir`. -/
def isDir : ScannedNode → Bool
  | file .. =>
      false
  | dir .. =>
      true

/-- The node in front of its later siblings; the layout is still to come. -/
def before : ScannedNode → Nodes → Nodes
  | file name content, rest =>
      .file name content 0 rest
  | dir name children, rest =>
      .dir name 0 0 0 children rest

end ScannedNode

/-- The nodes of a directory, one after the other. -/
def nodesOf (scanned : List ScannedNode) : Nodes :=
  scanned.foldr ScannedNode.before .nil

theorem nodesOf_injective : Function.Injective nodesOf := by
  intro first
  induction first with
  | nil =>
      intro second same
      cases second with
      | nil => rfl
      | cons node rest =>
          cases node <;> simp [nodesOf, ScannedNode.before] at same
  | cons node rest inductionHypothesis =>
      intro second same
      cases second with
      | nil => cases node <;> simp [nodesOf, ScannedNode.before] at same
      | cons node' rest' =>
          have tail : nodesOf rest = nodesOf rest' → rest = rest' :=
            fun same => inductionHypothesis same
          cases node <;> cases node' <;>
            simp only [nodesOf, List.foldr_cons, ScannedNode.before,
              Nodes.file.injEq, Nodes.dir.injEq, reduceCtorEq] at same
          · rw [same.1, same.2.1, tail same.2.2.2]
          · rw [same.1, same.2.2.2.2.1, tail same.2.2.2.2.2]

section Scan

variable (lower : PyStr → PyStr)

/-- The sort key: `(not nd.is_dir, nd.name.lower())`. -/
def sortKey (node : ScannedNode) : Bool ×ₗ PyStr :=
  toLex (!node.isDir, lower node.name)

/-- `nodes.sort`. -/
def sortNodes (scanned : List ScannedNode) : List ScannedNode :=
  sortBy (sortKey lower) scanned

mutual

/-- One round of the loop of `rec`: no node for what is neither kind. -/
def scanNode : HostNode → Option ScannedNode
  | .file name content =>
      some (.file name content)
  | .directory name listing =>
      some (.dir name (nodesOf (sortNodes lower (scanListing listing))))
  | .other _ =>
      none

/-- The loop of `rec` over `os.listdir`. -/
def scanListing : List HostNode → List ScannedNode
  | [] =>
      []
  | node :: rest =>
      (scanNode node).toList ++ scanListing rest

end

/-- `scan_tree`: the children of the root node. -/
def scanTree (listing : List HostNode) : Nodes :=
  nodesOf (sortNodes lower (scanListing lower listing))

end Scan

section Relisting

/-- A directory of the tree, by what it lists. -/
inductive InTree (host : List HostNode) : List HostNode → Prop where
  | root :
      InTree host host
  | inner
      {listing inner : List HostNode}
      {name : PyStr}
      (above : InTree host listing)
      (inside : HostNode.directory name inner ∈ listing) :
      InTree host inner

/-- The same tree, with the directories listed in other orders. -/
inductive Relists : List HostNode → List HostNode → Prop where
  | nil :
      Relists [] []
  | keep
      {rest rest' : List HostNode}
      (node : HostNode)
      (later : Relists rest rest') :
      Relists (node :: rest) (node :: rest')
  | inner
      {listing listing' rest rest' : List HostNode}
      (name : PyStr)
      (relists : Relists listing listing')
      (later : Relists rest rest') :
      Relists (.directory name listing :: rest)
        (.directory name listing' :: rest')
  | swap
      (first second : HostNode)
      (rest : List HostNode) :
      Relists (first :: second :: rest) (second :: first :: rest)
  | trans
      {first second third : List HostNode}
      (left : Relists first second)
      (right : Relists second third) :
      Relists first third

/-- Names are used once in a directory. -/
def NamesOnce (host : List HostNode) : Prop :=
  ∀ listing, InTree host listing → (listing.map HostNode.name).Nodup

/-- Both are files, or both are directories. -/
def HostNode.SameKind : HostNode → HostNode → Prop
  | file .., file .. =>
      True
  | directory .., directory .. =>
      True
  | _, _ =>
      False

/--
No two files of one directory, and no two directories of one directory, have
names that are the same in lower case.
-/
def CaseDistinct (lower : PyStr → PyStr) (host : List HostNode) : Prop :=
  ∀ listing, InTree host listing →
    ∀ first ∈ listing, ∀ second ∈ listing,
      first.SameKind second →
        lower first.name = lower second.name →
        first.name = second.name

theorem InTree.trans
    {host listing inner : List HostNode}
    (above : InTree host listing)
    (below : InTree listing inner) :
    InTree host inner := by
  induction below with
  | root => exact above
  | inner _ inside inductionHypothesis =>
      exact .inner inductionHypothesis inside

/-- Every directory is the whole tree or is below a directory of its top. -/
theorem InTree.top
    {host listing : List HostNode}
    (within : InTree host listing) :
    listing = host ∨
      ∃ name inner,
        HostNode.directory name inner ∈ host ∧ InTree inner listing := by
  induction within with
  | root => exact .inl rfl
  | inner _ here inductionHypothesis =>
      rcases inductionHypothesis with rfl | ⟨name, inner, top, above⟩
      · exact .inr ⟨_, _, here, .root⟩
      · exact .inr ⟨name, inner, top, .inner above here⟩

/-- A directory below some of the nodes is one below all of them. -/
theorem InTree.of_cons
    {rest listing : List HostNode}
    (node : HostNode)
    (within : InTree rest listing) :
    listing = rest ∨ InTree (node :: rest) listing := by
  induction within with
  | root => exact .inl rfl
  | inner _ inside inductionHypothesis =>
      rcases inductionHypothesis with rfl | above
      · exact .inr (.inner .root (List.mem_cons_of_mem _ inside))
      · exact .inr (.inner above inside)

namespace Relists

theorem refl (host : List HostNode) : Relists host host := by
  induction host with
  | nil => exact .nil
  | cons node _ inductionHypothesis => exact .keep node inductionHypothesis

theorem of_perm
    {host host' : List HostNode}
    (permuted : host.Perm host') :
    Relists host host' := by
  induction permuted with
  | nil => exact .nil
  | cons node _ inductionHypothesis => exact .keep node inductionHypothesis
  | swap second first rest => exact .swap first second rest
  | trans _ _ left right => exact .trans left right

/-- One directory is listed in another order. -/
theorem inside
    {listing listing' : List HostNode}
    (relists : Relists listing listing')
    (earlier : List HostNode)
    (name : PyStr)
    (later : List HostNode) :
    Relists (earlier ++ .directory name listing :: later)
      (earlier ++ .directory name listing' :: later) := by
  induction earlier with
  | nil => exact .inner name relists (.refl later)
  | cons node _ inductionHypothesis => exact .keep node inductionHypothesis

end Relists

end Relisting

section Scanned

variable {lower : PyStr → PyStr}

@[simp]
theorem scanListing_nil : scanListing lower [] = [] := by
  rw [scanListing]

@[simp]
theorem scanListing_cons (node : HostNode) (rest : List HostNode) :
    scanListing lower (node :: rest) =
      (scanNode lower node).toList ++ scanListing lower rest := by
  rw [scanListing]

@[simp]
theorem scanNode_directory (name : PyStr) (listing : List HostNode) :
    scanNode lower (.directory name listing) =
      some (.dir name (scanTree lower listing)) := by
  rw [scanNode, scanTree]

theorem mem_scanListing
    {scanned : ScannedNode}
    {host : List HostNode} :
    scanned ∈ scanListing lower host ↔
      ∃ node ∈ host, scanNode lower node = some scanned := by
  induction host with
  | nil => simp
  | cons node rest inductionHypothesis =>
      simp [inductionHypothesis, eq_comm]

/-- A node keeps its name. -/
theorem name_scanNode
    {node : HostNode}
    {scanned : ScannedNode}
    (found : scanNode lower node = some scanned) :
    scanned.name = node.name := by
  cases node with
  | file => rw [scanNode] at found; cases found; rfl
  | directory => rw [scanNode_directory] at found; cases found; rfl
  | other => rw [scanNode] at found; cases found

/-- Siblings of one kind are what ties in the sort. -/
theorem sortKey_eq_iff
    {first second : HostNode}
    {first' second' : ScannedNode}
    (firstFound : scanNode lower first = some first')
    (secondFound : scanNode lower second = some second') :
    sortKey lower first' = sortKey lower second' ↔
      first.SameKind second ∧ lower first.name = lower second.name := by
  have firstName := name_scanNode firstFound
  have secondName := name_scanNode secondFound
  rw [sortKey, sortKey, firstName, secondName]
  cases first <;> cases second <;>
    simp only [scanNode, Option.some.injEq, reduceCtorEq]
      at firstFound secondFound <;>
    subst firstFound secondFound <;>
    simp [ScannedNode.isDir, HostNode.SameKind]

/-- Kind and name of a node do not depend on the order below it. -/
theorem Relists.keys
    {host host' : List HostNode}
    (relists : Relists host host') :
    ((scanListing lower host').map (sortKey lower)).Perm
      ((scanListing lower host).map (sortKey lower)) := by
  induction relists with
  | nil => exact .refl _
  | keep node _ inductionHypothesis =>
      simpa using inductionHypothesis.append_left _
  | inner name _ _ _ inductionHypothesis =>
      simpa [sortKey, ScannedNode.isDir, ScannedNode.name]
        using inductionHypothesis
  | swap first second rest =>
      simp only [scanListing_cons, ← List.append_assoc]
      exact (List.perm_append_comm.append_right _).map _
  | trans _ _ left right => exact right.trans left

end Scanned

section Order

variable {lower : PyStr → PyStr}

/-- No two nodes that the sort of one directory sees tie. -/
def KeysDistinct (lower : PyStr → PyStr) (host : List HostNode) : Prop :=
  ∀ listing, InTree host listing →
    ((scanListing lower listing).map (sortKey lower)).Nodup

namespace KeysDistinct

theorem inside
    {host : List HostNode}
    {name : PyStr}
    {listing : List HostNode}
    (distinct : KeysDistinct lower host)
    (within : HostNode.directory name listing ∈ host) :
    KeysDistinct lower listing :=
  fun _ below => distinct _ ((InTree.inner .root within).trans below)

theorem tail
    {node : HostNode}
    {rest : List HostNode}
    (distinct : KeysDistinct lower (node :: rest)) :
    KeysDistinct lower rest := by
  intro listing within
  rcases within.of_cons node with rfl | within
  · have keys := distinct _ .root
    rw [scanListing_cons, List.map_append] at keys
    exact keys.of_append_right
  · exact distinct _ within

theorem of_inside
    {host : List HostNode}
    (keys : ((scanListing lower host).map (sortKey lower)).Nodup)
    (inside :
      ∀ name listing, HostNode.directory name listing ∈ host →
        KeysDistinct lower listing) :
    KeysDistinct lower host := by
  intro listing within
  rcases within.top with rfl | ⟨name, inner, top, below⟩
  · exact keys
  · exact inside name inner top listing below

end KeysDistinct

/-- With the keys distinct, every listing gives the same nodes to sort. -/
theorem Relists.scanned_perm
    {host host' : List HostNode}
    (relists : Relists host host')
    (distinct : KeysDistinct lower host) :
    KeysDistinct lower host' ∧
      (scanListing lower host').Perm (scanListing lower host) := by
  have keysFor
      {host host' : List HostNode}
      (relists : Relists host host')
      (distinct : KeysDistinct lower host) :
      ((scanListing lower host').map (sortKey lower)).Nodup :=
    relists.keys.nodup_iff.mpr (distinct _ .root)
  induction relists with
  | nil => exact ⟨distinct, .refl _⟩
  | keep node later inductionHypothesis =>
      obtain ⟨distinct', permuted⟩ := inductionHypothesis distinct.tail
      refine ⟨.of_inside (keysFor (.keep node later) distinct) ?_, ?_⟩
      · intro name listing within
        rcases List.mem_cons.mp within with rfl | within
        · exact distinct.inside (List.mem_cons_self ..)
        · exact distinct'.inside within
      · simpa using permuted.append_left _
  | @inner listing listing' rest rest' name relists later innerHypothesis
      laterHypothesis =>
      obtain ⟨innerDistinct, innerPerm⟩ :=
        innerHypothesis (distinct.inside (List.mem_cons_self ..))
      obtain ⟨distinct', permuted⟩ := laterHypothesis distinct.tail
      have sameTree : scanTree lower listing' = scanTree lower listing := by
        have keys := distinct.inside (List.mem_cons_self ..) _ .root
        rw [scanTree, scanTree, sortNodes, sortNodes,
          sortBy_eq_of_perm keys innerPerm]
      refine ⟨.of_inside
        (keysFor (.inner name relists later) distinct) ?_, ?_⟩
      · intro name' within' within
        rcases List.mem_cons.mp within with same | within
        · cases same
          exact innerDistinct
        · exact distinct'.inside within
      · simpa [sameTree] using permuted
  | swap first second rest =>
      refine ⟨.of_inside
        (keysFor (.swap first second rest) distinct) ?_, ?_⟩
      · intro name listing within
        have within' :
            HostNode.directory name listing ∈ first :: second :: rest :=
          (List.Perm.swap second first rest).mem_iff.mpr within
        exact distinct.inside within'
      · simp only [scanListing_cons, ← List.append_assoc]
        exact List.perm_append_comm.append_right _
  | trans _ _ left right =>
      obtain ⟨middle, leftPerm⟩ := left distinct
      obtain ⟨distinct', rightPerm⟩ := right middle
      exact ⟨distinct', rightPerm.trans leftPerm⟩

/-- Distinct names that are not shared in lower case have distinct keys. -/
theorem CaseDistinct.keysDistinct
    {host : List HostNode}
    (once : NamesOnce host)
    (distinct : CaseDistinct lower host) :
    KeysDistinct lower host := by
  intro listing within
  have names := once listing within
  have apart := distinct listing within
  clear once distinct within
  induction listing with
  | nil => simp
  | cons node rest inductionHypothesis =>
      obtain ⟨fresh, namesRest⟩ := List.nodup_cons.mp names
      have later := inductionHypothesis namesRest fun first firstIn second
        secondIn => apart first (List.mem_cons_of_mem _ firstIn) second
          (List.mem_cons_of_mem _ secondIn)
      rw [scanListing_cons, List.map_append]
      cases found : scanNode lower node with
      | none => simpa using later
      | some scanned =>
          refine List.nodup_cons.mpr ⟨?_, later⟩
          intro shared
          obtain ⟨other, otherIn, sameKey⟩ := List.mem_map.mp shared
          obtain ⟨node', inRest, found'⟩ := mem_scanListing.mp otherIn
          obtain ⟨kind, folded⟩ := (sortKey_eq_iff found' found).mp sameKey
          have sameName :=
            apart node' (List.mem_cons_of_mem _ inRest) node
              (List.mem_cons_self ..) kind folded
          exact fresh (List.mem_map.mpr ⟨node', inRest, sameName⟩)

/-- Every listing of the tree is scanned alike. -/
def Invariant (lower : PyStr → PyStr) (host : List HostNode) : Prop :=
  ∀ host', Relists host host' → scanTree lower host' = scanTree lower host

/-- What is invariant as a whole is invariant inside. -/
theorem Invariant.inside
    {host : List HostNode}
    {name : PyStr}
    {listing : List HostNode}
    (invariant : Invariant lower host)
    (names : (host.map HostNode.name).Nodup)
    (within : HostNode.directory name listing ∈ host) :
    Invariant lower listing := by
  intro listing' relists
  obtain ⟨earlier, later, rfl⟩ := List.append_of_mem within
  have sorted :=
    nodesOf_injective (invariant _ (relists.inside earlier name later))
  have here :
      ScannedNode.dir name (scanTree lower listing') ∈
        sortNodes lower (scanListing lower
          (earlier ++ .directory name listing' :: later)) := by
    refine mem_sortBy.mpr (mem_scanListing.mpr
      ⟨.directory name listing', by simp, scanNode_directory ..⟩)
  rw [sorted] at here
  obtain ⟨node, nodeIn, found⟩ := mem_scanListing.mp (mem_sortBy.mp here)
  have sameName : name = node.name := name_scanNode found
  have sameNode : node = .directory name listing :=
    List.inj_on_of_nodup_map names nodeIn within sameName.symm
  rw [sameNode, scanNode_directory] at found
  injection found with found
  injection found with _ found
  exact found.symm

theorem Invariant.everywhere
    {host listing : List HostNode}
    (invariant : Invariant lower host)
    (once : NamesOnce host)
    (within : InTree host listing) :
    Invariant lower listing := by
  induction within with
  | root => exact invariant
  | inner above here inductionHypothesis =>
      exact inductionHypothesis.inside (once _ above) here

/-- Siblings that tie show in which order they were listed. -/
theorem Invariant.untied
    {host : List HostNode}
    (invariant : Invariant lower host)
    {first second : HostNode}
    (firstIn : first ∈ host)
    (secondIn : second ∈ host)
    (kind : first.SameKind second)
    (folded : lower first.name = lower second.name) :
    first.name = second.name := by
  by_contra different
  obtain ⟨earlier, later, rfl⟩ := List.append_of_mem firstIn
  have front :
      (earlier ++ first :: later).Perm (first :: (earlier ++ later)) :=
    List.perm_middle
  have secondIn' : second ∈ earlier ++ later := by
    rcases List.mem_cons.mp (front.mem_iff.mp secondIn) with rfl | there
    · exact absurd rfl different
    · exact there
  obtain ⟨before, after, split⟩ := List.append_of_mem secondIn'
  have both :
      (earlier ++ first :: later).Perm
        (first :: second :: (before ++ after)) := by
    rw [split] at front
    exact front.trans (List.perm_middle.cons first)
  have exchanged := both.trans (.swap second first (before ++ after))
  have same :=
    (invariant _ (.of_perm both)).trans
      (invariant _ (.of_perm exchanged)).symm
  obtain ⟨first', firstFound⟩ :
      ∃ scanned, scanNode lower first = some scanned := by
    cases first with
    | file => exact ⟨_, by rw [scanNode]⟩
    | directory => exact ⟨_, scanNode_directory ..⟩
    | other => exact kind.elim
  obtain ⟨second', secondFound⟩ :
      ∃ scanned, scanNode lower second = some scanned := by
    cases second with
    | file => exact ⟨_, by rw [scanNode]⟩
    | directory => exact ⟨_, scanNode_directory ..⟩
    | other => cases first <;> exact kind.elim
  have sorted := nodesOf_injective same
  simp only [scanListing_cons, firstFound, secondFound,
    Option.toList_some, List.singleton_append] at sorted
  have tie := (sortKey_eq_iff firstFound secondFound).mpr ⟨kind, folded⟩
  have sameNode := eq_of_sortBy_swap sorted tie
  have names := name_scanNode firstFound
  rw [sameNode, name_scanNode secondFound] at names
  exact different names.symm

/--
The scan gives the same tree for every order of the listings exactly when no
two siblings of one kind have names that differ in case only.
-/
theorem scanTree_listing_iff
    {host : List HostNode}
    (once : NamesOnce host) :
    (∀ host', Relists host host' →
      scanTree lower host' = scanTree lower host) ↔
      CaseDistinct lower host := by
  constructor
  · intro invariant listing within first firstIn second secondIn
    have everywhere := Invariant.everywhere invariant once within
    exact everywhere.untied firstIn secondIn
  · intro distinct host' relists
    have keys := distinct.keysDistinct once
    rw [scanTree, scanTree, sortNodes, sortNodes,
      sortBy_eq_of_perm (keys _ .root) (relists.scanned_perm keys).2]

/-- A directory with two files whose names differ in case only. -/
def twoCases : List HostNode :=
  [.directory [0x64] [.file [0x61] [1], .file [0x41] [2]]]

/-- `str.lower` on ASCII text. -/
def asciiLower (text : PyStr) : PyStr :=
  text.map fun char =>
    if 0x41 ≤ char ∧ char ≤ 0x5A then char + 0x20 else char

theorem twoCases_namesOnce : NamesOnce twoCases := by
  intro listing within
  rcases within.top with rfl | ⟨name, inner, top, below⟩
  · decide
  · obtain ⟨rfl, rfl⟩ : name = [0x64] ∧
        inner = [.file [0x61] [1], .file [0x41] [2]] := by
      simpa [twoCases] using top
    rcases below.top with rfl | ⟨_, _, top, _⟩
    · decide
    · simp at top

/-- The order in which those two are listed shows in the image. -/
theorem scanTree_listing_iff_twoCases :
    ∃ host', Relists twoCases host' ∧
      scanTree asciiLower host' ≠ scanTree asciiLower twoCases := by
  by_contra none
  push Not at none
  have distinct :=
    (@scanTree_listing_iff asciiLower twoCases twoCases_namesOnce).mp none
  have same :=
    distinct [.file [0x61] [1], .file [0x41] [2]]
      (.inner .root (by simp [twoCases]; rfl)) (.file [0x61] [1])
      (by simp) (.file [0x41] [2]) (by simp) trivial (by decide)
  exact absurd same (by decide)

end Order

end UefiMount.MkFatImg
