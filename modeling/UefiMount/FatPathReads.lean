import UefiMount.FatRecovery

namespace UefiMount.MkFatImg

open BumpAllocation ByteBuffer

/-!
# Reading paths from a volume

What an image is made for: a guest resolves paths in it.  The reader here
goes by the volume alone and takes names as they are spelled.  It looks each
name up in the directory it has come to, goes on at the first cluster of the
entry, "." and ".." included, and reads the bytes of a file along its chain.
On a created image every path leads to what it leads to in the source tree.
-/

section Meaning

/-- What a path leads to. -/
inductive Target where
  | file (content : List UInt8)
  /-- The names of the children, and which of them are directories. -/
  | dir (children : List (PyStr × Bool))
  deriving DecidableEq

/-- A child of a directory. -/
inductive Child where
  | file (content : List UInt8)
  | dir (children : Nodes)

/-- The child of this name. -/
def Nodes.child (name : PyStr) : Nodes → Option Child
  | .nil =>
      none
  | .file other content _ rest =>
      if other = name then some (.file content) else rest.child name
  | .dir other _ _ _ children rest =>
      if other = name then some (.dir children) else rest.child name

/-- The names and kinds of the children. -/
def Nodes.kinds : Nodes → List (PyStr × Bool)
  | .nil =>
      []
  | .file name _ _ rest =>
      (name, false) :: rest.kinds
  | .dir name _ _ _ _ rest =>
      (name, true) :: rest.kinds

/--
What a path leads to from a directory on; the directories above it come
nearest first.  The root has neither "." nor "..".
-/
def resolve : List Nodes → Nodes → List PyStr → Option Target
  | _, here, [] =>
      some (.dir here.kinds)
  | above, here, name :: rest =>
      if name = [fullStop] then
        if above.isEmpty then none else resolve above here rest
      else if name = [fullStop, fullStop] then
        match above with
        | [] =>
            none
        | parent :: further =>
            resolve further parent rest
      else
        match here.child name with
        | none =>
            none
        | some (.file content) =>
            if rest.isEmpty then some (.file content) else none
        | some (.dir children) =>
            resolve (here :: above) children rest

end Meaning

section Reader

/-- The first bytes of a chain; a chain that ends before is cut off. -/
def Bpb.readBytes
    (g : Bpb)
    (img : List UInt8) :
    Nat → Nat → Nat → Except InspectError (List UInt8)
  | 0, _, _ =>
      .error .outOfFuel
  | fuel + 1, clus, size =>
      if size ≤ g.bpc then
        .ok ((g.readClus img clus).take size)
      else do
        let next ← raising (g.nextClus img clus)
        if endMarks ≤ next then
          return g.readClus img clus
        else
          let later ← g.readBytes img fuel next (size - g.bpc)
          return g.readClus img clus ++ later

/-- The entries of the directory at a cluster. -/
def Bpb.readEntries
    (g : Bpb)
    (img : List UInt8)
    (fuel clus : Nat) :
    Except InspectError (List DirEntry) := do
  let (entries, _) ← readChain g img [clus] fuel clus []
  return entries

/-- What a path leads to, from the directory at a cluster on. -/
def Bpb.readPath
    (g : Bpb)
    (img : List UInt8)
    (fuel : Nat) :
    Nat → List PyStr → Except InspectError (Option Target)
  | clus, [] => do
      let entries ← g.readEntries img fuel clus
      return some (.dir ((childrenOf entries).map fun entry =>
        (entry.name, entry.isDir)))
  | clus, name :: rest => do
      let entries ← g.readEntries img fuel clus
      match entries.find? fun entry => entry.name = name with
      | none =>
          return none
      | some entry =>
          if entry.isDir then
            -- The number 0 in a ".." entry stands for the root.
            g.readPath img fuel
              (if entry.first = 0 then g.root else entry.first) rest
          else if rest.isEmpty then
            let content ← g.readBytes img fuel entry.first entry.size
            return some (.file content)
          else
            return none

/-- What a path leads to on a volume, from the image's bytes alone. -/
def readVolume
    (fuel : Nat)
    (img : List UInt8)
    (path : List PyStr) :
    Except InspectError (Option Target) := do
  let start ← raising (partitionStart img)
  let g ← raising (readBpb img (start * sector))
  g.readPath img fuel g.root path

end Reader

section Source

/-- Without the numbers of the layout. -/
def Child.erase : Child → Child
  | .file content =>
      .file content
  | .dir children =>
      .dir children.erase

theorem Nodes.child_erase (nodes : Nodes) (name : PyStr) :
    nodes.erase.child name = (nodes.child name).map Child.erase := by
  induction nodes with
  | nil =>
      rfl
  | file other content firstClus rest restIH =>
      simp only [erase, child, restIH]
      split <;> rfl
  | dir other parentClus firstClus dirN children rest _ restIH =>
      simp only [erase, child, restIH]
      split <;> rfl

theorem Nodes.kinds_erase (nodes : Nodes) :
    nodes.erase.kinds = nodes.kinds := by
  induction nodes with
  | nil =>
      rfl
  | file other content firstClus rest restIH =>
      simp only [erase, kinds, restIH]
  | dir other parentClus firstClus dirN children rest _ restIH =>
      simp only [erase, kinds, restIH]

/-- What paths lead to does not depend on the numbers of the layout. -/
theorem resolve_erase
    (above : List Nodes)
    (here : Nodes)
    (path : List PyStr) :
    resolve (above.map Nodes.erase) here.erase path =
      resolve above here path := by
  induction path generalizing above here with
  | nil =>
      simp only [resolve, Nodes.kinds_erase]
  | cons name rest inductionHypothesis =>
      simp only [resolve, List.isEmpty_map, inductionHypothesis,
        Nodes.child_erase]
      cases above with
      | nil =>
          cases here.child name with
          | none =>
              rfl
          | some child =>
              cases child with
              | file content =>
                  rfl
              | dir children =>
                  simp only [Option.map_some, Child.erase,
                    ← inductionHypothesis [here]]
                  rfl
      | cons parent further =>
          simp only [List.map_cons, inductionHypothesis]
          cases here.child name with
          | none =>
              rfl
          | some child =>
              cases child with
              | file content =>
                  rfl
              | dir children =>
                  simp only [Option.map_some, Child.erase,
                    ← inductionHypothesis (here :: parent :: further)]
                  rfl

end Source

section Directories

variable {g : Bpb} {img : List UInt8} {fuel : Nat}

/-- The number in a ".." entry. -/
def upNumber (parentClus : Nat) : Nat :=
  if parentClus ≠ rootClus then parentClus else 0

/-- The dot entries as the reading side lists them. -/
def listedDots (parentClus firstClus : Nat) : List DirEntry :=
  if parentClus ≠ 0 then
    [⟨[fullStop], ShortName.dot.bytes, true, firstClus, 0⟩,
      ⟨[fullStop, fullStop], ShortName.dotDot.bytes, true,
        upNumber parentClus, 0⟩]
  else
    []

/-- The dot entries are read back with the numbers they hold. -/
theorem scanEntries_listedDots
    {parentClus firstClus : Nat}
    (parentFits : parentClus < 256 ^ 4)
    (firstFits : firstClus < 256 ^ 4)
    {entries : List (List UInt8)}
    (built : dotEntries parentClus firstClus = .ok entries) :
    scanEntries entries [] =
      .ok (listedDots parentClus firstClus, [], false) := by
  rw [dotEntries] at built
  split at built
  case isTrue hasParent =>
    simp only [bind_eq_ok] at built
    obtain ⟨dot, dotBuilt, dotDot, dotDotBuilt, joined⟩ := built
    obtain rfl := Except.ok.inj joined
    have upFits : upNumber parentClus < 256 ^ 4 := by
      rw [upNumber]
      split
      · exact parentFits
      · decide
    have first := scanEntries_short (.inl rfl)
      (asciiByte_of_all (by decide)) dotBuilt (lfnDecode_nil _)
    have second := scanEntries_short (.inl rfl)
      (asciiByte_of_all (by decide)) dotDotBuilt (lfnDecode_nil _)
    have dotName : shortToName ShortName.dot.bytes = [fullStop] := by
      decide
    have dotDotName :
        shortToName ShortName.dotDot.bytes = [fullStop, fullStop] := by
      decide
    rw [joinedHalves_of_lt firstFits, dotName] at first
    rw [← upNumber, joinedHalves_of_lt upFits, dotDotName] at second
    rw [listedDots, if_pos hasParent]
    exact scanEntries_append first second
  case isFalse noParent =>
    obtain rfl := Except.ok.inj built
    rw [listedDots, if_neg noParent]
    rfl

theorem childrenOf_listedDots (parentClus firstClus : Nat) :
    childrenOf (listedDots parentClus firstClus) = [] := by
  rw [listedDots]
  split
  · simp [childrenOf]
  · rfl

/-- A directory of the layout is read as its dot entries and its children. -/
theorem readEntries_budgeted
    {parentClus firstClus dirN : Nat}
    {children : Nodes}
    (budgeted : DirBudgeted parentClus firstClus dirN children)
    (namesOk : children.NamesOk)
    (numbered : children.Numbered)
    (parentFits : parentClus < 256 ^ 4)
    (firstFits : firstClus < 256 ^ 4)
    (readable :
      Readable g img
        ⟨firstClus, dirN, true, dirStream parentClus firstClus children⟩)
    (reachable :
      EntriesReachable
        ⟨firstClus, dirN, true, dirStream parentClus firstClus children⟩)
    (bpc : g.bpc = bytesPerCluster)
    (enough : dirN ≤ fuel) :
    g.readEntries img fuel firstClus =
      .ok (listedDots parentClus firstClus ++ children.listed []) := by
  obtain ⟨dots, own, dotsBuilt, ownBuilt, holds⟩ := budgeted.holds
  have scanned := scanEntries_append
    (scanEntries_listedDots parentFits firstFits dotsBuilt)
    (scanEntries_nodeEntries namesOk numbered ownBuilt)
  have found := @readChain_run g img
    ⟨firstClus, dirN, true, dirStream parentClus firstClus children⟩
    _ holds readable bpc [firstClus]
    (fun c member => Nat.le_of_eq (List.mem_singleton.mp member))
    fuel enough [] _ scanned
    (by
      intro place behind within
      refine reachable rfl place behind ?_
      rw [holds.length]
      simp only [bytesPerCluster, sector, secPerClus, perCluster] at *
      omega)
  dsimp only at found
  rw [Bpb.readEntries, found]
  rfl

/-- The children of the listing. -/
theorem Nodes.map_listed
    {nodes : Nodes}
    {taken : List ShortName}
    {entries : List (List UInt8)}
    (built : nodeEntries nodes taken = .ok entries) :
    (nodes.listed taken).map (fun entry => (entry.name, entry.isDir)) =
      nodes.kinds := by
  induction nodes generalizing taken entries with
  | nil =>
      rfl
  | file other content firstClus rest restIH =>
      simp only [nodeEntries, bind_eq_ok] at built
      obtain ⟨s11, named, _, _, later, laterBuilt, _⟩ := built
      simp only [listed, named, List.map_cons, kinds, restIH laterBuilt]
  | dir other parentClus firstClus dirN children rest _ restIH =>
      simp only [nodeEntries, bind_eq_ok] at built
      obtain ⟨s11, named, _, _, later, laterBuilt, _⟩ := built
      simp only [listed, named, List.map_cons, kinds, restIH laterBuilt]

end Directories

section Files

variable {g : Bpb} {img : List UInt8} {extent : Extent Area}

/-- What is left of a file from a cluster of its run on is read. -/
theorem readBytes_from
    (readable : Readable g img extent)
    (bpc : g.bpc = bytesPerCluster)
    (count : extent.count = clustersFor extent.payload.data.length)
    (within : extent.behind ≤ endMarks)
    {place left : Nat}
    (rest : place + left + 1 = extent.count)
    {fuel : Nat}
    (enough : left + 1 ≤ fuel) :
    g.readBytes img fuel (extent.first + place)
        (extent.payload.data.length - place * bytesPerCluster) =
      .ok (extent.payload.data.drop (place * bytesPerCluster)) := by
  have content := readable.content place (by omega)
  obtain ⟨_, fits, reached⟩ := clustersFor_bounds
    (show 0 < extent.payload.data.length by
      refine Nat.pos_of_ne_zero fun empty => ?_
      rw [empty, clustersFor_zero] at count
      omega)
  rw [← count] at fits reached
  induction left generalizing place fuel with
  | zero =>
      obtain ⟨fuel, rfl⟩ : ∃ less, fuel = less + 1 := ⟨fuel - 1, by omega⟩
      have last : extent.count - 1 = place := by omega
      rw [last] at reached
      have total : extent.count * bytesPerCluster =
          place * bytesPerCluster + bytesPerCluster := by
        rw [← rest, Nat.add_zero, Nat.add_mul, Nat.one_mul]
      rw [Bpb.readBytes, if_pos (by omega), content, slice,
        List.drop_append_of_le_length (by omega), List.take_take,
        List.take_append_of_le_length (by rw [List.length_drop]; omega),
        List.take_of_length_le (by rw [List.length_drop]; omega)]
  | succ left inductionHypothesis =>
      obtain ⟨fuel, rfl⟩ : ∃ less, fuel = less + 1 := ⟨fuel - 1, by omega⟩
      have more : (place + 1) * bytesPerCluster ≤
          (extent.count - 1) * bytesPerCluster :=
        Nat.mul_le_mul_right _ (by omega)
      have further : (place + 1) * bytesPerCluster =
          place * bytesPerCluster + bytesPerCluster := by
        rw [Nat.add_mul, Nat.one_mul]
      have next : extent.link eoc place = extent.first + (place + 1) :=
        if_pos (by omega)
      have small : ¬ endMarks ≤ extent.first + (place + 1) := by
        simp only [Extent.behind] at within
        omega
      have later := inductionHypothesis (by omega)
        (show left + 1 ≤ fuel by omega)
        (readable.content (place + 1) (by omega))
      rw [further, ← Nat.sub_sub] at later
      have own : g.readClus img (extent.first + place) =
          (extent.payload.data.drop (place * bytesPerCluster)).take
            bytesPerCluster := by
        rw [content, slice, List.drop_append_of_le_length (by omega),
          List.take_append_of_le_length (by rw [List.length_drop]; omega)]
      rw [Bpb.readBytes, if_neg (by omega)]
      simp only [readable.next place (by omega), next, raising, bind,
        Except.bind, small, ↓reduceIte, bpc, later, own]
      change Except.ok _ = _
      rw [← List.drop_drop, List.take_append_drop]

/-- The content of a file is read along its run. -/
theorem readBytes_run
    (readable : Readable g img extent)
    (bpc : g.bpc = bytesPerCluster)
    (occupied : 0 < extent.count)
    (count : extent.count = clustersFor extent.payload.data.length)
    (within : extent.behind ≤ endMarks)
    {fuel : Nat}
    (enough : extent.count ≤ fuel) :
    g.readBytes img fuel extent.first extent.payload.data.length =
      .ok extent.payload.data := by
  have read := @readBytes_from g img extent readable bpc count within 0
    (extent.count - 1) (by omega) fuel (by omega)
  rwa [Nat.zero_mul, Nat.sub_zero, Nat.add_zero, List.drop_zero] at read

/-- An empty file is read without its volume. -/
theorem readBytes_empty
    {fuel : Nat}
    (enough : 0 < fuel)
    (clus : Nat) :
    g.readBytes img fuel clus 0 = .ok [] := by
  obtain ⟨fuel, rfl⟩ : ∃ less, fuel = less + 1 := ⟨fuel - 1, by omega⟩
  rw [Bpb.readBytes, if_pos (Nat.zero_le _), List.take_zero]

end Files

section Volumes

/-- A directory of the tree lies at a cluster of the volume. -/
structure Directory
    (g : Bpb)
    (img : List UInt8)
    (fuel parentClus firstClus : Nat)
    (children : Nodes) : Prop where
  built :
    ∃ entries, nodeEntries children [] = .ok entries
  namesOk :
    children.NamesOk
  data :
    rootClus ≤ firstClus
  read :
    g.readEntries img fuel firstClus =
      .ok (listedDots parentClus firstClus ++ children.listed [])

/-- The volume holds everything below the directory at a cluster. -/
def Nodes.Held
    (g : Bpb)
    (img : List UInt8)
    (fuel : Nat) :
    Nat → Nodes → Prop
  | _, .nil =>
      True
  | here, .file _ content firstClus rest =>
      g.readBytes img fuel (if content.length ≠ 0 then firstClus else 0)
          content.length = .ok content ∧
        rest.Held g img fuel here
  | here, .dir _ _ firstClus _ children rest =>
      Directory g img fuel here firstClus children ∧
        children.Held g img fuel firstClus ∧ rest.Held g img fuel here

variable {g : Bpb} {img : List UInt8} {fuel : Nat}

/-- The entry that is found for a name leads to the child of that name. -/
inductive Leads
    (g : Bpb)
    (img : List UInt8)
    (fuel here : Nat) :
    Option DirEntry → Option Child → Prop where
  | absent :
      Leads g img fuel here none none
  | file
      {entry : DirEntry}
      {content : List UInt8}
      (isFile : entry.isDir = false)
      (read : g.readBytes img fuel entry.first entry.size = .ok content) :
      Leads g img fuel here (some entry) (some (.file content))
  | dir
      {entry : DirEntry}
      {children : Nodes}
      (isDir : entry.isDir = true)
      (directory : Directory g img fuel here entry.first children)
      (held : children.Held g img fuel entry.first) :
      Leads g img fuel here (some entry) (some (.dir children))

theorem Nodes.Held.leads
    {nodes : Nodes}
    {here : Nat}
    (held : nodes.Held g img fuel here)
    {taken : List ShortName}
    {entries : List (List UInt8)}
    (built : nodeEntries nodes taken = .ok entries)
    (name : PyStr) :
    Leads g img fuel here
      ((nodes.listed taken).find? fun entry => entry.name = name)
      (nodes.child name) := by
  induction nodes generalizing taken entries with
  | nil =>
      exact .absent
  | file other content firstClus rest restIH =>
      simp only [nodeEntries, bind_eq_ok] at built
      obtain ⟨s11, named, _, _, later, laterBuilt, _⟩ := built
      simp only [listed, named, child, List.find?_cons]
      by_cases same : other = name
      · simp only [same, decide_true, ↓reduceIte]
        exact .file rfl held.1
      · simp only [same, decide_false, ↓reduceIte]
        exact restIH held.2 laterBuilt
  | dir other parentClus firstClus dirN children rest _ restIH =>
      simp only [nodeEntries, bind_eq_ok] at built
      obtain ⟨s11, named, _, _, later, laterBuilt, _⟩ := built
      simp only [listed, named, child, List.find?_cons]
      by_cases same : other = name
      · simp only [same, decide_true, ↓reduceIte]
        exact .dir rfl held.1 held.2.1
      · simp only [same, decide_false, ↓reduceIte]
        exact restIH held.2.2 laterBuilt

/-- Where a path has come to: the directories above, and their clusters. -/
inductive Located
    (g : Bpb)
    (img : List UInt8)
    (fuel : Nat) :
    List Nodes → Nat → Nat → Nodes → Prop where
  | root
      {here : Nodes}
      (directory : Directory g img fuel 0 rootClus here)
      (held : here.Held g img fuel rootClus) :
      Located g img fuel [] 0 rootClus here
  | child
      {above : List Nodes}
      {up clus first : Nat}
      {parent here : Nodes}
      (located : Located g img fuel above up clus parent)
      (directory : Directory g img fuel clus first here)
      (held : here.Held g img fuel first) :
      Located g img fuel (parent :: above) clus first here

namespace Located

variable {above : List Nodes} {up clus : Nat} {here : Nodes}

theorem directory
    (located : Located g img fuel above up clus here) :
    Directory g img fuel up clus here := by
  cases located with
  | root directory _ => exact directory
  | child _ directory _ => exact directory

theorem held
    (located : Located g img fuel above up clus here) :
    here.Held g img fuel clus := by
  cases located with
  | root _ held => exact held
  | child _ _ held => exact held

/-- Only the root has no directory above it. -/
theorem up_cases
    (located : Located g img fuel above up clus here) :
    (above = [] ∧ up = 0) ∨
      ∃ parent further upper,
        above = parent :: further ∧
          rootClus ≤ up ∧
          Located g img fuel further upper up parent := by
  cases located with
  | root =>
      exact .inl ⟨rfl, rfl⟩
  | child located _ _ =>
      exact .inr ⟨_, _, _, rfl, located.directory.data, located⟩

end Located

/-- No child is found under the name of a dot entry. -/
theorem Nodes.child_dots
    {nodes : Nodes}
    (namesOk : nodes.NamesOk)
    {name : PyStr}
    (dots : name = [fullStop] ∨ name = [fullStop, fullStop]) :
    nodes.child name = none := by
  have different {other : PyStr} (nameOk : NameOk other) : other ≠ name := by
    rcases dots with rfl | rfl
    · exact nameOk.notDot
    · exact nameOk.notDotDot
  induction nodes with
  | nil =>
      rfl
  | file other content firstClus rest restIH =>
      rw [child, if_neg (different namesOk.1), restIH namesOk.2]
  | dir other parentClus firstClus dirN children rest _ restIH =>
      rw [child, if_neg (different namesOk.1), restIH namesOk.2.2]

/-- Names of children are not found among the dot entries. -/
theorem find?_listedDots
    {name : PyStr}
    (notDot : name ≠ [fullStop])
    (notDotDot : name ≠ [fullStop, fullStop])
    (parentClus firstClus : Nat) :
    (listedDots parentClus firstClus).find?
      (fun entry => entry.name = name) = none := by
  rw [listedDots]
  split
  · simp [Ne.symm notDot, Ne.symm notDotDot]
  · rfl

/-- The number in a ".." entry leads to the directory above. -/
theorem upward
    (root : g.root = rootClus)
    {up : Nat}
    (data : rootClus ≤ up) :
    (if upNumber up = 0 then g.root else upNumber up) = up := by
  by_cases top : up = rootClus
  · simp [upNumber, top, root]
  · have allocated : up ≠ 0 :=
      Nat.ne_of_gt (Nat.lt_of_lt_of_le (by decide) data)
    rw [upNumber, if_pos top, if_neg allocated]

/-- On the volume a path leads to what it leads to in the tree. -/
theorem Located.readPath_eq
    (root : g.root = rootClus)
    {above : List Nodes}
    {up clus : Nat}
    {here : Nodes}
    (located : Located g img fuel above up clus here)
    (path : List PyStr) :
    g.readPath img fuel clus path = .ok (resolve above here path) := by
  induction path generalizing above up clus here with
  | nil =>
      have directory := located.directory
      obtain ⟨entries, built⟩ := directory.built
      simp only [Bpb.readPath, directory.read, bind, Except.bind,
        childrenOf_append, childrenOf_listedDots, List.nil_append,
        childrenOf_listed directory.namesOk, Nodes.map_listed built, resolve]
      rfl
  | cons name rest inductionHypothesis =>
      have directory := located.directory
      obtain ⟨entries, built⟩ := directory.built
      have leads := located.held.leads built name
      have allocated {first : Nat} (data : rootClus ≤ first) : first ≠ 0 :=
        Nat.ne_of_gt (Nat.lt_of_lt_of_le (by decide) data)
      simp only [Bpb.readPath, directory.read, bind, Except.bind,
        List.find?_append, resolve]
      by_cases dots : name = [fullStop] ∨ name = [fullStop, fullStop]
      · rw [Nodes.child_dots directory.namesOk dots] at leads
        generalize (here.listed []).find? _ = entry at leads ⊢
        cases leads with
        | absent =>
        rcases located.up_cases with
          ⟨rfl, rfl⟩ | ⟨parent, further, upper, rfl, data, atParent⟩
        · rcases dots with rfl | rfl <;> rfl
        · rw [listedDots, if_pos (allocated data)]
          rcases dots with rfl | rfl
          · have later := inductionHypothesis located
            simp [allocated directory.data, later]
          · have later := inductionHypothesis atParent
            simp [upward root data, later]
      · obtain ⟨notDot, notDotDot⟩ := not_or.mp dots
        rw [find?_listedDots notDot notDotDot, Option.none_or,
          if_neg notDot, if_neg notDotDot]
        generalize (here.listed []).find? _ = entry at leads ⊢
        generalize here.child name = child at leads ⊢
        cases leads with
        | absent =>
            rfl
        | file isFile read =>
            simp only [isFile, Bool.false_eq_true, ↓reduceIte, read]
            split <;> rfl
        | dir isDir directory held =>
            simp only [isDir, ↓reduceIte, allocated directory.data]
            exact inductionHypothesis (.child located directory held)

end Volumes

section Created

/-- Each directory knows the cluster of the one that it lies in. -/
def Nodes.Parented : Nat → Nodes → Prop
  | _, .nil =>
      True
  | here, .file _ _ _ rest =>
      rest.Parented here
  | here, .dir _ parentClus firstClus _ children rest =>
      parentClus = here ∧
        children.Parented firstClus ∧ rest.Parented here

theorem layoutNodes_parented
    {parentClus : Nat}
    {nodes laid : Nodes}
    {alloc after : Allocator}
    (result : layoutNodes parentClus nodes alloc = .ok (laid, after)) :
    laid.Parented parentClus := by
  induction nodes generalizing parentClus laid alloc after with
  | nil =>
      obtain ⟨rfl, rfl⟩ := Prod.mk.inj (Except.ok.inj result)
      trivial
  | file name content firstClus rest restIH =>
      simp only [layoutNodes, bind_eq_ok] at result
      obtain ⟨⟨rest', alloc'⟩, restLaid, joined⟩ := result
      obtain ⟨rfl, rfl⟩ := Prod.mk.inj (Except.ok.inj joined)
      have later : rest'.Parented parentClus := restIH restLaid
      exact later
  | dir name oldParent firstClus dirN children rest childrenIH restIH =>
      simp only [layoutNodes, bind_eq_ok] at result
      obtain ⟨entries, _, ⟨children', alloc'⟩, childrenLaid,
        ⟨rest', alloc''⟩, restLaid, joined⟩ := result
      obtain ⟨rfl, rfl⟩ := Prod.mk.inj (Except.ok.inj joined)
      exact ⟨rfl, childrenIH childrenLaid, restIH restLaid⟩

theorem layoutRoot_parented
    {source : Nodes}
    {root : Root}
    {alloc : Allocator}
    (laidOut : layoutRoot source = .ok (root, alloc)) :
    root.children.Parented root.firstClus := by
  simp only [layoutRoot, bind_eq_ok] at laidOut
  obtain ⟨entries, _, ⟨children, alloc'⟩, childrenLaid, joined⟩ := laidOut
  obtain ⟨rfl, rfl⟩ := Prod.mk.inj (Except.ok.inj joined)
  exact layoutNodes_parented childrenLaid

variable {g : Bpb} {img : List UInt8} {fuel : Nat}

/-- A volume that can be walked holds what is laid out on it. -/
theorem Walkable.held
    (bpc : g.bpc = bytesPerCluster)
    {nodes : Nodes}
    {start stop : Nat}
    (walkable : Walkable g img nodes start stop)
    {here : Nat}
    (parented : nodes.Parented here)
    (hereFits : here < 256 ^ 4)
    (followable : ∀ extent ∈ nodes.extents, Followable extent)
    (enough : stop ≤ fuel) :
    nodes.Held g img fuel here := by
  induction nodes generalizing start stop here with
  | nil =>
      trivial
  | file name content firstClus rest restIH =>
      have some : 0 < fuel := by
        have data := walkable.data
        have reached := walkable.tiles.le
        simp only [rootClus] at data
        omega
      by_cases empty : content = []
      · subst empty
        obtain ⟨_, inRest⟩ := walkable.emptyFile
        exact ⟨readBytes_empty some _,
          restIH inRest parented hereFits followable enough⟩
      · obtain ⟨rfl, positive, readable, inRest⟩ := walkable.file empty
        have reached := inRest.tiles.le
        simp only [Nodes.extents, empty, ↓reduceIte, List.forall_mem_cons]
          at followable
        have read := readBytes_run readable bpc positive rfl
          (followable.1.file rfl) (show _ ≤ fuel by dsimp only; omega)
        refine ⟨?_,
          restIH inRest parented hereFits followable.2 enough⟩
        rw [if_pos (mt List.length_eq_zero_iff.mp empty)]
        exact read
  | dir name parentClus firstClus dirN children rest childrenIH restIH =>
      obtain ⟨rfl, positive, budgeted, readable, middle, inChildren,
        inRest⟩ := walkable.dir
      obtain ⟨rfl, childrenParented, restParented⟩ := parented
      have reached := inChildren.tiles.le
      have further := inRest.tiles.le
      have fits := walkable.fits
      have firstFits : firstClus < 256 ^ 4 := by omega
      simp only [Nodes.extents, List.forall_mem_cons,
        List.forall_mem_append] at followable
      obtain ⟨own, below, behind⟩ := followable
      have directory :
          Directory g img fuel parentClus firstClus children := {
        built := budgeted.built
        namesOk := walkable.namesOk.2.1
        data := walkable.data
        read := readEntries_budgeted budgeted walkable.namesOk.2.1
          inChildren.numbered hereFits firstFits readable own.dir bpc
          (by omega)
      }
      exact ⟨directory,
        childrenIH inChildren childrenParented firstFits below (by omega),
        restIH inRest restParented hereFits behind enough⟩

variable
  {source : Nodes}
  {sizeMb : Int}
  {created : Created}
  {rawFat : List UInt8}

/-- The root directory of a created image, and all that is below it. -/
theorem Complete.located
    (complete : Complete source sizeMb created rawFat)
    (namesOk : source.NamesOk)
    (followable : ∀ extent ∈ created.root.extents, Followable extent)
    (enough : created.alloc.nextClus ≤ fuel) :
    Located created.geometry.bpb created.img fuel [] 0 rootClus
      created.root.children := by
  have walkable := complete.walkable namesOk
  obtain ⟨first, tiles, _, budgeted, _⟩ :=
    layoutRoot_allocated complete.written.laidOut
  have readable := complete.readable (List.mem_cons_self ..)
  obtain ⟨own, below⟩ := List.forall_mem_cons.mp followable
  obtain ⟨_, _, ends⟩ := tiles.bounds (List.mem_cons_self ..)
  simp only [Extent.behind] at ends
  have parented := layoutRoot_parented complete.written.laidOut
  rw [first] at budgeted readable own ends parented
  refine .root ?_ (walkable.held rfl parented (by decide) below enough)
  exact {
    built := budgeted.built
    namesOk := walkable.namesOk
    data := Nat.le_refl _
    read := readEntries_budgeted budgeted walkable.namesOk
      walkable.numbered (by decide) (by decide) readable own.dir rfl
      (by omega)
  }

/--
On a created image every path leads to what it leads to in the source tree:
to the same children, to the same content, or nowhere.
-/
theorem readVolume_createImage
    (made : createImage source sizeMb = .ok created)
    (namesOk : source.NamesOk)
    (fits :
      created.alloc.nextClus - rootClus +
          (demands source).countP Demand.isDir ≤
        created.geometry.clusCount)
    (addressable : Addressable rootClus (demands source))
    {fuel : Nat}
    (enough : created.alloc.nextClus ≤ fuel)
    (path : List PyStr) :
    readVolume fuel created.img path = .ok (resolve [] source path) := by
  obtain ⟨rawFat, written⟩ := createImage_eq_ok.mp made
  have complete := written.complete (by
    rwa [layoutRoot_nextClus written.laidOut,
      Nat.add_sub_cancel_left] at fits)
  have located := complete.located namesOk
    (complete.addressable_iff.mp addressable) enough
  have resolved := located.readPath_eq rfl path
  have same : resolve [] created.root.children path =
      resolve [] source path := by
    have laid := resolve_erase [] created.root.children path
    rw [layoutRoot_erase written.laidOut] at laid
    exact laid.symm.trans (resolve_erase [] source path)
  rw [same] at resolved
  simp only [readVolume, complete.partitionStart_eq, Nat.zero_mul,
    complete.readBpb_eq, raising, bind, Except.bind]
  exact resolved

/-- Down, up and down again to the file of the small tree. -/
theorem readVolume_createImage_sample :
    ∃ created fuel,
      createImage sampleTree 257 = .ok created ∧
        readVolume fuel created.img
            [[0x62, 0x69, 0x6E], [fullStop, fullStop],
              [0x62, 0x69, 0x6E], [0x61]] =
          .ok (some (.file [0x2A])) := by
  obtain ⟨created, made, _, _, fits⟩ := createImage_sample
  exact ⟨created, created.alloc.nextClus, made,
    readVolume_createImage made sampleTree_namesOk fits (by decide +kernel)
      (Nat.le_refl _) _⟩

end Created

end UefiMount.MkFatImg
