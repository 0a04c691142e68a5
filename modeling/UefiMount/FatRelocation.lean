import UefiMount.FatInspect

namespace UefiMount.MkFatImg

open ByteBuffer

/-!
# Volumes behind a partition table

`inspect_image` takes a bare volume and a disk whose first MBR partition holds
one.  The walk sees a volume only through its clusters and its FAT links, so
it reports the same wherever the volume lies.
-/

section SameVolume

/-- Two places that read as one volume. -/
structure SameVolume
    (g : Bpb)
    (img : List UInt8)
    (g' : Bpb)
    (img' : List UInt8) : Prop where
  bpc :
    g'.bpc = g.bpc
  clusters :
    ∀ c, g'.readClus img' c = g.readClus img c
  links :
    ∀ c, g'.nextClus img' c = g.nextClus img c

namespace SameVolume

variable
  {g g' : Bpb}
  {img img' : List UInt8}

theorem walkChainMark_eq
    (same : SameVolume g img g' img')
    (what : Use)
    (fuel clus : Nat)
    (seen : List Nat)
    (report : Report) :
    walkChainMark g' img' what fuel clus seen report =
      walkChainMark g img what fuel clus seen report := by
  induction fuel generalizing clus seen report with
  | zero => rfl
  | succ fuel inductionHypothesis =>
      simp only [walkChainMark, same.links, inductionHypothesis]

theorem readChain_eq
    (same : SameVolume g img g' img')
    (visited : List Nat)
    (fuel clus : Nat)
    (pending : List (List UInt8)) :
    readChain g' img' visited fuel clus pending =
      readChain g img visited fuel clus pending := by
  induction fuel generalizing clus pending with
  | zero => rfl
  | succ fuel inductionHypothesis =>
      simp only [readChain, same.links, same.clusters, same.bpc,
        inductionHypothesis]

theorem walkChildren_eq
    (same : SameVolume g img g' img')
    (fuel depth : Nat)
    (path : PyStr)
    (walk : Nat → PyStr → Report → Except InspectError Report)
    (children : List DirEntry)
    (report : Report) :
    walkChildren g' img' fuel depth path walk children report =
      walkChildren g img fuel depth path walk children report := by
  induction children generalizing report with
  | nil => rfl
  | cons child rest inductionHypothesis =>
      simp only [walkChildren, same.walkChainMark_eq, inductionHypothesis]

/-- The walk over one volume is the walk over the other. -/
theorem walkDir_eq
    (same : SameVolume g img g' img')
    (fuel depth clus : Nat)
    (visited : List Nat)
    (path : PyStr)
    (report : Report) :
    walkDir g' img' fuel depth clus visited path report =
      walkDir g img fuel depth clus visited path report := by
  induction fuel generalizing depth clus visited path report with
  | zero => rfl
  | succ fuel inductionHypothesis =>
      have below :
          walkDir g' img' fuel (depth + 1) =
            walkDir g img fuel (depth + 1) := by
        funext clus visited path report
        exact inductionHypothesis ..
      simp only [walkDir, same.readChain_eq, same.walkChildren_eq, below]

end SameVolume

end SameVolume

section Moved

/-- The volume behind so many bytes. -/
def Bpb.moved (front : Nat) (g : Bpb) : Bpb :=
  { g with
    bpbOff := front + g.bpbOff
    dataStart := front + g.dataStart }

/-- A field keeps its value behind other bytes. -/
theorem unpackFrom_append
    (width : Nat)
    (front data : List UInt8)
    {start place : Nat}
    (behind : place = front.length + start) :
    unpackFrom width (front ++ data) place = unpackFrom width data start := by
  subst behind
  simp only [unpackFrom, slice_append_length, List.length_append, Nat.add_assoc,
    Nat.add_le_add_iff_left]

/-- The boot sector reads the same behind other bytes. -/
theorem readBpb_append
    (front volume : List UInt8) :
    readBpb (front ++ volume) front.length =
      (readBpb volume 0).map (Bpb.moved front.length) := by
  have field (width place : Nat) :
      unpackFrom width (front ++ volume) (place + front.length) =
        unpackFrom width volume place :=
    unpackFrom_append width front volume (Nat.add_comm ..)
  have throughBind
      {α β : Type}
      (first : Except PyError α)
      (next : α → Except PyError β)
      (result : β → Bpb) :
      (first >>= next).map result = first >>= fun a => (next a).map result := by
    cases first <;> rfl
  have atEnd (g : Bpb) :
      (pure g : Except PyError Bpb).map (Bpb.moved front.length) =
        pure (g.moved front.length) :=
    rfl
  have atError (problem : PyError) :
      (Except.error problem).map (Bpb.moved front.length) =
        Except.error problem :=
    rfl
  simp only [readBpb, field, throughBind,
    apply_ite (Except.map (Bpb.moved front.length)), atEnd, atError,
    Bpb.moved, Nat.zero_add, Nat.add_zero]

/-- What `data[off:off + length]` reads behind other bytes. -/
theorem pySlice_append
    (front data : List UInt8)
    {start stop : Int}
    (startAtLeast : 0 ≤ start)
    (ordered : start ≤ stop) :
    pySlice (front ++ data) (front.length + start) (front.length + stop) =
      pySlice data start stop := by
  have bound (index : Int) (atLeast : 0 ≤ index) :
      sliceBound (front ++ data) (front.length + index) =
        front.length + sliceBound data index := by
    simp only [sliceBound, List.length_append]
    omega
  have stopAtLeast : 0 ≤ stop := startAtLeast.trans ordered
  rw [pySlice, pySlice, bound start startAtLeast, bound stop stopAtLeast,
    Nat.add_sub_add_left, slice_append_length]

/-- No cluster number below 2 leads in front of the volume. -/
def Bpb.Roomy (g : Bpb) : Prop :=
  2 * g.bpc ≤ g.dataStart
  deriving Decidable

theorem sameVolume_append
    (front volume : List UInt8)
    {g : Bpb}
    (roomy : g.Roomy) :
    SameVolume g volume (g.moved front.length) (front ++ volume) where
  bpc := rfl
  clusters := by
    intro c
    have inside :
        0 ≤ (g.dataStart : Int) + ((c : Int) - rootClus) * g.bpc := by
      have room : (2 : Int) * g.bpc ≤ g.dataStart := by
        exact_mod_cast roomy
      have least : -2 * (g.bpc : Int) ≤ ((c : Int) - rootClus) * g.bpc :=
        Int.mul_le_mul_of_nonneg_right
          (by simp only [rootClus]; omega) (Int.natCast_nonneg g.bpc)
      omega
    have behind :=
      pySlice_append front volume inside
        (Int.le_add_of_nonneg_right (Int.natCast_nonneg g.bpc))
    simp only [Bpb.readClus]
    rw [← behind]
    congr 1
    all_goals
      simp only [Bpb.moved, Bpb.bpc, Nat.cast_add]
      ring
  links := by
    intro c
    have behind :
        (g.moved front.length).fatOff + c * 4 =
          front.length + (g.fatOff + c * 4) := by
      simp only [Bpb.fatOff, Bpb.moved]
      omega
    exact unpackFrom_append 4 front volume behind

/-- An MBR whose first partition starts at a sector, and the gap behind it. -/
structure FirstPartition (front : List UInt8) (start : Nat) : Prop where
  atLeast :
    0 < start
  length :
    front.length = start * sector
  signature :
    slice front 510 2 = [0x55, 0xAA]
  indicator :
    front[446]? = some 0x00 ∨ front[446]? = some 0x80
  type :
    ∃ type, front[450]? = some type ∧ type ≠ 0x00
  lba :
    LittleEndian.value (slice front 454 4) = start

namespace FirstPartition

variable
  {front : List UInt8}
  {start : Nat}

theorem sector_le (partition : FirstPartition front start) :
    sector ≤ front.length := by
  rw [partition.length]
  exact Nat.le_mul_of_pos_left _ partition.atLeast

/-- The start is found, whatever lies behind. -/
theorem partitionStart_append
    (partition : FirstPartition front start)
    (volume : List UInt8) :
    partitionStart (front ++ volume) = .ok start := by
  have long := partition.sector_le
  simp only [sector] at long
  have front? (index : Nat) (inside : index < 512) :
      (front ++ volume)[index]? = front[index]? :=
    List.getElem?_append_left (by omega)
  have frontSlice (start length : Nat) (inside : start + length ≤ 512) :
      slice (front ++ volume) start length = slice front start length := by
    rw [slice, slice, List.drop_append_of_le_length (by omega),
      List.take_append_of_le_length (by simp; omega)]
  obtain ⟨type, typed, used⟩ := partition.type
  have value :
      unpackFrom 4 (front ++ volume) 454 = .ok start := by
    rw [unpackFrom, if_pos (by simp; omega), frontSlice 454 4 (by omega),
      partition.lba]
  rw [partitionStart, frontSlice 510 2 (by omega), partition.signature,
    if_pos rfl]
  simp only [byteAt, front? 446 (by omega), front? 450 (by omega), typed]
  rcases partition.indicator with indicator | indicator <;>
    simp [indicator, used, value, bind, Except.bind]

end FirstPartition

/--
A disk with the volume in its first partition is reported as the volume alone
is, whatever the volume holds and wherever its walk goes.  The volume is no
partitioned disk itself, and no cluster number leads in front of it.
-/
theorem inspectImage_partition
    {front volume : List UInt8}
    {start : Nat}
    (partition : FirstPartition front start)
    (bare : partitionStart volume = .ok 0)
    (roomy : ∀ g, readBpb volume 0 = .ok g → g.Roomy)
    (fuel : Nat) :
    inspectImage fuel (front ++ volume) =
      (inspectImage fuel volume).map fun inspection =>
        ⟨inspection.bpb.moved front.length, inspection.report⟩ := by
  have booted :
      readBpb (front ++ volume) (start * sector) =
        (readBpb volume (0 * sector)).map (Bpb.moved front.length) := by
    rw [← partition.length, readBpb_append, Nat.zero_mul]
  simp only [inspectImage, partition.partitionStart_append, bare, raising]
  simp only [bind, Except.bind, booted]
  cases read : readBpb volume (0 * sector) with
  | error => rfl
  | ok g =>
      have same :=
        sameVolume_append front volume
          (roomy g ((congrArg _ (Nat.zero_mul sector)).symm.trans read))
      simp only [Except.map, same.walkDir_eq]
      have sameRoot : (g.moved front.length).root = g.root := rfl
      rw [sameRoot]
      cases walkDir g volume fuel 0 g.root [] [] ⟨[], [], []⟩ with
      | error => rfl
      | ok => rfl

/-- The partition table of a disk whose first partition starts at sector 1. -/
def smallMbr : List UInt8 :=
  List.replicate 446 0 ++ [0x80, 0, 0, 0, 0x0C, 0, 0, 0, 1, 0, 0, 0] ++
    List.replicate 52 0 ++ [0x55, 0xAA]

/--
A volume with clusters, reserved part and FAT of one sector each, and one empty
file `A` in its root directory.
-/
def smallVolume : List UInt8 :=
  List.replicate 11 0 ++ [0x00, 0x02, 1, 1, 0, 1] ++ List.replicate 5 0 ++
    [1, 0] ++ List.replicate 20 0 ++ [2, 0, 0, 0] ++ List.replicate 464 0 ++
  List.replicate 512 0 ++
  [0x41] ++ List.replicate 10 0x20 ++ [0x20] ++ List.replicate 500 0

/-- The volume in the first partition of a disk. -/
theorem inspectImage_partition_small :
    inspectImage 3 (smallMbr ++ smallVolume) =
      .ok ⟨⟨1, 1, 1, 0, 1, 2, 512, 1536⟩,
        ⟨[.root 1, .entry 1 false [0x41] [0x41] 0 0],
          [(2, .dir [])], []⟩⟩ := by
  have partition : FirstPartition smallMbr 1 := {
    atLeast := by decide
    length := by decide +kernel
    signature := by decide +kernel
    indicator := by decide +kernel
    type := ⟨0x0C, by decide +kernel, by decide⟩
    lba := by decide +kernel
  }
  have booted :
      readBpb smallVolume 0 = .ok ⟨1, 1, 1, 0, 1, 2, 0, 1024⟩ := by
    decide +kernel
  have roomy :
      ∀ g, readBpb smallVolume 0 = .ok g → g.Roomy := by
    intro g read
    rw [booted] at read
    obtain rfl := Except.ok.inj read
    decide
  rw [inspectImage_partition partition (by decide +kernel) roomy 3]
  decide +kernel

end Moved

end UefiMount.MkFatImg
