import UefiMount.FatFormat

namespace UefiMount.MkFatImg

open ByteBuffer

/-!
# Inspecting an image

`inspect_image` of `tools/mkfatimg.py`: the reading side, which parses the boot
sector and walks the directories from the bytes alone.  On a damaged image its
loops need not end, so they take fuel.
-/

/-- Why an inspection has no result. -/
inductive InspectError where
  | raised (problem : PyError)
  | outOfFuel
  deriving DecidableEq

/-- An exception passes through. -/
def raising : Except PyError α → Except InspectError α
  | .ok value =>
      .ok value
  | .error problem =>
      .error (.raised problem)

section Reading

/-- `struct.unpack_from` of one unsigned little-endian field. -/
def unpackFrom
    (width : Nat)
    (data : List UInt8)
    (start : Nat) :
    Except PyError Nat :=
  if start + width ≤ data.length then
    .ok (LittleEndian.value (slice data start width))
  else
    .error .structError

/-- An index of a slice; a negative one counts from the end. -/
def sliceBound (data : List UInt8) (index : Int) : Nat :=
  min (if index < 0 then index + data.length else index).toNat data.length

/-- `data[start:stop]`. -/
def pySlice (data : List UInt8) (start stop : Int) : List UInt8 :=
  slice data (sliceBound data start)
    (sliceBound data stop - sliceBound data start)

/-- `data[index]`. -/
def byteAt (data : List UInt8) (index : Nat) : Except PyError UInt8 :=
  match data[index]? with
  | some byte =>
      .ok byte
  | none =>
      .error .indexError

end Reading

section BootSector

/-- `partition_start`. -/
def partitionStart (img : List UInt8) : Except PyError Nat :=
  if slice img 510 2 = [0x55, 0xAA] then do
    let indicator ← byteAt img 446
    let type ← byteAt img 450
    if (indicator = 0x00 ∨ indicator = 0x80) ∧ type ≠ 0x00 then
      unpackFrom 4 img 454
    else
      return 0
  else
    return 0

/-- The result of `read_bpb`. -/
structure Bpb where
  spc : Nat
  rsvd : Nat
  nfat : Nat
  tot : Nat
  fatSec : Nat
  root : Nat
  bpbOff : Nat
  dataStart : Nat
  deriving DecidableEq

/-- `read_bpb`. -/
def readBpb (img : List UInt8) (bpbOff : Nat) : Except PyError Bpb := do
  -- The fields of "<HBHBHHBHHHII" from offset 11 on, up to the last in use.
  let _ ← unpackFrom 25 img (11 + bpbOff)
  let sec ← unpackFrom 2 img (11 + bpbOff)
  let spc ← unpackFrom 1 img (13 + bpbOff)
  let rsvd ← unpackFrom 2 img (14 + bpbOff)
  let nfat ← unpackFrom 1 img (16 + bpbOff)
  let tot16 ← unpackFrom 2 img (19 + bpbOff)
  let fat16 ← unpackFrom 2 img (22 + bpbOff)
  let tot ← if tot16 = 0 then unpackFrom 4 img (32 + bpbOff) else .ok tot16
  let fatSec ←
    if fat16 = 0 then unpackFrom 4 img (36 + bpbOff) else .ok fat16
  let root ← unpackFrom 4 img (44 + bpbOff)
  if sec ≠ sector then
    .error (.unexpectedSector sec)
  else
    return {
      spc := spc
      rsvd := rsvd
      nfat := nfat
      tot := tot
      fatSec := fatSec
      root := root
      bpbOff := bpbOff
      dataStart := bpbOff + (rsvd + nfat * fatSec) * sector
    }

namespace Bpb

/-- `bpc`. -/
def bpc (g : Bpb) : Nat :=
  sector * g.spc

/-- `fat_off`. -/
def fatOff (g : Bpb) : Nat :=
  g.bpbOff + g.rsvd * sector

/-- `read_clus`. -/
def readClus (g : Bpb) (img : List UInt8) (c : Nat) : List UInt8 :=
  let off : Int := g.dataStart + ((c : Int) - rootClus) * g.bpc
  pySlice img off (off + g.bpc)

/-- `next_clus`. -/
def nextClus (g : Bpb) (img : List UInt8) (c : Nat) : Except PyError Nat :=
  unpackFrom 4 img (g.fatOff + c * 4)

end Bpb

end BootSector

section DirectoryEntries

/-- `raw`: the name fields of a long name entry. -/
def nameFields (e : List UInt8) : List UInt8 :=
  slice e 1 10 ++ slice e 14 12 ++ slice e 28 4

/-- `raw[i] | (raw[i + 1] << 8)`, when the bytes are there. -/
def unitAt (raw : List UInt8) (i : Nat) : Option CodePoint :=
  match raw[i]?, raw[i + 1]? with
  | some low, some high =>
      some (Fin.ofNat _ (LittleEndian.value [low, high]))
  | _, _ =>
      none

/-- The 13 units of an entry. -/
def entryUnits (e : List UInt8) : List (Option CodePoint) :=
  (List.range 13).map fun i => unitAt (nameFields e) (2 * i)

/-- The characters up to 0xFFFF, and whether it has been met. -/
def collectChars :
    List (Option CodePoint) → Except PyError (PyStr × Bool)
  | [] =>
      .ok ([], false)
  | none :: _ =>
      .error .indexError
  | some unit :: rest =>
      if unit = 0xFFFF then
        .ok ([], true)
      else do
        let (chars, ended) ← collectChars rest
        return (if unit ≠ 0 then unit :: chars else chars, ended)

/-- The sort key of a long name entry: its sequence number. -/
def seqOf (e : List UInt8) : UInt8 :=
  e.headD 0 &&& 0x3F

/-- `lfn_decode`; the empty name stands for none. -/
def lfnDecode
    (pending : List (List UInt8))
    (short11 : List UInt8) :
    Except PyError PyStr := do
  let bySeq := pending.mergeSort fun left right => seqOf left ≤ seqOf right
  let (chars, ended) ← collectChars (bySeq.flatMap entryUnits)
  if ended then
    return chars
  else if chars ≠ [] ∧
      (bySeq.head?.bind (·[13]?)) = some (lfnChecksum short11) then
    return chars
  else
    return []

/-- An element of `entries`. -/
structure DirEntry where
  name : PyStr
  short11 : List UInt8
  isDir : Bool
  first : Nat
  size : Nat
  deriving DecidableEq

/-- A short name entry, with the long name that is pending. -/
def readEntry
    (pending : List (List UInt8))
    (e : List UInt8) :
    Except PyError DirEntry := do
  let short11 := slice e 0 11
  let long ← lfnDecode pending short11
  let low ← unpackFrom 2 e 26
  let high ← unpackFrom 2 e 20
  let size ← unpackFrom 4 e 28
  let attr ← byteAt e 11
  return {
    name := if long ≠ [] then long else shortToName short11
    short11 := short11
    isDir := attr &&& attrDirectory ≠ 0
    first := low ||| (high <<< 16)
    size := size
  }

/-- What one entry of a cluster is. -/
inductive Scanned where
  /-- The end of the directory. -/
  | done
  /-- No child, and the long name entries that are pending behind it. -/
  | pending (entries : List (List UInt8))
  | found (entry : DirEntry)

/-- One round of the loop over the entries of a cluster. -/
def scanEntry
    (pending : List (List UInt8))
    (e : List UInt8) :
    Except PyError Scanned := do
  let b0 ← byteAt e 0
  if b0 = 0x00 then
    return .done
  else if b0 = 0xE5 then
    return .pending []
  else
    let attr ← byteAt e 11
    if attr = attrLfn then
      return .pending (pending ++ [e])
    else
      let entry ← readEntry pending e
      return .found entry

/--
The loop over the entries of one cluster: what has been found, the long name
entries that are still pending, and whether the directory has ended.
-/
def scanEntries :
    List (List UInt8) → List (List UInt8) →
      Except PyError (List DirEntry × List (List UInt8) × Bool)
  | [], pending =>
      .ok ([], pending, false)
  | e :: rest, pending => do
      match ← scanEntry pending e with
      | .done =>
          return ([], pending, true)
      | .pending pending =>
          scanEntries rest pending
      | .found entry =>
          let (entries, pending, done) ← scanEntries rest []
          return (entry :: entries, pending, done)

/-- The pieces of 32 bytes that the loop visits. -/
def pieces (data : List UInt8) (bpc : Nat) : List (List UInt8) :=
  (List.range (bpc / 32)).map fun i => slice data (32 * i) 32

end DirectoryEntries

section Walk

/-- What a cluster is used for: `dir <path>` or `file <path>`. -/
inductive Use where
  | dir (path : PyStr)
  | file (path : PyStr)
  deriving DecidableEq

/-- An element of `lines`. -/
inductive Line where
  | root (count : Nat)
  | dir (depth count : Nat)
  | entry
      (depth : Nat)
      (isDir : Bool)
      (short real : PyStr)
      (size clus : Nat)
  deriving DecidableEq

/-- What the walk collects. -/
structure Report where
  lines : List Line
  occup : List (Nat × Use)
  conflicts : List (Nat × Use × Use)
  deriving DecidableEq

namespace Report

/-- `lines.append`. -/
def print (report : Report) (line : Line) : Report :=
  { report with lines := report.lines ++ [line] }

/-- A use of a cluster; only the first one is kept in `occup`. -/
def mark (report : Report) (c : Nat) (what : Use) : Report :=
  match report.occup.lookup c with
  | some first =>
      { report with conflicts := report.conflicts ++ [(c, first, what)] }
  | none =>
      { report with occup := report.occup ++ [(c, what)] }

end Report

/-- From this number on, a FAT entry is an end mark. -/
def endMarks : Nat := 0x0FFFFFF8

/-- `walk_chain_mark`. -/
def walkChainMark
    (g : Bpb)
    (img : List UInt8)
    (what : Use) :
    Nat → Nat → List Nat → Report → Except InspectError Report
  | 0, _, _, _ =>
      .error .outOfFuel
  | fuel + 1, clus, seen, report =>
      if rootClus ≤ clus ∧ clus < endMarks ∧ clus ∉ seen then do
        let next ← raising (g.nextClus img clus)
        walkChainMark g img what fuel next (clus :: seen)
          (report.mark clus what)
      else
        .ok report

/-- The loop of `walk_dir` over the chain: the entries, and the chain. -/
def readChain
    (g : Bpb)
    (img : List UInt8)
    (visited : List Nat) :
    Nat → Nat → List (List UInt8) →
      Except InspectError (List DirEntry × List Nat)
  | 0, _, _ =>
      .error .outOfFuel
  | fuel + 1, clus, pending => do
      let (entries, pending, done) ←
        raising (scanEntries (pieces (g.readClus img clus) g.bpc) pending)
      if done then
        return (entries, [clus])
      else
        let next ← raising (g.nextClus img clus)
        if endMarks ≤ next ∨ next ∈ visited then
          return (entries, [clus])
        else
          let (later, chain) ← readChain g img visited fuel next pending
          return (entries ++ later, clus :: chain)

/-- `path + "/" + name`. -/
def childPath (path name : PyStr) : PyStr :=
  path ++ [0x2F] ++ name

/-- `children`: the entries but "." and "..". -/
def childrenOf (entries : List DirEntry) : List DirEntry :=
  entries.filter fun entry =>
    entry.name ≠ [fullStop] ∧ entry.name ≠ [fullStop, fullStop]

/-- The loop of `walk_dir` over the children, given the recursive call. -/
def walkChildren
    (g : Bpb)
    (img : List UInt8)
    (fuel depth : Nat)
    (path : PyStr)
    (walk : Nat → PyStr → Report → Except InspectError Report) :
    List DirEntry → Report → Except InspectError Report
  | [], report =>
      .ok report
  | child :: rest, report => do
      let report := report.print (.entry (depth + 1) child.isDir
        (shortToName child.short11) child.name child.size child.first)
      let report ←
        if child.isDir then
          walk child.first (childPath path child.name) report
        else if rootClus ≤ child.first then
          walkChainMark g img (.file (childPath path child.name)) fuel
            child.first [] report
        else
          .ok report
      walkChildren g img fuel depth path walk rest report

/-- `walk_dir`. -/
def walkDir
    (g : Bpb)
    (img : List UInt8) :
    Nat → Nat → Nat → List Nat → PyStr → Report →
      Except InspectError Report
  | 0, _, _, _, _, _ =>
      .error .outOfFuel
  | fuel + 1, depth, clus, visited, path, report =>
      if clus ∈ visited then
        .ok report
      else do
        let visited := clus :: visited
        let (entries, chain) ← readChain g img visited fuel clus []
        let report :=
          chain.foldl (fun report c => report.mark c (.dir path)) report
        let children := childrenOf entries
        let report := report.print
          (if depth = 0 then
            .root children.length
          else
            .dir depth children.length)
        walkChildren g img fuel depth path
          (fun first path => walkDir g img fuel (depth + 1) first visited path)
          children report

/-- What `inspect_image` prints, and the table behind it. -/
structure Inspection where
  bpb : Bpb
  report : Report
  deriving DecidableEq

/-- `inspect_image`, up to the text of its output. -/
def inspectImage
    (fuel : Nat)
    (img : List UInt8) :
    Except InspectError Inspection := do
  let start ← raising (partitionStart img)
  let g ← raising (readBpb img (start * sector))
  let report ← walkDir g img fuel 0 g.root [] [] ⟨[], [], []⟩
  return ⟨g, report⟩

end Walk

end UefiMount.MkFatImg
