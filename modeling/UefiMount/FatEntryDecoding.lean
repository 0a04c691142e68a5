import UefiMount.FatClusterPartition
import UefiMount.FatInspect

namespace UefiMount.MkFatImg

open ByteBuffer

/-!
# Decoding directory entries

What the reading side makes of the entries that the writing side has built:
the fields of a short name entry, the name in a sequence of long name entries,
and the children in a directory stream.
-/

section ShortEntries

/-- The fields of `dir_entry`. -/
def dirEntryRows
    (short11 : ShortName)
    (attr : UInt8)
    (firstClus size : Nat) :
    List (Nat × Nat × List UInt8) :=
  [(0, 11, short11.bytes),
    (11, 12, [attr]),
    (12, 14, [0, 0]),
    (14, 16, LittleEndian.bytes 2 fixedTime),
    (16, 18, LittleEndian.bytes 2 fixedDate),
    (18, 20, LittleEndian.bytes 2 fixedDate),
    (20, 22, LittleEndian.bytes 2 ((firstClus >>> 16) &&& 0xFFFF)),
    (22, 24, LittleEndian.bytes 2 fixedTime),
    (24, 26, LittleEndian.bytes 2 fixedDate),
    (26, 28, LittleEndian.bytes 2 (firstClus &&& 0xFFFF)),
    (28, 32, LittleEndian.bytes 4 size)]

theorem dirEntryRows_adjoining
    (short11 : ShortName)
    (attr : UInt8)
    (firstClus size : Nat) :
    Adjoining 0 (dirEntryRows short11 attr firstClus size) := by
  simp [dirEntryRows, Adjoining, short11.length_eq]

theorem dirEntry_eq_ok
    {short11 : ShortName}
    {attr : UInt8}
    {firstClus size : Nat}
    {e : List UInt8} :
    dirEntry short11 attr firstClus size = .ok e ↔
      size < 256 ^ 4 ∧
        e = (dirEntryRows short11 attr firstClus size).flatMap (·.2.2) := by
  simp only [dirEntry, bind_eq_ok, pack_eq_ok]
  constructor
  · rintro ⟨_, ⟨fits, rfl⟩, built⟩
    refine ⟨fits, ?_⟩
    rw [← Except.ok.inj built]
    simp [dirEntryRows]
  · rintro ⟨fits, rfl⟩
    exact ⟨_, ⟨fits, rfl⟩, congrArg Except.ok (by simp [dirEntryRows])⟩

/-- The fields that the reading side uses. -/
theorem dirEntry_fields
    {short11 : ShortName}
    {attr : UInt8}
    {firstClus size : Nat}
    {e : List UInt8}
    (built : dirEntry short11 attr firstClus size = .ok e) :
    slice e 0 11 = short11.bytes ∧
      slice e 11 1 = [attr] ∧
      slice e 20 2 =
        LittleEndian.bytes 2 ((firstClus >>> 16) &&& 0xFFFF) ∧
      slice e 26 2 = LittleEndian.bytes 2 (firstClus &&& 0xFFFF) ∧
      slice e 28 4 = LittleEndian.bytes 4 size ∧
      size < 256 ^ 4 := by
  obtain ⟨fits, rfl⟩ := dirEntry_eq_ok.mp built
  have held (row : Nat × Nat × List UInt8)
      (member : row ∈ dirEntryRows short11 attr firstClus size) :
      slice ((dirEntryRows short11 attr firstClus size).flatMap (·.2.2))
        row.1 row.2.2.length = row.2.2 := by
    have field := @slice_adjoining _ _ []
      (dirEntryRows_adjoining short11 attr firstClus size) [] _ member
    simpa using field
  have name := held (0, 11, short11.bytes) (by simp [dirEntryRows])
  have kind := held (11, 12, [attr]) (by simp [dirEntryRows])
  have high := held
    (20, 22, LittleEndian.bytes 2 ((firstClus >>> 16) &&& 0xFFFF))
    (by simp [dirEntryRows])
  have low := held (26, 28, LittleEndian.bytes 2 (firstClus &&& 0xFFFF))
    (by simp [dirEntryRows])
  have bytes := held (28, 32, LittleEndian.bytes 4 size)
    (by simp [dirEntryRows])
  simp only [short11.length_eq, LittleEndian.length_bytes,
    List.length_singleton] at name kind high low bytes
  exact ⟨name, kind, high, low, bytes, fits⟩

theorem unpackFrom_slice
    {data : List UInt8}
    {start width number : Nat}
    (held : slice data start width = LittleEndian.bytes width number)
    (positive : 0 < width)
    (fits : number < 256 ^ width) :
    unpackFrom width data start = .ok number := by
  have length := congrArg List.length held
  simp only [slice, List.length_take, List.length_drop,
    LittleEndian.length_bytes] at length
  rw [unpackFrom, if_pos (by omega), held,
    LittleEndian.value_bytes_of_lt fits]

theorem getElem?_of_slice
    {data : List UInt8}
    {index : Nat}
    {byte : UInt8}
    (held : slice data index 1 = [byte]) :
    data[index]? = some byte := by
  have same := @getElem?_slice _ data index 1 0 (by decide)
  rw [held, Nat.add_zero] at same
  exact same.symm

theorem byteAt_slice
    {data : List UInt8}
    {index : Nat}
    {byte : UInt8}
    (held : slice data index 1 = [byte]) :
    byteAt data index = .ok byte := by
  rw [byteAt, getElem?_of_slice held]

/-- What the two halves of a cluster number make up. -/
def joinedHalves (clus : Nat) : Nat :=
  (clus &&& 0xFFFF) ||| (((clus >>> 16) &&& 0xFFFF) <<< 16)

theorem joinedHalves_of_lt
    {clus : Nat}
    (fits : clus < 256 ^ 4) :
    joinedHalves clus = clus := by
  have low : clus &&& 0xFFFF = clus % 2 ^ 16 :=
    Nat.and_two_pow_sub_one_eq_mod clus 16
  have high : (clus >>> 16) &&& 0xFFFF = clus / 2 ^ 16 := by
    rw [Nat.shiftRight_eq_div_pow]
    refine (Nat.and_two_pow_sub_one_eq_mod _ 16).trans ?_
    exact Nat.mod_eq_of_lt (by omega)
  rw [joinedHalves, low, high, Nat.shiftLeft_eq, Nat.or_comm, Nat.mul_comm,
    ← Nat.two_pow_add_eq_or_of_lt (Nat.mod_lt _ (by decide))]
  exact Nat.div_add_mod clus (2 ^ 16)

theorem half_lt (number : Nat) : number &&& 0xFFFF < 256 ^ 2 :=
  Nat.lt_succ_of_le Nat.and_le_right

/-- A short name entry is read back, with the name that is pending. -/
theorem readEntry_dirEntry
    {short11 : ShortName}
    {attr : UInt8}
    {firstClus size : Nat}
    {e : List UInt8}
    (built : dirEntry short11 attr firstClus size = .ok e)
    {pending : List (List UInt8)}
    {long : PyStr}
    (decoded : lfnDecode pending short11.bytes = .ok long) :
    readEntry pending e =
      .ok {
        name := if long ≠ [] then long else shortToName short11.bytes
        short11 := short11.bytes
        isDir := attr &&& attrDirectory ≠ 0
        first := joinedHalves firstClus
        size := size
      } := by
  obtain ⟨name, kind, high, low, bytes, small⟩ := dirEntry_fields built
  simp only [readEntry, name, decoded, byteAt_slice kind,
    unpackFrom_slice low (by decide) (half_lt _),
    unpackFrom_slice high (by decide) (half_lt _),
    unpackFrom_slice bytes (by decide) small, bind, Except.bind]
  rfl

end ShortEntries

section LongEntries

/-- A character that long name entries can hold. -/
def PlainChar (character : CodePoint) : Prop :=
  0 < character.val ∧ character.val < 0xFFFF ∧ ¬ Surrogate character

instance : DecidablePred PlainChar :=
  fun _ => inferInstanceAs (Decidable (_ ∧ _))

/-- The UTF-16 units of characters that take one unit each. -/
def rawUnits (text : PyStr) : List UInt8 :=
  text.flatMap fun character => LittleEndian.bytes 2 character.val

theorem encodeUtf16_raw
    {text : PyStr}
    (single :
      ∀ character ∈ text,
        character.val < 0x10000 ∧ ¬ Surrogate character) :
    encodeUtf16 text = .ok (rawUnits text) := by
  induction text with
  | nil =>
      rfl
  | cons character rest inductionHypothesis =>
      obtain ⟨small, paired⟩ := single character (List.mem_cons_self ..)
      have first :
          encodeCodePoint character =
            .ok (LittleEndian.bytes 2 character.val) := by
        rw [encodeCodePoint, if_neg (show ¬ (_ ∧ _) from paired),
          if_pos small]
      have later := inductionHypothesis fun other member =>
        single other (List.mem_cons_of_mem _ member)
      simp only [encodeUtf16, first, later, bind, Except.bind]
      rfl

@[simp] theorem length_rawUnits (text : PyStr) :
    (rawUnits text).length = 2 * text.length := by
  simp [rawUnits, Nat.mul_comm]

/-- Each unit is read back. -/
theorem unitAt_rawUnits
    {text : PyStr}
    (single : ∀ character ∈ text, character.val < 0x10000)
    (i : Nat) :
    unitAt (rawUnits text) (2 * i) = text[i]? := by
  induction text generalizing i with
  | nil =>
      rfl
  | cons character rest inductionHypothesis =>
      have small := single character (List.mem_cons_self ..)
      cases i with
      | zero =>
          have joined :
              LittleEndian.value (LittleEndian.bytes 2 character.val) =
                character.val :=
            LittleEndian.value_bytes_of_lt (by omega)
          refine congrArg some (Fin.ext ?_)
          refine Eq.trans ?_ (Nat.mod_eq_of_lt character.isLt)
          exact congrArg (· % 0x110000) joined
      | succ i =>
          have later := inductionHypothesis
            (fun other member => single other (List.mem_cons_of_mem _ member))
            i
          exact later

/-- The sequence number with the mark of the last entry. -/
def ordOf (total seq : Nat) : UInt8 :=
  UInt8.ofNat ((if seq = total then 0x40 else 0) ||| seq)

/-- The fields of an entry of `lfn_entries`. -/
def lfnRows
    (name : PyStr)
    (cksum : UInt8)
    (total seq : Nat) :
    List (Nat × Nat × List UInt8) :=
  let raw := rawUnits (lfnChars name seq)
  [(0, 1, [ordOf total seq]),
    (1, 11, raw.take 10),
    (11, 12, [attrLfn]),
    (12, 13, [0]),
    (13, 14, [cksum]),
    (14, 26, (raw.drop 10).take 12),
    (26, 28, [0, 0]),
    (28, 32, (raw.drop 22).take 4)]

/-- An entry of `lfn_entries`. -/
def lfnBytes
    (name : PyStr)
    (cksum : UInt8)
    (total seq : Nat) :
    List UInt8 :=
  (lfnRows name cksum total seq).flatMap (·.2.2)

/-- What the reading side uses of a long name entry. -/
theorem lfnBytes_fields
    (name : PyStr)
    (cksum : UInt8)
    (total seq : Nat) :
    slice (lfnBytes name cksum total seq) 0 1 = [ordOf total seq] ∧
      slice (lfnBytes name cksum total seq) 11 1 = [attrLfn] ∧
      slice (lfnBytes name cksum total seq) 13 1 = [cksum] ∧
      nameFields (lfnBytes name cksum total seq) =
        rawUnits (lfnChars name seq) := by
  have length := length_rawUnits (lfnChars name seq)
  rw [length_lfnChars] at length
  have adjoining : Adjoining 0 (lfnRows name cksum total seq) := by
    simp [lfnRows, Adjoining, length]
  have held (row : Nat × Nat × List UInt8)
      (member : row ∈ lfnRows name cksum total seq) :
      slice (lfnBytes name cksum total seq) row.1 row.2.2.length =
        row.2.2 := by
    have field := @slice_adjoining _ _ [] adjoining [] _ member
    simpa [lfnBytes] using field
  have ord := held (0, 1, [ordOf total seq]) (by simp [lfnRows])
  have kind := held (11, 12, [attrLfn]) (by simp [lfnRows])
  have sum := held (13, 14, [cksum]) (by simp [lfnRows])
  have first := held (1, 11, (rawUnits (lfnChars name seq)).take 10)
    (by simp [lfnRows])
  have second :=
    held (14, 26, ((rawUnits (lfnChars name seq)).drop 10).take 12)
      (by simp [lfnRows])
  have third :=
    held (28, 32, ((rawUnits (lfnChars name seq)).drop 22).take 4)
      (by simp [lfnRows])
  generalize rawUnits (lfnChars name seq) = raw at *
  have last : (raw.drop 22).take 4 = (raw.drop 10).drop 12 := by
    rw [List.drop_drop, List.take_of_length_le]
    rw [List.length_drop]
    omega
  have firstWidth : (raw.take 10).length = 10 := by
    rw [List.length_take]
    omega
  have secondWidth : ((raw.drop 10).take 12).length = 12 := by
    rw [List.length_take, List.length_drop]
    omega
  have thirdWidth : ((raw.drop 22).take 4).length = 4 := by
    rw [List.length_take, List.length_drop]
    omega
  rw [firstWidth] at first
  rw [secondWidth] at second
  rw [thirdWidth] at third
  refine ⟨ord, kind, sum, ?_⟩
  rw [nameFields, first, second, third, last, List.append_assoc,
    List.take_append_drop, List.take_append_drop]

/-- The characters of the name in one entry. -/
def chunkOf (name : PyStr) (seq : Nat) : PyStr :=
  (name.drop ((seq - 1) * 13)).take 13

/-- What follows so many characters of the name in an entry. -/
def padding (count : Nat) : PyStr :=
  if count < 13 then 0 :: List.replicate (12 - count) 0xFFFF else []

theorem lfnChars_eq (name : PyStr) (seq : Nat) :
    lfnChars name seq =
      chunkOf name seq ++ padding (chunkOf name seq).length := by
  by_cases short : (chunkOf name seq).length < 13
  · rw [padding, if_pos short]
    exact (if_pos short).trans (List.append_assoc ..)
  · rw [padding, if_neg short, List.append_nil]
    exact if_neg short

theorem mem_padding
    {count : Nat}
    {character : CodePoint}
    (member : character ∈ padding count) :
    character = 0 ∨ character = 0xFFFF := by
  simp only [padding] at member
  split at member
  · rcases List.mem_cons.mp member with rfl | member
    · exact .inl rfl
    · exact .inr (List.eq_of_mem_replicate member)
  · cases member

/-- All characters of an entry take one unit each. -/
theorem lfnChars_single
    {name : PyStr}
    (plain : ∀ character ∈ name, PlainChar character)
    (seq : Nat) :
    ∀ character ∈ lfnChars name seq,
      character.val < 0x10000 ∧ ¬ Surrogate character := by
  intro character member
  rw [lfnChars_eq] at member
  rcases List.mem_append.mp member with inName | pad
  · obtain ⟨_, small, paired⟩ :=
      plain character (List.mem_of_mem_drop (List.mem_of_mem_take inName))
    exact ⟨by omega, paired⟩
  · rcases mem_padding pad with rfl | rfl <;> decide

/-- An entry of `lfn_entries` whose characters take one unit each. -/
theorem lfnEntry_eq_lfnBytes
    {name : PyStr}
    (plain : ∀ character ∈ name, PlainChar character)
    {cksum : UInt8}
    {total seq : Nat}
    {e : List UInt8}
    (built : lfnEntry name cksum total seq = .ok e) :
    e = lfnBytes name cksum total seq := by
  simp only [lfnEntry, encodeUtf16_raw (lfnChars_single plain seq),
    bind_eq_ok, byteOf_eq_ok] at built
  obtain ⟨raw, encoded, _, ⟨_, rfl⟩, joined⟩ := built
  obtain rfl := Except.ok.inj encoded
  rw [← Except.ok.inj joined]
  simp [lfnBytes, lfnRows, ordOf]

/-- The units of an entry are its characters. -/
theorem entryUnits_lfnBytes
    {name : PyStr}
    (plain : ∀ character ∈ name, PlainChar character)
    (cksum : UInt8)
    (total seq : Nat) :
    entryUnits (lfnBytes name cksum total seq) =
      (lfnChars name seq).map some := by
  have width := length_lfnChars name seq
  have single := lfnChars_single plain seq
  rw [entryUnits, (lfnBytes_fields name cksum total seq).2.2.2]
  apply List.ext_getElem
  · simp
  · intro i inRange inChars
    simp only [List.getElem_map, List.getElem_range]
    rw [unitAt_rawUnits fun character member => (single character member).1]
    simp

/-- The entries of a long name, the one with the highest number first. -/
theorem lfnEntriesFrom_eq_ok
    {name : PyStr}
    (plain : ∀ character ∈ name, PlainChar character)
    {cksum : UInt8}
    {total seq : Nat}
    {entries : List (List UInt8)}
    (built : lfnEntriesFrom name cksum total seq = .ok entries) :
    entries =
      ((List.range' 1 seq).map (lfnBytes name cksum total)).reverse := by
  induction seq generalizing entries with
  | zero =>
      rw [← Except.ok.inj built]
      rfl
  | succ seq inductionHypothesis =>
      simp only [lfnEntriesFrom, bind_eq_ok] at built
      obtain ⟨entry, first, later, others, joined⟩ := built
      rw [← Except.ok.inj joined, lfnEntry_eq_lfnBytes plain first,
        inductionHypothesis others, List.range'_concat]
      simp [Nat.add_comm]

/-- The sequence numbers of a name of at most 255 characters are found. -/
theorem ordOf_numbers
    {total seq : Nat}
    (positive : 0 < seq)
    (small : seq ≤ 20) :
    ordOf total seq ≠ 0x00 ∧
      ordOf total seq ≠ 0xE5 ∧
      ordOf total seq &&& 0x3F = UInt8.ofNat seq := by
  have numbers :
      ∀ seq < 21, 0 < seq → ∀ mark ∈ [0x40, 0],
        UInt8.ofNat (mark ||| seq) ≠ 0x00 ∧
          UInt8.ofNat (mark ||| seq) ≠ 0xE5 ∧
          UInt8.ofNat (mark ||| seq) &&& 0x3F = UInt8.ofNat seq := by
    decide
  apply numbers seq (by omega) positive
  split <;> simp

/-- Full entries hold the beginning of the name. -/
theorem flatMap_lfnChars_full
    {name : PyStr}
    {count : Nat}
    (full : count * 13 ≤ name.length) :
    (List.range' 1 count).flatMap (lfnChars name) =
      name.take (count * 13) := by
  induction count with
  | zero =>
      simp
  | succ count inductionHypothesis =>
      have chunk :
          chunkOf name (1 + count) = (name.drop (count * 13)).take 13 := by
        rw [chunkOf, Nat.add_sub_cancel_left]
      have width : (chunkOf name (1 + count)).length = 13 := by
        rw [chunk, List.length_take, List.length_drop]
        omega
      have none : padding 13 = [] := by decide
      rw [List.range'_concat, List.flatMap_append, Nat.one_mul,
        inductionHypothesis (by omega), List.flatMap_singleton,
        lfnChars_eq, width, none, List.append_nil, chunk, Nat.add_mul,
        Nat.one_mul, List.take_add]

/-- All entries together hold the name and padding that does not show. -/
theorem flatMap_lfnChars (name : PyStr) :
    ∃ count,
      (List.range' 1 ((name.length + 12) / 13)).flatMap (lfnChars name) =
        name ++ padding count := by
  have full := @flatMap_lfnChars_full name (name.length / 13)
    (Nat.div_mul_le_self ..)
  by_cases whole : name.length % 13 = 0
  · refine ⟨13, ?_⟩
    have none : padding 13 = [] := by decide
    rw [show (name.length + 12) / 13 = name.length / 13 by omega, full,
      List.take_of_length_le (by omega), none, List.append_nil]
  · refine ⟨name.length % 13, ?_⟩
    have last :
        chunkOf name (1 + name.length / 13) =
          name.drop (name.length / 13 * 13) := by
      rw [chunkOf, Nat.add_sub_cancel_left, List.take_of_length_le]
      rw [List.length_drop]
      omega
    have width :
        (chunkOf name (1 + name.length / 13)).length =
          name.length % 13 := by
      rw [last, List.length_drop]
      omega
    rw [show (name.length + 12) / 13 = name.length / 13 + 1 by omega,
      List.range'_concat, List.flatMap_append, full, Nat.one_mul,
      List.flatMap_singleton, lfnChars_eq, width, last,
      ← List.append_assoc, List.take_append_drop]

/-- Characters of a name are collected one by one. -/
theorem collectChars_plain
    {text : PyStr}
    (plain : ∀ character ∈ text, PlainChar character)
    {units : List (Option CodePoint)}
    {chars : PyStr}
    {ended : Bool}
    (rest : collectChars units = .ok (chars, ended)) :
    collectChars (text.map some ++ units) = .ok (text ++ chars, ended) := by
  induction text with
  | nil =>
      exact rest
  | cons character text inductionHypothesis =>
      obtain ⟨positive, small, _⟩ := plain character (List.mem_cons_self ..)
      have later := inductionHypothesis fun other member =>
        plain other (List.mem_cons_of_mem _ member)
      have notEnd : character ≠ 0xFFFF := by
        rintro rfl
        exact absurd small (by decide)
      have notNull : character ≠ 0 := by
        rintro rfl
        exact absurd positive (by decide)
      simp only [List.map_cons, List.cons_append, collectChars, if_neg notEnd,
        later, bind, Except.bind, if_pos notNull]
      rfl

/-- Padding adds no character. -/
theorem collectChars_padding (count : Nat) :
    ∃ ended, collectChars ((padding count).map some) = .ok ([], ended) := by
  rw [padding]
  split
  · cases 12 - count with
    | zero =>
        exact ⟨false, by decide⟩
    | succ more =>
        exact ⟨true, rfl⟩
  · exact ⟨false, rfl⟩

/-- Sorting by the sequence numbers undoes any order on the disk. -/
theorem mergeSort_lfnBytes
    {name : PyStr}
    (short : name.length ≤ 255)
    (cksum : UInt8)
    {pending : List (List UInt8)}
    (permuted :
      pending.Perm
        ((List.range' 1 ((name.length + 12) / 13)).map
          (lfnBytes name cksum ((name.length + 12) / 13)))) :
    pending.mergeSort (fun left right => seqOf left ≤ seqOf right) =
      (List.range' 1 ((name.length + 12) / 13)).map
        (lfnBytes name cksum ((name.length + 12) / 13)) := by
  generalize atTotal : (name.length + 12) / 13 = total at *
  have number :
      ∀ seq ∈ List.range' 1 total,
        seqOf (lfnBytes name cksum total seq) = UInt8.ofNat seq := by
    intro seq inRange
    rw [List.mem_range'_1] at inRange
    exact (ordOf_numbers (by omega) (by omega)).2.2
  have ordered :
      ∀ first ∈ List.range' 1 total, ∀ second ∈ List.range' 1 total,
        seqOf (lfnBytes name cksum total first) ≤
            seqOf (lfnBytes name cksum total second) ↔
          first ≤ second := by
    intro first inFirst second inSecond
    rw [number first inFirst, number second inSecond]
    rw [List.mem_range'_1] at inFirst inSecond
    rw [UInt8.le_iff_toNat_le]
    change first % 256 ≤ second % 256 ↔ _
    rw [Nat.mod_eq_of_lt (by omega), Nat.mod_eq_of_lt (by omega)]
  apply @List.Perm.eq_of_pairwise _
    fun left right => seqOf left ≤ seqOf right
  · intro left right inLeft inRight below above
    rw [List.mem_mergeSort, permuted.mem_iff] at inLeft
    obtain ⟨first, inFirst, rfl⟩ := List.mem_map.mp inLeft
    obtain ⟨second, inSecond, rfl⟩ := List.mem_map.mp inRight
    have atMost := (ordered first inFirst second inSecond).mp below
    have atLeast := (ordered second inSecond first inFirst).mp above
    rw [Nat.le_antisymm atMost atLeast]
  · have sorted := @List.pairwise_mergeSort _
      (fun left right => decide (seqOf left ≤ seqOf right))
      (by intro _ _ _; simpa using UInt8.le_trans)
      (by intro _ _; simpa using UInt8.le_total _ _)
      pending
    exact sorted.imp fun below => by simpa using below
  · rw [List.pairwise_map]
    exact (List.pairwise_lt_range' ..).imp_of_mem
      fun inFirst inSecond below =>
        (ordered _ inFirst _ inSecond).mpr (Nat.le_of_lt below)
  · exact (List.mergeSort_perm _ _).trans permuted

/-- Without entries there is no long name. -/
theorem lfnDecode_nil (short11 : List UInt8) :
    lfnDecode [] short11 = .ok [] := by
  simp only [lfnDecode, List.mergeSort_nil]
  rfl

/-- A long name is decoded from its entries, whatever their order. -/
theorem lfnDecode_lfnEntries
    {name : PyStr}
    (plain : ∀ character ∈ name, PlainChar character)
    (some : name ≠ [])
    (short : name.length ≤ 255)
    {short11 : ShortName}
    {entries : List (List UInt8)}
    (built : lfnEntries name short11 = .ok entries)
    {pending : List (List UInt8)}
    (permuted : pending.Perm entries) :
    lfnDecode pending short11.bytes = .ok name := by
  have disk := lfnEntriesFrom_eq_ok plain built
  have positive := List.length_pos_iff.mpr some
  rw [disk] at permuted
  have sorted := mergeSort_lfnBytes short (lfnChecksum short11.bytes)
    (permuted.trans (List.reverse_perm _))
  have units :
      ((List.range' 1 ((name.length + 12) / 13)).map
          (lfnBytes name (lfnChecksum short11.bytes)
            ((name.length + 12) / 13))).flatMap entryUnits =
        ((List.range' 1 ((name.length + 12) / 13)).flatMap
          (lfnChars name)).map Option.some := by
    rw [List.flatMap_map, List.map_flatMap]
    simp only [entryUnits_lfnBytes plain]
  obtain ⟨count, chars⟩ := flatMap_lfnChars name
  obtain ⟨ended, padded⟩ := collectChars_padding count
  have collected := collectChars_plain plain padded
  rw [List.append_nil] at collected
  have first :
      ((List.range' 1 ((name.length + 12) / 13)).map
          (lfnBytes name (lfnChecksum short11.bytes)
            ((name.length + 12) / 13))).head?.bind (·[13]?) =
        Option.some (lfnChecksum short11.bytes) := by
    obtain ⟨more, total⟩ : ∃ more, (name.length + 12) / 13 = more + 1 :=
      ⟨(name.length + 12) / 13 - 1, by omega⟩
    rw [total, List.range'_succ, List.map_cons, List.head?_cons,
      Option.bind_some]
    exact getElem?_of_slice (lfnBytes_fields ..).2.2.1
  simp only [lfnDecode, sorted, units, chars, List.map_append, collected,
    bind, Except.bind, first, some, ne_eq, not_false_eq_true, and_self,
    ↓reduceIte]
  split <;> rfl

end LongEntries

section ShortNames

/-- A byte of an ASCII character other than U+0000. -/
def AsciiByte (byte : UInt8) : Prop :=
  byte ≠ 0 ∧ byte < 128

instance : DecidablePred AsciiByte :=
  fun _ => inferInstanceAs (Decidable (_ ∧ _))

theorem asciiByte_of_all
    {bytes : List UInt8}
    (all : bytes.all (fun byte => decide (AsciiByte byte)) = true) :
    ∀ byte ∈ bytes, AsciiByte byte :=
  fun byte member => of_decide_eq_true (List.all_eq_true.mp all byte member)

theorem asciiByte_ofNat
    {number : Nat}
    (positive : 0 < number)
    (small : number < 128) :
    AsciiByte (UInt8.ofNat number) := by
  have bytes :
      ∀ number < 128, 0 < number → AsciiByte (UInt8.ofNat number) := by
    decide
  exact bytes number small positive

variable {Good : UInt8 → Prop}

theorem forall_ljust
    {text : List UInt8}
    (good : ∀ byte ∈ text, Good byte)
    (width : Nat)
    {fill : UInt8}
    (goodFill : Good fill) :
    ∀ byte ∈ ljust text width fill, Good byte := by
  intro byte member
  rcases List.mem_append.mp member with own | filled
  · exact good byte own
  · rwa [List.eq_of_mem_replicate filled]

theorem forall_ofFields
    {base ext : List UInt8}
    (goodBase : ∀ byte ∈ base, Good byte)
    (goodExt : ∀ byte ∈ ext, Good byte)
    (space : Good 0x20)
    (baseFits : base.length ≤ 8)
    (extFits : ext.length ≤ 3) :
    ∀ byte ∈ (ShortName.ofFields base ext baseFits extFits).bytes,
      Good byte := by
  intro byte member
  rcases List.mem_append.mp member with inBase | inExt
  · exact forall_ljust goodBase 8 space byte inBase
  · exact forall_ljust goodExt 3 space byte inExt

/-- What holds of the printable characters, which the code adds to a name. -/
def Printable (Good : UInt8 → Prop) : Prop :=
  ∀ number, 0x20 ≤ number → number < 0x80 → Good (UInt8.ofNat number)

theorem forall_tildeName
    {stem ext : List UInt8}
    (goodStem : ∀ byte ∈ stem, Good byte)
    (goodExt : ∀ byte ∈ ext, Good byte)
    (printable : Printable Good)
    (number : Nat) :
    ∀ byte ∈ (tildeName stem ext number).bytes, Good byte := by
  refine forall_ofFields ?_
    (fun byte member => goodExt byte (List.mem_of_mem_take member))
    (printable 0x20 (by decide) (by decide)) _ _
  intro byte member
  have listed := List.mem_of_mem_take member
  simp only [List.mem_append, List.mem_singleton, List.mem_map] at listed
  rcases listed with (inStem | rfl) | ⟨digit, inDigits, rfl⟩
  · exact goodStem byte (List.mem_of_mem_take inStem)
  · exact printable 0x7E (by decide) (by decide)
  · have small := Decimal.digit_lt inDigits
    exact printable _ (by omega) (by omega)

/-- Base name and extension have characters of the name only. -/
theorem mem_splitName
    {name : PyStr}
    {character : CodePoint}
    (member :
      character ∈ (splitName name).1 ∨ character ∈ (splitName name).2) :
    character ∈ name := by
  simp only [splitName] at member
  split at member
  · simp only [List.mem_reverse] at member
    rcases member with inBase | inExt
    · exact List.mem_reverse.mp
        ((List.dropWhile_sublist _).subset (List.mem_of_mem_drop inBase))
    · exact List.mem_reverse.mp
        ((List.takeWhile_sublist _).subset inExt)
  · simpa using member

/-- A short name has printable characters and those kept from the name. -/
theorem forall_shortName
    {name : PyStr}
    (goodBase : ∀ byte ∈ asciiUpper (splitName name).1, Good byte)
    (goodExt : ∀ byte ∈ asciiUpper (splitName name).2, Good byte)
    (printable : Printable Good)
    {taken : List ShortName}
    {s11 : ShortName}
    (named : shortName name taken = .ok s11) :
    ∀ byte ∈ s11.bytes, Good byte := by
  have goodStem (ascii : Prop) [Decidable ascii] :
      ∀ byte ∈
        ljust
          ((if ascii then asciiUpper (splitName name).1
            else byteString "GUNAME").take 6) 3 0x5F,
        Good byte := by
    refine forall_ljust ?_ 3 (printable 0x5F (by decide) (by decide))
    intro byte member
    have listed := List.mem_of_mem_take member
    split at listed
    · exact goodBase byte listed
    · have letters :
          (byteString "GUNAME").all fun byte =>
            decide (0x20 ≤ byte.toNat ∧ byte.toNat < 0x80) := by
        decide
      obtain ⟨atLeast, below⟩ :=
        of_decide_eq_true (List.all_eq_true.mp letters byte listed)
      have kept := printable byte.toNat atLeast below
      rwa [UInt8.ofNat_toNat] at kept
  simp only [shortName] at named
  split at named
  · rename_i short plainName
    obtain rfl := Except.ok.inj named
    obtain ⟨chosen, _⟩ := Option.filter_eq_some_iff.mp plainName
    split at chosen
    · obtain rfl := Option.some.inj chosen
      exact forall_ofFields goodBase goodExt
        (printable 0x20 (by decide) (by decide)) _ _
    · cases chosen
  · split at named
    · rename_i short found
      obtain rfl := Except.ok.inj named
      obtain ⟨index, _, rfl⟩ :=
        List.mem_map.mp (List.mem_of_find?_eq_some found)
      exact forall_tildeName (goodStem _) goodExt printable _
    · cases named

/-- A byte that is kept from a name is the character in upper case. -/
theorem mem_asciiUpper
    {text : PyStr}
    {byte : UInt8}
    (member : byte ∈ asciiUpper text) :
    ∃ character ∈ text, ∃ number,
      number < 128 ∧ (0 < character.val → 0 < number) ∧
        byte = UInt8.ofNat number := by
  obtain ⟨character, kept, rfl⟩ := List.mem_map.mp member
  obtain ⟨inText, ascii⟩ := List.mem_filter.mp kept
  have small : character.val < 128 := by simpa using ascii
  refine ⟨character, inText, _, ?_, ?_, rfl⟩
  · split <;> omega
  · split <;> omega

/-- A short name has ASCII characters only. -/
theorem asciiByte_shortName
    {name : PyStr}
    (plain : ∀ character ∈ name, PlainChar character)
    {taken : List ShortName}
    {s11 : ShortName}
    (named : shortName name taken = .ok s11) :
    ∀ byte ∈ s11.bytes, AsciiByte byte := by
  have kept {text : PyStr} (part : ∀ character ∈ text, character ∈ name) :
      ∀ byte ∈ asciiUpper text, AsciiByte byte := by
    intro byte member
    obtain ⟨character, inText, number, small, positive, rfl⟩ :=
      mem_asciiUpper member
    exact asciiByte_ofNat
      (positive (plain character (part character inText)).1) small
  exact forall_shortName
    (kept fun character member => mem_splitName (.inl member))
    (kept fun character member => mem_splitName (.inr member))
    (fun number atLeast small => asciiByte_ofNat (by omega) small) named

end ShortNames

section Scanning

theorem scanEntries_append
    {pieces more pending left right : List (List UInt8)}
    {entries later : List DirEntry}
    {done : Bool}
    (first : scanEntries pieces pending = .ok (entries, left, false))
    (second : scanEntries more left = .ok (later, right, done)) :
    scanEntries (pieces ++ more) pending =
      .ok (entries ++ later, right, done) := by
  induction pieces generalizing pending entries with
  | nil =>
      obtain ⟨rfl, rest⟩ := Prod.mk.inj (Except.ok.inj first)
      obtain ⟨rfl, _⟩ := Prod.mk.inj rest
      exact second
  | cons e rest inductionHypothesis =>
      simp only [scanEntries, List.cons_append, bind_eq_ok] at first ⊢
      obtain ⟨scanned, step, first⟩ := first
      refine ⟨scanned, step, ?_⟩
      cases scanned with
      | done =>
          cases first
      | pending pending =>
          exact inductionHypothesis first
      | found entry =>
          simp only [bind_eq_ok] at first ⊢
          obtain ⟨⟨others, _, _⟩, scanned, joined⟩ := first
          obtain ⟨rfl, same⟩ := Prod.mk.inj (Except.ok.inj joined)
          obtain ⟨rfl, rfl⟩ := Prod.mk.inj same
          exact ⟨_, inductionHypothesis scanned, rfl⟩

/-- A scan that does not meet the end can be cut anywhere. -/
theorem scanEntries_split
    {pieces more pending right : List (List UInt8)}
    {entries : List DirEntry}
    (scanned :
      scanEntries (pieces ++ more) pending = .ok (entries, right, false)) :
    ∃ front left back,
      scanEntries pieces pending = .ok (front, left, false) ∧
        scanEntries more left = .ok (back, right, false) ∧
        entries = front ++ back := by
  induction pieces generalizing pending entries with
  | nil =>
      exact ⟨[], pending, entries, rfl, scanned, rfl⟩
  | cons e rest inductionHypothesis =>
      simp only [scanEntries, List.cons_append, bind_eq_ok] at scanned ⊢
      obtain ⟨result, step, scanned⟩ := scanned
      cases result with
      | done =>
          cases scanned
      | pending pending =>
          obtain ⟨front, left, back, first, second, joined⟩ :=
            inductionHypothesis scanned
          exact ⟨front, left, back, ⟨_, step, first⟩, second, joined⟩
      | found entry =>
          simp only [bind_eq_ok] at scanned
          obtain ⟨⟨others, _, _⟩, rest, joined⟩ := scanned
          obtain ⟨rfl, same⟩ := Prod.mk.inj (Except.ok.inj joined)
          obtain ⟨rfl, rfl⟩ := Prod.mk.inj same
          obtain ⟨front, left, back, first, second, rfl⟩ :=
            inductionHypothesis rest
          refine ⟨entry :: front, left, back, ⟨_, step, ?_⟩, second, rfl⟩
          simp only [bind_eq_ok]
          exact ⟨_, first, rfl⟩

/-- An entry that is neither the end nor deleted, by its first bytes. -/
theorem scanEntry_live
    {e : List UInt8}
    {b0 attr : UInt8}
    (begins : byteAt e 0 = .ok b0)
    (kind : byteAt e 11 = .ok attr)
    (notEnd : b0 ≠ 0x00)
    (kept : b0 ≠ 0xE5)
    (pending : List (List UInt8)) :
    scanEntry pending e =
      if attr = attrLfn then
        .ok (.pending (pending ++ [e]))
      else
        readEntry pending e >>= fun entry => .ok (.found entry) := by
  simp only [scanEntry, begins, kind, bind, Except.bind, notEnd, kept,
    ↓reduceIte]
  rfl

/-- Long name entries are collected. -/
theorem scanEntries_long
    {name : PyStr}
    {cksum : UInt8}
    {total : Nat}
    (small : total ≤ 20)
    {seqs : List Nat}
    (numbers : ∀ seq ∈ seqs, 0 < seq ∧ seq ≤ total)
    (pending : List (List UInt8)) :
    scanEntries (seqs.map (lfnBytes name cksum total)) pending =
      .ok ([], pending ++ seqs.map (lfnBytes name cksum total), false) := by
  induction seqs generalizing pending with
  | nil =>
      simp [scanEntries]
  | cons seq rest inductionHypothesis =>
      obtain ⟨positive, within⟩ := numbers seq (List.mem_cons_self ..)
      obtain ⟨ord, kind, _, _⟩ := lfnBytes_fields name cksum total seq
      obtain ⟨notEnd, kept, _⟩ :=
        @ordOf_numbers total seq positive (Nat.le_trans within small)
      have later := inductionHypothesis
        (fun other member => numbers other (List.mem_cons_of_mem _ member))
        (pending ++ [lfnBytes name cksum total seq])
      rw [List.append_assoc] at later
      simp only [List.map_cons, scanEntries,
        scanEntry_live (byteAt_slice ord) (byteAt_slice kind) notEnd kept,
        ↓reduceIte, bind, Except.bind]
      exact later

/-- What a name must be so that the image gives it back. -/
structure NameOk (name : PyStr) : Prop where
  some :
    name ≠ []
  short :
    name.length ≤ 255
  plain :
    ∀ character ∈ name, PlainChar character
  notDot :
    name ≠ [fullStop]
  notDotDot :
    name ≠ [fullStop, fullStop]

/-- The short name entry behind the pending entries is a child. -/
theorem scanEntries_short
    {s11 : ShortName}
    {attr : UInt8}
    (ordinary : attr = attrDirectory ∨ attr = attrArchive)
    (ascii : ∀ byte ∈ s11.bytes, AsciiByte byte)
    {first size : Nat}
    {e : List UInt8}
    (built : dirEntry s11 attr first size = .ok e)
    {pending : List (List UInt8)}
    {long : PyStr}
    (decoded : lfnDecode pending s11.bytes = .ok long) :
    scanEntries [e] pending =
      .ok ([⟨if long ≠ [] then long else shortToName s11.bytes, s11.bytes,
        attr = attrDirectory, joinedHalves first, size⟩], [], false) := by
  obtain ⟨name, kind, _⟩ := dirEntry_fields built
  obtain ⟨b0, rest, bytes⟩ : ∃ b0 rest, s11.bytes = b0 :: rest :=
    List.exists_cons_of_length_pos (by rw [s11.length_eq]; decide)
  obtain ⟨notEnd, small⟩ := ascii b0 (by rw [bytes]; exact List.mem_cons_self)
  have begins : byteAt e 0 = .ok b0 := by
    have same := @getElem?_slice _ e 0 11 0 (by decide)
    rw [name, bytes] at same
    rw [byteAt, ← same]
    rfl
  have kept : b0 ≠ 0xE5 := by
    rintro rfl
    exact absurd small (by decide)
  have short : attr ≠ attrLfn := by
    rcases ordinary with rfl | rfl <;> decide
  have isDir :
      decide (attr &&& attrDirectory ≠ 0) =
        decide (attr = attrDirectory) := by
    rcases ordinary with rfl | rfl <;> decide
  simp only [scanEntries, scanEntry_live begins (byteAt_slice kind) notEnd
    kept, if_neg short, readEntry_dirEntry built decoded, bind,
    Except.bind, isDir]
  rfl

/-- The entries of a child are read back as the child. -/
theorem scanEntries_childEntries
    {name : PyStr}
    (nameOk : NameOk name)
    {s11 : ShortName}
    (ascii : ∀ byte ∈ s11.bytes, AsciiByte byte)
    {attr : UInt8}
    (ordinary : attr = attrDirectory ∨ attr = attrArchive)
    {first size : Nat}
    (fits : first < 256 ^ 4)
    {entries : List (List UInt8)}
    (built : childEntries name s11 attr first size = .ok entries) :
    scanEntries entries [] =
      .ok ([⟨name, s11.bytes, attr = attrDirectory, first, size⟩], [],
        false) := by
  simp only [childEntries, bind_eq_ok] at built
  obtain ⟨long, longBuilt, short, shortBuilt, joined⟩ := built
  obtain rfl := Except.ok.inj joined
  simp only [longEntries] at longBuilt
  split at longBuilt
  case isTrue different =>
    have decoded := lfnDecode_lfnEntries nameOk.plain nameOk.some
      nameOk.short longBuilt (.refl _)
    have disk := lfnEntriesFrom_eq_ok nameOk.plain longBuilt
    have few := nameOk.short
    have collected := @scanEntries_long name (lfnChecksum s11.bytes)
      ((name.length + 12) / 13) (by omega)
      (List.range' 1 ((name.length + 12) / 13)).reverse
      (by
        intro seq inRange
        rw [List.mem_reverse, List.mem_range'_1] at inRange
        omega)
      []
    rw [List.map_reverse, ← disk, List.nil_append] at collected
    have found := scanEntries_short ordinary ascii shortBuilt decoded
    rw [if_pos nameOk.some, joinedHalves_of_lt fits] at found
    exact scanEntries_append collected found
  case isFalse same =>
    obtain rfl := Except.ok.inj longBuilt
    have found := scanEntries_short ordinary ascii shortBuilt
      (lfnDecode_nil s11.bytes)
    rw [if_neg (by simp), ← not_not.mp same,
      joinedHalves_of_lt fits] at found
    exact found

/-- The children of a directory, as the reading side lists them. -/
def Nodes.listed : Nodes → List ShortName → List DirEntry
  | .nil, _ =>
      []
  | .file name content firstClus rest, taken =>
      match shortName name taken with
      | .ok s11 =>
          ⟨name, s11.bytes, false,
              if content.length ≠ 0 then firstClus else 0,
              content.length⟩ ::
            rest.listed (s11 :: taken)
      | .error _ =>
          []
  | .dir name _ firstClus _ _ rest, taken =>
      match shortName name taken with
      | .ok s11 =>
          ⟨name, s11.bytes, true, firstClus, 0⟩ :: rest.listed (s11 :: taken)
      | .error _ =>
          []

/-- All names of the tree can be given back. -/
def Nodes.NamesOk : Nodes → Prop
  | .nil =>
      True
  | .file name _ _ rest =>
      NameOk name ∧ rest.NamesOk
  | .dir name _ _ _ children rest =>
      NameOk name ∧ children.NamesOk ∧ rest.NamesOk

/-- The cluster numbers of the children of one directory fit their fields. -/
def Nodes.Numbered : Nodes → Prop
  | .nil =>
      True
  | .file _ _ firstClus rest =>
      firstClus < 256 ^ 4 ∧ rest.Numbered
  | .dir _ _ firstClus _ _ rest =>
      firstClus < 256 ^ 4 ∧ rest.Numbered

/-- The entries of a directory are read back as its children. -/
theorem scanEntries_nodeEntries
    {nodes : Nodes}
    (namesOk : nodes.NamesOk)
    (numbered : nodes.Numbered)
    {taken : List ShortName}
    {entries : List (List UInt8)}
    (built : nodeEntries nodes taken = .ok entries) :
    scanEntries entries [] = .ok (nodes.listed taken, [], false) := by
  induction nodes generalizing taken entries with
  | nil =>
      obtain rfl := Except.ok.inj built
      rfl
  | file name content firstClus rest restIH =>
      simp only [nodeEntries, bind_eq_ok] at built
      obtain ⟨s11, named, own, ownBuilt, later, laterBuilt, joined⟩ := built
      obtain rfl := Except.ok.inj joined
      have ascii := asciiByte_shortName namesOk.1.plain named
      have first := scanEntries_childEntries namesOk.1 ascii (.inr rfl)
        (by split; exacts [numbered.1, by decide]) ownBuilt
      have others := restIH namesOk.2 numbered.2 laterBuilt
      simp only [Nodes.listed, named]
      exact scanEntries_append first others
  | dir name parentClus firstClus dirN children rest _ restIH =>
      simp only [nodeEntries, bind_eq_ok] at built
      obtain ⟨s11, named, own, ownBuilt, later, laterBuilt, joined⟩ := built
      obtain rfl := Except.ok.inj joined
      have ascii := asciiByte_shortName namesOk.1.plain named
      have first := scanEntries_childEntries namesOk.1 ascii (.inl rfl)
        numbered.1 ownBuilt
      have others := restIH namesOk.2.2 numbered.2 laterBuilt
      simp only [Nodes.listed, named]
      exact scanEntries_append first others

/-- The dot entries are read back, and they are no children. -/
theorem scanEntries_dotEntries
    {parentClus firstClus : Nat}
    {entries : List (List UInt8)}
    (built : dotEntries parentClus firstClus = .ok entries) :
    ∃ dots,
      scanEntries entries [] = .ok (dots, [], false) ∧
        childrenOf dots = [] := by
  simp only [dotEntries] at built
  split at built
  case isTrue =>
    simp only [bind_eq_ok] at built
    obtain ⟨dot, dotBuilt, dotDot, dotDotBuilt, joined⟩ := built
    obtain rfl := Except.ok.inj joined
    have first := scanEntries_short (.inl rfl)
      (asciiByte_of_all (by decide)) dotBuilt
      (lfnDecode_nil _)
    have second := scanEntries_short (.inl rfl)
      (asciiByte_of_all (by decide)) dotDotBuilt
      (lfnDecode_nil _)
    have dotName : shortToName ShortName.dot.bytes = [fullStop] := by
      decide
    have dotDotName :
        shortToName ShortName.dotDot.bytes = [fullStop, fullStop] := by
      decide
    refine ⟨_, scanEntries_append first second, ?_⟩
    simp [childrenOf, dotName, dotDotName]
  case isFalse =>
    obtain rfl := Except.ok.inj built
    exact ⟨[], rfl, rfl⟩

theorem childrenOf_append (entries later : List DirEntry) :
    childrenOf (entries ++ later) = childrenOf entries ++ childrenOf later :=
  List.filter_append ..

/-- No child is taken for a dot entry. -/
theorem childrenOf_listed
    {nodes : Nodes}
    (namesOk : nodes.NamesOk)
    (taken : List ShortName) :
    childrenOf (nodes.listed taken) = nodes.listed taken := by
  have names :
      ∀ entry ∈ nodes.listed taken,
        entry.name ≠ [fullStop] ∧ entry.name ≠ [fullStop, fullStop] := by
    induction nodes generalizing taken with
    | nil =>
        simp [Nodes.listed]
    | file name content firstClus rest restIH =>
        cases named : shortName name taken with
        | error problem =>
            simp [Nodes.listed, named]
        | ok s11 =>
            simp only [Nodes.listed, named, List.forall_mem_cons]
            exact ⟨⟨namesOk.1.notDot, namesOk.1.notDotDot⟩,
              restIH namesOk.2 _⟩
    | dir name parentClus firstClus dirN children rest _ restIH =>
        cases named : shortName name taken with
        | error problem =>
            simp [Nodes.listed, named]
        | ok s11 =>
            simp only [Nodes.listed, named, List.forall_mem_cons]
            exact ⟨⟨namesOk.1.notDot, namesOk.1.notDotDot⟩,
              restIH namesOk.2.2 _⟩
  rw [childrenOf, List.filter_eq_self]
  intro entry member
  simpa using names entry member

end Scanning

end UefiMount.MkFatImg
