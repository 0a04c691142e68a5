import UefiMount.FatClusterPartition
import UefiMount.FatEntryDecoding

namespace UefiMount.MkFatImg

open ByteBuffer

/-!
# Long names

What `lfn_decode` gives back for the entries that `lfn_entries` writes, and
for entries that something else has left in a directory.  A character beyond
U+FFFF takes two UTF-16 units, so the entries of a name with such characters
have no room for all of it, and the decoder takes the unit 0xFFFF for the end
of the name before it looks at any checksum.
-/

section Collected

/-- A unit has two bytes. -/
theorem unitAt_lt
    {raw : List UInt8}
    {i : Nat}
    {unit : CodePoint}
    (found : unitAt raw i = some unit) :
    unit.val < 0x10000 := by
  simp only [unitAt] at found
  split at found
  · rename_i low high _ _
    obtain rfl := Option.some.inj found
    have small := LittleEndian.value_lt [low, high]
    simp only [List.length_cons, List.length_nil] at small
    exact Nat.lt_of_le_of_lt (Nat.mod_le _ _) small
  · cases found

/-- Only units other than U+0000 and 0xFFFF are collected. -/
theorem mem_collectChars
    {units : List (Option CodePoint)}
    {chars : PyStr}
    {ended : Bool}
    (collected : collectChars units = .ok (chars, ended))
    {character : CodePoint}
    (member : character ∈ chars) :
    some character ∈ units ∧ character ≠ 0xFFFF := by
  induction units generalizing chars ended with
  | nil =>
      obtain ⟨rfl, _⟩ := Prod.mk.inj (Except.ok.inj collected)
      cases member
  | cons unit rest inductionHypothesis =>
      cases unit with
      | none =>
          cases collected
      | some unit =>
          simp only [collectChars] at collected
          split at collected
          case isTrue =>
            obtain ⟨rfl, _⟩ := Prod.mk.inj (Except.ok.inj collected)
            cases member
          case isFalse notEnd =>
            obtain ⟨⟨later, _⟩, others, joined⟩ := bind_eq_ok.mp collected
            obtain ⟨rfl, rfl⟩ := Prod.mk.inj (Except.ok.inj joined)
            have inRest (inLater : character ∈ later) :
                some character ∈ some unit :: rest ∧ character ≠ 0xFFFF := by
              obtain ⟨listed, different⟩ :=
                inductionHypothesis others inLater
              exact ⟨List.mem_cons_of_mem _ listed, different⟩
            split at member
            · rcases List.mem_cons.mp member with rfl | inLater
              · exact ⟨List.mem_cons_self .., notEnd⟩
              · exact inRest inLater
            · exact inRest member

/-- A decoded name has characters below U+FFFF only. -/
theorem lfnDecode_lt
    {pending : List (List UInt8)}
    {short11 : List UInt8}
    {name : PyStr}
    (decoded : lfnDecode pending short11 = .ok name) :
    ∀ character ∈ name, character.val < 0xFFFF := by
  simp only [lfnDecode, bind_eq_ok] at decoded
  obtain ⟨⟨chars, ended⟩, collected, result⟩ := decoded
  have below : ∀ character ∈ chars, character.val < 0xFFFF := by
    intro character member
    obtain ⟨listed, different⟩ := mem_collectChars collected member
    obtain ⟨e, _, inEntry⟩ := List.mem_flatMap.mp listed
    obtain ⟨i, _, found⟩ := List.mem_map.mp inEntry
    have small := unitAt_lt found
    have notLast : character.val ≠ 0xFFFF := fun last =>
      different (Fin.ext last)
    omega
  split at result
  · rwa [← Except.ok.inj result]
  · split at result
    · rwa [← Except.ok.inj result]
    · rw [← Except.ok.inj result]
      simp

end Collected

section Survival

/-- Where the header fields of an entry of `lfn_entries` are. -/
theorem lfnEntry_header
    {name : PyStr}
    {cksum : UInt8}
    {total seq : Nat}
    {entry : List UInt8}
    (built : lfnEntry name cksum total seq = .ok entry) :
    entry[0]? = some (ordOf total seq) ∧
      entry[11]? = some attrLfn ∧
      entry[13]? = some cksum := by
  simp only [lfnEntry, bind_eq_ok, byteOf_eq_ok] at built
  obtain ⟨raw, encoded, _, ⟨_, rfl⟩, joined⟩ := built
  have long := length_encodeUtf16 encoded
  rw [length_lfnChars] at long
  have front : (raw.take 10).length = 10 := by
    rw [List.length_take]
    omega
  obtain rfl := Except.ok.inj joined
  simp [ordOf, front, List.getElem?_append]

/-- The entry at each place has the sequence number that falls to it. -/
theorem lfnEntriesFrom_getElem?
    {name : PyStr}
    {cksum : UInt8}
    {total seq : Nat}
    {entries : List (List UInt8)}
    (built : lfnEntriesFrom name cksum total seq = .ok entries) :
    entries.length = seq ∧
      ∀ index entry, entries[index]? = some entry →
        lfnEntry name cksum total (seq - index) = .ok entry := by
  induction seq generalizing entries with
  | zero =>
      obtain rfl := Except.ok.inj built
      simp
  | succ seq inductionHypothesis =>
      simp only [lfnEntriesFrom, bind_eq_ok] at built
      obtain ⟨first, firstBuilt, later, laterBuilt, joined⟩ := built
      obtain rfl := Except.ok.inj joined
      obtain ⟨length, others⟩ := inductionHypothesis laterBuilt
      refine ⟨congrArg (· + 1) length, ?_⟩
      intro index entry found
      cases index with
      | zero =>
          obtain rfl := Option.some.inj found
          exact firstBuilt
      | succ index =>
          rw [Nat.add_sub_add_right]
          exact others index entry found

/-- How many UTF-16 units a name takes. -/
def utf16Length (name : PyStr) : Nat :=
  (name.map fun character => if character.val < 0x10000 then 1 else 2).sum

theorem length_le_utf16Length (name : PyStr) :
    name.length ≤ utf16Length name := by
  induction name with
  | nil =>
      exact Nat.le_refl _
  | cons character rest inductionHypothesis =>
      simp only [utf16Length, List.map_cons, List.sum_cons,
        List.length_cons] at *
      split <;> omega

/-- The entries keep the name: their headers are right, and it is decoded. -/
structure KeepsLongName
    (name : PyStr)
    (short11 : ShortName)
    (entries : List (List UInt8)) : Prop where
  /-- From the number of entries down to 1, with the mark on the first. -/
  ordinals :
    ∀ index entry, entries[index]? = some entry →
      entry[0]? = some (ordOf entries.length (entries.length - index))
  widths :
    ∀ entry ∈ entries, entry.length = 32
  attributes :
    ∀ entry ∈ entries, entry[11]? = some 0x0F
  checksums :
    ∀ entry ∈ entries, entry[13]? = some (lfnChecksum short11.bytes)
  decoded :
    ∀ pending, pending.Perm entries →
      lfnDecode pending short11.bytes = .ok name

/-- Entries are written for every name without surrogates. -/
theorem lfnEntries_scalar
    {name : PyStr}
    (scalar : ∀ character ∈ name, ¬ Surrogate character)
    (short : name.length ≤ 255)
    (short11 : ShortName) :
    ∃ entries, lfnEntries name short11 = .ok entries := by
  cases built : lfnEntries name short11 with
  | ok entries =>
      exact ⟨entries, rfl⟩
  | error problem =>
      rcases lfnEntriesFrom_error built with
        ⟨_, character, member, surrogate⟩ | ⟨_, large⟩
      · exact absurd surrogate (scalar character member)
      · omega

/-- The headers are right, whatever the characters. -/
theorem lfnEntries_headers
    {name : PyStr}
    {short11 : ShortName}
    {entries : List (List UInt8)}
    (built : lfnEntries name short11 = .ok entries) :
    ∀ index entry, entries[index]? = some entry →
      entry.length = 32 ∧
        entry[0]? = some (ordOf entries.length (entries.length - index)) ∧
        entry[11]? = some attrLfn ∧
        entry[13]? = some (lfnChecksum short11.bytes) := by
  obtain ⟨length, each⟩ := lfnEntriesFrom_getElem? built
  intro index entry found
  rw [length]
  exact ⟨length_lfnEntry (each index entry found),
    lfnEntry_header (each index entry found)⟩

/--
A long name survives if and only if each of its characters lies below U+FFFF:
a character of a higher plane does not fit its entry, and U+FFFF ends the name.
-/
theorem keepsLongName_iff
    {name : PyStr}
    (scalar :
      ∀ character ∈ name, character ≠ 0 ∧ ¬ Surrogate character)
    (positive : 1 ≤ utf16Length name)
    (short : utf16Length name ≤ 255)
    (short11 : ShortName) :
    (∃ entries,
      lfnEntries name short11 = .ok entries ∧
        KeepsLongName name short11 entries) ↔
      ∀ character ∈ name, character.val < 0xFFFF := by
  constructor
  · rintro ⟨entries, _, keeps⟩
    exact lfnDecode_lt (keeps.decoded entries (.refl _))
  · intro below
    have fewer := length_le_utf16Length name
    obtain ⟨entries, built⟩ := lfnEntries_scalar
      (fun character member => (scalar character member).2)
      (Nat.le_trans fewer short) short11
    have plain : ∀ character ∈ name, PlainChar character := by
      intro character member
      obtain ⟨notNull, paired⟩ := scalar character member
      refine ⟨Nat.pos_of_ne_zero fun null => notNull (Fin.ext null), ?_, ?_⟩
      · exact below character member
      · exact paired
    have nonempty : name ≠ [] := by
      rintro rfl
      cases positive
    have headers := lfnEntries_headers built
    have each {property : List UInt8 → Prop}
        (holds :
          ∀ (index : Nat) (entry : List UInt8),
            entries[index]? = some entry → property entry) :
        ∀ entry ∈ entries, property entry := by
      intro entry member
      obtain ⟨index, found⟩ := List.getElem?_of_mem member
      exact holds index entry found
    exact ⟨entries, built, {
      ordinals := fun index entry found => (headers index entry found).2.1
      widths := each fun index entry found => (headers index entry found).1
      attributes :=
        each fun index entry found => (headers index entry found).2.2.1
      checksums :=
        each fun index entry found => (headers index entry found).2.2.2
      decoded := fun pending permuted =>
        lfnDecode_lfnEntries plain nonempty (Nat.le_trans fewer short) built
          permuted
    }⟩

theorem keepsLongName_iff_chinese :
    ∃ entries,
      lfnEntries [0x4E2D, 0x6587] (tildeName (byteString "GUNAME") [] 1) =
          .ok entries ∧
        KeepsLongName [0x4E2D, 0x6587]
          (tildeName (byteString "GUNAME") [] 1) entries :=
  (@keepsLongName_iff [0x4E2D, 0x6587]
    (List.forall_mem_cons.mpr
      ⟨by decide, List.forall_mem_singleton.mpr (by decide)⟩)
    (by decide) (by decide) (tildeName (byteString "GUNAME") [] 1)).mpr
    (List.forall_mem_cons.mpr
      ⟨by decide, List.forall_mem_singleton.mpr (by decide)⟩)

/-- U+1F600 is a name of two units, and it is not given back. -/
theorem keepsLongName_emoji :
    (∀ character ∈ ([0x1F600] : PyStr),
      character ≠ 0 ∧ ¬ Surrogate character) ∧
      utf16Length [0x1F600] = 2 ∧
      ¬ ∃ entries,
        lfnEntries [0x1F600] (tildeName (byteString "GUNAME") [] 1) =
            .ok entries ∧
          KeepsLongName [0x1F600] (tildeName (byteString "GUNAME") [] 1)
            entries := by
  refine ⟨List.forall_mem_singleton.mpr (by decide), by decide, ?_⟩
  rintro ⟨entries, _, keeps⟩
  have below := lfnDecode_lt (keeps.decoded entries (.refl _)) 0x1F600
    (List.mem_singleton_self _)
  exact absurd below (by decide)

end Survival

section Fallback

/-- The entries are one complete set for the short name. -/
structure CompleteSet
    (pending : List (List UInt8))
    (short11 : List UInt8) : Prop where
  some :
    pending ≠ []
  ordinals :
    (pending.map seqOf).Perm
      ((List.range' 1 pending.length).map UInt8.ofNat)
  last :
    ∀ e ∈ pending,
      e.headD 0 &&& 0x40 ≠ 0 ↔ seqOf e = UInt8.ofNat pending.length
  checksums :
    ∀ e ∈ pending, e[13]? = Option.some (lfnChecksum short11)

/-- Entries that are not one complete set give no name but the short one. -/
def FallsBack
    (pending : List (List UInt8))
    (short11 : List UInt8) :
    Prop :=
  ¬ CompleteSet pending short11 →
    lfnDecode pending short11 = .ok [] ∧
      ∀ e entry,
        slice e 0 11 = short11 → readEntry pending e = .ok entry →
          entry.name = shortToName short11

/-- The units of the entries in the order of their sequence numbers. -/
def unitsBySeq (pending : List (List UInt8)) : List (Option CodePoint) :=
  (pending.mergeSort fun left right => seqOf left ≤ seqOf right).flatMap
    entryUnits

/-- Up to the first 0xFFFF, the entries hold no unit but U+0000. -/
def Nameless (pending : List (List UInt8)) : Prop :=
  ∀ unit ∈ (unitsBySeq pending).takeWhile (· ≠ some 0xFFFF), unit = some 0

/-- No unit is 0xFFFF, and the lowest entry is for another short name. -/
structure Mismatched
    (pending : List (List UInt8))
    (short11 : List UInt8) : Prop where
  whole :
    ∀ unit ∈ unitsBySeq pending, ∃ character,
      unit = some character ∧ character ≠ 0xFFFF
  lowest :
    ((pending.mergeSort fun left right =>
        seqOf left ≤ seqOf right).head?.bind (·[13]?)) ≠
      some (lfnChecksum short11)

/-- Nothing is collected when only U+0000 precedes the first 0xFFFF. -/
theorem collectChars_nil_iff (units : List (Option CodePoint)) :
    (∃ ended, collectChars units = .ok ([], ended)) ↔
      ∀ unit ∈ units.takeWhile (· ≠ some 0xFFFF), unit = some 0 := by
  induction units with
  | nil =>
      simp [collectChars]
  | cons unit rest inductionHypothesis =>
      cases unit with
      | none =>
          simp [collectChars]
      | some unit =>
          by_cases last : unit = 0xFFFF
          · simp [collectChars, last]
          · rw [List.takeWhile_cons_of_pos (by simpa using last),
              List.forall_mem_cons, ← inductionHypothesis]
            simp only [collectChars, if_neg last, bind_eq_ok,
              Option.some.injEq]
            constructor
            · rintro ⟨ended, ⟨chars, also⟩, others, joined⟩
              obtain ⟨shown, rfl⟩ := Prod.mk.inj (Except.ok.inj joined)
              split at shown
              · cases shown
              · rename_i null
                obtain rfl : chars = [] := shown
                exact ⟨not_not.mp null, also, others⟩
            · rintro ⟨rfl, ended, others⟩
              exact ⟨ended, ([], ended), others, rfl⟩

/-- Collecting goes to the end when no unit is missing or 0xFFFF. -/
theorem collectChars_whole_iff (units : List (Option CodePoint)) :
    (∃ chars, collectChars units = .ok (chars, false)) ↔
      ∀ unit ∈ units, ∃ character,
        unit = some character ∧ character ≠ 0xFFFF := by
  induction units with
  | nil =>
      simp [collectChars]
  | cons unit rest inductionHypothesis =>
      rw [List.forall_mem_cons, ← inductionHypothesis]
      cases unit with
      | none =>
          simp [collectChars]
      | some unit =>
          by_cases last : unit = 0xFFFF
          · simp [collectChars, last]
          · simp only [collectChars, if_neg last, bind_eq_ok,
              Option.some.injEq]
            constructor
            · rintro ⟨chars, ⟨later, ended⟩, others, joined⟩
              obtain ⟨_, rfl⟩ := Prod.mk.inj (Except.ok.inj joined)
              exact ⟨⟨unit, rfl, last⟩, later, others⟩
            · rintro ⟨_, later, others⟩
              exact ⟨_, (later, false), others, rfl⟩

/-- When the decoder gives no name. -/
theorem lfnDecode_eq_nil_iff
    (pending : List (List UInt8))
    (short11 : List UInt8) :
    lfnDecode pending short11 = .ok [] ↔
      Nameless pending ∨ Mismatched pending short11 := by
  have blank := collectChars_nil_iff (unitsBySeq pending)
  have whole := collectChars_whole_iff (unitsBySeq pending)
  have mismatched :
      Mismatched pending short11 ↔
        (∃ chars,
          collectChars (unitsBySeq pending) = .ok (chars, false)) ∧
        ((pending.mergeSort fun left right =>
            seqOf left ≤ seqOf right).head?.bind (·[13]?)) ≠
          some (lfnChecksum short11) := by
    rw [whole]
    exact ⟨fun ⟨units, lowest⟩ => ⟨units, lowest⟩,
      fun ⟨units, lowest⟩ => ⟨units, lowest⟩⟩
  rw [mismatched, Nameless, ← blank]
  simp only [lfnDecode]
  change (collectChars (unitsBySeq pending)).bind _ = _ ↔ _
  cases collected : collectChars (unitsBySeq pending) with
  | error problem =>
      simp [Except.bind]
  | ok result =>
      obtain ⟨chars, ended⟩ := result
      simp only [Except.bind]
      cases ended with
      | true =>
          simp [pure, Except.pure]
      | false =>
          by_cases empty : chars = []
          · simp [empty, pure, Except.pure]
          · by_cases same :
                ((pending.mergeSort fun left right =>
                    seqOf left ≤ seqOf right).head?.bind (·[13]?)) =
                  some (lfnChecksum short11)
            · simp [empty, same, pure, Except.pure]
            · simp [same, pure, Except.pure]

/-- Without a long name, the short one is shown. -/
theorem readEntry_short
    {pending : List (List UInt8)}
    {e : List UInt8}
    {entry : DirEntry}
    (decoded : lfnDecode pending (slice e 0 11) = .ok [])
    (read : readEntry pending e = .ok entry) :
    entry.name = shortToName (slice e 0 11) := by
  simp only [readEntry, decoded, bind_eq_ok] at read
  obtain ⟨long, named, _, _, _, _, _, _, _, _, result⟩ := read
  obtain rfl := Except.ok.inj named
  rw [← Except.ok.inj result]
  simp

/--
Damaged long names fall back if and only if they show no character before the
first 0xFFFF, or have no 0xFFFF and a wrong checksum in the lowest entry: all
other damage goes unnoticed.
-/
theorem fallsBack_iff
    (pending : List (List UInt8))
    (short11 : List UInt8) :
    FallsBack pending short11 ↔
      CompleteSet pending short11 ∨
        Nameless pending ∨ Mismatched pending short11 := by
  rw [← lfnDecode_eq_nil_iff]
  constructor
  · intro fallsBack
    by_cases complete : CompleteSet pending short11
    · exact .inl complete
    · exact .inr (fallsBack complete).1
  · rintro (complete | decoded) incomplete
    · exact absurd complete incomplete
    · refine ⟨decoded, ?_⟩
      rintro e entry rfl read
      exact readEntry_short decoded read

/-- The second of two entries, left over from another file. -/
def staleEntry : List UInt8 :=
  [0x42, 0x41, 0, 0, 0] ++ List.replicate 6 0xFF ++ [attrLfn, 0, 0] ++
    List.replicate 12 0xFF ++ [0, 0] ++ List.replicate 4 0xFF

/-- The stale entry renames the file behind it to "A". -/
theorem fallsBack_stale :
    ¬ FallsBack [staleEntry] (byteString "README  TXT") := by
  intro fallsBack
  have incomplete :
      ¬ CompleteSet [staleEntry] (byteString "README  TXT") := by
    intro complete
    have checksum := complete.checksums staleEntry
      (List.mem_singleton_self _)
    exact absurd checksum (by decide)
  have decoded := (fallsBack incomplete).1
  simp only [lfnDecode, List.mergeSort_singleton] at decoded
  exact absurd decoded (by decide)

end Fallback

end UefiMount.MkFatImg
