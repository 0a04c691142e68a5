import UefiMount.FatShortNames

namespace UefiMount.MkFatImg

/-!
# Legal short names

The 11 bytes of a short name are two fields, filled up with spaces behind
their text, and only some characters may stand in them.  `short_name` splits a
name at its last dot and drops nothing but what is not ASCII, so that the
fields are legal exactly when what is left of the name already is.
-/

section LegalFields

/-- `"`, `*`, `+`, `,`, `/`, `:`, `;`, `<`, `=`, `>`, `?`, `[`, `\`, `]`, `|`. -/
def reservedBytes : List UInt8 :=
  [0x22, 0x2A, 0x2B, 0x2C, 0x2F, 0x3A, 0x3B, 0x3C, 0x3D, 0x3E, 0x3F, 0x5B,
    0x5C, 0x5D, 0x7C]

/-- A control character, a dot or a reserved character. -/
def Misfit (byte : UInt8) : Prop :=
  byte < 0x20 ∨ byte = 0x7F ∨ byte = 0x2E ∨ byte ∈ reservedBytes

instance : DecidablePred Misfit :=
  fun byte => inferInstanceAs
    (Decidable
      (byte < 0x20 ∨ byte = 0x7F ∨ byte = 0x2E ∨ byte ∈ reservedBytes))

/-- A letter from a to z. -/
def LowerCase (byte : UInt8) : Prop :=
  0x61 ≤ byte ∧ byte ≤ 0x7A

instance : DecidablePred LowerCase :=
  fun byte => inferInstanceAs (Decidable (0x61 ≤ byte ∧ byte ≤ 0x7A))

/-- A byte that may stand in a field; spaces are looked at by `Padded`. -/
def LegalByte (byte : UInt8) : Prop :=
  ¬ Misfit byte ∧ ¬ LowerCase byte

instance : DecidablePred LegalByte :=
  fun byte => inferInstanceAs (Decidable (¬ Misfit byte ∧ ¬ LowerCase byte))

/-- Behind the first space there are spaces only. -/
def Padded (field : List UInt8) : Prop :=
  ∀ byte ∈ field.dropWhile (· ≠ 0x20), byte = 0x20

instance (field : List UInt8) : Decidable (Padded field) :=
  inferInstanceAs
    (Decidable (∀ byte ∈ field.dropWhile (· ≠ 0x20), byte = 0x20))

/-- There is a first byte, and it is no space. -/
def Begins (field : List UInt8) : Prop :=
  ∃ byte, field.head? = some byte ∧ byte ≠ 0x20

/-- A short name as the FAT specification wants it. -/
structure LegalShort (short : ShortName) : Prop where
  begins :
    Begins (short.bytes.take 8)
  base :
    Padded (short.bytes.take 8)
  ext :
    Padded (short.bytes.drop 8)
  bytes :
    ∀ byte ∈ short.bytes, LegalByte byte

theorem padded_cons {byte : UInt8} {rest : List UInt8} :
    Padded (byte :: rest) ↔
      if byte = 0x20 then ∀ other ∈ rest, other = 0x20 else Padded rest := by
  by_cases space : byte = 0x20
  · simp [Padded, space]
  · simp [Padded, space]

/-- Filling up with spaces is what `Padded` allows. -/
theorem padded_ljust {text : List UInt8} (width : Nat) :
    Padded (ljust text width 0x20) ↔ Padded text := by
  rw [ljust]
  generalize width - text.length = count
  induction text with
  | nil =>
      simp [Padded]
  | cons byte rest inductionHypothesis =>
      rw [List.cons_append, padded_cons, padded_cons, inductionHypothesis]
      split
      · rw [List.forall_mem_append]
        exact and_iff_left fun other => List.eq_of_mem_replicate
      · rfl

/-- A text without spaces has nothing behind its first one. -/
theorem padded_of_solid
    {text : List UInt8}
    (solid : 0x20 ∉ text) :
    Padded text := by
  induction text with
  | nil =>
      simp [Padded]
  | cons byte rest inductionHypothesis =>
      rw [List.mem_cons, not_or] at solid
      rw [padded_cons, if_neg (Ne.symm solid.1)]
      exact inductionHypothesis solid.2

/-- In front of another character there is no space. -/
theorem solid_of_padded
    {front back : List UInt8}
    {byte : UInt8}
    (padded : Padded (front ++ byte :: back))
    (noSpace : byte ≠ 0x20) :
    0x20 ∉ front := by
  induction front with
  | nil =>
      exact List.not_mem_nil
  | cons first rest inductionHypothesis =>
      rw [List.cons_append, padded_cons] at padded
      split at padded
      case isTrue =>
        exact absurd (padded byte (by simp)) noSpace
      case isFalse solid =>
        rw [List.mem_cons, not_or]
        exact ⟨Ne.symm solid, inductionHypothesis padded⟩

theorem legalByte_space : LegalByte 0x20 := by
  decide

/-- A field is legal when its text is. -/
theorem forall_ljust_iff
    {text : List UInt8}
    (width : Nat) :
    (∀ byte ∈ ljust text width 0x20, LegalByte byte) ↔
      ∀ byte ∈ text, LegalByte byte :=
  ⟨fun legal byte member => legal byte (List.mem_append_left _ member),
    fun legal => forall_ljust legal width legalByte_space⟩

/-- Whether a short name is legal is a matter of its two texts. -/
theorem legalShort_iff
    {short : ShortName}
    {base ext : List UInt8}
    (baseFits : base.length ≤ 8)
    (bytes : short.bytes = ljust base 8 0x20 ++ ljust ext 3 0x20) :
    LegalShort short ↔
      Begins base ∧ Padded base ∧ Padded ext ∧
        (∀ byte ∈ base, LegalByte byte) ∧ ∀ byte ∈ ext, LegalByte byte := by
  have width := length_ljust baseFits 0x20
  have front : short.bytes.take 8 = ljust base 8 0x20 := by
    rw [bytes, List.take_left' width]
  have back : short.bytes.drop 8 = ljust ext 3 0x20 := by
    rw [bytes, List.drop_left' width]
  have begins : Begins (ljust base 8 0x20) ↔ Begins base := by
    cases base with
    | nil =>
        simp [Begins, ljust, List.replicate_succ]
    | cons byte rest =>
        simp [Begins, ljust]
  constructor
  · intro legal
    have each := legal.bytes
    rw [bytes, List.forall_mem_append] at each
    refine ⟨begins.mp (front ▸ legal.begins),
      (padded_ljust 8).mp (front ▸ legal.base),
      (padded_ljust 3).mp (back ▸ legal.ext),
      (forall_ljust_iff 8).mp each.1, (forall_ljust_iff 3).mp each.2⟩
  · rintro ⟨first, basePadded, extPadded, baseLegal, extLegal⟩
    constructor
    case begins =>
      rw [front]
      exact begins.mpr first
    case base =>
      rw [front]
      exact (padded_ljust 8).mpr basePadded
    case ext =>
      rw [back]
      exact (padded_ljust 3).mpr extPadded
    case bytes =>
      rw [bytes, List.forall_mem_append]
      exact ⟨(forall_ljust_iff 8).mpr baseLegal,
        (forall_ljust_iff 3).mpr extLegal⟩

end LegalFields

section Choice

/-- The name without a number fits, and it is free. -/
def PlainUsable (name : PyStr) (taken : List ShortName) : Prop :=
  ∃ plain, PlainShort name plain ∧ plain ∉ taken

/-- A text with spaces at its end only, and without misfits. -/
structure LegalText (text : List UInt8) : Prop where
  padded :
    Padded text
  fits :
    ∀ byte ∈ text, ¬ Misfit byte

/-- A stem in front of a number: no spaces at all, and no misfits. -/
structure LegalStem (stem : List UInt8) : Prop where
  solid :
    0x20 ∉ stem
  fits :
    ∀ byte ∈ stem, ¬ Misfit byte

/-- The parts of the name that go into the short name are legal already. -/
structure LegalParts (name : PyStr) (taken : List ShortName) : Prop where
  plain :
    PlainUsable name taken →
    Begins (asciiUpper (splitName name).1) ∧
      LegalText (asciiUpper (splitName name).1) ∧
      LegalText (asciiUpper (splitName name).2)
  numbered :
    ¬ PlainUsable name taken →
    LegalStem (aliasStem name) ∧ LegalText ((aliasExt name).take 3)

/-- No lower-case letter is left of a name. -/
theorem not_lowerCase_asciiUpper (text : PyStr) :
    ∀ byte ∈ asciiUpper text, ¬ LowerCase byte := by
  intro byte member
  obtain ⟨character, kept, rfl⟩ := List.mem_map.mp member
  have ascii : character.val < 128 := by
    simpa using (List.mem_filter.mp kept).2
  have upper :
      ∀ number < 128,
        ¬ LowerCase (UInt8.ofNat
          (if 97 ≤ number ∧ number ≤ 122 then number - 32 else number)) := by
    decide
  exact upper character.val ascii

theorem not_lowerCase_aliasStem (name : PyStr) :
    ∀ byte ∈ aliasStem name, ¬ LowerCase byte := by
  refine forall_ljust ?_ 3 (by decide)
  intro byte member
  have listed := List.mem_of_mem_take member
  split at listed
  · exact not_lowerCase_asciiUpper _ byte listed
  · have letters :
        (byteString "GUNAME").all fun byte =>
          decide (¬ LowerCase byte) := by
      decide
    exact of_decide_eq_true (List.all_eq_true.mp letters byte listed)

/-- Without lower-case letters, legal bytes are those that fit. -/
theorem forall_legalByte_iff
    {text : List UInt8}
    (upper : ∀ byte ∈ text, ¬ LowerCase byte) :
    (∀ byte ∈ text, LegalByte byte) ↔ ∀ byte ∈ text, ¬ Misfit byte :=
  forall₂_congr fun byte member => and_iff_left (upper byte member)

/-- The tilde and the digits of a number are legal. -/
theorem legalByte_number
    {digits : List Nat}
    (small : ∀ digit ∈ digits, digit < 10) :
    ∀ byte ∈ 0x7E :: digits.map fun digit => UInt8.ofNat (48 + digit),
      byte ≠ 0x20 ∧ LegalByte byte := by
  have each :
      ∀ digit < 10,
        UInt8.ofNat (48 + digit) ≠ 0x20 ∧
          LegalByte (UInt8.ofNat (48 + digit)) := by
    decide
  rw [List.forall_mem_cons, List.forall_mem_map]
  exact ⟨by decide, fun digit member => each digit (small digit member)⟩

/-- The name without a number is legal when its parts are. -/
theorem legalShort_plain_iff
    {name : PyStr}
    {plain : ShortName}
    (selected : PlainShort name plain) :
    LegalShort plain ↔
      Begins (asciiUpper (splitName name).1) ∧
        LegalText (asciiUpper (splitName name).1) ∧
        LegalText (asciiUpper (splitName name).2) := by
  rw [legalShort_iff selected.fits.1 selected.bytes,
    forall_legalByte_iff (not_lowerCase_asciiUpper _),
    forall_legalByte_iff (not_lowerCase_asciiUpper _)]
  constructor
  · rintro ⟨first, basePadded, extPadded, baseFits, extFits⟩
    exact ⟨first, ⟨basePadded, baseFits⟩, ⟨extPadded, extFits⟩⟩
  · rintro ⟨first, base, ext⟩
    exact ⟨first, base.padded, ext.padded, base.fits, ext.fits⟩

/-- An alias is legal when its stem and its extension are. -/
theorem legalShort_numbered_iff
    {stem ext : List UInt8}
    (fits : stem.length ≤ 6)
    (stemUpper : ∀ byte ∈ stem, ¬ LowerCase byte)
    (extUpper : ∀ byte ∈ ext, ¬ LowerCase byte)
    (number : Nat) :
    LegalShort (tildeName stem ext number) ↔
      LegalStem stem ∧ LegalText (ext.take 3) := by
  have small :
      ∀ digit ∈ (Decimal.digits number).take (7 - stem.length), digit < 10 :=
    fun digit member => Decimal.digit_lt (List.mem_of_mem_take member)
  have numberLegal := legalByte_number small
  have width :
      (stem ++ 0x7E ::
        ((Decimal.digits number).take (7 - stem.length)).map
          fun digit => UInt8.ofNat (48 + digit)).length ≤ 8 := by
    simp only [List.length_append, List.length_cons, List.length_map,
      List.length_take]
    omega
  rw [legalShort_iff width (tildeName_bytes fits number),
    List.forall_mem_append, forall_legalByte_iff stemUpper,
    forall_legalByte_iff fun byte member =>
      extUpper byte (List.mem_of_mem_take member)]
  constructor
  · rintro ⟨_, basePadded, extPadded, ⟨stemFits, _⟩, extFits⟩
    exact ⟨⟨solid_of_padded basePadded (by decide), stemFits⟩,
      ⟨extPadded, extFits⟩⟩
  · rintro ⟨stemLegal, extLegal⟩
    have solid :
        0x20 ∉ stem ++ 0x7E ::
          ((Decimal.digits number).take (7 - stem.length)).map
            fun digit => UInt8.ofNat (48 + digit) := by
      rw [List.mem_append, not_or]
      exact ⟨stemLegal.solid, fun member =>
        (numberLegal 0x20 member).1 rfl⟩
    refine ⟨?_, padded_of_solid solid, extLegal.padded,
      ⟨stemLegal.fits, fun byte member => (numberLegal byte member).2⟩,
      extLegal.fits⟩
    cases stem with
    | nil =>
        exact ⟨0x7E, rfl, by decide⟩
    | cons byte rest =>
        exact ⟨byte, rfl, fun space => solid (by simp [space])⟩

/--
The short name is legal exactly when the parts of the name that go into it
are.
-/
theorem legalShort_iff_legalParts
    {name : PyStr}
    {taken : List ShortName}
    {short : ShortName}
    (named : shortName name taken = .ok short) :
    LegalShort short ↔ LegalParts name taken := by
  rcases plainShort_free_or_used name taken with
    ⟨plain, selected, free⟩ | used
  · have usable : PlainUsable name taken := ⟨plain, selected, free⟩
    rw [shortName_plain selected free] at named
    obtain rfl := Except.ok.inj named
    rw [legalShort_plain_iff selected]
    exact ⟨fun legal => ⟨fun _ => legal, fun notUsable =>
      absurd usable notUsable⟩, fun parts => parts.plain usable⟩
  · have notUsable : ¬ PlainUsable name taken := by
      rintro ⟨plain, selected, free⟩
      exact free (used plain selected)
    rw [shortName_numbered used] at named
    cases found : (aliases name).find? (· ∉ taken) with
    | none =>
        rw [found] at named
        cases named
    | some numbered =>
        rw [found] at named
        obtain rfl := Except.ok.inj named
        obtain ⟨number, _, _, rfl⟩ :=
          mem_aliases.mp (List.mem_of_find?_eq_some found)
        rw [legalShort_numbered_iff (length_aliasStem name).2
          (not_lowerCase_aliasStem name)
          (show ∀ byte ∈ aliasExt name, ¬ LowerCase byte from
            not_lowerCase_asciiUpper _)]
        exact ⟨fun legal => ⟨fun usable => absurd usable notUsable,
          fun _ => legal⟩, fun parts => parts.numbered notUsable⟩

/-- `a.txt`. -/
def plainName : PyStr :=
  [0x61, 0x2E, 0x74, 0x78, 0x74]

/-- `A       TXT`. -/
def plainNameShort : ShortName :=
  .ofFields [0x41] [0x54, 0x58, 0x54] (by decide) (by decide)

/-- A name that is legal but for the case of its letters. -/
theorem legalShort_plainName : LegalShort plainNameShort := by
  have named : shortName plainName [] = .ok plainNameShort := by
    decide +kernel
  have usable : PlainUsable plainName [] :=
    ⟨plainNameShort, ⟨by decide +kernel, by decide +kernel,
      by decide +kernel⟩, List.not_mem_nil⟩
  apply (legalShort_iff_legalParts named).mpr
  constructor
  case plain =>
    exact fun _ => ⟨⟨0x41, by decide +kernel, by decide⟩,
      ⟨by decide +kernel, by decide +kernel⟩,
      ⟨by decide +kernel, by decide +kernel⟩⟩
  case numbered =>
    exact fun notUsable => absurd usable notUsable

/-- `.ab`: in front of the last dot there is nothing. -/
def hiddenName : PyStr :=
  [0x2E, 0x61, 0x62]

/-- A name that begins with its last dot gets a base of spaces. -/
theorem not_legalShort_hiddenName :
    ∃ short, shortName hiddenName [] = .ok short ∧ ¬ LegalShort short := by
  refine ⟨.ofFields [] [0x41, 0x42] (by decide) (by decide),
    by decide +kernel, ?_⟩
  intro legal
  obtain ⟨byte, first, noSpace⟩ := legal.begins
  have space : some byte = some 0x20 := first.symm.trans (by decide)
  exact noSpace (Option.some.inj space)

end Choice

end UefiMount.MkFatImg
