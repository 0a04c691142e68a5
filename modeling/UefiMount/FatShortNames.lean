import UefiMount.FatClusterPartition
import UefiMount.FatEntryDecoding

namespace UefiMount.MkFatImg

/-!
# Short names of siblings

`short_name` cuts the name with its number off at eight characters, so a stem
of six characters has room for one digit: nine aliases, for all names that are
not ASCII together, and not the 999 that the loop counts through.
-/

section Aliases

/-- The part of the name that stands before the tilde. -/
def aliasStem (name : PyStr) : List UInt8 :=
  let base := (splitName name).1
  let ext := (splitName name).2
  let asciiOk :=
    (asciiUpper base).length = base.length ∧
      (asciiUpper ext).length = ext.length
  ljust ((if asciiOk then asciiUpper base else byteString "GUNAME").take 6)
    3 0x5F

/-- The extension of the aliases. -/
def aliasExt (name : PyStr) : List UInt8 :=
  asciiUpper (splitName name).2

/-- The short name without a number, for an ASCII name that fits it. -/
structure PlainShort (name : PyStr) (short : ShortName) : Prop where
  ascii :
    (asciiUpper (splitName name).1).length = (splitName name).1.length ∧
      (asciiUpper (splitName name).2).length = (splitName name).2.length
  fits :
    (asciiUpper (splitName name).1).length ≤ 8 ∧
      (asciiUpper (splitName name).2).length ≤ 3
  bytes :
    short.bytes =
      ljust (asciiUpper (splitName name).1) 8 0x20 ++
        ljust (asciiUpper (splitName name).2) 3 0x20

/-- The aliases of a name, in the order in which they are tried. -/
def aliases (name : PyStr) : List ShortName :=
  (List.range 999).map fun index =>
    tildeName (aliasStem name) (aliasExt name) (index + 1)

/-- When the plain name cannot be used, the first free alias is taken. -/
theorem shortName_numbered
    {name : PyStr}
    {taken : List ShortName}
    (used : ∀ plain, PlainShort name plain → plain ∈ taken) :
    shortName name taken =
      ((aliases name).find? (· ∉ taken)).elim
        (.error (.noShortName name)) .ok := by
  simp only [shortName]
  split
  · rename_i plain chosen
    obtain ⟨selected, free⟩ := Option.filter_eq_some_iff.mp chosen
    split at selected
    · rename_i fits
      obtain rfl := Option.some.inj selected
      have member := used
        (.ofFields (asciiUpper (splitName name).1)
          (asciiUpper (splitName name).2) fits.2.1 fits.2.2)
        ⟨fits.1, fits.2, rfl⟩
      simp [member] at free
    · cases selected
  · split
    · rename_i numbered found
      change (aliases name).find? (· ∉ taken) = some numbered at found
      rw [found]
      rfl
    · rename_i missing
      change (aliases name).find? (· ∉ taken) = none at missing
      rw [missing]
      rfl

/-- The plain name is given to the child when it is free. -/
theorem shortName_plain
    {name : PyStr}
    {taken : List ShortName}
    {plain : ShortName}
    (selected : PlainShort name plain)
    (free : plain ∉ taken) :
    shortName name taken = .ok plain := by
  obtain ⟨ascii, fits, bytes⟩ := selected
  have same :
      plain =
        .ofFields (asciiUpper (splitName name).1)
          (asciiUpper (splitName name).2) fits.1 fits.2 := by
    cases plain
    cases bytes
    rfl
  have kept :
      (some plain).filter (· ∉ taken) = some plain :=
    Option.filter_eq_some_iff.mpr ⟨rfl, by simpa using free⟩
  simp only [shortName, dif_pos (And.intro ascii fits), ← same, kept]

/-- Either the plain name is free, or all plain names are taken. -/
theorem plainShort_free_or_used (name : PyStr) (taken : List ShortName) :
    (∃ plain, PlainShort name plain ∧ plain ∉ taken) ∨
      ∀ plain, PlainShort name plain → plain ∈ taken := by
  by_cases free : ∃ plain, PlainShort name plain ∧ plain ∉ taken
  · exact .inl free
  · refine .inr fun plain selected => ?_
    by_contra notTaken
    exact free ⟨plain, selected, notTaken⟩

theorem length_aliasStem (name : PyStr) :
    3 ≤ (aliasStem name).length ∧ (aliasStem name).length ≤ 6 := by
  simp only [aliasStem, ljust, List.length_append, List.length_replicate,
    List.length_take]
  omega

theorem mem_aliases
    {name : PyStr}
    {short : ShortName} :
    short ∈ aliases name ↔
      ∃ number, 0 < number ∧ number < 1000 ∧
        tildeName (aliasStem name) (aliasExt name) number = short := by
  simp only [aliases, List.mem_map, List.mem_range]
  constructor
  · rintro ⟨index, below, rfl⟩
    exact ⟨index + 1, Nat.succ_pos _, by omega, rfl⟩
  · rintro ⟨number, positive, below, rfl⟩
    exact ⟨number - 1, by omega, by rw [Nat.sub_add_cancel positive]⟩

/-- The result has not been taken before. -/
theorem shortName_fresh
    {name : PyStr}
    {taken : List ShortName}
    {short : ShortName}
    (named : shortName name taken = .ok short) :
    short ∉ taken := by
  rcases plainShort_free_or_used name taken with
    ⟨plain, selected, free⟩ | used
  · rw [shortName_plain selected free] at named
    rwa [← Except.ok.inj named]
  · rw [shortName_numbered used] at named
    cases found : (aliases name).find? (· ∉ taken) with
    | some numbered =>
        rw [found] at named
        obtain rfl := Except.ok.inj named
        simpa using List.find?_some found
    | none =>
        rw [found] at named
        cases named

/-- There is no short name when the plain one and all aliases are taken. -/
theorem shortName_ok_iff (name : PyStr) (taken : List ShortName) :
    (∃ short, shortName name taken = .ok short) ↔
      ¬ ((∀ plain, PlainShort name plain → plain ∈ taken) ∧
        ∀ short ∈ aliases name, short ∈ taken) := by
  rcases plainShort_free_or_used name taken with
    ⟨plain, selected, free⟩ | used
  · exact iff_of_true ⟨plain, shortName_plain selected free⟩
      fun all => free (all.1 plain selected)
  · rw [shortName_numbered used]
    cases found : (aliases name).find? (· ∉ taken) with
    | some numbered =>
        refine iff_of_true ⟨numbered, rfl⟩ fun all => ?_
        have free := List.find?_some found
        have member := all.2 numbered (List.mem_of_find?_eq_some found)
        simp [member] at free
    | none =>
        refine iff_of_false (by simp) fun some => some ⟨used, ?_⟩
        intro short member
        simpa using List.find?_eq_none.mp found short member

end Aliases

section Capacity

variable {stem ext : List UInt8}

/-- Only the digits that fit behind the stem make a difference. -/
theorem tildeName_bytes
    (fits : stem.length ≤ 6)
    (number : Nat) :
    (tildeName stem ext number).bytes =
      ljust
          (stem ++ 0x7E ::
            ((Decimal.digits number).take (7 - stem.length)).map
              fun digit => UInt8.ofNat (48 + digit))
          8 0x20 ++
        ljust (ext.take 3) 3 0x20 := by
  have room : 8 - stem.length = (7 - stem.length) + 1 := by omega
  simp only [tildeName, ShortName.ofFields, List.take_of_length_le fits,
    List.append_assoc, List.singleton_append, List.take_append,
    List.take_of_length_le (show stem.length ≤ 8 by omega), room,
    List.take_succ_cons, List.map_take]

theorem tildeName_congr
    (fits : stem.length ≤ 6)
    {first second : Nat}
    (same :
      (Decimal.digits first).take (7 - stem.length) =
        (Decimal.digits second).take (7 - stem.length)) :
    tildeName stem ext first = tildeName stem ext second := by
  rw [ShortName.mk.injEq, tildeName_bytes fits, tildeName_bytes fits, same]

/-- A digit is not a space. -/
theorem digitByte_ne_space
    {digit : Nat}
    (small : digit < 10) :
    UInt8.ofNat (48 + digit) ≠ 0x20 := by
  have each : ∀ digit < 10, UInt8.ofNat (48 + digit) ≠ 0x20 := by decide
  exact each digit small

/-- Filling up with spaces keeps texts without spaces apart. -/
theorem ljust_injective
    {first second : List UInt8}
    (firstSolid : ∀ byte ∈ first, byte ≠ 0x20)
    (secondSolid : ∀ byte ∈ second, byte ≠ 0x20)
    {more others : Nat}
    (same :
      first ++ List.replicate more 0x20 =
        second ++ List.replicate others 0x20) :
    first = second := by
  have solid {text : List UInt8}
      (noSpace : ∀ byte ∈ text, byte ≠ 0x20)
      (count : Nat) :
      (text ++ List.replicate count 0x20).takeWhile (· ≠ 0x20) = text := by
    rw [List.takeWhile_append_of_pos (by simpa using noSpace)]
    cases count <;> simp [List.replicate_succ]
  rw [← solid firstSolid more, same, solid secondSolid others]

/-- Numbers whose digits all fit give different aliases. -/
theorem tildeName_injective
    (fits : stem.length ≤ 6)
    {first second : Nat}
    (firstFits : first < 10 ^ (7 - stem.length))
    (secondFits : second < 10 ^ (7 - stem.length))
    (same : tildeName stem ext first = tildeName stem ext second) :
    first = second := by
  have room : 0 < 7 - stem.length := by omega
  have whole {number : Nat} (small : number < 10 ^ (7 - stem.length)) :
      (Decimal.digits number).take (7 - stem.length) =
        Decimal.digits number :=
    List.take_of_length_le ((Decimal.length_digits_le_iff room).mpr small)
  have solid (number : Nat) :
      ∀ byte ∈ (Decimal.digits number).map
          fun digit => UInt8.ofNat (48 + digit),
        byte ≠ 0x20 := by
    rw [List.forall_mem_map]
    exact fun digit member => digitByte_ne_space (Decimal.digit_lt member)
  have bytes := congrArg ShortName.bytes same
  rw [tildeName_bytes fits, tildeName_bytes fits, whole firstFits,
    whole secondFits] at bytes
  have names := List.append_cancel_right bytes
  simp only [ljust, List.append_assoc, List.cons_append] at names
  have tails := List.append_cancel_left names
  rw [List.cons.injEq] at tails
  refine Decimal.digits_map_injective ?_
    (ljust_injective (solid first) (solid second) tails.2)
  intro digit other small otherSmall written
  have each :
      ∀ digit < 10, ∀ other < 10,
        UInt8.ofNat (48 + digit) = UInt8.ofNat (48 + other) →
          digit = other := by
    decide
  exact each digit small other otherSmall written

/--
No short name is left for a name: its plain short name cannot be used, its stem
has five or six characters, and the 99 or 9 aliases with this stem are taken.
-/
structure Exhausted (name : PyStr) (taken : List ShortName) : Prop where
  plain :
    ∀ short, PlainShort name short → short ∈ taken
  stem :
    5 ≤ (aliasStem name).length
  aliases :
    ∀ number, 0 < number → number < 10 ^ (7 - (aliasStem name).length) →
      tildeName (aliasStem name) (aliasExt name) number ∈ taken

/-- With a stem of at most four characters, all aliases are different. -/
theorem aliases_nodup
    {name : PyStr}
    (short : (aliasStem name).length ≤ 4) :
    (aliases name).Nodup := by
  have room : 10 ^ 3 ≤ 10 ^ (7 - (aliasStem name).length) :=
    Nat.pow_le_pow_right (by decide) (by omega)
  refine List.Nodup.map_on ?_ List.nodup_range
  intro first inFirst second inSecond same
  have firstBelow := List.mem_range.mp inFirst
  have secondBelow := List.mem_range.mp inSecond
  have numbers := tildeName_injective (length_aliasStem name).2
    (show first + 1 < _ by omega) (show second + 1 < _ by omega) same
  omega

/-- A name is refused if and only if its aliases are used up. -/
theorem shortName_ok_iff_not_exhausted
    (name : PyStr)
    {taken : List ShortName}
    (few : taken.length < 999) :
    (∃ short, shortName name taken = .ok short) ↔
      ¬ Exhausted name taken := by
  have atMost := (length_aliasStem name).2
  rw [shortName_ok_iff, not_iff_not]
  constructor
  · rintro ⟨plain, used⟩
    have long : 5 ≤ (aliasStem name).length := by
      by_contra short
      have fewer :=
        ((aliases_nodup (by omega)).subperm used).length_le
      rw [aliases, List.length_map, List.length_range] at fewer
      omega
    have room : 10 ^ (7 - (aliasStem name).length) ≤ 10 ^ 2 :=
      Nat.pow_le_pow_right (by decide) (by omega)
    exact ⟨plain, long, fun number positive below =>
      used _ (mem_aliases.mpr ⟨number, positive, by omega, rfl⟩)⟩
  · rintro ⟨plain, _, numbered⟩
    refine ⟨plain, fun short member => ?_⟩
    obtain ⟨number, positive, _, rfl⟩ := mem_aliases.mp member
    obtain ⟨front, frontPositive, below, digits⟩ :=
      Decimal.exists_digits_take
        (show 0 < 7 - (aliasStem name).length by omega) positive
    have same :
        tildeName (aliasStem name) (aliasExt name) number =
          tildeName (aliasStem name) (aliasExt name) front := by
      apply tildeName_congr atMost
      rw [digits, List.take_take, Nat.min_self]
    rw [same]
    exact numbered front frontPositive below

end Capacity

section Siblings

/-- `short_name` for the children in order, with one set of taken names. -/
def shortNames :
    List PyStr → List ShortName → Except PyError (List ShortName)
  | [], _ =>
      .ok []
  | name :: rest, taken => do
      let short ← shortName name taken
      let later ← shortNames rest (short :: taken)
      return short :: later

theorem shortNames_cons_eq_ok
    {name : PyStr}
    {rest : List PyStr}
    {taken shorts : List ShortName} :
    shortNames (name :: rest) taken = .ok shorts ↔
      ∃ short later,
        shortName name taken = .ok short ∧
          shortNames rest (short :: taken) = .ok later ∧
          shorts = short :: later := by
  simp only [shortNames, bind_eq_ok]
  constructor
  · rintro ⟨short, first, later, others, joined⟩
    exact ⟨short, later, first, others, (Except.ok.inj joined).symm⟩
  · rintro ⟨short, later, first, others, rfl⟩
    exact ⟨short, first, later, others, rfl⟩

/-- The names of the children. -/
def Nodes.names : Nodes → List PyStr
  | .nil =>
      []
  | .file name _ _ rest =>
      name :: rest.names
  | .dir name _ _ _ _ rest =>
      name :: rest.names

/-- A directory's entries are built with these short names. -/
theorem nodeEntries_shortNames
    {nodes : Nodes}
    {taken : List ShortName}
    {entries : List (List UInt8)}
    (built : nodeEntries nodes taken = .ok entries) :
    ∃ shorts, shortNames nodes.names taken = .ok shorts := by
  induction nodes generalizing taken entries with
  | nil =>
      exact ⟨[], rfl⟩
  | file name content firstClus rest restIH =>
      simp only [nodeEntries, bind_eq_ok] at built
      obtain ⟨short, named, _, _, _, later, _⟩ := built
      obtain ⟨shorts, others⟩ := restIH later
      exact ⟨_, shortNames_cons_eq_ok.mpr
        ⟨short, shorts, named, others, rfl⟩⟩
  | dir name parentClus firstClus dirN children rest _ restIH =>
      simp only [nodeEntries, bind_eq_ok] at built
      obtain ⟨short, named, _, _, _, later, _⟩ := built
      obtain ⟨shorts, others⟩ := restIH later
      exact ⟨_, shortNames_cons_eq_ok.mpr
        ⟨short, shorts, named, others, rfl⟩⟩

/-- The calls return different names, none of them taken before. -/
theorem shortNames_fresh
    {names : List PyStr}
    {taken shorts : List ShortName}
    (named : shortNames names taken = .ok shorts) :
    shorts.length = names.length ∧
      shorts.Nodup ∧
      (∀ short ∈ shorts, short ∉ taken) ∧
      ∀ short ∈ shorts, ∀ byte ∈ short.bytes, byte < 0x80 := by
  induction names generalizing taken shorts with
  | nil =>
      obtain rfl := Except.ok.inj named
      simp
  | cons name rest inductionHypothesis =>
      obtain ⟨short, later, first, others, rfl⟩ :=
        shortNames_cons_eq_ok.mp named
      obtain ⟨length, distinct, fresh, ascii⟩ := inductionHypothesis others
      have small :
          ∀ number < 0x80, UInt8.ofNat number < 0x80 := by
        decide
      have kept (text : PyStr) :
          ∀ byte ∈ asciiUpper text, byte < 0x80 := by
        intro byte member
        obtain ⟨_, _, number, below, _, rfl⟩ := mem_asciiUpper member
        exact small number below
      refine ⟨by simp [length], ?_, ?_, ?_⟩
      · rw [List.nodup_cons]
        exact ⟨fun member => fresh short member (List.mem_cons_self ..),
          distinct⟩
      · rw [List.forall_mem_cons]
        exact ⟨shortName_fresh first, fun other member used =>
          fresh other member (List.mem_cons_of_mem _ used)⟩
      · rw [List.forall_mem_cons]
        exact ⟨forall_shortName (kept _) (kept _)
          (fun number _ below => small number below) first, ascii⟩

/-- It does not matter in which order the names have been taken. -/
theorem Exhausted.congr
    {name : PyStr}
    {taken other : List ShortName}
    (same : ∀ short, short ∈ taken ↔ short ∈ other)
    (exhausted : Exhausted name taken) :
    Exhausted name other where
  plain := fun short chosen => (same _).mp (exhausted.plain short chosen)
  stem := exhausted.stem
  aliases := fun number positive below =>
    (same _).mp (exhausted.aliases number positive below)

/-- All calls return if and only if none finds its aliases used up. -/
theorem shortNames_ok_iff
    {names : List PyStr}
    {taken : List ShortName}
    (few : taken.length + names.length ≤ 999) :
    (∃ shorts, shortNames names taken = .ok shorts) ↔
      ∀ before name after, names = before ++ name :: after →
        ∀ given, shortNames before taken = .ok given →
          ¬ Exhausted name (given ++ taken) := by
  induction names generalizing taken with
  | nil =>
      simp [shortNames]
  | cons name rest inductionHypothesis =>
      rw [List.length_cons] at few
      have own := shortName_ok_iff_not_exhausted name
        (show taken.length < 999 by omega)
      have others (short : ShortName) :=
        @inductionHypothesis (short :: taken) (by
          rw [List.length_cons]
          omega)
      have moved (short : ShortName) (given : List ShortName) (other) :
          other ∈ short :: given ++ taken ↔
            other ∈ given ++ short :: taken := by
        simp only [List.cons_append, List.mem_cons, List.mem_append]
        tauto
      constructor
      · rintro ⟨shorts, named⟩ before other after joined given earlier
        obtain ⟨short, later, first, laterNamed, rfl⟩ :=
          shortNames_cons_eq_ok.mp named
        cases before with
        | nil =>
            obtain ⟨rfl, rfl⟩ := List.cons.inj joined
            obtain rfl := Except.ok.inj earlier
            exact own.mp ⟨short, first⟩
        | cons head before =>
            obtain ⟨rfl, rfl⟩ := List.cons.inj joined
            obtain ⟨same, begun, firstAgain, further, rfl⟩ :=
              shortNames_cons_eq_ok.mp earlier
            obtain rfl := Except.ok.inj (first.symm.trans firstAgain)
            intro exhausted
            exact (others short).mp ⟨later, laterNamed⟩ before other after
              rfl begun further (exhausted.congr (moved short begun))
      · intro free
        obtain ⟨short, first⟩ :=
          own.mpr (free [] name rest rfl [] rfl)
        obtain ⟨later, laterNamed⟩ := (others short).mpr (by
          rintro before other after rfl given earlier exhausted
          exact free (name :: before) other after rfl (short :: given)
            (shortNames_cons_eq_ok.mpr ⟨short, given, first, earlier, rfl⟩)
            (exhausted.congr fun other => (moved short given other).symm))
        exact ⟨_, shortNames_cons_eq_ok.mpr
          ⟨short, later, first, laterNamed, rfl⟩⟩

/-- The calls for all children of a directory return proper short names. -/
structure NamesSiblings
    (names : List PyStr)
    (shorts : List ShortName) : Prop where
  returned :
    shortNames names [] = .ok shorts
  each :
    shorts.length = names.length
  width :
    ∀ short ∈ shorts, short.bytes.length = 11
  ascii :
    ∀ short ∈ shorts, ∀ byte ∈ short.bytes, byte < 0x80
  distinct :
    (shorts.map ShortName.bytes).Nodup

/--
All children get short names if and only if none of them, when its turn comes,
finds the 9 or 99 aliases of its stem used up.
-/
theorem namesSiblings_iff
    {names : List PyStr}
    (few : names.length ≤ 999) :
    (∃ shorts, NamesSiblings names shorts) ↔
      ∀ before name after, names = before ++ name :: after →
        ∀ taken, shortNames before [] = .ok taken →
          ¬ Exhausted name taken := by
  have calls := @shortNames_ok_iff names [] (by simpa using few)
  simp only [List.append_nil] at calls
  rw [← calls]
  constructor
  · rintro ⟨shorts, siblings⟩
    exact ⟨shorts, siblings.returned⟩
  · rintro ⟨shorts, named⟩
    obtain ⟨length, distinct, _, ascii⟩ := shortNames_fresh named
    exact ⟨shorts, {
      returned := named
      each := length
      width := fun short _ => short.length_eq
      ascii := ascii
      distinct := distinct.map fun first second same => by
        cases first
        cases second
        cases same
        rfl
    }⟩

/-- Ten names of one Chinese character each. -/
def chineseNames : List PyStr :=
  (List.range 10).map fun index => [Fin.ofNat _ (0x4E00 + index)]

/-- The first nine of them get `GUNAME~1` to `GUNAME~9`. -/
theorem shortNames_chineseNames :
    ∀ count < 10,
      shortNames (chineseNames.take count) [] =
        .ok ((List.range count).map fun index =>
          tildeName (byteString "GUNAME") [] (index + 1)) := by
  decide +kernel

/-- Nine of the names leave an alias for each of them. -/
theorem namesSiblings_iff_nine :
    ∃ shorts, NamesSiblings (chineseNames.take 9) shorts := by
  refine (namesSiblings_iff (by decide)).mpr ?_
  intro before name after joined taken earlier exhausted
  have count : before.length + (after.length + 1) = 9 := by
    have lengths := congrArg List.length joined
    simpa [chineseNames] using lengths.symm
  have isPrefix : before = chineseNames.take before.length := by
    have front := congrArg (List.take before.length) joined
    rw [List.take_take, List.take_left, Nat.min_eq_left (by omega)] at front
    exact front.symm
  have isName : name ∈ chineseNames := by
    apply List.mem_of_mem_take
    rw [joined]
    simp
  have parts :
      ∀ name ∈ chineseNames,
        aliasStem name = byteString "GUNAME" ∧ aliasExt name = [] := by
    decide +kernel
  have ninthFree :
      ∀ count < 9,
        tildeName (byteString "GUNAME") [] 9 ∉
          (List.range count).map fun index =>
            tildeName (byteString "GUNAME") [] (index + 1) := by
    decide +kernel
  obtain ⟨stem, ext⟩ := parts name isName
  have ninth :=
    exhausted.aliases 9 (by decide) (by rw [stem]; decide)
  rw [isPrefix, shortNames_chineseNames _ (by omega)] at earlier
  rw [stem, ext, ← Except.ok.inj earlier] at ninth
  exact ninthFree _ (by omega) ninth

/-- The tenth name finds `GUNAME~1` to `GUNAME~9` taken. -/
theorem namesSiblings_chinese :
    ¬ ∃ shorts, NamesSiblings chineseNames shorts := by
  rintro ⟨shorts, siblings⟩
  have nine := shortNames_chineseNames 9 (by decide)
  refine (@shortNames_ok_iff chineseNames [] (by decide)).mp
    ⟨shorts, siblings.returned⟩ (chineseNames.take 9)
    [Fin.ofNat _ 0x4E09] [] (by decide) _ nine ?_
  have stem : (aliasStem [Fin.ofNat _ 0x4E09]).length = 6 := by decide
  rw [List.append_nil]
  exact {
    plain := fun short selected => absurd selected.ascii.1 (by decide)
    stem := by rw [stem]; decide
    aliases := by
      rw [stem]
      intro number positive below
      exact List.mem_map.mpr ⟨number - 1, List.mem_range.mpr (by omega),
        by rw [Nat.sub_add_cancel positive]; rfl⟩
  }

end Siblings

end UefiMount.MkFatImg
