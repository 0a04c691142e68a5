import UefiMount.VolumeReports

namespace UefiMount

/-!
# Scanning and copying aliases in memory

`MapFindFsAlias` walks a pointer through the text that the Shell returns and
`MapCopyAlias` reads on from where it stopped.  Here the text is the memory up
to its terminator: a read anywhere else is a fault, and the alias found is an
index.  The scan of `mapFindFsAlias` and the copy of `mapCopyAlias` are what
the two loops compute on terminated text.  `StrnCpyS` belongs to the firmware
library: it is a parameter, with the behaviour that its description promises.
-/

/-- `L'\0'`. -/
def nul : Char16 := 0

/-- A read outside the memory of the text. -/
structure ReadFault where
  index : Int
  deriving DecidableEq

/-- `Memory[Index]`. -/
def readChar
    (memory : List Char16)
    (index : Int) :
    Except ReadFault Char16 :=
  if index < 0 then
    .error ⟨index⟩
  else
    match memory[index.toNat]? with
    | some char =>
        .ok char
    | none =>
        .error ⟨index⟩

/-- `(Tok == MapNames) || (Tok[-1] == L';')`. -/
def tokenStartsAt
    (memory : List Char16)
    (tok : Nat) :
    Except ReadFault Bool :=
  if tok = 0 then
    .ok true
  else
    (readChar memory (tok - 1)).map (· == semicolon)

/-- The condition of the loop; it looks ahead behind an `f` only. -/
def fsAliasAt
    (memory : List Char16)
    (tok : Nat)
    (char : Char16) :
    Except ReadFault Bool := do
  let atToken ← tokenStartsAt memory tok
  if atToken && (char == 0x66 || char == 0x46) then
    let second ← readChar memory (tok + 1)
    return second == 0x73 || second == 0x53
  else
    return false

/-- The loop of `MapFindFsAlias`, at `Tok`. -/
def scanFsAlias
    (memory : List Char16)
    (tok : Nat) :
    Except ReadFault (Option Nat) :=
  if inside : tok < memory.length then
    if memory[tok] = nul then
      .ok none
    else do
      let found ← fsAliasAt memory tok memory[tok]
      if found then
        return some tok
      else
        scanFsAlias memory (tok + 1)
  else
    .error ⟨tok⟩
termination_by memory.length - tok

/-- `MapFindFsAlias`, on the memory behind the pointer. -/
def findFsAliasIn
    (mapNames : Option (List Char16)) :
    Except ReadFault (Option Nat) :=
  match mapNames with
  | none =>
      .ok none
  | some memory =>
      scanFsAlias memory 0

/-- The loop of `MapCopyAlias`, at `Len`; `limit` is `NameSize - 1`. -/
def aliasLength
    (memory : List Char16)
    (start limit len : Nat) :
    Except ReadFault Nat :=
  if inside : start + len < memory.length then
    let char := memory[start + len]
    if char ≠ nul ∧ char ≠ semicolon ∧ len < limit then
      aliasLength memory start limit (len + 1)
    else
      .ok len
  else
    .error ⟨start + len⟩
termination_by memory.length - (start + len)

/-- `StrnCpyS`: the destination afterwards, and the limit on its size. -/
structure SafeString where
  /-- `PcdMaximumUnicodeStringLength`. -/
  maximum : Nat
  strnCpyS :
    (destination : List Char16) →
    (destMax : Nat) →
    (source : List Char16) →
    (length : Nat) →
    List Char16

/-- A size that `StrnCpyS` accepts. -/
def SafeString.Accepts (library : SafeString) (destMax : Nat) : Prop :=
  destMax ≠ 0 ∧ (library.maximum = 0 ∨ destMax ≤ library.maximum)

/--
Of a terminated source at most `length` characters are copied, and a
terminator behind them, when there is room for both.
-/
structure SafeString.Documented (library : SafeString) : Prop where
  copies :
    ∀ {destination : List Char16} {destMax : Nat} {source after : Text}
      {length : Nat},
      library.Accepts destMax →
      destination.length = destMax →
      nul ∉ source →
      min source.length length < destMax →
      library.strnCpyS destination destMax (source ++ nul :: after) length =
        source.take length ++
          nul :: destination.drop (min source.length length + 1)

/-- `MapCopyAlias`: the buffer `Name` afterwards. -/
def copyAliasIn
    (library : SafeString)
    (memory : List Char16)
    (start : Nat)
    (name : List Char16)
    (nameSize : UInt64) :
    Except ReadFault (List Char16) := do
  let len ← aliasLength memory start (nameSize - 1).toNat 0
  return library.strnCpyS name nameSize.toNat (memory.drop start) len

section Refinement

theorem readChar_append
    (before after : Text)
    (char : Char16)
    {index : Int}
    (atLength : index = before.length) :
    readChar (before ++ char :: after) index = .ok char := by
  subst atLength
  rw [readChar, if_neg (by omega)]
  simp

/-- The character in front of the rest of a text, if any, ends a token. -/
def endsToken (before : Text) : Bool :=
  before.getLast?.all (· == semicolon)

theorem tokenStartsAt_eq (before rest : Text) (char : Char16) :
    tokenStartsAt (before ++ char :: rest) before.length =
      .ok (endsToken before) := by
  rcases List.eq_nil_or_concat before with rfl | ⟨front, last, rfl⟩
  · rfl
  · rw [tokenStartsAt, if_neg (by simp), List.concat_eq_append,
      List.append_assoc, List.singleton_append,
      readChar_append front (char :: rest) last (by simp)]
    simp [endsToken, Except.map]

theorem fsAliasAt_eq (before rest : Text) (char : Char16) :
    fsAliasAt (before ++ char :: (rest ++ [nul])) before.length char =
      .ok (endsToken before && isFsAlias (char :: rest)) := by
  have ahead : ∃ second after,
      rest ++ [nul] = second :: after ∧
        isFsAlias (char :: rest) =
          ((char == 0x66 || char == 0x46) &&
            (second == 0x73 || second == 0x53)) := by
    cases rest with
    | nil =>
        exact ⟨nul, [], rfl, by simp [isFsAlias, nul]⟩
    | cons second after =>
        exact ⟨second, after ++ [nul], rfl, rfl⟩
  obtain ⟨second, after, shape, same⟩ := ahead
  have look :
      readChar (before ++ char :: second :: after) (before.length + 1) =
        .ok second := by
    have atLength :
        (before.length + 1 : Int) = (before ++ [char]).length := by
      simp
    have read := readChar_append (before ++ [char]) after second atLength
    rwa [List.append_assoc, List.singleton_append] at read
  rw [fsAliasAt, tokenStartsAt_eq, same, shape, look]
  simp only [bind, Except.bind, ← Bool.and_assoc]
  cases endsToken before && (char == 0x66 || char == 0x46) <;> rfl

/-- One round of the loop at a character of the memory. -/
theorem scanFsAlias_round
    {memory : List Char16}
    {tok : Nat}
    {char : Char16}
    (read : memory[tok]? = some char) :
    scanFsAlias memory tok =
      if char = nul then
        .ok none
      else
        (fsAliasAt memory tok char).bind fun found =>
          if found then .ok (some tok) else scanFsAlias memory (tok + 1) := by
  obtain ⟨inside, rfl⟩ := List.getElem?_eq_some_iff.mp read
  rw [scanFsAlias, dif_pos inside]
  rfl

/-- The loop finds, without a fault, what the scan of the text finds. -/
theorem scanFsAlias_eq
    (before : Text)
    {rest : Text}
    (terminated : nul ∉ rest) :
    scanFsAlias (before ++ (rest ++ [nul])) before.length =
      .ok ((mapFindFsAliasFrom (endsToken before) rest).map
        fun found => (before ++ rest).length - found.length) := by
  induction rest generalizing before with
  | nil =>
      rw [@scanFsAlias_round _ _ nul (by simp), if_pos rfl]
      rfl
  | cons char rest inductionHypothesis =>
      rw [List.mem_cons, not_or] at terminated
      obtain ⟨ordinary, terminated⟩ := terminated
      have later := inductionHypothesis (before ++ [char]) terminated
      have sameText :
          before ++ (char :: rest ++ [nul]) =
            before ++ [char] ++ (rest ++ [nul]) := by
        simp
      have ends : endsToken (before ++ [char]) = (char == semicolon) := by
        simp [endsToken]
      rw [List.length_append, List.length_singleton, ends, ← sameText]
        at later
      rw [@scanFsAlias_round _ _ char (by simp),
        if_neg (Ne.symm ordinary), List.cons_append, fsAliasAt_eq,
        ← List.cons_append, later, mapFindFsAliasFrom]
      simp only [Except.bind]
      split <;> simp

/-- One round of the loop that measures an alias. -/
theorem aliasLength_round
    {memory : List Char16}
    {start len : Nat}
    {char : Char16}
    (read : memory[start + len]? = some char)
    (limit : Nat) :
    aliasLength memory start limit len =
      if char ≠ nul ∧ char ≠ semicolon ∧ len < limit then
        aliasLength memory start limit (len + 1)
      else
        .ok len := by
  obtain ⟨inside, rfl⟩ := List.getElem?_eq_some_iff.mp read
  rw [aliasLength, dif_pos inside]

/-- The measured length is that of the token, as far as the limit allows. -/
theorem aliasLength_eq
    (before measured : Text)
    {rest : Text}
    (terminated : nul ∉ rest)
    {limit : Nat}
    (within : measured.length ≤ limit) :
    aliasLength (before ++ (measured ++ (rest ++ [nul]))) before.length
        limit measured.length =
      .ok (min
        (measured.length + (rest.takeWhile (· ≠ semicolon)).length)
        limit) := by
  induction rest generalizing measured with
  | nil =>
      have read :
          (before ++ (measured ++ ([] ++ [nul])))[
              before.length + measured.length]? =
            some nul := by
        simp
      rw [aliasLength_round read, if_neg (by simp)]
      simp [within]
  | cons char rest inductionHypothesis =>
      rw [List.mem_cons, not_or] at terminated
      obtain ⟨ordinary, terminated⟩ := terminated
      have read :
          (before ++ (measured ++ (char :: rest ++ [nul])))[
              before.length + measured.length]? =
            some char := by
        simp
      rw [aliasLength_round read]
      by_cases separator : char = semicolon
      · rw [if_neg (by simp [separator]),
          List.takeWhile_cons_of_neg (by simp [separator])]
        simp [within]
      · rw [List.takeWhile_cons_of_pos (by simpa using separator)]
        by_cases room : measured.length < limit
        · have later := inductionHypothesis (measured ++ [char]) terminated
            (by simp; omega)
          rw [List.length_append, List.length_singleton, List.append_assoc,
            List.singleton_append, ← List.cons_append] at later
          rw [if_pos ⟨Ne.symm ordinary, separator, room⟩, later]
          simp only [List.length_cons]
          congr 2
          omega
        · rw [if_neg (by simp [room])]
          simp only [List.length_cons]
          congr 1
          omega

/-- The copy is terminated, and leaves the rest of the buffer as it was. -/
theorem copyAliasIn_eq
    {library : SafeString}
    (documented : library.Documented)
    {nameSize : UInt64}
    (accepts : library.Accepts nameSize.toNat)
    {name : List Char16}
    (room : name.length = nameSize.toNat)
    (before : Text)
    {rest : Text}
    (terminated : nul ∉ rest) :
    copyAliasIn library (before ++ (rest ++ [nul])) before.length name
        nameSize =
      .ok (mapCopyAlias rest nameSize.toNat ++
        nul :: name.drop ((mapCopyAlias rest nameSize.toNat).length + 1)) := by
  have positive : 1 ≤ nameSize.toNat :=
    Nat.one_le_iff_ne_zero.mpr accepts.1
  have limit : (nameSize - 1).toNat = nameSize.toNat - 1 :=
    UInt64.toNat_sub_of_le _ _ (UInt64.le_iff_toNat_le.mpr positive)
  have measured := aliasLength_eq before [] terminated
    (Nat.zero_le (nameSize.toNat - 1))
  rw [List.nil_append, List.length_nil, Nat.zero_add] at measured
  have copied : (mapCopyAlias rest nameSize.toNat).length =
      min (rest.takeWhile (· ≠ semicolon)).length (nameSize.toNat - 1) := by
    rw [mapCopyAlias, List.length_take, Nat.min_comm]
  have isPrefix : mapCopyAlias rest nameSize.toNat <+: rest :=
    (List.take_prefix _ _).trans (List.takeWhile_prefix _)
  have atMost := isPrefix.length_le
  have taken := (List.prefix_iff_eq_take.mp isPrefix).symm
  have fits :
      min rest.length (mapCopyAlias rest nameSize.toNat).length =
        (mapCopyAlias rest nameSize.toNat).length := by
    omega
  rw [copyAliasIn, limit, measured, List.drop_left, ← copied]
  simp only [bind, Except.bind]
  rw [documented.copies accepts room terminated (by omega), taken, fits]
  rfl

end Refinement

section Tokens

/-- One alias of the list: neither a separator nor a terminator is in it. -/
structure AliasToken where
  text : Text
  separable : semicolon ∉ text
  terminated : nul ∉ text

/-- The aliases joined into one terminated string. -/
def memoryOf (tokens : List AliasToken) : List Char16 :=
  joinNames (tokens.map (·.text)) ++ [nul]

/-- Where the token behind these tokens starts. -/
def startOf (earlier : List AliasToken) : Nat :=
  (earlier.map fun token => token.text.length + 1).sum

/-- Tokens with the separator behind each of them. -/
def separated (earlier : List AliasToken) : Text :=
  earlier.flatMap fun token => token.text ++ [semicolon]

theorem length_separated (earlier : List AliasToken) :
    (separated earlier).length = startOf earlier := by
  simp [separated, startOf, List.length_flatMap]

theorem joinNames_separated
    (earlier : List AliasToken)
    (token : AliasToken)
    (later : List AliasToken) :
    joinNames ((earlier ++ token :: later).map (·.text)) =
      separated earlier ++ joinNames ((token :: later).map (·.text)) := by
  induction earlier with
  | nil =>
      rfl
  | cons first earlier inductionHypothesis =>
      obtain ⟨next, rest, shape⟩ :
          ∃ next rest,
            (earlier ++ token :: later).map (·.text) = next :: rest :=
        List.exists_cons_of_ne_nil (by simp)
      rw [List.cons_append, List.map_cons, shape, joinNames, ← shape,
        inductionHypothesis]
      simp [separated]

theorem nul_notMem_joinNames (tokens : List AliasToken) :
    nul ∉ joinNames (tokens.map (·.text)) := by
  induction tokens with
  | nil =>
      exact List.not_mem_nil
  | cons token tokens inductionHypothesis =>
      cases tokens with
      | nil =>
          exact token.terminated
      | cons next rest =>
          rw [List.map_cons, List.map_cons, joinNames, ← List.map_cons,
            List.mem_append, List.mem_cons]
          rintro (inToken | isSeparator | inRest)
          · exact token.terminated inToken
          · exact absurd isSeparator (by decide)
          · exact inductionHypothesis inRest

/-- The scan goes on to the first token that is an fs-style alias. -/
theorem mapFindFsAliasFrom_separated
    {earlier : List AliasToken}
    (others : ∀ other ∈ earlier, isFsAlias other.text = false)
    (rest : Text) :
    mapFindFsAliasFrom true (separated earlier ++ rest) =
      mapFindFsAliasFrom true rest := by
  induction earlier with
  | nil =>
      rfl
  | cons first earlier inductionHypothesis =>
      obtain ⟨notFirst, others⟩ := List.forall_mem_cons.mp others
      have step :=
        (mapFindFsAliasFrom_start first.separable
          (separated earlier ++ rest)).2
      rw [notFirst, if_neg (by simp), inductionHypothesis others] at step
      rw [← step]
      simp [separated]

theorem mapFindFsAliasFrom_first
    {token : AliasToken}
    (isAlias : isFsAlias token.text = true)
    (later : List AliasToken) :
    mapFindFsAliasFrom true (joinNames ((token :: later).map (·.text))) =
      some (joinNames ((token :: later).map (·.text))) := by
  cases later with
  | nil =>
      have start := (mapFindFsAliasFrom_start token.separable []).1
      rwa [isAlias, if_pos rfl] at start
  | cons next rest =>
      have start := (mapFindFsAliasFrom_start token.separable
        (joinNames ((next :: rest).map (·.text)))).2
      rwa [isAlias, if_pos rfl] at start

/-- What the scan of the tokens finds, as an index. -/
theorem findFsAliasIn_eq (tokens : List AliasToken) :
    findFsAliasIn (some (memoryOf tokens)) =
      .ok ((mapFindFsAliasFrom true (joinNames (tokens.map (·.text)))).map
        fun found =>
          (joinNames (tokens.map (·.text))).length - found.length) :=
  scanFsAlias_eq [] (nul_notMem_joinNames tokens)

/-- At any token, the copy is that token as far as the buffer allows. -/
theorem copyAliasIn_token
    {library : SafeString}
    (documented : library.Documented)
    {nameSize : UInt64}
    (accepts : library.Accepts nameSize.toNat)
    {name : List Char16}
    (room : name.length = nameSize.toNat)
    (earlier : List AliasToken)
    (token : AliasToken)
    (later : List AliasToken) :
    copyAliasIn library (memoryOf (earlier ++ token :: later))
        (startOf earlier) name nameSize =
      .ok (token.text.take (nameSize.toNat - 1) ++
        nul :: name.drop
          ((token.text.take (nameSize.toNat - 1)).length + 1)) := by
  have copied :
      mapCopyAlias (joinNames ((token :: later).map (·.text)))
          nameSize.toNat =
        token.text.take (nameSize.toNat - 1) := by
    rw [mapCopyAlias, List.map_cons, takeWhile_joinNames token.separable]
  rw [memoryOf, joinNames_separated, List.append_assoc,
    ← length_separated,
    copyAliasIn_eq documented accepts room (separated earlier)
      (nul_notMem_joinNames (token :: later)),
    copied]

/--
The scan of joined tokens stops at the first one that begins with fs in either
case, or nowhere, and the copy made there is that token, cut to the buffer.
-/
theorem aliasList_parsed
    {library : SafeString}
    (documented : library.Documented)
    {nameSize : UInt64}
    (accepts : library.Accepts nameSize.toNat)
    {name : List Char16}
    (room : name.length = nameSize.toNat)
    (tokens : List AliasToken) :
    ((∀ token ∈ tokens, isFsAlias token.text = false) →
      findFsAliasIn (some (memoryOf tokens)) = .ok none) ∧
    ∀ earlier token later,
      tokens = earlier ++ token :: later →
      (∀ other ∈ earlier, isFsAlias other.text = false) →
      isFsAlias token.text = true →
      findFsAliasIn (some (memoryOf tokens)) =
          .ok (some (startOf earlier)) ∧
        copyAliasIn library (memoryOf tokens) (startOf earlier) name
            nameSize =
          .ok (token.text.take (nameSize.toNat - 1) ++
            nul :: name.drop
              ((token.text.take (nameSize.toNat - 1)).length + 1)) := by
  constructor
  · intro noAlias
    have absent : ¬ (mapFindFsAlias
        (some (joinNames (tokens.map (·.text))))).isSome = true := by
      rw [mapFindFsAlias_joinNames fun name member => by
        obtain ⟨token, _, rfl⟩ := List.mem_map.mp member
        exact token.separable]
      rintro ⟨name, member, isAlias⟩
      obtain ⟨token, inTokens, rfl⟩ := List.mem_map.mp member
      rw [noAlias token inTokens] at isAlias
      cases isAlias
    rw [mapFindFsAlias, Option.bind_some, Option.isSome_iff_ne_none,
      not_not] at absent
    rw [findFsAliasIn_eq, absent]
    rfl
  · rintro earlier token later rfl others isAlias
    refine ⟨?_, copyAliasIn_token documented accepts room ..⟩
    rw [findFsAliasIn_eq, joinNames_separated,
      mapFindFsAliasFrom_separated others,
      mapFindFsAliasFrom_first isAlias, ← length_separated]
    simp

/-- A `StrnCpyS` that leaves the destination alone when it refuses. -/
def plainSafeString : SafeString where
  maximum := 1000000
  strnCpyS destination destMax source length :=
    let copied := (source.takeWhile (· ≠ nul)).take length
    if destMax = 0 ∨ 1000000 < destMax ∨ destMax ≤ copied.length then
      destination
    else
      copied ++ nul :: destination.drop (copied.length + 1)

theorem plainSafeString_documented : plainSafeString.Documented where
  copies {destination destMax source after length} accepts _ terminated
      room := by
    have whole :
        (source ++ nul :: after).takeWhile (· ≠ nul) = source := by
      rw [List.takeWhile_append_of_pos, List.takeWhile_cons_of_neg (by simp),
        List.append_nil]
      intro char member
      exact decide_eq_true (ne_of_mem_of_not_mem member terminated)
    have small : destMax ≤ 1000000 :=
      accepts.2.resolve_left (by decide)
    simp only [plainSafeString, whole, List.length_take]
    rw [if_neg, Nat.min_comm]
    rintro (zero | large | tight)
    · exact accepts.1 zero
    · omega
    · omega

/-- `BLK2:`, an empty alias, the letter `f`, and `fs1:`. -/
def sampleTokens : List AliasToken :=
  [⟨wide "BLK2:", by decide, by decide⟩,
    ⟨[], by decide, by decide⟩,
    ⟨wide "f", by decide, by decide⟩,
    ⟨wide "fs1:", by decide, by decide⟩]

theorem aliasList_parsed_sample :
    findFsAliasIn (some (memoryOf sampleTokens)) = .ok (some 9) ∧
      copyAliasIn plainSafeString (memoryOf sampleTokens) 9
          (List.replicate 4 0x3F) 4 =
        .ok (wide "fs1" ++ [nul]) :=
  (aliasList_parsed plainSafeString_documented ⟨by decide, .inr (by decide)⟩
    (by decide) sampleTokens).2 (sampleTokens.take 3)
      ⟨wide "fs1:", by decide, by decide⟩ [] rfl (by decide) (by decide)

end Tokens

end UefiMount
