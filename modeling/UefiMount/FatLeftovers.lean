import UefiMount.FatRecovery
import UefiMount.FatRelocation
import UefiMount.TextSearch

namespace UefiMount.MkFatImg

open TextSearch

/-!
# The text of the report

What `inspect_image` prints, with the verdict on leftovers at its end: it
counts the lines whose text contains `__gufile_st`.  The text of a line is put
together from numbers, labels and two `repr`s.  Which characters outside ASCII
`str.isprintable` accepts is a parameter.
-/

section Text

/-- The characters of a literal. -/
def pyText (literal : String) : PyStr :=
  literal.toList.map fun char => Fin.ofNat _ char.toNat

/-- `str` of a number. -/
def pyDecimal (number : Nat) : PyStr :=
  (Decimal.digits number).map fun digit => Fin.ofNat _ (0x30 + digit)

/-- A digit of a hexadecimal number. -/
def hexDigit (digit : Nat) : CodePoint :=
  Fin.ofNat _ (if digit < 10 then 0x30 + digit else 0x57 + digit)

/-- The last digits of a hexadecimal number. -/
def hexDigits (width number : Nat) : PyStr :=
  (List.range width).map fun i =>
    hexDigit (number / 16 ^ (width - 1 - i) % 16)

/-- The backslash. -/
def escapeMark : CodePoint := 0x5C

/-- How `repr` writes a character between the quotes. -/
def escapeChar
    (printable : CodePoint → Bool)
    (quote char : CodePoint) :
    PyStr :=
  if char = quote ∨ char = escapeMark then
    [escapeMark, char]
  else if char = 0x09 then
    [escapeMark, 0x74]
  else if char = 0x0A then
    [escapeMark, 0x6E]
  else if char = 0x0D then
    [escapeMark, 0x72]
  else if char < 0x20 ∨ char = 0x7F then
    escapeMark :: 0x78 :: hexDigits 2 char
  else if char < 0x7F ∨ printable char then
    [char]
  else if char ≤ 0xFF then
    escapeMark :: 0x78 :: hexDigits 2 char
  else if char ≤ 0xFFFF then
    escapeMark :: 0x75 :: hexDigits 4 char
  else
    escapeMark :: 0x55 :: hexDigits 8 char

/-- The quote that `repr` chooses. -/
def quoteOf (text : PyStr) : CodePoint :=
  if text.contains 0x27 && !text.contains 0x22 then 0x22 else 0x27

/-- `repr` of a string. -/
def pyRepr (printable : CodePoint → Bool) (text : PyStr) : PyStr :=
  quoteOf text ::
    (text.flatMap (escapeChar printable (quoteOf text)) ++ [quoteOf text])

end Text

section Output

variable (printable : CodePoint → Bool)

/-- `'  ' * depth`. -/
def indent (depth : Nat) : PyStr :=
  List.replicate (2 * depth) 0x20

/-- The text of a line. -/
def Line.text : Line → PyStr
  | .root count =>
      pyText "[R] (root) " ++ pyDecimal count ++ pyText " entries"
  | .dir depth count =>
      indent depth ++ pyText "[D] " ++ pyDecimal count ++ pyText " entries"
  | .entry depth isDir short real size clus =>
      indent depth ++ pyText (if isDir then "[D]" else "[F]") ++
        pyText " short=" ++ pyRepr printable short ++
        pyText " real=" ++ pyRepr printable real ++
        pyText " size=" ++ pyDecimal size ++
        pyText " clus=" ++ pyDecimal clus

/-- The text of a use. -/
def Use.text : Use → PyStr
  | dir path =>
      pyText "dir " ++ path
  | file path =>
      pyText "file " ++ path

/-- The lines on conflicts. -/
def conflictTexts (conflicts : List (Nat × Use × Use)) : List PyStr :=
  if conflicts = [] then
    [pyText "CLUSTER CONFLICT: none"]
  else
    conflicts.map fun (c, first, second) =>
      pyText "CLUSTER CONFLICT: cluster " ++ pyDecimal c ++
        pyText " used by " ++ first.text ++ pyText " and " ++ second.text

/-- The name that the leftovers of a self test begin with. -/
def leftoverName : PyStr := pyText "__gufile_st"

/-- `leftovers`. -/
def leftovers (lines : List Line) : List Line :=
  lines.filter fun line => leftoverName <:+: line.text printable

/-- The line on so many leftovers. -/
def leftoversText (count : Nat) : PyStr :=
  pyText "LEFTOVERS __gufile_st*: " ++
    if count ≠ 0 then pyDecimal count else pyText "none"

/-- What `inspect_image` prints. -/
def inspectOutput (inspection : Inspection) : List PyStr :=
  inspection.report.lines.map (Line.text printable) ++
    conflictTexts inspection.report.conflicts ++
    [leftoversText (leftovers printable inspection.report.lines).length]

end Output

section Search

/-- The first character of the name of a leftover, and the others. -/
theorem leftoverName_eq :
    leftoverName = 0x5F :: pyText "_gufile_st" := by
  decide

theorem pyDecimal_free (number : Nat) : 0x5F ∉ pyDecimal number := by
  intro member
  obtain ⟨digit, digitIn, same⟩ := List.mem_map.mp member
  have small := Decimal.digit_lt digitIn
  have value := congrArg Fin.val same
  rw [Fin.val_ofNat, Nat.mod_eq_of_lt (by omega)] at value
  have underscore : (0x5F : CodePoint).val = 0x5F := by decide
  omega

theorem hexDigits_free (width number : Nat) :
    0x5F ∉ hexDigits width number := by
  intro member
  obtain ⟨i, _, same⟩ := List.mem_map.mp member
  have free : ∀ digit < 16, hexDigit digit ≠ 0x5F := by decide
  exact free _ (Nat.mod_lt _ (by decide)) same

theorem indent_free (depth : Nat) : 0x5F ∉ indent depth := by
  intro member
  exact absurd (List.eq_of_mem_replicate member) (by decide)

/-- The ways `repr` writes a character between the quotes. -/
inductive EscapedChar (quote char : CodePoint) : PyStr → Prop where
  | quoted
      (special : char = quote ∨ char = escapeMark) :
      EscapedChar quote char [escapeMark, char]
  | named
      {letter : CodePoint}
      (isLetter : letter ∈ ([0x74, 0x6E, 0x72] : PyStr)) :
      EscapedChar quote char [escapeMark, letter]
  | coded
      {letter : CodePoint}
      (isLetter : letter ∈ ([0x78, 0x75, 0x55] : PyStr))
      (width : Nat) :
      EscapedChar quote char
        (escapeMark :: letter :: hexDigits width char)
  | plain :
      EscapedChar quote char [char]

theorem escapeChar_cases
    (printable : CodePoint → Bool)
    (quote char : CodePoint) :
    EscapedChar quote char (escapeChar printable quote char) := by
  fun_cases escapeChar printable quote char with
  | case1 special =>
      exact .quoted special
  | case2 | case3 | case4 =>
      exact .named (by decide)
  | case5 | case7 | case8 | case9 =>
      exact .coded (by decide) _
  | case6 =>
      exact .plain

theorem escapeChar_escapes
    (printable : CodePoint → Bool)
    {quote : CodePoint}
    (quoted : quote = 0x27 ∨ quote = 0x22) :
    Escapes (escapeChar printable quote) escapeMark 0x5F
      (pyText "_gufile_st") where
  literal := by
    -- Not as a quantifier over code points, of which there are many.
    have plain :
        ((0x5F : CodePoint) :: pyText "_gufile_st").all (fun char =>
          char ≠ 0x27 ∧ char ≠ 0x22 ∧ char ≠ escapeMark ∧ 0x20 ≤ char ∧
            char < 0x7F) = true := by
      decide
    intro char member
    obtain ⟨single, double, mark, least, most⟩ :=
      of_decide_eq_true (List.all_eq_true.mp plain char member)
    have notQuote : char ≠ quote := by
      rcases quoted with rfl | rfl
      · exact single
      · exact double
    have control (control : CodePoint) (below : control < 0x20) :
        char ≠ control :=
      fun same => absurd least (not_le.mpr (same ▸ below))
    rw [escapeChar, if_neg (by simp [notQuote, mark]),
      if_neg (control 0x09 (by decide)), if_neg (control 0x0A (by decide)),
      if_neg (control 0x0D (by decide)),
      if_neg (by simp [not_lt.mpr least, most.ne]), if_pos (.inl most)]
  other := by
    intro char
    have written := escapeChar_cases printable quote char
    generalize escapeChar printable quote char = text at written ⊢
    cases written with
    | quoted special =>
        refine .inr ⟨[char], rfl, ?_⟩
        rintro member
        obtain rfl := List.mem_singleton.mp member
        revert special
        rcases quoted with rfl | rfl <;> decide
    | @named letter isLetter =>
        refine .inr ⟨[letter], rfl, ?_⟩
        rintro member
        obtain rfl := List.mem_singleton.mp member
        exact absurd isLetter (by decide)
    | @coded letter isLetter width =>
        refine .inr ⟨_, rfl, ?_⟩
        rintro member
        rcases List.mem_cons.mp member with rfl | isDigit
        · exact absurd isLetter (by decide)
        · exact hexDigits_free width char isDigit
    | plain =>
        exact .inl rfl
  foreign := by decide

theorem quoteOf_cases (text : PyStr) :
    quoteOf text = 0x27 ∨ quoteOf text = 0x22 := by
  unfold quoteOf
  split
  · exact .inr rfl
  · exact .inl rfl

/-- Text in front of a `repr` and behind it, without underscores. -/
theorem leftoverName_repr_iff
    (printable : CodePoint → Bool)
    {front : PyStr}
    (text back : PyStr)
    (free : 0x5F ∉ front) :
    leftoverName <:+: front ++ (pyRepr printable text ++ back) ↔
      leftoverName <:+: text ∨ leftoverName <:+: back := by
  have quoted := quoteOf_cases text
  have foreign : quoteOf text ∉ leftoverName := by
    rcases quoted with same | same <;> rw [same] <;> decide
  have escapes := escapeChar_escapes printable quoted
  rw [pyRepr, List.cons_append, List.append_assoc, List.singleton_append,
    infix_append_separator foreign, infix_append_separator foreign,
    leftoverName_eq, escapes.infix_iff]
  simp [not_infix_of_not_mem free]

/-- An 8.3 name is too short. -/
theorem leftoverName_shortToName
    {short11 : List UInt8}
    (length : short11.length ≤ 11) :
    ¬ leftoverName <:+: shortToName short11 := by
  have stripped (bytes : List UInt8) :
      (rstrip (latin1 bytes)).length ≤ bytes.length := by
    rw [rstrip, List.length_reverse]
    exact (List.dropWhile_suffix _).length_le.trans (by simp [latin1])
  have short
      {text : PyStr}
      (fits : text.length < 11) :
      ¬ leftoverName <:+: text :=
    fun found => absurd (found.length_le.trans_lt fits) (by decide)
  have base := (stripped (short11.take 8)).trans (List.length_take_le ..)
  have ext := stripped (short11.drop 8)
  rw [List.length_drop] at ext
  have foreign : fullStop ∉ leftoverName := by decide
  rw [shortToName]
  split
  · rw [infix_append_separator foreign]
    exact not_or.mpr ⟨short (by omega), short (by omega)⟩
  · rw [List.append_nil]
    exact short (by omega)

/-- The entry has a name that a leftover has. -/
def Line.IsLeftover : Line → Prop
  | .entry _ _ _ real _ _ =>
      leftoverName <:+: real
  | _ =>
      False

instance : DecidablePred Line.IsLeftover
  | .root _ =>
      inferInstanceAs (Decidable False)
  | .dir .. =>
      inferInstanceAs (Decidable False)
  | .entry _ _ _ real _ _ =>
      inferInstanceAs (Decidable (leftoverName <:+: real))

@[simp]
theorem Line.isLeftover_root (count : Nat) :
    (Line.root count).IsLeftover ↔ False :=
  .rfl

@[simp]
theorem Line.isLeftover_dir (depth count : Nat) :
    (Line.dir depth count).IsLeftover ↔ False :=
  .rfl

@[simp]
theorem Line.isLeftover_entry
    (depth : Nat)
    (isDir : Bool)
    (short real : PyStr)
    (size clus : Nat) :
    (Line.entry depth isDir short real size clus).IsLeftover ↔
      leftoverName <:+: real :=
  .rfl

/-- The short name of the line has been read from the name field of an entry. -/
def Line.ShortRead : Line → Prop
  | .entry _ _ short _ _ _ =>
      ∃ short11 : List UInt8,
        short11.length ≤ 11 ∧ short = shortToName short11
  | _ =>
      True

/-- The text of a line shows the name of a leftover exactly when it has one. -/
theorem Line.text_iff
    (printable : CodePoint → Bool)
    {line : Line}
    (read : line.ShortRead) :
    leftoverName <:+: line.text printable ↔ line.IsLeftover := by
  cases line with
  | root count =>
      have free :
          0x5F ∉ pyText "[R] (root) " ++ pyDecimal count ++
            pyText " entries" := by
        simp only [List.mem_append, pyDecimal_free, or_false, not_or]
        exact ⟨by decide, by decide⟩
      rw [leftoverName_eq]
      exact iff_of_false (not_infix_of_not_mem free) id
  | dir depth count =>
      have free :
          0x5F ∉ indent depth ++ pyText "[D] " ++ pyDecimal count ++
            pyText " entries" := by
        simp only [List.mem_append, pyDecimal_free, indent_free, or_false,
          false_or, not_or]
        exact ⟨by decide, by decide⟩
      rw [leftoverName_eq]
      exact iff_of_false (not_infix_of_not_mem free) id
  | entry depth isDir short real size clus =>
      obtain ⟨short11, length, rfl⟩ := read
      have front :
          0x5F ∉ indent depth ++ pyText (if isDir then "[D]" else "[F]") ++
            pyText " short=" := by
        simp only [List.mem_append, indent_free, false_or, not_or]
        exact ⟨by cases isDir <;> decide, by decide⟩
      have back :
          0x5F ∉ pyText " size=" ++ pyDecimal size ++ pyText " clus=" ++
            pyDecimal clus := by
        simp only [List.mem_append, pyDecimal_free, or_false, not_or]
        exact ⟨by decide, by decide⟩
      have split :
          Line.text printable
              (.entry depth isDir (shortToName short11) real size clus) =
            (indent depth ++ pyText (if isDir then "[D]" else "[F]") ++
              pyText " short=") ++ (pyRepr printable (shortToName short11) ++
                (pyText " real=" ++ (pyRepr printable real ++
                  (pyText " size=" ++ pyDecimal size ++ pyText " clus=" ++
                    pyDecimal clus)))) := by
        simp only [Line.text, List.append_assoc]
      rw [split, leftoverName_repr_iff printable _ _ front,
        leftoverName_repr_iff printable _ _ (by decide)]
      have notBack : ¬ leftoverName <:+: _ := not_infix_of_not_mem back
      simp only [leftoverName_shortToName length, notBack,
        Line.isLeftover_entry, false_or, or_false]

end Search

section Walk

/-- All short names in the report have been read from name fields. -/
def Report.ShortsRead (report : Report) : Prop :=
  ∀ line ∈ report.lines, line.ShortRead

theorem lines_mark (report : Report) (c : Nat) (what : Use) :
    (report.mark c what).lines = report.lines := by
  unfold Report.mark
  split <;> rfl

namespace Report.ShortsRead

variable
  {report : Report}
  (shorts : report.ShortsRead)

include shorts

theorem mark (c : Nat) (what : Use) :
    (report.mark c what).ShortsRead := by
  rw [ShortsRead, lines_mark]
  exact shorts

theorem print
    {line : Line}
    (read : line.ShortRead) :
    (report.print line).ShortsRead := by
  intro other member
  rcases List.mem_append.mp member with earlier | new
  · exact shorts other earlier
  · rw [List.mem_singleton.mp new]
    exact read

theorem marks (what : Use) (chain : List Nat) :
    (chain.foldl (fun report c => report.mark c what) report).ShortsRead := by
  induction chain generalizing report with
  | nil => exact shorts
  | cons c rest inductionHypothesis =>
      exact inductionHypothesis (shorts.mark c what)

end Report.ShortsRead

theorem length_short11_readEntry
    {pending : List (List UInt8)}
    {e : List UInt8}
    {entry : DirEntry}
    (read : readEntry pending e = .ok entry) :
    entry.short11.length ≤ 11 := by
  simp only [readEntry, bind_eq_ok] at read
  obtain ⟨_, _, _, _, _, _, _, _, _, _, built⟩ := read
  obtain rfl := Except.ok.inj built
  exact List.length_take_le ..

section Entries

variable
  {IsRead : DirEntry → Prop}
  (each :
    ∀ {pending e entry}, readEntry pending e = .ok entry → IsRead entry)

include each

/-- What holds of an entry that is read holds of all that a cluster lists. -/
theorem scanEntries_forall
    {es pending later : List (List UInt8)}
    {entries : List DirEntry}
    {done : Bool}
    (found : scanEntries es pending = .ok (entries, later, done)) :
    ∀ entry ∈ entries, IsRead entry := by
  induction es generalizing pending entries later done with
  | nil =>
      obtain ⟨rfl, _⟩ := Prod.mk.inj (Except.ok.inj found)
      exact fun entry member => absurd member List.not_mem_nil
  | cons e rest inductionHypothesis =>
      simp only [scanEntries, bind_eq_ok] at found
      obtain ⟨result, step, found⟩ := found
      cases result with
      | done =>
          obtain ⟨rfl, _⟩ := Prod.mk.inj (Except.ok.inj found)
          exact fun entry member => absurd member List.not_mem_nil
      | pending more =>
          exact inductionHypothesis found
      | found first =>
          obtain ⟨⟨others, behind, ended⟩, further, joined⟩ :=
            bind_eq_ok.mp found
          obtain ⟨rfl, _⟩ := Prod.mk.inj (Except.ok.inj joined)
          exact List.forall_mem_cons.mpr
            ⟨each (readEntry_of_scanEntry step), inductionHypothesis further⟩

/-- And of all that a directory lists. -/
theorem readChain_forall
    {g : Bpb}
    {img : List UInt8}
    {visited : List Nat}
    {fuel clus : Nat}
    {pending : List (List UInt8)}
    {found : List DirEntry × List Nat}
    (read : readChain g img visited fuel clus pending = .ok found) :
    ∀ entry ∈ found.1, IsRead entry := by
  induction fuel generalizing clus pending found with
  | zero =>
      cases read
  | succ fuel inductionHypothesis =>
      rw [readChain_succ] at read
      obtain ⟨⟨entries, later, done⟩, scan, read⟩ := bind_eq_ok.mp read
      have own := scanEntries_forall each (raising_eq_ok.mp scan)
      split at read
      · obtain rfl := Except.ok.inj read
        exact own
      · obtain ⟨next, _, read⟩ := bind_eq_ok.mp read
        split at read
        · obtain rfl := Except.ok.inj read
          exact own
        · obtain ⟨further, others, joined⟩ := bind_eq_ok.mp read
          obtain rfl := Except.ok.inj joined
          intro entry member
          rcases List.mem_append.mp member with here | there
          · exact own entry here
          · exact inductionHypothesis others entry there

end Entries

section Reports

variable
  {g : Bpb}
  {img : List UInt8}
  {report result : Report}

theorem walkChainMark_shorts
    {what : Use}
    {fuel clus : Nat}
    {seen : List Nat}
    (shorts : report.ShortsRead)
    (walked : walkChainMark g img what fuel clus seen report = .ok result) :
    result.ShortsRead := by
  induction fuel generalizing clus seen report with
  | zero => cases walked
  | succ fuel inductionHypothesis =>
      rw [walkChainMark] at walked
      split at walked
      · obtain ⟨next, _, walked⟩ := bind_eq_ok.mp walked
        exact inductionHypothesis (shorts.mark clus what) walked
      · obtain rfl := Except.ok.inj walked
        exact shorts

theorem walkChildren_shorts
    {fuel depth : Nat}
    {path : PyStr}
    {walk : Nat → PyStr → Report → Except InspectError Report}
    (below :
      ∀ {first path report result}, report.ShortsRead →
        walk first path report = .ok result → result.ShortsRead)
    {children : List DirEntry}
    (read : ∀ child ∈ children, child.short11.length ≤ 11)
    (shorts : report.ShortsRead)
    (walked :
      walkChildren g img fuel depth path walk children report = .ok result) :
    result.ShortsRead := by
  induction children generalizing report with
  | nil =>
      obtain rfl := Except.ok.inj walked
      exact shorts
  | cons child rest inductionHypothesis =>
      rw [walkChildren_cons] at walked
      obtain ⟨visited, visit, walked⟩ := bind_eq_ok.mp walked
      have printed :
          (report.print (.entry (depth + 1) child.isDir
            (shortToName child.short11) child.name child.size
            child.first)).ShortsRead :=
        shorts.print ⟨child.short11, read child (List.mem_cons_self ..), rfl⟩
      have visitedShorts : visited.ShortsRead := by
        unfold visitChild at visit
        split at visit
        · exact below printed visit
        · split at visit
          · exact walkChainMark_shorts printed visit
          · obtain rfl := Except.ok.inj visit
            exact printed
      exact inductionHypothesis
        (fun child member => read child (List.mem_cons_of_mem _ member))
        visitedShorts walked

theorem walkDir_shorts
    {fuel depth clus : Nat}
    {visited : List Nat}
    {path : PyStr}
    (shorts : report.ShortsRead)
    (walked : walkDir g img fuel depth clus visited path report = .ok result) :
    result.ShortsRead := by
  induction fuel generalizing depth clus visited path report result with
  | zero => cases walked
  | succ fuel inductionHypothesis =>
      rw [walkDir] at walked
      split at walked
      · obtain rfl := Except.ok.inj walked
        exact shorts
      · obtain ⟨⟨entries, chain⟩, read, walked⟩ := bind_eq_ok.mp walked
        have lengths := readChain_forall length_short11_readEntry read
        refine walkChildren_shorts
          (fun shorts below => inductionHypothesis shorts below)
          (fun child member => lengths child (List.mem_filter.mp member).1)
          ((shorts.marks (.dir path) chain).print ?_) walked
        split <;> trivial

end Reports

/-- The last line that is printed. -/
theorem getLast?_inspectOutput
    (printable : CodePoint → Bool)
    {fuel : Nat}
    {img : List UInt8}
    {inspection : Inspection}
    (inspected : inspectImage fuel img = .ok inspection) :
    (inspectOutput printable inspection).getLast? =
      some (leftoversText
        (inspection.report.lines.countP fun line => line.IsLeftover)) := by
  simp only [inspectImage, bind_eq_ok] at inspected
  obtain ⟨start, _, g, _, report, walked, made⟩ := inspected
  obtain rfl := Except.ok.inj made
  have shorts : report.ShortsRead :=
    walkDir_shorts (fun line member => absurd member List.not_mem_nil) walked
  have same :
      leftovers printable report.lines =
        report.lines.filter fun line => line.IsLeftover := by
    refine List.filter_congr fun line member => ?_
    exact decide_eq_decide.mpr (line.text_iff printable (shorts line member))
  rw [inspectOutput, List.getLast?_append_of_ne_nil _ (by simp), same,
    List.countP_eq_length_filter]
  rfl

/-- No number is written `none`. -/
theorem leftoversText_eq_none_iff (count : Nat) :
    leftoversText count = leftoversText 0 ↔ count = 0 := by
  refine ⟨fun same => ?_, fun zero => by rw [zero]⟩
  by_contra positive
  have tail := List.append_cancel_left same
  rw [if_pos positive, if_neg (by simp)] at tail
  have letter : 0x6E ∈ pyDecimal count := tail ▸ (by decide)
  obtain ⟨digit, digitIn, same⟩ := List.mem_map.mp letter
  have small := Decimal.digit_lt digitIn
  have value := congrArg Fin.val same
  rw [Fin.val_ofNat, Nat.mod_eq_of_lt (by omega)] at value
  have letterValue : (0x6E : CodePoint).val = 0x6E := by decide
  omega

/--
Of whatever image, the verdict is that there are no leftovers exactly when no
entry has `__gufile_st` in its name: no other text makes or hides one.
-/
theorem leftovers_none_iff
    (printable : CodePoint → Bool)
    {fuel : Nat}
    {img : List UInt8}
    {inspection : Inspection}
    (inspected : inspectImage fuel img = .ok inspection) :
    (inspectOutput printable inspection).getLast? =
        some (pyText "LEFTOVERS __gufile_st*: none") ↔
      ∀ line ∈ inspection.report.lines, ¬ line.IsLeftover := by
  have none : pyText "LEFTOVERS __gufile_st*: none" = leftoversText 0 := by
    decide
  rw [getLast?_inspectOutput printable inspected, none, Option.some.injEq,
    leftoversText_eq_none_iff, List.countP_eq_zero]
  simp

/-- The volume with one file `A` has no leftovers. -/
theorem leftovers_none_iff_smallVolume :
    ∃ inspection,
      inspectImage 3 smallVolume = .ok inspection ∧
        (inspectOutput (fun _ => true) inspection).getLast? =
          some (pyText "LEFTOVERS __gufile_st*: none") := by
  have inspected :
      inspectImage 3 smallVolume =
        .ok ⟨⟨1, 1, 1, 0, 1, 2, 0, 1024⟩,
          ⟨[.root 1, .entry 1 false [0x41] [0x41] 0 0],
            [(2, .dir [])], []⟩⟩ := by
    decide +kernel
  exact ⟨_, inspected,
    (leftovers_none_iff (fun _ => true) inspected).mpr (by decide)⟩

end Walk

section Created

/-- The names of all files and directories of a tree. -/
def Nodes.allNames : Nodes → List PyStr
  | .nil =>
      []
  | .file name _ _ rest =>
      name :: rest.allNames
  | .dir name _ _ _ children rest =>
      name :: (children.allNames ++ rest.allNames)

/-- The layout does not change names. -/
theorem Nodes.allNames_erase (nodes : Nodes) :
    nodes.erase.allNames = nodes.allNames := by
  induction nodes with
  | nil => rfl
  | file name content firstClus rest restIH =>
      simp only [erase, allNames, restIH]
  | dir name parentClus firstClus dirN children rest childrenIH restIH =>
      simp only [erase, allNames, childrenIH, restIH]

/-- Leftovers do not show in short names. -/
theorem Line.isLeftover_plain (line : Line) :
    line.plain.IsLeftover ↔ line.IsLeftover := by
  cases line <;> rfl

theorem Nodes.countP_listing (nodes : Nodes) (depth : Nat) :
    (nodes.listing depth).countP (fun line => line.IsLeftover) =
      nodes.allNames.countP (fun name => leftoverName <:+: name) := by
  induction nodes generalizing depth with
  | nil => rfl
  | file name content firstClus rest restIH =>
      simp [listing, allNames, List.countP_cons, restIH]
  | dir name parentClus firstClus dirN children rest childrenIH restIH =>
      simp [listing, allNames, List.countP_cons, childrenIH, restIH]

variable
  {source : Nodes}
  {sizeMb : Int}
  {created : Created}

/--
The verdict on an image that has just been created counts the files and
directories of the source whose names contain `__gufile_st`, at every depth.
-/
theorem leftovers_of_created
    (printable : CodePoint → Bool)
    (made : createImage source sizeMb = .ok created)
    (namesOk : source.NamesOk)
    (fits :
      created.alloc.nextClus - rootClus +
          (demands source).countP Demand.isDir ≤
        created.geometry.clusCount)
    (addressable : Addressable rootClus (demands source)) :
    ∃ inspection,
      Inspects created.img inspection ∧
        (inspectOutput printable inspection).getLast? =
          some (leftoversText
            (source.allNames.countP fun name => leftoverName <:+: name)) := by
  obtain ⟨rawFat, written⟩ := createImage_eq_ok.mp made
  have complete := written.complete (by
    rwa [layoutRoot_nextClus written.laidOut,
      Nat.add_sub_cancel_left] at fits)
  obtain ⟨inspection, ⟨bound, inspects⟩, recovers⟩ :=
    complete.recovers_of_addressable namesOk addressable
  refine ⟨inspection, ⟨bound, inspects⟩, ?_⟩
  have counted :
      inspection.report.lines.countP (fun line => line.IsLeftover) =
        source.allNames.countP fun name => leftoverName <:+: name := by
    calc inspection.report.lines.countP (fun line => line.IsLeftover)
        = (inspection.report.lines.map Line.plain).countP
            (fun line => line.IsLeftover) := by
          rw [List.countP_map]
          exact List.countP_congr fun line _ => by
            simp [Line.isLeftover_plain]
      _ = created.root.children.allNames.countP
            (fun name => leftoverName <:+: name) := by
          rw [recovers.lines, Root.listing, List.countP_cons,
            Nodes.countP_listing]
          rfl
      _ = _ := by
          rw [← Nodes.allNames_erase, recovers.tree, Nodes.allNames_erase]
  rw [getLast?_inspectOutput printable (inspects bound (Nat.le_refl _)), counted]

/-- A directory with a file that a self test has left. -/
def leftoverTree : Nodes :=
  .dir [0x64] 0 0 0 (.file leftoverName [1] 0 .nil) .nil

/-- The layout of this tree, as far as its size goes. -/
theorem layoutRoot_leftoverTree :
    ∃ root alloc,
      layoutRoot leftoverTree = .ok (root, alloc) ∧ alloc.nextClus = 5 := by
  have next :
      (layoutRoot leftoverTree).toOption.map (fun laid => laid.2.nextClus) =
        some 5 := by
    decide +kernel
  cases laidOut : layoutRoot leftoverTree with
  | error problem =>
      rw [laidOut] at next
      cases next
  | ok laid =>
      rw [laidOut] at next
      exact ⟨laid.1, laid.2, rfl, Option.some.inj next⟩

/-- The leftover in the directory is counted. -/
theorem leftovers_of_created_leftoverTree :
    ∃ created inspection,
      createImage leftoverTree 257 = .ok created ∧
        Inspects created.img inspection ∧
        (inspectOutput (fun _ => true) inspection).getLast? =
          some (leftoversText 1) := by
  obtain ⟨root, alloc, laidOut, next⟩ := layoutRoot_leftoverTree
  obtain ⟨rawFat, img, written⟩ :=
    createImage_fits createGeometry_257 (by decide) laidOut
      (Nat.le_trans (Nat.le_of_eq next) (by decide))
  have made := createImage_eq_ok.mpr ⟨rawFat, written⟩
  have namesOk : leftoverTree.NamesOk := by
    refine ⟨nameOk_letter (by decide) (by decide), ⟨?_, trivial⟩, trivial⟩
    exact {
      some := by decide
      short := by decide
      plain := fun char member =>
        of_decide_eq_true (List.all_eq_true.mp
          (by decide : leftoverName.all (fun char => PlainChar char) = true)
          char member)
      notDot := by decide
      notDotDot := by decide
    }
  obtain ⟨inspection, inspects, verdict⟩ :=
    leftovers_of_created (fun _ => true) made namesOk
      (by
        change alloc.nextClus - rootClus + _ ≤ 65659
        rw [next]
        decide +kernel)
      (by decide +kernel)
  exact ⟨_, inspection, made, inspects, verdict⟩

end Created

end UefiMount.MkFatImg
