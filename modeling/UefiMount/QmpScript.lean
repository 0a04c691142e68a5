import UefiMount.Decimal
import UefiMount.QmpDrive

namespace UefiMount.QmpDrive

/-!
# The script of the driver

`main` of `tools/qmp_drive.py` takes a token of its script in each round: a
sleep, a screendump, one of two commands to the machine, or a key with a count.
A key token is split at each `x`, so it means what the usage text says just for
the keys that have no `x` in their names.
-/

/-- A word of the script. -/
abbrev Token : Type :=
  List Char

section Python

/-- What the text given to `float` says. -/
inductive Literal where
  | number
      (negative : Bool)
      (digits : List Nat)
      (places : Nat)
      (exponent : Int)
  | infinity (negative : Bool)
  | nan
  deriving DecidableEq

/-- The exceptions that a token can raise. -/
inductive Problem where
  | valueError
  | overflowError
  | indexError
  deriving DecidableEq

/-- What the driver finds in its interpreter. -/
structure Interpreter where
  /-- `str.isspace` of a character. -/
  isspace : Char → Bool
  /-- `str.isdigit` of a character; also true of superscripts. -/
  isdigit : Char → Bool
  /-- The digit that a decimal character stands for. -/
  decimal : Char → Option Nat
  /-- `sys.get_int_max_str_digits()`, where zero is no limit. -/
  maxStrDigits : Nat
  /-- `time.sleep` of the number that a text says. -/
  sleep : Literal → Except Problem Unit
  isspace_ascii :
    ∀ c, c.toNat < 128 →
      isspace c =
        (c.toNat == 32 || 9 ≤ c.toNat && c.toNat ≤ 13 ||
          28 ≤ c.toNat && c.toNat ≤ 31)
  isdigit_ascii :
    ∀ c, c.toNat < 128 → isdigit c = c.isDigit
  decimal_ascii :
    ∀ c, c.toNat < 128 →
      decimal c = if c.isDigit then some (c.toNat - 48) else none

namespace Interpreter

/-- Digits, with single underscores between them. -/
def digitPart (py : Interpreter) : Token → Option (List Nat)
  | [] =>
      none
  | [c] =>
      (py.decimal c).map fun digit => [digit]
  | c :: '_' :: rest => do
      let digit ← py.decimal c
      let digits ← py.digitPart rest
      return digit :: digits
  | c :: rest => do
      let digit ← py.decimal c
      let digits ← py.digitPart rest
      return digit :: digits

/-- A sign that may be left out: whether it is a minus, and what follows. -/
def sign : Token → Bool × Token
  | '-' :: rest =>
      (true, rest)
  | '+' :: rest =>
      (false, rest)
  | text =>
      (false, text)

/-- Digits that may be left out. -/
def optionalDigits
    (py : Interpreter)
    (text : Token) :
    Option (List Nat) :=
  if text = [] then some [] else py.digitPart text

/-- A number without its exponent: its digits, and how many are decimals. -/
def mantissa
    (py : Interpreter)
    (text : Token) :
    Option (List Nat × Nat) :=
  let whole := text.takeWhile (· ≠ '.')
  match text.dropWhile (· ≠ '.') with
  | [] | [_] =>
      (py.digitPart whole).map fun digits => (digits, 0)
  | _ :: fraction => do
      let digits ← py.optionalDigits whole
      let decimals ← py.digitPart fraction
      return (digits ++ decimals, decimals.length)

/-- The exponent with its letter, zero when there is none. -/
def exponent
    (py : Interpreter) :
    Token → Option Int
  | [] =>
      some 0
  | _ :: written =>
      let (negative, rest) := sign written
      (py.digitPart rest).map fun digits =>
        let value : Int := Nat.ofDigits 10 digits.reverse
        if negative then -value else value

/-- `float` of a text without blanks; its `ValueError` is nothing. -/
def float
    (py : Interpreter)
    (text : Token) :
    Option Literal :=
  let (negative, rest) := sign text
  let lower := rest.map Char.toLower
  let before (c : Char) : Bool := c ≠ 'e' && c ≠ 'E'
  if lower = "inf".toList ∨ lower = "infinity".toList then
    some (.infinity negative)
  else if lower = "nan".toList then
    some .nan
  else do
    let (digits, places) ← py.mantissa (rest.takeWhile before)
    let exponent ← py.exponent (rest.dropWhile before)
    return .number negative digits places exponent

/-- `str.isdigit`. -/
def allDigits (py : Interpreter) (text : Token) : Bool :=
  !text.isEmpty && text.all py.isdigit

/-- `int` of a text that is all digits. -/
def int
    (py : Interpreter)
    (text : Token) :
    Except Problem Nat :=
  if py.maxStrDigits ≠ 0 ∧ py.maxStrDigits < text.length then
    .error .valueError
  else
    match text.mapM py.decimal with
    | some digits =>
        .ok (Nat.ofDigits 10 digits.reverse)
    | none =>
        .error .valueError

/-- `str.split` without a separator. -/
def words (py : Interpreter) (text : Token) : List Token :=
  (text.splitOnP py.isspace).filter (· ≠ [])

end Interpreter

end Python

section Rounds

/-- The name of a frame in the directory of the screenshots. -/
inductive Frame where
  /-- `{stamp}_{name}` -/
  | named (name : Token)
  /-- `{stamp}_{number:03d}` -/
  | numbered (number : Nat)
  deriving DecidableEq

/-- What the driver does. -/
inductive Action where
  | sleep (seconds : Literal)
  | call (cmd : String)
  /-- `send-key`, with the qcodes of the keys that are pressed together. -/
  | sendKey (keys : List Token)
  | shot (frame : Frame)
  deriving DecidableEq

/-- The options that the loop reads. -/
structure Options where
  interval : Literal
  maxShots : Int
  qemuPid : Int

/-- The tokens that are left, and the shots so far. -/
structure Progress where
  tokens : List Token
  shots : Nat
  deriving DecidableEq

/-- A round of the loop. -/
structure Round where
  actions : List Action
  after : Progress
  /-- It comes to the tests at its end; a `continue` does not. -/
  tested : Bool
  deriving DecidableEq

/-- 0.3 seconds. -/
def spacing : Literal :=
  .number false [0, 3] 1 0

/-- The keys of a chord. -/
def chord (name : Token) : List Token :=
  name.splitOn '+'

/-- `sendkey`. -/
def sendkey (name : Token) (n : Nat) : List Action :=
  (List.range n).flatMap fun i =>
    .sendKey (chord name) ::
      if i < n - 1 then [.sleep spacing] else []

namespace Interpreter

/-- The seconds that a token makes the driver sleep, if it is such a token. -/
def sleepToken
    (py : Interpreter) :
    Token → Except Problem (Option Literal)
  | 't' :: number =>
      match py.float number with
      | none =>
          .ok none
      | some seconds =>
          match py.sleep seconds with
          | .ok () =>
              .ok (some seconds)
          | .error .valueError =>
              .ok none
          | .error problem =>
              .error problem
  | _ =>
      .ok none

/-- The name of the key of a token, and how often it is to be pressed. -/
def readKey
    (py : Interpreter)
    (t : Token) :
    Except Problem (Token × Nat) :=
  let parts := t.splitOn 'x'
  let name := if parts.headD [] = [] then t else parts.headD []
  match parts with
  | _ :: second :: _ =>
      if py.allDigits second then
        (py.int second).map fun n => (name, n)
      else
        .ok (name, 1)
  | _ =>
      .ok (name, 1)

/-- The words that are no keys. -/
def reserved : List Token :=
  ["screendump".toList, "vmstop".toList, "vmcont".toList]

/-- What a token does that is no sleep, with the tokens behind it. -/
def command
    (py : Interpreter)
    (t : Token)
    (rest : List Token)
    (shots : Nat) :
    Except Problem Round :=
  if t = "screendump".toList then
    match rest with
    | [] =>
        .error .indexError
    | name :: rest =>
        .ok ⟨[.shot (.named name)], ⟨rest, shots + 1⟩, false⟩
  else if t = "vmstop".toList then
    .ok ⟨[.call "stop"], ⟨rest, shots⟩, false⟩
  else if t = "vmcont".toList then
    .ok ⟨[.call "cont"], ⟨rest, shots⟩, false⟩
  else
    (py.readKey t).map fun (name, n) =>
      ⟨sendkey name n, ⟨rest, shots⟩, true⟩

/-- The body of the loop of `main`, but for the tests at its end. -/
def round
    (py : Interpreter)
    (o : Options)
    (s : Progress) :
    Except Problem Round :=
  match s.tokens with
  | [] => do
      py.sleep o.interval
      return ⟨[.sleep o.interval, .shot (.numbered (s.shots + 1))],
        ⟨[], s.shots + 1⟩, true⟩
  | t :: rest => do
      match ← py.sleepToken t with
      | some seconds =>
          return ⟨[.sleep seconds], ⟨rest, s.shots⟩, false⟩
      | none =>
          py.command t rest s.shots

end Interpreter

/-- The tests at the end of a round, for a machine that lives or not. -/
def Options.ends
    (o : Options)
    (alive : Bool)
    (shots : Nat) :
    Bool :=
  o.qemuPid ≠ 0 && !alive || o.maxShots ≤ shots

/-- Rounds of the loop, with all that they do. -/
inductive Interpreter.Rounds (py : Interpreter) (o : Options) :
    Progress → List Action → Progress → Prop where
  | refl (s : Progress) :
      Rounds py o s [] s
  | step
      {s last : Progress}
      {done : Round}
      {actions : List Action}
      (ran : py.round o s = .ok done)
      (goesOn :
        done.tested = true → ∃ alive, o.ends alive done.after.shots = false)
      (rest : Rounds py o done.after actions last) :
      Rounds py o s (done.actions ++ actions) last

end Rounds

section Letters

/-- What is kept is in front of the first other one, or behind it. -/
theorem mem_takeWhile_or_tail
    {p : α → Bool}
    {a : α}
    (kept : p a = true)
    {list : List α}
    (member : a ∈ list) :
    a ∈ list.takeWhile p ∨ a ∈ (list.dropWhile p).tail := by
  induction list with
  | nil =>
      cases member
  | cons head rest inductionHypothesis =>
      by_cases keeps : p head = true
      · rw [List.takeWhile_cons_of_pos keeps, List.dropWhile_cons_of_pos keeps]
        rcases List.mem_cons.mp member with rfl | later
        · exact .inl (List.mem_cons_self ..)
        · exact (inductionHypothesis later).imp_left (List.mem_cons_of_mem _)
      · rw [List.dropWhile_cons_of_neg keeps]
        rcases List.mem_cons.mp member with rfl | later
        · exact absurd kept keeps
        · exact .inr later

namespace Interpreter

variable (py : Interpreter)

/-- The letter between a key and its count is no digit of a number. -/
theorem decimal_x : py.decimal 'x' = none := by
  rw [py.decimal_ascii 'x' (by decide)]
  rfl

theorem digitPart_of_x
    {text : Token}
    (hasX : 'x' ∈ text) :
    py.digitPart text = none := by
  fun_induction py.digitPart text with
  | case1 =>
      rfl
  | case2 c =>
      rw [← List.mem_singleton.mp hasX, decimal_x]
      rfl
  | case3 c rest inductionHypothesis =>
      rcases List.mem_cons.mp hasX with rfl | later
      · rw [decimal_x]
        rfl
      · rcases List.mem_cons.mp later with underscore | later
        · exact absurd underscore (by decide)
        · rw [inductionHypothesis later]
          cases py.decimal c <;> rfl
  | case4 c rest _ _ inductionHypothesis =>
      rcases List.mem_cons.mp hasX with rfl | later
      · rw [decimal_x]
        rfl
      · rw [inductionHypothesis later]
        cases py.decimal c <;> rfl

theorem mem_sign
    {c : Char}
    (minus : c ≠ '-')
    (plus : c ≠ '+')
    {text : Token}
    (member : c ∈ text) :
    c ∈ (sign text).2 := by
  unfold sign
  split
  · exact (List.mem_cons.mp member).resolve_left minus
  · exact (List.mem_cons.mp member).resolve_left plus
  · exact member

theorem mantissa_of_x
    {text : Token}
    (hasX : 'x' ∈ text) :
    py.mantissa text = none := by
  have halves :=
    @mem_takeWhile_or_tail _ (· ≠ '.') 'x' (by decide) text hasX
  unfold mantissa
  split
  case h_1 behind | h_2 behind =>
      rw [behind] at halves
      have whole := halves.resolve_right List.not_mem_nil
      simp only [py.digitPart_of_x whole, Option.map_none]
  case h_3 fraction _ behind =>
      rw [behind, List.tail_cons] at halves
      rcases halves with whole | later
      · simp only [optionalDigits, if_neg (List.ne_nil_of_mem whole),
          py.digitPart_of_x whole]
        rfl
      · simp only [py.digitPart_of_x later]
        generalize py.optionalDigits _ = digits
        cases digits <;> rfl

theorem exponent_of_x
    {letter : Char}
    {written : Token}
    (hasX : 'x' ∈ written) :
    py.exponent (letter :: written) = none := by
  simp only [exponent,
    py.digitPart_of_x (mem_sign (by decide) (by decide) hasX),
    Option.map_none]

/-- No text with the letter is a number. -/
theorem float_of_x
    {text : Token}
    (hasX : 'x' ∈ text) :
    py.float text = none := by
  have kept := mem_sign (by decide) (by decide) hasX
  have lower : 'x' ∈ (sign text).2.map Char.toLower :=
    List.mem_map.mpr ⟨'x', kept, rfl⟩
  have noWord {word : Token} (without : 'x' ∉ word) :
      (sign text).2.map Char.toLower ≠ word :=
    fun same => without (same ▸ lower)
  have infinity :
      ¬ ((sign text).2.map Char.toLower = "inf".toList ∨
        (sign text).2.map Char.toLower = "infinity".toList) := by
    rintro (short | long)
    · exact noWord (by decide) short
    · exact noWord (by decide) long
  simp only [float]
  rw [if_neg infinity, if_neg (noWord (by decide))]
  have halves :=
    @mem_takeWhile_or_tail _ (fun c => c ≠ 'e' && c ≠ 'E') 'x'
      (by decide) _ kept
  rcases halves with number | power
  · rw [py.mantissa_of_x number]
    rfl
  · cases behind :
        (sign text).2.dropWhile (fun c => c ≠ 'e' && c ≠ 'E') with
    | nil =>
        rw [behind] at power
        cases power
    | cons letter written =>
        rw [behind, List.tail_cons] at power
        rw [py.exponent_of_x power]
        generalize py.mantissa _ = number
        cases number <;> rfl

end Interpreter

end Letters

section Numerals

/-- A count in decimal. -/
def numeral (count : Nat) : Token :=
  (Decimal.digits count).map Nat.digitChar

namespace Interpreter

variable (py : Interpreter)

/-- `int` takes the decimal text of the count. -/
def Reads (count : Nat) : Prop :=
  py.maxStrDigits = 0 ∨ (numeral count).length ≤ py.maxStrDigits

instance (count : Nat) : Decidable (py.Reads count) :=
  inferInstanceAs
    (Decidable
      (py.maxStrDigits = 0 ∨ (numeral count).length ≤ py.maxStrDigits))

/-- The characters of a numeral. -/
theorem digitChar_spec
    {digit : Nat}
    (below : digit < 10) :
    (Nat.digitChar digit).toNat < 128 ∧
      (Nat.digitChar digit).isDigit = true ∧
        (Nat.digitChar digit).toNat - 48 = digit := by
  interval_cases digit <;> decide

theorem isdigit_digitChar
    {digit : Nat}
    (below : digit < 10) :
    py.isdigit (Nat.digitChar digit) = true := by
  obtain ⟨ascii, isDigit, -⟩ := digitChar_spec below
  rw [py.isdigit_ascii _ ascii, isDigit]

theorem decimal_digitChar
    {digit : Nat}
    (below : digit < 10) :
    py.decimal (Nat.digitChar digit) = some digit := by
  obtain ⟨ascii, isDigit, value⟩ := digitChar_spec below
  rw [py.decimal_ascii _ ascii, if_pos isDigit, value]

theorem isspace_digitChar
    {digit : Nat}
    (below : digit < 10) :
    py.isspace (Nat.digitChar digit) = false := by
  rw [py.isspace_ascii _ (digitChar_spec below).1]
  interval_cases digit <;> rfl

theorem mapM_digitChar
    {digits : List Nat}
    (below : ∀ digit ∈ digits, digit < 10) :
    (digits.map Nat.digitChar).mapM py.decimal = some digits := by
  induction digits with
  | nil =>
      rfl
  | cons digit rest inductionHypothesis =>
      have head := py.decimal_digitChar (below digit (List.mem_cons_self ..))
      have tail := inductionHypothesis
        fun digit member => below digit (List.mem_cons_of_mem _ member)
      rw [List.map_cons, List.mapM_cons, head, tail]
      rfl

theorem allDigits_numeral (count : Nat) :
    py.allDigits (numeral count) = true := by
  have some : numeral count ≠ [] := by
    rw [numeral, Ne, List.map_eq_nil_iff]
    unfold Decimal.digits
    split
    · exact List.cons_ne_nil _ _
    · rename_i positive
      rw [List.reverse_eq_nil_iff]
      exact Nat.digits_ne_nil_iff_ne_zero.mpr positive
  have all : (numeral count).all py.isdigit = true := by
    rw [List.all_eq_true]
    intro c member
    obtain ⟨digit, digitMember, rfl⟩ := List.mem_map.mp member
    exact py.isdigit_digitChar (Decimal.digit_lt digitMember)
  rw [allDigits, all, Bool.and_true, Bool.not_eq_true',
    List.isEmpty_eq_false_iff]
  exact some

/-- `int` reads a count back, up to the interpreter's limit. -/
theorem int_numeral (count : Nat) :
    py.int (numeral count) =
      if py.Reads count then .ok count else .error .valueError := by
  have value : (numeral count).mapM py.decimal =
      some (Decimal.digits count) :=
    py.mapM_digitChar fun digit member => Decimal.digit_lt member
  by_cases reads : py.Reads count
  · have within : ¬ (py.maxStrDigits ≠ 0 ∧
        py.maxStrDigits < (numeral count).length) := by
      rintro ⟨limited, long⟩
      exact absurd (reads.resolve_left limited) (Nat.not_le.mpr long)
    rw [int, if_neg within, if_pos reads, value]
    simp only [Decimal.ofDigits_digits]
  · have beyond : py.maxStrDigits ≠ 0 ∧
        py.maxStrDigits < (numeral count).length := by
      simpa only [Reads, not_or, Nat.not_le] using reads
    rw [int, if_pos beyond, if_neg reads]

theorem x_notMem_numeral (count : Nat) : 'x' ∉ numeral count := by
  intro member
  obtain ⟨digit, digitMember, same⟩ := List.mem_map.mp member
  have isDigit := (digitChar_spec (Decimal.digit_lt digitMember)).2.1
  rw [same] at isDigit
  exact absurd isDigit (by decide)

end Interpreter

end Numerals

section Keys

/-- The keys of a `send-key`. -/
def Action.keys : Action → Option (List Token)
  | .sendKey keys =>
      some keys
  | _ =>
      none

/-- The key combinations that are sent, in order. -/
def sent (actions : List Action) : List (List Token) :=
  actions.filterMap Action.keys

@[simp] theorem sent_append (first second : List Action) :
    sent (first ++ second) = sent first ++ sent second :=
  List.filterMap_append

theorem sent_sendkey (name : Token) (n : Nat) :
    sent (sendkey name n) = List.replicate n (chord name) := by
  have each (i : Nat) :
      (.sendKey (chord name) ::
          if i < n - 1 then [.sleep spacing] else []).filterMap
        Action.keys = [chord name] := by
    split <;> rfl
  simp only [sendkey, sent, List.filterMap_flatMap, each]
  rw [← List.map_eq_flatMap, List.map_const', List.length_range]

/-- Names of the same keys are the same. -/
theorem chord_injective
    {first second : Token}
    (same : chord first = chord second) :
    first = second := by
  have joined := congrArg ['+'].intercalate same
  rwa [chord, chord, List.intercalate_splitOn, List.intercalate_splitOn]
    at joined

namespace Interpreter

variable (py : Interpreter)

/-- A token that makes the driver sleep, or fail while it tries to. -/
def Sleeps (t : Token) : Prop :=
  ∃ number seconds,
    t = 't' :: number ∧ py.float number = some seconds ∧
      py.sleep seconds ≠ .error .valueError

/-- The name of a key or of a chord. -/
structure KeyName (k : Token) : Prop where
  parts : [] ∉ chord k
  notReserved : k ∉ reserved
  awake : ¬ py.Sleeps k

/-- A key token does what `sendkey` does. -/
theorem round_of_key
    {t : Token}
    (notReserved : t ∉ reserved)
    (awake : ¬ py.Sleeps t)
    (o : Options)
    (rest : List Token)
    (shots : Nat) :
    py.round o ⟨t :: rest, shots⟩ =
      (py.readKey t).map fun (name, n) =>
        ⟨sendkey name n, ⟨rest, shots⟩, true⟩ := by
  have noSleep : py.sleepToken t = .ok none := by
    unfold sleepToken
    split
    · rename_i number
      split
      · rfl
      · rename_i seconds read
        have fails : py.sleep seconds = .error .valueError := by
          by_contra other
          exact awake ⟨number, seconds, rfl, read, other⟩
        rw [fails]
    · rfl
  simp only [reserved, List.mem_cons, List.not_mem_nil, or_false,
    not_or] at notReserved
  obtain ⟨noShot, noStop, noCont⟩ := notReserved
  simp only [round, noSleep]
  change py.command t rest shots = _
  unfold command
  rw [if_neg noShot, if_neg noStop, if_neg noCont]

/-- Tokens with the letter are key tokens. -/
theorem round_of_x
    {t : Token}
    (hasX : 'x' ∈ t)
    (o : Options)
    (rest : List Token)
    (shots : Nat) :
    py.round o ⟨t :: rest, shots⟩ =
      (py.readKey t).map fun (name, n) =>
        ⟨sendkey name n, ⟨rest, shots⟩, true⟩ := by
  refine py.round_of_key ?_ ?_ o rest shots
  · intro isReserved
    have without : ∀ word ∈ reserved, 'x' ∉ word := by
      decide
    exact without t isReserved hasX
  · rintro ⟨number, seconds, rfl, read, -⟩
    have later : 'x' ∈ number :=
      (List.mem_cons.mp hasX).resolve_left (by decide)
    rw [py.float_of_x later] at read
    cases read

theorem readKey_of_noX
    {k : Token}
    (noX : 'x' ∉ k) :
    py.readKey k = .ok (k, 1) := by
  simp only [readKey, List.splitOn_eq_singleton noX, List.headD_cons,
    ite_self]

theorem readKey_counted
    {k : Token}
    (noX : 'x' ∉ k)
    (some : k ≠ [])
    (count : Nat) :
    py.readKey (k ++ 'x' :: numeral count) =
      (py.int (numeral count)).map fun n => (k, n) := by
  simp only [readKey, List.splitOn_append_cons_self_of_not_mem noX,
    List.splitOn_eq_singleton (x_notMem_numeral count), List.headD_cons,
    if_neg some, py.allDigits_numeral, if_true]

/-- What is in front of the first `x` is taken for the name. -/
theorem readKey_name
    {front : Token}
    (noX : 'x' ∉ front)
    {rest name : Token}
    {n : Nat}
    (read : py.readKey (front ++ 'x' :: rest) = .ok (name, n)) :
    name = if front = [] then front ++ 'x' :: rest else front := by
  simp only [readKey, List.splitOn_append_cons_self_of_not_mem noX,
    List.headD_cons] at read
  split at read
  · split at read
    · rename_i second _ _ _
      cases count : py.int second with
      | ok n =>
          rw [count] at read
          cases read
          rfl
      | error problem =>
          rw [count] at read
          cases read
    · cases read
      rfl
  · cases read
    rfl

end Interpreter

end Keys

section Usage

namespace Interpreter

variable (py : Interpreter)

/-- The token of a key with a count. -/
def counted (k : Token) (count : Nat) : Token :=
  k ++ 'x' :: numeral count

/-- The round of the token presses the keys of the name so many times. -/
def Presses
    (o : Options)
    (t k : Token)
    (count : Nat) :
    Prop :=
  ∀ rest shots,
    ∃ done,
      py.round o ⟨t :: rest, shots⟩ = .ok done ∧
        sent done.actions = List.replicate count (chord k) ∧
          done.after = ⟨rest, shots⟩

/-- The key tokens do what the usage text says, for a key and a count. -/
structure Usage
    (o : Options)
    (k : Token)
    (count : Nat) :
    Prop where
  once :
    py.Presses o k k 1
  times :
    py.Presses o (counted k count) k count
  noEmptyKey :
    ∀ t ∈ [k, counted k count],
      ∀ {rest shots done},
        py.round o ⟨t :: rest, shots⟩ = .ok done →
          ∀ keys ∈ sent done.actions, [] ∉ keys

variable {py} in
theorem KeyName.ne_nil
    {k : Token}
    (isKey : py.KeyName k) :
    k ≠ [] := by
  rintro rfl
  exact isKey.parts (List.mem_singleton.mpr rfl)

variable {o : Options}

/-- A key token presses what it is read as. -/
theorem presses_of_readKey
    {t name : Token}
    {n : Nat}
    (read : py.readKey t = .ok (name, n))
    (isKey : ∀ rest shots, py.round o ⟨t :: rest, shots⟩ =
      (py.readKey t).map fun (name, n) =>
        ⟨sendkey name n, ⟨rest, shots⟩, true⟩) :
    py.Presses o t name n := by
  intro rest shots
  refine ⟨⟨sendkey name n, ⟨rest, shots⟩, true⟩, ?_, ?_, rfl⟩
  · rw [isKey, read]
    rfl
  · exact sent_sendkey name n

/-- The keys that a token with the letter presses are in front of it. -/
theorem name_of_presses
    {front : Token}
    (noX : 'x' ∉ front)
    {behind k : Token}
    {count : Nat}
    (some : 1 ≤ count)
    (presses : py.Presses o (front ++ 'x' :: behind) k count) :
    k = if front = [] then front ++ 'x' :: behind else front := by
  have hasX : 'x' ∈ front ++ 'x' :: behind :=
    List.mem_append_right _ (List.mem_cons_self ..)
  obtain ⟨done, ran, sends, -⟩ := presses [] 0
  rw [py.round_of_x hasX] at ran
  cases read : py.readKey (front ++ 'x' :: behind) with
  | error problem =>
      rw [read] at ran
      cases ran
  | ok result =>
      obtain ⟨name, n⟩ := result
      rw [read] at ran
      cases ran
      rw [sent_sendkey] at sends
      have member : chord k ∈ List.replicate n (chord name) := by
        rw [sends]
        exact List.mem_replicate.mpr ⟨by omega, rfl⟩
      rw [chord_injective (List.mem_replicate.mp member).2]
      exact py.readKey_name noX read

/-- No key with the letter in its name is pressed as it should be. -/
theorem noX_of_usage
    {k : Token}
    {count : Nat}
    (some : 1 ≤ count)
    (usage : py.Usage o k count) :
    'x' ∉ k := by
  intro hasX
  obtain ⟨front, behind, rfl, noX⟩ := List.eq_append_cons_of_mem hasX
  by_cases empty : front = []
  · -- the bare key is right, but the count is taken for a part of the name
    have times := usage.times
    rw [counted, List.append_assoc, List.cons_append] at times
    have name := py.name_of_presses noX some times
    rw [if_pos empty] at name
    have lengths := congrArg List.length name
    simp at lengths
  · have name := py.name_of_presses noX (Nat.le_refl 1) usage.once
    rw [if_neg empty] at name
    have lengths := congrArg List.length name
    simp at lengths

/-- What a token presses, it presses in each round. -/
theorem noEmptyKey_of_presses
    {t k : Token}
    {count : Nat}
    (parts : [] ∉ chord k)
    (presses : py.Presses o t k count)
    {rest : List Token}
    {shots : Nat}
    {done : Round}
    (ran : py.round o ⟨t :: rest, shots⟩ = .ok done) :
    ∀ keys ∈ sent done.actions, [] ∉ keys := by
  intro keys member
  obtain ⟨other, otherRan, sends, -⟩ := presses rest shots
  rw [ran] at otherRan
  cases otherRan
  rw [sends] at member
  rwa [(List.mem_replicate.mp member).2]

variable (o) in
theorem presses_key
    {k : Token}
    (isKey : py.KeyName k)
    (noX : 'x' ∉ k) :
    py.Presses o k k 1 :=
  py.presses_of_readKey (py.readKey_of_noX noX)
    (py.round_of_key isKey.notReserved isKey.awake o)

theorem mem_counted (k : Token) (count : Nat) : 'x' ∈ counted k count :=
  List.mem_append_right _ (List.mem_cons_self ..)

theorem readKey_counted_eq
    {k : Token}
    (isKey : py.KeyName k)
    (noX : 'x' ∉ k)
    (count : Nat) :
    py.readKey (counted k count) =
      if py.Reads count then .ok (k, count) else .error .valueError := by
  rw [counted, py.readKey_counted noX isKey.ne_nil, py.int_numeral]
  split <;> rfl

variable (o) in
theorem presses_counted_iff
    {k : Token}
    (isKey : py.KeyName k)
    (noX : 'x' ∉ k)
    (count : Nat) :
    py.Presses o (counted k count) k count ↔ py.Reads count := by
  have read := py.readKey_counted_eq isKey noX count
  have isToken := py.round_of_x (mem_counted k count) o
  constructor
  · intro presses
    by_contra unread
    obtain ⟨done, ran, -⟩ := presses [] 0
    rw [isToken, read, if_neg unread] at ran
    cases ran
  · intro reads
    rw [if_pos reads] at read
    exact py.presses_of_readKey read isToken

end Interpreter

/--
The tokens of a key do what the usage text says just when there is no `x` in
its name and the interpreter takes the numeral of the count.
-/
theorem usage_iff
    (py : Interpreter)
    (o : Options)
    {k : Token}
    {count : Nat}
    (isKey : py.KeyName k)
    (some : 1 ≤ count) :
    py.Usage o k count ↔ 'x' ∉ k ∧ py.Reads count := by
  constructor
  · intro usage
    have noX := py.noX_of_usage some usage
    exact ⟨noX, (py.presses_counted_iff o isKey noX count).mp usage.times⟩
  · rintro ⟨noX, reads⟩
    have once := py.presses_key o isKey noX
    have times := (py.presses_counted_iff o isKey noX count).mpr reads
    refine ⟨once, times, ?_⟩
    intro t member rest shots done ran
    simp only [List.mem_cons, List.not_mem_nil, or_false] at member
    rcases member with rfl | rfl
    · exact py.noEmptyKey_of_presses isKey.parts once ran
    · exact py.noEmptyKey_of_presses isKey.parts times ran

/-- An interpreter that knows no characters but the ASCII ones. -/
def asciiInterpreter : Interpreter where
  isspace c :=
    c.toNat == 32 || 9 ≤ c.toNat && c.toNat ≤ 13 ||
      28 ≤ c.toNat && c.toNat ≤ 31
  isdigit :=
    Char.isDigit
  decimal c :=
    if c.isDigit then some (c.toNat - 48) else none
  maxStrDigits := 4300
  sleep
    | .number negative digits places exponent =>
        let number := Nat.ofDigits 10 digits.reverse
        let above := 10 ^ (9 + exponent.toNat)
        let below := 10 ^ (places + (-exponent).toNat)
        if negative ∧ number ≠ 0 then
          .error .valueError
        -- the clock counts nanoseconds in 63 bits
        else if 2 ^ 63 * below ≤ number * above then
          .error .overflowError
        else
          .ok ()
    | .infinity _ =>
        .error .overflowError
    | .nan =>
        .error .valueError
  isspace_ascii _ _ := rfl
  isdigit_ascii _ _ := rfl
  decimal_ascii _ _ := rfl

/-- The options of a run with nothing given. -/
def defaultOptions : Options :=
  ⟨.number false [2, 0] 1 0, 40, 0⟩

/-- Tokens that begin with another letter are no sleeps. -/
theorem Interpreter.awake_of_head
    (py : Interpreter)
    {first : Char}
    {rest : Token}
    (other : first ≠ 't') :
    ¬ py.Sleeps (first :: rest) := by
  rintro ⟨number, seconds, same, -⟩
  exact other (List.cons.inj same).1

theorem usage_iff_ret :
    asciiInterpreter.KeyName ['r', 'e', 't'] ∧
      asciiInterpreter.Usage defaultOptions ['r', 'e', 't'] 3 := by
  have isKey : asciiInterpreter.KeyName ['r', 'e', 't'] :=
    ⟨by decide, by decide, asciiInterpreter.awake_of_head (by decide)⟩
  exact ⟨isKey,
    (usage_iff _ _ isKey (by decide)).mpr ⟨by decide, by decide⟩⟩

/-- `ctrl+x` sends an empty qcode instead of the letter. -/
theorem not_usage_ctrlX :
    ¬ ∀ (py : Interpreter) (o : Options) (k : Token) (count : Nat),
      py.KeyName k → 1 ≤ count → py.Usage o k count := by
  intro usage
  have isKey : asciiInterpreter.KeyName ['c', 't', 'r', 'l', '+', 'x'] :=
    ⟨by decide, by decide, asciiInterpreter.awake_of_head (by decide)⟩
  have ran :
      asciiInterpreter.round defaultOptions
          ⟨[['c', 't', 'r', 'l', '+', 'x']], 0⟩ =
        .ok ⟨[.sendKey [['c', 't', 'r', 'l'], []]], ⟨[], 0⟩, true⟩ := by
    rfl
  exact (usage _ defaultOptions _ 1 isKey (Nat.le_refl 1)).noEmptyKey _
    (List.mem_cons_self ..) ran _ (List.mem_cons_self ..) (by decide)

end Usage

section Scripts

/-- A key token of a script, with its count if it has one. -/
structure Press where
  key : Token
  count : Option Nat

namespace Press

def token (p : Press) : Token :=
  match p.count with
  | none =>
      p.key
  | some count =>
      Interpreter.counted p.key count

def times (p : Press) : Nat :=
  p.count.getD 1

/-- The token does what the usage text says. -/
structure Plain (py : Interpreter) (p : Press) : Prop where
  isKey : py.KeyName p.key
  noX : 'x' ∉ p.key
  reads : ∀ count ∈ p.count, py.Reads count
  noBlank : ∀ c ∈ p.key, py.isspace c = false

end Press

namespace Interpreter

variable (py : Interpreter) {o : Options}

variable (o) in
theorem round_of_press
    {p : Press}
    (plain : p.Plain py)
    (rest : List Token)
    (shots : Nat) :
    py.round o ⟨p.token :: rest, shots⟩ =
      .ok ⟨sendkey p.key p.times, ⟨rest, shots⟩, true⟩ := by
  obtain ⟨key, count⟩ := p
  cases count with
  | none =>
      change py.round o ⟨key :: rest, shots⟩ = _
      rw [py.round_of_key plain.isKey.notReserved plain.isKey.awake,
        py.readKey_of_noX plain.noX]
      rfl
  | some count =>
      change py.round o ⟨counted key count :: rest, shots⟩ = _
      rw [py.round_of_x (mem_counted key count),
        py.readKey_counted_eq plain.isKey plain.noX,
        if_pos (plain.reads count rfl)]
      rfl

/-- The key tokens of a script are pressed one after the other. -/
theorem rounds_of_presses
    {presses : List Press}
    (plain : ∀ p ∈ presses, p.Plain py)
    (rest : List Token)
    {shots : Nat}
    (more : shots < o.maxShots) :
    ∃ actions,
      py.Rounds o ⟨presses.map Press.token ++ rest, shots⟩ actions
          ⟨rest, shots⟩ ∧
        sent actions =
          presses.flatMap fun p => List.replicate p.times (chord p.key) := by
  induction presses with
  | nil =>
      exact ⟨[], .refl _, rfl⟩
  | cons p others inductionHypothesis =>
      obtain ⟨actions, rounds, sends⟩ := inductionHypothesis
        fun p member => plain p (List.mem_cons_of_mem _ member)
      have ran := py.round_of_press o
        (plain p (List.mem_cons_self ..))
        (others.map Press.token ++ rest) shots
      have goesOn : o.ends true shots = false := by
        simp only [Options.ends, Bool.not_true, Bool.and_false,
          Bool.false_or, decide_eq_false_iff_not, Int.not_le]
        exact more
      refine ⟨sendkey p.key p.times ++ actions,
        .step ran (fun _ => ⟨true, goesOn⟩) rounds, ?_⟩
      rw [sent_append, sent_sendkey, sends, List.flatMap_cons]

/-- The words of a text are those that it was joined from. -/
theorem words_intercalate
    {tokens : List Token}
    (isWord : ∀ t ∈ tokens, t ≠ [] ∧ ∀ c ∈ t, py.isspace c = false) :
    py.words ([' '].intercalate tokens) = tokens := by
  have blank : py.isspace ' ' = true :=
    py.isspace_ascii ' ' (by decide)
  induction tokens with
  | nil =>
      rfl
  | cons t others inductionHypothesis =>
      obtain ⟨some, letters⟩ := isWord t (List.mem_cons_self ..)
      have later := inductionHypothesis
        fun t member => isWord t (List.mem_cons_of_mem _ member)
      cases others with
      | nil =>
          rw [List.intercalate_singleton, words,
            List.splitOnP_eq_singleton letters,
            List.filter_cons_of_pos (by simpa using some)]
          rfl
      | cons next others =>
          rw [words] at later
          rw [List.intercalate_cons_cons, words, List.append_assoc,
            List.singleton_append,
            List.splitOnP_append_cons_of_forall_mem letters _ blank,
            List.filter_cons_of_pos (by simpa using some), later]

/-- The token of a press is a word. -/
theorem isWord_of_press
    {p : Press}
    (plain : p.Plain py) :
    p.token ≠ [] ∧ ∀ c ∈ p.token, py.isspace c = false := by
  obtain ⟨key, count⟩ := p
  cases count with
  | none =>
      exact ⟨plain.isKey.ne_nil, plain.noBlank⟩
  | some count =>
      refine ⟨List.append_ne_nil_of_left_ne_nil plain.isKey.ne_nil _, ?_⟩
      intro c member
      rcases List.mem_append.mp member with inKey | behind
      · exact plain.noBlank c inKey
      · rcases List.mem_cons.mp behind with rfl | inNumeral
        · rw [py.isspace_ascii 'x' (by decide)]
          rfl
        · obtain ⟨digit, digitMember, rfl⟩ := List.mem_map.mp inNumeral
          exact py.isspace_digitChar (Decimal.digit_lt digitMember)

/--
A script of keys without the letter is run to its end, and sends just the
combinations that the usage text says.
-/
theorem rounds_of_script
    {presses : List Press}
    (plain : ∀ p ∈ presses, p.Plain py)
    (more : 0 < o.maxShots) :
    ∃ actions,
      py.Rounds o ⟨py.words ([' '].intercalate (presses.map Press.token)), 0⟩
          actions ⟨[], 0⟩ ∧
        sent actions =
          presses.flatMap fun p => List.replicate p.times (chord p.key) := by
  have isWord :
      ∀ t ∈ presses.map Press.token,
        t ≠ [] ∧ ∀ c ∈ t, py.isspace c = false := by
    intro t member
    obtain ⟨p, pressed, rfl⟩ := List.mem_map.mp member
    exact py.isWord_of_press (plain p pressed)
  have rounds := py.rounds_of_presses plain [] more
  rwa [List.append_nil, ← py.words_intercalate isWord] at rounds

end Interpreter

end Scripts

end UefiMount.QmpDrive
