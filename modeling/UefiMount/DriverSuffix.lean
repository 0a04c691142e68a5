import UefiMount.AliasScan
import UefiMount.DriverDedupe

namespace UefiMount

/-!
# The suffix test of the image walk

`MountDriverLoaded` compares the tail of each path text with the driver file
and looks at the character in front of the tail.  Here the index arithmetic is
checked: a difference below zero, or a read outside the text and its
terminator, is a fault.  The test is the one on path components: those of the
driver file are the last ones of the text.
-/

section Components

variable {α : Type _}

/-- Lists joined by a separator, the later ones behind the earlier ones. -/
theorem intercalate_append_of_ne_nil
    (separator : α)
    {first second : List (List α)}
    (firstSome : first ≠ [])
    (secondSome : second ≠ []) :
    [separator].intercalate (first ++ second) =
      [separator].intercalate first ++
        separator :: [separator].intercalate second := by
  induction first with
  | nil =>
      exact absurd rfl firstSome
  | cons head rest inductionHypothesis =>
      cases rest with
      | nil =>
          rw [List.singleton_append,
            List.intercalate_cons_of_ne_nil secondSome,
            List.intercalate_singleton, List.append_assoc,
            List.singleton_append]
      | cons next rest =>
          have later := inductionHypothesis (List.cons_ne_nil next rest)
          rw [List.cons_append, List.cons_append,
            List.intercalate_cons_cons, ← List.cons_append, later,
            List.intercalate_cons_cons]
          simp only [List.append_assoc]

/-- The parts of one text are the last parts of another one. -/
theorem splitOn_suffix_iff
    [BEq α]
    [LawfulBEq α]
    (separator : α)
    {text tail : List α} :
    tail.splitOn separator <:+ text.splitOn separator ↔
      text = tail ∨ ∃ front, text = front ++ separator :: tail := by
  constructor
  · rintro ⟨front, parts⟩
    have joined := congrArg ([separator].intercalate ·) parts
    simp only [List.intercalate_splitOn] at joined
    cases front with
    | nil =>
        rw [List.nil_append, List.intercalate_splitOn] at joined
        exact .inl joined.symm
    | cons head rest =>
        rw [intercalate_append_of_ne_nil separator (List.cons_ne_nil _ _)
          (List.splitOn_ne_nil _ _), List.intercalate_splitOn] at joined
        exact .inr ⟨_, joined.symm⟩
  · rintro (rfl | ⟨front, rfl⟩)
    · exact List.suffix_rfl
    · rw [List.splitOn_append_cons_self]
      exact List.suffix_append ..

end Components

/-- The components of a path text. -/
def components (path : Text) : List Text :=
  path.splitOn backslash

/-- A `UINTN` difference; below zero it is a fault. -/
def indexSub (minuend subtrahend : Nat) : Except ReadFault Nat :=
  if subtrahend ≤ minuend then
    .ok (minuend - subtrahend)
  else
    .error ⟨(minuend : Int) - subtrahend⟩

/-- The condition on one path text, evaluated from left to right. -/
def textEndsWithDriver
    (text driverFile : Text) :
    Except ReadFault Bool :=
  let textLen := text.length
  let fileLen := driverFile.length
  if fileLen ≤ textLen then do
    let tail ← indexSub textLen fileLen
    if text.drop tail = driverFile then
      if textLen = fileLen then
        return true
      else
        let difference ← indexSub textLen fileLen
        let index ← indexSub difference 1
        let before ← readChar (text ++ [nul]) index
        return before == backslash
    else
      return false
  else
    .ok false

/-- The round of the walk for one image: `Found` afterwards. -/
def imageMatches
    (scan : ImageScan)
    (driverFile : Text)
    (image : LoadedImage) :
    Except ReadFault Bool :=
  if scan.readable image.handle then
    match image.filePath with
    | none =>
        .ok false
    | some text =>
        textEndsWithDriver text driverFile
  else
    .ok false

/-- The walk over the images, up to the first match. -/
def walkImages
    (scan : ImageScan)
    (driverFile : Text) :
    List LoadedImage → Except ReadFault Bool
  | [] =>
      .ok false
  | image :: rest => do
      let found ← imageMatches scan driverFile image
      if found then
        return true
      else
        walkImages scan driverFile rest

/-- `MountDriverLoaded`, with its index arithmetic checked. -/
def driverLoadedIn
    (scan : ImageScan)
    (driverFile : Text)
    (images : List LoadedImage) :
    Except ReadFault Bool :=
  if scan.locate.isError then
    .ok false
  else
    walkImages scan driverFile images

/-- The images that the walk sees, with the path text of each. -/
def walkedTexts
    (scan : ImageScan)
    (images : List LoadedImage) :
    List (Option Text) :=
  if scan.locate.isError then
    []
  else
    images.map fun image =>
      if scan.readable image.handle then image.filePath else none

theorem indexSub_of_le
    {minuend subtrahend : Nat}
    (atMost : subtrahend ≤ minuend) :
    indexSub minuend subtrahend = .ok (minuend - subtrahend) :=
  if_pos atMost

/-- No pair of lengths faults, and the checks change nothing. -/
theorem textEndsWithDriver_eq (text driverFile : Text) :
    textEndsWithDriver text driverFile =
      .ok (endsWithDriver text driverFile) := by
  rw [textEndsWithDriver, endsWithDriver]
  by_cases fits : driverFile.length ≤ text.length
  · have reached : decide (driverFile.length ≤ text.length) = true :=
      decide_eq_true fits
    simp only [if_pos fits, indexSub_of_le fits, bind, Except.bind, reached,
      Bool.true_and]
    by_cases same :
        text.drop (text.length - driverFile.length) = driverFile
    · have tail := beq_iff_eq.mpr same
      rw [if_pos same, tail, Bool.true_and]
      by_cases whole : text.length = driverFile.length
      · rw [if_pos whole, beq_iff_eq.mpr whole, Bool.true_or]
        rfl
      · have inside :
            text.length - driverFile.length - 1 < text.length := by
          omega
        have read :
            readChar (text ++ [nul])
                (text.length - driverFile.length - 1 : Nat) =
              .ok (text.get ⟨_, inside⟩) := by
          rw [readChar, if_neg (by omega), Int.toNat_natCast,
            List.getElem?_append_left inside,
            List.getElem?_eq_getElem inside]
          rfl
        rw [if_neg whole, indexSub_of_le (by omega),
          beq_false_of_ne whole, Bool.false_or,
          List.getElem?_eq_getElem inside]
        simp only [read]
        rfl
    · rw [if_neg same, beq_false_of_ne same]
      rfl
  · rw [if_neg fits, decide_eq_false fits]
    rfl

theorem imageMatches_eq
    (scan : ImageScan)
    (driverFile : Text)
    (image : LoadedImage) :
    imageMatches scan driverFile image =
      .ok (scan.readable image.handle && image.isDriver driverFile) := by
  rw [imageMatches, LoadedImage.isDriver]
  cases scan.readable image.handle with
  | false =>
      rfl
  | true =>
      cases image.filePath with
      | none =>
          rfl
      | some text =>
          exact textEndsWithDriver_eq text driverFile

/-- The walk without faults is the search for a match. -/
theorem walkImages_eq
    (scan : ImageScan)
    (driverFile : Text)
    (images : List LoadedImage) :
    walkImages scan driverFile images =
      .ok (images.any fun image =>
        scan.readable image.handle && image.isDriver driverFile) := by
  induction images with
  | nil =>
      rfl
  | cons image rest inductionHypothesis =>
      rw [walkImages, imageMatches_eq, inductionHypothesis, List.any_cons]
      cases scan.readable image.handle && image.isDriver driverFile <;> rfl

theorem driverLoadedIn_eq
    (scan : ImageScan)
    (driverFile : Text)
    (images : List LoadedImage) :
    driverLoadedIn scan driverFile images =
      .ok (mountDriverLoaded scan driverFile images) := by
  rw [driverLoadedIn, mountDriverLoaded, walkImages_eq]
  split <;> rfl

/-- The suffix test is the test on path components. -/
theorem endsWithDriver_components (text driverFile : Text) :
    endsWithDriver text driverFile = true ↔
      components driverFile <:+ components text := by
  rw [endsWithDriver_iff, components, components, splitOn_suffix_iff]

/--
The walk never faults, and it finds the driver exactly when the components of
the driver file are the last components of a path text that it sees.
-/
theorem driverLoadedIn_components
    (scan : ImageScan)
    (driverFile : Text)
    (images : List LoadedImage) :
    ∃ loaded,
      driverLoadedIn scan driverFile images = .ok loaded ∧
        (loaded = true ↔
          ∃ text, some text ∈ walkedTexts scan images ∧
            components driverFile <:+ components text) := by
  refine ⟨_, driverLoadedIn_eq .., ?_⟩
  simp only [mountDriverLoaded, walkedTexts]
  split
  · simp
  · simp only [List.any_eq_true, Bool.and_eq_true, LoadedImage.isDriver,
      List.mem_map]
    constructor
    · rintro ⟨image, member, readable, isDriver⟩
      split at isDriver
      · cases isDriver
      · rename_i text named
        exact ⟨text, ⟨image, member, by rw [if_pos readable, named]⟩,
          (endsWithDriver_components ..).mp isDriver⟩
    · rintro ⟨text, ⟨image, member, seen⟩, isSuffix⟩
      split at seen
      · rename_i readable
        refine ⟨image, member, readable, ?_⟩
        rw [seen]
        exact (endsWithDriver_components ..).mpr isSuffix
      · cases seen

end UefiMount
