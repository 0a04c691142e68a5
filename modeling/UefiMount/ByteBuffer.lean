import Mathlib.Data.List.GetD

namespace ByteBuffer

/-!
# Slices of a growable buffer

Reading and assigning slices of a buffer whose length an assignment may
change.  What a buffer holds is described by patches over a blank background;
assignments add a patch, and a slice that meets one patch only is read as that
patch.
-/

section Slices

/-- The part of a buffer of a given length from an offset on. -/
def slice (buffer : List α) (start length : Nat) : List α :=
  (buffer.drop start).take length

/-- Replace what lies between two offsets, whatever the lengths. -/
def splice (buffer : List α) (start stop : Nat) (data : List α) : List α :=
  buffer.take start ++ data ++ buffer.drop stop

theorem length_slice
    {buffer : List α}
    {start length : Nat}
    (inside : start + length ≤ buffer.length) :
    (slice buffer start length).length = length := by
  simp only [slice, List.length_take, List.length_drop]
  omega

/-- A slice of a slice is a slice. -/
theorem slice_slice
    (buffer : List α)
    {start length offset count : Nat}
    (inside : offset + count ≤ length) :
    slice (slice buffer start length) offset count =
      slice buffer (start + offset) count := by
  simp only [slice, List.drop_take, List.take_take, List.drop_drop]
  congr 1
  omega

/-- A slice behind other elements. -/
theorem slice_append_length
    (front buffer : List α)
    (start length : Nat) :
    slice (front ++ buffer) (front.length + start) length =
      slice buffer start length := by
  rw [slice, slice, List.drop_append,
    List.drop_eq_nil_of_le (Nat.le_add_right ..), List.nil_append,
    Nat.add_sub_cancel_left]

theorem getElem?_slice
    (buffer : List α)
    {start length index : Nat}
    (inside : index < length) :
    (slice buffer start length)[index]? = buffer[start + index]? := by
  simp only [slice, List.getElem?_take, inside, ↓reduceIte,
    List.getElem?_drop]

/-- A slice of the blank front of a buffer is blank. -/
theorem slice_replicate_append
    (blank : α)
    (back : List α)
    {front start length : Nat}
    (inside : start + length ≤ front) :
    slice (List.replicate front blank ++ back) start length =
      List.replicate length blank := by
  rw [slice, List.drop_append_of_le_length, List.drop_replicate,
    List.take_append_of_le_length, List.take_replicate]
  · congr 1
    omega
  · rw [List.length_replicate]
    omega
  · rw [List.length_replicate]
    omega

theorem length_splice
    (buffer : List α)
    (start stop : Nat)
    (data : List α) :
    (splice buffer start stop data).length =
      min start buffer.length + data.length + (buffer.length - stop) := by
  simp [splice, Nat.add_assoc]

/-- What an assignment to a slice that begins inside the buffer leaves. -/
theorem getElem?_splice
    {buffer : List α}
    {start : Nat}
    (inside : start ≤ buffer.length)
    (stop : Nat)
    (data : List α)
    (index : Nat) :
    (splice buffer start stop data)[index]? =
      if index < start then
        buffer[index]?
      else if index < start + data.length then
        data[index - start]?
      else
        buffer[stop + (index - (start + data.length))]? := by
  have front : (buffer.take start).length = start :=
    List.length_take_of_le inside
  simp only [splice, List.append_assoc]
  split
  case isTrue before =>
    rw [List.getElem?_append_left (by omega), List.getElem?_take,
      if_pos before]
  case isFalse notBefore =>
    rw [List.getElem?_append_right (by omega), front]
    split
    case isTrue within =>
      rw [List.getElem?_append_left (by omega)]
    case isFalse =>
      rw [List.getElem?_append_right (by omega), List.getElem?_drop]
      congr 1
      omega

/-- An assignment replaces the slice between its offsets. -/
theorem splice_middle
    (left middle right data : List α)
    {start stop : Nat}
    (starts : start = left.length)
    (stops : stop = left.length + middle.length) :
    splice (left ++ (middle ++ right)) start stop data =
      left ++ data ++ right := by
  subst starts stops
  simp [splice, List.drop_append]

/-- An assignment to the blank rest of a buffer extends its front. -/
theorem splice_front
    (front data : List α)
    (blank : α)
    (room : Nat)
    {start stop : Nat}
    (starts : start = front.length)
    (stops : stop = start + data.length) :
    splice (front ++ List.replicate room blank) start stop data =
      front ++ data ++ List.replicate (room - data.length) blank := by
  subst starts stops
  simp [splice, List.drop_append]

/-- An assignment is read back. -/
theorem slice_splice
    {buffer : List α}
    {start : Nat}
    (inside : start ≤ buffer.length)
    (stop : Nat)
    (data : List α) :
    slice (splice buffer start stop data) start data.length = data := by
  apply List.ext_getElem?
  intro index
  by_cases within : index < data.length
  · rw [getElem?_slice _ within, getElem?_splice inside,
      if_neg (by omega), if_pos (by omega), Nat.add_sub_cancel_left]
  · rw [List.getElem?_eq_none (by simp only [slice, List.length_take]; omega),
      List.getElem?_eq_none (by omega)]

/-- An assignment of the slice's own length leaves other slices alone. -/
theorem slice_splice_beside
    {buffer data : List α}
    {start : Nat}
    (inside : start + data.length ≤ buffer.length)
    {offset length : Nat}
    (beside : offset + length ≤ start ∨ start + data.length ≤ offset) :
    slice (splice buffer start (start + data.length) data) offset length =
      slice buffer offset length := by
  apply List.ext_getElem?
  intro index
  by_cases within : index < length
  · rw [getElem?_slice _ within, getElem?_slice _ within,
      getElem?_splice (by omega)]
    split
    · rfl
    · rw [if_neg (by omega)]
      congr 1
      omega
  · rw [List.getElem?_eq_none (by simp only [slice, List.length_take]; omega),
      List.getElem?_eq_none (by simp only [slice, List.length_take]; omega)]

/-- Slice assignments one after the other: start, stop and data of each. -/
def assign (buffer : List α) (rows : List (Nat × Nat × List α)) : List α :=
  rows.foldl (fun buffer row => splice buffer row.1 row.2.1 row.2.2) buffer

theorem assign_append
    (buffer : List α)
    (earlier later : List (Nat × Nat × List α)) :
    assign buffer (earlier ++ later) = assign (assign buffer earlier) later :=
  List.foldl_append

/-- The assignments fill adjoining slices from an offset on. -/
def Adjoining : Nat → List (Nat × Nat × List α) → Prop
  | _, [] =>
      True
  | offset, (start, stop, data) :: rows =>
      start = offset ∧ stop = start + data.length ∧ Adjoining stop rows

/-- Adjoining assignments write their data one after the other. -/
theorem assign_adjoining
    {rows : List (Nat × Nat × List α)}
    {front : List α}
    (adjoining : Adjoining front.length rows)
    (blank : α)
    (room : Nat) :
    assign (front ++ List.replicate room blank) rows =
      front ++ rows.flatMap (·.2.2) ++
        List.replicate (room - (rows.flatMap (·.2.2)).length) blank := by
  induction rows generalizing front room with
  | nil =>
      simp [assign]
  | cons row rows inductionHypothesis =>
      obtain ⟨start, stop, data⟩ := row
      obtain ⟨starts, stops, adjoining⟩ := adjoining
      have next :
          Adjoining (front ++ data).length rows := by
        rw [List.length_append, ← starts, ← stops]
        exact adjoining
      rw [assign, List.foldl_cons, splice_front front data blank room
        starts stops]
      have later := inductionHypothesis next (room - data.length)
      rw [assign] at later
      rw [later]
      simp [List.append_assoc, Nat.sub_sub]

/-- Each of the adjoining slices holds its data. -/
theorem slice_adjoining
    {rows : List (Nat × Nat × List α)}
    {front : List α}
    (adjoining : Adjoining front.length rows)
    (back : List α)
    {row : Nat × Nat × List α}
    (member : row ∈ rows) :
    slice (front ++ rows.flatMap (·.2.2) ++ back) row.1 row.2.2.length =
      row.2.2 := by
  induction rows generalizing front with
  | nil =>
      cases member
  | cons first rows inductionHypothesis =>
      obtain ⟨start, stop, data⟩ := first
      obtain ⟨starts, stops, adjoining⟩ := adjoining
      rcases List.mem_cons.mp member with rfl | member
      · simp [slice, starts]
      · have next :
            Adjoining (front ++ data).length rows := by
          rw [List.length_append, ← starts, ← stops]
          exact adjoining
        have later := inductionHypothesis next member
        rwa [List.flatMap_cons, ← List.append_assoc front]

section Pieces

variable {pieces : List (List α)} {width : Nat}

theorem drop_flatten
    (each : ∀ piece ∈ pieces, piece.length = width)
    (count : Nat) :
    pieces.flatten.drop (width * count) = (pieces.drop count).flatten := by
  induction count generalizing pieces with
  | zero =>
      rfl
  | succ count inductionHypothesis =>
      cases pieces with
      | nil =>
          simp
      | cons piece rest =>
          obtain ⟨own, others⟩ := List.forall_mem_cons.mp each
          rw [List.drop_succ_cons, ← inductionHypothesis others,
            List.flatten_cons, Nat.mul_succ, Nat.add_comm,
            ← List.drop_drop, List.drop_left' own]

theorem take_flatten
    (each : ∀ piece ∈ pieces, piece.length = width)
    (count : Nat) :
    pieces.flatten.take (width * count) = (pieces.take count).flatten := by
  induction count generalizing pieces with
  | zero =>
      simp
  | succ count inductionHypothesis =>
      cases pieces with
      | nil =>
          simp
      | cons piece rest =>
          obtain ⟨own, others⟩ := List.forall_mem_cons.mp each
          rw [List.take_succ_cons, List.flatten_cons, List.flatten_cons,
            ← inductionHypothesis others, Nat.mul_succ, Nat.add_comm,
            ← own, List.take_length_add_append]

/-- A slice between pieces of one length has whole pieces. -/
theorem slice_flatten
    (each : ∀ piece ∈ pieces, piece.length = width)
    (start count : Nat) :
    slice pieces.flatten (width * start) (width * count) =
      ((pieces.drop start).take count).flatten := by
  rw [slice, drop_flatten each, take_flatten]
  exact fun piece member => each piece (List.mem_of_mem_drop member)

/-- The pieces of one length are read back one by one. -/
theorem map_slice_flatten
    (each : ∀ piece ∈ pieces, piece.length = width)
    {count : Nat}
    (enough : count ≤ pieces.length) :
    (List.range count).map
        (fun place => slice pieces.flatten (width * place) width) =
      pieces.take count := by
  apply List.ext_getElem
  · simp [enough]
  · intro place inRange inPieces
    have held := slice_flatten each place 1
    rw [Nat.mul_one] at held
    simp only [List.getElem_map, List.getElem_range, held,
      List.getElem_take]
    rw [List.length_map, List.length_range] at inRange
    have first :
        (pieces.drop place).take 1 = [pieces[place]] := by
      rw [List.drop_eq_getElem_cons (by omega), List.take_succ_cons,
        List.take_zero]
    rw [first, List.flatten_singleton]

end Pieces

end Slices

/-- Data at an offset. -/
structure Patch (α : Type _) where
  offset : Nat
  data : List α

namespace Patch

/-- The offset behind the data. -/
def stop (patch : Patch α) : Nat :=
  patch.offset + patch.data.length

/-- The patches do not meet. -/
def Disjoint (first second : Patch α) : Prop :=
  first.stop ≤ second.offset ∨ second.stop ≤ first.offset

/-- Patches listed from the highest down to the lowest do not meet. -/
theorem apart_of_ordered
    {patches : List (Patch α)}
    (ordered :
      patches.Pairwise fun higher lower => lower.stop ≤ higher.offset)
    {first second : Patch α}
    (firstMember : first ∈ patches)
    (secondMember : second ∈ patches) :
    first = second ∨ first.Disjoint second := by
  induction ordered with
  | nil =>
      cases firstMember
  | cons below _ inductionHypothesis =>
      rcases List.mem_cons.mp firstMember with rfl | firstLater <;>
        rcases List.mem_cons.mp secondMember with rfl | secondLater
      · exact .inl rfl
      · exact .inr (.inr (below second secondLater))
      · exact .inr (.inl (below first firstLater))
      · exact inductionHypothesis firstLater secondLater

end Patch

/-- The content of a blank background under patches, the latest one first. -/
def patched (blank : α) : List (Patch α) → Nat → α
  | [], _ =>
      blank
  | patch :: patches, index =>
      if patch.offset ≤ index ∧ index < patch.stop then
        patch.data.getD (index - patch.offset) blank
      else
        patched blank patches index

section Patched

variable {blank : α} {patches : List (Patch α)}

/-- Where the latest patch lies, it shows. -/
theorem patched_within
    {patch : Patch α}
    {index : Nat}
    (reached : patch.offset ≤ index)
    (within : index < patch.offset + patch.data.length) :
    patched blank (patch :: patches) index =
      patch.data.getD (index - patch.offset) blank :=
  if_pos ⟨reached, within⟩

/-- Elsewhere the earlier patches show. -/
theorem patched_beside
    {patch : Patch α}
    {index : Nat}
    (beside :
      index < patch.offset ∨ patch.offset + patch.data.length ≤ index) :
    patched blank (patch :: patches) index =
      patched blank patches index := by
  apply if_neg
  simp only [Patch.stop]
  omega

/-- Outside all patches the background shows. -/
theorem patched_outside
    {index : Nat}
    (outside :
      ∀ patch ∈ patches, index < patch.offset ∨ patch.stop ≤ index) :
    patched blank patches index = blank := by
  induction patches with
  | nil =>
      rfl
  | cons patch rest inductionHypothesis =>
      rw [patched_beside (outside patch (List.mem_cons_self ..))]
      exact inductionHypothesis fun other member =>
        outside other (List.mem_cons_of_mem _ member)

/-- A patch that no other one meets shows all of its data. -/
theorem patched_member
    {patch : Patch α}
    (member : patch ∈ patches)
    (alone : ∀ other ∈ patches, other = patch ∨ other.Disjoint patch)
    {index : Nat}
    (within : index < patch.data.length) :
    patched blank patches (patch.offset + index) = patch.data[index] := by
  induction patches with
  | nil =>
      cases member
  | cons first rest inductionHypothesis =>
      rcases alone first (List.mem_cons_self ..) with rfl | apart
      · rw [patched_within (by omega) (by omega)]
        simp [within]
      · simp only [Patch.Disjoint, Patch.stop] at apart
        rw [patched_beside (by omega)]
        apply inductionHypothesis
        · rcases List.mem_cons.mp member with rfl | member
          · omega
          · exact member
        · exact fun other inRest =>
            alone other (List.mem_cons_of_mem _ inRest)

/-- Two patches side by side show like one. -/
theorem patched_merge
    (offset : Nat)
    (left right : List α)
    (index : Nat) :
    patched blank
        (⟨offset + left.length, right⟩ :: ⟨offset, left⟩ :: patches)
        index =
      patched blank (⟨offset, left ++ right⟩ :: patches) index := by
  by_cases inRight :
      offset + left.length ≤ index ∧
        index < offset + left.length + right.length
  · rw [patched_within inRight.1 inRight.2,
      patched_within (by dsimp only; omega)
        (by simp only [List.length_append]; omega),
      List.getD_append_right _ _ _ _ (by dsimp only; omega)]
    congr 1
    dsimp only
    omega
  · rw [patched_beside (by dsimp only; omega)]
    by_cases inLeft : offset ≤ index ∧ index < offset + left.length
    · rw [patched_within inLeft.1 inLeft.2,
        patched_within inLeft.1
          (by simp only [List.length_append]; omega),
        List.getD_append _ _ _ _ (by dsimp only; omega)]
    · rw [patched_beside (by dsimp only; omega),
        patched_beside (by simp only [List.length_append]; omega)]

/-- Blanks at the end of a patch over blank ground do not show. -/
theorem patched_trim
    {offset : Nat}
    (data : List α)
    (count : Nat)
    (earlier : ∀ patch ∈ patches, patch.stop ≤ offset)
    (index : Nat) :
    patched blank
        (⟨offset, data ++ List.replicate count blank⟩ :: patches) index =
      patched blank (⟨offset, data⟩ :: patches) index := by
  by_cases inData : offset ≤ index ∧ index < offset + data.length
  · rw [patched_within inData.1
        (by simp only [List.length_append]; omega),
      patched_within inData.1 inData.2,
      List.getD_append _ _ _ _ (by dsimp only; omega)]
  · rw [@patched_beside _ _ _ ⟨offset, data⟩ _ (by dsimp only; omega)]
    by_cases inBlank :
        offset ≤ index ∧ index < offset + (data.length + count)
    · rw [patched_within inBlank.1 (by simpa using inBlank.2),
        List.getD_append_right _ _ _ _ (by dsimp only; omega),
        patched_outside fun patch member =>
          .inr (Nat.le_trans (earlier patch member) inBlank.1)]
      simp only [List.getD_eq_getElem?_getD, List.getElem?_replicate]
      split <;> rfl
    · exact patched_beside
        (by simp only [List.length_append, List.length_replicate]; omega)

end Patched

/-- The buffer shows the patches, as far as it reaches. -/
structure Shows
    (blank : α)
    (patches : List (Patch α))
    (buffer : List α) : Prop where
  shown :
    ∀ index,
      index < buffer.length →
      buffer[index]? = some (patched blank patches index)

namespace Shows

variable {blank : α} {patches : List (Patch α)} {buffer : List α}

/-- A fresh buffer is blank. -/
theorem fresh (length : Nat) :
    Shows blank [] (List.replicate length blank) where
  shown index below := by
    rw [List.length_replicate] at below
    simp [patched, below]

/-- Patches that show the same may be exchanged. -/
theorem congr
    {others : List (Patch α)}
    (shows : Shows blank patches buffer)
    (same :
      ∀ index, patched blank patches index = patched blank others index) :
    Shows blank others buffer where
  shown index below := by
    rw [shows.shown index below, same]

/-- An assignment of the slice's own length adds a patch. -/
theorem splice
    (shows : Shows blank patches buffer)
    {offset : Nat}
    (inside : offset ≤ buffer.length)
    (data : List α) :
    Shows blank (⟨offset, data⟩ :: patches)
      (splice buffer offset (offset + data.length) data) where
  shown index below := by
    rw [length_splice] at below
    rw [getElem?_splice inside]
    by_cases before : index < offset
    · rw [if_pos before, patched_beside (.inl before)]
      exact shows.shown index (by omega)
    · rw [if_neg before]
      by_cases within : index < offset + data.length
      · rw [if_pos within, patched_within (by dsimp only; omega) within]
        simp [show index - offset < data.length by omega]
      · rw [if_neg within, patched_beside (.inr (by dsimp only; omega)),
          shows.shown _ (by omega)]
        congr 2
        omega

/--
An assignment of any other length adds a patch too, when all that follows the
slice is blank: the rest of the buffer moves unseen.
-/
theorem splice_blank
    (shows : Shows blank patches buffer)
    {offset width : Nat}
    (inside : offset + width ≤ buffer.length)
    (data : List α)
    (earlier : ∀ patch ∈ patches, patch.stop ≤ offset) :
    Shows blank (⟨offset, data⟩ :: patches)
      (ByteBuffer.splice buffer offset (offset + width) data) where
  shown index below := by
    have blankFrom :
        ∀ place, offset ≤ place → patched blank patches place = blank :=
      fun place reached => patched_outside fun patch member =>
        .inr (Nat.le_trans (earlier patch member) reached)
    rw [length_splice] at below
    rw [getElem?_splice (by omega)]
    by_cases before : index < offset
    · rw [if_pos before, patched_beside (.inl before)]
      exact shows.shown index (by omega)
    · rw [if_neg before]
      by_cases within : index < offset + data.length
      · rw [if_pos within, patched_within (by dsimp only; omega) within]
        simp [show index - offset < data.length by omega]
      · rw [if_neg within, patched_beside (.inr (by dsimp only; omega)),
          shows.shown _ (by omega), blankFrom _ (by omega),
          blankFrom index (by omega)]

/-- A slice that meets one patch only is that patch, filled up with blanks. -/
theorem slice_eq
    (shows : Shows blank patches buffer)
    {patch : Patch α}
    (member : patch ∈ patches)
    {length : Nat}
    (fits : patch.data.length ≤ length)
    (inside : patch.offset + length ≤ buffer.length)
    (alone :
      ∀ other ∈ patches,
        other = patch ∨
          other.stop ≤ patch.offset ∨
          patch.offset + length ≤ other.offset) :
    slice buffer patch.offset length =
      patch.data ++ List.replicate (length - patch.data.length) blank := by
  apply List.ext_getElem?
  intro index
  by_cases within : index < length
  · rw [getElem?_slice buffer within, shows.shown _ (by omega)]
    by_cases inData : index < patch.data.length
    · have apart :
          ∀ other ∈ patches, other = patch ∨ other.Disjoint patch := by
        intro other otherMember
        refine (alone other otherMember).imp_right (.imp_right ?_)
        exact Nat.le_trans (Nat.add_le_add_left fits _)
      rw [patched_member member apart inData,
        List.getElem?_append_left inData, List.getElem?_eq_getElem inData]
    · rw [List.getElem?_append_right (by omega),
        List.getElem?_replicate_of_lt (by omega)]
      congr 1
      apply patched_outside
      intro other otherMember
      rcases alone other otherMember with rfl | before | after
      · simp only [Patch.stop]
        omega
      · omega
      · omega
  · rw [List.getElem?_eq_none, List.getElem?_eq_none]
    · simp only [List.length_append, List.length_replicate]
      omega
    · rw [length_slice inside]
      omega

end Shows

section Ascending

/-!
Assignments that go upwards.  Each starts behind the data of the one before, in
a slice of the buffer as it is then, and no assignment needs the length of its
slice: what it moves is blank.
-/

/-- Assignments upwards from an offset, to a buffer of a length. -/
def Ascends : Nat → Nat → List (Nat × Nat × List α) → Prop
  | _, _, [] =>
      True
  | low, length, (start, stop, data) :: rows =>
      low ≤ start ∧ start ≤ stop ∧ stop ≤ length ∧
        Ascends (start + data.length)
          (length - (stop - start) + data.length) rows

/-- The patches of assignments, the latest one first. -/
def rowPatches (rows : List (Nat × Nat × List α)) : List (Patch α) :=
  (rows.map fun row => ⟨row.1, row.2.2⟩).reverse

theorem mem_rowPatches
    {rows : List (Nat × Nat × List α)}
    {patch : Patch α} :
    patch ∈ rowPatches rows ↔
      ∃ row ∈ rows, patch = ⟨row.1, row.2.2⟩ := by
  simp only [rowPatches, List.mem_reverse, List.mem_map, eq_comm]

variable {low : Nat} {rows : List (Nat × Nat × List α)}

/-- No assignment lies below the offset. -/
theorem Ascends.le
    {length : Nat}
    (ascends : Ascends low length rows)
    {row : Nat × Nat × List α}
    (member : row ∈ rows) :
    low ≤ row.1 := by
  induction rows generalizing low length with
  | nil => cases member
  | cons first rest inductionHypothesis =>
      obtain ⟨reached, _, _, later⟩ := ascends
      rcases List.mem_cons.mp member with rfl | inRest
      · exact reached
      · have further := inductionHypothesis later inRest
        omega

/-- The patches are listed from the highest down to the lowest. -/
theorem Ascends.ordered
    {length : Nat}
    (ascends : Ascends low length rows) :
    (rowPatches rows).Pairwise fun higher lower =>
      lower.stop ≤ higher.offset := by
  induction rows generalizing low length with
  | nil => exact .nil
  | cons first rest inductionHypothesis =>
      obtain ⟨_, _, _, later⟩ := ascends
      have others := inductionHypothesis later
      rw [rowPatches, List.map_cons, List.reverse_cons]
      refine List.pairwise_append.mpr
        ⟨others, List.pairwise_singleton _ _, ?_⟩
      intro patch member lowest isFirst
      obtain ⟨row, inRest, rfl⟩ := mem_rowPatches.mp member
      rw [List.mem_singleton.mp isFirst]
      exact later.le inRest

/-- The buffer reaches behind all that is assigned. -/
theorem Ascends.within
    {buffer : List α}
    (ascends : Ascends low buffer.length rows)
    (reaches : low ≤ buffer.length) :
    low ≤ (assign buffer rows).length ∧
      ∀ row ∈ rows, row.1 + row.2.2.length ≤ (assign buffer rows).length := by
  induction rows generalizing low buffer with
  | nil => exact ⟨reaches, fun _ absurdity => by cases absurdity⟩
  | cons first rest inductionHypothesis =>
      obtain ⟨start, stop, data⟩ := first
      obtain ⟨_, ordered, inside, later⟩ := ascends
      have length :
          (splice buffer start stop data).length =
            buffer.length - (stop - start) + data.length := by
        rw [length_splice]
        omega
      rw [← length] at later
      obtain ⟨behind, others⟩ := inductionHypothesis later (by omega)
      rw [assign, List.foldl_cons]
      refine ⟨Nat.le_trans (by omega) behind, fun row member => ?_⟩
      rcases List.mem_cons.mp member with rfl | inRest
      · exact behind
      · exact others row inRest

/-- The buffer afterwards shows what was assigned over what it showed. -/
theorem Shows.assign
    {blank : α}
    {patches : List (Patch α)}
    {buffer : List α}
    (shows : Shows blank patches buffer)
    (ascends : Ascends low buffer.length rows)
    (earlier : ∀ patch ∈ patches, patch.stop ≤ low) :
    Shows blank (rowPatches rows ++ patches) (assign buffer rows) := by
  induction rows generalizing low buffer patches with
  | nil => exact shows
  | cons first rest inductionHypothesis =>
      obtain ⟨start, stop, data⟩ := first
      obtain ⟨reached, ordered, inside, later⟩ := ascends
      have length :
          (ByteBuffer.splice buffer start stop data).length =
            buffer.length - (stop - start) + data.length := by
        rw [length_splice]
        omega
      have sameStop : start + (stop - start) = stop := by omega
      have assigned :=
        shows.splice_blank
          (show start + (stop - start) ≤ buffer.length by omega) data
          (fun patch member => Nat.le_trans (earlier patch member) reached)
      rw [sameStop] at assigned
      rw [← length] at later
      have shown :=
        inductionHypothesis assigned later (by
          intro patch member
          rcases List.mem_cons.mp member with rfl | old
          · exact Nat.le_refl _
          · have below := earlier patch old
            omega)
      rw [rowPatches, List.map_cons, List.reverse_cons, List.append_assoc,
        List.singleton_append]
      exact shown

/-- What was assigned to a blank buffer is read back. -/
theorem slice_assign
    {blank : α}
    {length : Nat}
    (ascends : Ascends 0 length rows)
    {row : Nat × Nat × List α}
    (member : row ∈ rows) :
    slice (assign (List.replicate length blank) rows) row.1
        row.2.2.length =
      row.2.2 := by
  have isLength := @List.length_replicate α length blank
  rw [← isLength] at ascends
  have shown :=
    (Shows.fresh length).assign ascends (fun _ absurdity => by cases absurdity)
  have inside := (ascends.within (Nat.zero_le _)).2 row member
  rw [List.append_nil] at shown
  have isPatch : (⟨row.1, row.2.2⟩ : Patch α) ∈ rowPatches rows :=
    mem_rowPatches.mpr ⟨row, member, rfl⟩
  have read :=
    shown.slice_eq isPatch (Nat.le_refl row.2.2.length) inside
      fun other otherMember =>
        Patch.apart_of_ordered ascends.ordered otherMember isPatch
  rwa [Nat.sub_self, List.replicate_zero, List.append_nil] at read

end Ascending

end ByteBuffer
