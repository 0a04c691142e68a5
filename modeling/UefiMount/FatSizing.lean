import UefiMount.FatImage
import UefiMount.FuelledRuns

namespace UefiMount.MkFatImg

open FuelledRuns

/-!
# FAT sizing for any parameters

`fat_sz_for` with all of its parameters.  The FAT needs room for the clusters
of the data area, and what it takes is no data area, so its size is wanted as a
fixed point.  The loop starts from one sector and takes one step: the step is
antitone, so that the second size is never too small, and it is returned even
where a smaller one is the fixed point.
-/

section Definitions

variable (partTotSec rsvd numFats secPerClus : Int)

/-- `clus`: the clusters that a FAT of so many sectors leaves room for. -/
def clusFor (fatSec : Int) : Int :=
  (partTotSec - rsvd - numFats * fatSec) / secPerClus

/-- `need_sec`: the sectors that the entries of so many clusters fill. -/
def fatSectors (clus : Int) : Int :=
  ((clus + 2) * 4 + sector - 1) / sector

/-- The loop of `fat_sz_for`; there is no result when the fuel is too little. -/
def fatSzLoop : Nat → Int → Option (Int × Int)
  | 0, _ =>
      none
  | fuel + 1, fatSec =>
      let clus := clusFor partTotSec rsvd numFats secPerClus fatSec
      let needSec := fatSectors clus
      if needSec ≤ fatSec then
        some (fatSec, clus)
      else
        fatSzLoop fuel needSec

/-- A size that is the one its own clusters need. -/
def SelfConsistent (fatSec : Int) : Prop :=
  fatSec =
    fatSectors (clusFor partTotSec rsvd numFats secPerClus fatSec)

instance (fatSec : Int) :
    Decidable
      (SelfConsistent partTotSec rsvd numFats secPerClus fatSec) :=
  inferInstanceAs (Decidable (_ = _))

/-- What the loop is for: the fixed point where there is one. -/
structure Sized (fatSec clus : Int) : Prop where
  clusters :
    clus = clusFor partTotSec rsvd numFats secPerClus fatSec
  entries :
    (clus + 2) * 4 ≤ fatSec * sector
  fixedPoint :
    (∃ size, SelfConsistent partTotSec rsvd numFats secPerClus size) →
    fatSec = fatSectors clus

/-- The sectors of the data area and the FAT, scaled up by the rounding. -/
def scaledTotal : Int :=
  partTotSec - rsvd + 129 * secPerClus

/-- What one more FAT sector takes of them: its clusters and the FATs. -/
def scaledStep : Int :=
  128 * secPerClus + numFats

/-- `fat_sz_for` returns a size that is right. -/
def SizesRight : Prop :=
  ∃ fuel fatSec clus,
    fatSzLoop partTotSec rsvd numFats secPerClus fuel 1 =
        some (fatSec, clus) ∧
      Sized partTotSec rsvd numFats secPerClus fatSec clus

end Definitions

section Sizes

variable {partTotSec rsvd numFats secPerClus : Int}

/-- Both roundings at once. -/
theorem fatSectors_clusFor
    (clusters : 1 ≤ secPerClus)
    (fatSec : Int) :
    fatSectors (clusFor partTotSec rsvd numFats secPerClus fatSec) =
      (scaledTotal partTotSec rsvd secPerClus - numFats * fatSec) /
        (128 * secPerClus) := by
  have shifted :
      (scaledTotal partTotSec rsvd secPerClus - numFats * fatSec) /
          secPerClus =
        clusFor partTotSec rsvd numFats secPerClus fatSec + 129 := by
    rw [clusFor, ← Int.add_mul_ediv_right _ _ (by omega), scaledTotal]
    congr 1
    omega
  rw [Int.mul_comm 128, ← Int.ediv_ediv_of_nonneg (by omega), shifted,
    fatSectors]
  simp only [sector]
  omega

/-- The larger the FAT, the smaller the FAT that is needed. -/
theorem fatSectors_antitone
    (fats : 1 ≤ numFats)
    (clusters : 1 ≤ secPerClus)
    {fatSec larger : Int}
    (atMost : fatSec ≤ larger) :
    fatSectors (clusFor partTotSec rsvd numFats secPerClus larger) ≤
      fatSectors (clusFor partTotSec rsvd numFats secPerClus fatSec) := by
  have taken : numFats * fatSec ≤ numFats * larger :=
    Int.mul_le_mul_of_nonneg_left atMost (by omega)
  rw [fatSectors_clusFor clusters, fatSectors_clusFor clusters]
  exact Int.ediv_le_ediv (by omega) (by omega)

/-- A size is self-consistent exactly between two bounds. -/
theorem selfConsistent_iff
    (clusters : 1 ≤ secPerClus)
    (size : Int) :
    SelfConsistent partTotSec rsvd numFats secPerClus size ↔
      scaledStep numFats secPerClus * size ≤
          scaledTotal partTotSec rsvd secPerClus ∧
        scaledTotal partTotSec rsvd secPerClus <
          scaledStep numFats secPerClus * size + 128 * secPerClus := by
  have steps :
      scaledStep numFats secPerClus * size =
        size * (128 * secPerClus) + numFats * size := by
    rw [scaledStep, Int.add_mul, Int.mul_comm size]
  rw [SelfConsistent, fatSectors_clusFor clusters, eq_comm,
    Int.ediv_eq_iff_of_pos (by omega), steps]
  omega

/-- A self-consistent size is the quotient, and the remainder is small. -/
theorem selfConsistent_iff_quotient
    (fats : 1 ≤ numFats)
    (clusters : 1 ≤ secPerClus)
    (size : Int) :
    SelfConsistent partTotSec rsvd numFats secPerClus size ↔
      size = scaledTotal partTotSec rsvd secPerClus /
          scaledStep numFats secPerClus ∧
        scaledTotal partTotSec rsvd secPerClus %
            scaledStep numFats secPerClus <
          128 * secPerClus := by
  have positive : 0 < scaledStep numFats secPerClus := by
    rw [scaledStep]
    omega
  have wide : 128 * secPerClus < scaledStep numFats secPerClus := by
    rw [scaledStep]
    omega
  rw [selfConsistent_iff clusters]
  constructor
  · rintro ⟨atLeast, below⟩
    have divided :
        scaledTotal partTotSec rsvd secPerClus -
              scaledStep numFats secPerClus * size +
            scaledStep numFats secPerClus * size =
          scaledTotal partTotSec rsvd secPerClus :=
      Int.sub_add_cancel _ _
    obtain ⟨quotient, remainder⟩ := (Int.ediv_emod_unique positive).mpr
      ⟨divided, by omega, by omega⟩
    omega
  · rintro ⟨rfl, small⟩
    have split := Int.mul_ediv_add_emod
      (scaledTotal partTotSec rsvd secPerClus)
      (scaledStep numFats secPerClus)
    have nonneg := Int.emod_nonneg
      (scaledTotal partTotSec rsvd secPerClus)
      (Int.ne_of_gt positive)
    omega

end Sizes

section Loop

variable {partTotSec rsvd numFats secPerClus : Int}

/-- The size that the loop comes to: one sector, or what that one needs. -/
def reachedSize (partTotSec rsvd numFats secPerClus : Int) : Int :=
  max 1 (fatSectors (clusFor partTotSec rsvd numFats secPerClus 1))

/-- A second round of the loop is the last one. -/
theorem fatSzLoop_returns
    (fats : 1 ≤ numFats)
    (clusters : 1 ≤ secPerClus)
    (fuel : Nat) :
    fatSzLoop partTotSec rsvd numFats secPerClus (fuel + 2) 1 =
      some (reachedSize partTotSec rsvd numFats secPerClus,
        clusFor partTotSec rsvd numFats secPerClus
          (reachedSize partTotSec rsvd numFats secPerClus)) := by
  rw [fatSzLoop, reachedSize]
  by_cases enough :
      fatSectors (clusFor partTotSec rsvd numFats secPerClus 1) ≤ 1
  · simp only [if_pos enough, Int.max_eq_left enough]
  · have larger :
        1 ≤ fatSectors (clusFor partTotSec rsvd numFats secPerClus 1) := by
      omega
    simp only [if_neg enough, Int.max_eq_right larger]
    rw [fatSzLoop, if_pos (fatSectors_antitone fats clusters larger)]

/-- The loop has no other result. -/
theorem fatSzLoop_eq_some
    (fats : 1 ≤ numFats)
    (clusters : 1 ≤ secPerClus)
    {fuel : Nat}
    {result : Int × Int}
    (returned :
      fatSzLoop partTotSec rsvd numFats secPerClus fuel 1 = some result) :
    result =
      (reachedSize partTotSec rsvd numFats secPerClus,
        clusFor partTotSec rsvd numFats secPerClus
          (reachedSize partTotSec rsvd numFats secPerClus)) := by
  match fuel with
  | 0 =>
      cases returned
  | 1 =>
      rw [fatSzLoop] at returned
      split at returned
      case isTrue enough =>
        rw [reachedSize, Int.max_eq_left enough]
        exact (Option.some.inj returned).symm
      case isFalse =>
        cases returned
  | fuel + 2 =>
      rw [fatSzLoop_returns fats clusters] at returned
      exact (Option.some.inj returned).symm

/-- The size that the loop comes to has room for the clusters it leaves. -/
theorem fatSectors_reachedSize
    (fats : 1 ≤ numFats)
    (clusters : 1 ≤ secPerClus) :
    fatSectors (clusFor partTotSec rsvd numFats secPerClus
        (reachedSize partTotSec rsvd numFats secPerClus)) ≤
      reachedSize partTotSec rsvd numFats secPerClus :=
  Int.le_trans
    (fatSectors_antitone fats clusters (Int.le_max_left ..))
    (Int.le_max_right ..)

/-- Only the fixed point can be missing. -/
theorem sizesRight_iff_fixedPoint
    (fats : 1 ≤ numFats)
    (clusters : 1 ≤ secPerClus) :
    SizesRight partTotSec rsvd numFats secPerClus ↔
      ((∃ size, SelfConsistent partTotSec rsvd numFats secPerClus size) →
        SelfConsistent partTotSec rsvd numFats secPerClus
          (reachedSize partTotSec rsvd numFats secPerClus)) := by
  constructor
  · rintro ⟨fuel, fatSec, clus, returned, sized⟩
    obtain ⟨rfl, rfl⟩ := Prod.mk.inj
      (fatSzLoop_eq_some fats clusters returned)
    exact sized.fixedPoint
  · intro fixedPoint
    refine ⟨2, _, _, fatSzLoop_returns fats clusters 0, rfl, ?_, fixedPoint⟩
    have room :=
      @fatSectors_reachedSize partTotSec rsvd _ _ fats clusters
    rw [fatSectors] at room
    simp only [sector] at room ⊢
    omega

/-- When there is a fixed point, whether the loop stops there. -/
theorem reachedSize_eq_quotient_iff
    (fats : 1 ≤ numFats)
    (clusters : 1 ≤ secPerClus)
    (area : rsvd ≤ partTotSec)
    (small :
      scaledTotal partTotSec rsvd secPerClus %
          scaledStep numFats secPerClus <
        128 * secPerClus) :
    reachedSize partTotSec rsvd numFats secPerClus =
        scaledTotal partTotSec rsvd secPerClus /
          scaledStep numFats secPerClus ↔
      numFats *
            (scaledTotal partTotSec rsvd secPerClus /
              scaledStep numFats secPerClus - 1) +
          scaledTotal partTotSec rsvd secPerClus %
            scaledStep numFats secPerClus <
        128 * secPerClus := by
  have split := Int.mul_ediv_add_emod
    (scaledTotal partTotSec rsvd secPerClus)
    (scaledStep numFats secPerClus)
  have large : 129 * secPerClus ≤ scaledTotal partTotSec rsvd secPerClus := by
    rw [scaledTotal]
    omega
  have nonneg :
      0 ≤ scaledTotal partTotSec rsvd secPerClus %
        scaledStep numFats secPerClus :=
    Int.emod_nonneg _ (by rw [scaledStep]; omega)
  have first :=
    @fatSectors_clusFor partTotSec rsvd numFats _ clusters 1
  rw [reachedSize, first]
  generalize scaledTotal partTotSec rsvd secPerClus %
    scaledStep numFats secPerClus = remainder at *
  generalize scaledTotal partTotSec rsvd secPerClus /
    scaledStep numFats secPerClus = quotient at *
  have positive : 1 ≤ quotient := by
    by_contra notPositive
    have none : scaledStep numFats secPerClus * quotient ≤ 0 :=
      Int.mul_nonpos_of_nonneg_of_nonpos
        (by rw [scaledStep]; omega) (by omega)
    omega
  have beyond : 0 ≤ numFats * (quotient - 1) :=
    Int.mul_nonneg (by omega) (by omega)
  have taken :
      scaledTotal partTotSec rsvd secPerClus - numFats * 1 =
        quotient * (128 * secPerClus) +
          (numFats * (quotient - 1) + remainder) := by
    rw [← split, scaledStep, Int.add_mul, Int.mul_sub,
      Int.mul_comm quotient]
    omega
  have atLeast :
      quotient ≤
        (scaledTotal partTotSec rsvd secPerClus - numFats * 1) /
          (128 * secPerClus) := by
    rw [Int.le_ediv_iff_mul_le (by omega)]
    omega
  rw [Int.max_eq_right (Int.le_trans positive atLeast),
    Int.ediv_eq_iff_of_pos (by omega), taken]
  omega

/--
`fat_sz_for` reaches the fixed point unless there is one and the step from one
sector goes beyond it.
-/
theorem sizesRight_iff
    (fats : 1 ≤ numFats)
    (clusters : 1 ≤ secPerClus)
    (area : rsvd ≤ partTotSec) :
    SizesRight partTotSec rsvd numFats secPerClus ↔
      128 * secPerClus ≤
          scaledTotal partTotSec rsvd secPerClus %
            scaledStep numFats secPerClus ∨
        numFats *
              (scaledTotal partTotSec rsvd secPerClus /
                scaledStep numFats secPerClus - 1) +
            scaledTotal partTotSec rsvd secPerClus %
              scaledStep numFats secPerClus <
          128 * secPerClus := by
  rw [sizesRight_iff_fixedPoint fats clusters]
  simp only [selfConsistent_iff_quotient fats clusters]
  by_cases small :
      scaledTotal partTotSec rsvd secPerClus %
          scaledStep numFats secPerClus <
        128 * secPerClus
  · have stops := reachedSize_eq_quotient_iff fats clusters area small
    simp only [small, and_true, exists_eq, forall_const,
      Int.not_le.mpr small, false_or]
    exact stops
  · have large := Int.not_lt.mp small
    simp [small, large]

/-- A volume on which the first step is the fixed point. -/
theorem sizesRight_small : SizesRight 65536 32 2 8 :=
  (sizesRight_iff (by decide) (by decide) (by decide)).mpr
    (.inr (by decide))

/-- On the volume of 257 MB the loop returns 514 sectors; 513 are enough. -/
theorem not_sizesRight_257 : ¬ SizesRight 526336 32 2 8 := by
  rintro ⟨fuel, fatSec, clus, returned, sized⟩
  obtain ⟨rfl, rfl⟩ := Prod.mk.inj
    (fatSzLoop_eq_some (by decide) (by decide) returned)
  have fixed := sized.fixedPoint ⟨513, by decide⟩
  revert fixed
  decide

/-- A result of the loop with the constants of `create_image`. -/
theorem fatSzLoop_eq_fatSzFrom
    {fuel : Nat}
    {fatSec : Int}
    {result : Int × Int}
    (returned :
      fatSzLoop partTotSec rsvdSecCnt MkFatImg.numFats MkFatImg.secPerClus
        fuel fatSec = some result) :
    result = fatSzFrom partTotSec fatSec := by
  induction fuel generalizing fatSec with
  | zero =>
      cases returned
  | succ fuel inductionHypothesis =>
      have round :
          (if needSec partTotSec fatSec ≤ fatSec then
            some (fatSec, clusWith partTotSec fatSec)
          else
            fatSzLoop partTotSec rsvdSecCnt MkFatImg.numFats
              MkFatImg.secPerClus fuel (needSec partTotSec fatSec)) =
            some result :=
        returned
      rw [fatSzFrom]
      split at round
      case isTrue enough =>
        rw [if_pos enough]
        exact (Option.some.inj round).symm
      case isFalse short =>
        rw [if_neg short]
        exact inductionHypothesis round

/-- The sizes of `create_image` are those of the loop. -/
theorem fatSzLoop_eq_fatSzFor (partTotSec : Int) (fuel : Nat) :
    fatSzLoop partTotSec rsvdSecCnt MkFatImg.numFats MkFatImg.secPerClus
        (fuel + 2) 1 =
      some (fatSzFor partTotSec) := by
  have returned :=
    @fatSzLoop_returns partTotSec rsvdSecCnt MkFatImg.numFats
      MkFatImg.secPerClus (by decide) (by decide) fuel
  rw [returned, fatSzFor, fatSzLoop_eq_fatSzFrom returned]

end Loop

end UefiMount.MkFatImg
