import Mathlib.Data.List.Basic
import Mathlib.Data.List.Count

namespace ResourceLedgers

/-!
# Ledgers of resources

A ledger lists what a procedure obtains and gives back, in order.  Replaying it
fails at the first thing that is given back without being held, so a ledger
that can be replayed gives nothing back twice.
-/

/-- One entry of a ledger. -/
inductive Entry (Resource : Type) where
  | obtain (resource : Resource)
  | giveBack (resource : Resource)
  deriving DecidableEq

variable {Resource : Type}

/-- The same entry for another name of its resource. -/
def Entry.map {Other : Type} (rename : Resource → Other) :
    Entry Resource → Entry Other
  | .obtain resource =>
      .obtain (rename resource)
  | .giveBack resource =>
      .giveBack (rename resource)

variable [DecidableEq Resource]

/-- What is held after one entry. -/
def Entry.apply
    (held : List Resource) :
    Entry Resource → Option (List Resource)
  | .obtain resource =>
      some (resource :: held)
  | .giveBack resource =>
      if resource ∈ held then some (held.erase resource) else none

/-- What is held after all entries. -/
def replay (held : List Resource) :
    List (Entry Resource) → Option (List Resource)
  | [] =>
      some held
  | entry :: rest =>
      (entry.apply held).bind fun held => replay held rest

theorem replay_append
    (held : List Resource)
    (first second : List (Entry Resource)) :
    replay held (first ++ second) =
      (replay held first).bind fun held => replay held second := by
  induction first generalizing held with
  | nil =>
      rfl
  | cons entry rest inductionHypothesis =>
      simp only [List.cons_append, replay, inductionHypothesis,
        Option.bind_assoc]

/-- What has been given back and what is still held is what there was. -/
theorem replay_count
    {held last : List Resource}
    {entries : List (Entry Resource)}
    (replayed : replay held entries = some last)
    (resource : Resource) :
    entries.count (.giveBack resource) + last.count resource =
      held.count resource + entries.count (.obtain resource) := by
  induction entries generalizing held with
  | nil =>
      obtain rfl := Option.some.inj replayed
      simp
  | cons entry rest inductionHypothesis =>
      rw [replay] at replayed
      obtain ⟨middle, step, further⟩ := Option.bind_eq_some_iff.mp replayed
      have balance := inductionHypothesis further
      cases entry with
      | obtain got =>
          obtain rfl := Option.some.inj step
          rw [List.count_cons] at balance
          simp only [List.count_cons, beq_iff_eq, Entry.obtain.injEq,
            reduceCtorEq, ↓reduceIte] at balance ⊢
          omega
      | giveBack returned =>
          simp only [Entry.apply] at step
          split at step
          · rename_i isHeld
            obtain rfl := Option.some.inj step
            have positive := List.count_pos_iff.mpr isHeld
            rw [List.count_erase] at balance
            simp only [List.count_cons, beq_iff_eq, Entry.giveBack.injEq,
              reduceCtorEq, ↓reduceIte] at balance ⊢
            by_cases same : returned = resource
            · subst same
              simp only [↓reduceIte] at balance ⊢
              omega
            · rw [if_neg same] at balance ⊢
              omega
          · cases step

/-- Everything is obtained at most once and given back at most once. -/
structure Settles
    (entries : List (Entry Resource))
    (kept : List Resource) : Prop where
  replayed : replay [] entries = some kept
  once : ∀ resource, entries.count (.obtain resource) ≤ 1

theorem Settles.nil : Settles ([] : List (Entry Resource)) [] where
  replayed := rfl
  once _ := Nat.zero_le _

/-- Something that has not been obtained before is obtained. -/
theorem Settles.obtain
    {entries : List (Entry Resource)}
    {kept : List Resource}
    (settles : Settles entries kept)
    {resource : Resource}
    (unused : Entry.obtain resource ∉ entries) :
    Settles (entries ++ [.obtain resource]) (resource :: kept) where
  replayed := by
    rw [replay_append, settles.replayed]
    rfl
  once other := by
    rw [List.count_append, List.count_singleton]
    split
    · rename_i same
      have absent := List.count_eq_zero_of_not_mem unused
      rw [beq_iff_eq.mp same] at absent
      omega
    · exact settles.once other

/-- What was obtained last is given back. -/
theorem Settles.giveBack
    {entries : List (Entry Resource)}
    {kept : List Resource}
    {resource : Resource}
    (settles : Settles entries (resource :: kept)) :
    Settles (entries ++ [.giveBack resource]) kept where
  replayed := by
    rw [replay_append, settles.replayed]
    simp [replay, Entry.apply]
  once other := by
    rw [List.count_append, List.count_singleton]
    simpa using settles.once other

/-- What was obtained and is not kept has been given back exactly once. -/
theorem Settles.givenBack_once
    {entries : List (Entry Resource)}
    {kept : List Resource}
    (settles : Settles entries kept)
    {resource : Resource}
    (obtained : .obtain resource ∈ entries)
    (notKept : resource ∉ kept) :
    entries.count (.giveBack resource) = 1 := by
  have balance := replay_count settles.replayed resource
  have positive := List.count_pos_iff.mpr obtained
  have atMost := settles.once resource
  rw [List.count_eq_zero_of_not_mem notKept, List.count_nil] at balance
  omega

/-- What is kept has not been given back. -/
theorem Settles.notGivenBack
    {entries : List (Entry Resource)}
    {kept : List Resource}
    (settles : Settles entries kept)
    {resource : Resource}
    (isKept : resource ∈ kept) :
    .giveBack resource ∉ entries := by
  have balance := replay_count settles.replayed resource
  have positive := List.count_pos_iff.mpr isKept
  have atMost := settles.once resource
  rw [List.count_nil] at balance
  refine List.count_eq_zero.mp ?_
  omega

/-- Something that is held is given back. -/
theorem Settles.giveBack_of_mem
    {entries : List (Entry Resource)}
    {kept : List Resource}
    (settles : Settles entries kept)
    {resource : Resource}
    (isKept : resource ∈ kept) :
    Settles (entries ++ [.giveBack resource]) (kept.erase resource) where
  replayed := by
    rw [replay_append, settles.replayed]
    simp [replay, Entry.apply, isKept]
  once other := by
    rw [List.count_append, List.count_singleton]
    simpa using settles.once other

/-- Several things that are held are given back one after the other. -/
theorem Settles.giveBack_all
    {entries : List (Entry Resource)}
    {kept returned : List Resource}
    (settles : Settles entries kept)
    (distinct : returned.Nodup)
    (held : ∀ resource ∈ returned, resource ∈ kept) :
    Settles (entries ++ returned.map .giveBack) (kept.diff returned) := by
  induction returned generalizing entries kept with
  | nil =>
      simpa using settles
  | cons first rest inductionHypothesis =>
      obtain ⟨notRepeated, distinct⟩ := List.nodup_cons.mp distinct
      have further :=
        inductionHypothesis
          (settles.giveBack_of_mem (held first List.mem_cons_self))
          distinct
          (fun resource member => by
            have other : resource ≠ first := by
              rintro rfl
              exact notRepeated member
            exact (List.mem_erase_of_ne other).mpr
              (held resource (List.mem_cons_of_mem _ member)))
      simpa using further

/-- What is held besides makes no difference to a replay that succeeds. -/
theorem replay_held
    {held last : List Resource}
    {entries : List (Entry Resource)}
    (replayed : replay held entries = some last)
    (besides : List Resource) :
    replay (held ++ besides) entries = some (last ++ besides) := by
  induction entries generalizing held with
  | nil =>
      obtain rfl := Option.some.inj replayed
      rfl
  | cons entry rest inductionHypothesis =>
      rw [replay] at replayed ⊢
      obtain ⟨middle, step, further⟩ := Option.bind_eq_some_iff.mp replayed
      have also : entry.apply (held ++ besides) = some (middle ++ besides) := by
        cases entry with
        | obtain got =>
            obtain rfl := Option.some.inj step
            rfl
        | giveBack returned =>
            simp only [Entry.apply] at step ⊢
            split at step
            · rename_i isHeld
              obtain rfl := Option.some.inj step
              rw [if_pos (List.mem_append_left _ isHeld),
                List.erase_append_left _ isHeld]
            · cases step
      rw [also]
      exact inductionHypothesis further

/-- Two ledgers that obtain different things, one behind the other. -/
theorem Settles.append
    {first second : List (Entry Resource)}
    {kept later : List Resource}
    (settles : Settles first kept)
    (settlesNext : Settles second later)
    (apart :
      ∀ resource,
        Entry.obtain resource ∈ second →
        Entry.obtain resource ∉ first) :
    Settles (first ++ second) (later ++ kept) where
  replayed := by
    rw [replay_append, settles.replayed]
    exact replay_held settlesNext.replayed kept
  once resource := by
    rw [List.count_append]
    by_cases obtained : Entry.obtain resource ∈ second
    · rw [List.count_eq_zero_of_not_mem (apart resource obtained),
        Nat.zero_add]
      exact settlesNext.once resource
    · rw [List.count_eq_zero_of_not_mem obtained]
      exact settles.once resource

/-- Different resources keep different names, and the ledger still settles. -/
theorem Settles.map
    {Other : Type}
    [DecidableEq Other]
    {rename : Resource → Other}
    (injective : Function.Injective rename)
    {entries : List (Entry Resource)}
    {kept : List Resource}
    (settles : Settles entries kept) :
    Settles (entries.map (Entry.map rename)) (kept.map rename) where
  replayed := by
    have renamed :
        ∀ {held last : List Resource} {entries : List (Entry Resource)},
          replay held entries = some last →
          replay (held.map rename) (entries.map (Entry.map rename)) =
            some (last.map rename) := by
      intro held last entries replayed
      induction entries generalizing held with
      | nil =>
          obtain rfl := Option.some.inj replayed
          rfl
      | cons entry rest inductionHypothesis =>
          rw [replay] at replayed
          obtain ⟨middle, step, further⟩ :=
            Option.bind_eq_some_iff.mp replayed
          have also :
              (entry.map rename).apply (held.map rename) =
                some (middle.map rename) := by
            cases entry with
            | obtain got =>
                obtain rfl := Option.some.inj step
                rfl
            | giveBack returned =>
                simp only [Entry.apply] at step
                split at step
                · rename_i isHeld
                  obtain rfl := Option.some.inj step
                  simp only [Entry.map, Entry.apply]
                  rw [if_pos (List.mem_map_of_mem isHeld),
                    ← List.map_erase injective]
                · cases step
          rw [List.map_cons, replay, also]
          exact inductionHypothesis further
    exact renamed settles.replayed
  once other := by
    by_cases named :
        Entry.obtain other ∈ entries.map (Entry.map rename)
    · obtain ⟨entry, _, isOther⟩ := List.mem_map.mp named
      cases entry with
      | giveBack returned =>
          cases isOther
      | obtain resource =>
          have entryInjective :
              Function.Injective (Entry.map rename) := by
            intro one another same
            cases one <;> cases another <;>
              simp_all [Entry.map, injective.eq_iff]
          rw [← isOther, List.count_map_of_injective _ _ entryInjective]
          exact settles.once resource
    · rw [List.count_eq_zero_of_not_mem named]
      exact Nat.zero_le 1

/-- What is kept has been obtained. -/
theorem Settles.obtained_of_kept
    {entries : List (Entry Resource)}
    {kept : List Resource}
    (settles : Settles entries kept)
    {resource : Resource}
    (isKept : resource ∈ kept) :
    .obtain resource ∈ entries := by
  have balance := replay_count settles.replayed resource
  have positive := List.count_pos_iff.mpr isKept
  rw [List.count_nil] at balance
  exact List.count_pos_iff.mp (by omega)

section Stages

/-!
A procedure in stages: each resource belongs to a numbered stage, and a stage
of the procedure obtains resources of its own number only.  Ledgers of stages
that follow each other can then be put together without another look at them.
-/

variable {stage : Resource → Nat}

/-- A ledger of the stages from `low` on up to `high`. -/
structure SettlesBetween
    (stage : Resource → Nat)
    (low high : Nat)
    (entries : List (Entry Resource))
    (kept : List Resource) : Prop where
  settles :
    Settles entries kept
  stages :
    ∀ resource, Entry.obtain resource ∈ entries →
      low ≤ stage resource ∧ stage resource < high

namespace SettlesBetween

variable
  {low middle high : Nat}
  {entries later : List (Entry Resource)}
  {kept keptLater : List Resource}

theorem nil (low high : Nat) :
    SettlesBetween stage low high [] [] where
  settles := .nil
  stages _ member := absurd member List.not_mem_nil

theorem mono
    (between : SettlesBetween stage middle high entries kept)
    (atMost : low ≤ middle)
    {above : Nat}
    (atLeast : high ≤ above) :
    SettlesBetween stage low above entries kept where
  settles := between.settles
  stages resource obtained := by
    have own := between.stages resource obtained
    omega

/-- Stages that follow each other. -/
theorem append
    (between : SettlesBetween stage low middle entries kept)
    (next : SettlesBetween stage middle high later keptLater)
    (ordered : low ≤ middle ∧ middle ≤ high) :
    SettlesBetween stage low high (entries ++ later)
      (keptLater ++ kept) where
  settles := by
    refine between.settles.append next.settles fun resource obtained before => ?_
    have own := next.stages resource obtained
    have earlier := between.stages resource before
    omega
  stages resource obtained := by
    rcases List.mem_append.mp obtained with before | after
    · have own := between.stages resource before
      omega
    · have own := next.stages resource after
      omega

/-- Something that is held during some stages and given back behind them. -/
theorem bracket
    {resource : Resource}
    (isLow : stage resource = low)
    (inner : SettlesBetween stage (low + 1) high entries kept)
    (ordered : low < high) :
    SettlesBetween stage low high
      (.obtain resource :: (entries ++ [.giveBack resource])) kept where
  settles := by
    have held : Settles [Entry.obtain resource] [resource] :=
      Settles.nil.obtain List.not_mem_nil
    have apart :
        ∀ other, Entry.obtain other ∈ entries →
          Entry.obtain other ∉ [Entry.obtain resource] := by
      intro other obtained before
      have own := inner.stages other obtained
      cases List.mem_singleton.mp before
      omega
    have notKept : resource ∉ kept := by
      intro isKept
      exact apart resource (inner.settles.obtained_of_kept isKept)
        List.mem_cons_self
    have returned :=
      (held.append inner.settles apart).giveBack_of_mem
        (List.mem_append_right _ List.mem_cons_self)
    rwa [List.erase_append_right _ notKept, List.erase_cons_head,
      List.append_nil, List.append_assoc] at returned
  stages other obtained := by
    rcases List.mem_cons.mp obtained with same | obtained
    · cases same
      omega
    · rcases List.mem_append.mp obtained with inside | behind
      · have own := inner.stages other inside
        omega
      · cases List.mem_singleton.mp behind

/-- A stage with a ledger of its own. -/
theorem ofMap
    {Other : Type}
    [DecidableEq Other]
    {rename : Other → Resource}
    (injective : Function.Injective rename)
    (isLow : ∀ resource, stage (rename resource) = low)
    {entries : List (Entry Other)}
    {kept : List Other}
    (settles : Settles entries kept) :
    SettlesBetween stage low (low + 1) (entries.map (Entry.map rename))
      (kept.map rename) where
  settles := settles.map injective
  stages resource obtained := by
    obtain ⟨entry, _, same⟩ := List.mem_map.mp obtained
    cases entry with
    | giveBack => cases same
    | obtain other =>
        cases same
        rw [isLow]
        omega

end SettlesBetween

end Stages

end ResourceLedgers
