import UefiMount.FatEntryDecoding
import UefiMount.FuelledRuns

namespace UefiMount.MkFatImg

open FuelledRuns

/-!
# When the loops over a chain end

`walk_chain_mark` ends, because it stops at a cluster that it has seen.  The
cluster loop of `walk_dir` only compares with the start clusters on its path, so
it goes round a cycle of the FAT that avoids them for as long as nothing in the
directory stops it.
-/

variable {g : Bpb} {img : List UInt8}

section ClusterLoop

/-- The cluster that the loop goes to next, when it goes on. -/
def hop
    (g : Bpb)
    (img : List UInt8)
    (visited : List Nat)
    (clus : Nat) :
    Option Nat :=
  match g.nextClus img clus with
  | .ok next =>
      if endMarks ≤ next ∨ next ∈ visited then none else some next
  | .error _ =>
      none

/-- The pending entries behind one cluster, when the directory goes on. -/
def scanned
    (g : Bpb)
    (img : List UInt8)
    (clus : Nat)
    (pending : List (List UInt8)) :
    Option (List (List UInt8)) :=
  match scanEntries (pieces (g.readClus img clus) g.bpc) pending with
  | .ok (_, later, false) =>
      some later
  | _ =>
      none

/-- Cluster and pending entries after some rounds, when the loop gets there. -/
def rounds
    (g : Bpb)
    (img : List UInt8)
    (visited : List Nat) :
    Nat → Nat → List (List UInt8) → Option (Nat × List (List UInt8))
  | 0, clus, pending =>
      some (clus, pending)
  | count + 1, clus, pending =>
      (scanned g img clus pending).bind fun later =>
        (hop g img visited clus).bind fun next =>
          rounds g img visited count next later

theorem readChain_succ
    (visited : List Nat)
    (fuel clus : Nat)
    (pending : List (List UInt8)) :
    readChain g img visited (fuel + 1) clus pending =
      raising (scanEntries (pieces (g.readClus img clus) g.bpc) pending) >>=
        fun found =>
          if found.2.2 then
            .ok (found.1, [clus])
          else
            raising (g.nextClus img clus) >>= fun next =>
              if endMarks ≤ next ∨ next ∈ visited then
                .ok (found.1, [clus])
              else
                readChain g img visited fuel next found.2.1 >>= fun later =>
                  .ok (found.1 ++ later.1, clus :: later.2) :=
  rfl

/-- The loop is out of fuel when it has gone on for so many rounds. -/
theorem readChain_outOfFuel_iff
    {visited : List Nat}
    {fuel clus : Nat}
    {pending : List (List UInt8)} :
    readChain g img visited fuel clus pending = .error .outOfFuel ↔
      (rounds g img visited fuel clus pending).isSome := by
  induction fuel generalizing clus pending with
  | zero =>
      simp [readChain, rounds]
  | succ fuel inductionHypothesis =>
      simp only [readChain, rounds, scanned, hop]
      cases found :
          scanEntries (pieces (g.readClus img clus) g.bpc) pending with
      | error problem =>
          simp [raising, bind, Except.bind]
      | ok result =>
          obtain ⟨entries, later, done⟩ := result
          cases done with
          | true =>
              simp [raising, bind, Except.bind, pure, Except.pure]
          | false =>
              cases linked : g.nextClus img clus with
              | error problem =>
                  simp [raising, bind, Except.bind]
              | ok next =>
                  by_cases stops : endMarks ≤ next ∨ next ∈ visited
                  · simp [raising, bind, Except.bind, pure, Except.pure, stops]
                  · have further := @inductionHypothesis next later
                    simp only [raising, bind, Except.bind, stops, ↓reduceIte,
                      Bool.false_eq_true, Option.bind_some, ← further]
                    cases readChain g img visited fuel next later with
                    | error problem =>
                        simp
                    | ok chain =>
                        simp [pure, Except.pure]

theorem rounds_add
    (visited : List Nat)
    (first second clus : Nat)
    (pending : List (List UInt8)) :
    rounds g img visited (first + second) clus pending =
      (rounds g img visited first clus pending).bind fun state =>
        rounds g img visited second state.1 state.2 := by
  induction first generalizing clus pending with
  | zero =>
      simp [rounds]
  | succ first inductionHypothesis =>
      rw [Nat.add_right_comm]
      simp only [rounds, inductionHypothesis]
      cases scanned g img clus pending with
      | none =>
          rfl
      | some later =>
          cases hop g img visited clus with
          | none =>
              rfl
          | some next =>
              rfl

/-- A loop that has gone on for some rounds has done so for fewer. -/
theorem rounds_isSome_of_le
    {visited : List Nat}
    {fewer count clus : Nat}
    {pending : List (List UInt8)}
    (atMost : fewer ≤ count)
    (reached : (rounds g img visited count clus pending).isSome) :
    (rounds g img visited fewer clus pending).isSome := by
  obtain ⟨more, rfl⟩ := Nat.exists_eq_add_of_le atMost
  rw [rounds_add] at reached
  cases first : rounds g img visited fewer clus pending with
  | none =>
      simp [first] at reached
  | some state =>
      rfl

/-- More fuel does not change what the loop finds. -/
theorem readChain_stable
    (g : Bpb)
    (img : List UInt8)
    (visited : List Nat)
    (clus : Nat)
    (pending : List (List UInt8)) :
    Stable (.error .outOfFuel) fun fuel =>
      readChain g img visited fuel clus pending := by
  intro fuel result
  induction fuel generalizing clus pending with
  | zero =>
      exact absurd rfl result
  | succ fuel inductionHypothesis =>
      dsimp only at result ⊢
      rw [readChain_succ] at result
      rw [readChain_succ, readChain_succ]
      refine bind_eq_of_ne (fun _ => rfl) (fun found _ result => ?_) result
      by_cases done : found.2.2 = true
      · rw [if_pos done, if_pos done]
      · rw [if_neg done] at result
        rw [if_neg done, if_neg done]
        refine bind_eq_of_ne (fun _ => rfl) (fun next _ result => ?_) result
        by_cases stops : endMarks ≤ next ∨ next ∈ visited
        · rw [if_pos stops, if_pos stops]
        · rw [if_neg stops] at result
          rw [if_neg stops, if_neg stops]
          exact bind_eq_of_ne (inductionHypothesis next found.2.1)
            (fun _ _ _ => rfl) result

/-- What the loop gives does not depend on its fuel. -/
theorem readChain_unique
    {visited : List Nat}
    {clus fuel more : Nat}
    {pending : List (List UInt8)}
    {found others : List DirEntry × List Nat}
    (read : readChain g img visited fuel clus pending = .ok found)
    (again : readChain g img visited more clus pending = .ok others) :
    found = others := by
  have same :=
    (readChain_stable g img visited clus pending).unique
      (show readChain g img visited fuel clus pending ≠ _ by simp [read])
      (show readChain g img visited more clus pending ≠ _ by simp [again])
  exact Except.ok.inj (read.symm.trans (same.trans again))

/-- The clusters of some rounds, and the cluster behind them. -/
def path
    (g : Bpb)
    (img : List UInt8)
    (visited : List Nat) :
    Nat → Nat → Option (List Nat × Nat)
  | 0, clus =>
      some ([], clus)
  | count + 1, clus =>
      (hop g img visited clus).bind fun next =>
        (path g img visited count next).map fun (clusters, last) =>
          (clus :: clusters, last)

theorem rounds_eq_some_iff
    {visited : List Nat}
    {count clus last : Nat}
    {pending later : List (List UInt8)} :
    rounds g img visited count clus pending = some (last, later) ↔
      ∃ clusters,
        path g img visited count clus = some (clusters, last) ∧
          ∃ entries,
            scanEntries
                (clusters.flatMap fun c => pieces (g.readClus img c) g.bpc)
                pending =
              .ok (entries, later, false) := by
  induction count generalizing clus pending with
  | zero =>
      simp only [rounds, path, Option.some.injEq, Prod.mk.injEq]
      constructor
      · rintro ⟨rfl, rfl⟩
        exact ⟨[], ⟨rfl, rfl⟩, [], rfl⟩
      · rintro ⟨_, ⟨rfl, rfl⟩, entries, same⟩
        simp only [List.flatMap_nil, scanEntries, Except.ok.injEq,
          Prod.mk.injEq] at same
        exact ⟨rfl, same.2.1⟩
  | succ count inductionHypothesis =>
      simp only [rounds, path, Option.bind_eq_some_iff, Option.map_eq_some_iff,
        inductionHypothesis]
      constructor
      · rintro ⟨middle, own, next, hopped, clusters, further, back, rest⟩
        refine ⟨clus :: clusters, ⟨next, hopped, (clusters, last), further,
          rfl⟩, ?_⟩
        simp only [scanned] at own
        split at own
        · rename_i front _ first
          obtain rfl := Option.some.inj own
          rw [List.flatMap_cons]
          exact ⟨_, scanEntries_append first rest⟩
        · cases own
      · rintro ⟨_, ⟨next, hopped, ⟨clusters, _⟩, further, joined⟩, entries,
          whole⟩
        obtain ⟨rfl, rfl⟩ := Prod.mk.inj joined
        rw [List.flatMap_cons] at whole
        obtain ⟨front, middle, back, first, rest, rfl⟩ :=
          scanEntries_split whole
        refine ⟨middle, ?_, next, hopped, clusters, further, back, rest⟩
        simp only [scanned, first]

/-- What one entry is does not depend on what is pending, up to a decoded name. -/
theorem scanEntry_cases
    {pending : List (List UInt8)}
    {e : List UInt8}
    {result : Scanned}
    (found : scanEntry pending e = .ok result) :
    result = .done ∨
      (result = .pending [] ∧
        ∀ other, scanEntry other e = .ok (.pending [])) ∨
      (result = .pending (pending ++ [e]) ∧
        ∀ other, scanEntry other e = .ok (.pending (other ++ [e]))) ∨
      ∃ entry, result = .found entry ∧
        ∀ other another, scanEntry other e = .ok another →
          ∃ renamed, another = .found renamed := by
  simp only [scanEntry, bind_eq_ok] at found ⊢
  obtain ⟨b0, first, found⟩ := found
  split at found
  case isTrue =>
    exact .inl (Except.ok.inj found).symm
  case isFalse notEnd =>
    split at found
    case isTrue deleted =>
      refine .inr (.inl ⟨(Except.ok.inj found).symm, fun other => ?_⟩)
      exact ⟨b0, first, by rw [if_neg notEnd, if_pos deleted]; rfl⟩
    case isFalse live =>
      obtain ⟨attr, kind, found⟩ := bind_eq_ok.mp found
      split at found
      case isTrue long =>
        refine .inr (.inr (.inl ⟨(Except.ok.inj found).symm,
          fun other => ⟨b0, first, ?_⟩⟩))
        rw [if_neg notEnd, if_neg live]
        exact bind_eq_ok.mpr ⟨attr, kind, by rw [if_pos long]; rfl⟩
      case isFalse short =>
        obtain ⟨entry, _, found⟩ := bind_eq_ok.mp found
        refine .inr (.inr (.inr ⟨entry, (Except.ok.inj found).symm, ?_⟩))
        rintro other another ⟨b0', first', again⟩
        obtain rfl := Except.ok.inj (first.symm.trans first')
        rw [if_neg notEnd, if_neg live] at again
        obtain ⟨attr', kind', again⟩ := bind_eq_ok.mp again
        obtain rfl := Except.ok.inj (kind.symm.trans kind')
        rw [if_neg short] at again
        obtain ⟨renamed, _, again⟩ := bind_eq_ok.mp again
        exact ⟨renamed, (Except.ok.inj again).symm⟩

/--
What is pending behind the entries is either the same for whatever was pending
before them, or all of them are long name entries and become pending.
-/
theorem scanEntries_pending
    {es pending later : List (List UInt8)}
    {entries : List DirEntry}
    (found : scanEntries es pending = .ok (entries, later, false)) :
    (∀ other others another,
        scanEntries es other = .ok (others, another, false) →
        another = later) ∨
      ∀ other, scanEntries es other = .ok ([], other ++ es, false) := by
  induction es generalizing pending entries later with
  | nil =>
      right
      intro other
      rw [List.append_nil]
      rfl
  | cons e rest inductionHypothesis =>
      simp only [scanEntries, bind_eq_ok] at found ⊢
      obtain ⟨result, step, found⟩ := found
      rcases scanEntry_cases step with
        rfl | ⟨rfl, always⟩ | ⟨rfl, always⟩ | ⟨entry, rfl, always⟩
      · cases found
      · left
        rintro other others another ⟨again, stepAgain, foundAgain⟩
        obtain rfl := Except.ok.inj ((always other).symm.trans stepAgain)
        have same := found.symm.trans foundAgain
        simp only [Except.ok.injEq, Prod.mk.injEq] at same
        exact same.2.1.symm
      · rcases inductionHypothesis found with fixed | long
        · left
          rintro other others another ⟨again, stepAgain, foundAgain⟩
          obtain rfl := Except.ok.inj ((always other).symm.trans stepAgain)
          exact fixed _ _ _ foundAgain
        · right
          intro other
          have further := long (other ++ [e])
          rw [List.append_assoc, List.singleton_append] at further
          exact ⟨_, always other, further⟩
      · left
        rintro other others another ⟨again, stepAgain, foundAgain⟩
        obtain ⟨renamed, rfl⟩ := always other again stepAgain
        obtain ⟨behind, first, joined⟩ := bind_eq_ok.mp found
        obtain ⟨_, second, joinedAgain⟩ := bind_eq_ok.mp foundAgain
        obtain rfl := Except.ok.inj (first.symm.trans second)
        have left := congrArg (·.2.1) (Except.ok.inj joined)
        have leftAgain := congrArg (·.2.1) (Except.ok.inj joinedAgain)
        exact leftAgain.symm.trans left

/-- Entries that can be scanned twice in a row can be scanned once more. -/
theorem scanEntries_thrice
    {es first second third : List (List UInt8)}
    {entries others : List DirEntry}
    (once : scanEntries es first = .ok (entries, second, false))
    (twice : scanEntries es second = .ok (others, third, false)) :
    ∃ more fourth, scanEntries es third = .ok (more, fourth, false) := by
  rcases scanEntries_pending once with fixed | long
  · obtain rfl := fixed _ _ _ twice
    exact ⟨_, _, twice⟩
  · exact ⟨_, _, long third⟩

/--
The loop comes back to a cluster, and it goes the same way a second time.
-/
def Circles
    (g : Bpb)
    (img : List UInt8)
    (visited : List Nat)
    (clus : Nat) :
    Prop :=
  ∃ first second,
    first < second ∧
      (rounds g img visited first clus []).map Prod.fst =
        (rounds g img visited second clus []).map Prod.fst ∧
      (rounds g img visited (second + (second - first)) clus []).isSome

/-- Going round a second time, the loop goes round for ever. -/
theorem Circles.rounds_isSome
    {visited : List Nat}
    {clus : Nat}
    (circles : Circles g img visited clus)
    (count : Nat) :
    (rounds g img visited count clus []).isSome := by
  obtain ⟨first, second, less, same, further⟩ := circles
  obtain ⟨more, rfl⟩ := Nat.exists_eq_add_of_lt less
  rw [show first + more + 1 - first = more + 1 by omega] at further
  rw [show first + more + 1 = first + (more + 1) by omega] at same further
  obtain ⟨⟨corner, pending⟩, atFirst⟩ :
      ∃ state, rounds g img visited first clus [] = some state :=
    Option.isSome_iff_exists.mp
      (rounds_isSome_of_le (show first ≤ first + (more + 1) + (more + 1) by
        omega) further)
  rw [rounds_add, rounds_add, atFirst, Option.bind_some] at further
  rw [rounds_add, atFirst, Option.bind_some] at same
  -- The clusters of one time round; both times lead back to the corner.
  obtain ⟨⟨back, once⟩, firstTime⟩ :
      ∃ state, rounds g img visited (more + 1) corner pending =
        some state := by
    cases round : rounds g img visited (more + 1) corner pending with
    | none =>
        simp [round] at further
    | some state =>
        exact ⟨state, rfl⟩
  rw [firstTime] at same further
  obtain rfl : corner = back := by simpa using same
  obtain ⟨⟨again, twice⟩, secondTime⟩ := Option.isSome_iff_exists.mp further
  obtain ⟨clusters, around, entries, scannedOnce⟩ :=
    rounds_eq_some_iff.mp firstTime
  obtain ⟨_, aroundAgain, others, scannedTwice⟩ :=
    rounds_eq_some_iff.mp secondTime
  obtain ⟨rfl, rfl⟩ :=
    Prod.mk.inj (Option.some.inj (around.symm.trans aroundAgain))
  -- After each time round, the next one is possible.
  have always (times : Nat) :
      ∃ before after entries others,
        rounds g img visited (first + times * (more + 1)) clus [] =
            some (corner, before) ∧
          scanEntries
              (clusters.flatMap fun c => pieces (g.readClus img c) g.bpc)
              before =
            .ok (entries, after, false) ∧
          ∃ last,
            scanEntries
                (clusters.flatMap fun c => pieces (g.readClus img c) g.bpc)
                after =
              .ok (others, last, false) := by
    induction times with
    | zero =>
        exact ⟨pending, once, entries, others, by simpa using atFirst,
          scannedOnce, twice, scannedTwice⟩
    | succ times inductionHypothesis =>
        obtain ⟨before, after, front, back, reached, own, last, next⟩ :=
          inductionHypothesis
        obtain ⟨further, _, third⟩ := scanEntries_thrice own next
        refine ⟨after, last, back, further, ?_, next, _, third⟩
        have round := rounds_eq_some_iff.mpr ⟨clusters, around, front, own⟩
        rw [Nat.succ_mul, ← Nat.add_assoc, rounds_add, reached]
        exact round
  obtain ⟨_, _, _, _, reached, _⟩ := always count
  refine rounds_isSome_of_le ?_ (by rw [reached]; rfl)
  have large : count * 1 ≤ count * (more + 1) :=
    Nat.mul_le_mul_left _ (by omega)
  omega

/-- The next cluster has a number that is no end mark. -/
theorem hop_lt
    {visited : List Nat}
    {clus next : Nat}
    (hopped : hop g img visited clus = some next) :
    next < endMarks := by
  simp only [hop] at hopped
  split at hopped
  · split at hopped
    · cases hopped
    · rename_i goesOn
      obtain rfl := Option.some.inj hopped
      exact Nat.lt_of_not_le fun stops => goesOn (.inl stops)
  · cases hopped

/-- A loop that goes on for ever comes back to some cluster. -/
theorem circles_of_rounds_isSome
    {visited : List Nat}
    {clus : Nat}
    (always :
      ∀ count, (rounds g img visited count clus []).isSome) :
    Circles g img visited clus := by
  have below (index : Nat) :
      ∃ c, (rounds g img visited (index + 1) clus []).map Prod.fst =
          some c ∧
        c < endMarks := by
    obtain ⟨state, reached⟩ :=
      Option.isSome_iff_exists.mp (always (index + 1))
    rw [reached]
    rw [rounds_add] at reached
    obtain ⟨⟨c, pending⟩, _, last⟩ := Option.bind_eq_some_iff.mp reached
    simp only [rounds, Option.bind_eq_some_iff] at last
    obtain ⟨_, _, next, hopped, last⟩ := last
    obtain rfl := Option.some.inj last
    exact ⟨next, rfl, hop_lt hopped⟩
  obtain ⟨first, second, less, _, same⟩ :=
    @exists_repeat (fun index => (below index).choose) endMarks
      fun index _ => (below index).choose_spec.2
  refine ⟨first + 1, second + 1, by omega, ?_, always _⟩
  rw [(below first).choose_spec.1, (below second).choose_spec.1, same]

/-- The cluster loop ends if and only if it does not go round twice. -/
theorem readChain_ends_iff
    {visited : List Nat}
    {clus : Nat} :
    (Ends (.error .outOfFuel) fun fuel =>
      readChain g img visited fuel clus []) ↔
      ¬ Circles g img visited clus := by
  constructor
  · rintro ⟨fuel, result⟩ circles
    exact result (readChain_outOfFuel_iff.mpr (circles.rounds_isSome fuel))
  · intro straight
    by_contra never
    refine straight (circles_of_rounds_isSome fun count => ?_)
    by_contra stopped
    exact never ⟨count, fun out =>
      stopped (readChain_outOfFuel_iff.mp out)⟩

end ClusterLoop

section FileChains

/-- The clusters that a file has, from its first one along the FAT. -/
inductive Follows
    (g : Bpb)
    (img : List UInt8)
    (first : Nat) :
    Nat → Prop where
  | first
      (data : rootClus ≤ first)
      (noMark : first < endMarks) :
      Follows g img first first
  | next
      {c next : Nat}
      (previous : Follows g img first c)
      (linked : g.nextClus img c = .ok next)
      (data : rootClus ≤ next)
      (noMark : next < endMarks) :
      Follows g img first next

/-- The FAT has an entry for every cluster of the file. -/
def LinksReadable (g : Bpb) (img : List UInt8) (first : Nat) : Prop :=
  ∀ c, Follows g img first c → ∃ next, g.nextClus img c = .ok next

theorem Follows.data
    {first c : Nat}
    (follows : Follows g img first c) :
    rootClus ≤ first := by
  induction follows with
  | first data _ =>
      exact data
  | next _ _ _ _ inductionHypothesis =>
      exact inductionHypothesis

variable {what : Use} {fuel clus : Nat} {seen : List Nat}
variable {report : Report}

theorem walkChainMark_stop
    (stops : ¬ (rootClus ≤ clus ∧ clus < endMarks ∧ clus ∉ seen)) :
    walkChainMark g img what (fuel + 1) clus seen report = .ok report :=
  if_neg stops

theorem walkChainMark_onward
    (goesOn : rootClus ≤ clus ∧ clus < endMarks ∧ clus ∉ seen) :
    walkChainMark g img what (fuel + 1) clus seen report =
      raising (g.nextClus img clus) >>= fun next =>
        walkChainMark g img what fuel next (clus :: seen)
          (report.mark clus what) :=
  if_pos goesOn

/-- More fuel does not change what is marked. -/
theorem walkChainMark_stable
    (what : Use)
    (clus : Nat)
    (seen : List Nat)
    (report : Report) :
    Stable (.error .outOfFuel) fun fuel =>
      walkChainMark g img what fuel clus seen report := by
  intro fuel result
  induction fuel generalizing clus seen report with
  | zero =>
      exact absurd rfl result
  | succ fuel inductionHypothesis =>
      dsimp only at result ⊢
      by_cases goesOn : rootClus ≤ clus ∧ clus < endMarks ∧ clus ∉ seen
      · rw [walkChainMark_onward goesOn] at result
        rw [walkChainMark_onward goesOn, walkChainMark_onward goesOn]
        exact bind_eq_of_ne (fun _ => rfl)
          (fun next _ => inductionHypothesis next _ _) result
      · rw [walkChainMark_stop goesOn, walkChainMark_stop goesOn]

/-- The clusters seen are different numbers below the end marks. -/
theorem walkChainMark_ends
    (what : Use)
    (clus : Nat)
    {seen : List Nat}
    (distinct : seen.Nodup)
    (below : ∀ c ∈ seen, c < endMarks)
    (report : Report) :
    Ends (.error .outOfFuel) fun fuel =>
      walkChainMark g img what fuel clus seen report := by
  obtain ⟨left, measured⟩ : ∃ left, endMarks - seen.length = left :=
    ⟨_, rfl⟩
  induction left using Nat.strong_induction_on
    generalizing clus seen report with
  | _ left inductionHypothesis => ?_
  by_cases goesOn : rootClus ≤ clus ∧ clus < endMarks ∧ clus ∉ seen
  · have moreDistinct := distinct.cons goesOn.2.2
    have moreBelow : ∀ c ∈ clus :: seen, c < endMarks :=
      List.forall_mem_cons.mpr ⟨goesOn.2.1, below⟩
    have room := length_le_of_nodup moreDistinct moreBelow
    rw [List.length_cons] at room
    have fewer : endMarks - (clus :: seen).length < left := by
      rw [List.length_cons]
      omega
    cases linked : g.nextClus img clus with
    | error problem =>
        refine ⟨1, ?_⟩
        dsimp only
        rw [walkChainMark_onward goesOn, linked]
        simp [raising, bind, Except.bind]
    | ok next =>
        obtain ⟨fuel, result⟩ :=
          inductionHypothesis _ fewer next moreDistinct moreBelow
            (report.mark clus what) rfl
        refine ⟨fuel + 1, ?_⟩
        dsimp only
        rwa [walkChainMark_onward goesOn, linked]
  · refine ⟨1, ?_⟩
    dsimp only
    rw [walkChainMark_stop goesOn]
    simp

/-- A walk that returns has read the links of all clusters of the file. -/
theorem linksReadable_of_walkChainMark
    {first : Nat}
    {final : Report}
    (returned :
      walkChainMark g img what fuel clus seen report = .ok final)
    (begun : first ∈ seen ∨ first = clus)
    (closed :
      ∀ c ∈ seen, ∃ next, g.nextClus img c = .ok next ∧
        (next ∈ seen ∨ next = clus)) :
    LinksReadable g img first := by
  induction fuel generalizing clus seen report with
  | zero =>
      cases returned
  | succ fuel inductionHypothesis =>
      by_cases goesOn : rootClus ≤ clus ∧ clus < endMarks ∧ clus ∉ seen
      · rw [walkChainMark_onward goesOn] at returned
        cases linked : g.nextClus img clus with
        | error problem =>
            rw [linked] at returned
            cases returned
        | ok next =>
            rw [linked] at returned
            refine inductionHypothesis returned ?_ ?_
            · rcases begun with old | rfl
              · exact .inl (List.mem_cons_of_mem _ old)
              · exact .inl (List.mem_cons_self ..)
            · refine List.forall_mem_cons.mpr
                ⟨⟨next, linked, .inr rfl⟩, fun c member => ?_⟩
              obtain ⟨later, link, known⟩ := closed c member
              refine ⟨later, link, .inl ?_⟩
              rcases known with old | rfl
              · exact List.mem_cons_of_mem _ old
              · exact List.mem_cons_self ..
      · -- The walk is over, so whatever the file has has been seen.
        have known {c : Nat}
            (member : c ∈ seen ∨ c = clus)
            (data : rootClus ≤ c)
            (noMark : c < endMarks) :
            c ∈ seen := by
          by_contra fresh
          obtain rfl := member.resolve_left fresh
          exact goesOn ⟨data, noMark, fresh⟩
        have allSeen {c : Nat} (follows : Follows g img first c) :
            c ∈ seen := by
          induction follows with
          | first data noMark =>
              exact known begun data noMark
          | next previous linked data noMark isSeen =>
              obtain ⟨later, link, member⟩ := closed _ isSeen
              obtain rfl := Except.ok.inj (link.symm.trans linked)
              exact known member data noMark
        intro c follows
        obtain ⟨next, linked, _⟩ := closed c (allSeen follows)
        exact ⟨next, linked⟩

theorem walkChainMark_ne_raised
    {first : Nat}
    (readable : LinksReadable g img first)
    (onChain :
      rootClus ≤ clus → clus < endMarks → Follows g img first clus)
    (problem : PyError) :
    walkChainMark g img what fuel clus seen report ≠
      .error (.raised problem) := by
  induction fuel generalizing clus seen report with
  | zero =>
      intro raised
      cases raised
  | succ fuel inductionHypothesis =>
      by_cases goesOn : rootClus ≤ clus ∧ clus < endMarks ∧ clus ∉ seen
      · have follows := onChain goesOn.1 goesOn.2.1
        obtain ⟨next, linked⟩ := readable clus follows
        rw [walkChainMark_onward goesOn, linked]
        exact inductionHypothesis (follows.next linked)
      · rw [walkChainMark_stop goesOn]
        intro raised
        cases raised

/-- The walk over the chain of a file returns when all its links can be read. -/
theorem walkChainMark_returns_iff
    (what : Use)
    (first : Nat)
    (report : Report) :
    (∃ fuel final,
      walkChainMark g img what fuel first [] report = .ok final) ↔
      LinksReadable g img first := by
  constructor
  · rintro ⟨fuel, final, returned⟩
    exact linksReadable_of_walkChainMark returned (.inr rfl)
      fun c member => absurd member List.not_mem_nil
  · intro readable
    obtain ⟨fuel, result⟩ :
        Ends (.error .outOfFuel) fun fuel =>
          walkChainMark g img what fuel first [] report :=
      walkChainMark_ends what first List.nodup_nil
        (fun c member => absurd member List.not_mem_nil) report
    dsimp only at result
    cases walked : walkChainMark g img what fuel first [] report with
    | ok final =>
        exact ⟨fuel, final, walked⟩
    | error stopped =>
        cases stopped with
        | outOfFuel =>
            exact absurd walked result
        | raised problem =>
            exact absurd walked
              (walkChainMark_ne_raised readable Follows.first problem)

end FileChains

end UefiMount.MkFatImg
