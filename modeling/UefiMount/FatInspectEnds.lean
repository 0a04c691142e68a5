import UefiMount.FatChainEnds

namespace UefiMount.MkFatImg

open FuelledRuns

/-!
# When an inspection ends

The start clusters on a path are different numbers of 32 bits, so the recursion
of `walk_dir` ends.  The inspection as a whole ends unless it comes to a
directory whose cluster loop does not.
-/

variable {g : Bpb} {img : List UInt8}

section Directories

/-- What the loop over the clusters of a directory finds. -/
def Lists
    (g : Bpb)
    (img : List UInt8)
    (visited : List Nat)
    (clus : Nat)
    (entries : List DirEntry) :
    Prop :=
  ∃ fuel chain,
    readChain g img visited fuel clus [] = .ok (entries, chain)

/--
The walk below a cluster comes back: all directories can be listed, and the
links of all files can be read.
-/
inductive Passes
    (g : Bpb)
    (img : List UInt8) :
    List Nat → Nat → Prop where
  | again
      {visited : List Nat}
      {clus : Nat}
      (known : clus ∈ visited) :
      Passes g img visited clus
  | opened
      {visited : List Nat}
      {clus : Nat}
      {entries : List DirEntry}
      (fresh : clus ∉ visited)
      (lists : Lists g img (clus :: visited) clus entries)
      (dirs :
        ∀ child ∈ childrenOf entries, child.isDir = true →
          Passes g img (clus :: visited) child.first)
      (files :
        ∀ child ∈ childrenOf entries, child.isDir = false →
          LinksReadable g img child.first) :
      Passes g img visited clus

/-- The walk of one child comes back. -/
structure ChildPasses
    (g : Bpb)
    (img : List UInt8)
    (visited : List Nat)
    (child : DirEntry) : Prop where
  dir : child.isDir = true → Passes g img visited child.first
  file : child.isDir = false → LinksReadable g img child.first

/--
The walk below a cluster comes to a directory whose clusters go round in a
circle; whatever it visits before that directory comes back.
-/
inductive Trapped
    (g : Bpb)
    (img : List UInt8) :
    List Nat → Nat → Prop where
  | here
      {visited : List Nat}
      {clus : Nat}
      (fresh : clus ∉ visited)
      (circles : Circles g img (clus :: visited) clus) :
      Trapped g img visited clus
  | inside
      {visited : List Nat}
      {clus : Nat}
      {entries earlier later : List DirEntry}
      {child : DirEntry}
      (fresh : clus ∉ visited)
      (lists : Lists g img (clus :: visited) clus entries)
      (listed : childrenOf entries = earlier ++ child :: later)
      (passed :
        ∀ other ∈ earlier, ChildPasses g img (clus :: visited) other)
      (isDir : child.isDir = true)
      (trapped : Trapped g img (clus :: visited) child.first) :
      Trapped g img visited clus

/-- One round of the loop over the children. -/
def visitChild
    (g : Bpb)
    (img : List UInt8)
    (fuel depth : Nat)
    (path : PyStr)
    (walk : Nat → PyStr → Report → Except InspectError Report)
    (child : DirEntry)
    (report : Report) :
    Except InspectError Report :=
  let report := report.print (.entry (depth + 1) child.isDir
    (shortToName child.short11) child.name child.size child.first)
  if child.isDir then
    walk child.first (childPath path child.name) report
  else if rootClus ≤ child.first then
    walkChainMark g img (.file (childPath path child.name)) fuel child.first
      [] report
  else
    .ok report

/-- What the report is when the loop over the children starts. -/
def Report.opened
    (report : Report)
    (depth : Nat)
    (path : PyStr)
    (found : List DirEntry × List Nat) :
    Report :=
  (found.2.foldl (fun report c => report.mark c (.dir path)) report).print
    (if depth = 0 then
      .root (childrenOf found.1).length
    else
      .dir depth (childrenOf found.1).length)

/-- The walk of a directory behind its cluster loop. -/
def walkFound
    (g : Bpb)
    (img : List UInt8)
    (depth : Nat)
    (visited : List Nat)
    (path : PyStr)
    (report : Report)
    (fuel : Nat)
    (found : List DirEntry × List Nat) :
    Except InspectError Report :=
  walkChildren g img fuel depth path
    (fun first path => walkDir g img fuel (depth + 1) first visited path)
    (childrenOf found.1) (report.opened depth path found)

theorem walkChildren_cons
    (fuel depth : Nat)
    (path : PyStr)
    (walk : Nat → PyStr → Report → Except InspectError Report)
    (child : DirEntry)
    (rest : List DirEntry)
    (report : Report) :
    walkChildren g img fuel depth path walk (child :: rest) report =
      visitChild g img fuel depth path walk child report >>=
        walkChildren g img fuel depth path walk rest := by
  simp only [walkChildren, visitChild]
  split
  · rfl
  · split
    · rfl
    · rfl

theorem walkDir_again
    {visited : List Nat}
    {clus : Nat}
    (known : clus ∈ visited)
    (fuel depth : Nat)
    (path : PyStr)
    (report : Report) :
    walkDir g img (fuel + 1) depth clus visited path report = .ok report :=
  if_pos known

theorem walkDir_fresh
    {visited : List Nat}
    {clus : Nat}
    (fresh : clus ∉ visited)
    (fuel depth : Nat)
    (path : PyStr)
    (report : Report) :
    walkDir g img (fuel + 1) depth clus visited path report =
      readChain g img (clus :: visited) fuel clus [] >>=
        walkFound g img depth (clus :: visited) path report fuel :=
  if_neg fresh

section Children

variable {depth : Nat} {path : PyStr}
variable {walk : Nat → Nat → PyStr → Report → Except InspectError Report}

/-- With more fuel for the recursion, the visit of a child is the same. -/
theorem visitChild_more
    {fuel : Nat}
    {first more : Nat → PyStr → Report → Except InspectError Report}
    (same :
      ∀ clus path report, first clus path report ≠ .error .outOfFuel →
        more clus path report = first clus path report)
    {child : DirEntry}
    {report : Report}
    (result :
      visitChild g img fuel depth path first child report ≠
        .error .outOfFuel) :
    visitChild g img (fuel + 1) depth path more child report =
      visitChild g img fuel depth path first child report := by
  simp only [visitChild] at result ⊢
  by_cases isDir : child.isDir = true
  · rw [if_pos isDir] at result
    rw [if_pos isDir, if_pos isDir]
    exact same _ _ _ result
  · rw [if_neg isDir] at result
    rw [if_neg isDir, if_neg isDir]
    by_cases data : rootClus ≤ child.first
    · rw [if_pos data] at result
      rw [if_pos data, if_pos data]
      exact walkChainMark_stable _ _ _ _ fuel result
    · rw [if_neg data, if_neg data]

theorem walkChildren_more
    {fuel : Nat}
    {first more : Nat → PyStr → Report → Except InspectError Report}
    (same :
      ∀ clus path report, first clus path report ≠ .error .outOfFuel →
        more clus path report = first clus path report)
    {children : List DirEntry}
    {report : Report}
    (result :
      walkChildren g img fuel depth path first children report ≠
        .error .outOfFuel) :
    walkChildren g img (fuel + 1) depth path more children report =
      walkChildren g img fuel depth path first children report := by
  induction children generalizing report with
  | nil =>
      rfl
  | cons child rest inductionHypothesis =>
      rw [walkChildren_cons] at result
      rw [walkChildren_cons, walkChildren_cons]
      exact bind_eq_of_ne (visitChild_more same)
        (fun later _ => inductionHypothesis) result

/-- The recursion only depends on its fuel until it has a result. -/
def Steady
    (walk : Nat → Nat → PyStr → Report → Except InspectError Report) :
    Prop :=
  ∀ first path report,
    Stable (.error .outOfFuel) fun fuel => walk fuel first path report

theorem visitChild_stable
    (steady : Steady walk)
    (child : DirEntry)
    (report : Report) :
    Stable (.error .outOfFuel) fun fuel =>
      visitChild g img fuel depth path (walk fuel) child report :=
  fun fuel =>
    visitChild_more fun first path report => steady first path report fuel

theorem walkChildren_stable
    (steady : Steady walk)
    (children : List DirEntry)
    (report : Report) :
    Stable (.error .outOfFuel) fun fuel =>
      walkChildren g img fuel depth path (walk fuel) children report :=
  fun fuel =>
    walkChildren_more fun first path report => steady first path report fuel

theorem visitChild_returns
    {child : DirEntry}
    (dir :
      child.isDir = true → ∀ path report,
        Returns fun fuel => walk fuel child.first path report)
    (file : child.isDir = false → LinksReadable g img child.first)
    (report : Report) :
    Returns fun fuel =>
      visitChild g img fuel depth path (walk fuel) child report := by
  simp only [visitChild]
  cases isDir : child.isDir with
  | true =>
      exact dir isDir _ _
  | false =>
      by_cases data : rootClus ≤ child.first
      · simp only [Bool.false_eq_true, ↓reduceIte, data]
        exact (walkChainMark_returns_iff _ _ _).mpr (file isDir)
      · simp only [Bool.false_eq_true, ↓reduceIte, data]
        exact ⟨0, _, rfl⟩

/-- The visit of a child ends when the recursion does, if there is any. -/
theorem visitChild_ends
    {child : DirEntry}
    (dir :
      child.isDir = true → ∀ path report,
        Ends (.error .outOfFuel) fun fuel =>
          walk fuel child.first path report)
    (report : Report) :
    Ends (.error .outOfFuel) fun fuel =>
      visitChild g img fuel depth path (walk fuel) child report := by
  simp only [visitChild]
  cases isDir : child.isDir with
  | true =>
      exact dir isDir _ _
  | false =>
      by_cases data : rootClus ≤ child.first
      · simp only [Bool.false_eq_true, ↓reduceIte, data]
        exact walkChainMark_ends _ _ List.nodup_nil
          (fun c member => absurd member List.not_mem_nil) _
      · simp only [Bool.false_eq_true, ↓reduceIte, data]
        exact ⟨0, by simp⟩

/-- The loop comes back when the visits of all children do. -/
theorem walkChildren_returns
    (steady : Steady walk)
    {children : List DirEntry}
    (each :
      ∀ child ∈ children, ∀ report, Returns fun fuel =>
        visitChild g img fuel depth path (walk fuel) child report)
    (report : Report) :
    Returns fun fuel =>
      walkChildren g img fuel depth path (walk fuel) children report := by
  induction children generalizing report with
  | nil =>
      exact ⟨0, report, rfl⟩
  | cons child rest inductionHypothesis =>
      obtain ⟨own, others⟩ := List.forall_mem_cons.mp each
      simp only [walkChildren_cons]
      exact Returns.bind (visitChild_stable steady child report)
        (own report) (walkChildren_stable steady rest)
        fun later _ _ => inductionHypothesis others later

/-- When the loop has come back, the visits of all children have. -/
theorem visitChild_of_walkChildren
    {fuel : Nat}
    {walk : Nat → PyStr → Report → Except InspectError Report}
    {children : List DirEntry}
    {report final : Report}
    (returned :
      walkChildren g img fuel depth path walk children report = .ok final)
    {child : DirEntry}
    (member : child ∈ children) :
    ∃ before behind,
      visitChild g img fuel depth path walk child before = .ok behind := by
  induction children generalizing report with
  | nil =>
      exact absurd member List.not_mem_nil
  | cons first rest inductionHypothesis =>
      rw [walkChildren_cons] at returned
      cases visited : visitChild g img fuel depth path walk first report with
      | error problem =>
          rw [visited] at returned
          cases returned
      | ok later =>
          rw [visited] at returned
          rcases List.mem_cons.mp member with rfl | inRest
          · exact ⟨report, later, visited⟩
          · exact inductionHypothesis returned inRest

/--
The loop ends when the visit of each child does, once the children before it
have been visited.
-/
theorem walkChildren_ends
    (steady : Steady walk)
    {Visited : DirEntry → Prop}
    (visited :
      ∀ fuel child report final,
        visitChild g img fuel depth path (walk fuel) child report =
          .ok final →
        Visited child)
    {children : List DirEntry}
    (each :
      ∀ earlier child later,
        children = earlier ++ child :: later →
        (∀ other ∈ earlier, Visited other) →
        ∀ report, Ends (.error .outOfFuel) fun fuel =>
          visitChild g img fuel depth path (walk fuel) child report)
    (report : Report) :
    Ends (.error .outOfFuel) fun fuel =>
      walkChildren g img fuel depth path (walk fuel) children report := by
  induction children generalizing report with
  | nil =>
      exact ⟨0, by simp [walkChildren]⟩
  | cons child rest inductionHypothesis =>
      simp only [walkChildren_cons]
      refine Ends.bind (visitChild_stable steady child report)
        (each [] child rest rfl (by simp) report)
        (walkChildren_stable steady rest) fun later fuel returned => ?_
      refine inductionHypothesis (fun earlier other more same passed => ?_)
        later
      refine each (child :: earlier) other more (by rw [same]; rfl) ?_
      exact List.forall_mem_cons.mpr
        ⟨visited fuel child report later returned, passed⟩

/-- The loop does not end when the visit of some child does not. -/
theorem walkChildren_outOfFuel
    {fuel : Nat}
    {walk : Nat → PyStr → Report → Except InspectError Report}
    {earlier later : List DirEntry}
    {child : DirEntry}
    (passed :
      ∀ other ∈ earlier, ∀ report,
        visitChild g img fuel depth path walk other report =
            .error .outOfFuel ∨
          ∃ final,
            visitChild g img fuel depth path walk other report = .ok final)
    (never :
      ∀ report,
        visitChild g img fuel depth path walk child report =
          .error .outOfFuel)
    (report : Report) :
    walkChildren g img fuel depth path walk (earlier ++ child :: later)
        report =
      .error .outOfFuel := by
  induction earlier generalizing report with
  | nil =>
      rw [List.nil_append, walkChildren_cons, never]
      rfl
  | cons first rest inductionHypothesis =>
      obtain ⟨own, others⟩ := List.forall_mem_cons.mp passed
      rw [List.cons_append, walkChildren_cons]
      rcases own report with out | ⟨final, returned⟩
      · rw [out]
        rfl
      · rw [returned]
        exact inductionHypothesis others final

end Children

/-- More fuel does not change what a walk reports. -/
theorem walkDir_stable
    (depth clus : Nat)
    (visited : List Nat)
    (path : PyStr)
    (report : Report) :
    Stable (.error .outOfFuel) fun fuel =>
      walkDir g img fuel depth clus visited path report := by
  intro fuel result
  induction fuel generalizing depth clus visited path report with
  | zero =>
      exact absurd rfl result
  | succ fuel inductionHypothesis =>
      dsimp only at result ⊢
      by_cases known : clus ∈ visited
      · rw [walkDir_again known, walkDir_again known]
      · rw [walkDir_fresh known] at result
        rw [walkDir_fresh known, walkDir_fresh known]
        exact bind_eq_of_ne (readChain_stable g img _ clus [] fuel)
          (fun found _ => walkChildren_more fun first path report =>
            inductionHypothesis (depth + 1) first _ path report) result

theorem walkDir_steady
    (g : Bpb)
    (img : List UInt8)
    (depth : Nat)
    (visited : List Nat) :
    Steady fun fuel first path =>
      walkDir g img fuel depth first visited path :=
  fun first path => walkDir_stable depth first visited path

theorem walkFound_stable
    (depth : Nat)
    (visited : List Nat)
    (path : PyStr)
    (report : Report)
    (found : List DirEntry × List Nat) :
    Stable (.error .outOfFuel) fun fuel =>
      walkFound g img depth visited path report fuel found :=
  walkChildren_stable (walkDir_steady g img (depth + 1) visited) _ _

/-- What the cluster loop finds does not depend on its fuel. -/
theorem Lists.unique
    {visited : List Nat}
    {clus fuel : Nat}
    {entries : List DirEntry}
    (lists : Lists g img visited clus entries)
    {found : List DirEntry × List Nat}
    (again : readChain g img visited fuel clus [] = .ok found) :
    found.1 = entries := by
  obtain ⟨enough, chain, read⟩ := lists
  rw [readChain_unique again read]

theorem ChildPasses.returns
    {visited : List Nat}
    {child : DirEntry}
    (passes : ChildPasses g img visited child)
    {depth : Nat}
    {path : PyStr}
    {walk : Nat → Nat → PyStr → Report → Except InspectError Report}
    (dirs :
      Passes g img visited child.first → ∀ path report,
        Returns fun fuel => walk fuel child.first path report)
    (report : Report) :
    Returns fun fuel =>
      visitChild g img fuel depth path (walk fuel) child report :=
  visitChild_returns (fun isDir => dirs (passes.dir isDir)) passes.file
    report

/-- A visit that comes back has gone through. -/
theorem childPasses_of_visitChild
    {visited : List Nat}
    {fuel depth : Nat}
    {path : PyStr}
    {walk : Nat → PyStr → Report → Except InspectError Report}
    {child : DirEntry}
    (dirs :
      ∀ path report final, walk child.first path report = .ok final →
        Passes g img visited child.first)
    {report final : Report}
    (returned :
      visitChild g img fuel depth path walk child report = .ok final) :
    ChildPasses g img visited child where
  dir := by
    intro isDir
    rw [visitChild, if_pos isDir] at returned
    exact dirs _ _ _ returned
  file := by
    intro isFile
    rw [visitChild, if_neg (by simp [isFile])] at returned
    by_cases data : rootClus ≤ child.first
    · rw [if_pos data] at returned
      exact (walkChainMark_returns_iff _ _ _).mp ⟨fuel, final, returned⟩
    · exact fun c follows => absurd follows.data data

/-- A walk that can list and read everything comes back. -/
theorem Passes.returns
    {visited : List Nat}
    {clus : Nat}
    (passes : Passes g img visited clus)
    (depth : Nat)
    (path : PyStr)
    (report : Report) :
    Returns fun fuel =>
      walkDir g img fuel depth clus visited path report := by
  induction passes generalizing depth path report with
  | again known =>
      exact ⟨1, report, walkDir_again known ..⟩
  | @opened visited clus entries fresh lists _ files inductionHypothesis =>
      have listed := lists
      obtain ⟨fuel, chain, read⟩ := lists
      have stages :=
        Returns.bind (readChain_stable g img (clus :: visited) clus [])
          ⟨fuel, _, read⟩
          (walkFound_stable depth (clus :: visited) path report)
          (fun found enough again => by
            obtain rfl := listed.unique again
            exact walkChildren_returns (walkDir_steady g img _ _)
              (fun child member =>
                visitChild_returns
                  (fun isDir => inductionHypothesis child member isDir _)
                  (files child member))
              _)
      obtain ⟨more, final, returned⟩ := stages
      exact ⟨more + 1, final, (walkDir_fresh fresh ..).trans returned⟩

/-- A walk that comes back could list and read everything. -/
theorem passes_of_walkDir
    {fuel depth clus : Nat}
    {visited : List Nat}
    {path : PyStr}
    {report final : Report}
    (returned :
      walkDir g img fuel depth clus visited path report = .ok final) :
    Passes g img visited clus := by
  induction fuel generalizing depth clus visited path report final with
  | zero =>
      cases returned
  | succ fuel inductionHypothesis =>
      by_cases known : clus ∈ visited
      · exact .again known
      · rw [walkDir_fresh known] at returned
        cases read : readChain g img (clus :: visited) fuel clus [] with
        | error problem =>
            rw [read] at returned
            cases returned
        | ok found =>
            rw [read] at returned
            have passes (child : DirEntry)
                (member : child ∈ childrenOf found.1) :
                ChildPasses g img (clus :: visited) child := by
              obtain ⟨before, behind, visit⟩ :=
                visitChild_of_walkChildren returned member
              exact childPasses_of_visitChild
                (fun _ _ _ => inductionHypothesis) visit
            exact .opened known ⟨fuel, found.2, read⟩
              (fun child member => (passes child member).dir)
              (fun child member => (passes child member).file)

/-- A walk that is trapped does not end. -/
theorem Trapped.outOfFuel
    {visited : List Nat}
    {clus : Nat}
    (trapped : Trapped g img visited clus)
    (fuel depth : Nat)
    (path : PyStr)
    (report : Report) :
    walkDir g img fuel depth clus visited path report =
      .error .outOfFuel := by
  induction trapped generalizing fuel depth path report with
  | here fresh circles =>
      cases fuel with
      | zero =>
          rfl
      | succ fuel =>
          rw [walkDir_fresh fresh,
            readChain_outOfFuel_iff.mpr (circles.rounds_isSome fuel)]
          rfl
  | @inside visited clus entries earlier later child fresh lists listed
      passed isDir _ inductionHypothesis =>
      cases fuel with
      | zero =>
          rfl
      | succ fuel =>
          rw [walkDir_fresh fresh]
          have returns : Returns fun fuel =>
              readChain g img (clus :: visited) fuel clus [] := by
            obtain ⟨enough, chain, read⟩ := lists
            exact ⟨enough, _, read⟩
          rcases (readChain_stable g img (clus :: visited) clus
              []).ok_of_returns returns fuel with out | ⟨found, read⟩
          · simp only [out]
            rfl
          · simp only [read]
            obtain rfl := lists.unique read
            change walkChildren g img fuel depth path _ _ _ = _
            rw [listed]
            refine walkChildren_outOfFuel (fun other member report => ?_)
              (fun report => ?_) _
            · have steady := walkDir_steady g img (depth + 1) (clus :: visited)
              refine (visitChild_stable steady other report).ok_of_returns
                ?_ fuel
              exact (passed other member).returns
                (fun passes => passes.returns (depth + 1)) report
            · rw [visitChild, if_pos isDir]
              exact inductionHypothesis fuel (depth + 1) _ _

end Directories

section Ends

theorem unpackFrom_lt
    {width start number : Nat}
    {data : List UInt8}
    (read : unpackFrom width data start = .ok number) :
    number < 256 ^ width := by
  rw [unpackFrom] at read
  split at read
  · obtain rfl := Except.ok.inj read
    refine Nat.lt_of_lt_of_le (LittleEndian.value_lt _) ?_
    exact Nat.pow_le_pow_right (by decide) (List.length_take_le _ _)
  · cases read

/-- Start clusters have 32 bits. -/
def startBound : Nat := 2 ^ 32

theorem readEntry_first_lt
    {pending : List (List UInt8)}
    {e : List UInt8}
    {entry : DirEntry}
    (read : readEntry pending e = .ok entry) :
    entry.first < startBound := by
  simp only [readEntry, bind_eq_ok] at read
  obtain ⟨_, _, low, lowRead, high, highRead, _, _, _, _, built⟩ := read
  obtain rfl := Except.ok.inj built
  have lowSmall : low < 2 ^ 32 :=
    Nat.lt_of_lt_of_le (unpackFrom_lt lowRead) (by decide)
  have highSmall : high <<< 16 < 2 ^ 32 := by
    have small := unpackFrom_lt highRead
    rw [Nat.shiftLeft_eq]
    omega
  exact Nat.or_lt_two_pow lowSmall highSmall

theorem readEntry_of_scanEntry
    {pending : List (List UInt8)}
    {e : List UInt8}
    {entry : DirEntry}
    (found : scanEntry pending e = .ok (.found entry)) :
    readEntry pending e = .ok entry := by
  obtain ⟨b0, _, found⟩ := bind_eq_ok.mp found
  split at found
  · cases found
  · split at found
    · cases found
    · obtain ⟨attr, _, found⟩ := bind_eq_ok.mp found
      split at found
      · cases found
      · obtain ⟨other, read, same⟩ := bind_eq_ok.mp found
        cases same
        exact read

theorem scanEntries_first_lt
    {es pending later : List (List UInt8)}
    {entries : List DirEntry}
    {done : Bool}
    (found : scanEntries es pending = .ok (entries, later, done)) :
    ∀ entry ∈ entries, entry.first < startBound := by
  induction es generalizing pending entries later done with
  | nil =>
      obtain ⟨rfl, _⟩ := Prod.mk.inj (Except.ok.inj found)
      exact fun entry member => absurd member List.not_mem_nil
  | cons e rest inductionHypothesis =>
      simp only [scanEntries, bind_eq_ok] at found
      obtain ⟨result, step, found⟩ := found
      cases result with
      | done =>
          obtain ⟨rfl, _⟩ := Prod.mk.inj (Except.ok.inj found)
          exact fun entry member => absurd member List.not_mem_nil
      | pending more =>
          exact inductionHypothesis found
      | found first =>
          obtain ⟨⟨others, behind, ended⟩, further, joined⟩ :=
            bind_eq_ok.mp found
          obtain ⟨rfl, _⟩ := Prod.mk.inj (Except.ok.inj joined)
          exact List.forall_mem_cons.mpr
            ⟨readEntry_first_lt (readEntry_of_scanEntry step),
              inductionHypothesis further⟩

theorem raising_eq_ok
    {result : Except PyError α}
    {value : α} :
    raising result = .ok value ↔ result = .ok value := by
  cases result with
  | error problem =>
      simp [raising]
  | ok found =>
      simp [raising]

theorem readBpb_root_lt
    {start : Nat}
    (booted : readBpb img start = .ok g) :
    g.root < startBound := by
  have last {sec : Nat} {built : Nat → Bpb}
      (same : ∀ root, (built root).root = root)
      (read :
        (unpackFrom 4 img (44 + start) >>= fun root =>
          if sec ≠ sector then
            .error (.unexpectedSector sec)
          else
            .ok (built root)) = .ok g) :
      g.root < startBound := by
    obtain ⟨root, field, read⟩ := bind_eq_ok.mp read
    split at read
    · cases read
    · obtain rfl := Except.ok.inj read
      rw [same]
      exact Nat.lt_of_lt_of_le (unpackFrom_lt field) (by decide)
  simp only [readBpb, bind_eq_ok] at booted
  obtain ⟨_, _, sec, _, spc, _, rsvd, _, nfat, _, tot16, _, fat16, _,
    booted⟩ := booted
  split at booted <;> obtain ⟨tot, _, booted⟩ := bind_eq_ok.mp booted <;>
    split at booted <;> obtain ⟨fatSec, _, booted⟩ := bind_eq_ok.mp booted
  all_goals exact last (fun _ => rfl) booted

theorem readChain_first_lt
    {visited : List Nat}
    {fuel clus : Nat}
    {pending : List (List UInt8)}
    {found : List DirEntry × List Nat}
    (read : readChain g img visited fuel clus pending = .ok found) :
    ∀ entry ∈ found.1, entry.first < startBound := by
  induction fuel generalizing clus pending found with
  | zero =>
      cases read
  | succ fuel inductionHypothesis =>
      rw [readChain_succ] at read
      obtain ⟨⟨entries, later, done⟩, scan, read⟩ := bind_eq_ok.mp read
      have own : ∀ entry ∈ entries, entry.first < startBound :=
        scanEntries_first_lt (raising_eq_ok.mp scan)
      split at read
      · obtain rfl := Except.ok.inj read
        exact own
      · obtain ⟨next, _, read⟩ := bind_eq_ok.mp read
        split at read
        · obtain rfl := Except.ok.inj read
          exact own
        · obtain ⟨further, others, joined⟩ := bind_eq_ok.mp read
          obtain rfl := Except.ok.inj joined
          intro entry member
          rcases List.mem_append.mp member with here | there
          · exact own entry here
          · exact inductionHypothesis others entry there

/-- The start clusters on a path are different numbers of 32 bits. -/
theorem walkDir_ends
    {visited : List Nat}
    (distinct : visited.Nodup)
    (below : ∀ c ∈ visited, c < startBound)
    {clus : Nat}
    (small : clus < startBound)
    (free : ¬ Trapped g img visited clus)
    (depth : Nat)
    (path : PyStr)
    (report : Report) :
    Ends (.error .outOfFuel) fun fuel =>
      walkDir g img fuel depth clus visited path report := by
  obtain ⟨left, measured⟩ : ∃ left, startBound - visited.length = left :=
    ⟨_, rfl⟩
  induction left using Nat.strong_induction_on
    generalizing visited clus depth path report with
  | _ left inductionHypothesis => ?_
  by_cases known : clus ∈ visited
  · exact ⟨1, by simp [walkDir_again known]⟩
  · have moreDistinct := distinct.cons known
    have moreBelow : ∀ c ∈ clus :: visited, c < startBound :=
      List.forall_mem_cons.mpr ⟨small, below⟩
    have room := length_le_of_nodup moreDistinct moreBelow
    rw [List.length_cons] at room
    have fewer : startBound - (clus :: visited).length < left := by
      rw [List.length_cons]
      omega
    have loopEnds :=
      readChain_ends_iff.mpr fun circles => free (.here known circles)
    have stages :=
      Ends.bind (readChain_stable g img (clus :: visited) clus []) loopEnds
        (walkFound_stable depth (clus :: visited) path report)
        (fun found enough read => by
          have starts := readChain_first_lt read
          have steady := walkDir_steady g img (depth + 1) (clus :: visited)
          have visited (fuel : Nat) (child : DirEntry) (report final : Report)
              (returned :
                visitChild g img fuel depth path
                    (fun first path => walkDir g img fuel (depth + 1) first
                      (clus :: visited) path) child report =
                  .ok final) :
              ChildPasses g img (clus :: visited) child :=
            childPasses_of_visitChild
              (fun path report final => passes_of_walkDir) returned
          refine walkChildren_ends steady visited ?_ _
          intro earlier child later listed passed report
          have member : child ∈ childrenOf found.1 := by
            rw [listed]
            exact List.mem_append_right _ (List.mem_cons_self ..)
          refine visitChild_ends (fun isDir path report => ?_) report
          refine inductionHypothesis _ fewer moreDistinct moreBelow
            (starts child (List.mem_of_mem_filter member)) ?_
            (depth + 1) path report rfl
          exact fun trapped => free
            (.inside known ⟨enough, found.2, read⟩ listed passed isDir trapped))
    obtain ⟨fuel, result⟩ := stages
    refine ⟨fuel + 1, ?_⟩
    dsimp only
    rwa [walkDir_fresh known]

theorem inspectImage_outOfFuel
    {img : List UInt8}
    {start : Nat}
    (begins : partitionStart img = .ok start)
    (booted : readBpb img (start * sector) = .ok g)
    (trapped : Trapped g img [] g.root)
    (fuel : Nat) :
    inspectImage fuel img = .error .outOfFuel := by
  have walked := trapped.outOfFuel fuel 0 [] ⟨[], [], []⟩
  simp only [inspectImage, begins, booted, walked, raising, bind,
    Except.bind]

/--
An inspection ends if and only if it comes to no directory whose clusters go
round in a circle.
-/
theorem inspectImage_ends_iff (img : List UInt8) :
    (∃ fuel, inspectImage fuel img ≠ .error .outOfFuel) ↔
      ∀ start g,
        partitionStart img = .ok start →
        readBpb img (start * sector) = .ok g →
        ¬ Trapped g img [] g.root := by
  cases begins : partitionStart img with
  | error problem =>
      simp [inspectImage, begins, raising, bind, Except.bind]
  | ok start =>
      cases booted : readBpb img (start * sector) with
      | error problem =>
          constructor
          · rintro - start' g same booted'
            obtain rfl := Except.ok.inj same
            rw [booted] at booted'
            cases booted'
          · intro
            exact ⟨0, by
              simp [inspectImage, begins, booted, raising, bind, Except.bind]⟩
      | ok g =>
          have walks (fuel : Nat) :
              inspectImage fuel img ≠ .error .outOfFuel ↔
                walkDir g img fuel 0 g.root [] [] ⟨[], [], []⟩ ≠
                  .error .outOfFuel := by
            simp only [inspectImage, begins, booted, raising, bind,
              Except.bind]
            cases walkDir g img fuel 0 g.root [] [] ⟨[], [], []⟩ with
            | error problem =>
                simp
            | ok report =>
                simp [pure, Except.pure]
          simp only [walks]
          constructor
          · rintro ⟨fuel, result⟩ start' g' same booted' trapped
            obtain rfl := Except.ok.inj same
            exact (walks fuel).mpr result
              (inspectImage_outOfFuel begins booted' trapped fuel)
          · intro free
            exact walkDir_ends List.nodup_nil
              (fun c member => absurd member List.not_mem_nil)
              (readBpb_root_lt booted) (free start g rfl booted) 0 [] _

/--
A root directory of two clusters of deleted entries; the second one is linked
to itself.
-/
def circularImg : List UInt8 :=
  -- The boot sector: 512 bytes a sector, clusters, reserved part and FAT of
  -- one sector each, the root directory at cluster 2.
  List.replicate 11 0 ++ [0x00, 0x02, 1, 1, 0, 1] ++ List.replicate 5 0 ++
    [1, 0] ++ List.replicate 20 0 ++ [2, 0, 0, 0] ++ List.replicate 464 0 ++
  -- The FAT.
  List.replicate 8 0 ++ [3, 0, 0, 0, 3, 0, 0, 0] ++ List.replicate 496 0 ++
  List.replicate 1024 0xE5

/-- The inspection of this image goes on for ever. -/
theorem inspectImage_circularImg :
    ¬ ∃ fuel, inspectImage fuel circularImg ≠ .error .outOfFuel := by
  have begins : partitionStart circularImg = .ok 0 := by decide +kernel
  have booted :
      readBpb circularImg (0 * sector) =
        .ok ⟨1, 1, 1, 0, 1, rootClus, 0, 1024⟩ := by
    decide +kernel
  have circles :
      Circles ⟨1, 1, 1, 0, 1, rootClus, 0, 1024⟩ circularImg [rootClus]
        rootClus :=
    ⟨1, 2, by decide, by decide +kernel, by decide +kernel⟩
  rintro ⟨fuel, result⟩
  exact result (inspectImage_outOfFuel begins booted
    (.here List.not_mem_nil circles) fuel)

end Ends

end UefiMount.MkFatImg
