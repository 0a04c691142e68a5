import Mathlib.Data.List.Nodup
import Mathlib.Logic.Relation
import UefiMount.FatInspectEnds

namespace UefiMount.MkFatImg

open FuelledRuns

/-!
# The cluster conflicts of an inspection

An inspection that finishes reports no conflict when the clusters that it looks
at are all different.  It does not look at every cluster of every chain: it
leaves a directory at the end of its entries, a file at a cluster that it has
seen, and a directory that is on its own path at once.
-/

variable {g : Bpb} {img : List UInt8}

section Tally

namespace Report

/-- The clusters in use. -/
def clusters (report : Report) : List Nat :=
  report.occup.map Prod.fst

/-- What the marks of some clusters make of a report. -/
structure Adds (report final : Report) (marks : List Nat) : Prop where
  distinct : report.clusters.Nodup → final.clusters.Nodup
  clear : final.conflicts = [] → report.conflicts = []
  clusters :
    final.conflicts = [] → final.clusters = report.clusters ++ marks
  conflicts :
    report.clusters.Nodup →
      (final.conflicts = [] ↔
        report.conflicts = [] ∧ (report.clusters ++ marks).Nodup)

theorem Adds.refl (report : Report) : Adds report report [] where
  distinct := id
  clear := id
  clusters _ := (List.append_nil _).symm
  conflicts distinct := by
    rw [List.append_nil]
    exact ⟨fun clear => ⟨clear, distinct⟩, And.left⟩

/-- Lines are no marks. -/
theorem Adds.print (report : Report) (line : Line) :
    Adds report (report.print line) [] where
  distinct := id
  clear := id
  clusters := (Adds.refl report).clusters
  conflicts := (Adds.refl report).conflicts

theorem Adds.trans
    {report middle final : Report}
    {marks more : List Nat}
    (first : Adds report middle marks)
    (second : Adds middle final more) :
    Adds report final (marks ++ more) where
  distinct distinct := second.distinct (first.distinct distinct)
  clear clear := first.clear (second.clear clear)
  clusters clear := by
    rw [second.clusters clear, first.clusters (second.clear clear),
      List.append_assoc]
  conflicts distinct := by
    rw [second.conflicts (first.distinct distinct), ← List.append_assoc]
    constructor
    · rintro ⟨clear, different⟩
      rw [first.clusters clear] at different
      exact ⟨first.clear clear, different⟩
    · rintro ⟨clear, different⟩
      have middleClear :=
        (first.conflicts distinct).mpr
          ⟨clear, different.sublist (List.sublist_append_left ..)⟩
      rw [first.clusters middleClear]
      exact ⟨middleClear, different⟩

theorem lookup_eq_none_iff (report : Report) (c : Nat) :
    report.occup.lookup c = none ↔ c ∉ report.clusters := by
  rw [List.lookup_eq_none_iff, clusters]
  constructor
  · intro unused member
    obtain ⟨entry, known, rfl⟩ := List.mem_map.mp member
    exact absurd rfl (bne_iff_ne.mp (unused entry known))
  · intro unused entry known
    refine bne_iff_ne.mpr fun same => unused ?_
    rw [same]
    exact List.mem_map_of_mem known

/-- One mark. -/
theorem adds_mark (report : Report) (c : Nat) (what : Use) :
    Adds report (report.mark c what) [c] := by
  cases used : report.occup.lookup c with
  | none =>
      have unused := (report.lookup_eq_none_iff c).mp used
      have marked :
          (report.mark c what).clusters = report.clusters ++ [c] := by
        simp [mark, used, clusters]
      have same : (report.mark c what).conflicts = report.conflicts := by
        simp [mark, used]
      have different (distinct : report.clusters.Nodup) :
          (report.clusters ++ [c]).Nodup :=
        List.nodup_append.mpr ⟨distinct, List.nodup_singleton c, by
          intro a known b isC equal
          rw [equal, List.mem_singleton.mp isC] at known
          exact unused known⟩
      exact {
        distinct := fun distinct => marked ▸ different distinct
        clear := fun clear => same ▸ clear
        clusters := fun _ => marked
        conflicts := fun distinct => by
          rw [same]
          exact ⟨fun clear => ⟨clear, different distinct⟩, And.left⟩
      }
  | some first =>
      have known : c ∈ report.clusters := by
        by_contra unused
        rw [(report.lookup_eq_none_iff c).mpr unused] at used
        cases used
      have conflict : (report.mark c what).conflicts ≠ [] := by
        simp [mark, used]
      have same : (report.mark c what).clusters = report.clusters := by
        simp [mark, used, clusters]
      exact {
        distinct := fun distinct => same ▸ distinct
        clear := fun clear => absurd clear conflict
        clusters := fun clear => absurd clear conflict
        conflicts := fun distinct => by
          refine ⟨fun clear => absurd clear conflict, ?_⟩
          rintro ⟨_, different⟩
          exact absurd rfl
            ((List.nodup_append.mp different).2.2 c known c
              (List.mem_singleton_self c))
      }

theorem adds_foldl
    (report : Report)
    (marks : List Nat)
    (what : Use) :
    Adds report (marks.foldl (fun report c => report.mark c what) report)
      marks := by
  induction marks generalizing report with
  | nil =>
      exact Adds.refl report
  | cons c rest inductionHypothesis =>
      exact (adds_mark report c what).trans (inductionHypothesis _)

end Report

end Tally

section Chains

/--
The FAT chain from a cluster on, followed up to its end mark (or to the end of
the FAT).  A chain that leads back to itself has no such list.
-/
inductive Chain
    (g : Bpb)
    (img : List UInt8) :
    Nat → List Nat → Prop where
  | last
      {c : Nat}
      (ends : ∀ next, g.nextClus img c = .ok next → endMarks ≤ next) :
      Chain g img c [c]
  | link
      {c next : Nat}
      {rest : List Nat}
      (linked : g.nextClus img c = .ok next)
      (noMark : next < endMarks)
      (further : Chain g img next rest) :
      Chain g img c (c :: rest)

theorem Chain.unique
    {c : Nat}
    {clusters others : List Nat}
    (chain : Chain g img c clusters)
    (again : Chain g img c others) :
    clusters = others := by
  induction chain generalizing others with
  | last ends =>
      cases again with
      | last _ =>
          rfl
      | link linked noMark _ =>
          exact absurd (ends _ linked) (Nat.not_le.mpr noMark)
  | link linked noMark _ inductionHypothesis =>
      cases again with
      | last ends =>
          exact absurd (ends _ linked) (Nat.not_le.mpr noMark)
      | link linkedAgain _ further =>
          obtain rfl := Except.ok.inj (linked.symm.trans linkedAgain)
          rw [inductionHypothesis further]

/-- A chain goes on behind each of its clusters. -/
theorem Chain.behind
    {first c : Nat}
    {clusters : List Nat}
    (chain : Chain g img first clusters)
    (member : c ∈ clusters) :
    ∃ earlier later, clusters = earlier ++ later ∧ Chain g img c later := by
  induction chain with
  | last ends =>
      obtain rfl := List.mem_singleton.mp member
      exact ⟨[], _, rfl, .last ends⟩
  | @link c' next rest linked noMark further inductionHypothesis =>
      rcases List.mem_cons.mp member with rfl | inRest
      · exact ⟨[], _, rfl, .link linked noMark further⟩
      · obtain ⟨earlier, later, rfl, tail⟩ := inductionHypothesis inRest
        exact ⟨c' :: earlier, later, rfl, tail⟩

/-- A chain that ends does not come back to a cluster. -/
theorem Chain.nodup
    {first : Nat}
    {clusters : List Nat}
    (chain : Chain g img first clusters) :
    clusters.Nodup := by
  induction chain with
  | last ends =>
      exact List.nodup_singleton _
  | @link c next rest linked noMark further inductionHypothesis =>
      refine inductionHypothesis.cons fun back => ?_
      obtain ⟨earlier, later, same, tail⟩ := further.behind back
      have longer := tail.unique (.link linked noMark further)
      have lengths := congrArg List.length same
      rw [longer, List.length_append, List.length_cons] at lengths
      omega

theorem Chain.head_mem
    {first : Nat}
    {clusters : List Nat}
    (chain : Chain g img first clusters) :
    first ∈ clusters := by
  cases chain with
  | last _ =>
      exact List.mem_singleton_self _
  | link _ _ _ =>
      exact List.mem_cons_self ..

theorem Chain.head_notMem_tail
    {first : Nat}
    {clusters : List Nat}
    (chain : Chain g img first clusters) :
    first ∉ clusters.tail := by
  have distinct := chain.nodup
  cases chain with
  | last _ =>
      exact List.not_mem_nil
  | link _ _ _ =>
      exact (List.nodup_cons.mp distinct).1

end Chains

section Reached

/-- A place in the tree: where it is, and the start clusters above it. -/
structure Slot where
  place : List Nat
  visited : List Nat
  isDir : Bool
  first : Nat

/-- The entries of the directory at one place, as the inspection lists them. -/
structure Below
    (g : Bpb)
    (img : List UInt8)
    (parent : Slot)
    (index : Nat)
    (slot : Slot) : Prop where
  dir : parent.isDir = true
  fresh : parent.first ∉ parent.visited
  listed :
    ∃ entries child,
      Lists g img (parent.first :: parent.visited) parent.first entries ∧
        (childrenOf entries)[index]? = some child ∧
        slot = ⟨parent.place ++ [index], parent.first :: parent.visited,
          child.isDir, child.first⟩

/-- The places that the walk below one place comes to. -/
def Reaches (g : Bpb) (img : List UInt8) : Slot → Slot → Prop :=
  Relation.ReflTransGen fun parent slot =>
    ∃ index, Below g img parent index slot

/-- The root directory. -/
def rootSlot (g : Bpb) : Slot :=
  ⟨[], [], true, g.root⟩

/-- The clusters that the walk over the chain of a file marks. -/
inductive FileMarks
    (g : Bpb)
    (img : List UInt8) :
    List Nat → Nat → List Nat → Prop where
  | stop
      {seen : List Nat}
      {clus : Nat}
      (stops : ¬ (rootClus ≤ clus ∧ clus < endMarks ∧ clus ∉ seen)) :
      FileMarks g img seen clus []
  | onward
      {seen : List Nat}
      {clus next : Nat}
      {marks : List Nat}
      (goesOn : rootClus ≤ clus ∧ clus < endMarks ∧ clus ∉ seen)
      (linked : g.nextClus img clus = .ok next)
      (further : FileMarks g img (clus :: seen) next marks) :
      FileMarks g img seen clus (clus :: marks)

/-- The clusters that the inspection looks at for one place. -/
inductive Looks
    (g : Bpb)
    (img : List UInt8)
    (slot : Slot) :
    List Nat → Prop where
  | again
      (dir : slot.isDir = true)
      (known : slot.first ∈ slot.visited) :
      Looks g img slot []
  | opened
      {fuel : Nat}
      {entries : List DirEntry}
      {chain : List Nat}
      (dir : slot.isDir = true)
      (fresh : slot.first ∉ slot.visited)
      (read :
        readChain g img (slot.first :: slot.visited) fuel slot.first [] =
          .ok (entries, chain)) :
      Looks g img slot chain
  | file
      {marks : List Nat}
      (file : slot.isDir = false)
      (walked : FileMarks g img [] slot.first marks) :
      Looks g img slot marks

theorem FileMarks.unique
    {seen marks others : List Nat}
    {clus : Nat}
    (walked : FileMarks g img seen clus marks)
    (again : FileMarks g img seen clus others) :
    marks = others := by
  induction walked generalizing others with
  | stop stops =>
      cases again with
      | stop _ =>
          rfl
      | onward goesOn _ _ =>
          exact absurd goesOn stops
  | onward goesOn linked _ inductionHypothesis =>
      cases again with
      | stop stops =>
          exact absurd goesOn stops
      | onward _ linkedAgain further =>
          obtain rfl := Except.ok.inj (linked.symm.trans linkedAgain)
          rw [inductionHypothesis further]

theorem Looks.unique
    {slot : Slot}
    {marks others : List Nat}
    (looks : Looks g img slot marks)
    (again : Looks g img slot others) :
    marks = others := by
  cases looks with
  | again dir known =>
      cases again with
      | again _ _ =>
          rfl
      | opened _ fresh _ =>
          exact absurd known fresh
      | file file _ =>
          cases dir.symm.trans file
  | opened dir fresh read =>
      cases again with
      | again _ known =>
          exact absurd known fresh
      | opened _ _ readAgain =>
          exact congrArg Prod.snd (readChain_unique read readAgain)
      | file file _ =>
          cases dir.symm.trans file
  | file file walked =>
      cases again with
      | again dir _ =>
          cases dir.symm.trans file
      | opened dir _ _ =>
          cases dir.symm.trans file
      | file _ walkedAgain =>
          exact walked.unique walkedAgain

/-- Places below a place have a longer path. -/
theorem Reaches.prefix
    {start slot : Slot}
    (reaches : Reaches g img start slot) :
    start.place <+: slot.place := by
  induction reaches with
  | refl =>
      exact List.prefix_rfl
  | tail _ step inductionHypothesis =>
      obtain ⟨index, below⟩ := step
      obtain ⟨entries, child, _, _, rfl⟩ := below.listed
      exact inductionHypothesis.trans (List.prefix_append ..)

end Reached

section Visits

/-- What has been visited below some places, with the clusters looked at. -/
structure Visits
    (g : Bpb)
    (img : List UInt8)
    (starts : List Slot)
    (visits : List (Slot × List Nat)) : Prop where
  slots :
    ∀ slot, slot ∈ visits.map Prod.fst ↔
      ∃ start ∈ starts, Reaches g img start slot
  looks : ∀ visit ∈ visits, Looks g img visit.1 visit.2
  places : (visits.map fun visit => visit.1.place).Nodup

theorem Visits.nil : Visits g img [] [] where
  slots := by simp
  looks := by simp
  places := List.nodup_nil

theorem Visits.prefix
    {starts : List Slot}
    {visits : List (Slot × List Nat)}
    (visited : Visits g img starts visits)
    {visit : Slot × List Nat}
    (member : visit ∈ visits) :
    ∃ start ∈ starts, start.place <+: visit.1.place := by
  obtain ⟨start, known, reaches⟩ :=
    (visited.slots visit.1).mp (List.mem_map_of_mem member)
  exact ⟨start, known, reaches.prefix⟩

/-- A place with nothing below it. -/
theorem Visits.leaf
    {start : Slot}
    {marks : List Nat}
    (leaf : ∀ index slot, ¬ Below g img start index slot)
    (looks : Looks g img start marks) :
    Visits g img [start] [(start, marks)] where
  slots slot := by
    simp only [List.map_cons, List.map_nil, List.mem_singleton,
      exists_eq_left]
    constructor
    · rintro rfl
      exact .refl
    · intro reaches
      rcases reaches.cases_head with same | ⟨_, ⟨index, below⟩, _⟩
      · exact same.symm
      · exact absurd below (leaf index _)
  looks visit member := by
    rw [List.mem_singleton.mp member]
    exact looks
  places := List.nodup_singleton _

/-- A place with what is below it. -/
theorem Visits.parent
    {start : Slot}
    {marks : List Nat}
    {slots : List Slot}
    {visits : List (Slot × List Nat)}
    (looks : Looks g img start marks)
    (below : Visits g img slots visits)
    (children :
      ∀ slot, slot ∈ slots ↔ ∃ index, Below g img start index slot) :
    Visits g img [start] ((start, marks) :: visits) where
  slots slot := by
    simp only [List.mem_singleton, exists_eq_left]
    rw [List.map_cons, List.mem_cons, below.slots]
    simp only [children]
    constructor
    · rintro (rfl | ⟨child, step, reaches⟩)
      · exact .refl
      · exact .head step reaches
    · intro reaches
      rcases reaches.cases_head with same | ⟨child, step, further⟩
      · exact .inl same.symm
      · exact .inr ⟨child, step, further⟩
  looks := List.forall_mem_cons.mpr ⟨looks, below.looks⟩
  places := by
    rw [List.map_cons, List.nodup_cons]
    refine ⟨fun member => ?_, below.places⟩
    obtain ⟨visit, known, same⟩ := List.mem_map.mp member
    obtain ⟨child, isChild, longer⟩ := below.prefix known
    obtain ⟨index, step⟩ := (children child).mp isChild
    obtain ⟨_, _, _, _, rfl⟩ := step.listed
    have back : start.place ++ [index] <+: start.place := by
      rwa [show visit.1.place = start.place from same] at longer
    have lengths := back.length_le
    rw [List.length_append, List.length_singleton] at lengths
    omega

/-- What is visited one after the other. -/
theorem Visits.append
    {starts others : List Slot}
    {visits more : List (Slot × List Nat)}
    (first : Visits g img starts visits)
    (second : Visits g img others more)
    (apart :
      ∀ one ∈ starts, ∀ other ∈ others, ∀ place,
        one.place <+: place → ¬ other.place <+: place) :
    Visits g img (starts ++ others) (visits ++ more) where
  slots slot := by
    rw [List.map_append, List.mem_append, first.slots, second.slots]
    constructor
    · rintro (⟨start, member, reaches⟩ | ⟨start, member, reaches⟩)
      · exact ⟨start, List.mem_append_left _ member, reaches⟩
      · exact ⟨start, List.mem_append_right _ member, reaches⟩
    · rintro ⟨start, member, reaches⟩
      rcases List.mem_append.mp member with left | right
      · exact .inl ⟨start, left, reaches⟩
      · exact .inr ⟨start, right, reaches⟩
  looks visit member :=
    (List.mem_append.mp member).elim (first.looks visit)
      (second.looks visit)
  places := by
    rw [List.map_append]
    refine List.nodup_append.mpr ⟨first.places, second.places, ?_⟩
    intro place inFirst other inSecond same
    obtain ⟨visit, known, rfl⟩ := List.mem_map.mp inFirst
    obtain ⟨another, knownToo, rfl⟩ := List.mem_map.mp inSecond
    obtain ⟨one, isOne, below⟩ := first.prefix known
    obtain ⟨start, isStart, belowToo⟩ := second.prefix knownToo
    exact apart one isOne start isStart _ below (by rwa [same])

/-- The places of the children of a directory. -/
def childSlots
    (place visited : List Nat) :
    Nat → List DirEntry → List Slot
  | _, [] =>
      []
  | index, child :: rest =>
      ⟨place ++ [index], visited, child.isDir, child.first⟩ ::
        childSlots place visited (index + 1) rest

theorem mem_childSlots
    {place visited : List Nat}
    {index : Nat}
    {children : List DirEntry}
    {slot : Slot} :
    slot ∈ childSlots place visited index children ↔
      ∃ offset child,
        children[offset]? = some child ∧
          slot =
            ⟨place ++ [index + offset], visited, child.isDir,
              child.first⟩ := by
  induction children generalizing index with
  | nil =>
      simp [childSlots]
  | cons child rest inductionHypothesis =>
      rw [childSlots, List.mem_cons, inductionHypothesis]
      constructor
      · rintro (rfl | ⟨offset, other, found, rfl⟩)
        · exact ⟨0, child, rfl, rfl⟩
        · exact ⟨offset + 1, other, found, by
            rw [Nat.add_right_comm, Nat.add_assoc]⟩
      · rintro ⟨offset, other, found, rfl⟩
        cases offset with
        | zero =>
            obtain rfl := Option.some.inj found
            exact .inl rfl
        | succ offset =>
            exact .inr ⟨offset, other, found, by
              rw [Nat.add_right_comm, Nat.add_assoc]⟩

/-- Paths through different children are different. -/
theorem apart_of_ne
    {place path : List Nat}
    {index other : Nat}
    (different : index ≠ other)
    (first : place ++ [index] <+: path) :
    ¬ place ++ [other] <+: path := by
  intro second
  have same :=
    (List.prefix_of_prefix_length_le first second (by simp)).eq_of_length
      (by simp)
  simp only [List.append_cancel_left_eq, List.cons.injEq, and_true] at same
  exact different same

/-- The marks of a file. -/
theorem walkChainMark_marks
    {what : Use}
    {fuel clus : Nat}
    {seen : List Nat}
    {report final : Report}
    (returned :
      walkChainMark g img what fuel clus seen report = .ok final) :
    ∃ marks, FileMarks g img seen clus marks ∧ report.Adds final marks := by
  induction fuel generalizing clus seen report with
  | zero =>
      cases returned
  | succ fuel inductionHypothesis =>
      by_cases goesOn : rootClus ≤ clus ∧ clus < endMarks ∧ clus ∉ seen
      · rw [walkChainMark_onward goesOn] at returned
        obtain ⟨next, linked, returned⟩ := bind_eq_ok.mp returned
        obtain ⟨marks, walked, adds⟩ := inductionHypothesis returned
        exact ⟨clus :: marks,
          .onward goesOn (raising_eq_ok.mp linked) walked,
          (Report.adds_mark report clus what).trans adds⟩
      · rw [walkChainMark_stop goesOn] at returned
        obtain rfl := Except.ok.inj returned
        exact ⟨[], .stop goesOn, .refl report⟩

/-- A report comes from another by the marks of the visits. -/
def Visited
    (g : Bpb)
    (img : List UInt8)
    (starts : List Slot)
    (report final : Report) :
    Prop :=
  ∃ visits,
    Visits g img starts visits ∧ report.Adds final (visits.flatMap Prod.snd)

theorem visitChild_visited
    {fuel depth : Nat}
    {path : PyStr}
    {walk : Nat → PyStr → Report → Except InspectError Report}
    {child : DirEntry}
    {place visited : List Nat}
    (dirs :
      ∀ path report final, walk child.first path report = .ok final →
        Visited g img [⟨place, visited, true, child.first⟩] report final)
    {report final : Report}
    (returned :
      visitChild g img fuel depth path walk child report = .ok final) :
    Visited g img [⟨place, visited, child.isDir, child.first⟩] report
      final := by
  have printed := Report.Adds.print report (.entry (depth + 1) child.isDir
    (shortToName child.short11) child.name child.size child.first)
  simp only [visitChild] at returned
  cases kind : child.isDir with
  | true =>
      rw [kind, if_pos rfl] at returned
      rw [kind] at printed
      obtain ⟨visits, visited, adds⟩ := dirs _ _ _ returned
      exact ⟨visits, visited, printed.trans adds⟩
  | false =>
      rw [kind, if_neg Bool.false_ne_true] at returned
      rw [kind] at printed
      obtain ⟨marks, walked, adds⟩ :
          ∃ marks, FileMarks g img [] child.first marks ∧
            report.Adds final marks := by
        by_cases data : rootClus ≤ child.first
        · rw [if_pos data] at returned
          obtain ⟨marks, walked, adds⟩ := walkChainMark_marks returned
          exact ⟨marks, walked, printed.trans adds⟩
        · rw [if_neg data] at returned
          obtain rfl := Except.ok.inj returned
          exact ⟨[], .stop fun goesOn => data goesOn.1, printed⟩
      refine ⟨_, Visits.leaf ?_ (.file rfl walked), ?_⟩
      · intro index slot below
        cases below.dir
      · simpa using adds

/-- The loop over the children visits them one after the other. -/
theorem walkChildren_visited
    {fuel depth : Nat}
    {path : PyStr}
    {walk : Nat → PyStr → Report → Except InspectError Report}
    {place visited : List Nat}
    (dirs :
      ∀ place first path report final, walk first path report = .ok final →
        Visited g img [⟨place, visited, true, first⟩] report final)
    (index : Nat)
    {children : List DirEntry}
    {report final : Report}
    (returned :
      walkChildren g img fuel depth path walk children report = .ok final) :
    Visited g img (childSlots place visited index children) report final := by
  induction children generalizing index report with
  | nil =>
      obtain rfl := Except.ok.inj returned
      exact ⟨[], .nil, .refl report⟩
  | cons child rest inductionHypothesis =>
      rw [walkChildren_cons] at returned
      obtain ⟨middle, own, others⟩ := bind_eq_ok.mp returned
      obtain ⟨visits, first, adds⟩ :=
        visitChild_visited (dirs (place ++ [index]) child.first) own
      obtain ⟨more, second, further⟩ := inductionHypothesis (index + 1) others
      refine ⟨visits ++ more, first.append second ?_, ?_⟩
      · intro one isOne other isOther path
        rw [List.mem_singleton.mp isOne]
        obtain ⟨offset, _, _, rfl⟩ := mem_childSlots.mp isOther
        exact apart_of_ne (by omega)
      · rw [List.flatMap_append]
        exact adds.trans further

theorem walkDir_visited
    {fuel depth clus : Nat}
    {visited : List Nat}
    {path : PyStr}
    {report final : Report}
    (place : List Nat)
    (returned :
      walkDir g img fuel depth clus visited path report = .ok final) :
    Visited g img [⟨place, visited, true, clus⟩] report final := by
  induction fuel generalizing depth clus visited path report final place with
  | zero =>
      cases returned
  | succ fuel inductionHypothesis =>
      by_cases known : clus ∈ visited
      · rw [walkDir_again known] at returned
        obtain rfl := Except.ok.inj returned
        refine ⟨_, Visits.leaf ?_ (.again rfl known), ?_⟩
        · intro index slot below
          exact below.fresh known
        · simpa using Report.Adds.refl report
      · rw [walkDir_fresh known] at returned
        obtain ⟨found, read, returned⟩ := bind_eq_ok.mp returned
        obtain ⟨visits, below, adds⟩ :=
          walkChildren_visited
            (fun place first path report final =>
              inductionHypothesis place) 0 returned
        refine ⟨_, Visits.parent (.opened rfl known read) below ?_, ?_⟩
        · intro slot
          simp only [mem_childSlots, Nat.zero_add]
          constructor
          · rintro ⟨index, child, listed, rfl⟩
            exact ⟨index, rfl, known, found.1, child,
              ⟨fuel, found.2, read⟩, listed, rfl⟩
          · rintro ⟨index, below⟩
            obtain ⟨entries, child, lists, listed, rfl⟩ := below.listed
            obtain rfl := lists.unique read
            exact ⟨index, child, listed, rfl⟩
        · rw [List.flatMap_cons]
          refine Report.Adds.trans ?_ adds
          have opened :=
            (Report.adds_foldl report found.2 (.dir path)).trans
              (.print _ (if depth = 0 then
                .root (childrenOf found.1).length
              else
                .dir depth (childrenOf found.1).length))
          rwa [List.append_nil] at opened

/-- What a finished inspection has visited. -/
theorem inspectImage_visited
    {fuel : Nat}
    {inspection : Inspection}
    (finished : inspectImage fuel img = .ok inspection) :
    ∃ visits,
      Visits inspection.bpb img [rootSlot inspection.bpb] visits ∧
        (inspection.report.conflicts = [] ↔
          (visits.flatMap Prod.snd).Nodup) := by
  simp only [inspectImage, bind_eq_ok] at finished
  obtain ⟨start, _, g, _, report, walked, built⟩ := finished
  obtain rfl := Except.ok.inj built
  obtain ⟨visits, visited, adds⟩ := walkDir_visited [] walked
  refine ⟨visits, visited, ?_⟩
  have exact := adds.conflicts List.nodup_nil
  simpa [Report.clusters] using exact

end Visits

section Soundness

/--
The entries of the tree: the root directory, and what the directories list when
they are read along their chains to the end.
-/
inductive Entry
    (g : Bpb)
    (img : List UInt8) :
    List Nat → Bool → Nat → Prop where
  | root :
      Entry g img [] true g.root
  | child
      {place : List Nat}
      {first index : Nat}
      {entries : List DirEntry}
      {child : DirEntry}
      (dir : Entry g img place true first)
      (lists : Lists g img [] first entries)
      (listed : (childrenOf entries)[index]? = some child) :
      Entry g img (place ++ [index]) child.isDir child.first

/-- The chain of an entry; a file without a data cluster has none. -/
def EntryChain
    (g : Bpb)
    (img : List UInt8)
    (isDir : Bool)
    (first : Nat)
    (clusters : List Nat) :
    Prop :=
  if isDir = true ∨ (rootClus ≤ first ∧ first < endMarks) then
    Chain g img first clusters
  else
    clusters = []

/-- The chains of all entries end, and no two of them share a cluster. -/
structure ChainsSound (g : Bpb) (img : List UInt8) : Prop where
  ends :
    ∀ place isDir first, Entry g img place isDir first →
      ∃ clusters, EntryChain g img isDir first clusters
  apart :
    ∀ place isDir first clusters other isDir' first' clusters',
      Entry g img place isDir first →
      Entry g img other isDir' first' →
      place ≠ other →
      EntryChain g img isDir first clusters →
      EntryChain g img isDir' first' clusters' →
      clusters.Disjoint clusters'

/-- The inspection looks at no cluster twice. -/
structure LooksApart (g : Bpb) (img : List UInt8) : Prop where
  distinct :
    ∀ slot marks, Reaches g img (rootSlot g) slot →
      Looks g img slot marks → marks.Nodup
  apart :
    ∀ one marks other more,
      Reaches g img (rootSlot g) one →
      Reaches g img (rootSlot g) other →
      one.place ≠ other.place →
      Looks g img one marks →
      Looks g img other more →
      marks.Disjoint more

/--
Where the inspection leaves a chain, it goes on to an end, through clusters that
are in no other chain.
-/
structure RestsSound (g : Bpb) (img : List UInt8) : Prop where
  ends :
    ∀ slot marks, Reaches g img (rootSlot g) slot →
      Looks g img slot marks →
      ∃ rest, EntryChain g img slot.isDir slot.first (marks ++ rest)
  apart :
    ∀ one marks rest other clusters,
      Reaches g img (rootSlot g) one →
      Reaches g img (rootSlot g) other →
      one.place ≠ other.place →
      Looks g img one marks →
      EntryChain g img one.isDir one.first (marks ++ rest) →
      EntryChain g img other.isDir other.first clusters →
      rest.Disjoint clusters

theorem EntryChain.unique
    {isDir : Bool}
    {first : Nat}
    {clusters others : List Nat}
    (chain : EntryChain g img isDir first clusters)
    (again : EntryChain g img isDir first others) :
    clusters = others := by
  rw [EntryChain] at chain again
  split at chain
  · rename_i has
    rw [if_pos has] at again
    exact chain.unique again
  · rename_i none
    rw [if_neg none] at again
    rw [chain, again]

theorem EntryChain.nodup
    {isDir : Bool}
    {first : Nat}
    {clusters : List Nat}
    (chain : EntryChain g img isDir first clusters) :
    clusters.Nodup := by
  rw [EntryChain] at chain
  split at chain
  · exact chain.nodup
  · rw [chain]
    exact List.nodup_nil

theorem EntryChain.dir
    {first : Nat}
    {clusters : List Nat}
    (chain : EntryChain g img true first clusters) :
    Chain g img first clusters := by
  rwa [EntryChain, if_pos (.inl rfl)] at chain

/-- The loop follows the chain, as far as it goes. -/
theorem prefix_of_readChain
    {visited clusters : List Nat}
    {fuel c : Nat}
    {pending : List (List UInt8)}
    {found : List DirEntry × List Nat}
    (read : readChain g img visited fuel c pending = .ok found)
    (chain : Chain g img c clusters) :
    found.2 <+: clusters := by
  induction fuel generalizing c pending clusters found with
  | zero =>
      cases read
  | succ fuel inductionHypothesis =>
      have begins : [c] <+: clusters := by
        cases chain with
        | last _ =>
            exact List.prefix_rfl
        | link _ _ _ =>
            exact List.prefix_append [c] _
      rw [readChain_succ] at read
      obtain ⟨result, _, read⟩ := bind_eq_ok.mp read
      split at read
      · obtain rfl := Except.ok.inj read
        exact begins
      · obtain ⟨next, linked, read⟩ := bind_eq_ok.mp read
        replace linked := raising_eq_ok.mp linked
        split at read
        · obtain rfl := Except.ok.inj read
          exact begins
        · rename_i goesOn
          obtain ⟨later, further, joined⟩ := bind_eq_ok.mp read
          obtain rfl := Except.ok.inj joined
          cases chain with
          | last ends =>
              exact absurd (.inl (ends next linked)) goesOn
          | link linkedAgain _ rest =>
              obtain rfl := Except.ok.inj (linked.symm.trans linkedAgain)
              exact List.cons_prefix_cons.mpr
                ⟨rfl, inductionHypothesis further rest⟩

theorem prefix_of_fileMarks
    {seen marks clusters : List Nat}
    {c : Nat}
    (walked : FileMarks g img seen c marks)
    (chain : Chain g img c clusters) :
    marks <+: clusters := by
  induction walked generalizing clusters with
  | stop _ =>
      exact List.nil_prefix
  | onward goesOn linked further inductionHypothesis =>
      cases chain with
      | last ends =>
          cases further with
          | stop _ =>
              exact List.prefix_rfl
          | onward goesOnToo _ _ =>
              exact absurd (ends _ linked) (Nat.not_le.mpr goesOnToo.2.1)
      | link linkedAgain _ rest =>
          obtain rfl := Except.ok.inj (linked.symm.trans linkedAgain)
          exact List.cons_prefix_cons.mpr ⟨rfl, inductionHypothesis rest⟩

/-- What the inspection looks at is the front of the chain. -/
theorem Looks.prefix
    {slot : Slot}
    {marks clusters : List Nat}
    (looks : Looks g img slot marks)
    (chain : EntryChain g img slot.isDir slot.first clusters) :
    marks <+: clusters := by
  cases looks with
  | again _ _ =>
      exact List.nil_prefix
  | opened dir _ read =>
      rw [dir] at chain
      exact prefix_of_readChain read chain.dir
  | file isFile walked =>
      rw [EntryChain, isFile] at chain
      split at chain
      · exact prefix_of_fileMarks walked chain
      · rename_i none
        cases walked with
        | stop _ =>
            exact List.nil_prefix
        | onward goesOn _ _ =>
            exact absurd (.inr ⟨goesOn.1, goesOn.2.1⟩) none

/-- A loop that meets no start cluster reads the directory to its end. -/
theorem readChain_avoiding
    {visited clusters : List Nat}
    {c : Nat}
    (chain : Chain g img c clusters)
    (avoids : ∀ other ∈ clusters.tail, other ∉ visited)
    (fuel : Nat)
    (pending : List (List UInt8)) :
    readChain g img visited fuel c pending =
      readChain g img [] fuel c pending := by
  induction fuel generalizing c pending clusters with
  | zero =>
      rfl
  | succ fuel inductionHypothesis =>
      rw [readChain_succ, readChain_succ]
      refine congrArg _ (funext fun found => ?_)
      by_cases done : found.2.2 = true
      · rw [if_pos done, if_pos done]
      · rw [if_neg done, if_neg done]
        cases chain with
        | last ends =>
            cases linked : g.nextClus img c with
            | error problem =>
                rfl
            | ok next =>
                have stops := ends next linked
                simp only [raising, bind, Except.bind, stops, true_or,
                  ↓reduceIte]
        | @link _ next rest linked noMark further =>
            have fresh := avoids next further.head_mem
            have same := inductionHypothesis further
              (fun other behind => avoids other (List.mem_of_mem_tail behind))
              found.2.1
            simp only [linked, raising, bind, Except.bind, fresh, same,
              List.not_mem_nil, or_false]

theorem lists_iff_of_chain
    {visited clusters : List Nat}
    {first : Nat}
    {entries : List DirEntry}
    (chain : Chain g img first clusters)
    (avoids : ∀ c ∈ visited, c ∉ clusters) :
    Lists g img (first :: visited) first entries ↔
      Lists g img [] first entries := by
  have fresh : ∀ other ∈ clusters.tail, other ∉ first :: visited := by
    intro other behind member
    rcases List.mem_cons.mp member with rfl | known
    · exact chain.head_notMem_tail behind
    · exact avoids other known (List.mem_of_mem_tail behind)
  simp only [Lists, readChain_avoiding chain fresh]

/-- All chains of the places that the walk comes to are sound. -/
structure SlotsSound (g : Bpb) (img : List UInt8) : Prop where
  ends :
    ∀ slot, Reaches g img (rootSlot g) slot →
      ∃ clusters, EntryChain g img slot.isDir slot.first clusters
  apart :
    ∀ one other clusters more,
      Reaches g img (rootSlot g) one →
      Reaches g img (rootSlot g) other →
      one.place ≠ other.place →
      EntryChain g img one.isDir one.first clusters →
      EntryChain g img other.isDir other.first more →
      clusters.Disjoint more

/-- The start clusters above a place are those of directories above it. -/
theorem Reaches.above
    {slot : Slot}
    (reaches : Reaches g img (rootSlot g) slot) :
    ∀ c ∈ slot.visited, ∃ upper,
      Reaches g img (rootSlot g) upper ∧ upper.isDir = true ∧
        upper.first = c ∧ upper.place.length < slot.place.length := by
  induction reaches with
  | refl =>
      exact fun c member => absurd member List.not_mem_nil
  | @tail parent slot reaches step inductionHypothesis =>
      obtain ⟨index, below⟩ := step
      obtain ⟨entries, child, _, _, rfl⟩ := below.listed
      intro c member
      rcases List.mem_cons.mp member with rfl | older
      · exact ⟨parent, reaches, below.dir, rfl, by simp⟩
      · obtain ⟨upper, known, isDir, same, shorter⟩ :=
          inductionHypothesis c older
        exact ⟨upper, known, isDir, same, by
          rw [List.length_append]
          omega⟩

/-- With sound chains, no start cluster is on the chain of a place below. -/
theorem SlotsSound.avoids
    (sound : SlotsSound g img)
    {slot : Slot}
    (reaches : Reaches g img (rootSlot g) slot)
    {clusters : List Nat}
    (chain : EntryChain g img slot.isDir slot.first clusters) :
    ∀ c ∈ slot.visited, c ∉ clusters := by
  intro c member
  obtain ⟨upper, known, isDir, rfl, shorter⟩ := reaches.above c member
  obtain ⟨above, aboveChain⟩ := sound.ends upper known
  have begins : upper.first ∈ above := by
    rw [isDir] at aboveChain
    exact aboveChain.dir.head_mem
  refine sound.apart upper slot above clusters known reaches ?_ aboveChain
    chain begins
  intro same
  rw [same] at shorter
  exact Nat.lt_irrefl _ shorter

/-- With sound chains, the walk comes to every entry. -/
theorem SlotsSound.reaches
    (sound : SlotsSound g img)
    {place : List Nat}
    {isDir : Bool}
    {first : Nat}
    (entry : Entry g img place isDir first) :
    ∃ visited,
      Reaches g img (rootSlot g) ⟨place, visited, isDir, first⟩ := by
  induction entry with
  | root =>
      exact ⟨[], .refl⟩
  | @child place first index entries child _ lists listed
      inductionHypothesis =>
      obtain ⟨visited, reaches⟩ := inductionHypothesis
      obtain ⟨clusters, chain⟩ := sound.ends _ reaches
      have avoids := sound.avoids reaches chain
      refine ⟨first :: visited, reaches.tail ⟨index, rfl, ?_, entries, child,
        (lists_iff_of_chain chain.dir avoids).mpr lists, listed, rfl⟩⟩
      exact fun known => avoids first known chain.dir.head_mem

/-- With sound chains, the walk only comes to entries. -/
theorem ChainsSound.entry
    (sound : ChainsSound g img)
    {slot : Slot}
    (reaches : Reaches g img (rootSlot g) slot) :
    Entry g img slot.place slot.isDir slot.first ∧
      ∀ c ∈ slot.visited, ∃ place,
        Entry g img place true c ∧ place.length < slot.place.length := by
  induction reaches with
  | refl =>
      exact ⟨.root, fun c member => absurd member List.not_mem_nil⟩
  | @tail parent slot reaches step inductionHypothesis =>
      obtain ⟨index, below⟩ := step
      obtain ⟨entries, child, lists, listed, rfl⟩ := below.listed
      obtain ⟨entry, above⟩ := inductionHypothesis
      rw [below.dir] at entry
      obtain ⟨clusters, chain⟩ := sound.ends _ _ _ entry
      have avoids : ∀ c ∈ parent.visited, c ∉ clusters := by
        intro c known
        obtain ⟨place, upper, shorter⟩ := above c known
        obtain ⟨others, aboveChain⟩ := sound.ends _ _ _ upper
        refine sound.apart _ _ _ _ _ _ _ _ upper entry ?_ aboveChain chain
          aboveChain.dir.head_mem
        intro same
        rw [same] at shorter
        exact Nat.lt_irrefl _ shorter
      refine ⟨.child entry
        ((lists_iff_of_chain chain.dir avoids).mp lists) listed, ?_⟩
      intro c member
      rcases List.mem_cons.mp member with rfl | older
      · exact ⟨parent.place, entry, by simp⟩
      · obtain ⟨place, upper, shorter⟩ := above c older
        exact ⟨place, upper, by
          rw [List.length_append]
          omega⟩

/-- It does not matter that the walk leaves out what it has on its path. -/
theorem chainsSound_iff_slotsSound :
    ChainsSound g img ↔ SlotsSound g img := by
  constructor
  · intro sound
    exact {
      ends := fun slot reaches =>
        sound.ends _ _ _ (sound.entry reaches).1
      apart := fun one other clusters more reaches reachesToo =>
        sound.apart _ _ _ _ _ _ _ _ (sound.entry reaches).1
          (sound.entry reachesToo).1
    }
  · intro sound
    exact {
      ends := fun place isDir first entry => by
        obtain ⟨visited, reaches⟩ := sound.reaches entry
        exact sound.ends _ reaches
      apart := fun place isDir first clusters other isDir' first' clusters'
          entry entryToo => by
        obtain ⟨visited, reaches⟩ := sound.reaches entry
        obtain ⟨visitedToo, reachesToo⟩ := sound.reaches entryToo
        exact sound.apart _ _ _ _ reaches reachesToo
    }

/-- The inspection looks at something of every place that it comes to. -/
def AllLooked (g : Bpb) (img : List UInt8) : Prop :=
  ∀ slot, Reaches g img (rootSlot g) slot → ∃ marks, Looks g img slot marks

/-- The chains are sound when their fronts and their rests are. -/
theorem slotsSound_iff
    (looked : AllLooked g img) :
    SlotsSound g img ↔ LooksApart g img ∧ RestsSound g img := by
  constructor
  · intro sound
    have front (slot : Slot) (marks : List Nat)
        (reaches : Reaches g img (rootSlot g) slot)
        (looks : Looks g img slot marks) :
        ∃ rest, EntryChain g img slot.isDir slot.first (marks ++ rest) := by
      obtain ⟨clusters, chain⟩ := sound.ends slot reaches
      obtain ⟨rest, rfl⟩ := looks.prefix chain
      exact ⟨rest, chain⟩
    refine ⟨⟨?_, ?_⟩, ⟨front, ?_⟩⟩
    · intro slot marks reaches looks
      obtain ⟨rest, chain⟩ := front slot marks reaches looks
      exact chain.nodup.sublist (List.sublist_append_left ..)
    · intro one marks other more reaches reachesToo different looks looksToo
      obtain ⟨rest, chain⟩ := front one marks reaches looks
      obtain ⟨restToo, chainToo⟩ := front other more reachesToo looksToo
      intro c inMarks inMore
      exact sound.apart one other _ _ reaches reachesToo different chain
        chainToo (List.mem_append_left _ inMarks)
        (List.mem_append_left _ inMore)
    · intro one marks rest other clusters reaches reachesToo different _
        chain chainToo c inRest inOther
      exact sound.apart one other _ _ reaches reachesToo different chain
        chainToo (List.mem_append_right _ inRest) inOther
  · rintro ⟨looks, rests⟩
    refine ⟨?_, ?_⟩
    · intro slot reaches
      obtain ⟨marks, looksAt⟩ := looked slot reaches
      obtain ⟨rest, chain⟩ := rests.ends slot marks reaches looksAt
      exact ⟨_, chain⟩
    · intro one other clusters more reaches reachesToo different chain
        chainToo c inOne inOther
      obtain ⟨marks, looksOne⟩ := looked one reaches
      obtain ⟨marksToo, looksOther⟩ := looked other reachesToo
      obtain ⟨rest, whole⟩ := rests.ends one marks reaches looksOne
      obtain ⟨restToo, wholeToo⟩ :=
        rests.ends other marksToo reachesToo looksOther
      obtain rfl := whole.unique chain
      obtain rfl := wholeToo.unique chainToo
      rcases List.mem_append.mp inOne with inMarks | inRest
      · rcases List.mem_append.mp inOther with inMarksToo | inRestToo
        · exact looks.apart one marks other marksToo reaches reachesToo
            different looksOne looksOther inMarks inMarksToo
        · exact rests.apart other marksToo restToo one _ reachesToo reaches
            different.symm looksOther wholeToo whole inRestToo inOne
      · exact rests.apart one marks rest other _ reaches reachesToo different
          looksOne whole wholeToo inRest inOther

/-- The marks of a finished inspection are different when no two looks meet. -/
theorem Visits.nodup_iff
    {visits : List (Slot × List Nat)}
    (visited : Visits g img [rootSlot g] visits) :
    (visits.flatMap Prod.snd).Nodup ↔ LooksApart g img := by
  have slots (slot : Slot) :
      slot ∈ visits.map Prod.fst ↔ Reaches g img (rootSlot g) slot := by
    simpa using visited.slots slot
  have visitOf {slot : Slot} {marks : List Nat}
      (reaches : Reaches g img (rootSlot g) slot)
      (looks : Looks g img slot marks) :
      (slot, marks) ∈ visits := by
    obtain ⟨⟨_, others⟩, member, rfl⟩ :=
      List.mem_map.mp ((slots slot).mpr reaches)
    obtain rfl := looks.unique (visited.looks _ member)
    exact member
  rw [List.nodup_flatMap]
  constructor
  · rintro ⟨own, pairs⟩
    refine ⟨fun slot marks reaches looks => own _ (visitOf reaches looks), ?_⟩
    intro one marks other more reaches reachesToo different looks looksToo
    have symmetric :
        Std.Symm (Function.onFun List.Disjoint
          (Prod.snd : Slot × List Nat → List Nat)) :=
      ⟨fun _ _ apart => apart.symm⟩
    refine pairs.forall (visitOf reaches looks) (visitOf reachesToo looksToo)
      fun same => different ?_
    exact congrArg (fun visit => visit.1.place) same
  · intro looks
    have reached {visit : Slot × List Nat} (member : visit ∈ visits) :
        Reaches g img (rootSlot g) visit.1 :=
      (slots visit.1).mp (List.mem_map_of_mem member)
    refine ⟨fun visit member => looks.distinct _ _ (reached member)
      (visited.looks visit member), ?_⟩
    refine visited.places.of_map.pairwise_of_forall_ne ?_
    intro one isOne other isOther different
    refine looks.apart _ _ _ _ (reached isOne) (reached isOther) ?_
      (visited.looks one isOne) (visited.looks other isOther)
    exact fun same => different
      (List.inj_on_of_nodup_map visited.places isOne isOther same)

/--
A finished inspection reports no conflict exactly when the chains are sound,
unless what it looks at is sound and the rests of the chains are not.
-/
theorem conflicts_exact_iff
    {fuel : Nat}
    {img : List UInt8}
    {inspection : Inspection}
    (finished : inspectImage fuel img = .ok inspection) :
    (inspection.report.conflicts = [] ↔
        ChainsSound inspection.bpb img) ↔
      ¬ LooksApart inspection.bpb img ∨ RestsSound inspection.bpb img := by
  obtain ⟨visits, visited, clear⟩ := inspectImage_visited finished
  have looked : AllLooked inspection.bpb img := by
    intro slot reaches
    obtain ⟨⟨_, marks⟩, member, rfl⟩ :=
      List.mem_map.mp ((visited.slots slot).mpr
        ⟨_, List.mem_singleton_self _, reaches⟩)
    exact ⟨marks, visited.looks _ member⟩
  rw [clear, visited.nodup_iff, chainsSound_iff_slotsSound,
    slotsSound_iff looked]
  by_cases looks : LooksApart inspection.bpb img
  · simp [looks]
  · simp [looks]

/-- A root directory with a subdirectory that is the root directory again. -/
def sharedImg : List UInt8 :=
  -- The boot sector: 512 bytes a sector, clusters, reserved part and FAT of
  -- one sector each, the root directory at cluster 2.
  List.replicate 11 0 ++ [0x00, 0x02, 1, 1, 0, 1] ++ List.replicate 5 0 ++
    [1, 0] ++ List.replicate 20 0 ++ [2, 0, 0, 0] ++ List.replicate 464 0 ++
  -- The FAT.
  List.replicate 8 0 ++ [0xFF, 0xFF, 0xFF, 0x0F] ++ List.replicate 500 0 ++
  -- The entry of the subdirectory.
  0x41 :: List.replicate 10 0x20 ++ [0x10] ++ List.replicate 14 0 ++
    [2, 0, 0, 0, 0, 0] ++ List.replicate 480 0

/-- The entry of the subdirectory, as the inspection reads it. -/
def sharedEntry : DirEntry :=
  ⟨[0x41], 0x41 :: List.replicate 10 0x20, true, rootClus, 0⟩

/-- What its inspection gives. -/
def sharedInspection : Inspection where
  bpb := ⟨1, 1, 1, 0, 1, rootClus, 0, 1024⟩
  report := {
    lines := [.root 1, .entry 1 true [0x41] [0x41] 0 2]
    occup := [(2, .dir [])]
    conflicts := []
  }

theorem inspectImage_sharedImg :
    inspectImage 2 sharedImg = .ok sharedInspection := by
  decide +kernel

theorem conflicts_exact_iff_sharedImg :
    (sharedInspection.report.conflicts = [] ↔
        ChainsSound sharedInspection.bpb sharedImg) ↔
      ¬ LooksApart sharedInspection.bpb sharedImg ∨
        RestsSound sharedInspection.bpb sharedImg :=
  conflicts_exact_iff inspectImage_sharedImg

/-- Two entries name one cluster, and no conflict is reported. -/
theorem conflicts_sharedImg :
    ∃ inspection,
      inspectImage 2 sharedImg = .ok inspection ∧
        inspection.report.conflicts = [] ∧
        ¬ ChainsSound inspection.bpb sharedImg := by
  refine ⟨sharedInspection, inspectImage_sharedImg, rfl, fun sound => ?_⟩
  have lists :
      Lists sharedInspection.bpb sharedImg [] rootClus
        [sharedEntry] :=
    ⟨1, [rootClus], by decide +kernel⟩
  have listed : (childrenOf [sharedEntry])[0]? = some sharedEntry := by
    decide
  have atRoot : Entry sharedInspection.bpb sharedImg [] true rootClus :=
    .root
  have below : Entry sharedInspection.bpb sharedImg [0] true rootClus :=
    .child atRoot lists listed
  have linked :
      sharedInspection.bpb.nextClus sharedImg rootClus = .ok 0x0FFFFFFF := by
    decide +kernel
  have chain :
      EntryChain sharedInspection.bpb sharedImg true rootClus [rootClus] := by
    rw [EntryChain, if_pos (.inl rfl)]
    refine .last fun next again => ?_
    obtain rfl := Except.ok.inj (linked.symm.trans again)
    decide
  exact sound.apart _ _ _ _ _ _ _ _ atRoot below (by decide) chain chain
    (List.mem_singleton_self _) (List.mem_singleton_self _)

end Soundness

end UefiMount.MkFatImg
