import UefiMount.ShellMapRefresh

namespace UefiMount

/-!
# The mapping table over runs

Each launch that mounts something refreshes the Shell's mapping table, and in
between the Shell and its user add names of their own.  Over every such run a
volume is named once: the name stays, it leads to that volume and to no other,
and no later refresh names the volume again.
-/

/-- One call of `MapRefreshShell`, with what the firmware answers. -/
structure RefreshCall where
  locateShell : EfiStatus
  locatedFs : EfiStatus × List Handle
  devicePathFromHandle : Handle → Option DevicePath

namespace RefreshCall

/-- The handles of the call, when the Shell and the handles are found. -/
def handles (call : RefreshCall) : List Handle :=
  if call.locateShell.isError ∨
      (mapSnapshotFsHandles call.locatedFs).1.isError then
    []
  else
    (mapSnapshotFsHandles call.locatedFs).2

/-- The device paths that the handle loop goes over. -/
def paths (call : RefreshCall) : List (Option DevicePath) :=
  call.handles.map call.devicePathFromHandle

/-- The call ends with this status and leaves this Shell. -/
def Returns
    {Shell : Type}
    (protocol : ShellProtocol Shell)
    (call : RefreshCall)
    (before : Shell)
    (answer : EfiStatus × Shell) :
    Prop :=
  ∃ bound, ∀ fuel, bound ≤ fuel →
    mapRefreshShell protocol call.locateShell call.locatedFs
        call.devicePathFromHandle fuel before =
      some answer

end RefreshCall

/-- What happens to the mapping table. -/
inductive MapChange where
  | refresh (call : RefreshCall)
  /-- The Shell or its user adds a name. -/
  | other (entry : MapEntry)

/-- One change; a name that is added must be free. -/
inductive MapStep
    {Shell : Type}
    (protocol : ShellProtocol Shell)
    (collation : Collation)
    (table : Shell → List MapEntry) :
    Shell → MapChange → Shell → Prop where
  | refresh
      {before after : Shell}
      {call : RefreshCall}
      {status : EfiStatus}
      (returns : call.Returns protocol before (status, after)) :
      MapStep protocol collation table before (.refresh call) after
  | other
      {before after : Shell}
      {entry : MapEntry}
      (free : ¬ collation.Taken (table before) entry.name)
      (plain : semicolon ∉ entry.name)
      (added : (table after).Perm (entry :: table before)) :
      MapStep protocol collation table before (.other entry) after

/-- The changes of a run, in order. -/
inductive MapRun
    {Shell : Type}
    (protocol : ShellProtocol Shell)
    (collation : Collation)
    (table : Shell → List MapEntry)
    (initial : Shell) :
    List MapChange → Shell → Prop where
  | start :
      MapRun protocol collation table initial [] initial
  | extend
      {history : List MapChange}
      {middle final : Shell}
      {change : MapChange}
      (earlier : MapRun protocol collation table initial history middle)
      (step : MapStep protocol collation table middle change final) :
      MapRun protocol collation table initial (history ++ [change]) final

/-- What a run has made of the table; `added` are the names it has assigned. -/
structure MapHistory
    (collation : Collation)
    (initial : List MapEntry)
    (history : List MapChange)
    (added : List (Nat × DevicePath))
    (final : List MapEntry) : Prop where
  separable :
    Separable final
  kept :
    ∀ entry ∈ initial, entry ∈ final
  origin :
    ∀ entry ∈ final,
      entry ∈ initial ∨ .other entry ∈ history ∨
        ∃ assignment ∈ added, entry = assigned assignment
  onePerPath :
    (added.map Prod.snd).Nodup
  onlyUnmapped :
    ∀ assignment ∈ added, ¬ HasFsAlias initial assignment.2
  present :
    ∀ assignment ∈ added, assigned assignment ∈ final
  /-- Whatever answers to an assigned name is the volume it was given to. -/
  bound :
    ∀ assignment ∈ added, ∀ entry ∈ final,
      collation.key entry.name = collation.key (fsName assignment.1) →
      entry.devicePath = assignment.2
  covered :
    ∀ call, .refresh call ∈ history →
      ∀ path, some path ∈ call.paths → HasFsAlias final path

section Calls

variable {Shell : Type}
  {protocol : ShellProtocol Shell}
  {collation : Collation}
  {table : Shell → List MapEntry}

/-- A call is its handle loop, over no handles when something is not found. -/
theorem RefreshCall.mapRefreshShell_eq
    (protocol : ShellProtocol Shell)
    (call : RefreshCall) :
    ∃ status, ∀ fuel before,
      mapRefreshShell protocol call.locateShell call.locatedFs
          call.devicePathFromHandle fuel before =
        (mapRefreshHandles protocol fuel call.paths before).map
          fun after => (status, after) := by
  by_cases noShell : call.locateShell.isError = true
  · refine ⟨call.locateShell, fun fuel before => ?_⟩
    simp [mapRefreshShell, paths, handles, noShell, mapRefreshHandles]
  · by_cases noHandles :
        (mapSnapshotFsHandles call.locatedFs).1.isError = true
    · refine ⟨(mapSnapshotFsHandles call.locatedFs).1,
        fun fuel before => ?_⟩
      simp [mapRefreshShell, paths, handles, noShell, noHandles,
        mapRefreshHandles]
    · refine ⟨.success, fun fuel before => ?_⟩
      simp [mapRefreshShell, paths, handles, noShell, noHandles]

/-- Every call ends. -/
theorem RefreshCall.returns
    (faithful : protocol.Faithful collation table)
    {before : Shell}
    (separable : Separable (table before))
    (call : RefreshCall) :
    ∃ answer, call.Returns protocol before answer := by
  obtain ⟨status, loop⟩ := call.mapRefreshShell_eq protocol
  obtain ⟨after, _, run, _⟩ :=
    mapRefreshHandles_assigns faithful separable call.paths
  refine ⟨(status, after), (table before).length + call.paths.length,
    fun fuel enough => ?_⟩
  rw [loop, run fuel enough]
  rfl

/-- A call that ends has assigned names as a refresh should. -/
theorem RefreshCall.Returns.refreshed
    (faithful : protocol.Faithful collation table)
    {before after : Shell}
    (separable : Separable (table before))
    {call : RefreshCall}
    {status : EfiStatus}
    (returns : call.Returns protocol before (status, after)) :
    Separable (table after) ∧
      ∃ more,
        Refreshed collation (table before) call.paths more
          (table after) := by
  obtain ⟨bound, ended⟩ := returns
  obtain ⟨status', loop⟩ := call.mapRefreshShell_eq protocol
  obtain ⟨after', more, run, refreshed, separable'⟩ :=
    mapRefreshHandles_assigns faithful separable call.paths
  have answer := ended _ (Nat.le_max_left bound
    ((table before).length + call.paths.length))
  rw [loop, run _ (Nat.le_max_right ..)] at answer
  obtain ⟨_, rfl⟩ := Prod.mk.inj (Option.some.inj answer)
  exact ⟨separable', more, refreshed⟩

end Calls

/-- A refresh gives no name twice. -/
theorem Refreshed.same
    {collation : Collation}
    {before after : List MapEntry}
    {paths : List (Option DevicePath)}
    {more : List (Nat × DevicePath)}
    (refreshed : Refreshed collation before paths more after)
    {first second : Nat × DevicePath}
    (inFirst : first ∈ more)
    (inSecond : second ∈ more)
    (sameName :
      collation.key (fsName first.1) = collation.key (fsName second.1)) :
    first = second := by
  have distinct :
      (more.map fun assignment =>
        collation.key (fsName assignment.1)).Nodup :=
    List.pairwise_map.mpr refreshed.distinct
  exact List.inj_on_of_nodup_map distinct inFirst inSecond sameName

namespace MapHistory

variable
  {collation : Collation}
  {initial middle final : List MapEntry}
  {history : List MapChange}
  {added : List (Nat × DevicePath)}

theorem start
    (collation : Collation)
    (separable : Separable initial) :
    MapHistory collation initial [] [] initial where
  separable := separable
  kept _ member := member
  origin _ member := .inl member
  onePerPath := List.nodup_nil
  onlyUnmapped := by simp
  present := by simp
  bound := by simp
  covered := by simp

/-- A free name that somebody else adds changes nothing for the volumes. -/
theorem other
    (earlier : MapHistory collation initial history added middle)
    {entry : MapEntry}
    (free : ¬ collation.Taken middle entry.name)
    (plain : semicolon ∉ entry.name)
    (grown : final.Perm (entry :: middle)) :
    MapHistory collation initial (history ++ [.other entry]) added final where
  separable := by
    intro found member
    rcases List.mem_cons.mp (grown.mem_iff.mp member) with rfl | old
    · exact plain
    · exact earlier.separable found old
  kept found member :=
    grown.mem_iff.mpr (List.mem_cons_of_mem _ (earlier.kept found member))
  origin := by
    intro found member
    rcases List.mem_cons.mp (grown.mem_iff.mp member) with rfl | old
    · exact .inr (.inl (by simp))
    · rcases earlier.origin found old with first | others | own
      · exact .inl first
      · exact .inr (.inl (List.mem_append_left _ others))
      · exact .inr (.inr own)
  onePerPath := earlier.onePerPath
  onlyUnmapped := earlier.onlyUnmapped
  present assignment member :=
    grown.mem_iff.mpr
      (List.mem_cons_of_mem _ (earlier.present assignment member))
  bound := by
    intro assignment member found inFinal sameName
    rcases List.mem_cons.mp (grown.mem_iff.mp inFinal) with rfl | old
    · exact (free ⟨_, earlier.present assignment member,
        sameName.symm⟩).elim
    · exact earlier.bound assignment member found old sameName
  covered := by
    intro call member path listed
    have known : .refresh call ∈ history := by
      simpa using member
    obtain ⟨found, inMiddle, shape⟩ := earlier.covered call known path listed
    exact ⟨found, grown.mem_iff.mpr (List.mem_cons_of_mem _ inMiddle), shape⟩

/-- Names that a refresh gives answer to nothing that was there before. -/
theorem bound_refreshed
    (earlier : MapHistory collation initial history added middle)
    {paths : List (Option DevicePath)}
    {more : List (Nat × DevicePath)}
    (refreshed : Refreshed collation middle paths more final)
    {assignment : Nat × DevicePath}
    (member : assignment ∈ added ++ more)
    {entry : MapEntry}
    (inFinal : entry ∈ final)
    (sameName :
      collation.key entry.name = collation.key (fsName assignment.1)) :
    entry.devicePath = assignment.2 := by
  rcases List.mem_append.mp (refreshed.table.mem_iff.mp inFinal) with
    isNew | isOld
  · obtain ⟨another, inMore, rfl⟩ := List.mem_map.mp isNew
    rcases List.mem_append.mp member with early | late
    · exact (refreshed.absent inMore ⟨_,
        earlier.present assignment early, sameName.symm⟩).elim
    · rw [refreshed.same inMore late sameName]
      rfl
  · rcases List.mem_append.mp member with early | late
    · exact earlier.bound assignment early entry isOld sameName
    · exact (refreshed.absent late ⟨entry, isOld, sameName⟩).elim

/-- A refresh adds names of its own, for volumes that had none. -/
theorem refresh
    (earlier : MapHistory collation initial history added middle)
    {call : RefreshCall}
    {more : List (Nat × DevicePath)}
    (separable : Separable final)
    (refreshed : Refreshed collation middle call.paths more final) :
    MapHistory collation initial (history ++ [.refresh call])
      (added ++ more) final := by
  have old {entry : MapEntry} (member : entry ∈ middle) : entry ∈ final :=
    refreshed.table.mem_iff.mpr (List.mem_append_right _ member)
  have new {assignment : Nat × DevicePath} (member : assignment ∈ more) :
      assigned assignment ∈ final :=
    refreshed.table.mem_iff.mpr
      (List.mem_append_left _ (List.mem_map_of_mem member))
  have mapped {assignment : Nat × DevicePath} (member : assignment ∈ added) :
      HasFsAlias middle assignment.2 :=
    ⟨_, earlier.present assignment member, rfl, isFsAlias_fsName _⟩
  have aliased {path : DevicePath} (found : HasFsAlias initial path) :
      HasFsAlias middle path := by
    obtain ⟨entry, member, shape⟩ := found
    exact ⟨entry, earlier.kept entry member, shape⟩
  exact {
    separable := separable
    kept := fun entry member => old (earlier.kept entry member)
    origin := by
      intro entry member
      rcases List.mem_append.mp (refreshed.table.mem_iff.mp member) with
        isNew | isOld
      · obtain ⟨assignment, inMore, rfl⟩ := List.mem_map.mp isNew
        exact .inr (.inr ⟨assignment, List.mem_append_right _ inMore, rfl⟩)
      · rcases earlier.origin entry isOld with
          first | others | ⟨assignment, inAdded, same⟩
        · exact .inl first
        · exact .inr (.inl (List.mem_append_left _ others))
        · exact .inr (.inr
            ⟨assignment, List.mem_append_left _ inAdded, same⟩)
    onePerPath := by
      rw [List.map_append, List.nodup_append]
      refine ⟨earlier.onePerPath, refreshed.onePerPath, ?_⟩
      rintro _ early _ late rfl
      obtain ⟨assignment, inAdded, rfl⟩ := List.mem_map.mp early
      obtain ⟨another, inMore, same⟩ := List.mem_map.mp late
      refine (refreshed.onlyUnmapped inMore).2 ?_
      rw [same]
      exact mapped inAdded
    onlyUnmapped := by
      intro assignment member found
      rcases List.mem_append.mp member with early | late
      · exact earlier.onlyUnmapped assignment early found
      · exact (refreshed.onlyUnmapped late).2 (aliased found)
    present := by
      intro assignment member
      rcases List.mem_append.mp member with early | late
      · exact old (earlier.present assignment early)
      · exact new late
    bound := fun assignment member entry =>
      earlier.bound_refreshed refreshed member
    covered := by
      intro called member path listed
      rcases List.mem_append.mp member with early | late
      · obtain ⟨entry, inMiddle, shape⟩ :=
          earlier.covered called early path listed
        exact ⟨entry, old inMiddle, shape⟩
      · obtain ⟨⟩ := List.mem_singleton.mp late
        exact refreshed.covered listed
  }

end MapHistory

section Runs

variable {Shell : Type}
  {protocol : ShellProtocol Shell}
  {collation : Collation}
  {table : Shell → List MapEntry}
  {initial final : Shell}
  {history : List MapChange}

/-- Every run has such a history. -/
theorem MapRun.made
    (faithful : protocol.Faithful collation table)
    (separable : Separable (table initial))
    (run : MapRun protocol collation table initial history final) :
    ∃ added,
      MapHistory collation (table initial) history added (table final) := by
  induction run with
  | start =>
      exact ⟨[], .start collation separable⟩
  | extend _ step inductionHypothesis =>
      obtain ⟨added, earlier⟩ := inductionHypothesis
      cases step with
      | refresh returns =>
          obtain ⟨separable', more, refreshed⟩ :=
            returns.refreshed faithful earlier.separable
          exact ⟨added ++ more, earlier.refresh separable' refreshed⟩
      | other free plain grown =>
          exact ⟨added, earlier.other free plain grown⟩

end Runs

end UefiMount
