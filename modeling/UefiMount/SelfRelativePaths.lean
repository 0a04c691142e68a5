import Mathlib.Data.List.Induction
import Mathlib.Data.List.TakeDrop
import UefiMount.DriverImages

namespace UefiMount

/-!
# Paths beside mount.efi

`MountGetSelfDir` and `MountJoinSelfPath` under the two functions that use
them.  The first drops a directory that does not fit its buffer and reports
success all the same, and the second cuts off what does not fit; the two are
right together exactly when the complete path fits.
-/

section Model

/-- `MountGetSelfDir` followed by `MountJoinSelfPath`. -/
def mountSelfPath
    (outcomes : PathOutcomes)
    (relative : Text) :
    Except EfiStatus Text :=
  (mountGetSelfDir outcomes).map (mountJoinSelfPath · relative)

/-- How the firmware calls of `MountOpenDriverFile` end. -/
structure OpenDriverOutcomes where
  path : PathOutcomes
  /-- `HandleProtocol` for the file system of the volume. -/
  simpleFileSystem : EfiStatus
  openVolume : EfiStatus
  /-- `Open` on the root directory. -/
  openFile : EfiStatus

/-- The status of `MountOpenDriverFile` and the name it opens, if it does. -/
structure DriverOpened where
  status : EfiStatus
  name : Option Text
  deriving DecidableEq

/-- `MountOpenDriverFile`; `fileHandle` tells whether that pointer is given. -/
def mountOpenDriverFile
    (outcomes : OpenDriverOutcomes)
    (driverFile : Option Text)
    (fileHandle : Bool) :
    DriverOpened :=
  match driverFile, fileHandle with
  | some driverFile, true =>
      match mountGetSelfDir outcomes.path with
      | .error status =>
          ⟨status, none⟩
      | .ok selfDir =>
          if outcomes.simpleFileSystem.isError then
            ⟨outcomes.simpleFileSystem, none⟩
          else
            let fullPath := mountJoinSelfPath selfDir driverFile
            if outcomes.openVolume.isError then
              ⟨outcomes.openVolume, none⟩
            else
              ⟨outcomes.openFile, some fullPath⟩
  | _, _ =>
      ⟨.invalidParameter, none⟩

/-- A file that is opened has the joined name. -/
theorem mountOpenDriverFile_name
    {outcomes : OpenDriverOutcomes}
    {driverFile name : Text}
    (opened :
      (mountOpenDriverFile outcomes (some driverFile) true).name =
        some name) :
    mountSelfPath outcomes.path driverFile = .ok name := by
  simp only [mountOpenDriverFile] at opened
  rw [mountSelfPath]
  split at opened
  · cases opened
  · rename_i found
    split at opened
    · cases opened
    · split at opened
      · cases opened
      · rw [found]
        exact congrArg Except.ok (Option.some.inj opened)

/-- So has a device path that is built. -/
theorem mountBuildDriverDevicePath_path
    {outcomes : PathOutcomes}
    {driverFile path : Text}
    (built : mountBuildDriverDevicePath outcomes driverFile = .ok path) :
    mountSelfPath outcomes driverFile = .ok path := by
  simp only [mountBuildDriverDevicePath] at built
  rw [mountSelfPath]
  split at built
  · cases built
  · rename_i found
    split at built
    · rw [found]
      exact built
    · cases built

end Model

section Directory

/-- The text of a FILEPATH node. -/
def DevicePathNode.pathName? : DevicePathNode → Option Text
  | .filePath pathName =>
      some pathName
  | _ =>
      none

/-- The loop over the nodes keeps the last FILEPATH text. -/
theorem lastFilePathNode_eq_getLast? (path : DevicePath) :
    lastFilePathNode path =
      (path.filterMap DevicePathNode.pathName?).getLast? := by
  rw [lastFilePathNode]
  induction path using List.reverseRecOn with
  | nil =>
      rfl
  | append_singleton nodes last inductionHypothesis =>
      rw [List.foldl_append, inductionHypothesis, List.filterMap_append]
      cases last with
      | filePath pathName =>
          simp [DevicePathNode.pathName?]
      | _ =>
          simp [DevicePathNode.pathName?]

/-- The directory is what stands in front of the last backslash. -/
theorem beforeLastSlash_append
    (directory : Text)
    {fileName : Text}
    (plain : backslash ∉ fileName) :
    beforeLastSlash (directory ++ backslash :: fileName) =
      some directory := by
  have reversed :
      (directory ++ backslash :: fileName).reverse =
        fileName.reverse ++ backslash :: directory.reverse := by
    simp
  have dropped :
      (fileName.reverse ++ backslash :: directory.reverse).dropWhile
          (· ≠ backslash) =
        backslash :: directory.reverse := by
    rw [List.dropWhile_append_of_pos, List.dropWhile_cons_of_neg]
    · simp
    · intro char member
      have inName := List.mem_reverse.mp member
      exact decide_eq_true (ne_of_mem_of_not_mem inName plain)
  rw [beforeLastSlash, reversed, dropped]
  exact congrArg some (List.reverse_reverse directory)

end Directory

section Resolution

/-- The file of the given name in the directory of mount.efi. -/
def besideSelf (directory relative : Text) : Text :=
  if directory = [] then
    relative
  else
    directory ++ backslash :: relative

/--
The image of mount.efi has one FILEPATH node, and the directory is what
stands in front of its last backslash.
-/
structure PathOutcomes.LoadedFrom
    (outcomes : PathOutcomes)
    (directory : Text) : Prop where
  node :
    ∃ path fileName,
      outcomes.filePath = some path ∧
        path.filterMap DevicePathNode.pathName? =
          [directory ++ backslash :: fileName] ∧
        backslash ∉ fileName

/-- What is joined, opened or built is the file beside mount.efi. -/
structure ResolvesBeside
    (outcomes : OpenDriverOutcomes)
    (directory relative : Text) : Prop where
  joined :
    ∀ path,
      mountSelfPath outcomes.path relative = .ok path →
      path = besideSelf directory relative
  opened :
    ∀ name,
      (mountOpenDriverFile outcomes (some relative) true).name =
        some name →
      name = besideSelf directory relative
  built :
    ∀ path,
      mountBuildDriverDevicePath outcomes.path relative = .ok path →
      path = besideSelf directory relative

/-- The directory that is found, or the empty one where it does not fit. -/
theorem mountGetSelfDir_loadedFrom
    {outcomes : PathOutcomes}
    {directory : Text}
    (loadedFrom : outcomes.LoadedFrom directory)
    (loadedImage : outcomes.loadedImage.isError = false) :
    mountGetSelfDir outcomes =
      .ok (if directory.length < mountMaxPath then directory else []) := by
  obtain ⟨path, fileName, filePath, nodes, plain⟩ := loadedFrom.node
  have last :
      lastFilePathNode path = some (directory ++ backslash :: fileName) := by
    rw [lastFilePathNode_eq_getLast?, nodes]
    rfl
  simp only [mountGetSelfDir, loadedImage, filePath, Option.bind_some, last,
    beforeLastSlash_append directory plain, Bool.false_eq_true, ↓reduceIte]

/-- A join is right exactly when its complete text fits. -/
theorem mountJoinSelfPath_eq_iff (directory relative : Text) :
    mountJoinSelfPath
          (if directory.length < mountMaxPath then directory else [])
          relative = besideSelf directory relative ↔
      (besideSelf directory relative).length < mountMaxPath := by
  have cutOff (text : Text) :
      text.take (mountMaxPath - 1) = text ↔ text.length < mountMaxPath := by
    rw [List.take_eq_self_iff, mountMaxPath]
    omega
  by_cases atRoot : directory = []
  · subst atRoot
    simpa [mountJoinSelfPath, besideSelf, mountMaxPath] using
      cutOff relative
  · by_cases fits : directory.length < mountMaxPath
    · rw [if_pos fits, mountJoinSelfPath, if_neg atRoot, besideSelf,
        if_neg atRoot]
      exact cutOff _
    · -- The directory is dropped, and what is left is shorter.
      rw [if_neg fits, mountJoinSelfPath, if_pos rfl, besideSelf,
        if_neg atRoot]
      have long :
          ¬ (directory ++ backslash :: relative).length < mountMaxPath := by
        rw [List.length_append]
        omega
      refine iff_of_false ?_ long
      intro same
      have lengths := congrArg List.length same
      rw [List.length_take] at lengths
      simp only [mountMaxPath] at lengths long
      omega

/--
Files beside mount.efi are resolved exactly when the complete path fits the
buffer, or when the image of mount.efi itself is not found.
-/
theorem resolvesBeside_iff
    {outcomes : OpenDriverOutcomes}
    {directory : Text}
    (loadedFrom : outcomes.path.LoadedFrom directory)
    (relative : Text) :
    ResolvesBeside outcomes directory relative ↔
      outcomes.path.loadedImage.isError = true ∨
        (besideSelf directory relative).length < mountMaxPath := by
  cases loadedImage : outcomes.path.loadedImage.isError with
  | true =>
      refine iff_of_true ?_ (.inl rfl)
      have refused :
          mountSelfPath outcomes.path relative =
            .error outcomes.path.loadedImage := by
        simp only [mountSelfPath, mountGetSelfDir, loadedImage, ↓reduceIte]
        rfl
      have never (path : Text) :
          mountSelfPath outcomes.path relative ≠ .ok path := by
        rw [refused]
        rintro ⟨⟩
      exact {
        joined := fun path joined => absurd joined (never path)
        opened := fun name opened =>
          absurd (mountOpenDriverFile_name opened) (never name)
        built := fun path built =>
          absurd (mountBuildDriverDevicePath_path built) (never path)
      }
  | false =>
      have joins :
          mountSelfPath outcomes.path relative =
            .ok (mountJoinSelfPath
              (if directory.length < mountMaxPath then directory else [])
              relative) := by
        rw [mountSelfPath,
          mountGetSelfDir_loadedFrom loadedFrom loadedImage]
        rfl
      rw [← mountJoinSelfPath_eq_iff]
      constructor
      · exact fun resolves => .inr (resolves.joined _ joins)
      · intro fits
        have right := fits.resolve_left Bool.false_ne_true
        rw [right] at joins
        have only
            {path : Text}
            (joined : mountSelfPath outcomes.path relative = .ok path) :
            path = besideSelf directory relative :=
          (Except.ok.inj (joins.symm.trans joined)).symm
        exact {
          joined := fun _ => only
          opened := fun _ opened => only (mountOpenDriverFile_name opened)
          built := fun _ built =>
            only (mountBuildDriverDevicePath_path built)
        }

/-- mount.efi in the given directory, with calls that all work. -/
def runningFrom (directory : Text) : OpenDriverOutcomes where
  path := {
    loadedImage := .success
    filePath := some [.filePath (directory ++ wide "\\mount.efi")]
    fileDevicePath := true
  }
  simpleFileSystem := .success
  openVolume := .success
  openFile := .success

theorem runningFrom_loadedFrom (directory : Text) :
    (runningFrom directory).path.LoadedFrom directory where
  node := ⟨_, wide "mount.efi", rfl, rfl, by decide⟩

theorem resolvesBeside_iff_tools :
    ResolvesBeside (runningFrom (wide "\\tools")) (wide "\\tools")
      loopDriverFile :=
  (resolvesBeside_iff (runningFrom_loadedFrom _) loopDriverFile).mpr
    (.inr (by decide))

/-- A directory of 256 characters: the driver is taken from the root. -/
theorem resolvesBeside_longDirectory :
    let directory := backslash :: List.replicate 255 0x61
    mountBuildDriverDevicePath (runningFrom directory).path loopDriverFile =
        .ok loopDriverFile ∧
      ¬ ResolvesBeside (runningFrom directory) directory
        loopDriverFile := by
  intro directory
  have long : directory.length = 256 := by
    rw [List.length_cons, List.length_replicate]
  have built :
      mountBuildDriverDevicePath (runningFrom directory).path
        loopDriverFile = .ok loopDriverFile := by
    simp only [mountBuildDriverDevicePath,
      mountGetSelfDir_loadedFrom (runningFrom_loadedFrom directory) rfl,
      long, mountMaxPath, Nat.lt_irrefl]
    decide
  refine ⟨built, fun resolves => ?_⟩
  have lengths := congrArg List.length (resolves.built _ built)
  rw [besideSelf, if_neg (List.cons_ne_nil _ _), List.length_append, long,
    List.length_cons] at lengths
  omega

end Resolution

end UefiMount
