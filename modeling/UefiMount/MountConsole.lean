import UefiMount.EfiTypes

namespace UefiMount

/-!
# Console lines and exit codes

Every `Print` call of the two mount flows, with the format string of the
source and the values that fill it in.  A line reports an error when its
format string says so.
-/

/-- `STATUS_INVALID_PARAMETER`. -/
def statusInvalidParameter : EfiStatus := ⟨1⟩

/-- `STATUS_DRIVER_MISSING`. -/
def statusDriverMissing : EfiStatus := ⟨2⟩

/-- `STATUS_SECURE_BOOT`. -/
def statusSecureBoot : EfiStatus := ⟨3⟩

/-- `STATUS_ISO_ERROR`. -/
def statusIsoError : EfiStatus := ⟨4⟩

@[simp] theorem isError_statusDriverMissing :
    statusDriverMissing.isError = false := by decide

@[simp] theorem isError_statusSecureBoot :
    statusSecureBoot.isError = false := by decide

/-- The small exit codes are no EFI errors. -/
theorem ne_driverStatus_of_isError
    {status : EfiStatus}
    (failed : status.isError = true) :
    status ≠ statusDriverMissing ∧ status ≠ statusSecureBoot := by
  constructor <;>
    (rintro rfl
     simp at failed)

/-- `MOUNT_FORMAT_ENTRY`. -/
structure MountFormatEntry where
  name : Text
  driverFile : Text
  notes : Text
  tested : Bool
  deriving DecidableEq

/-- The console output of the mount flows. -/
inductive PrintLine where
  | version
  | helpTitle
  | helpText (format : String)
  | helpFormat (entry : MountFormatEntry)
  | unknownFormat (name : Text)
  | selfDirectoryUnknown (status : EfiStatus)
  | driverNotFound (driverFile : Text)
  | driverBlocked
  | loadImageFailed (driverFile : Text) (status : EfiStatus)
  | startImageFailed (status : EfiStatus)
  | driverLoaded (driverFile : Text)
  | driverAlreadyLoaded (name : Text)
  | loopDriverBlocked (driverFile : Text)
  | loopDriverUnloadable (driverFile : Text) (status : EfiStatus)
  | loopDriverNotStarted (driverFile : Text) (status : EfiStatus)
  | noLoopFactory (driverFile : Text)
  | cannotOpen (path : Text) (status : EfiStatus)
  | cannotStat (path : Text)
  | fileTooSmall
  | tailIgnored
  | noFileDevicePath (path : Text)
  | loopCreateFailed (status : EfiStatus)
  | loopCreated (path : Text)
  | isoDriverMissing
  | loopKept
  | newVolume (name label : Text)
  | mapRefreshed (count : Nat)
  deriving DecidableEq

namespace PrintLine

/-- The format string that the source passes to `Print`. -/
def format : PrintLine → String
  | version => "APP_VERSION=%s\n"
  | helpTitle => "MOUNT - UEFI Shell mount tool  v%s\n"
  | helpText text => text
  | helpFormat _ => "  %-6s %-24s %s%s\n"
  | unknownFormat _ => "MOUNT: error - unknown option/format '%s'\n"
  | selfDirectoryUnknown _ =>
      "MOUNT: error - cannot locate self directory (%r)\n"
  | driverNotFound _ =>
      "MOUNT: error - %s not found (get it from efi.akeo.ie)\n"
  | driverBlocked => "MOUNT: error - driver blocked by Secure Boot\n"
  | loadImageFailed _ _ => "MOUNT: error - LoadImage %s failed (%r)\n"
  | startImageFailed _ => "MOUNT: error - StartImage failed (%r)\n"
  | driverLoaded _ => "MOUNT: driver %s loaded\n"
  | driverAlreadyLoaded _ => "MOUNT: %s driver already loaded\n"
  | loopDriverBlocked _ => "MOUNT: error - %s blocked by Secure Boot\n"
  | loopDriverUnloadable _ _ => "MOUNT: error - cannot load %s (%r)\n"
  | loopDriverNotStarted _ _ =>
      "MOUNT: error - StartImage %s failed (%r)\n"
  | noLoopFactory _ => "MOUNT: error - %s published no loop factory\n"
  | cannotOpen _ _ => "MOUNT: error - cannot open %s (%r)\n"
  | cannotStat _ => "MOUNT: error - cannot stat %s\n"
  | fileTooSmall => "MOUNT: error - file too small, not a valid ISO\n"
  | tailIgnored =>
      "MOUNT: warn - size not multiple of 2048, tail ignored\n"
  | noFileDevicePath _ =>
      "MOUNT: error - cannot build device path for %s\n"
  | loopCreateFailed _ =>
      "MOUNT: error - loop device create failed (%r)\n"
  | loopCreated _ => "MOUNT: loop device created for %s\n"
  | isoDriverMissing =>
      "MOUNT: warn - ISO9660 detected but drivers\\iso9660_x64.efi missing\n"
  | loopKept =>
      "MOUNT: loop device kept; load drivers\\iso9660_x64.efi, then map -r\n"
  | newVolume _ _ => "MOUNT: new volume %s  label=\"%s\"\n"
  | mapRefreshed _ => "MOUNT: map refreshed, %d new volume(s)\n"

/-- The line is a `MOUNT: error` line. -/
def isError (line : PrintLine) : Bool :=
  "MOUNT: error".toList.isPrefixOf line.format.toList

/-- Which lines report an error, apart from the texts of the help. -/
theorem isError_eq (line : PrintLine) :
    line.isError =
      match line with
      | unknownFormat _ | selfDirectoryUnknown _ | driverNotFound _
      | driverBlocked | loadImageFailed _ _ | startImageFailed _
      | loopDriverBlocked _ | loopDriverUnloadable _ _
      | loopDriverNotStarted _ _ | noLoopFactory _ | cannotOpen _ _
      | cannotStat _ | fileTooSmall | noFileDevicePath _
      | loopCreateFailed _ => true
      | helpText text => "MOUNT: error".toList.isPrefixOf text.toList
      | _ => false := by
  cases line <;> dsimp only [isError, format]
  all_goals decide +kernel

end PrintLine

/-- The fixed lines of `PrintHelp` between its title and the format table. -/
def helpLines : List String :=
  ["Author: Mike Wu\n\n",
    "Usage:\n",
    "  mount              List current fsN: mappings and supported formats\n",
    "  mount -NTFS        Load NTFS support and mount all NTFS volumes\n",
    "  mount -ISO <file>  Mount an ISO image file as a new volume\n",
    "  mount -<FORMAT>    Load support for FORMAT (EXT4/BTRFS/XFS...)\n\n",
    "Supported formats:\n"]

end UefiMount
