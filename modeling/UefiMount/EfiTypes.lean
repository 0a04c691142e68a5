namespace UefiMount

/-!
# UEFI base types

The target is X64 only, so `UINTN` and `EFI_STATUS` are 64-bit words.  Handles,
pool addresses and open files are opaque identities: the code compares them
and passes them on, and never computes with them.
-/

/-- An opaque `EFI_HANDLE`; `NULL` is modelled by `Option`. -/
abbrev Handle := Nat

/-- The address of a pool allocation. -/
abbrev Address := Nat

/-- An open `EFI_FILE_PROTOCOL` instance. -/
abbrev FileHandle := Nat

/-- One UCS-2 code unit of a firmware string. -/
abbrev Char16 := UInt16

/-- A NUL-terminated firmware string, without its terminator. -/
abbrev Text := List Char16

/-- The code units of an `L"..."` literal. -/
def wide (literal : String) : Text :=
  literal.toList.map fun character => UInt16.ofNat character.toNat

/-- An `EFI_STATUS` word; the top bit separates errors from everything else. -/
structure EfiStatus where
  code : UInt64
  deriving Repr, DecidableEq

namespace EfiStatus

/-- The bit that `ENCODE_ERROR` sets. -/
def errorBit : UInt64 := 0x8000000000000000

/-- `EFI_ERROR`: the status is negative as a signed word. -/
def isError (status : EfiStatus) : Bool :=
  decide (errorBit ≤ status.code)

/-- `ENCODE_ERROR`. -/
def encodeError (number : UInt64) : EfiStatus :=
  ⟨errorBit ||| number⟩

def success : EfiStatus := ⟨0⟩
def loadError : EfiStatus := encodeError 1
def invalidParameter : EfiStatus := encodeError 2
def deviceError : EfiStatus := encodeError 7
def writeProtected : EfiStatus := encodeError 8
def outOfResources : EfiStatus := encodeError 9
def notFound : EfiStatus := encodeError 14
def securityViolation : EfiStatus := encodeError 26

@[simp] theorem isError_success : success.isError = false := by decide
@[simp] theorem isError_loadError : loadError.isError = true := by decide
@[simp] theorem isError_invalidParameter :
    invalidParameter.isError = true := by decide
@[simp] theorem isError_deviceError : deviceError.isError = true := by decide
@[simp] theorem isError_writeProtected :
    writeProtected.isError = true := by decide
@[simp] theorem isError_outOfResources :
    outOfResources.isError = true := by decide
@[simp] theorem isError_notFound : notFound.isError = true := by decide
@[simp] theorem isError_securityViolation :
    securityViolation.isError = true := by decide

theorem invalidParameter_ne_success : invalidParameter ≠ success := by decide
theorem success_ne_deviceError : success ≠ deviceError := by decide
theorem invalidParameter_ne_deviceError :
    invalidParameter ≠ deviceError := by decide
theorem writeProtected_ne_deviceError :
    writeProtected ≠ deviceError := by decide

/-- An error status is never `EFI_SUCCESS`. -/
theorem ne_success_of_isError
    {status : EfiStatus}
    (failed : status.isError = true) :
    status ≠ success := by
  intro same
  subst same
  simp at failed

end EfiStatus

end UefiMount
