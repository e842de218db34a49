/-!
# Status codes

The `NTSTATUS` values returned by the modelled functions.  NDIS aliases a
number of its own status codes to these, and `NT_SUCCESS` separates the
success and informational codes from warnings and errors.
-/

namespace WinNetTest

inductive NtStatus where
  | success
  | pending
  | timeout
  | bufferOverflow
  | unsuccessful
  | invalidParameter
  | noMemory
  | accessViolation
  | bufferTooSmall
  | integerOverflow
  | insufficientResources
  | notSupported
  | notFound
  | cancelled
  | duplicateObjectId
  | deviceNotReady
  | invalidDeviceState
  | invalidDeviceRequest
  | ioDeviceError
  deriving DecidableEq, Repr

namespace NtStatus

def ntSuccess : NtStatus → Bool
  | success => true
  | pending => true
  | timeout => true
  | _ => false

end NtStatus

/-- The `NDIS_STATUS` values an OID request ends with.  A user who completes a
request may choose any code. -/
inductive NdisStatus where
  | success
  | pending
  | resources
  | notSupported
  | invalidParameter
  | invalidLength
  | invalidOid
  | bufferTooShort
  | other (value : UInt32)
  deriving DecidableEq, Repr

end WinNetTest
