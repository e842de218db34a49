import WinNetTest.Fnmp.OidProcess
import WinNetTest.Support.Interleaving

/-!
# IOCTLs that indicate a status

`SharedIrpSetMtu` and `SharedIrpUpdateTaskOffload` change the adapter and
indicate the change to NDIS.  They are executed up to each NDIS call, the NDIS
call being an action of its own.  The offload records they fill in are left
out, and so is the push lock under which these are written.
-/

namespace WinNetTest.Fnmp.StatusIoctls

open Support Fnio

def fnmpMinMtu : UInt32 := 1514

def fnmpMaxMtu : UInt32 := 16 * 1024 * 1024

def sizeofSetMtuIn : ℕ := 4

def sizeofUpdateTaskOffloadIn : ℕ := 32

def sizeofOffloadOptions : ℕ := 4

def ndisObjectTypeDefault : UInt8 := 0x80

inductive OffloadType where
  | currentConfig
  | hardwareCapabilities
  | other (value : UInt32)
  deriving DecidableEq

/-- The input of `SharedIrpUpdateTaskOffload`, with what opening the
configuration and reading it answer. -/
structure UpdateTaskOffloadInput where
  inputBufferLength : ℕ
  offloadType : OffloadType
  offloadOptions : Option UserRead
  offloadParametersLength : UInt32
  offloadParameters : UserRead
  opened : Bool
  read : Bool

inductive Input where
  | setMtu (inputBufferLength : ℕ) (mtu : UInt32)
  | updateTaskOffload (input : UpdateTaskOffloadInput)

/-- Where a call stands: before `NdisMIndicateStatusEx`, before
`NdisOpenConfigurationEx`, and before the configuration is read. -/
inductive Call where
  | indicating
  | openingConfiguration (opened read : Bool)
  | readingConfiguration (read : Bool)
  deriving DecidableEq

structure Shared where
  mtuSize : UInt32
  replies : List (ℕ × NtStatus)
  deriving DecidableEq

def Shared.reply (x : Shared) (c : ℕ) (status : NtStatus) :
    Shared × Option Call :=
  ({ x with replies := x.replies ++ [(c, status)] }, none)

/-- `SharedIrpSetMtu` up to the indication.  The MTU given includes the
Ethernet header. -/
def sharedIrpSetMtu (x : Shared) (c inputBufferLength : ℕ) (mtu : UInt32) :
    Shared × Option Call :=
  if inputBufferLength < sizeofSetMtuIn then x.reply c .bufferTooSmall
  else if mtu < fnmpMinMtu ∨ fnmpMaxMtu < mtu then
    x.reply c .invalidParameter
  else ({ x with mtuSize := mtu - ethHdrLen }, some .indicating)

variable (sizes : NdisSizes)

/-- The copies `SharedIrpUpdateTaskOffload` makes of what it is given, and the
check of the parameters in `MpSetOffloadParameters`. -/
def bounceOffload (input : UpdateTaskOffloadInput) :
    Except NtStatus Call := do
  match input.offloadOptions with
  | none => pure ()
  | some options => discard (bounceBuffer options sizeofOffloadOptions)
  if input.offloadParametersLength = 0 then
    return .openingConfiguration input.opened input.read
  let parameters ← bounceBuffer input.offloadParameters
    input.offloadParametersLength.toNat
  if input.offloadParametersLength < sizes.offloadParameters ∨
      parameters.head? ≠ some ndisObjectTypeDefault then
    throw .invalidParameter
  return .indicating

/-- `SharedIrpUpdateTaskOffload` up to its first NDIS call. -/
def sharedIrpUpdateTaskOffload (x : Shared) (c : ℕ)
    (input : UpdateTaskOffloadInput) : Shared × Option Call :=
  if input.inputBufferLength < sizeofUpdateTaskOffloadIn then
    x.reply c .bufferTooSmall
  else
    match input.offloadType with
    | .other _ => x.reply c .invalidParameter
    | _ =>
      match bounceOffload sizes input with
      | .error status => x.reply c status
      | .ok call => (x, some call)

def start (x : Shared) (c : ℕ) :
    Input → Option (Shared × Option Call)
  | .setMtu inputBufferLength mtu =>
    some (sharedIrpSetMtu x c inputBufferLength mtu)
  | .updateTaskOffload input =>
    some (sharedIrpUpdateTaskOffload sizes x c input)

def advance (x : Shared) (c : ℕ) : Call → Option (Shared × Option Call)
  | .indicating => some (x.reply c .success)
  | .openingConfiguration opened read =>
    if opened then some (x, some (.readingConfiguration read))
    else some (x.reply c .unsuccessful)
  | .readingConfiguration read =>
    if read then some (x, some .indicating)
    else some (x.reply c .invalidParameter)

def program (mtuSize : UInt32) :
    Program Shared Call Input where
  init := ⟨mtuSize, []⟩
  start := start sizes
  advance := advance

end WinNetTest.Fnmp.StatusIoctls
