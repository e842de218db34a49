import Mathlib.Data.Multiset.MapFold

/-!
# Network buffers

The NDIS objects the drivers handle.  A net buffer is a chain of memory
descriptors (MDLs) together with the window of it that holds the packet: the
window starts at an offset in the current MDL and runs for the data length.
A net buffer list (NBL) is a nonempty sequence of net buffers with the
out-of-band information and the scratch pointer that whoever owns the list
may use.
-/

namespace WinNetTest.Fnio

structure Mdl where
  bytes : List UInt8
  deriving DecidableEq

namespace Mdl

def byteCount (mdl : Mdl) : ℕ :=
  mdl.bytes.length

end Mdl

/-- A `NET_BUFFER`: the descriptors the data start has moved past, nearest
first, and those from the current one on. -/
structure NetBuffer where
  passedMdls : List Mdl
  currentMdls : List Mdl
  currentMdlOffset : ℕ
  dataLength : ℕ
  deriving DecidableEq

namespace NetBuffer

/-- The packet bytes, as `NdisGetDataBuffer` hands them out. -/
def data (nb : NetBuffer) : List UInt8 :=
  ((nb.currentMdls.flatMap Mdl.bytes).drop nb.currentMdlOffset).take
    nb.dataLength

end NetBuffer

structure ProcessorNumber where
  group : UInt16
  number : UInt8
  deriving DecidableEq

/-- A `DATA_FILTER_NBL_CONTEXT` as the NBL's scratch pointer refers to it. -/
structure FilterNblContext where
  address : ℕ
  processorNumber : ProcessorNumber
  timestamp : UInt64
  deriving DecidableEq

structure NblInfo where
  hashValue : UInt32
  tcpIpChecksum : UInt64
  tcpLargeSend : UInt64
  udpSegmentation : UInt64
  tcpRecvSegCoalesce : UInt64
  timestamp : UInt64
  deriving DecidableEq

/-- A `NET_BUFFER_LIST`.  One that comes again after its completion has another
identity `id`. -/
structure NetBufferList where
  id : ℕ
  firstNb : NetBuffer
  nextNbs : List NetBuffer
  info : NblInfo
  scratch : Option FilterNblContext
  deriving DecidableEq

namespace NetBufferList

variable (nbl : NetBufferList)

def netBuffers : List NetBuffer :=
  nbl.firstNb :: nbl.nextNbs

variable (context : Option FilterNblContext)

def fnIoFilterNblSetContext : NetBufferList :=
  { nbl with scratch := context }

@[simp] theorem fnIoFilterNblSetContext_id :
    (nbl.fnIoFilterNblSetContext context).id = nbl.id := rfl

end NetBufferList

/-- An `NBL_COUNTED_QUEUE`: a chain of NBLs and its length. -/
@[ext]
structure NblCountedQueue where
  chain : List NetBufferList
  nblCount : ℕ
  counted : nblCount = chain.length
  deriving DecidableEq

namespace NblCountedQueue

/-- `NdisInitializeNblCountedQueue`. -/
def empty : NblCountedQueue :=
  ⟨[], 0, rfl⟩

variable (q : NblCountedQueue)

def appendNblChain (nbls : List NetBufferList) : NblCountedQueue :=
  ⟨q.chain ++ nbls, q.nblCount + nbls.length, by simp [q.counted]⟩

def appendSingleNbl (nbl : NetBufferList) : NblCountedQueue :=
  ⟨q.chain ++ [nbl], q.nblCount + 1, by simp [q.counted]⟩

/-- `NdisAppendNblCountedQueueToNblCountedQueueFast` on its destination; the
source queue is left initialised. -/
def appendQueue (q source : NblCountedQueue) : NblCountedQueue :=
  ⟨q.chain ++ source.chain, q.nblCount + source.nblCount,
    by simp [q.counted, source.counted]⟩

def isEmpty (q : NblCountedQueue) : Bool :=
  q.chain.isEmpty

def ids : Multiset ℕ :=
  (q.chain.map NetBufferList.id : List ℕ)

theorem card_ids : Multiset.card q.ids = q.nblCount := by
  simp [ids, q.counted]

theorem ids_appendSingleNbl (nbl : NetBufferList) :
    (q.appendSingleNbl nbl).ids = q.ids + {nbl.id} := by
  simp only [ids, appendSingleNbl, List.map_append, List.map_cons, List.map_nil,
    ← Multiset.coe_add, Multiset.coe_singleton]

theorem ids_appendQueue (q source : NblCountedQueue) :
    (q.appendQueue source).ids = q.ids + source.ids := by
  simp [ids, appendQueue]

@[simp] theorem ids_empty : empty.ids = 0 := rfl

@[simp] theorem chain_empty : empty.chain = [] := rfl

end NblCountedQueue

end WinNetTest.Fnio
