import WinNetTest.Fnmp.OidPath
import WinNetTest.Fnmp.PortIoctls
import WinNetTest.Fnmp.RxInject
import WinNetTest.Fnmp.StatusIoctls
import WinNetTest.Fnmp.Tx

/-!
# The miniport and its halt

The send path, the receive injection, the port IOCTLs, the OID path and the
IOCTLs that indicate a status, each as its own machine, and above them what NDIS
does to the miniport: pause, restart and halt.  Every call of NDIS that takes
the miniport handle is recorded, with whether the halt handler had cleared it.

NDIS sends no empty chain, and after a halt it neither sends nor makes OID
requests.  It halts a miniport only when the pause handler has returned, all
NBLs it sent have been completed, and all OID requests have been answered.
-/

namespace WinNetTest.Fnmp.Miniport

open Support Fnio

inductive NdisCall where
  | indicateStatusEx
  | netPnPEvent
  | allocatePort
  | freePort
  | openConfigurationEx
  | indicateReceiveNetBufferLists
  | sendNetBufferListsComplete
  deriving DecidableEq

/-- The parts of the adapter, whether the halt handler has cleared
`MiniportHandle`, and the calls made, each with whether this was after it. -/
structure State where
  tx : CapturePath.State
  rx : Pool RxInject.Shared RxInject.Call
  ports : Pool PortIoctls.Shared PortIoctls.Call
  oid : OidPath.State
  status : Pool StatusIoctls.Shared StatusIoctls.Call
  halted : Bool
  ndisCalls : List (NdisCall × Bool)

/-- What is executed next.  An IOCTL that indicates a status is made on a shared
handle. -/
inductive Label where
  | tx (label : CapturePath.Label)
  | rx (move : Move RxInject.Input)
  | port (move : Move PortIoctls.Input)
  | oid (label : OidPath.Label)
  | status (h : ℕ) (move : Move StatusIoctls.Input)
  | pause
  | restart
  | halt

/-! ## Calls of NDIS -/

def portCall : PortIoctls.Call → Option NdisCall
  | .allocating _ => some .allocatePort
  | .activating _ _ => some .netPnPEvent
  | .deactivating _ _ => some .netPnPEvent
  | .freeing _ _ => some .freePort
  | _ => none

def rxCall : RxInject.Call → Option NdisCall
  | .referenced _ _ _ => some .indicateReceiveNetBufferLists
  | _ => none

def statusCall : StatusIoctls.Call → Option NdisCall
  | .indicating => some .indicateStatusEx
  | .openingConfiguration _ _ => some .openConfigurationEx
  | .readingConfiguration _ => none

/-- Processing a request ends in `MpSetOffloadParameters`, which indicates the
new offload settings. -/
def indicatesOffload (sizes : NdisSizes) (request : NdisOidRequest) : Bool :=
  request.requestType == .setInformation &&
    (request.oid == .tcpOffloadParameters ||
      request.oid == .tcpOffloadHwParameters) &&
    mpSetOffloadParameters sizes request == .success

def processedNext : OidPath.Call → Option NdisOidRequest
  | .completing _ taken =>
    if taken.status = .pending then some taken.request else none
  | .flushing _ ⟨entry :: _, _⟩ => some entry.request
  | .flushing _ ⟨[], entry :: _⟩ => some entry.request
  | .processing _ request => some request
  | _ => none

def oidCall (sizes : NdisSizes) (s : OidPath.State) :
    OidPath.Label → Option NdisCall
  | .process c | .complete c =>
    ((s.calls.lookup c).bind processedNext).bind fun request =>
      if indicatesOffload sizes request then some .indicateStatusEx else none
  | _ => none

def ndisCall (sizes : NdisSizes) (s : State) : Label → Option NdisCall
  | .tx (.complete _) => some .sendNetBufferListsComplete
  | .rx (.advance c) => (s.rx.calls.lookup c).bind rxCall
  | .port (.advance c) => (s.ports.calls.lookup c).bind portCall
  | .oid label => oidCall sizes s.oid label
  | .status _ (.advance c) => (s.status.calls.lookup c).bind statusCall
  | _ => none

/-! ## Steps -/

def inHandler : OidPath.Call → Bool
  | .processing _ _ => true
  | .returning _ _ _ => true
  | _ => false

/-- The pause handler has returned and nothing that NDIS has given to the
driver is left. -/
def mayHalt (s : State) : Bool :=
  s.rx.shared.rundown == .rundown && s.tx.rundown == .rundown &&
    s.tx.completed.length == s.tx.received &&
    s.oid.completions.length ==
      s.oid.pended.regular.length + s.oid.pended.direct.length &&
    s.oid.calls.entries.all fun entry => !inHandler entry.2

def mayAct (s : State) : Label → Bool
  | .tx (.receive _ _ nbls) => !s.halted && !nbls.isEmpty
  | .tx (.locked _ (.create _)) => !s.halted
  | .tx .pause => false
  | .tx .restart => false
  | .rx (.start .open) => !s.halted
  | .rx (.start (.send _)) => false
  | .rx (.start (.sendComplete _)) => false
  | .rx (.start .pause) => false
  | .rx (.start .restart) => false
  | .port (.start _) => s.oid.owner.isSome
  | .oid (.arrive _ _ _ _) => !s.halted
  | .oid (.create _) => !s.halted
  | .status h (.start _) => (s.rx.shared.handles.lookup h).isSome
  | .pause => !s.halted
  | .restart => !s.halted
  | .halt => !s.halted && mayHalt s
  | _ => true

structure Parameters where
  sizes : NdisSizes
  config : AdapterConfig
  rss : RxInject.RssQueues

variable (p : Parameters)

def move (s : State) : Label → Option State
  | .tx label => (txMachine.step s.tx label).map fun tx => { s with tx }
  | .rx m => ((RxInject.machine p.rss).step s.rx m).map fun rx => { s with rx }
  | .port m => (PortIoctls.machine.step s.ports m).map fun ports =>
    { s with ports }
  | .oid label =>
    ((OidPath.machine p.sizes p.config).step s.oid label).map fun oid =>
      { s with oid }
  | .status _ m =>
    ((StatusIoctls.program p.sizes p.config.mtuSize).machine.step
      s.status m).map fun status => { s with status }
  | .pause => do
    let tx ← txMachine.step s.tx .pause
    let rx ← (RxInject.machine p.rss).step s.rx (.start .pause)
    return { s with tx, rx }
  | .restart => do
    let tx ← txMachine.step s.tx .restart
    let rx ← (RxInject.machine p.rss).step s.rx (.start .restart)
    return { s with tx, rx }
  | .halt => some { s with halted := true }

def step (s : State) (label : Label) : Option State :=
  if mayAct s label then
    (move p s label).map fun t =>
      { t with
        ndisCalls := s.ndisCalls ++
          (ndisCall p.sizes s label).toList.map fun call => (call, s.halted) }
  else none

def init : State where
  tx := txMachine.init
  rx := (RxInject.machine p.rss).init
  ports := PortIoctls.machine.init
  oid := (OidPath.machine p.sizes p.config).init
  status := (StatusIoctls.program p.sizes p.config.mtuSize).machine.init
  halted := false
  ndisCalls := []

def machine : Machine State Label := ⟨init p, step p⟩

end WinNetTest.Fnmp.Miniport
