import WinNetTest.Fnmp.Miniport
import WinNetTest.Fnmp.OidRequests
import WinNetTest.Fnmp.RxAccounts

/-!
# NDIS calls and the halt of the miniport

What NDIS waits for before it halts a miniport keeps the send path, the receive
injection and the OID path away from the cleared miniport handle: no NBL and no
request is left, and the run-down refuses every flush.  The port IOCTLs, the
close of a handle that has ports, and the IOCTLs that indicate a status are not
held back by anything, so they call NDIS after the halt.
-/

namespace WinNetTest.Fnmp.Miniport

open Support Fnio

/-! ## The send path -/

section SendPath

open CapturePath

variable {s t : CapturePath.State}

def PhaseNonempty (phase : Phase) : Prop :=
  ∀ queue, phase = .completing queue ∨ phase = .passing queue →
    queue.isEmpty = false

def ChainsNonempty (s : CapturePath.State) : Prop :=
  ∀ c call, s.calls.lookup c = some call → PhaseNonempty call.phase

theorem ChainsNonempty.settle (hs : ChainsNonempty s)
    (hcalls : t.calls = s.calls) (c : ℕ) {call : CapturePath.Call}
    (hcall : PhaseNonempty call.phase) : ChainsNonempty (t.settle c call) := by
  intro c' call' hlookup
  rcases State.lookup_settle hlookup with ⟨-, rfl⟩ | ⟨-, hold⟩
  · exact hcall
  · exact hs c' call' (hcalls ▸ hold)

theorem phaseNonempty_passing {queue : NblCountedQueue}
    (h : queue.isEmpty = false) : PhaseNonempty (.passing queue) := by
  rintro queue' (heq | heq)
  · cases heq
  · cases heq
    exact h

theorem phaseNonempty_of_ne {phase : Phase}
    (hcompleting : ∀ queue, phase ≠ .completing queue)
    (hpassing : ∀ queue, phase ≠ .passing queue) : PhaseNonempty phase := by
  rintro queue (heq | heq)
  · exact absurd heq (hcompleting queue)
  · exact absurd heq (hpassing queue)

theorem phaseNonempty_afterSection (queue : NblCountedQueue) :
    PhaseNonempty (afterSection queue) := by
  unfold afterSection
  split
  · exact phaseNonempty_of_ne (by simp) (by simp)
  · rename_i hne
    rintro queue' (heq | heq)
    · cases heq
      simpa using hne
    · cases heq

theorem isEmpty_arriving {nbls : List NetBufferList} (h : nbls ≠ []) :
    (arriving s nbls).isEmpty = false := by
  cases nbls with
  | nil => exact absurd rfl h
  | cons nbl rest =>
    simp [arriving, NblCountedQueue.isEmpty, NblCountedQueue.appendNblChain,
      NblCountedQueue.empty, numbered]

variable {label : CapturePath.Label}

theorem ChainsNonempty.step (hs : ChainsNonempty s)
    (hreceive : ∀ c declared nbls, label = .receive c declared nbls → nbls ≠ [])
    (hstep : txMachine.step s label = some t) : ChainsNonempty t := by
  cases transition_of_step hstep with
  | refused hfree =>
    refine hs.settle ?_ _
      (phaseNonempty_passing (isEmpty_arriving (hreceive _ _ _ rfl)))
    rfl
  | accepted | completing | passing | completed =>
    refine hs.settle ?_ _ (phaseNonempty_of_ne (by simp) (by simp))
    rfl
  | transferLocked | locked =>
    refine hs.settle ?_ _ (phaseNonempty_afterSection _)
    rfl
  | @releasing c call queue hcall hphase =>
    refine hs.settle ?_ _ ?_
    · rfl
    · by_cases hempty : queue.isEmpty = true
      · simp only [hempty, if_true]
        exact phaseNonempty_of_ne (by simp) (by simp)
      · simp only [hempty]
        exact phaseNonempty_passing (by simpa using hempty)
  | pause | restart => exact hs

theorem not_complete_of_sent {c : ℕ} (hs : txMachine.Reachable s)
    (hchains : ChainsNonempty s) (hsent : s.completed.length = s.received) :
    txMachine.step s (.complete c) = none := by
  have hpartition :=
    congrArg Multiset.card (invariant_of_reachable hs).contained.partition
  rw [Multiset.card_range, Multiset.card_add, Multiset.card_add,
    Multiset.coe_card, hsent] at hpartition
  have hnone : s.callIds = 0 := Multiset.card_eq_zero.mp (by omega)
  by_contra hsome
  obtain ⟨t, ht⟩ := Option.ne_none_iff_exists'.mp hsome
  have hempty : ∀ (call : CapturePath.Call) (queue : NblCountedQueue),
      s.calls.lookup c = some call →
        call.phase.ids = queue.ids → queue.isEmpty = true := by
    intro call queue hcall hids
    have hsub : call.phase.ids ≤ s.callIds :=
      Multiset.le_iff_exists_add.mpr ⟨_, State.sum_of_lookup Phase.ids hcall⟩
    rw [hnone, hids] at hsub
    have hzero : queue.ids = 0 := Multiset.le_zero.mp hsub
    simpa [NblCountedQueue.ids, NblCountedQueue.isEmpty] using hzero
  have htransition : Transition txDriver s (.complete c) t :=
    transition_of_step ht
  cases htransition with
  | @completing c call queue hcall hphase =>
    have hne := hchains c call hcall queue (Or.inl hphase)
    simp [hempty call queue hcall (by rw [hphase]; rfl)] at hne
  | @passing c call queue hcall hphase =>
    have hne := hchains c call hcall queue (Or.inr hphase)
    simp [hempty call queue hcall (by rw [hphase]; rfl)] at hne

theorem sent_step (hs : txMachine.Reachable s) (hchains : ChainsNonempty s)
    (hsent : s.completed.length = s.received)
    (hreceive : ∀ c declared nbls, label ≠ .receive c declared nbls)
    (hstep : txMachine.step s label = some t) :
    t.completed.length = t.received := by
  cases transition_of_step hstep with
  | refused | accepted => exact absurd rfl (hreceive _ _ _)
  | transferLocked hcall hentry hphase => simpa [transferLocked] using hsent
  | locked hstart => simpa [locked] using hsent
  | completing | passing =>
    simp [not_complete_of_sent hs hchains hsent] at hstep
  | completed hcall hphase => simpa [State.releaseCount] using hsent
  | releasing hcall hphase =>
    simpa [State.releaseCount, State.converted] using hsent
  | pause | restart => exact hsent

end SendPath

/-! ## The receive injection -/

section Receive

open RxInject

variable {rss : RssQueues} {s t : Pool RxInject.Shared RxInject.Call}

def FlushNonempty : RxInject.Call → Prop
  | .flushing _ _ nbls => nbls.isEmpty = false
  | .referenced _ _ nbls => nbls.isEmpty = false
  | _ => True

variable {x y : RxInject.Shared} {input : RxInject.Input} {call : RxInject.Call}

theorem flushNonempty_start
    (h : RxInject.start rss x input = some (y, some call)) :
    FlushNonempty call := by
  cases input with
  | enqueue k input =>
    obtain ⟨queue, -, h⟩ := Option.map_eq_some_iff.mp h
    unfold beginEnqueue at h
    split at h <;> cases h
    trivial
  | flush k input =>
    obtain ⟨queue, -, h⟩ := Option.map_eq_some_iff.mp h
    unfold beginFlush at h
    split at h
    · cases h
    · split at h
      · cases h
      · rename_i hne
        cases h
        simpa [FlushNonempty] using hne
  | returnNbls nbls =>
    obtain ⟨-, h⟩ := Option.ite_none_right_eq_some.mp h
    cases h
    trivial
  | close k =>
    obtain ⟨queue, -, h⟩ := Option.map_eq_some_iff.mp h
    cases h
  | send n =>
    obtain ⟨_, -, h⟩ := Option.map_eq_some_iff.mp h
    cases h
  | sendComplete | restart =>
    obtain ⟨-, h⟩ := Option.ite_none_right_eq_some.mp h
    cases h
  | _ => cases h

theorem flushNonempty {c : ℕ} (hs : (RxInject.machine rss).Reachable s)
    (hcall : s.calls.lookup c = some call) : FlushNonempty call := by
  have hinv : Program.Annotated (fun _ _ => True)
      (fun _ _ => FlushNonempty) s := by
    refine Program.invariant
      ⟨trivial, by simp [Program.machine]⟩ ?_ hs
    intro s c before n y after _ ih hbefore hturn
    refine Program.Annotated.turn trivial ?_ fun c' call _ hcall =>
      ih.calls c' call hcall
    intro call hafter
    cases hturn with
    | start hc hstart =>
      exact flushNonempty_start (hafter ▸ hstart)
    | @advance before y after hc hadvance =>
      have hown := ih.calls c before hbefore
      cases Action.of_advance hadvance with
      | acquired hacquire =>
        cases hafter
        exact hown
      | _ =>
        cases hafter
        try trivial
  exact hinv.calls c call hcall

theorem not_indicating_of_rundown {c : ℕ} {call : RxInject.Call}
    (hs : (RxInject.machine rss).Reachable s)
    (hdown : s.shared.rundown = .rundown)
    (hcall : s.calls.lookup c = some call) : rxCall call = none := by
  cases call with
  | referenced k lowResources nbls =>
    have hheld := references_held hs hcall
    have hcount := rundown_count hs
    have hne := flushNonempty hs hcall
    rw [hdown] at hcount
    simp only [Option.elim, Call.references, Rundown.rundown] at hheld hcount
    have hlength : nbls.chain.length = 0 := by
      rw [← nbls.counted]
      omega
    simp [FlushNonempty, NblCountedQueue.isEmpty,
      List.eq_nil_of_length_eq_zero hlength] at hne
  | _ => rfl

theorem release_rundown (n : ℕ) : Rundown.rundown.release n = .rundown := by
  simp [Rundown.release, Rundown.rundown]

variable {after : Option RxInject.Call}

theorem rundown_start (hdown : x.rundown = .rundown) (hinput : input ≠ .restart)
    (h : RxInject.start rss x input = some (y, after)) :
    y.rundown = .rundown := by
  cases input with
  | restart => exact absurd rfl hinput
  | send n => simp [RxInject.start, hdown, Rundown.acquire, Rundown.rundown] at h
  | sendComplete n =>
    obtain ⟨-, h⟩ := Option.ite_none_right_eq_some.mp h
    cases h
    simp [hdown, release_rundown]
  | pause =>
    cases h
    simp [hdown, Rundown.beginWait, Rundown.rundown]
  | enqueue k input =>
    obtain ⟨queue, -, h⟩ := Option.map_eq_some_iff.mp h
    unfold beginEnqueue at h
    split at h <;> cases h <;> exact hdown
  | flush k input =>
    obtain ⟨queue, -, h⟩ := Option.map_eq_some_iff.mp h
    unfold beginFlush at h
    split at h
    · cases h
      exact hdown
    · split at h <;> cases h <;> exact hdown
  | returnNbls nbls =>
    obtain ⟨-, h⟩ := Option.ite_none_right_eq_some.mp h
    cases h
    exact hdown
  | close k =>
    obtain ⟨queue, -, h⟩ := Option.map_eq_some_iff.mp h
    cases h
    exact hdown
  | «open» =>
    cases h
    exact hdown

theorem rundown_advance (hdown : x.rundown = .rundown)
    (h : RxInject.advance x call = some (y, after)) : y.rundown = .rundown := by
  cases Action.of_advance h with
  | acquired hacquire =>
    simp [hdown, Rundown.acquire, Rundown.rundown] at hacquire
  | released | counted =>
    simp [Shared.releaseReferences, hdown, release_rundown]
  | _ => exact hdown

theorem rundown_step {m : Move RxInject.Input}
    (hdown : s.shared.rundown = .rundown) (hm : m ≠ .start .restart)
    (hstep : (RxInject.machine rss).step s m = some t) :
    t.shared.rundown = .rundown := by
  cases m with
  | start input =>
    obtain ⟨next, hstart, rfl⟩ := Option.map_eq_some_iff.mp hstep
    exact rundown_start hdown (fun heq => hm (heq ▸ rfl)) hstart
  | advance c =>
    obtain ⟨_, -, hmap⟩ := Option.bind_eq_some_iff.mp hstep
    obtain ⟨next, hadvance, rfl⟩ := Option.map_eq_some_iff.mp hmap
    exact rundown_advance hdown hadvance

end Receive

/-! ## The OID path -/

section Requests

open OidPath

variable {sizes : NdisSizes} {config : AdapterConfig} {s t : OidPath.State}

theorem nextRequest_setFilter (s : OidPath.State) (context : UserContext)
    (input : SetFilterInput) :
    (setFilter s context input).nextRequest = s.nextRequest := by
  unfold setFilter
  split
  · unfold markSetOidFilter
    split
    · rfl
    · split <;> rfl
  · rfl

theorem nextRequest_step {label : OidPath.Label}
    (hlabel : ∀ i request now allocated,
      label ≠ .arrive i request now allocated)
    (hstep : OidPath.step sizes s label = some t) :
    t.nextRequest = s.nextRequest := by
  unfold OidPath.step at hstep
  split at hstep
  · cases hstep
  cases label with
  | arrive i request now allocated => exact absurd rfl (hlabel _ _ _ _)
  | process | return_ =>
    simp only at hstep
    split at hstep <;> cases hstep
    rfl
  | create apiVersion =>
    cases hstep
    unfold create
    split <;> rfl
  | setFilter h input =>
    obtain ⟨context, -, rfl⟩ := Option.map_eq_some_iff.mp hstep
    exact nextRequest_setFilter s context input
  | getRequest h input =>
    obtain ⟨context, -, rfl⟩ := Option.map_eq_some_iff.mp hstep
    rfl
  | completeRequest h input =>
    obtain ⟨context, -, rfl⟩ := Option.map_eq_some_iff.mp hstep
    unfold completeRequest
    split <;> rfl
  | complete c =>
    obtain ⟨call, -, hcall⟩ := Option.bind_eq_some_iff.mp hstep
    unfold complete at hcall
    split at hcall <;> cases hcall <;> rfl
  | watchdog now =>
    cases hstep
    split <;> rfl
  | flush c =>
    obtain ⟨call, -, hcall⟩ := Option.bind_eq_some_iff.mp hstep
    unfold flush at hcall
    split at hcall
    · cases hcall
      rfl
    · split at hcall
      · cases hcall
      · split at hcall <;> cases hcall <;> rfl
    · cases hcall
  | finish c =>
    obtain ⟨call, -, hcall⟩ := Option.bind_eq_some_iff.mp hstep
    unfold finish at hcall
    split at hcall <;> cases hcall <;> rfl
  | close h =>
    obtain ⟨context, -, hclose⟩ := Option.bind_eq_some_iff.mp hstep
    unfold close at hclose
    split at hclose <;> cases hclose
    rfl
  | release c =>
    obtain ⟨call, -, hcall⟩ := Option.bind_eq_some_iff.mp hstep
    unfold release at hcall
    split at hcall <;> cases hcall
    rfl

def AllCompleted (s : OidPath.State) : Prop :=
  s.completions.length = s.pended.regular.length + s.pended.direct.length

theorem length_completions (s : OidPath.State) : s.completions.length =
      (s.completedOn .regular).length + (s.completedOn .direct).length := by
  have hdirect : (s.completions.filter fun completion =>
      !decide (completion.interface = .regular)) =
        s.completions.filter fun completion =>
          decide (completion.interface = .direct) := by
    refine List.filter_congr fun completion _ => ?_
    cases completion.interface <;> rfl
  have hsplit := List.length_eq_length_filter_add (l := s.completions)
    fun completion => decide (completion.interface = .regular)
  rw [hdirect] at hsplit
  simpa [State.completedOn] using hsplit

theorem card_balance (hs : Conserved s) (i : OidRequestInterface) :
    (s.pendedOn i).length = (s.listed i).length + (s.inHand i).card +
      (s.completedOn i).length := by
  have hcard := congrArg Multiset.card (hs.balance i)
  simpa using hcard

theorem hand_eq_nil_of_allCompleted (hs : Conserved s) (hall : AllCompleted s)
    {c : ℕ} {call : OidPath.Call} (hcall : s.calls.lookup c = some call)
    (i : OidRequestInterface) : call.hand i = [] := by
  have hregular := card_balance hs .regular
  have hdirect := card_balance hs .direct
  have hlength := length_completions s
  simp only [State.pendedOn, PerInterface.get] at hregular hdirect
  have hnone : (s.inHand i).card = 0 := by
    unfold AllCompleted at hall
    cases i <;> omega
  have hle : (call.hand i : Multiset ℕ) ≤ s.inHand i := by
    rw [State.inHand, Table.total_eq_of_lookup
      (fun _ call => (call.hand i : Multiset ℕ)) hcall]
    exact Multiset.le_add_right _ _
  have hcard := Multiset.card_le_card hle
  rw [hnone, Multiset.coe_card] at hcard
  exact List.eq_nil_of_length_eq_zero (Nat.le_zero.mp hcard)

def NoHandler (s : OidPath.State) : Prop :=
  ∀ c call, s.calls.lookup c = some call → inHandler call = false

theorem NoHandler.put (hs : NoHandler s) (c : ℕ) (next : Option OidPath.Call)
    (hnext : ∀ call, next = some call → inHandler call = false)
    (hcalls : t.calls = s.calls.put c next) : NoHandler t := by
  intro c' call hcall
  rw [hcalls, Table.lookup_put] at hcall
  split at hcall
  · exact hnext call hcall
  · exact hs c' call hcall

structure Idle (s : OidPath.State) : Prop where
  completed : AllCompleted s
  handlers : NoHandler s

theorem Idle.transition (hs : Idle s) (hconserved : Conserved s)
    (h : Transition s t) (hnext : t.nextRequest = s.nextRequest) : Idle t := by
  have hhand {c : ℕ} {call : OidPath.Call} {i : OidRequestInterface}
      (hcall : s.calls.lookup c = some call) (hne : call.hand i ≠ []) : False :=
    hne (hand_eq_nil_of_allCompleted hconserved hs.completed hcall i)
  cases h with
  | stay => exact hs
  | pend | process_ | refuse => simp [State.newCall, State.setCall] at hnext
  | answer c i request config status hcall | return_ c id i status hcall =>
    simpa [inHandler] using hs.handlers c _ hcall
  | create apiVersion howner => exact ⟨hs.completed, hs.handlers⟩
  | setFilter h context keys hcontext hopen =>
    unfold markSetOidFilter
    split
    · exact ⟨hs.completed, hs.handlers⟩
    · split <;> exact ⟨hs.completed, hs.handlers⟩
  | take h i entry rest request status hlist hid =>
    exact ⟨hs.completed, hs.handlers.put s.nextCall
      (some (.completing h ⟨i, request, status⟩)) (by simp [inHandler]) rfl⟩
  | completeTaken c h taken config status hlookup hstatus =>
    exact (hhand (i := taken.interface) hlookup (by simp [Call.hand])).elim
  | completeFlushed c closed lists i entry rest config status hlookup hlist
      hstatus =>
      exact (hhand (i := i) hlookup (by simp [Call.hand, hlist])).elim
  | expire =>
    exact ⟨hs.completed, hs.handlers.put s.nextCall (some .expired)
      (by simp [inHandler]) rfl⟩
  | clear c call hlookup hcall =>
    exact ⟨hs.completed, hs.handlers.put c
      (some (.flushing call.closes (clearFilterSection s.oids).1))
      (by simp [inHandler]) rfl⟩
  | skip c h context hlookup hcontext hset =>
    exact ⟨hs.completed, hs.handlers.put c (some (.releasing h))
      (by simp [inHandler]) rfl⟩
  | finish c closed hlookup =>
    refine ⟨hs.completed, hs.handlers.put c (closed.map .releasing) ?_ rfl⟩
    intro call hcall
    obtain ⟨h, -, rfl⟩ := Option.map_eq_some_iff.mp hcall
    rfl
  | close h context hcontext hopen =>
    exact ⟨hs.completed, hs.handlers.put s.nextCall (some (.closing h))
      (by simp [inHandler]) rfl⟩
  | release c h hlookup =>
    exact ⟨hs.completed, hs.handlers.put c none (by simp) rfl⟩

theorem oidCall_eq_none (hs : Idle s) (hconserved : Conserved s)
    (label : OidPath.Label) : oidCall sizes s label = none := by
  have hnone : ∀ c, (s.calls.lookup c).bind processedNext = none := by
    intro c
    cases hcall : s.calls.lookup c with
    | none => rfl
    | some call =>
      have hhand := hand_eq_nil_of_allCompleted hconserved hs.completed hcall
      have hhandler := hs.handlers c call hcall
      cases call with
      | processing i request => simp [inHandler] at hhandler
      | completing h taken =>
        simpa [Call.hand] using hhand taken.interface
      | flushing closed lists =>
        have hregular := hhand .regular
        have hdirect := hhand .direct
        simp only [Call.hand, PerInterface.get, List.map_eq_nil_iff]
          at hregular hdirect
        obtain ⟨_, _⟩ := lists
        simp only at hregular hdirect
        subst hregular hdirect
        rfl
      | _ => rfl
  cases label with
  | process | complete => simp [oidCall, hnone]
  | _ => rfl

end Requests

/-! ## The port IOCTLs -/

section Ports

open PortIoctls

variable {s t : Pool PortIoctls.Shared PortIoctls.Call}

structure NoPorts (s : Pool PortIoctls.Shared PortIoctls.Call) : Prop where
  empty : s.shared.portList = []
  calls : ∀ c call, s.calls.lookup c = some call →
    ∃ answers requests, call = .cleaning answers requests

theorem NoPorts.put (hs : NoPorts s) {y : PortIoctls.Shared} {n : ℕ}
    (hempty : y.portList = []) (c : ℕ) (next : Option PortIoctls.Call)
    (hnext : ∀ call, next = some call →
      ∃ answers requests, call = .cleaning answers requests) :
    NoPorts ⟨y, s.calls.put c next, n⟩ := by
  refine ⟨hempty, fun c' call hcall => ?_⟩
  rw [Table.lookup_put] at hcall
  split at hcall
  · exact hnext call hcall
  · exact hs.calls c' call hcall

theorem withPort_eq_reply {x y : PortIoctls.Shared} {c length : ℕ}
    {number : UInt32} {required : PortState}
    {body : Listed → PortIoctls.Shared × Option PortIoctls.Call}
    {after : Option PortIoctls.Call} (hempty : x.portList = [])
    (h : withPort x c length number required body = some (y, after)) :
    y.portList = [] ∧ after = none := by
  have hfind : x.mpFindPortEntry number = none := by
    simp [PortIoctls.Shared.mpFindPortEntry, hempty]
  unfold withPort at h
  rw [hfind] at h
  split at h
  · cases h
    exact ⟨hempty, rfl⟩
  · split at h <;> cases h
    exact ⟨hempty, rfl⟩

variable {next : PortIoctls.Shared × Option PortIoctls.Call}

theorem NoPorts.start (hs : NoPorts s) {input : PortIoctls.Input}
    (hinput : ∀ length pool answer, input ≠ .allocate length pool answer)
    (h : PortIoctls.start s.shared s.nextCall input = some next) :
    NoPorts ⟨next.1, s.calls.put s.nextCall next.2, s.nextCall + 1⟩ := by
  obtain ⟨y, _⟩ := next
  unfold PortIoctls.start at h
  split at h
  · cases h
  cases input with
  | allocate length pool answer => exact absurd rfl (hinput _ _ _)
  | free | activate | deactivate =>
    obtain ⟨hempty, rfl⟩ := withPort_eq_reply hs.empty h
    exact hs.put hempty _ none (by simp)
  | close answers =>
    obtain ⟨-, h⟩ := Option.ite_none_right_eq_some.mp h
    cases h
    refine hs.put ?_ _ (some (.cleaning answers 0)) (by simp)
    exact hs.empty

theorem NoPorts.advance (hs : NoPorts s) {c : ℕ} {call : PortIoctls.Call}
    (hcall : s.calls.lookup c = some call)
    (h : PortIoctls.advance s.shared c call = some next) :
    NoPorts ⟨next.1, s.calls.put c next.2, s.nextCall⟩ := by
  obtain ⟨_, _, rfl⟩ := hs.calls c call hcall
  unfold PortIoctls.advance at h
  split at h
  · cases h
  · simp only [cleanupTurn, hs.empty] at h
    cases h
    refine hs.put ?_ c none (by simp)
    rfl

theorem NoPorts.step {m : Move PortIoctls.Input} (hs : NoPorts s)
    (hm : ∀ length pool answer, m ≠ .start (.allocate length pool answer))
    (hstep : PortIoctls.machine.step s m = some t) : NoPorts t := by
  cases m with
  | start input =>
    obtain ⟨next, hstart, rfl⟩ := Option.map_eq_some_iff.mp hstep
    exact hs.start (fun length pool answer heq =>
      hm length pool answer (congrArg Move.start heq)) hstart
  | advance c =>
    obtain ⟨_, hcall, hmap⟩ := Option.bind_eq_some_iff.mp hstep
    obtain ⟨next, hadvance, rfl⟩ := Option.map_eq_some_iff.mp hmap
    exact hs.advance hcall hadvance

theorem NoPorts.portCall_eq_none (hs : NoPorts s) (c : ℕ) :
    (s.calls.lookup c).bind portCall = none := by
  cases hcall : s.calls.lookup c with
  | none => rfl
  | some call =>
    obtain ⟨_, _, rfl⟩ := hs.calls c call hcall
    rfl

end Ports

/-! ## The miniport -/

section Runs

variable {p : Parameters} {s t : State} {label : Label}
  {G : State → Label → Prop}

inductive Moved (p : Parameters) (s : State) : Label → State → Prop
  | tx {l : CapturePath.Label} {tx : CapturePath.State}
      (h : txMachine.step s.tx l = some tx) : Moved p s (.tx l) { s with tx }
  | rx {m : Move RxInject.Input} {rx : Pool RxInject.Shared RxInject.Call}
      (h : (RxInject.machine p.rss).step s.rx m = some rx) :
      Moved p s (.rx m) { s with rx }
  | port {m : Move PortIoctls.Input}
      {ports : Pool PortIoctls.Shared PortIoctls.Call}
      (h : PortIoctls.machine.step s.ports m = some ports) :
      Moved p s (.port m) { s with ports }
  | oid {l : OidPath.Label} {oid : OidPath.State}
      (h : (OidPath.machine p.sizes p.config).step s.oid l = some oid) :
      Moved p s (.oid l) { s with oid }
  | status {k : ℕ} {m : Move StatusIoctls.Input}
      {status : Pool StatusIoctls.Shared StatusIoctls.Call}
      (h : (StatusIoctls.program p.sizes p.config.mtuSize).machine.step
        s.status m = some status) :
      Moved p s (.status k m) { s with status }
  | pause {tx : CapturePath.State} {rx : Pool RxInject.Shared RxInject.Call}
      (htx : txMachine.step s.tx .pause = some tx)
      (hrx : (RxInject.machine p.rss).step s.rx (.start .pause) = some rx) :
      Moved p s .pause { s with tx, rx }
  | restart {tx : CapturePath.State} {rx : Pool RxInject.Shared RxInject.Call}
      (htx : txMachine.step s.tx .restart = some tx)
      (hrx : (RxInject.machine p.rss).step s.rx (.start .restart) = some rx) :
      Moved p s .restart { s with tx, rx }
  | halt : Moved p s .halt { s with halted := true }

theorem Moved.of_move (h : move p s label = some t) : Moved p s label t := by
  cases label with
  | tx l =>
    obtain ⟨tx, htx, rfl⟩ := Option.map_eq_some_iff.mp h
    exact .tx htx
  | rx m =>
    obtain ⟨rx, hrx, rfl⟩ := Option.map_eq_some_iff.mp h
    exact .rx hrx
  | port m =>
    obtain ⟨_, hports, rfl⟩ := Option.map_eq_some_iff.mp h
    exact .port hports
  | oid l =>
    obtain ⟨oid, hoid, rfl⟩ := Option.map_eq_some_iff.mp h
    exact .oid hoid
  | status k m =>
    obtain ⟨status, hstatus, rfl⟩ := Option.map_eq_some_iff.mp h
    exact .status hstatus
  | pause =>
    obtain ⟨tx, htx, h⟩ := Option.bind_eq_some_iff.mp h
    obtain ⟨rx, hrx, h⟩ := Option.bind_eq_some_iff.mp h
    cases h
    exact .pause htx hrx
  | restart =>
    obtain ⟨tx, htx, h⟩ := Option.bind_eq_some_iff.mp h
    obtain ⟨rx, hrx, h⟩ := Option.bind_eq_some_iff.mp h
    cases h
    exact .restart htx hrx
  | halt =>
    cases h
    exact .halt

theorem moved_of_step (h : (machine p).step s label = some t) :
    mayAct s label = true ∧ ∃ u, Moved p s label u ∧ t = { u with
        ndisCalls := s.ndisCalls ++
          (ndisCall p.sizes s label).toList.map fun call =>
            (call, s.halted) } := by
  obtain ⟨hact, h⟩ := Option.ite_none_right_eq_some.mp h
  obtain ⟨u, hmove, rfl⟩ := Option.map_eq_some_iff.mp h
  exact ⟨hact, u, .of_move hmove, rfl⟩

section

variable (hs : (machine p).ReachableWithin G s)

include hs

theorem tx_reachable : txMachine.Reachable s.tx := by
  refine hs.project State.tx rfl fun s label t hstep => ?_
  obtain ⟨-, u, hmoved, rfl⟩ := moved_of_step hstep
  cases hmoved with
  | tx h | pause h | restart h => exact Or.inr ⟨_, h⟩
  | _ => exact Or.inl rfl

theorem rx_reachable : (RxInject.machine p.rss).Reachable s.rx := by
  refine hs.project State.rx rfl fun s label t hstep => ?_
  obtain ⟨-, u, hmoved, rfl⟩ := moved_of_step hstep
  cases hmoved with
  | rx h | pause htx h | restart htx h => exact Or.inr ⟨_, h⟩
  | _ => exact Or.inl rfl

theorem oid_reachable : (OidPath.machine p.sizes p.config).Reachable s.oid := by
  refine hs.project State.oid rfl fun s label t hstep => ?_
  obtain ⟨-, u, hmoved, rfl⟩ := moved_of_step hstep
  cases hmoved with
  | oid h => exact Or.inr ⟨_, h⟩
  | _ => exact Or.inl rfl

end

/-- What is left at a halt, and from then on, cannot call NDIS. -/
structure Quiesced (s : State) : Prop where
  rundown : s.rx.shared.rundown = .rundown
  sent : s.tx.completed.length = s.tx.received
  oid : Idle s.oid
  status : s.status.calls = ∅
  ports : NoPorts s.ports

structure HaltInv (s : State) : Prop where
  chains : ChainsNonempty s.tx
  quiesced : s.halted = true → Quiesced s
  calls : ∀ r ∈ s.ndisCalls, r.2 = false

/-- A halt finds no IOCTL that indicates a status and no port IOCTL under way,
and no port; after it, no IOCTL of the former kind is made and no port is
allocated. -/
def CallsEndBeforeHalt (s : State) : Label → Prop
  | .halt => s.status.calls.keys = [] ∧ s.ports.calls.keys = [] ∧
      s.ports.shared.portList = []
  | .status _ (.start _) => s.halted = false
  | .port (.start (.allocate _ _ _)) => s.halted = false
  | _ => True

instance (s : State) (label : Label) :
    Decidable (CallsEndBeforeHalt s label) := by
  unfold CallsEndBeforeHalt
  split <;> infer_instance

theorem calls_eq_empty {κ : Type*} {calls : Table ℕ κ}
    (h : calls.keys = []) : calls = ∅ :=
  AList.ext (List.map_eq_nil_iff.mp h)

theorem quiesced_of_mayHalt (hmay : mayHalt s = true)
    (hG : CallsEndBeforeHalt s .halt) : Quiesced s := by
  obtain ⟨hstatus, hports, hempty⟩ := hG
  simp only [mayHalt, Bool.and_eq_true, beq_iff_eq, List.all_eq_true,
    Bool.not_eq_true'] at hmay
  obtain ⟨⟨⟨⟨hrx, -⟩, hsent⟩, hcompleted⟩, hhandlers⟩ := hmay
  refine ⟨hrx, hsent, ⟨hcompleted, ?_⟩, calls_eq_empty hstatus, hempty, ?_⟩
  · intro c call hcall
    exact hhandlers ⟨c, call⟩ (AList.mem_lookup_iff.mp hcall)
  · intro c call hcall
    rw [calls_eq_empty hports] at hcall
    cases hcall

theorem Quiesced.ndisCall_eq_none (hs : (machine p).ReachableWithin G s)
    (hq : Quiesced s) (hchains : ChainsNonempty s.tx)
    (hmoved : Moved p s label t) : ndisCall p.sizes s label = none := by
  cases hmoved with
  | @tx l tx h =>
    cases l with
    | complete c =>
      simp [not_complete_of_sent (tx_reachable hs) hchains hq.sent] at h
    | _ => rfl
  | @rx m rx h =>
    cases m with
    | start input => rfl
    | advance c =>
      simp only [ndisCall]
      cases hcall : s.rx.calls.lookup c with
      | none => rfl
      | some call =>
        exact not_indicating_of_rundown (rx_reachable hs) hq.rundown hcall
  | @port m ports h =>
    cases m with
    | start input => rfl
    | advance c => exact hq.ports.portCall_eq_none c
  | oid h =>
    exact oidCall_eq_none hq.oid
      (OidPath.invariant_of_reachable (oid_reachable hs)).2.1 _
  | @status k m status h =>
    cases m with
    | start input => rfl
    | advance c => simp [ndisCall, hq.status]
  | _ => rfl

theorem Quiesced.moved (hs : (machine p).ReachableWithin G s)
    (hq : Quiesced s) (hchains : ChainsNonempty s.tx)
    (hhalted : s.halted = true) (hact : mayAct s label = true)
    (hG : CallsEndBeforeHalt s label) (hmoved : Moved p s label t) :
    Quiesced t := by
  cases hmoved with
  | @tx l tx h =>
    refine ⟨hq.rundown, ?_, hq.oid, hq.status, hq.ports⟩
    refine sent_step (tx_reachable hs) hchains hq.sent ?_ h
    rintro c declared nbls rfl
    simp [mayAct, hhalted] at hact
  | @rx m rx h =>
    refine ⟨rundown_step hq.rundown ?_ h, hq.sent, hq.oid, hq.status, hq.ports⟩
    rintro rfl
    simp [mayAct] at hact
  | @port m ports h =>
    refine ⟨hq.rundown, hq.sent, hq.oid, hq.status, hq.ports.step ?_ h⟩
    rintro length pool answer rfl
    simp [CallsEndBeforeHalt, hhalted] at hG
  | @oid l oid h =>
    refine ⟨hq.rundown, hq.sent, ?_, hq.status, hq.ports⟩
    refine hq.oid.transition
      (OidPath.invariant_of_reachable (oid_reachable hs)).2.1
      (OidPath.transition_of_step h) (nextRequest_step ?_ h)
    rintro i request now allocated rfl
    simp [mayAct, hhalted] at hact
  | @status k m status h =>
    refine ⟨hq.rundown, hq.sent, hq.oid, ?_, hq.ports⟩
    cases m with
    | start input => simp [CallsEndBeforeHalt, hhalted] at hG
    | advance c => simp [Program.machine, hq.status] at h
  | pause | restart => simp [mayAct, hhalted] at hact
  | halt => exact ⟨hq.rundown, hq.sent, hq.oid, hq.status, hq.ports⟩

theorem ChainsNonempty.moved (hs : ChainsNonempty s.tx)
    (hact : mayAct s label = true) (hmoved : Moved p s label t) :
    ChainsNonempty t.tx := by
  cases hmoved with
  | tx h =>
    refine hs.step ?_ h
    rintro c declared nbls rfl rfl
    simp [mayAct] at hact
  | pause htx | restart htx => exact hs.step (by simp) htx
  | _ => exact hs

theorem HaltInv.step (hs : (machine p).ReachableWithin G s) (hinv : HaltInv s)
    (hG : CallsEndBeforeHalt s label)
    (hstep : (machine p).step s label = some t) : HaltInv t := by
  obtain ⟨hact, u, hmoved, rfl⟩ := moved_of_step hstep
  have hchains := hinv.chains.moved hact hmoved
  refine ⟨hchains, ?_, ?_⟩
  · intro hhalted
    by_cases hbefore : s.halted = true
    · have hq := (hinv.quiesced hbefore).moved hs hinv.chains hbefore hact hG
        hmoved
      exact ⟨hq.rundown, hq.sent, hq.oid, hq.status, hq.ports⟩
    · cases hmoved with
      | halt =>
        simp only [mayAct, Bool.and_eq_true] at hact
        have hq := quiesced_of_mayHalt hact.2 hG
        exact ⟨hq.rundown, hq.sent, hq.oid, hq.status, hq.ports⟩
      | _ => exact absurd hhalted hbefore
  · intro r hr
    rcases List.mem_append.mp hr with hr | hr
    · exact hinv.calls r hr
    · by_cases hbefore : s.halted = true
      · rw [(hinv.quiesced hbefore).ndisCall_eq_none hs hinv.chains hmoved] at hr
        cases hr
      · obtain ⟨_, -, rfl⟩ := List.mem_map.mp hr
        simpa using hbefore

end Runs

/-- When the IOCTLs that nothing holds back end before the halt, NDIS is not
called with a cleared miniport handle. -/
theorem no_ndisCall_after_halt {p : Parameters} {s : State}
    (hs : (machine p).ReachableWithin CallsEndBeforeHalt s) :
    ∀ r ∈ s.ndisCalls, r.2 = false := by
  have hinv : HaltInv s := by
    induction hs with
    | init =>
      refine ⟨?_, by simp [machine, init], by simp [machine, init]⟩
      intro c call hcall
      cases hcall
    | step hs hG hstep ih => exact ih.step hs hG hstep
  exact hinv.calls

def exampleParameters : Parameters where
  sizes := ⟨16, 40, 200, 28, 40, 20, 100⟩
  config := ⟨true, 1500, 0, 0, [], 0⟩
  rss := ⟨1, id⟩

/-- The MTU is set before the halt; a flush comes after it. -/
theorem no_ndisCall_after_halt_lateFlush :
    ∃ s, (machine exampleParameters).ReachableWithin CallsEndBeforeHalt s ∧
      (s.halted = true ∧ s.ndisCalls.map Prod.fst = [.indicateStatusEx]) ∧
      ∀ r ∈ s.ndisCalls, r.2 = false :=
  (Machine.exists_reachableWithin_of_run _
    [.rx (.start .open), .status 0 (.start (.setMtu 4 1514)),
      .status 0 (.advance 0), .halt, .rx (.start (.flush 0 ⟨8, none, false⟩))]
    (by decide +kernel)).imp fun s ⟨hs, hP⟩ =>
      ⟨hs, hP, no_ndisCall_after_halt hs⟩

/-- On a handle opened before the halt, the MTU is set after it. -/
theorem setMtu_calls_ndis_after_halt :
    ∃ s, (machine exampleParameters).Reachable s ∧
      s.ndisCalls = [(.indicateStatusEx, true)] :=
  Machine.exists_reachable_of_run
    [.rx (.start .open), .halt, .status 0 (.start (.setMtu 4 1514)),
      .status 0 (.advance 0)]
    (by decide +kernel)

end WinNetTest.Fnmp.Miniport
