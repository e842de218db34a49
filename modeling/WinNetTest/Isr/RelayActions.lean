import WinNetTest.Isr.Relay

/-!
# What the calls of the relay do

`Action` lists every action of every call with its guards and its effect;
each invariant of the relay is then a case analysis over it.  The actions of
creating and closing handles only touch the two parties and the table of open
handles, and are listed apart.
-/

namespace WinNetTest.Isr

open Support

inductive SessionAction (x : Shared) : Option Call → Shared → Option Call → Prop
  | refused : SessionAction x none x none
  | create (type : FileType) (hslot : (x.party type).userContext = none) :
      SessionAction x none
        ({ x with nextFile := x.nextFile + 1 }.setParty type
          { x.party type with userContext := some x.nextFile })
        (some (.registering type x.nextFile))
  | initRundown (type : FileType) (file : ℕ) :
      SessionAction x (some (.registering type file))
        (x.setParty type { x.party type with rundown := .initialized })
        (some (.registered type file))
  | register (type : FileType) (file : ℕ) :
      SessionAction x (some (.registered type file))
        ({ x with files := x.files.insert file type }.setParty type
          { x.party type with isRegistered := true }) none
  | close (type : FileType) (file : ℕ)
      (hfile : x.files.lookup file = some type)
      (hirps : ∀ c i, x.irps.lookup c = some i → i.file = file →
        c ∈ x.completedIrps) :
      SessionAction x none { x with files := x.files.erase file }
        (some (.closing type file .wait))
  | beginWait (type : FileType) (file : ℕ) :
      SessionAction x (some (.closing type file .wait))
        (x.setParty type { x.party type with
          rundown := (x.party type).rundown.beginWait })
        (some (.closing type file .drain))
  | drained (type : FileType) (file : ℕ)
      (hreleased : (x.party type).rundown.released = true) :
      SessionAction x (some (.closing type file .drain)) x
        (some (.closing type file .deregister))
  | deregister (type : FileType) (file : ℕ) :
      SessionAction x (some (.closing type file .deregister))
        (x.setParty type { x.party type with isRegistered := false })
        (some (.closing type file .release))
  | release (type : FileType) (file : ℕ) :
      SessionAction x (some (.closing type file .release))
        (x.setParty type { x.party type with
          userContext := if (x.party type).userContext = some file then none
            else (x.party type).userContext }) none

theorem SessionAction.frame {x y : Shared} {before after : Option Call}
    (h : SessionAction x before y after) :
    ∃ client service files nextFile, y = { x with
      client := client
      service := service
      files := files
      nextFile := nextFile } := by
  cases h <;> exact ⟨_, _, _, _, rfl⟩

inductive Action (x : Shared) (c : ℕ) :
    Option Call → Shared → Option Call → Prop
  | session {before after : Option Call} {y : Shared}
      (h : SessionAction x before y after) : Action x c before y after
  | refuse (file : ℕ) (type : FileType) (status : NtStatus)
      (hfile : x.files.lookup file = some type) (hstatus : status ≠ .pending) :
      Action x c none (x.newIrp c file type) (some (.returning status))
  | noMemory (file : ℕ) (hfile : x.files.lookup file = some .client) :
      Action x c none
        { x with
          irps := x.irps.insert c ⟨file, .client, false, false, none⟩
          uniqueId := x.uniqueId + 1
          assigned := x.assigned ++ [(c, x.uniqueId + 1)] }
        (some (.returning .noMemory))
  | submit (file : ℕ) (command : List UInt8)
      (hfile : x.files.lookup file = some .client) :
      Action x c none
        { x with
          irps := x.irps.insert c ⟨file, .client, false, false, none⟩
          uniqueId := x.uniqueId + 1
          assigned := x.assigned ++ [(c, x.uniqueId + 1)] }
        (some (.submitting (x.uniqueId + 1) command))
  | get (file : ℕ) (hfile : x.files.lookup file = some .service) :
      Action x c none (x.newIrp c file .service) (some (.getting .acquire))
  | post (file : ℕ) (id : UInt64) (result : Int32)
      (hfile : x.files.lookup file = some .service) :
      Action x c none
        { x with
          irps := x.irps.insert c ⟨file, .service, false, false, none⟩
          posts := x.posts ++ [(id, result)] }
        (some (.posting (.acquire id result)))
  | return_ (status : NtStatus) (hstatus : status ≠ .pending) :
      Action x c (some (.returning status)) (x.ioCompleteRequest c status) none
  | returnPending : Action x c (some (.returning .pending)) x none
  | pushRefused (id : UInt64) (command : List UInt8) :
      Action x c (some (.submitting id command)) x
        (some (.returning .deviceNotReady))
  | push (id : UInt64) (command : List UInt8) (service : Party)
      (hacquire : x.service.acquire = some service) :
      Action x c (some (.submitting id command))
        { x with
          service := service
          queue := x.queue ++ [⟨id, c, command⟩]
          inserted := x.inserted ++ [⟨id, c, command⟩] }
        (if x.queue = [] then some (.notifying .acquire) else some .pushed)
  | pushReturn :
      Action x c (some .pushed) { x with service := x.service.release } none
  | notifySkip (hlock : x.lock = none) (hirp : x.pendingIrp = none) :
      Action x c (some (.notifying .acquire)) x (some .pushed)
  | notifyLock (hlock : x.lock = none) (hirp : x.pendingIrp ≠ none) :
      Action x c (some (.notifying .acquire)) { x with lock := some c }
        (some (.notifying .pop))
  | notifyEmpty (hqueue : x.queue = []) :
      Action x c (some (.notifying .pop)) x (some (.notifying (.release none)))
  | notifyPop (request : Request) (rest : List Request)
      (hqueue : x.queue = request :: rest) :
      Action x c (some (.notifying .pop))
        { x with queue := rest, popped := x.popped ++ [request] }
        (some (.notifying (.took request)))
  | notifyFault (request : Request) (hirp : x.pendingIrp = none) :
      Action x c (some (.notifying (.took request))) x.faulted
        (some (.notifying (.took request)))
  | notifyStore (request : Request) (irp : ℕ) (i : Irp)
      (hirp : x.pendingIrp = some irp) (hi : x.irps.lookup irp = some i) :
      Action x c (some (.notifying (.took request)))
        { x with
          pendingIrp := none
          irps := x.irps.insert irp
            { i with output := some (request.id, request.command) }
          pendingRequest := some request
          handed := x.handed ++ [(request, irp)] }
        (some (.notifying (.uncancel irp)))
  | notifyUncancel (irp : ℕ) (i : Irp) (hi : x.irps.lookup irp = some i)
      (hset : i.cancelRoutine = true) :
      Action x c (some (.notifying (.uncancel irp)))
        { x with irps := x.irps.insert irp { i with cancelRoutine := false } }
        (some (.notifying (.release (some irp))))
  | notifyClaimed (irp : ℕ)
      (hclaimed : ∀ i, x.irps.lookup irp = some i → i.cancelRoutine = false) :
      Action x c (some (.notifying (.uncancel irp))) x
        (some (.notifying (.release none)))
  | notifyUnlock :
      Action x c (some (.notifying (.release none))) { x with lock := none }
        (some .pushed)
  | notifyUnlockIrp (irp : ℕ) :
      Action x c (some (.notifying (.release (some irp))))
        { x with lock := none } (some (.notifying (.complete irp)))
  | notifyComplete (irp : ℕ) : Action x c (some (.notifying (.complete irp)))
        (x.ioCompleteRequest irp .success) (some .pushed)
  | getRefused (hlock : x.lock = none) :
      Action x c (some (.getting .acquire)) x (some (.returning .notSupported))
  | getLock (hlock : x.lock = none) (hirp : x.pendingIrp = none)
      (hrequest : x.pendingRequest = none) :
      Action x c (some (.getting .acquire)) { x with lock := some c }
        (some (.getting .pop))
  | getEmpty (hqueue : x.queue = []) :
      Action x c (some (.getting .pop)) x (some (.getting .pend))
  | getPop (request : Request) (rest : List Request)
      (hqueue : x.queue = request :: rest) :
      Action x c (some (.getting .pop))
        { x with queue := rest, popped := x.popped ++ [request] }
        (some (.getting (.took request)))
  | getStore (request : Request) (i : Irp) (hi : x.irps.lookup c = some i) :
      Action x c (some (.getting (.took request)))
        { x with
          irps := x.irps.insert c
            { i with output := some (request.id, request.command) }
          pendingRequest := some request
          handed := x.handed ++ [(request, c)] }
        (some (.getting (.release .success)))
  | getPend (i : Irp) (hi : x.irps.lookup c = some i) :
      Action x c (some (.getting .pend))
        { x with
          pendingIrp := some c
          irps := x.irps.insert c { i with cancelRoutine := true } }
        (some (.getting .check))
  | getCheck : Action x c (some (.getting .check)) x (some (.getting .uncancel))
  | getPended :
      Action x c (some (.getting .check)) x (some (.getting (.release .pending)))
  | getUncancel (i : Irp) (hi : x.irps.lookup c = some i)
      (hset : i.cancelRoutine = true) :
      Action x c (some (.getting .uncancel))
        { x with
          irps := x.irps.insert c { i with cancelRoutine := false }
          pendingIrp := none }
        (some (.getting (.release .cancelled)))
  | getClaimed : Action x c (some (.getting .uncancel)) x
        (some (.getting (.release .pending)))
  | getUnlock (status : NtStatus) :
      Action x c (some (.getting (.release status))) { x with lock := none }
        (some (.returning status))
  | postFault (id : UInt64) (result : Int32) (hlock : x.lock = none)
      (hrequest : x.pendingRequest = none) :
      Action x c (some (.posting (.acquire id result))) x.faulted
        (some (.posting (.acquire id result)))
  | postTake (request : Request) (result : Int32) (hlock : x.lock = none)
      (hrequest : x.pendingRequest = some request) :
      Action x c (some (.posting (.acquire request.id result)))
        { x with pendingRequest := none }
        (some (.posting (.took request result)))
  | postMiss (id : UInt64) (result : Int32) (hlock : x.lock = none) :
      Action x c (some (.posting (.acquire id result))) x
        (some (.returning .notFound))
  | postDrop (request : Request) (result : Int32)
      (hacquire : x.client.acquire = none) :
      Action x c (some (.posting (.took request result)))
        { x with dropped := x.dropped ++ [request] }
        (some (.returning .success))
  | postAcquire (request : Request) (result : Int32) (client : Party)
      (hacquire : x.client.acquire = some client) :
      Action x c (some (.posting (.took request result)))
        { x with client := client } (some (.posting (.callback request result)))
  | postCallback (request : Request) (result : Int32) :
      Action x c (some (.posting (.callback request result)))
        (clientRequestComplete x request result) (some (.posting .release))
  | postRelease : Action x c (some (.posting .release))
        { x with client := x.client.release } (some (.returning .success))
  | cancel (irp : ℕ) (i : Irp) (hi : x.irps.lookup irp = some i)
      (hirp : irp ∉ x.completedIrps) :
      Action x c none
        { x with irps := x.irps.insert irp { i with cancel := true } }
        (some (.cancelling irp .exchange))
  | cancelClaim (irp : ℕ) (i : Irp) (hi : x.irps.lookup irp = some i)
      (hset : i.cancelRoutine = true) :
      Action x c (some (.cancelling irp .exchange))
        { x with irps := x.irps.insert irp { i with cancelRoutine := false } }
        (some (.cancelling irp .routine))
  | cancelNothing (irp : ℕ) : Action x c (some (.cancelling irp .exchange)) x none
  | cancelRoutine (irp : ℕ) (hlock : x.lock = none) :
      Action x c (some (.cancelling irp .routine))
        { x with
          pendingIrp := if x.pendingIrp = some irp then none
            else x.pendingIrp }
        (some (.cancelling irp .complete))
  | cancelComplete (irp : ℕ) : Action x c (some (.cancelling irp .complete))
        (x.ioCompleteRequest irp .cancelled) none

theorem clearCancelRoutine_cases (x : Shared) (irp : ℕ) :
    (∃ i, x.irps.lookup irp = some i ∧ i.cancelRoutine = true ∧
      x.clearCancelRoutine irp = (true, { x with
        irps := x.irps.insert irp { i with cancelRoutine := false } })) ∨
    ((∀ i, x.irps.lookup irp = some i → i.cancelRoutine = false) ∧
      x.clearCancelRoutine irp = (false, x)) := by
  unfold Shared.clearCancelRoutine
  cases hi : x.irps.lookup irp with
  | none => exact Or.inr ⟨by simp, rfl⟩
  | some i =>
    cases hset : i.cancelRoutine with
    | false => exact Or.inr ⟨by simp [hset], by simp [hset]⟩
    | true => exact Or.inl ⟨i, rfl, hset, by simp [hset]⟩

/-! ## Every action of the driver is listed -/

section

variable {x y : Shared} {c : ℕ} {after : Option Call} {file : ℕ}

theorem action_of_clientIrpSubmit {input : SubmitInput} {allocated : Bool}
    (hfile : x.files.lookup file = some .client)
    (h : clientIrpSubmit (x.newIrp c file .client) c input allocated =
      (y, after)) : Action x c none y after := by
  unfold clientIrpSubmit at h
  split_ifs at h
  · cases h
    exact .refuse file .client _ hfile (by decide)
  · cases h
    exact .refuse file .client _ hfile (by decide)
  · cases h
    exact .submit file _ hfile
  · cases h
    exact .noMemory file hfile

theorem action_of_isrIrpIoctl {type : FileType} {ioctl : Ioctl}
    (hfile : x.files.lookup file = some type)
    (h : isrIrpIoctl (x.newIrp c file type) c type ioctl = (y, after)) :
    Action x c none y after := by
  unfold isrIrpIoctl at h
  split at h
  · exact action_of_clientIrpSubmit hfile h
  · split_ifs at h
    · cases h
      exact .refuse file _ _ hfile (by decide)
    · cases h
      exact .get file hfile
  · split_ifs at h
    · cases h
      exact .refuse file _ _ hfile (by decide)
    · cases h
      exact .post file _ _ hfile
  · cases h
    exact .refuse file _ _ hfile (by decide)

theorem action_of_start {input : Input}
    (h : start x c input = some (y, after)) : Action x c none y after := by
  cases input with
  | ioctl file ioctl =>
    obtain ⟨type, hfile, hioctl⟩ := Option.map_eq_some_iff.mp h
    exact action_of_isrIrpIoctl hfile hioctl
  | cancel irp =>
    rw [start] at h
    split at h
    · cases h
    · rename_i hirp
      obtain ⟨i, hi, hnext⟩ := Option.map_eq_some_iff.mp h
      cases hnext
      exact .cancel irp i hi hirp
  | create type allocated =>
    simp only [start] at h
    split at h
    · cases h
      exact .session .refused
    · rename_i hslot
      cases h
      exact .session (.create type (by simpa using (not_or.mp hslot).2))
  | close file =>
    rw [start] at h
    split at h
    · rename_i hirps
      obtain ⟨type, hfile, hnext⟩ := Option.map_eq_some_iff.mp h
      cases hnext
      exact .session (.close type file hfile fun c i hi hfile =>
        hirps ⟨c, i⟩ (AList.mem_lookup_iff.mp hi) hfile)
    · cases h

theorem action_of_rqClientPushRequest {id : UInt64} {command : List UInt8}
    (h : rqClientPushRequest x c id command = (y, after)) :
    Action x c (some (.submitting id command)) y after := by
  unfold rqClientPushRequest at h
  split at h
  · cases h
    exact .pushRefused id command
  · rename_i service hacquire
    cases h
    exact .push id command service hacquire

theorem action_of_serviceRequestAvailable {position : Notify}
    (h : serviceRequestAvailable x c position = some (y, after)) :
    Action x c (some (.notifying position)) y after := by
  cases position with
  | acquire =>
    simp only [serviceRequestAvailable] at h
    split_ifs at h with hlock hirp
    · cases h
      exact .notifySkip hlock hirp
    · cases h
      exact .notifyLock hlock hirp
  | pop =>
    simp only [serviceRequestAvailable, rqServicePopRequest] at h
    cases hqueue : x.queue with
    | nil =>
      simp only [hqueue] at h
      cases h
      exact .notifyEmpty hqueue
    | cons request rest =>
      simp only [hqueue] at h
      cases h
      exact .notifyPop request rest hqueue
  | took request =>
    simp only [serviceRequestAvailable] at h
    cases hirp : x.pendingIrp with
    | none =>
      simp only [hirp] at h
      cases h
      exact .notifyFault request hirp
    | some irp =>
      simp only [hirp, storeRequest, Option.map_map] at h
      obtain ⟨i, hi, hnext⟩ := Option.map_eq_some_iff.mp h
      cases hnext
      exact .notifyStore request irp i hirp hi
  | uncancel irp =>
    simp only [serviceRequestAvailable] at h
    rcases clearCancelRoutine_cases x irp with
      ⟨i, hi, hset, hclear⟩ | ⟨hclaimed, hclear⟩
    · simp only [hclear] at h
      cases h
      exact .notifyUncancel irp i hi hset
    · simp only [hclear] at h
      cases h
      exact .notifyClaimed irp hclaimed
  | release irp =>
    cases irp with
    | none =>
      cases h
      exact .notifyUnlock
    | some irp =>
      cases h
      exact .notifyUnlockIrp irp
  | complete irp =>
    cases h
    exact .notifyComplete irp

theorem action_of_serviceIrpGet {position : Get}
    (h : serviceIrpGet x c position = some (y, after)) :
    Action x c (some (.getting position)) y after := by
  cases position with
  | acquire =>
    simp only [serviceIrpGet] at h
    split_ifs at h with hlock hbusy
    · cases h
      exact .getRefused hlock
    · cases h
      obtain ⟨hirp, hrequest⟩ := not_or.mp hbusy
      exact .getLock hlock (not_not.mp hirp) (not_not.mp hrequest)
  | pop =>
    simp only [serviceIrpGet, rqServicePopRequest] at h
    cases hqueue : x.queue with
    | nil =>
      simp only [hqueue] at h
      cases h
      exact .getEmpty hqueue
    | cons request rest =>
      simp only [hqueue] at h
      cases h
      exact .getPop request rest hqueue
  | took request =>
    simp only [serviceIrpGet, storeRequest, Option.map_map] at h
    obtain ⟨i, hi, hnext⟩ := Option.map_eq_some_iff.mp h
    cases hnext
    exact .getStore request i hi
  | pend =>
    obtain ⟨i, hi, hnext⟩ := Option.map_eq_some_iff.mp h
    cases hnext
    exact .getPend i hi
  | check =>
    simp only [serviceIrpGet] at h
    split_ifs at h
    · cases h
      exact .getCheck
    · cases h
      exact .getPended
  | uncancel =>
    simp only [serviceIrpGet] at h
    rcases clearCancelRoutine_cases x c with
      ⟨i, hi, hset, hclear⟩ | ⟨-, hclear⟩
    · simp only [hclear] at h
      cases h
      exact .getUncancel i hi hset
    · simp only [hclear] at h
      cases h
      exact .getClaimed
  | release status =>
    cases h
    exact .getUnlock status

theorem action_of_serviceIrpPost {position : Post}
    (h : serviceIrpPost x position = some (y, after)) :
    Action x c (some (.posting position)) y after := by
  cases position with
  | acquire id result =>
    simp only [serviceIrpPost] at h
    split_ifs at h with hlock
    cases hrequest : x.pendingRequest with
    | none =>
      simp only [hrequest] at h
      cases h
      exact .postFault id result hlock hrequest
    | some request =>
      simp only [hrequest] at h
      split_ifs at h with hid
      · subst hid
        cases h
        exact .postTake request result hlock hrequest
      · cases h
        exact .postMiss id result hlock
  | took request result =>
    simp only [serviceIrpPost] at h
    cases hacquire : x.client.acquire with
    | none =>
      simp only [hacquire] at h
      cases h
      exact .postDrop request result hacquire
    | some client =>
      simp only [hacquire] at h
      cases h
      exact .postAcquire request result client hacquire
  | callback request result =>
    cases h
    exact .postCallback request result
  | release =>
    cases h
    exact .postRelease

theorem action_of_serviceCancelGet {irp : ℕ} {position : Cancel}
    (h : serviceCancelGet x irp position = some (y, after)) :
    Action x c (some (.cancelling irp position)) y after := by
  cases position with
  | exchange =>
    simp only [serviceCancelGet] at h
    rcases clearCancelRoutine_cases x irp with
      ⟨i, hi, hset, hclear⟩ | ⟨-, hclear⟩
    · simp only [hclear] at h
      cases h
      exact .cancelClaim irp i hi hset
    · simp only [hclear] at h
      cases h
      exact .cancelNothing irp
  | routine =>
    simp only [serviceCancelGet] at h
    split at h
    · rename_i hlock
      cases h
      exact .cancelRoutine irp hlock
    · cases h
  | complete =>
    cases h
    exact .cancelComplete irp

theorem action_of_irpClose {type : FileType} {position : Close}
    (h : irpClose x type file position = some (y, after)) :
    SessionAction x (some (.closing type file position)) y after := by
  cases position with
  | wait =>
    cases h
    exact .beginWait type file
  | drain =>
    simp only [irpClose] at h
    split at h
    · rename_i hreleased
      cases h
      exact .drained type file hreleased
    · cases h
  | deregister =>
    cases h
    exact .deregister type file
  | release =>
    cases h
    exact .release type file

theorem action_of_advance {call : Call}
    (h : advance x c call = some (y, after)) :
    Action x c (some call) y after := by
  cases call with
  | submitting id command =>
    exact action_of_rqClientPushRequest (Option.some.inj h)
  | notifying position => exact action_of_serviceRequestAvailable h
  | pushed =>
    cases h
    exact .pushReturn
  | getting position => exact action_of_serviceIrpGet h
  | posting position => exact action_of_serviceIrpPost h
  | cancelling irp position => exact action_of_serviceCancelGet h
  | returning status =>
    simp only [advance] at h
    split_ifs at h with hstatus
    · subst hstatus
      cases h
      exact .returnPending
    · cases h
      exact .return_ status hstatus
  | registering type file =>
    cases h
    exact .session (.initRundown type file)
  | registered type file =>
    cases h
    exact .session (.register type file)
  | closing type file position => exact .session (action_of_irpClose h)

end

theorem action_of_turn {s : Pool Shared Call} {c n : ℕ}
    {before after : Option Call} {y : Shared}
    (h : relay.Turn s c before n y after) :
    Action s.shared c before y after ∧ s.shared.fault = false := by
  cases h with
  | start hc hstart =>
    simp only [relay] at hstart
    split at hstart
    · cases hstart
    · rename_i hfault
      exact ⟨action_of_start hstart, by simpa using hfault⟩
  | advance hc hadvance =>
    simp only [relay] at hadvance
    split at hadvance
    · cases hadvance
    · rename_i hfault
      exact ⟨action_of_advance hadvance, by simpa using hfault⟩

end WinNetTest.Isr
