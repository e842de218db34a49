import WinNetTest.Isr.RelaySessions

/-!
# The request queue under any use

The request queue of the relay has two registrations, one for the client and
one for the service.  Here it is driven by everything its interface allows:
each pair of registration functions has one owner, which registers and
deregisters in turn, and any number of pushes, completions and pops run
beside the two owners.  The callbacks are arbitrary: one that has been called
returns at some time, and what it does to the queue are pops like any other.

Beside the state of the driver are recorded the phase of each owner, how often
each run-down reference has been initialised, and the events, the latest first.
-/

namespace WinNetTest.Isr.RequestQueue

open Support

/-! ## The owners -/

inductive Phase where
  /-- Nothing has been registered, or the deregistration has returned. -/
  | unregistered
  /-- In the registration, before the rundown is initialised. -/
  | initializing
  /-- In the registration, before its lock section. -/
  | registering
  /-- The registration has returned. -/
  | registered
  /-- In the deregistration, before the rundown. -/
  | waiting
  /-- In the deregistration, waiting for the last reference. -/
  | draining
  /-- In the deregistration, before its lock section. -/
  | deregistering
  deriving DecidableEq

/-- The next action of an owner: `RqClientRegister` and `RqClientDeregister`,
or `RqServiceRegister` and `RqServiceDeregister`. -/
def own (x : Shared) (type : FileType) : Phase → Option (Shared × Phase)
  | .unregistered => some (x, .initializing)
  | .initializing =>
    some (x.setParty type { x.party type with rundown := .initialized },
      .registering)
  | .registering =>
    some (x.setParty type { x.party type with isRegistered := true },
      .registered)
  | .registered => some (x, .waiting)
  | .waiting =>
    some (x.setParty type { x.party type with
      rundown := (x.party type).rundown.beginWait }, .draining)
  | .draining =>
    if (x.party type).rundown.released then some (x, .deregistering)
    else none
  | .deregistering =>
    some (x.setParty type { x.party type with isRegistered := false },
      .unregistered)

/-! ## The calls -/

inductive Call where
  /-- `RqClientPushRequest` before its lock section. -/
  | pushing (id : UInt64) (command : List UInt8)
  /-- `RqServiceCompleteRequest` before its lock section. -/
  | completing (request : Request) (result : Int32)
  /-- A reference is held, and the callback is about to be called. -/
  | calling (type : FileType)
  /-- The callback runs. -/
  | running (type : FileType)
  /-- The reference is about to be released. -/
  | releasing (type : FileType)
  deriving DecidableEq

def Call.holds : Call → Option FileType
  | .calling type | .running type | .releasing type => some type
  | _ => none

/-- What the calls do, with the number of the registration that is in place
at the time. -/
inductive Event where
  | acquired (c : ℕ) (type : FileType) (registration : ℕ)
  | called (c : ℕ) (type : FileType) (registration : ℕ)
  | ended (c : ℕ) (type : FileType)
  | released (c : ℕ) (type : FileType) (registration : ℕ)
  /-- No reference was acquired, and the caller gets the status. -/
  | refused (c : ℕ) (status : NtStatus)
  deriving DecidableEq

structure State where
  driver : Shared
  phase : FileType → Phase
  registration : FileType → ℕ
  events : List Event

namespace State

def initial : State where
  driver := .initial
  phase _ := .unregistered
  registration _ := 0
  events := []

def record (x : State) (event : Event) : State :=
  { x with events := event :: x.events }

/-- The end of a lock section that looks for a registration: the section
gives the driver and the position it goes on at. -/
def afterSection (x : State) (c : ℕ) (type : FileType) (driver : Shared) :
    Option Isr.Call → State × Option Call
  | some (.returning status) =>
    (({ x with driver }).record (.refused c status), none)
  | some .pushed =>
    (({ x with driver }).record (.acquired c type (x.registration type)),
      some (.releasing type))
  | _ =>
    (({ x with driver }).record (.acquired c type (x.registration type)),
      some (.calling type))

/-- The next action of an owner.  A rundown that is initialised belongs to a
new registration. -/
def owned (x : State) (type : FileType) (driver : Shared) (phase : Phase) :
    State :=
  { x with
    driver := driver
    phase := Function.update x.phase type phase
    registration := if x.phase type = .initializing then
        Function.update x.registration type (x.registration type + 1)
      else x.registration }

def releaseRundown (x : State) (c : ℕ) (type : FileType) : State :=
  ({ x with
    driver := x.driver.setParty type (x.driver.party type).release }).record
      (.released c type (x.registration type))

end State

inductive Input where
  | push (id : UInt64) (command : List UInt8) (allocated : Bool)
  | complete (request : Request) (result : Int32)
  | pop
  | own (type : FileType)
  deriving DecidableEq

def start (x : State) (c : ℕ) : Input → Option (State × Option Call)
  | .push id command allocated =>
    if allocated then some (x, some (.pushing id command))
    else some (x.record (.refused c .noMemory), none)
  | .complete request result => some (x, some (.completing request result))
  | .pop =>
    match rqServicePopRequest x.driver with
    | none => some (x, none)
    | some (_, driver) => some ({ x with driver }, none)
  | .own type =>
    (own x.driver type (x.phase type)).map fun next =>
      (x.owned type next.1 next.2, none)

def advance (x : State) (c : ℕ) : Call → Option (State × Option Call)
  | .pushing id command =>
    let next := rqClientPushRequest x.driver c id command
    some (x.afterSection c .service next.1 next.2)
  | .completing request result =>
    (serviceIrpPost x.driver (.took request result)).map fun next =>
      x.afterSection c .client next.1 next.2
  | .calling type =>
    some (x.record (.called c type (x.registration type)), some (.running type))
  | .running type =>
    some (x.record (.ended c type), some (.releasing type))
  | .releasing type => some (x.releaseRundown c type, none)

def requestQueue : Program State Call Input where
  init := .initial
  start := start
  advance := advance

/-! ## The actions -/

inductive Action (x : State) (c : ℕ) : Option Call → State → Option Call → Prop
  | empty : Action x c none x none
  | begun (call : Call) (hcall : call.holds = none) :
      Action x c none x (some call)
  | noMemory : Action x c none (x.record (.refused c .noMemory)) none
  | popped (request : Request) (rest : List Request)
      (hqueue : x.driver.queue = request :: rest) :
      Action x c none
        { x with driver := { x.driver with
          queue := rest
          popped := x.driver.popped ++ [request] } } none
  | owned (type : FileType) (driver : Shared) (phase : Phase)
      (hown : own x.driver type (x.phase type) = some (driver, phase)) :
      Action x c none (x.owned type driver phase) none
  | pushRefused (id : UInt64) (command : List UInt8)
      (hacquire : x.driver.service.acquire = none) :
      Action x c (some (.pushing id command))
        (x.record (.refused c .deviceNotReady)) none
  | pushed (id : UInt64) (command : List UInt8) (service : Party)
      (hacquire : x.driver.service.acquire = some service) :
      Action x c (some (.pushing id command))
        (({ x with driver := { x.driver with
            service := service
            queue := x.driver.queue ++ [Request.mk id c command]
            inserted := x.driver.inserted ++ [Request.mk id c command] } }).record
          (.acquired c .service (x.registration .service)))
        (some (if x.driver.queue = [] then .calling .service
          else .releasing .service))
  | completeRefused (request : Request) (result : Int32) :
      Action x c (some (.completing request result))
        (({ x with driver := { x.driver with
            dropped := x.driver.dropped ++ [request] } }).record
          (.refused c .success)) none
  | completed (request : Request) (result : Int32) (client : Party)
      (hacquire : x.driver.client.acquire = some client) :
      Action x c (some (.completing request result))
        (({ x with driver := { x.driver with client := client } }).record
          (.acquired c .client (x.registration .client)))
        (some (.calling .client))
  | called (type : FileType) : Action x c (some (.calling type))
        (x.record (.called c type (x.registration type)))
        (some (.running type))
  | ended (type : FileType) :
      Action x c (some (.running type)) (x.record (.ended c type))
        (some (.releasing type))
  | released (type : FileType) :
      Action x c (some (.releasing type)) (x.releaseRundown c type) none

namespace Action

variable {x y : State} {c : ℕ} {after : Option Call}

theorem of_start {input : Input} (h : start x c input = some (y, after)) :
    Action x c none y after := by
  cases input with
  | push id command allocated =>
    simp only [start] at h
    split at h
    · cases h
      exact .begun _ rfl
    · cases h
      exact .noMemory
  | complete request result =>
    cases h
    exact .begun _ rfl
  | pop =>
    simp only [start, rqServicePopRequest] at h
    cases hqueue : x.driver.queue with
    | nil =>
      simp only [hqueue] at h
      cases h
      exact .empty
    | cons request rest =>
      simp only [hqueue] at h
      cases h
      exact .popped request rest hqueue
  | own type =>
    obtain ⟨⟨driver, phase⟩, hown, hnext⟩ := Option.map_eq_some_iff.mp h
    cases hnext
    exact .owned type driver phase hown

theorem of_push {id : UInt64} {command : List UInt8}
    (h : advance x c (.pushing id command) = some (y, after)) :
    Action x c (some (.pushing id command)) y after := by
  simp only [advance, rqClientPushRequest] at h
  cases hacquire : x.driver.service.acquire with
  | none =>
    simp only [hacquire] at h
    cases h
    exact .pushRefused id command hacquire
  | some service =>
    have hact := Action.pushed (x := x) (c := c) id command service hacquire
    simp only [hacquire] at h
    split_ifs at h with hqueue
    · rw [if_pos hqueue] at hact
      cases h
      exact hact
    · rw [if_neg hqueue] at hact
      cases h
      exact hact

theorem of_advance {call : Call} (h : advance x c call = some (y, after)) :
    Action x c (some call) y after := by
  cases call with
  | pushing id command => exact of_push h
  | completing request result =>
    simp only [advance, serviceIrpPost] at h
    cases hacquire : x.driver.client.acquire with
    | none =>
      simp only [hacquire] at h
      cases h
      exact .completeRefused request result
    | some client =>
      simp only [hacquire] at h
      cases h
      exact .completed request result client hacquire
  | calling type =>
    cases h
    exact .called type
  | running type =>
    cases h
    exact .ended type
  | releasing type =>
    cases h
    exact .released type

theorem of_turn {s : Pool State Call} {n : ℕ} {before : Option Call}
    (h : requestQueue.Turn s c before n y after) :
    Action s.shared c before y after := by
  cases h with
  | start hc hstart => exact of_start hstart
  | advance hc hadvance => exact of_advance hadvance

end Action

end WinNetTest.Isr.RequestQueue
