import WinNetTest.Isr.RequestQueue

/-!
# Quiescence of the registrations

References are granted only between the lock section of a registration and
the rundown of its deregistration, and the lock section of the deregistration
is entered without references.  So when a deregistration has returned no
callback is running, none is started before the next registration, and the
rundown that the next registration initialises is not referenced: a reference
is released against the registration it was acquired against.
-/

namespace WinNetTest.Isr.RequestQueue

open Support

/-! ## The rundown of a registration -/

/-- The phases in which `IsRegistered` is set. -/
def Phase.flag : Phase → Bool
  | .registered | .waiting | .draining | .deregistering => true
  | _ => false

def Phase.quiet : Phase → Bool
  | .registered | .waiting | .draining => false
  | _ => true

structure Agrees (phase : Phase) (p : Party) : Prop where
  flag : p.isRegistered = phase.flag
  inactive : phase = .draining ∨ phase = .deregistering →
    p.rundown.active = false
  quiet : phase.quiet = true → p.rundown.count = 0

variable {phase : Phase}

theorem Agrees.acquire {p p' : Party} (h : Agrees phase p)
    (hacquire : p.acquire = some p') :
    phase.quiet = false ∧ Agrees phase p' ∧
      p'.rundown.count = p.rundown.count + 1 := by
  have hsame := acquire_eq hacquire
  have hgranted : p.isRegistered = true ∧ p.rundown.active = true ∧
      p'.rundown.count = p.rundown.count + 1 := by
    unfold Party.acquire Rundown.acquire at hacquire
    split_ifs at hacquire with hflag hactive
    · cases hacquire
      exact ⟨hflag, hactive, rfl⟩
    · cases hacquire
  obtain ⟨hflag, hactive, hcount⟩ := hgranted
  have hquiet : phase.quiet = false := by
    have hphase := h.flag.symm.trans hflag
    have hinactive := h.inactive
    rw [hactive] at hinactive
    cases phase <;> simp_all [Phase.flag, Phase.quiet]
  refine ⟨hquiet, ⟨hsame.2.1.trans h.flag, ?_, ?_⟩, hcount⟩
  · intro hphase
    exact hsame.2.2.trans (h.inactive hphase)
  · intro hphase
    rw [hquiet] at hphase
    cases hphase

theorem Agrees.release {p : Party} (h : Agrees phase p) :
    Agrees phase p.release := by
  refine ⟨h.flag, h.inactive, ?_⟩
  intro hphase
  have hcount := h.quiet hphase
  simp only [Party.release, Rundown.release, hcount]

theorem Agrees.own {x y : Shared} {type : FileType} {phase' : Phase}
    (h : Agrees phase (x.party type))
    (hown : own x type phase = some (y, phase')) :
    Agrees phase' (y.party type) ∧
      (y.party type).rundown.count = (x.party type).rundown.count ∧
      ∀ type', type' ≠ type → y.party type' = x.party type' := by
  have hother : ∀ (p : Party) type', type' ≠ type →
      (x.setParty type p).party type' = x.party type' :=
    fun p _ htype => party_setParty_ne x p htype
  cases phase with
  | unregistered =>
    cases hown
    exact ⟨⟨h.flag, by simp, fun _ => h.quiet rfl⟩, rfl, fun _ _ => rfl⟩
  | initializing =>
    cases hown
    refine ⟨?_, ?_, hother _⟩
    · rw [party_setParty_self]
      exact ⟨h.flag, by simp, fun _ => rfl⟩
    · rw [party_setParty_self]
      exact (h.quiet rfl).symm
  | registering =>
    cases hown
    rw [party_setParty_self]
    exact ⟨⟨rfl, by simp, by simp [Phase.quiet]⟩, rfl, hother _⟩
  | registered =>
    cases hown
    exact ⟨⟨h.flag, by simp, by simp [Phase.quiet]⟩, rfl, fun _ _ => rfl⟩
  | waiting =>
    cases hown
    rw [party_setParty_self]
    exact ⟨⟨h.flag, fun _ => rfl, by simp [Phase.quiet]⟩, rfl, hother _⟩
  | draining =>
    simp only [RequestQueue.own] at hown
    split at hown
    · rename_i hreleased
      cases hown
      exact ⟨⟨h.flag, fun _ => h.inactive (Or.inl rfl),
        fun _ => by simpa [Rundown.released] using hreleased⟩, rfl,
        fun _ _ => rfl⟩
    · cases hown
  | deregistering =>
    cases hown
    rw [party_setParty_self]
    exact ⟨⟨rfl, by simp, fun _ => h.quiet rfl⟩, rfl, hother _⟩

/-! ## One action -/

section Steps

variable {x y : State} {c : ℕ} {before after : Option Call}

theorem Action.agrees (h : Action x c before y after)
    (hx : ∀ type, Agrees (x.phase type) (x.driver.party type))
    (type : FileType) : Agrees (y.phase type) (y.driver.party type) := by
  cases h with
  | owned type' driver phase hown =>
    obtain ⟨hagrees, -, hother⟩ := (hx type').own hown
    by_cases htype : type = type'
    · subst htype
      simpa [State.owned] using hagrees
    · have hparty : (x.owned type' driver phase).driver.party type =
          x.driver.party type := hother type htype
      rw [hparty]
      simpa [State.owned, Function.update_of_ne htype] using hx type
  | pushed id command service hacquire =>
    cases type with
    | client => exact hx .client
    | service => exact ((hx .service).acquire hacquire).2.1
  | completed request result client hacquire =>
    cases type with
    | client => exact ((hx .client).acquire hacquire).2.1
    | service => exact hx .service
  | released type' =>
    by_cases htype : type = type'
    · subst htype
      simpa [State.releaseRundown, State.record] using (hx type).release
    · have hparty := party_setParty_ne x.driver
        (x.driver.party type').release htype
      simpa [State.releaseRundown, State.record, hparty] using hx type
  | _ => exact hx type

def Call.references (type : FileType) (call : Call) : ℕ :=
  if call.holds = some type then 1 else 0

theorem Action.count (h : Action x c before y after)
    (hx : ∀ type, Agrees (x.phase type) (x.driver.party type))
    (type : FileType)
    (hheld : before.elim 0 (Call.references type) ≤
      (x.driver.party type).rundown.count) :
    (y.driver.party type).rundown.count + before.elim 0 (Call.references type) =
      (x.driver.party type).rundown.count +
        after.elim 0 (Call.references type) := by
  cases h with
  | begun call hcall => simp [Call.references, hcall]
  | owned type' driver phase hown =>
    obtain ⟨-, hcount, hother⟩ := (hx type').own hown
    by_cases htype : type = type'
    · subst htype
      simpa [State.owned] using hcount
    · simpa [State.owned] using
        congrArg (fun p => p.rundown.count) (hother type htype)
  | pushed id command service hacquire =>
    have hcount := ((hx .service).acquire hacquire).2.2
    cases type with
    | client =>
      split <;> rfl
    | service =>
      split <;> exact hcount
  | completed request result client hacquire =>
    have hcount := ((hx .client).acquire hacquire).2.2
    cases type with
    | client => exact hcount
    | service => rfl
  | released type' =>
    by_cases htype : type = type'
    · subst htype
      simp only [Option.elim_some, Call.references, Call.holds,
        if_true] at hheld ⊢
      simp only [State.releaseRundown, State.record, party_setParty_self,
        Party.release, Rundown.release, Option.elim_none]
      omega
    · have hparty := party_setParty_ne x.driver
        (x.driver.party type').release htype
      have hne : ¬(some type' = some type) := fun h =>
        htype (Option.some.inj h).symm
      simp [State.releaseRundown, State.record, hparty, Call.references,
        Call.holds, hne]
  | _ => rfl

/-! ## The events of one call -/

def Event.concerns (c : ℕ) : Event → Bool
  | .acquired c' _ _ | .released c' _ _ => c' = c
  | _ => false

def references (c : ℕ) (events : List Event) : List Event :=
  events.filter (Event.concerns c)

/-- A call that has no reference, one that holds a reference on the
registration in place, and one that has released its reference against the
registration it was acquired against. -/
def Course (x : State) (c : ℕ) : Option Call → Prop
  | none => references c x.events = [] ∨ ∃ type registration,
      references c x.events =
        [.released c type registration, .acquired c type registration]
  | some call => references c x.events =
      (call.holds.map fun type => .acquired c type (x.registration type)).toList

section

variable (h : Action x c before y after)

include h

variable {c' : ℕ}

theorem Action.references_eq (hc : c' ≠ c) :
    references c' y.events = references c' x.events := by
  cases h <;> simp [references, State.record, State.releaseRundown, State.owned,
      Event.concerns, hc.symm]

theorem Action.registration_eq (type : FileType) :
    y.registration type = x.registration type ∨
      (x.phase type).quiet = true := by
  cases h with
  | owned type' driver phase hown =>
    by_cases hphase : x.phase type' = .initializing
    · by_cases htype : type = type'
      · subst htype
        exact Or.inr (by rw [hphase]; rfl)
      · exact Or.inl (by simp [State.owned, hphase, htype])
    · exact Or.inl (by simp [State.owned, hphase])
  | _ => exact Or.inl rfl

theorem Action.course (hfresh : before = none → references c x.events = [])
    (hx : ∀ call ∈ before, Course x c (some call)) : Course y c after := by
  cases h with
  | begun call hcall => simpa [Course, hcall] using hfresh rfl
  | pushRefused | completeRefused => exact Or.inl (hx _ rfl)
  | pushed id command service hacquire =>
    have hnone := hx _ rfl
    split
    all_goals
      simpa [Course, references, State.record, Event.concerns, Call.holds]
        using hnone
  | completed request result client hacquire =>
    simpa [Course, references, State.record, Event.concerns, Call.holds]
      using hx _ rfl
  | called type => exact hx (.calling type) rfl
  | ended type => exact hx (.running type) rfl
  | released type =>
    refine Or.inr ⟨type, x.registration type, ?_⟩
    have hheld : references c x.events =
        [.acquired c type (x.registration type)] := hx _ rfl
    simpa [references, State.releaseRundown, State.record, Event.concerns]
      using hheld
  | _ => exact Or.inl (hfresh rfl)

theorem Action.refused_cases {status : NtStatus}
    (hmem : .refused c' status ∈ y.events) :
    .refused c' status ∈ x.events ∨ (c' = c ∧ after = none ∧
      (∀ call ∈ before, call.holds = none) ∧
      references c y.events = references c x.events) := by
  have hnew : ∀ {status' : NtStatus},
      .refused c' status ∈ Event.refused c status' :: x.events →
      .refused c' status ∈ x.events ∨ c' = c := by
    intro status' hmem
    rcases List.mem_cons.mp hmem with heq | hold
    · cases heq
      exact Or.inr rfl
    · exact Or.inl hold
  cases h with
  | noMemory =>
    exact (hnew hmem).imp_right fun hc => ⟨hc, rfl, by simp, rfl⟩
  | pushRefused | completeRefused =>
    exact (hnew hmem).imp_right fun hc =>
      ⟨hc, rfl, by simp [Call.holds], rfl⟩
  | empty | begun | popped | owned => exact Or.inl hmem
  | _ => exact Or.inl ((List.mem_cons.mp hmem).resolve_left (by simp))

theorem Action.called_cases {type : FileType} {registration : ℕ}
    (hevents : y.events = .called c' type registration :: x.events) :
    ∃ call, before = some call ∧ call.holds = some type := by
  cases h with
  | called type' =>
    cases List.head_eq_of_cons_eq hevents
    exact ⟨_, rfl, rfl⟩
  | empty | begun | popped | owned =>
    exact absurd hevents (List.cons_ne_self _ _).symm
  | _ => cases List.head_eq_of_cons_eq hevents

end

/-- What has been inserted into the queue leaves it at the head, and it was
inserted by a call that acquired a reference on the service. -/
structure Fed (x : State) : Prop where
  queue : x.driver.inserted = x.driver.popped ++ x.driver.queue
  acquired : ∀ request ∈ x.driver.inserted, ∃ registration,
    .acquired request.clientContext .service registration ∈ x.events

theorem own_queue {x y : Shared} {type : FileType} {phase phase' : Phase}
    (hown : own x type phase = some (y, phase')) :
    y.inserted = x.inserted ∧ y.popped = x.popped ∧ y.queue = x.queue := by
  cases phase with
  | draining =>
    simp only [own] at hown
    split at hown
    · cases hown
      exact ⟨rfl, rfl, rfl⟩
    · cases hown
  | _ =>
    cases hown
    exact ⟨rfl, rfl, rfl⟩

theorem Action.fed (h : Action x c before y after) (hx : Fed x) : Fed y := by
  have hcons : ∀ (driver : Shared) (event : Event),
      driver.inserted = x.driver.inserted → driver.popped = x.driver.popped →
      driver.queue = x.driver.queue →
      Fed (({ x with driver }).record event) := by
    intro driver event hinserted hpopped hqueue
    refine ⟨?_, ?_⟩
    · simpa [State.record, hinserted, hpopped, hqueue] using hx.queue
    · intro request hmem
      obtain ⟨registration, hevent⟩ :=
        hx.acquired request (by simpa [State.record, hinserted] using hmem)
      exact ⟨registration, List.mem_cons_of_mem _ hevent⟩
  cases h with
  | empty | begun => exact hx
  | popped request rest hqueue =>
    exact ⟨by simp [hx.queue, hqueue], hx.acquired⟩
  | owned type driver phase hown =>
    obtain ⟨hinserted, hpopped, hqueue⟩ := own_queue hown
    refine ⟨?_, ?_⟩
    · simpa [State.owned, hinserted, hpopped, hqueue] using hx.queue
    · simpa [State.owned, hinserted] using hx.acquired
  | pushed id command service hacquire =>
    refine ⟨by simp [State.record, hx.queue], ?_⟩
    intro request hmem
    rcases List.mem_append.mp hmem with hold | hnew
    · obtain ⟨registration, hevent⟩ := hx.acquired request hold
      exact ⟨registration, List.mem_cons_of_mem _ hevent⟩
    · cases List.mem_singleton.mp hnew
      exact ⟨x.registration .service, List.mem_cons_self ..⟩
  | released type => exact hcons _ _ rfl rfl rfl
  | _ => exact hcons _ _ rfl rfl rfl

end Steps

/-! ## Every run -/

section Runs

variable {s : Pool State Call}

section

variable (hs : requestQueue.machine.Reachable s)

include hs

theorem agrees_of_reachable (type : FileType) :
    Agrees (s.shared.phase type) (s.shared.driver.party type) := by
  refine Program.invariant
    (I := fun s => ∀ type,
      Agrees (s.shared.phase type) (s.shared.driver.party type)) ?_ ?_ hs type
  · intro type
    cases type <;> exact ⟨rfl, by simp [requestQueue, Program.machine,
      State.initial], fun _ => rfl⟩
  · intro s c before n y after _ ih _ hturn
    exact (Action.of_turn hturn).agrees ih

theorem count_eq (type : FileType) :
    (s.shared.driver.party type).rundown.count =
      s.calls.total fun _ => Call.references type := by
  have hcount := Program.conserved
    (fun _ => Call.references type)
    (fun x => (x.driver.party type).rundown.count) (fun _ => 0)
    (by cases type <;> rfl) ?_ hs
  · simpa using hcount
  · intro s c before n y after hs ih hbefore hturn
    have hheld : before.elim 0 (Call.references type) ≤
        (s.shared.driver.party type).rundown.count := by
      rw [ih, add_zero]
      cases hcall : before with
      | none => exact Nat.zero_le _
      | some call =>
        rw [hcall] at hbefore
        rw [Table.total_eq_of_lookup _ hbefore]
        exact Nat.le_add_right _ _
    have haction := (Action.of_turn hturn).count (agrees_of_reachable hs) type
      hheld
    simpa using haction

theorem quiet_of_holds {c : ℕ} {call : Call} {type : FileType}
    (hcall : s.calls.lookup c = some call) (hholds : call.holds = some type) :
    (s.shared.phase type).quiet = false := by
  by_contra hquiet
  have hzero := (agrees_of_reachable hs type).quiet (by simpa using hquiet)
  rw [count_eq hs, Table.total_eq_of_lookup _ hcall] at hzero
  simp [Call.references, hholds] at hzero

end

/-- The courses of all calls; a call that has not begun has no reference. -/
structure Courses (s : Pool State Call) : Prop where
  course : ∀ c, Course s.shared c (s.calls.lookup c)
  fresh : ∀ c, s.nextCall ≤ c → references c s.shared.events = []

theorem courses_of_reachable (hs : requestQueue.machine.Reachable s) :
    Courses s := by
  refine Program.invariant ?_ ?_ hs
  · exact ⟨fun c => Or.inl rfl, fun c _ => rfl⟩
  · intro s c before n y after hs ih hbefore hturn
    have haction := Action.of_turn hturn
    refine ⟨?_, ?_⟩
    · intro c'
      rw [Table.lookup_put]
      split
      · rename_i hc
        subst hc
        refine haction.course ?_ ?_
        · rintro rfl
          exact ih.fresh c' hturn.of_none.1.ge
        · rintro call rfl
          exact hbefore ▸ ih.course c'
      · rename_i hc
        have hold := ih.course c'
        have href := haction.references_eq hc
        cases hcall : s.calls.lookup c' with
        | none => simpa [Course, hcall, href] using hold
        | some call =>
          rw [hcall] at hold
          rw [Course, href, hold]
          cases hholds : call.holds with
          | none => rfl
          | some type =>
            rcases haction.registration_eq type with heq | hquiet
            · simp [heq]
            · rw [quiet_of_holds hs hcall hholds] at hquiet
              cases hquiet
    · intro c' hc'
      rw [haction.references_eq (hturn.lt.trans_le hc').ne']
      exact ih.fresh c' (hturn.nextCall_le.trans hc')

theorem references_of_refused (hs : requestQueue.machine.Reachable s) {c : ℕ}
    {status : NtStatus} (hmem : .refused c status ∈ s.shared.events) :
    references c s.shared.events = [] := by
  refine (Program.invariant
    (I := fun s => ∀ c status, .refused c status ∈ s.shared.events →
      references c s.shared.events = [] ∧ s.calls.lookup c = none ∧
        c < s.nextCall) ?_ ?_ hs c status hmem).1
  · intro c status hmem
    cases hmem
  · intro s c before n y after hs ih hbefore hturn c' status hmem
    have haction := Action.of_turn hturn
    have hcourses := courses_of_reachable hs
    rcases haction.refused_cases hmem with
      hold | ⟨rfl, rfl, hholds, href⟩
    · obtain ⟨href, hnone, hlt⟩ := ih c' status hold
      have hc : c' ≠ c := by
        rintro rfl
        rw [hnone] at hbefore
        subst hbefore
        exact hlt.ne hturn.of_none.1
      refine ⟨(haction.references_eq hc).trans href, ?_,
        hlt.trans_le hturn.nextCall_le⟩
      rw [Table.lookup_put, if_neg hc]
      exact hnone
    · refine ⟨href.trans ?_, by simp [Table.lookup_put], hturn.lt⟩
      cases before with
      | none => exact hcourses.fresh c' hturn.of_none.1.ge
      | some call =>
        have hcourse := hcourses.course c'
        rw [hbefore] at hcourse
        simpa [Course, hholds call rfl] using hcourse

theorem fed_of_reachable (hs : requestQueue.machine.Reachable s) :
    Fed s.shared := by
  refine Program.invariant (I := fun s => Fed s.shared)
    ?_ ?_ hs
  · exact ⟨rfl, by simp [requestQueue, Program.machine, State.initial,
      Shared.initial]⟩
  · intro s c before n y after _ ih _ hturn
    exact (Action.of_turn hturn).fed ih

def Call.rank : Call → ℕ
  | .pushing _ _ | .completing _ _ => 3
  | .calling _ => 2
  | .running _ => 1
  | .releasing _ => 0

theorem exists_advance (x : State) (c : ℕ) (call : Call) :
    ∃ y after, advance x c call = some (y, after) ∧
      ∀ call' ∈ after, call'.rank < call.rank := by
  have hsection : ∀ (type : FileType) (driver : Shared)
      (position : Option Isr.Call), ∀ call' ∈
        (x.afterSection c type driver position).2, call'.rank < 3 := by
    intro type driver position call' hmem
    unfold State.afterSection at hmem
    split at hmem
    · cases hmem
    · cases hmem
      simp [Call.rank]
    · cases hmem
      simp [Call.rank]
  cases call with
  | pushing id command => exact ⟨_, _, rfl, hsection _ _ _⟩
  | completing request result =>
    obtain ⟨next, hnext⟩ :
        ∃ next, serviceIrpPost x.driver (.took request result) = some next := by
      simp only [serviceIrpPost]
      split <;> exact ⟨_, rfl⟩
    exact ⟨_, _, by rw [advance, hnext]; rfl, hsection .client next.1 next.2⟩
  | calling | running => exact ⟨_, _, rfl, by simp [Call.rank]⟩
  | releasing type => exact ⟨_, _, rfl, by simp⟩

/-! ## The result -/

structure Quiescent (s : Pool State Call) : Prop where
  /-- Between the return of a deregistration and the next registration no
  callback runs or is about to be called: no reference is held at all. -/
  quiet : ∀ type, s.shared.phase type = .unregistered →
    ∀ c call, s.calls.lookup c = some call → call.holds ≠ some type
  /-- Nor is one started. -/
  notStarted : ∀ type, s.shared.phase type = .unregistered →
    ∀ m t, requestQueue.machine.step s m = some t → ∀ c registration,
      t.shared.events ≠ .called c type registration :: s.shared.events
  /-- A push that finds no service returns and leaves the queue alone. -/
  refused : ∀ c id command, s.calls.lookup c = some (.pushing id command) →
    s.shared.driver.service.acquire = none →
    ∃ t, requestQueue.machine.step s (.advance c) = some t ∧
      t.calls.lookup c = none ∧
      t.shared.events = .refused c .deviceNotReady :: s.shared.events ∧
      t.shared.driver.queue = s.shared.driver.queue
  /-- The queue holds what was inserted and not yet popped, in order. -/
  queue : s.shared.driver.inserted =
    s.shared.driver.popped ++ s.shared.driver.queue
  /-- Nothing was inserted by a call that was refused. -/
  notInserted : ∀ c status, .refused c status ∈ s.shared.events →
    ∀ request ∈ s.shared.driver.inserted, request.clientContext ≠ c
  /-- A call under way has acquired no reference, or holds the one it has
  acquired, on the registration that is in place. -/
  held : ∀ c call, s.calls.lookup c = some call →
    references c s.shared.events = (call.holds.map fun type =>
      .acquired c type (s.shared.registration type)).toList
  /-- A call that is over has acquired no reference, or released it once,
  against the registration it was acquired against. -/
  balanced : ∀ c, s.calls.lookup c = none →
    references c s.shared.events = [] ∨ ∃ type registration,
      references c s.shared.events =
        [.released c type registration, .acquired c type registration]
  /-- A call under way needs nothing but its own actions to end. -/
  finishes : ∀ c call, s.calls.lookup c = some call → ∃ n t,
    requestQueue.machine.run s (List.replicate n (.advance c)) = some t ∧
      t.calls.lookup c = none

end Runs

/-- In every interleaving of the owners of the two registrations with any
number of pushes, completions and pops. -/
theorem registrations_quiescent {s : Pool State Call}
    (hs : requestQueue.machine.Reachable s) : Quiescent s := by
  have hquiet : ∀ type, s.shared.phase type = .unregistered →
      ∀ c call, s.calls.lookup c = some call → call.holds ≠ some type := by
    intro type hphase c call hcall hholds
    have hfalse := quiet_of_holds hs hcall hholds
    rw [hphase] at hfalse
    cases hfalse
  have hcourses := courses_of_reachable hs
  have hfed := fed_of_reachable hs
  refine ⟨hquiet, ?_, ?_, hfed.queue, ?_, ?_, ?_, ?_⟩
  · intro type hphase m t hstep c registration hevents
    obtain ⟨c', _, after, n, y, hbefore, hturn, rfl, -⟩ :=
      Program.turn_of_step hs hstep
    obtain ⟨call, rfl, hholds⟩ :=
      (Action.of_turn hturn).called_cases hevents
    exact hquiet type hphase c' call hbefore hholds
  · intro c id command hcall hacquire
    have hadvance : advance s.shared c (.pushing id command) =
        some (s.shared.record (.refused c .deviceNotReady), none) := by
      simp only [advance, rqClientPushRequest, hacquire]
      rfl
    refine ⟨_, Program.step_advance hcall hadvance, ?_, rfl, rfl⟩
    rw [Table.lookup_put, if_pos rfl]
  · intro c status hrefused request hmem hcontext
    obtain ⟨registration, hacquired⟩ := hfed.acquired request hmem
    rw [hcontext] at hacquired
    have hnone := references_of_refused hs hrefused
    have hin : .acquired c .service registration ∈
        references c s.shared.events :=
      List.mem_filter.mpr ⟨hacquired, by simp [Event.concerns]⟩
    rw [hnone] at hin
    cases hin
  · intro c call hcall
    have hcourse := hcourses.course c
    rw [hcall] at hcourse
    exact hcourse
  · intro c hcall
    have hcourse := hcourses.course c
    rw [hcall] at hcourse
    exact hcourse
  · intro c call hcall
    refine Program.exists_run_to_end (fun _ => True) Call.rank ?_ hcall
      trivial
    intro x call _
    obtain ⟨y, after, hadvance, hless⟩ := exists_advance x c call
    exact ⟨y, after, hadvance, fun next hnext => ⟨trivial, hless next hnext⟩⟩

/-- The service is deregistered while its callback runs, a push is refused,
and after the next registration another push holds a reference. -/
theorem registrations_quiescent_twice : ∃ s, requestQueue.machine.Reachable s ∧
      (s.shared.registration .service = 2 ∧ references 3 s.shared.events =
          [.released 3 .service 1, .acquired 3 .service 1] ∧
        .refused 8 .deviceNotReady ∈ s.shared.events ∧
        s.calls.lookup 12 = some (.releasing .service)) ∧
      Quiescent s :=
  (Machine.exists_reachable_of_run
      ([.start (.own .service), .start (.own .service), .start (.own .service),
      .start (.push 1 [97] true), .advance 3, .advance 3,
      .start (.own .service), .start (.own .service), .advance 3, .advance 3,
      .start (.own .service), .start (.own .service),
      .start (.push 2 [98] true), .advance 8,
      .start (.own .service), .start (.own .service), .start (.own .service),
      .start (.push 3 [99] true), .advance 12]) (by decide +kernel)).imp
      fun s ⟨hs, hP⟩ => ⟨hs, hP, registrations_quiescent hs⟩

end WinNetTest.Isr.RequestQueue
