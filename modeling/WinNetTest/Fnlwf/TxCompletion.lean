import WinNetTest.Fnlwf.TxAccounts

/-!
# Completions on the send path of FNLWF

A chain that NDIS completes mixes the filter's own NBLs with those of the
components above.  In every interleaving the filter frees its own after they
have been sent and completed, and never passes them up; the others it passes up
once per completion, in the order of the chain.  With the accounts of places and
references this is what the send path guarantees.
-/

namespace WinNetTest.Fnlwf.Tx

open Support Fnio

variable {ndisFilterHandle : ℕ}

/-! ## The order of the events -/

variable {x y : Shared}

theorem suffix_record {event event' : Event} {earlier : List Event} :
    (event' :: earlier) <:+ (x.record event).events ↔
      (event' = event ∧ earlier = x.events) ∨
        (event' :: earlier) <:+ x.events := by
  rw [Shared.record, List.suffix_cons_iff, List.cons.injEq]

section Step

variable {x y : Shared} {c : ℕ} {before after : Option Call}

theorem Action.events (hact : Action ndisFilterHandle x c before y after) :
    ∀ event ∈ x.events, event ∈ y.events := by
  intro event hevent
  cases hact <;> first
    | exact hevent
    | exact List.mem_cons_of_mem _ hevent

variable {earlier : List Event}

theorem Action.completed_suffix
    (hact : Action ndisFilterHandle x c before y after) {c' : ℕ}
    {nbls : List NblKey} (h : (.completed c' nbls :: earlier) <:+ y.events) :
    (.completed c' nbls :: earlier) <:+ x.events ∨
      (earlier = x.events ∧ ∀ nbl ∈ nbls, nbl ∈ x.ndis) := by
  cases hact with
  | completed hle =>
    rcases suffix_record.mp h with ⟨heq, rfl⟩ | h
    · cases heq
      exact Or.inr ⟨rfl, fun nbl hnbl => Multiset.mem_of_le hle hnbl⟩
    · exact Or.inl h
  | _ => first
      | exact Or.inl h
      | exact Or.inl ((suffix_record.mp h).resolve_left (by simp))

theorem Action.released_suffix
    (hact : Action ndisFilterHandle x c before y after) {nbl : NblKey} {c' : ℕ}
    (h : (.released nbl (.completion c') :: earlier) <:+ y.events) :
    (.released nbl (.completion c') :: earlier) <:+ x.events ∨
      (earlier = x.events ∧
        ((∃ nblQueue passList, c' = c ∧ nbl ∈ keys nblQueue ∧
            before = some (.completing nblQueue passList)) ∨
          ∃ nbls answer,
            before = some (.cleaning nbls (.completion c') answer))) := by
  cases hact with
  | cleaned =>
    rcases suffix_record.mp h with ⟨heq, rfl⟩ | h
    · cases heq
      exact Or.inr ⟨rfl, Or.inr ⟨_, _, rfl⟩⟩
    · exact Or.inl h
  | freed hown =>
    rcases suffix_record.mp h with ⟨heq, rfl⟩ | h
    · cases heq
      exact Or.inr ⟨rfl, Or.inl ⟨_, _, rfl, List.mem_cons_self, rfl⟩⟩
    · exact Or.inl h
  | _ => first
      | exact Or.inl h
      | exact Or.inl ((suffix_record.mp h).resolve_left (by simp))

end Step

def SentIn (events : List Event) (nbl : NblKey) : Prop :=
  ∃ nbls, .sent nbls ∈ events ∧ nbl ∈ nbls

def CompletedIn (events : List Event) (c : ℕ) (nbl : NblKey) : Prop :=
  ∃ nbls, .completed c nbls ∈ events ∧ nbl ∈ nbls

/-- The queue of a completion holds NBLs that were completed to it; a clean-up
has another cause. -/
def Call.Ordered (x : Shared) (c : ℕ) : Call → Prop
  | .cleaning _ cause _ => ∀ c', cause ≠ .completion c'
  | .completing nblQueue _ =>
    ∀ nbl ∈ keys nblQueue, CompletedIn x.events c nbl
  | .releasing nblQueue _ =>
    ∀ nbl ∈ keys nblQueue, CompletedIn x.events c nbl
  | _ => True

/-- An NBL below the filter was sent, one that is completed was sent before,
and one that is freed for its completion was completed before. -/
structure EventsOrdered (x : Shared) : Prop where
  sent : ∀ nbl ∈ x.ndis, SentIn x.events nbl
  completed : ∀ c nbls earlier, (.completed c nbls :: earlier) <:+ x.events →
    ∀ nbl ∈ nbls, SentIn earlier nbl
  released : ∀ nbl c earlier,
    (.released nbl (.completion c) :: earlier) <:+ x.events →
    CompletedIn earlier c nbl

variable {nbl : NblKey} {events events' : List Event}

theorem SentIn.mono (hnbl : SentIn events nbl)
    (h : ∀ event ∈ events, event ∈ events') : SentIn events' nbl := by
  obtain ⟨nbls, hnbls, hmem⟩ := hnbl
  exact ⟨nbls, h _ hnbls, hmem⟩

variable {c : ℕ}

theorem CompletedIn.mono (hnbl : CompletedIn events c nbl)
    (h : ∀ event ∈ events, event ∈ events') : CompletedIn events' c nbl := by
  obtain ⟨nbls, hnbls, hmem⟩ := hnbl
  exact ⟨nbls, h _ hnbls, hmem⟩

theorem Call.Ordered.mono {call : Call} (hcall : call.Ordered x c)
    (h : ∀ event ∈ x.events, event ∈ y.events) : call.Ordered y c := by
  cases call with
  | cleaning nbls cause answer => exact hcall
  | completing | releasing => exact fun nbl hnbl => (hcall nbl hnbl).mono h
  | _ => trivial

section Step

variable {x y : Shared} {c : ℕ} {before after : Option Call}

theorem Action.ndis_sent (hact : Action ndisFilterHandle x c before y after)
    (hx : ∀ nbl ∈ x.ndis, SentIn x.events nbl) :
    ∀ nbl ∈ y.ndis, SentIn y.events nbl := by
  intro nbl hnbl
  have hsend : ∀ nbls : List SendNbl,
      nbl ∈ (x.ndisFSendNetBufferLists nbls).ndis →
      SentIn (x.ndisFSendNetBufferLists nbls).events nbl := by
    intro nbls hmem
    rcases Multiset.mem_add.mp hmem with hold | hnew
    · exact (hx nbl hold).mono fun event => List.mem_cons_of_mem _
    · exact ⟨keys nbls, List.mem_cons_self, hnew⟩
  have hevents := hact.events
  cases hact with
  | forwarded | sent => exact hsend _ hnbl
  | completed hle =>
    exact (hx nbl (Multiset.mem_of_le (Multiset.sub_le_self _ _) hnbl)).mono
      hevents
  | _ => exact (hx nbl hnbl).mono hevents

theorem Action.eventsOrdered
    (hact : Action ndisFilterHandle x c before y after)
    (hx : EventsOrdered x) (hcall : ∀ call ∈ before, call.Ordered x c) :
    EventsOrdered y := by
  refine ⟨hact.ndis_sent hx.sent, ?_, ?_⟩
  · intro c' nbls earlier hsuffix nbl hnbl
    rcases hact.completed_suffix hsuffix with hold | ⟨rfl, hndis⟩
    · exact hx.completed c' nbls earlier hold nbl hnbl
    · exact hx.sent nbl (hndis nbl hnbl)
  · intro nbl c' earlier hsuffix
    rcases hact.released_suffix hsuffix with hold | ⟨rfl, hnew⟩
    · exact hx.released nbl c' earlier hold
    · rcases hnew with ⟨_, _, rfl, hmem, hbefore⟩ |
        ⟨nbls, answer, hbefore⟩
      · exact hcall _ hbefore nbl hmem
      · exact absurd rfl (hcall _ hbefore c')

theorem Action.callOrdered (hact : Action ndisFilterHandle x c before y after)
    (hcall : ∀ call ∈ before, call.Ordered x c) :
    ∀ call ∈ after, call.Ordered y c := by
  intro call hafter
  have hevents := hact.events
  have hown : ∀ call ∈ before, call.Ordered y c := fun call hc =>
    (hcall call hc).mono hevents
  cases hact with
  | completed hle =>
    cases hafter
    exact fun nbl hnbl => ⟨_, List.mem_cons_self, hnbl⟩
  | @cleaned nbl rest cause answer =>
    cases hafter
    exact hown (.cleaning (nbl :: rest) cause answer) rfl
  | @cleanedAll cause answer =>
    cases answer with
    | none => cases hafter
    | some answer =>
      cases hafter
      trivial
  | freed | kept =>
    cases hafter
    exact fun nbl hnbl => hown _ rfl nbl (List.mem_cons_of_mem _ hnbl)
  | @released nblQueue passList =>
    cases hafter
    exact hown (.releasing nblQueue passList) rfl
  | _ =>
    cases hafter <;> first
      | trivial
      | simp [Call.Ordered]

end Step

variable {s : Pool Shared Call}

theorem eventsOrdered_of_reachable {s : Pool Shared Call}
    (hs : (machine ndisFilterHandle).Reachable s) :
    EventsOrdered s.shared := by
  have hordered : Program.Annotated (fun _ => EventsOrdered) Call.Ordered s := by
    refine Program.invariant ?_ ?_ hs
    · refine ⟨⟨?_, ?_, ?_⟩, by simp [Program.machine]⟩ <;>
        simp [program, Program.machine, Shared.initial]
    · intro s c before n y after hs ih hbefore hturn
      have hact := Action.of_turn hturn
      have hcall : ∀ call ∈ before, call.Ordered s.shared c :=
        fun call hc => ih.calls c call (hbefore.trans hc)
      exact Program.Annotated.turn (hact.eventsOrdered ih.shared hcall)
        (hact.callOrdered hcall) fun c' call _ hlookup =>
          (ih.calls c' call hlookup).mono hact.events
  exact hordered.shared

/-! ## Passing up -/

def foreign (ndisFilterHandle : ℕ) (nbls : List NblKey) : List NblKey :=
  nbls.filter fun nbl => nbl.sourceHandle ≠ ndisFilterHandle

def Event.passedUpBy (c : ℕ) : Event → Option (List NblKey)
  | .passedUp c' nbls => if c' = c then some nbls else none
  | _ => none

def passedUpBy (c : ℕ) (events : List Event) : List (List NblKey) :=
  events.filterMap (Event.passedUpBy c)

def Call.unpassed (ndisFilterHandle : ℕ) : Call → Option (List NblKey)
  | .completing nblQueue passList =>
    some (keys passList ++ foreign ndisFilterHandle (keys nblQueue))
  | .releasing nblQueue passList =>
    some (keys passList ++ foreign ndisFilterHandle (keys nblQueue))
  | _ => none

/-- A call to which a chain was completed passes up the NBLs of other
components in it, in order and at once, if there are any; until then it has
them in hand. -/
def PassesUp (ndisFilterHandle : ℕ) (nbls : List NblKey)
    (passed : List (List NblKey)) : Option Call → Prop
  | none =>
    passed = if foreign ndisFilterHandle nbls = [] then []
      else [foreign ndisFilterHandle nbls]
  | some call =>
    passed = [] ∧
      call.unpassed ndisFilterHandle = some (foreign ndisFilterHandle nbls)

/-- What every completion has passed up, the completions still running, and
that nothing else is passed up. -/
structure PassedUp (ndisFilterHandle : ℕ) (s : Pool Shared Call) : Prop where
  completed : ∀ c nbls, .completed c nbls ∈ s.shared.events → c < s.nextCall ∧
    PassesUp ndisFilterHandle nbls (passedUpBy c s.shared.events)
      (s.calls.lookup c)
  running : ∀ c call, s.calls.lookup c = some call →
    (call.unpassed ndisFilterHandle).isSome →
    ∃ nbls, .completed c nbls ∈ s.shared.events
  passed : ∀ c nbls, .passedUp c nbls ∈ s.shared.events →
    ∃ nbls', .completed c nbls' ∈ s.shared.events

variable {nbls : List NblKey}

theorem foreign_cons_own (h : nbl.sourceHandle = ndisFilterHandle) :
    foreign ndisFilterHandle (nbl :: nbls) = foreign ndisFilterHandle nbls := by
  simp [foreign, h]

theorem foreign_cons_foreign (h : nbl.sourceHandle ≠ ndisFilterHandle) :
    foreign ndisFilterHandle (nbl :: nbls) =
      nbl :: foreign ndisFilterHandle nbls := by
  simp [foreign, h]

section Step

variable {x y : Shared} {c : ℕ} {before after : Option Call}

section

variable (hact : Action ndisFilterHandle x c before y after)

include hact

variable {c' : ℕ}

theorem Action.passedUpBy_other (hne : c' ≠ c) :
    passedUpBy c' y.events = passedUpBy c' x.events := by
  cases hact with
  | passedUp hempty =>
    simp [passedUpBy, Shared.record, Event.passedUpBy, hne.symm]
  | _ => rfl

theorem Action.completed_other {nbls : List NblKey} (hne : c' ≠ c)
    (h : .completed c' nbls ∈ y.events) : .completed c' nbls ∈ x.events := by
  cases hact with
  | completed hle =>
    rcases List.mem_cons.mp h with heq | h
    · cases heq
      exact absurd rfl hne
    · exact h
  | _ => first
      | exact h
      | exact (List.mem_cons.mp h).resolve_left (by simp)

theorem Action.passedUp_new {nbls : List NblKey}
    (h : .passedUp c' nbls ∈ y.events) :
    .passedUp c' nbls ∈ x.events ∨
      (c' = c ∧ ∃ call ∈ before, (call.unpassed ndisFilterHandle).isSome) := by
  cases hact with
  | passedUp hempty =>
    rcases List.mem_cons.mp h with heq | h
    · cases heq
      exact Or.inr ⟨rfl, _, rfl, rfl⟩
    · exact Or.inl h
  | _ => first
      | exact Or.inl h
      | exact Or.inl ((List.mem_cons.mp h).resolve_left (by simp))

theorem Action.running_new {call : Call} (hcall : call ∈ after)
    (h : (call.unpassed ndisFilterHandle).isSome) :
    (∃ nbls, .completed c nbls ∈ y.events) ∨
      ∃ call ∈ before, (call.unpassed ndisFilterHandle).isSome := by
  cases hact with
  | completed hle => exact Or.inl ⟨_, List.mem_cons_self⟩
  | freed | released | kept => exact Or.inr ⟨_, rfl, rfl⟩
  | @cleanedAll cause answer =>
    cases answer <;> cases hcall
    cases h
  | _ =>
    cases hcall <;> cases h

theorem Action.passes
    (hx : ∀ nbls, .completed c nbls ∈ x.events →
      PassesUp ndisFilterHandle nbls (passedUpBy c x.events) before)
    (hfresh : before = none → passedUpBy c x.events = [] ∧
      ∀ nbls, .completed c nbls ∉ x.events) :
    ∀ nbls, .completed c nbls ∈ y.events →
      PassesUp ndisFilterHandle nbls (passedUpBy c y.events) after := by
  intro nbls hnbls
  cases hact with
  | completed hle =>
    obtain ⟨hnone, hnew⟩ := hfresh rfl
    rcases List.mem_cons.mp hnbls with heq | hold
    · cases heq
      exact ⟨hnone, rfl⟩
    · exact absurd hold (hnew nbls)
  | freed hown =>
    obtain ⟨hnone, heq⟩ :=
      hx nbls ((List.mem_cons.mp hnbls).resolve_left (by simp))
    refine ⟨hnone, ?_⟩
    rw [← heq]
    exact congrArg (fun l => some (_ ++ l)) (foreign_cons_own hown).symm
  | released => exact hx nbls hnbls
  | kept hforeign =>
    obtain ⟨hnone, heq⟩ := hx nbls hnbls
    refine ⟨hnone, ?_⟩
    rw [← heq]
    simp [Call.unpassed, keys, foreign_cons_foreign, hforeign, SendNbl.key]
  | @passedUp passList hempty =>
    obtain ⟨hnone, heq⟩ :=
      hx nbls ((List.mem_cons.mp hnbls).resolve_left (by simp))
    have hpassed : keys passList = foreign ndisFilterHandle nbls :=
      (List.append_nil _).symm.trans (Option.some.inj heq)
    have hne : foreign ndisFilterHandle nbls ≠ [] := by
      rw [← hpassed]
      exact fun hnil => hempty (List.map_eq_nil_iff.mp hnil)
    have hlog : passedUpBy c
        (x.record (.passedUp c (keys passList))).events =
        keys passList :: passedUpBy c x.events := by
      simp [passedUpBy, Shared.record, Event.passedUpBy]
    rw [PassesUp, hlog, hnone, if_neg hne, hpassed]
  | ended =>
    obtain ⟨hnone, heq⟩ := hx nbls hnbls
    have hempty : foreign ndisFilterHandle nbls = [] :=
      (Option.some.inj heq).symm
    rw [PassesUp, hnone, if_pos hempty]
  | _ =>
    have hold : .completed c nbls ∈ x.events := by
      first
      | exact hnbls
      | exact (List.mem_cons.mp hnbls).resolve_left (by simp)
    first
    | exact absurd hold ((hfresh rfl).2 nbls)
    | cases (hx nbls hold).2

end

end Step

theorem passedUp_turn {n : ℕ} {before after : Option Call}
    (hs : PassedUp ndisFilterHandle s) (hbefore : s.calls.lookup c = before)
    (hturn : (program ndisFilterHandle).Turn s c before n y after) :
    PassedUp ndisFilterHandle ⟨y, s.calls.put c after, n⟩ := by
  have hact := Action.of_turn hturn
  have hfresh : before = none → passedUpBy c s.shared.events = [] ∧
      ∀ nbls, .completed c nbls ∉ s.shared.events := by
    rintro rfl
    obtain ⟨rfl, -⟩ := hturn.of_none
    have hnew : ∀ nbls, .completed s.nextCall nbls ∉ s.shared.events :=
      fun nbls hnbls => Nat.lt_irrefl _ (hs.completed _ nbls hnbls).1
    refine ⟨List.filterMap_eq_nil_iff.mpr fun event hevent => ?_, hnew⟩
    cases event with
    | passedUp c' nbls =>
      obtain ⟨nbls', hnbls'⟩ := hs.passed c' nbls hevent
      have hne : c' ≠ s.nextCall := fun heq => hnew nbls' (heq ▸ hnbls')
      simp [Event.passedUpBy, hne]
    | _ => rfl
  have hcompletion : (∃ call ∈ before,
      (call.unpassed ndisFilterHandle).isSome) →
      ∃ nbls, .completed c nbls ∈ y.events := by
    rintro ⟨call, hcall, hsome⟩
    obtain ⟨nbls, hnbls⟩ := hs.running c call (hbefore.trans hcall) hsome
    exact ⟨nbls, hact.events _ hnbls⟩
  refine ⟨?_, ?_, ?_⟩
  · intro c' nbls hnbls
    rw [Table.lookup_put]
    by_cases hc : c' = c
    · subst hc
      rw [if_pos rfl]
      refine ⟨hturn.lt, hact.passes (fun nbls hnbls => ?_) hfresh nbls hnbls⟩
      rw [← hbefore]
      exact (hs.completed c' nbls hnbls).2
    · rw [if_neg hc, hact.passedUpBy_other hc]
      have hold := hs.completed c' nbls (hact.completed_other hc hnbls)
      exact ⟨hold.1.trans_le hturn.nextCall_le, hold.2⟩
  · intro c' call hcall hsome
    rw [Table.lookup_put] at hcall
    split at hcall
    · rename_i hc
      subst hc
      rcases hact.running_new hcall hsome with hnew | hold
      · exact hnew
      · exact hcompletion hold
    · obtain ⟨nbls, hnbls⟩ := hs.running c' call hcall hsome
      exact ⟨nbls, hact.events _ hnbls⟩
  · intro c' nbls hnbls
    rcases hact.passedUp_new hnbls with hold | ⟨rfl, hnew⟩
    · obtain ⟨nbls', hnbls'⟩ := hs.passed c' nbls hold
      exact ⟨nbls', hact.events _ hnbls'⟩
    · exact hcompletion hnew

theorem passedUp_of_reachable (hs : (machine ndisFilterHandle).Reachable s) :
    PassedUp ndisFilterHandle s := by
  refine Program.invariant ?_ ?_ hs
  · refine ⟨?_, ?_, ?_⟩ <;> simp [program, Program.machine, Shared.initial]
  · intro s c before n y after _ ih hbefore hturn
    exact passedUp_turn ih hbefore hturn

/-! ## Calls end -/

/-- An enqueue that has not reached its lock section, which a handle closed in
the meantime does not let it enter. -/
def Call.beforeLock : Call → Bool
  | .enqueuing _ _ => true
  | _ => false

def Call.remaining : Call → ℕ
  | .enqueuing _ _ => 0
  | .cleaning nbls _ _ => nbls.length + 2
  | .flushing _ nbls => nbls.length + 3
  | .referenced _ _ => 2
  | .returning _ _ => 1
  | .completing nblQueue _ => 2 * nblQueue.length + 1
  | .releasing nblQueue _ => 2 * nblQueue.length + 2

theorem remaining_completeLoop (x : Shared) (c : ℕ)
    (nblQueue passList : List SendNbl) :
    ∀ next ∈ (completeLoop ndisFilterHandle x c nblQueue passList).2,
      next.beforeLock = false ∧
        next.remaining < (Call.completing nblQueue passList).remaining := by
  intro next hnext
  cases nblQueue with
  | nil =>
    by_cases hempty : passList = [] <;> simp [completeLoop, hempty] at hnext
  | cons nbl rest =>
    by_cases hown : nbl.sourceHandle = ndisFilterHandle
    · simp only [completeLoop, if_pos hown] at hnext
      cases hnext
      exact ⟨rfl, by simp [Call.remaining, Nat.mul_add]⟩
    · simp only [completeLoop, if_neg hown] at hnext
      cases hnext
      exact ⟨rfl, by simp [Call.remaining, Nat.mul_add]⟩

theorem advance_remaining (x : Shared) (c : ℕ) {call : Call}
    (hcall : call.beforeLock = false) :
    ∃ y after, advance ndisFilterHandle x c call = some (y, after) ∧
      ∀ next ∈ after, next.beforeLock = false ∧
        next.remaining < call.remaining := by
  cases call with
  | enqueuing h nbl => cases hcall
  | cleaning nbls cause answer =>
    cases nbls with
    | nil =>
      refine ⟨_, _, rfl, fun next hnext => ?_⟩
      cases answer with
      | none => cases hnext
      | some answer =>
        cases hnext
        exact ⟨rfl, by simp [Call.remaining]⟩
    | cons nbl rest =>
      refine ⟨_, _, rfl, fun next hnext => ?_⟩
      cases hnext
      exact ⟨rfl, by simp [Call.remaining]⟩
  | flushing h nbls =>
    simp only [advance, acquireReferences]
    split
    · refine ⟨_, _, rfl, fun next hnext => ?_⟩
      cases hnext
      exact ⟨rfl, by simp [Call.remaining, keys]⟩
    · refine ⟨_, _, rfl, fun next hnext => ?_⟩
      cases hnext
      exact ⟨rfl, by simp [Call.remaining]⟩
  | referenced | releasing =>
    refine ⟨_, _, rfl, fun next hnext => ?_⟩
    cases hnext
    exact ⟨rfl, by simp [Call.remaining]⟩
  | returning h status => exact ⟨_, _, rfl, by simp⟩
  | completing nblQueue passList =>
    exact ⟨_, _, rfl, remaining_completeLoop x c nblQueue passList⟩

theorem call_ends {call : Call} (hlookup : s.calls.lookup c = some call)
    (hcall : call.beforeLock = false) :
    ∃ k t, (machine ndisFilterHandle).run s (List.replicate k (.advance c)) =
      some t ∧ t.calls.lookup c = none := by
  refine Program.exists_run_to_end
    (fun call => call.beforeLock = false) Call.remaining ?_ hlookup hcall
  intro x call hcall
  exact advance_remaining x c hcall

/-! ## The guarantees of the send path -/

theorem foreign_of_passedUp (hs : (machine ndisFilterHandle).Reachable s)
    (hnbls : .passedUp c nbls ∈ s.shared.events) :
    ∀ nbl ∈ nbls, nbl.sourceHandle ≠ ndisFilterHandle := by
  have hpassed := passedUp_of_reachable hs
  obtain ⟨nbls', hnbls'⟩ := hpassed.passed c nbls hnbls
  have hmem : nbls ∈ passedUpBy c s.shared.events :=
    List.mem_filterMap.mpr ⟨_, hnbls, by simp [Event.passedUpBy]⟩
  have hpasses := (hpassed.completed c nbls' hnbls').2
  have hchain : nbls = foreign ndisFilterHandle nbls' := by
    cases hcall : s.calls.lookup c with
    | none =>
      rw [hcall, PassesUp] at hpasses
      rw [hpasses] at hmem
      split at hmem
      · cases hmem
      · exact List.mem_singleton.mp hmem
    | some call =>
      rw [hcall] at hpasses
      rw [hpasses.1] at hmem
      cases hmem
  intro nbl hnbl
  rw [hchain, foreign, List.mem_filter] at hnbl
  exact of_decide_eq_true hnbl.2

/-- In every interleaving, an NBL that `TxIrpEnqueue` has queued is in one place
and is freed after a completion that follows a send, or by a clean-up or a
refused flush.  A completion frees the NBLs of the filter and passes up the
others, once and in order.  The references of flushes are those of the filter's
NBLs below it and of the flushes and completions still running. -/
theorem sends_accounted (ndisFilterHandle : ℕ) {s : Pool Shared Call}
    (hs : (machine ndisFilterHandle).Reachable s) :
    (∀ h n, .accepted h n ∈ s.shared.events →
      (placed ndisFilterHandle s).count ⟨ndisFilterHandle, n⟩ = 1 ∧
      .released ⟨ndisFilterHandle, n⟩ .failed ∉ s.shared.events) ∧
    (∀ nbl c earlier,
      (.released nbl (.completion c) :: earlier) <:+ s.shared.events →
      CompletedIn earlier c nbl) ∧
    (∀ c nbls earlier, (.completed c nbls :: earlier) <:+ s.shared.events →
      ∀ nbl ∈ nbls, SentIn earlier nbl) ∧
    (∀ c call, s.calls.lookup c = some call → call.beforeLock = false →
      ∃ k t, (machine ndisFilterHandle).run s
        (List.replicate k (.advance c)) = some t ∧
        t.calls.lookup c = none) ∧
    (∀ nbl cause, .released nbl cause ∈ s.shared.events →
      nbl.sourceHandle = ndisFilterHandle) ∧
    (∀ c nbls, .passedUp c nbls ∈ s.shared.events →
      ∀ nbl ∈ nbls, nbl.sourceHandle ≠ ndisFilterHandle) ∧
    (∀ c nbls, .completed c nbls ∈ s.shared.events →
      PassesUp ndisFilterHandle nbls (passedUpBy c s.shared.events)
        (s.calls.lookup c)) ∧
    s.shared.rundown.count =
      s.shared.flushReferences + s.shared.receiveReferences ∧
    s.shared.flushReferences =
      s.calls.total (fun _ => Call.references ndisFilterHandle) +
        s.shared.outstanding ndisFilterHandle ∧
    ((∀ c call, s.calls.lookup c = some call → call.idle = true) →
      s.shared.flushReferences = s.shared.outstanding ndisFilterHandle) := by
  have hordered := eventsOrdered_of_reachable hs
  refine ⟨?_, hordered.released, hordered.completed, ?_, ?_, ?_, ?_,
    rundown_count hs, flushReferences_eq hs, ?_⟩
  · intro h n hn
    exact ⟨count_placed hs (lt_nextNbl_of_accepted hs hn),
      not_failed_of_accepted hs hn _⟩
  · intro c call hlookup hcall
    exact call_ends hlookup hcall
  · intro nbl cause hreleased
    exact (owned_of_reachable hs).shared.2 nbl
      (List.mem_filterMap.mpr ⟨_, hreleased, rfl⟩)
  · intro c nbls hnbls
    exact foreign_of_passedUp hs hnbls
  · intro c nbls hnbls
    exact ((passedUp_of_reachable hs).completed c nbls hnbls).2
  · intro hidle
    rw [flushReferences_eq hs, Table.total_eq_zero fun c call hlookup =>
      references_of_idle (hidle c call hlookup), zero_add]

def oneByteInput : EnqueueInput where
  frame := .granted 1 fun _ => ⟨⟨true, some fun _ => 7⟩, 0, 1, 1⟩
  rssHashQueueId := 0

def returnedNbl (sourceHandle id : ℕ) : SendNbl :=
  ⟨sourceHandle, ⟨id, ⟨[], [], 0, 0⟩, [], ⟨0, 0, 0, 0, 0, 0⟩, none⟩⟩

/-- Two frames are flushed while another component sends two; a completion
takes the second frame between the two NBLs of the other component. -/
theorem sends_accounted_mixedChain : ∃ s, (machine 7).Reachable s ∧
      (s.shared.rundown.count = 1 ∧ s.shared.outstanding 7 = 1 ∧
        releasedNbls s.shared.events = [⟨7, 1⟩] ∧
        passedUpBy 8 s.shared.events = [[⟨3, 1⟩, ⟨3, 0⟩]]) ∧
      ∀ h n, .accepted h n ∈ s.shared.events →
        (placed 7 s).count ⟨7, n⟩ = 1 :=
  (Machine.exists_reachable_of_run
      [.start .restart, .start .open, .start (.enqueue 1 oneByteInput),
      .advance 2, .advance 2, .start (.enqueue 1 oneByteInput), .advance 3,
      .advance 3, .start (.send [returnedNbl 3 0]),
      .start (.flush 1 ⟨8, false, false⟩), .advance 5, .advance 5, .advance 5,
      .start (.send [returnedNbl 3 1]), .start (.flush 1 ⟨4, false, false⟩),
      .start (.complete [returnedNbl 3 1, returnedNbl 7 1, returnedNbl 3 0]),
      .advance 8, .advance 8, .advance 8, .advance 8, .advance 8]
      (by decide +kernel)).imp fun s ⟨hs, hP⟩ =>
      ⟨hs, hP, fun h n hn => ((sends_accounted 7 hs).1 h n hn).1⟩

end WinNetTest.Fnlwf.Tx
