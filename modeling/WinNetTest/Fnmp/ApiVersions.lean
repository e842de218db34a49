import WinNetTest.Fnmp.OidLookup

/-!
# The two versions of the OID interface

Below version 2 the keys of the OID IOCTLs have no port number, and a completion
carries its key in the system buffer; from version 2 on it points to a key in
user memory.  Two runs that make the same calls in the two formats, the keys of
one extended by port 0, get the same answers and take the adapter through the
same states.
-/

namespace WinNetTest.Fnmp

open Support

/-! ## Corresponding inputs -/

/-- The `OID_KEY` with the fields of an `OID_KEY_V0` and port 0. -/
def OidKey.extended (key : OidKey) : OidKey :=
  { key with portNumber := 0 }

/-- An input with `OID_KEY_V0` keys and one with the same keys extended. -/
structure SetFilterInput.Corresponds (old new : SetFilterInput) : Prop where
  keyCount : old.inputBufferLength / 12 = new.inputBufferLength / 16
  whole : old.inputBufferLength % 12 = 0 ↔ new.inputBufferLength % 16 = 0
  keys : ∀ index < new.inputBufferLength / 16,
    new.key index = (old.key index).extended
  allocated : old.allocated = true ∧ new.allocated = true

/-- An input with an `OID_KEY_V0` and one with the same key extended, for the
same output buffer; both are long enough for their key, or neither is. -/
structure GetRequestInput.Corresponds (old new : GetRequestInput) : Prop where
  complete : 12 ≤ old.inputBufferLength ↔ 16 ≤ new.inputBufferLength
  key : new.key = old.key.extended
  outputBufferLength : new.outputBufferLength = old.outputBufferLength
  inputOperation : new.inputOperation = old.inputOperation

/-- An `OID_COMPLETE_REQUEST_IN_V0` and an `OID_COMPLETE_REQUEST_IN` that points
to the same key extended, with the same data; both are complete, or neither
is. -/
structure CompleteRequestInput.Corresponds
    (old new : CompleteRequestInput) : Prop where
  complete : 32 ≤ old.inputBufferLength ↔ 24 ≤ new.inputBufferLength
  key : new.userKey = some old.systemKey.extended
  keyAllocated : new.keyAllocated = true
  status : new.status = old.status
  informationBufferLength :
    new.informationBufferLength = old.informationBufferLength
  informationBuffer : new.informationBuffer = old.informationBuffer

section Calls

variable {old new : UInt32} (hold : old < mpApiver2) (hnew : mpApiver2 ≤ new)

include hold in
theorem inKeySize_old : inKeySize old = 12 :=
  if_neg (UInt32.not_le.mpr hold)

include hnew in
theorem inKeySize_new : inKeySize new = 16 :=
  if_pos hnew

include hold in
theorem readKey_old (key : OidKey) : readKey old key = key.extended :=
  if_neg (UInt32.not_le.mpr hold)

include hnew in
theorem readKey_new (key : OidKey) : readKey new key = key :=
  if_pos hnew

include hold hnew

theorem mpIrpOidSetFilter_agree {input input' : SetFilterInput}
    (h : input.Corresponds input') (oids : OidFilter) :
    mpIrpOidSetFilter new input' oids = mpIrpOidSetFilter old input oids := by
  have hkeys : (List.range (input'.inputBufferLength / 16)).map
        (fun index => readKey new (input'.key index)) =
      (List.range (input.inputBufferLength / 12)).map
        (fun index => readKey old (input.key index)) := by
    rw [h.keyCount]
    refine List.map_congr_left fun index hindex => ?_
    rw [readKey_new hnew, readKey_old hold,
      h.keys index (List.mem_range.mp hindex)]
  have hshort : input'.inputBufferLength < 16 ↔
      input.inputBufferLength < 12 := by
    have hcount := h.keyCount
    omega
  have hwhole : input'.inputBufferLength % 16 ≠ 0 ↔
      input.inputBufferLength % 12 ≠ 0 := not_congr h.whole.symm
  simp only [mpIrpOidSetFilter, inKeySize_old hold, inKeySize_new hnew, hkeys,
    hshort, hwhole, h.allocated.1, h.allocated.2]

theorem mpIrpOidGetRequest_agree {input input' : GetRequestInput}
    (h : input.Corresponds input') (oids : OidFilter) :
    mpIrpOidGetRequest new input' oids = mpIrpOidGetRequest old input oids := by
  have hshort : input'.inputBufferLength < 16 ↔
      input.inputBufferLength < 12 := by
    have hcomplete := h.complete
    omega
  simp only [mpIrpOidGetRequest, inKeySize_old hold, inKeySize_new hnew,
    readKey_old hold, readKey_new hnew, hshort, h.key, h.outputBufferLength,
    h.inputOperation]

variable {input input' : CompleteRequestInput}

theorem bounceCompletion_agree (h : input.Corresponds input') :
    bounceCompletion new input' = bounceCompletion old input := by
  have hshort : input'.inputBufferLength < 24 ↔
      input.inputBufferLength < 32 := by
    have hcomplete := h.complete
    omega
  have hsize : completeRequestInSize old = 32 :=
    if_neg (UInt32.not_le.mpr hold)
  have hsize' : completeRequestInSize new = 24 := if_pos hnew
  have hkey : completionKey new input' = completionKey old input := by
    have hnot : ¬old ≥ mpApiver2 := UInt32.not_le.mpr hold
    have hpos : new ≥ mpApiver2 := hnew
    simp only [completionKey, hpos, hnot, if_true, if_false, h.keyAllocated,
      h.key, readKey_old hold]
    rfl
  simp only [bounceCompletion, hsize, hsize', hshort, hkey, h.status,
    h.informationBufferLength, h.informationBuffer]

theorem mpIrpOidCompleteRequest_agree (h : input.Corresponds input')
    (oids : OidFilter) :
    mpIrpOidCompleteRequest new input' oids =
      mpIrpOidCompleteRequest old input oids := by
  simp only [mpIrpOidCompleteRequest, bounceCompletion_agree hold hnew h,
    h.status, h.informationBufferLength]

end Calls

namespace OidPath

/-! ## Corresponding runs -/

/-- The context of a handle opened below version 2 and that of one opened from
version 2 on, which are the same otherwise. -/
structure UserContext.Agrees (old new : UserContext) : Prop where
  below : old.apiVersion < mpApiver2
  above : mpApiver2 ≤ new.apiVersion
  setOidFilter : new.setOidFilter = old.setOidFilter
  closing : new.closing = old.closing

def Agree (s t : State) : Prop :=
  ∃ contexts, t = { s with contexts := contexts } ∧
    ∀ h, Option.Rel UserContext.Agrees (s.contexts.lookup h)
      (contexts.lookup h)

def Label.versioned : Label → Bool
  | .create _ => true
  | .setFilter _ _ => true
  | .getRequest _ _ => true
  | .completeRequest _ _ => true
  | _ => false

/-- The same step, with handles opened and IOCTLs made in the two versions. -/
inductive Label.Corresponds : Label → Label → Prop
  | create {old new : UInt32} (hold : old < mpApiver2)
      (hnew : mpApiver2 ≤ new) : Corresponds (.create old) (.create new)
  | setFilter (h : ℕ) {input input' : SetFilterInput}
      (hinput : input.Corresponds input') :
      Corresponds (.setFilter h input) (.setFilter h input')
  | getRequest (h : ℕ) {input input' : GetRequestInput}
      (hinput : input.Corresponds input') :
      Corresponds (.getRequest h input) (.getRequest h input')
  | completeRequest (h : ℕ) {input input' : CompleteRequestInput}
      (hinput : input.Corresponds input') :
      Corresponds (.completeRequest h input) (.completeRequest h input')
  | same {label : Label} (h : label.versioned = false) : Corresponds label label

/-- The status of an IOCTL, `BytesReturned` and the bytes copied to the system
buffer. -/
abbrev Reply := NtStatus × UInt32 × List UInt8

def ioctlReply (s : State) : Label → Option Reply
  | .setFilter h input =>
    (s.openContext h).map fun context =>
      ((mpIrpOidSetFilter context.apiVersion input s.oids).1, 0, [])
  | .getRequest h input =>
    (s.openContext h).map fun context =>
      mpIrpOidGetRequest context.apiVersion input s.oids
  | .completeRequest h input =>
    (s.openContext h).map fun context =>
      ((mpIrpOidCompleteRequest context.apiVersion input s.oids).1, 0, [])
  | _ => none

def replyMachine (sizes : NdisSizes) (config : AdapterConfig) :
    Machine (State × List (Option Reply)) Label :=
  (machine sizes config).observe [] fun s label _ replies =>
    replies ++ [ioctlReply s label]

/-! ## Steps that depend on no handle -/

section Contexts

variable (s : State) (contexts : Table ℕ UserContext)

theorem arrive_contexts (i : OidRequestInterface) (request : NdisOidRequest)
    (now : UInt64) (allocated : Bool) :
    arrive { s with contexts := contexts } i request now allocated =
      { arrive s i request now allocated with contexts := contexts } := by
  unfold arrive
  dsimp only
  generalize entering s.nextRequest request = entered
  cases entered.requestType with
  | other value => rfl
  | _ =>
    dsimp only
    rcases mpFilterOid now allocated i entered s.oids with ⟨status, _⟩
    cases status <;> rfl

theorem complete_contexts (sizes : NdisSizes) (c : ℕ) (call : Call) :
    complete sizes { s with contexts := contexts } c call =
      (complete sizes s c call).map fun t => { t with contexts := contexts } := by
  cases call with
  | flushing closed requestLists =>
    obtain ⟨regular, direct⟩ := requestLists
    cases regular with
    | nil => cases direct <;> rfl
    | cons entry rest => rfl
  | _ => rfl

theorem finish_contexts (c : ℕ) (call : Call) :
    finish { s with contexts := contexts } c call =
      (finish s c call).map fun t => { t with contexts := contexts } := by
  cases call with
  | flushing closed requestLists =>
    obtain ⟨regular, direct⟩ := requestLists
    cases closed <;> cases regular <;> cases direct <;> rfl
  | _ => rfl

variable {s contexts}
  (hcontexts : ∀ h, Option.Rel UserContext.Agrees (s.contexts.lookup h)
    (contexts.lookup h))

include hcontexts

theorem agree_of_keeps {u : State} (hu : u.contexts = s.contexts) :
    Agree u { u with contexts := contexts } :=
  ⟨contexts, rfl, hu ▸ hcontexts⟩

theorem rel_of_keeps {o : Option State}
    (ho : o = o.map fun u => { u with contexts := s.contexts }) :
    Option.Rel Agree o (o.map fun u => { u with contexts := contexts }) := by
  cases o with
  | none => exact .none
  | some u =>
    refine .some (agree_of_keeps hcontexts ?_)
    rw [Option.map_some] at ho
    rw [Option.some.inj ho]

theorem lookup_agree (h : ℕ) :
    s.contexts.lookup h = none ∧ contexts.lookup h = none ∨
      ∃ old new, s.contexts.lookup h = some old ∧
        contexts.lookup h = some new ∧ old.Agrees new := by
  have hrel := hcontexts h
  generalize s.contexts.lookup h = o at hrel ⊢
  generalize contexts.lookup h = o' at hrel ⊢
  cases hrel with
  | none => exact Or.inl ⟨rfl, rfl⟩
  | some hagrees => exact Or.inr ⟨_, _, rfl, rfl, hagrees⟩

theorem openContext_agree (h : ℕ) :
    Option.Rel UserContext.Agrees (s.openContext h)
      (State.openContext { s with contexts := contexts } h) := by
  unfold State.openContext
  rcases lookup_agree hcontexts h with
    ⟨hold, hnew⟩ | ⟨old, new, hold, hnew, hagrees⟩
  · simp only [hold, hnew]
    exact .none
  · simp only [hold, hnew, hagrees.closing]
    split
    · exact .none
    · exact .some hagrees

variable {old new : UserContext}

theorem insert_agree (hagrees : old.Agrees new) (h h' : ℕ) :
    Option.Rel UserContext.Agrees ((s.contexts.insert h old).lookup h')
      ((contexts.insert h new).lookup h') := by
  by_cases hne : h' = h
  · subst hne
    rw [AList.lookup_insert, AList.lookup_insert]
    exact .some hagrees
  · rw [AList.lookup_insert_ne hne, AList.lookup_insert_ne hne]
    exact hcontexts h'

theorem erase_agree (h h' : ℕ) :
    Option.Rel UserContext.Agrees ((s.contexts.erase h).lookup h')
      ((contexts.erase h).lookup h') := by
  by_cases hne : h' = h
  · subst hne
    rw [AList.lookup_erase, AList.lookup_erase]
    exact .none
  · rw [AList.lookup_erase_ne hne, AList.lookup_erase_ne hne]
    exact hcontexts h'

theorem create_agree {old new : UInt32} (hold : old < mpApiver2)
    (hnew : mpApiver2 ≤ new) :
    Agree (create s old) (create { s with contexts := contexts } new) := by
  unfold create
  dsimp only
  split
  · exact agree_of_keeps hcontexts rfl
  · have hagrees : UserContext.Agrees ⟨old, false, false⟩
        ⟨new, false, false⟩ := ⟨hold, hnew, rfl, rfl⟩
    exact ⟨_, rfl, insert_agree hcontexts hagrees s.nextHandle⟩

theorem markSetOidFilter_agree : Agree (markSetOidFilter s)
      (markSetOidFilter { s with contexts := contexts }) := by
  unfold markSetOidFilter
  dsimp only
  cases s.owner with
  | none => exact agree_of_keeps hcontexts rfl
  | some owner =>
    rcases lookup_agree hcontexts owner with
      ⟨hold, hnew⟩ | ⟨old, new, hold, hnew, hagrees⟩
    · simp only [hold, hnew]
      exact agree_of_keeps hcontexts rfl
    · have hagrees' : UserContext.Agrees { old with setOidFilter := true }
          { new with setOidFilter := true } :=
        ⟨hagrees.below, hagrees.above, rfl, hagrees.closing⟩
      simp only [hold, hnew]
      exact ⟨_, rfl, insert_agree hcontexts hagrees' owner⟩

theorem setFilter_agree (hagrees : old.Agrees new)
    {input input' : SetFilterInput} (hinput : input.Corresponds input') :
    Agree (setFilter s old input)
      (setFilter { s with contexts := contexts } new input') := by
  unfold setFilter
  dsimp only
  rw [mpIrpOidSetFilter_agree hagrees.below hagrees.above hinput]
  rcases mpIrpOidSetFilter old.apiVersion input s.oids with ⟨status, oids⟩
  cases status with
  | success =>
    exact markSetOidFilter_agree (s := { s with oids := oids }) hcontexts
  | _ => exact agree_of_keeps hcontexts rfl

theorem completeRequest_agree (hagrees : old.Agrees new) (h : ℕ)
    {input input' : CompleteRequestInput} (hinput : input.Corresponds input') :
    Agree (completeRequest s h old input)
      (completeRequest { s with contexts := contexts } h new input') := by
  unfold completeRequest
  dsimp only
  rw [mpIrpOidCompleteRequest_agree hagrees.below hagrees.above hinput]
  rcases mpIrpOidCompleteRequest old.apiVersion input s.oids with
    ⟨_, _, taken⟩
  cases taken <;> exact agree_of_keeps hcontexts rfl

theorem flush_agree (c : ℕ) (call : Call) : Option.Rel Agree (flush s c call)
      (flush { s with contexts := contexts } c call) := by
  cases call with
  | expired => exact .some (agree_of_keeps hcontexts rfl)
  | closing h =>
    rcases lookup_agree hcontexts h with
      ⟨hold, hnew⟩ | ⟨old, new, hold, hnew, hagrees⟩
    · simp only [flush, hold, hnew]
      exact .none
    · simp only [flush, hold, hnew, hagrees.setOidFilter]
      split <;> exact .some (agree_of_keeps hcontexts rfl)
  | _ => exact .none

theorem close_agree (hagrees : old.Agrees new) (h : ℕ) :
    Option.Rel Agree (close s h old)
      (close { s with contexts := contexts } h new) := by
  unfold close
  dsimp only
  split
  · exact .none
  · have hagrees' : UserContext.Agrees { old with closing := true }
        { new with closing := true } :=
      ⟨hagrees.below, hagrees.above, hagrees.setOidFilter, rfl⟩
    exact .some ⟨_, rfl, insert_agree hcontexts hagrees' h⟩

theorem release_agree (c : ℕ) (call : Call) :
    Option.Rel Agree (release s c call)
      (release { s with contexts := contexts } c call) := by
  cases call with
  | releasing h => exact .some ⟨_, rfl, erase_agree hcontexts h⟩
  | _ => exact .none

end Contexts

/-! ## Runs -/

theorem bind_agree {R : State → State → Prop} {o o' : Option UserContext}
    (hopen : Option.Rel UserContext.Agrees o o')
    {f f' : UserContext → Option State}
    (hf : ∀ old new, old.Agrees new → Option.Rel R (f old) (f' new)) :
    Option.Rel R (o.bind f) (o'.bind f') := by
  cases hopen with
  | none => exact .none
  | some hagrees => exact hf _ _ hagrees

variable {label label' : Label}

theorem step_agree (sizes : NdisSizes) {s t : State} (hst : Agree s t)
    (hlabel : label.Corresponds label') :
    Option.Rel Agree (step sizes s label) (step sizes t label') := by
  obtain ⟨contexts, rfl, hcontexts⟩ := hst
  unfold step
  dsimp only
  split
  · exact .none
  · cases hlabel with
    | create hold hnew => exact .some (create_agree hcontexts hold hnew)
    | setFilter h hinput =>
      simp only [Option.map_eq_bind]
      exact bind_agree (openContext_agree hcontexts h) fun old new hagrees =>
        .some (setFilter_agree hcontexts hagrees hinput)
    | getRequest h hinput =>
      simp only [Option.map_eq_bind]
      exact bind_agree (openContext_agree hcontexts h) fun old new hagrees =>
        .some (agree_of_keeps hcontexts rfl)
    | completeRequest h hinput =>
      simp only [Option.map_eq_bind]
      exact bind_agree (openContext_agree hcontexts h) fun old new hagrees =>
        .some (completeRequest_agree hcontexts hagrees h hinput)
    | @same label hsame =>
      cases label with
      | arrive i request now allocated =>
        dsimp only
        have hkeeps := congrArg State.contexts
          (arrive_contexts s s.contexts i request now allocated)
        rw [arrive_contexts s contexts]
        exact .some (agree_of_keeps hcontexts hkeeps)
      | process | return_ =>
        dsimp only
        split
        · exact .some (agree_of_keeps hcontexts rfl)
        · exact .none
      | complete c =>
        dsimp only
        cases s.calls.lookup c with
        | none => exact .none
        | some call =>
          simp only [Option.bind_some]
          rw [complete_contexts s contexts]
          exact rel_of_keeps hcontexts
            (complete_contexts s s.contexts sizes c call)
      | watchdog now =>
        dsimp only
        split <;> exact .some (agree_of_keeps hcontexts rfl)
      | flush c =>
        dsimp only
        cases s.calls.lookup c with
        | none => exact .none
        | some call => exact flush_agree hcontexts c call
      | finish c =>
        dsimp only
        cases s.calls.lookup c with
        | none => exact .none
        | some call =>
          simp only [Option.bind_some]
          rw [finish_contexts s contexts]
          exact rel_of_keeps hcontexts (finish_contexts s s.contexts c call)
      | close h =>
        exact bind_agree (openContext_agree hcontexts h)
          fun old new hagrees => close_agree hcontexts hagrees h
      | release c =>
        dsimp only
        cases s.calls.lookup c with
        | none => exact .none
        | some call => exact release_agree hcontexts c call
      | _ => cases hsame

theorem ioctlReply_agree {s t : State} (hst : Agree s t)
    (hlabel : label.Corresponds label') :
    ioctlReply t label' = ioctlReply s label := by
  obtain ⟨contexts, rfl, hcontexts⟩ := hst
  have hmap : ∀ h {f f' : UserContext → Reply},
      (∀ old new, old.Agrees new → f' new = f old) →
      (State.openContext { s with contexts := contexts } h).map f' =
        (s.openContext h).map f := by
    intro h f f' hf
    have hopen := openContext_agree hcontexts h
    generalize s.openContext h = o at hopen ⊢
    generalize State.openContext { s with contexts := contexts } h = o'
      at hopen ⊢
    cases hopen with
    | none => rfl
    | some hagrees => exact congrArg some (hf _ _ hagrees)
  cases hlabel with
  | create hold hnew => rfl
  | setFilter h hinput =>
    exact hmap h fun old new hagrees => by
      rw [mpIrpOidSetFilter_agree hagrees.below hagrees.above hinput]
  | getRequest h hinput =>
    exact hmap h fun old new hagrees =>
      mpIrpOidGetRequest_agree hagrees.below hagrees.above hinput s.oids
  | completeRequest h hinput =>
    exact hmap h fun old new hagrees => by
      rw [mpIrpOidCompleteRequest_agree hagrees.below hagrees.above hinput]
  | @same label hsame =>
    cases label with
    | create | setFilter | getRequest | completeRequest => cases hsame
    | _ => rfl

/-- From states that agree, two runs that make the same calls in the two versions
have the same replies and end in states that agree: the filter, the pended
requests, what the handlers have returned and what NDIS has been told are the
same after every step. -/
theorem apiVersions_agree (sizes : NdisSizes) (config : AdapterConfig)
    {s t : State} (hst : Agree s t) {labels labels' : List Label}
    (hlabels : List.Forall₂ Label.Corresponds labels labels') :
    Option.Rel (fun p q => Agree p.1 q.1 ∧ q.2 = p.2)
      ((replyMachine sizes config).run (s, []) labels)
      ((replyMachine sizes config).run (t, []) labels') := by
  refine Machine.run_rel (M := replyMachine sizes config)
    (N := replyMachine sizes config) (C := Label.Corresponds) ?_ hlabels
    ⟨hst, rfl⟩
  rintro ⟨s, replies⟩ ⟨t, replies'⟩ label label' ⟨hst, rfl⟩ hlabel
  have hstep := step_agree sizes hst hlabel
  have hreply := ioctlReply_agree hst hlabel
  simp only [replyMachine, Machine.observe, machine]
  generalize step sizes s label = o at hstep ⊢
  generalize step sizes t label' = o' at hstep ⊢
  cases hstep with
  | none => exact .none
  | some hagree => exact .some ⟨hagree, by rw [hreply]⟩

def callsBelow : List Label :=
  [.create 1, .setFilter 0 ⟨24, directFilter.key, true⟩,
    .arrive .direct (directRequest .fnmpMethodDirectNop) 0 true,
    .getRequest 0 ⟨12, directKey .fnmpMethodDirectNop, 8, true⟩,
    .completeRequest 0 { directCompletion with
      inputBufferLength := 32, userKey := none, keyAllocated := false },
    .complete 1]

def callsAbove : List Label :=
  [.create 2, .setFilter 0 directFilter,
    .arrive .direct (directRequest .fnmpMethodDirectNop) 0 true,
    .getRequest 0 ⟨16, directKey .fnmpMethodDirectNop, 8, true⟩,
    .completeRequest 0 directCompletion, .complete 1]

theorem callsBelow_corresponds :
    List.Forall₂ Label.Corresponds callsBelow callsAbove := by
  refine .cons (.create (by decide) (by decide)) <|
    .cons (.setFilter 0 ⟨rfl, by decide, ?_, rfl, rfl⟩) <|
    .cons (.same rfl) <|
    .cons (.getRequest 0 ⟨by decide, rfl, rfl, rfl⟩) <|
    .cons (.completeRequest 0 ⟨by decide, rfl, rfl, rfl, rfl, rfl⟩) <|
    .cons (.same rfl) .nil
  intro index _
  change directFilter.key index = (directFilter.key index).extended
  simp only [directFilter]
  split <;> rfl

theorem apiVersions_agree_directNop :
    Option.Rel (fun p q => Agree p.1 q.1 ∧ q.2 = p.2)
        ((replyMachine ⟨16, 40, 200, 28, 40, 20, 100⟩
          ⟨true, 1500, 0, 0, [], 0⟩).run
            (init ⟨true, 1500, 0, 0, [], 0⟩, []) callsBelow)
        ((replyMachine ⟨16, 40, 200, 28, 40, 20, 100⟩
          ⟨true, 1500, 0, 0, [], 0⟩).run
            (init ⟨true, 1500, 0, 0, [], 0⟩, []) callsAbove) ∧
      ((replyMachine ⟨16, 40, 200, 28, 40, 20, 100⟩
          ⟨true, 1500, 0, 0, [], 0⟩).run
            (init ⟨true, 1500, 0, 0, [], 0⟩, []) callsBelow).any
          (fun p => decide (p.1.completions = [⟨1, .direct, 0, .success⟩]) &&
            decide (p.2 = [none, some (.success, 0, []), none,
              some (.success, 0, []), some (.success, 0, []), none])) =
        true := by
  refine ⟨apiVersions_agree _ _ ⟨∅, rfl, fun h => ?_⟩
    callsBelow_corresponds, by decide +kernel⟩
  exact .none

end OidPath

end WinNetTest.Fnmp
