import WinNetTest.Fnmp.OidPath

/-!
# Finding a pended request by its key

A user who wants to inspect or complete a pended request names it by its OID,
its type, its interface and its port.  `MpOidFindFilteredOidByKey` looks only at
the oldest request of the interface, so a request is found by its own key when
all requests pended before it have the same key, and is hidden behind them
otherwise.
-/

namespace WinNetTest.Fnmp

open Support

/-! ## Keys of pended requests -/

def OidRequestEntry.key (i : OidRequestInterface) (entry : OidRequestEntry) :
    OidKey where
  oid := entry.request.oid
  requestType := entry.request.requestType
  requestInterface := i.value
  portNumber := entry.request.portNumber

def OidKey.Names (key : OidKey) (entry : OidRequestEntry) : Prop :=
  entry.request.oid = key.oid ∧ entry.request.requestType = key.requestType ∧
    entry.request.portNumber = key.portNumber

instance (key : OidKey) (entry : OidRequestEntry) :
    Decidable (key.Names entry) :=
  inferInstanceAs (Decidable (_ ∧ _))

def oldestNamed (oids : OidFilter) (i : OidRequestInterface) (key : OidKey) :
    Option OidRequestEntry :=
  (oids.list i).find? fun entry => key.Names entry

@[simp] theorem OidRequestInterface.ofValue_value (i : OidRequestInterface) :
    OidRequestInterface.ofValue i.value = some i := by
  cases i <;> rfl

variable {i : OidRequestInterface} {oids : OidFilter}
variable {entry head : OidRequestEntry}

theorem names_key_iff {other : OidRequestEntry} :
    (entry.key i).Names other ↔ entry.key i = other.key i := by
  simp only [OidKey.Names, OidRequestEntry.key, OidKey.mk.injEq, true_and]
  constructor
  · rintro ⟨hoid, htype, hport⟩
    exact ⟨hoid.symm, htype.symm, hport.symm⟩
  · rintro ⟨hoid, htype, hport⟩
    exact ⟨hoid.symm, htype.symm, hport.symm⟩

theorem mpOidFindFilteredOidByKey_of_cons {rest : List OidRequestEntry}
    (hlist : oids.list i = head :: rest) (key : OidKey) :
    mpOidFindFilteredOidByKey oids i key =
      if key.Names head then some head else none := by
  have hnot : (head.request.oid ≠ key.oid ∨
      head.request.requestType ≠ key.requestType ∨
      head.request.portNumber ≠ key.portNumber) ↔ ¬key.Names head := by
    simp only [OidKey.Names, not_and_or, ne_eq]
  unfold mpOidFindFilteredOidByKey
  rw [hlist]
  simp only [hnot, ite_not]

/-! ## What the calls do with the request they find -/

def getAnswer (input : GetRequestInput) (entry : OidRequestEntry) :
    NtStatus × UInt32 × List UInt8 :=
  match entry.request.inLength with
  | none => (.notSupported, 0, [])
  | some length =>
    if input.outputBufferLength = 0 ∧ !input.inputOperation then
      (.bufferOverflow, length, [])
    else if input.outputBufferLength < length then (.bufferTooSmall, 0, [])
    else
      (.success, length, entry.request.information.bytes.take length.toNat)

/-- The end of `MpIrpOidCompleteRequest`, with the request that was found and
the bytes of the user: the request is removed from its list. -/
def completeAnswer (input : CompleteRequestInput) (i : OidRequestInterface)
    (bytes : List UInt8) (entry : OidRequestEntry) (oids : OidFilter) :
    NtStatus × OidFilter × Option TakenRequest :=
  match entry.request.outLength with
  | none => (.notSupported, oids, none)
  | some room =>
    if room < input.informationBufferLength then
      (.bufferTooSmall, oids, none)
    else
      (.success, oids.setList i ((oids.list i).erase entry),
        some ⟨i, entry.request.receive input.informationBufferLength bytes,
          input.status⟩)

theorem getAnswer_ne_notFound (input : GetRequestInput)
    (entry : OidRequestEntry) : (getAnswer input entry).1 ≠ .notFound := by
  unfold getAnswer
  split
  · simp
  · split
    · simp
    · split <;> simp

theorem completeAnswer_ne_notFound (input : CompleteRequestInput)
    (i : OidRequestInterface) (bytes : List UInt8) (entry : OidRequestEntry)
    (oids : OidFilter) :
    (completeAnswer input i bytes entry oids).1 ≠ .notFound := by
  unfold completeAnswer
  split
  · simp
  · split <;> simp

def GetRequestInput.Asks (apiVersion : UInt32) (input : GetRequestInput)
    (key : OidKey) : Prop :=
  inKeySize apiVersion ≤ input.inputBufferLength ∧
    readKey apiVersion input.key = key

variable {apiVersion : UInt32} {key : OidKey}

theorem mpIrpOidGetRequest_of_asks {input : GetRequestInput}
    (hasks : input.Asks apiVersion key)
    (hi : OidRequestInterface.ofValue key.requestInterface = some i)
    (oids : OidFilter) :
    mpIrpOidGetRequest apiVersion input oids =
      match mpOidFindFilteredOidByKey oids i key with
      | none => (.notFound, 0, [])
      | some entry => getAnswer input entry := by
  obtain ⟨hlength, rfl⟩ := hasks
  simp only [mpIrpOidGetRequest, Nat.not_lt.mpr hlength, if_false, hi]
  rfl

variable {input : CompleteRequestInput}

theorem mpIrpOidCompleteRequest_of_bounced {bytes : List UInt8}
    (hbounced : bounceCompletion apiVersion input = .ok (i, key, bytes))
    (oids : OidFilter) :
    mpIrpOidCompleteRequest apiVersion input oids =
      match mpOidFindFilteredOidByKey oids i key with
      | none => (.notFound, oids, none)
      | some entry => completeAnswer input i bytes entry oids := by
  simp only [mpIrpOidCompleteRequest, hbounced]
  cases hfind : mpOidFindFilteredOidByKey oids i key with
  | none => rfl
  | some entry =>
    have hlist := list_of_mpOidFindFilteredOidByKey hfind
    have herase : (oids.list i).erase entry = (oids.list i).tail := by
      rw [hlist, List.erase_cons_head, List.tail_cons]
    cases hroom : entry.request.outLength with
    | none => simp only [completeAnswer, hroom]
    | some room => simp only [completeAnswer, hroom, herase]

/-! ## When every request is found by its own key -/

/-- Every pended request can be fetched and completed by its own key, the
request acted on is the oldest one the key names, and no call reports that a
request is missing while the interface has one its key names. -/
structure FoundByOwnKey (oids : OidFilter) : Prop where
  get : ∀ i, ∀ entry ∈ oids.list i, ∀ apiVersion input,
    input.Asks apiVersion (entry.key i) →
    (mpIrpOidGetRequest apiVersion input oids).1 ≠ .notFound ∧
      ∃ oldest, oldestNamed oids i (entry.key i) = some oldest ∧
        mpIrpOidGetRequest apiVersion input oids = getAnswer input oldest
  complete : ∀ i, ∀ entry ∈ oids.list i, ∀ apiVersion input bytes,
    bounceCompletion apiVersion input = .ok (i, entry.key i, bytes) →
    (mpIrpOidCompleteRequest apiVersion input oids).1 ≠ .notFound ∧
      ∃ oldest, oldestNamed oids i (entry.key i) = some oldest ∧
        mpIrpOidCompleteRequest apiVersion input oids =
          completeAnswer input i bytes oldest oids
  getMissing : ∀ i key apiVersion input, input.Asks apiVersion key →
    OidRequestInterface.ofValue key.requestInterface = some i →
    (mpIrpOidGetRequest apiVersion input oids).1 = .notFound →
    oldestNamed oids i key = none
  completeMissing : ∀ i key apiVersion input bytes,
    bounceCompletion apiVersion input = .ok (i, key, bytes) →
    (mpIrpOidCompleteRequest apiVersion input oids).1 = .notFound →
    oldestNamed oids i key = none

/-- All requests pended on an interface have the key of the oldest one. -/
def OneKeyPerInterface (oids : OidFilter) : Prop :=
  ∀ i, ∀ entry ∈ oids.list i, ∀ head ∈ (oids.list i).head?,
    entry.key i = head.key i

theorem OneKeyPerInterface.find (h : OneKeyPerInterface oids)
    (hentry : entry ∈ oids.list i) :
    ∃ oldest, oldestNamed oids i (entry.key i) = some oldest ∧
      mpOidFindFilteredOidByKey oids i (entry.key i) = some oldest := by
  cases hlist : oids.list i with
  | nil =>
    rw [hlist] at hentry
    cases hentry
  | cons head rest =>
    have hnames : (entry.key i).Names head :=
      names_key_iff.mpr (h i entry hentry head (by rw [hlist]; rfl))
    refine ⟨head, ?_, ?_⟩
    · simp [oldestNamed, hlist, hnames]
    · rw [mpOidFindFilteredOidByKey_of_cons hlist, if_pos hnames]

theorem key_of_oldestNamed {oldest : OidRequestEntry}
    (hi : OidRequestInterface.ofValue key.requestInterface = some i)
    (h : oldestNamed oids i key = some oldest) :
    oldest ∈ oids.list i ∧ oldest.key i = key := by
  have hnames : key.Names oldest := by simpa using List.find?_some h
  obtain ⟨hoid, htype, hport⟩ := hnames
  have hvalue : i.value = key.requestInterface := by
    unfold OidRequestInterface.ofValue at hi
    split at hi
    · rename_i hzero
      cases hi
      exact hzero.symm
    · split at hi
      · rename_i hone
        cases hi
        exact hone.symm
      · cases hi
  exact ⟨List.mem_of_find?_eq_some h, by
    simp [OidRequestEntry.key, hoid, htype, hport, hvalue]⟩

theorem ofValue_of_bounceCompletion {bytes : List UInt8}
    (h : bounceCompletion apiVersion input = .ok (i, key, bytes)) :
    OidRequestInterface.ofValue key.requestInterface = some i := by
  unfold bounceCompletion at h
  split at h
  · cases h
  · split at h
    · cases h
    · rename_i key' hkey
      split at h
      · cases h
      · rename_i i' hi
        split at h
        · cases h
        · split at h
          · cases h
            exact hi
          · split at h
            · cases h
            · cases h
              exact hi

theorem OneKeyPerInterface.foundByOwnKey (h : OneKeyPerInterface oids) :
    FoundByOwnKey oids := by
  have hget : ∀ i, ∀ entry ∈ oids.list i, ∀ apiVersion input,
      input.Asks apiVersion (entry.key i) →
      (mpIrpOidGetRequest apiVersion input oids).1 ≠ .notFound ∧
        ∃ oldest, oldestNamed oids i (entry.key i) = some oldest ∧
          mpIrpOidGetRequest apiVersion input oids =
            getAnswer input oldest := by
    intro i entry hentry apiVersion input hasks
    obtain ⟨oldest, holdest, hfind⟩ := h.find hentry
    have hanswer := mpIrpOidGetRequest_of_asks hasks
      (OidRequestInterface.ofValue_value i) oids
    rw [hfind] at hanswer
    exact ⟨hanswer ▸ getAnswer_ne_notFound input oldest, oldest, holdest,
      hanswer⟩
  have hcomplete : ∀ i, ∀ entry ∈ oids.list i, ∀ apiVersion input bytes,
      bounceCompletion apiVersion input = .ok (i, entry.key i, bytes) →
      (mpIrpOidCompleteRequest apiVersion input oids).1 ≠ .notFound ∧
        ∃ oldest, oldestNamed oids i (entry.key i) = some oldest ∧
          mpIrpOidCompleteRequest apiVersion input oids =
            completeAnswer input i bytes oldest oids := by
    intro i entry hentry apiVersion input bytes hbounced
    obtain ⟨oldest, holdest, hfind⟩ := h.find hentry
    have hanswer := mpIrpOidCompleteRequest_of_bounced hbounced oids
    rw [hfind] at hanswer
    exact ⟨hanswer ▸ completeAnswer_ne_notFound input i bytes oldest oids,
      oldest, holdest, hanswer⟩
  refine ⟨hget, hcomplete, ?_, ?_⟩
  · intro i key apiVersion input hasks hi hmissing
    by_contra hne
    obtain ⟨oldest, holdest⟩ := Option.ne_none_iff_exists'.mp hne
    obtain ⟨hmem, rfl⟩ := key_of_oldestNamed hi holdest
    exact (hget i oldest hmem apiVersion input hasks).1 hmissing
  · intro i key apiVersion input bytes hbounced hmissing
    by_contra hne
    obtain ⟨oldest, holdest⟩ := Option.ne_none_iff_exists'.mp hne
    obtain ⟨hmem, rfl⟩ :=
      key_of_oldestNamed (ofValue_of_bounceCompletion hbounced) holdest
    exact (hcomplete i oldest hmem apiVersion input bytes hbounced).1 hmissing

theorem asks_key (key : OidKey) :
    GetRequestInput.Asks 2 ⟨16, key, 0, false⟩ key :=
  ⟨le_rfl, rfl⟩

theorem key_eq_of_get
    (hget : (mpIrpOidGetRequest 2 ⟨16, entry.key i, 0, false⟩ oids).1 ≠
      .notFound) (hhead : head ∈ (oids.list i).head?) :
    entry.key i = head.key i := by
  obtain ⟨rest, hlist⟩ : ∃ rest, oids.list i = head :: rest := by
    cases hlist : oids.list i with
    | nil =>
      rw [hlist] at hhead
      cases hhead
    | cons first rest =>
      rw [hlist] at hhead
      cases hhead
      exact ⟨rest, rfl⟩
  rw [mpIrpOidGetRequest_of_asks (asks_key (entry.key i))
      (OidRequestInterface.ofValue_value i),
    mpOidFindFilteredOidByKey_of_cons hlist] at hget
  by_contra hne
  rw [if_neg fun hnames => hne (names_key_iff.mp hnames)] at hget
  exact hget rfl

/-- In every state of the filter, every pended request is found by its own key
exactly when no interface has requests with different keys pended. -/
theorem foundByOwnKey_iff (oids : OidFilter) :
    FoundByOwnKey oids ↔ OneKeyPerInterface oids := by
  constructor
  · intro h i entry hentry head hhead
    exact key_eq_of_get
      (h.get i entry hentry 2 ⟨16, entry.key i, 0, false⟩
        (asks_key (entry.key i))).1 hhead
  · exact OneKeyPerInterface.foundByOwnKey

/-! ## Two direct requests -/

def directRequest (oid : Oid) : NdisOidRequest :=
  .noData oid .method

def directKey (oid : Oid) : OidKey := ⟨oid, .method, 1, 0⟩

def directFilter : SetFilterInput where
  inputBufferLength := 32
  key := fun index => if index = 0 then directKey .quicConnectionEncryption
    else directKey .fnmpMethodDirectNop
  allocated := true

def directCompletion : CompleteRequestInput where
  inputBufferLength := 24
  systemKey := directKey .fnmpMethodDirectNop
  userKey := some (directKey .fnmpMethodDirectNop)
  keyAllocated := true
  status := .success
  informationBufferLength := 0
  informationBuffer := ⟨true, none⟩

/-- Both requests are pended on the direct interface.  The second can neither be
fetched nor completed by its own key while the first is pended. -/
theorem secondDirectRequest_notFound :
    ∃ s, (OidPath.machine ⟨16, 40, 200, 28, 40, 20, 100⟩
        ⟨true, 1500, 0, 0, [], 0⟩).Reachable s ∧
      ((s.oids.list .direct).map (OidRequestEntry.key .direct) =
        [directKey .quicConnectionEncryption, directKey .fnmpMethodDirectNop] ∧
      (mpIrpOidGetRequest 2 ⟨16, directKey .fnmpMethodDirectNop, 100, true⟩
        s.oids).1 = .notFound ∧
      (mpIrpOidCompleteRequest 2 directCompletion s.oids).1 = .notFound) ∧
      ¬FoundByOwnKey s.oids := by
  refine (Machine.exists_reachable_of_run
    [.create 2, .setFilter 0 directFilter,
      .arrive .direct (directRequest .quicConnectionEncryption) 0 true,
      .arrive .direct (directRequest .fnmpMethodDirectNop) 0 true]
    (by decide +kernel)).imp fun s ⟨hs, hrun⟩ => ⟨hs, hrun, fun h => ?_⟩
  have hmem : directKey .fnmpMethodDirectNop ∈
      (s.oids.list .direct).map (OidRequestEntry.key .direct) := by
    rw [hrun.1]
    exact List.mem_cons_of_mem _ List.mem_cons_self
  obtain ⟨entry, hentry, hkey⟩ := List.mem_map.mp hmem
  exact (h.get .direct entry hentry 2
    ⟨16, directKey .fnmpMethodDirectNop, 100, true⟩
    ⟨by decide, hkey.symm⟩).1 hrun.2.1

end WinNetTest.Fnmp
