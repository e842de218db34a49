import WinNetTest.Fnlwf.Status

/-!
# The events of status indications

The events of a run determine which handle governs an indication: of the
handles registered by their first filter request, in the order of these
requests, the first whose latest request names the code of the indication.
The list of the filter module, the settings of its handles and what is queued
to them follow the events.
-/

namespace WinNetTest.Fnlwf.Status

open Support

/-! ## What the events say -/

def registered : List Event → List ℕ
  | [] => []
  | .filtered h _ :: earlier =>
    if h ∈ registered earlier then registered earlier
    else registered earlier ++ [h]
  | .closed h :: earlier => (registered earlier).erase h
  | _ :: earlier => registered earlier

def latestSetting (h : ℕ) : List Event → Option Setting
  | [] => none
  | .filtered h' setting :: earlier =>
    if h' = h then some setting else latestSetting h earlier
  | _ :: earlier => latestSetting h earlier

/-- The handle that governs the indications of a code, with its setting: the
earliest-registered one whose filter has this code. -/
def governor (events : List Event) (statusCode : UInt32) :
    Option (ℕ × Setting) :=
  (registered events).findSome? fun h =>
    (latestSetting h events).bind fun setting =>
      if setting.statusCode = statusCode then some (h, setting) else none

def queuedTo (c : ℕ) : List Event → List (ℕ × List UInt8)
  | [] => []
  | .queued c' h payload :: earlier =>
    if c' = c then (h, payload) :: queuedTo c earlier
    else queuedTo c earlier
  | _ :: earlier => queuedTo c earlier

def forwards (c : ℕ) (events : List Event) : ℕ :=
  events.count (.forwarded c)

/-- The payloads queued to a handle since its latest filter request, in
order. -/
def queuedSince (h : ℕ) : List Event → List (List UInt8)
  | [] => []
  | .opened h' :: earlier => if h' = h then [] else queuedSince h earlier
  | .filtered h' _ :: earlier => if h' = h then [] else queuedSince h earlier
  | .queued _ h' payload :: earlier =>
    if h' = h then queuedSince h earlier ++ [payload]
    else queuedSince h earlier
  | _ :: earlier => queuedSince h earlier

/-- The payloads a handle has got from successful requests since its latest
filter request, in order. -/
def returnedSince (h : ℕ) : List Event → List (List UInt8)
  | [] => []
  | .opened h' :: earlier => if h' = h then [] else returnedSince h earlier
  | .filtered h' _ :: earlier => if h' = h then [] else returnedSince h earlier
  | .replied h' reply :: earlier =>
    if h' = h ∧ reply.status = .success then
      returnedSince h earlier ++ [reply.systemBuffer.take reply.bytesReturned]
    else returnedSince h earlier
  | _ :: earlier => returnedSince h earlier

theorem registered_nodup (events : List Event) : (registered events).Nodup := by
  induction events with
  | nil => exact List.nodup_nil
  | cons event earlier ih =>
    cases event with
    | filtered h setting =>
      simp only [registered]
      split
      · exact ih
      · rename_i hnot
        refine List.nodup_append.mpr ⟨ih, by simp, ?_⟩
        simpa using fun a ha => ne_of_mem_of_not_mem ha hnot
    | closed h => exact ih.erase h
    | _ => exact ih

/-! ## What an action does -/

def StatusFile.setting (file : StatusFile) : Setting where
  statusCode := file.statusCodeFilter
  block := file.blockIndications
  queue := file.queueIndications

def firstMatch (files : Table ℕ StatusFile) (statusCode : UInt32)
    (linked : List ℕ) : Option (ℕ × StatusFile) :=
  linked.findSome? fun h => (files.lookup h).bind fun file =>
    if file.statusCodeFilter = statusCode then some (h, file) else none

variable {file after : StatusFile} {h c : ℕ} {x y : Shared}

theorem firstMatch_some {files : Table ℕ StatusFile} {statusCode : UInt32}
    {linked : List ℕ}
    (hmatch : firstMatch files statusCode linked = some (h, file)) :
    files.lookup h = some file := by
  obtain ⟨h', -, hbind⟩ := List.exists_of_findSome?_eq_some hmatch
  obtain ⟨_, hlookup, hite⟩ := Option.bind_eq_some_iff.mp hbind
  split at hite
  · cases hite
    exact hlookup
  · cases hite

theorem filterStatusLoop_eq (x : Shared) (c : ℕ)
    (indication : StatusIndication) (linked : List ℕ) :
    filterStatusLoop x c indication linked =
      match firstMatch x.files indication.statusCode linked with
      | none => (x, false)
      | some (h, file) =>
        (if file.queueIndications then
          match indication.copy with
          | none => x
          | some payload => x.queueIndication c h file payload
        else x, file.blockIndications) := by
  induction linked with
  | nil => rfl
  | cons h rest ih =>
    cases hlookup : x.files.lookup h with
    | none =>
      simpa [filterStatusLoop, firstMatch, hlookup] using ih
    | some file =>
      by_cases hcode : file.statusCodeFilter = indication.statusCode
      · simp only [filterStatusLoop, firstMatch, hlookup, hcode, if_true,
          List.findSome?_cons, Option.bind_some]
        split
        · cases indication.copy <;> rfl
        · rfl
      · simpa [filterStatusLoop, firstMatch, hlookup, hcode] using ih

inductive Action (x : Shared) (c : ℕ) :
    Option Call → Shared → Option Call → Prop
  | opened : Action x c none
        (({ x with files := x.files.insert c statusCreate }).record
          (.opened c)) none
  | closed {h : ℕ} {file : StatusFile} (hopen : x.files.lookup h = some file) :
      Action x c none (statusCleanup x h) none
  | refused : Action x c none x none
  | filtered {h : ℕ} {file : StatusFile} {setting : Setting}
      (hopen : x.files.lookup h = some file) :
      Action x c none (x.setFilter h setting) none
  | replied {h outputBufferLength : ℕ} {inputOperation : Bool}
      {file after : StatusFile} {reply : Reply}
      (hopen : x.files.lookup h = some file)
      (hreply : statusIrpGetIndication file outputBufferLength
        inputOperation = (reply, after)) :
      Action x c none
        (({ x with files := x.files.insert h after }).record
          (.replied h reply)) none
  | unmatched {indication : StatusIndication}
      (hmatch : firstMatch x.files indication.statusCode
        x.statusFilterList = none) :
      Action x c none (x.record (.indicated c indication))
        (some (.forwarding indication))
  | ignored {indication : StatusIndication} {h : ℕ} {file : StatusFile}
      (hmatch : firstMatch x.files indication.statusCode
        x.statusFilterList = some (h, file))
      (hignore : file.queueIndications = false ∨ indication.copy = none) :
      Action x c none (x.record (.indicated c indication))
        (if file.blockIndications then none
          else some (.forwarding indication))
  | queued {indication : StatusIndication} {h : ℕ} {file : StatusFile}
      {payload : List UInt8}
      (hmatch : firstMatch x.files indication.statusCode
        x.statusFilterList = some (h, file))
      (hqueue : file.queueIndications = true)
      (hcopy : indication.copy = some payload) :
      Action x c none
        ((x.record (.indicated c indication)).queueIndication c h file payload)
        (if file.blockIndications then none
          else some (.forwarding indication))
  | forwarded {indication : StatusIndication} :
      Action x c (some (.forwarding indication)) (x.record (.forwarded c)) none

theorem Action.of_start {input : Input} {after : Option Call}
    (h : start x c input = some (y, after)) :
    Action x c none y after := by
  cases input with
  | create =>
    cases h
    exact .opened
  | close handle =>
    obtain ⟨file, hopen, h⟩ := Option.map_eq_some_iff.mp h
    cases h
    exact .closed hopen
  | filter handle inputBufferLength input =>
    obtain ⟨file, hopen, h⟩ := Option.map_eq_some_iff.mp h
    cases h
    unfold statusIrpFilter
    split
    · exact .refused
    · exact .filtered hopen
  | getIndication handle outputBufferLength inputOperation =>
    obtain ⟨file, hopen, h⟩ := Option.map_eq_some_iff.mp h
    cases h
    exact .replied hopen rfl
  | indicate indication =>
    simp only [start, Option.some.injEq, Prod.mk.injEq] at h
    obtain ⟨rfl, rfl⟩ := h
    rw [filterStatusLoop_eq]
    cases hmatch : firstMatch x.files indication.statusCode
        x.statusFilterList with
    | none =>
      simp only [Shared.record, hmatch]
      exact .unmatched hmatch
    | some found =>
      obtain ⟨h, file⟩ := found
      simp only [Shared.record, hmatch]
      by_cases hqueue : file.queueIndications = true
      · cases hcopy : indication.copy with
        | none =>
          simp only [hqueue, if_true]
          exact .ignored hmatch (Or.inr hcopy)
        | some payload =>
          simp only [hqueue, if_true]
          exact .queued hmatch hqueue hcopy
      · simp only [hqueue]
        exact .ignored hmatch (Or.inl (by simpa using hqueue))

theorem Action.of_turn {s : Pool Shared Call} {n : ℕ}
    {before after : Option Call} (h : program.Turn s c before n y after) :
    Action s.shared c before y after := by
  cases h with
  | start hc hstart => exact .of_start hstart
  | @advance call y after hc hadvance =>
    cases call with
    | forwarding indication =>
      cases hadvance
      exact .forwarded

/-! ## The filter module follows the events -/

/-- The list of the module, the settings of its handles and the contents of
their lists are what the events say. -/
structure Follows (x : Shared) : Prop where
  linked : x.statusFilterList = registered x.events
  isOpen : ∀ h ∈ registered x.events, ∃ file, x.files.lookup h = some file
  settings : ∀ h ∈ registered x.events, ∀ file, x.files.lookup h = some file →
    latestSetting h x.events = some file.setting
  contents : ∀ h file, x.files.lookup h = some file →
    returnedSince h x.events ++ file.statusIndicationList =
      queuedSince h x.events
  delivered : ∀ h, returnedSince h x.events <+: queuedSince h x.events

theorem Follows.governor_eq (hx : Follows x) (statusCode : UInt32) :
    governor x.events statusCode =
      (firstMatch x.files statusCode x.statusFilterList).map
        fun found => (found.1, found.2.setting) := by
  have hlist : ∀ linked : List ℕ, linked ⊆ registered x.events →
      (linked.findSome? fun h => (latestSetting h x.events).bind fun setting =>
        if setting.statusCode = statusCode then some (h, setting) else none) =
      (firstMatch x.files statusCode linked).map
        fun found => (found.1, found.2.setting) := by
    intro linked hsub
    induction linked with
    | nil => rfl
    | cons h rest ih =>
      obtain ⟨hmem, hrest⟩ := List.cons_subset.mp hsub
      obtain ⟨file, hfile⟩ := hx.isOpen h hmem
      have hsetting := hx.settings h hmem file hfile
      by_cases hcode : file.statusCodeFilter = statusCode
      · simp [firstMatch, hfile, hsetting, StatusFile.setting, hcode]
      · simpa [firstMatch, hfile, hsetting, StatusFile.setting, hcode]
          using ih hrest
  rw [hx.linked]
  exact hlist _ (List.Subset.refl _)

theorem statusIrpGetIndication_spec {outputBufferLength : ℕ}
    {inputOperation : Bool} {reply : Reply}
    (h : statusIrpGetIndication file outputBufferLength inputOperation =
      (reply, after)) :
    after.setting = file.setting ∧ (reply.status = .success ∧
        file.statusIndicationList =
          reply.systemBuffer.take reply.bytesReturned ::
            after.statusIndicationList ∨
      reply.status ≠ .success ∧ after = file) := by
  unfold statusIrpGetIndication at h
  split at h
  · cases h
    exact ⟨rfl, Or.inr ⟨by simp, rfl⟩⟩
  · rename_i indication rest hlist
    split at h
    · cases h
      exact ⟨rfl, Or.inr ⟨by simp, rfl⟩⟩
    · split at h
      · cases h
        exact ⟨rfl, Or.inr ⟨by simp, rfl⟩⟩
      · cases h
        exact ⟨rfl, Or.inl ⟨rfl, by simpa using hlist⟩⟩

section

variable (hx : Follows x)

include hx

theorem Follows.record {event : Event}
    (hevent : (∃ c indication, event = .indicated c indication) ∨
      ∃ c, event = .forwarded c) : Follows (x.record event) := by
  rcases hevent with ⟨c, indication, rfl⟩ | ⟨c, rfl⟩ <;>
    exact ⟨hx.linked, hx.isOpen, hx.settings, hx.contents, hx.delivered⟩

theorem Follows.opened (hfresh : x.files.lookup c = none) :
    Follows (({ x with files := x.files.insert c statusCreate }).record
      (.opened c)) := by
  have hne : ∀ h ∈ registered x.events, h ≠ c := by
    rintro h hmem rfl
    obtain ⟨file, hfile⟩ := hx.isOpen h hmem
    rw [hfresh] at hfile
    cases hfile
  refine ⟨hx.linked, fun h hmem => ?_, fun h hmem file hfile => ?_,
    fun h file hfile => ?_, fun h => ?_⟩
  · simpa [Shared.record, hne h hmem] using hx.isOpen h hmem
  · refine hx.settings h hmem file ?_
    simpa [Shared.record, hne h hmem] using hfile
  · by_cases hc : h = c
    · subst hc
      obtain rfl : statusCreate = file := by simpa [Shared.record] using hfile
      simp [Shared.record, returnedSince, queuedSince, statusCreate]
    · have hold := hx.contents h file (by simpa [Shared.record, hc] using hfile)
      simpa [Shared.record, returnedSince, queuedSince, Ne.symm hc] using hold
  · by_cases hc : c = h
    · simp [Shared.record, returnedSince, queuedSince, hc]
    · simpa [Shared.record, returnedSince, queuedSince, hc]
        using hx.delivered h

theorem Follows.closed (h : ℕ) : Follows (statusCleanup x h) := by
  have hmem : ∀ h', h' ∈ registered (.closed h :: x.events) →
      h' ≠ h ∧ h' ∈ registered x.events := fun h' =>
    (registered_nodup x.events).mem_erase_iff.mp
  refine ⟨congrArg (List.erase · h) hx.linked, fun h' hin => ?_,
    fun h' hin file hfile => ?_, fun h' file hfile => ?_, hx.delivered⟩
  · obtain ⟨hne, hin⟩ := hmem h' hin
    simpa [statusCleanup, hne] using hx.isOpen h' hin
  · obtain ⟨hne, hin⟩ := hmem h' hin
    exact hx.settings h' hin file (by simpa [statusCleanup, hne] using hfile)
  · by_cases hne : h' = h
    · subst hne
      simp [statusCleanup] at hfile
    · exact hx.contents h' file (by simpa [statusCleanup, hne] using hfile)

theorem Follows.filtered (h : ℕ) (setting : Setting) :
    Follows (x.setFilter h setting) := by
  unfold Shared.setFilter
  have hmem : ∀ h', h' ∈ registered (.filtered h setting :: x.events) →
      h' ≠ h → h' ∈ registered x.events := by
    intro h' hin hne
    simp only [registered] at hin
    split at hin
    · exact hin
    · simpa [hne] using hin
  refine ⟨?_, fun h' hin => ?_, fun h' hin file hfile => ?_,
    fun h' file hfile => ?_, fun h' => ?_⟩
  · simp only [registered, hx.linked]
  · by_cases hne : h' = h
    · exact ⟨_, by rw [hne, AList.lookup_insert]⟩
    · simpa [hne] using hx.isOpen h' (hmem h' hin hne)
  · by_cases hne : h' = h
    · subst hne
      rw [AList.lookup_insert] at hfile
      cases hfile
      simp [latestSetting, StatusFile.setting]
    · have hold := hx.settings h' (hmem h' hin hne) file
        (by simpa [hne] using hfile)
      simpa [latestSetting, Ne.symm hne] using hold
  · by_cases hne : h' = h
    · subst hne
      rw [AList.lookup_insert] at hfile
      cases hfile
      simp [returnedSince, queuedSince]
    · have hold := hx.contents h' file (by simpa [hne] using hfile)
      simpa [returnedSince, queuedSince, Ne.symm hne] using hold
  · by_cases hne : h = h'
    · simp [returnedSince, queuedSince, hne]
    · simpa [returnedSince, queuedSince, hne] using hx.delivered h'

section

variable (hopen : x.files.lookup h = some file)

include hopen

theorem Follows.exchange {event : Event}
    (hsetting : after.setting = file.setting)
    (hregistered : registered (event :: x.events) = registered x.events)
    (hlatest : ∀ h', latestSetting h' (event :: x.events) =
      latestSetting h' x.events)
    (hcontents : returnedSince h (event :: x.events) ++
        after.statusIndicationList = queuedSince h (event :: x.events))
    (hothers : ∀ h', h' ≠ h →
      returnedSince h' (event :: x.events) = returnedSince h' x.events ∧
        queuedSince h' (event :: x.events) = queuedSince h' x.events) :
    Follows
      { files := x.files.insert h after
        statusFilterList := x.statusFilterList
        events := event :: x.events } := by
  refine ⟨hx.linked.trans hregistered.symm, fun h' hin => ?_,
    fun h' hin file' hfile => ?_, fun h' file' hfile => ?_, fun h' => ?_⟩
  · by_cases hne : h' = h
    · exact ⟨after, by rw [hne, AList.lookup_insert]⟩
    · simpa [hne] using hx.isOpen h' (hregistered ▸ hin)
  · rw [hlatest]
    by_cases hne : h' = h
    · subst hne
      rw [AList.lookup_insert] at hfile
      cases hfile
      rw [hx.settings h' (hregistered ▸ hin) file hopen, hsetting]
    · exact hx.settings h' (hregistered ▸ hin) file'
        (by simpa [hne] using hfile)
  · by_cases hne : h' = h
    · subst hne
      rw [AList.lookup_insert] at hfile
      cases hfile
      exact hcontents
    · rw [(hothers h' hne).1, (hothers h' hne).2]
      exact hx.contents h' file' (by simpa [hne] using hfile)
  · by_cases hne : h' = h
    · subst hne
      exact ⟨_, hcontents⟩
    · rw [(hothers h' hne).1, (hothers h' hne).2]
      exact hx.delivered h'

theorem Follows.replied {outputBufferLength : ℕ} {inputOperation : Bool}
    {reply : Reply}
    (hreply : statusIrpGetIndication file outputBufferLength inputOperation =
      (reply, after)) :
    Follows (({ x with files := x.files.insert h after }).record
      (.replied h reply)) := by
  obtain ⟨hsetting, hspec⟩ := statusIrpGetIndication_spec hreply
  have hcontents := hx.contents h file hopen
  refine hx.exchange hopen hsetting rfl (fun _ => rfl) ?_ ?_
  · rcases hspec with ⟨hstatus, hlist⟩ | ⟨hstatus, rfl⟩
    · rw [hlist] at hcontents
      simpa [returnedSince, queuedSince, hstatus] using hcontents
    · simpa [returnedSince, queuedSince, hstatus] using hcontents
  · intro h' hne
    simp [returnedSince, queuedSince, Ne.symm hne]

theorem Follows.queued (c : ℕ) (payload : List UInt8) :
    Follows (x.queueIndication c h file payload) := by
  have hcontents := hx.contents h file hopen
  refine hx.exchange hopen rfl rfl (fun _ => rfl) ?_ ?_
  · simp [returnedSince, queuedSince, ← hcontents]
  · intro h' hne
    simp [returnedSince, queuedSince, Ne.symm hne]

end

end

theorem Action.follows {before after : Option Call}
    (hact : Action x c before y after) (hx : Follows x)
    (hfresh : before = none → x.files.lookup c = none) : Follows y := by
  cases hact with
  | opened => exact hx.opened (hfresh rfl)
  | closed hopen => exact hx.closed _
  | refused => exact hx
  | filtered hopen => exact hx.filtered _ _
  | replied hopen hreply => exact hx.replied hopen hreply
  | unmatched | ignored => exact hx.record (Or.inl ⟨_, _, rfl⟩)
  | queued hmatch hqueue hcopy =>
    exact (hx.record (Or.inl ⟨_, _, rfl⟩)).queued
      (firstMatch_some hmatch) _ _
  | forwarded => exact hx.record (Or.inr ⟨_, rfl⟩)

end WinNetTest.Fnlwf.Status
