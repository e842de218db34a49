import WinNetTest.Isr.RelayAgreement

/-!
# Handles and registrations of the relay

At any time at most one handle of each type exists: it is being created, it is
open, or it is being closed.  While it is open its party is registered and
grants references.  An IRP that is not completed keeps its handle open, so a
POST always finds the client of the request that it completes: no request is
dropped.
-/

namespace WinNetTest.Isr

open Support

/-! ## The slots -/

def slot (type : FileType) (userContext : Option ℕ) : Multiset (FileType × ℕ) :=
  userContext.elim 0 fun file => {(type, file)}

def Shared.slots (x : Shared) : Multiset (FileType × ℕ) :=
  slot .client x.client.userContext + slot .service x.service.userContext

def openFiles (files : Table ℕ FileType) : Multiset (FileType × ℕ) :=
  files.total fun file type => {(type, file)}

def Call.session : Call → Multiset (FileType × ℕ)
  | .registering type file | .registered type file | .closing type file _ =>
    {(type, file)}
  | _ => 0

@[simp] theorem party_setParty_self (x : Shared) (type : FileType) (p : Party) :
    (x.setParty type p).party type = p := by
  cases type <;> rfl

variable {type : FileType}

theorem party_setParty_ne (x : Shared) {type' : FileType} (p : Party)
    (h : type' ≠ type) : (x.setParty type p).party type' = x.party type' := by
  cases type <;> cases type' <;> first | rfl | exact absurd rfl h

theorem slots_setParty (x : Shared) (type : FileType) (p : Party) :
    (x.setParty type p).slots + slot type (x.party type).userContext =
      x.slots + slot type p.userContext := by
  cases type
  · simp only [Shared.slots, Shared.setParty, Shared.party, if_true,
      reduceCtorEq, if_false]
    abel
  · simp only [Shared.slots, Shared.setParty, Shared.party, if_true,
      reduceCtorEq, if_false]
    abel

variable {x y : Shared} {before after : Option Call} {s : Pool Shared Call}
variable {file c irp : ℕ}

theorem mem_slots :
    (type, file) ∈ x.slots ↔ (x.party type).userContext = some file := by
  have hslot : ∀ type' userContext, (type, file) ∈ slot type' userContext ↔
      type = type' ∧ userContext = some file := by
    intro type' userContext
    cases userContext <;> simp [slot, eq_comm]
  rw [Shared.slots, Multiset.mem_add, hslot, hslot]
  cases type <;> simp [Shared.party]

theorem nodup_slots (x : Shared) : (x.slots.map Prod.fst).Nodup := by
  cases hc : x.client.userContext <;> cases hs : x.service.userContext <;>
    simp [Shared.slots, slot, hc, hs]

theorem acquire_eq {p p' : Party} (h : p.acquire = some p') :
    p'.userContext = p.userContext ∧ p'.isRegistered = p.isRegistered ∧
      p'.rundown.active = p.rundown.active := by
  unfold Party.acquire Rundown.acquire at h
  split_ifs at h
  · cases h
    exact ⟨rfl, rfl, rfl⟩
  · cases h

theorem acquire_ne_none {p : Party} (hregistered : p.isRegistered = true)
    (hactive : p.rundown.active = true) : p.acquire ≠ none := by
  simp [Party.acquire, Rundown.acquire, hregistered, hactive]

structure SameSessions (x y : Shared) : Prop where
  files : y.files = x.files
  nextFile : y.nextFile = x.nextFile
  party : ∀ type, (y.party type).userContext = (x.party type).userContext ∧
    (y.party type).isRegistered = (x.party type).isRegistered ∧
    (y.party type).rundown.active = (x.party type).rundown.active

theorem Action.session_cases (h : Action x c before y after) :
    SessionAction x before y after ∨
      (SameSessions x y ∧ (∀ call ∈ before, call.session = 0) ∧
        ∀ call ∈ after, call.session = 0) := by
  have hsame : ∀ {y : Shared}, y.files = x.files → y.nextFile = x.nextFile →
      y.client = x.client → y.service = x.service → SameSessions x y := by
    intro y hfiles hnext hclient hservice
    refine ⟨hfiles, hnext, ?_⟩
    intro type
    cases type <;> simp [Shared.party, hclient, hservice]
  cases h with
  | session h => exact Or.inl h
  | push id command service hacquire =>
    refine Or.inr ⟨⟨rfl, rfl, ?_⟩, by simp [Call.session], ?_⟩
    · intro type
      cases type
      · exact ⟨rfl, rfl, rfl⟩
      · exact acquire_eq hacquire
    · split <;> simp [Call.session]
  | pushReturn =>
    refine Or.inr ⟨⟨rfl, rfl, ?_⟩, by simp [Call.session], by simp⟩
    intro type
    cases type <;> exact ⟨rfl, rfl, rfl⟩
  | postAcquire request result client hacquire =>
    refine Or.inr ⟨⟨rfl, rfl, ?_⟩, by simp [Call.session],
      by simp [Call.session]⟩
    intro type
    cases type
    · exact acquire_eq hacquire
    · exact ⟨rfl, rfl, rfl⟩
  | postRelease =>
    refine Or.inr ⟨⟨rfl, rfl, ?_⟩, by simp [Call.session],
      by simp [Call.session]⟩
    intro type
    cases type <;> exact ⟨rfl, rfl, rfl⟩
  | _ =>
    exact Or.inr ⟨hsame rfl rfl rfl rfl, by simp [Call.session],
      by simp [Call.session]⟩

structure Distinct (x : Shared) : Prop where
  lt : ∀ type file, (x.party type).userContext = some file → file < x.nextFile
  eq : ∀ type type' file, (x.party type).userContext = some file →
    (x.party type').userContext = some file → type = type'

theorem SessionAction.userContext_cases (h : SessionAction x before y after)
    (hfile : (y.party type).userContext = some file) :
    ((x.party type).userContext = some file ∧ x.nextFile ≤ y.nextFile) ∨
      (file = x.nextFile ∧ y.nextFile = x.nextFile + 1 ∧
        after = some (.registering type file)) := by
  have hset : ∀ (x' : Shared) {type' : FileType} {p : Party},
      x'.party = x.party →
      ((x'.setParty type' p).party type).userContext = some file →
      p.userContext = (x.party type').userContext ∨ p.userContext = none →
      (x.party type).userContext = some file := by
    intro x' type' p hparty hfile hp
    by_cases htype : type = type'
    · subst htype
      rw [party_setParty_self] at hfile
      rcases hp with hp | hp
      · exact hp ▸ hfile
      · rw [hp] at hfile
        cases hfile
    · rw [party_setParty_ne _ _ htype, hparty] at hfile
      exact hfile
  cases h with
  | refused | close | drained => exact Or.inl ⟨hfile, le_rfl⟩
  | create type' hslot =>
    by_cases htype : type = type'
    · subst htype
      rw [party_setParty_self] at hfile
      cases hfile
      exact Or.inr ⟨rfl, rfl, rfl⟩
    · rw [party_setParty_ne _ _ htype] at hfile
      exact Or.inl ⟨hfile, Nat.le_succ _⟩
  | initRundown | register | beginWait | deregister =>
    exact Or.inl ⟨hset _ rfl hfile (Or.inl rfl), le_rfl⟩
  | release type' file' =>
    refine Or.inl ⟨hset _ rfl hfile ?_, le_rfl⟩
    dsimp only
    split
    · exact Or.inr rfl
    · exact Or.inl rfl

theorem distinct_of_reachable (hs : relay.machine.Reachable s) :
    Distinct s.shared := by
  refine Program.invariant (I := fun s => Distinct s.shared)
    ?_ ?_ hs
  · refine ⟨?_, ?_⟩
    · intro type file hfile
      cases type <;> cases hfile
    · intro type type' file hfile
      cases type <;> cases hfile
  · intro s c before n y after _ ih _ hturn
    rcases (action_of_turn hturn).1.session_cases with
      hsession | ⟨hsame, -, -⟩
    · refine ⟨?_, ?_⟩
      · intro type file hfile
        rcases hsession.userContext_cases hfile with
          ⟨hold, hnext⟩ | ⟨rfl, hnext, -⟩
        · exact (ih.lt type file hold).trans_le hnext
        · exact hnext ▸ Nat.lt_succ_self _
      · intro type type' file hfile hfile'
        rcases hsession.userContext_cases hfile with
          ⟨hold, -⟩ | ⟨hnew, -, hafter⟩
        · rcases hsession.userContext_cases hfile' with
            ⟨hold', -⟩ | ⟨hnew', -, -⟩
          · exact ih.eq type type' file hold hold'
          · exact absurd (ih.lt type file hold) (by omega)
        · rcases hsession.userContext_cases hfile' with
            ⟨hold', -⟩ | ⟨-, -, hafter'⟩
          · exact absurd (ih.lt type' file hold') (by omega)
          · rw [hafter] at hafter'
            cases hafter'
            rfl
    · refine ⟨?_, ?_⟩
      · intro type file hfile
        rw [(hsame.party type).1] at hfile
        exact hsame.nextFile ▸ ih.lt type file hfile
      · intro type type' file hfile hfile'
        rw [(hsame.party type).1] at hfile
        rw [(hsame.party type').1] at hfile'
        exact ih.eq type type' file hfile hfile'

/-! ## One session for each type -/

/-- The handles in the slots are being created or closed, or are open. -/
def Sessions (s : Pool Shared Call) : Prop :=
  s.shared.slots =
    s.calls.total (fun _ => Call.session) + openFiles s.shared.files

section

variable {s : Pool Shared Call} {c c' file file' : ℕ} {call call' : Call}
  {type type' : FileType}

theorem Sessions.count_le_one (h : Sessions s) (type : FileType) :
    ((s.calls.total (fun _ => Call.session) +
      openFiles s.shared.files).map Prod.fst).count type ≤ 1 := by
  rw [← h]
  exact Multiset.nodup_iff_count_le_one.mp (nodup_slots s.shared) type

theorem Sessions.userContext_eq (h : Sessions s)
    (hcall : s.calls.lookup c = some call)
    (hsession : (type, file) ∈ call.session) :
    (s.shared.party type).userContext = some file := by
  rw [← mem_slots, h, Multiset.mem_add]
  exact Or.inl (Table.mem_total.mpr ⟨c, call, hcall, hsession⟩)

theorem mem_openFiles {files : Table ℕ FileType} :
    (type, file) ∈ openFiles files ↔ files.lookup file = some type := by
  rw [openFiles, Table.mem_total]
  constructor
  · rintro ⟨file', type', hfile, hmem⟩
    cases Multiset.mem_singleton.mp hmem
    exact hfile
  · intro hfile
    exact ⟨file, type, hfile, Multiset.mem_singleton_self _⟩

theorem Sessions.ne_of_open (h : Sessions s)
    (hcall : s.calls.lookup c = some call)
    (hsession : (type, file) ∈ call.session)
    (hopen : s.shared.files.lookup file' = some type') : type' ≠ type := by
  rintro rfl
  have hcount := h.count_le_one type'
  have hhand : type' ∈ (s.calls.total fun _ => Call.session).map Prod.fst :=
    Multiset.mem_map.mpr ⟨_, Table.mem_total.mpr ⟨c, call, hcall, hsession⟩, rfl⟩
  have hfiles : type' ∈ (openFiles s.shared.files).map Prod.fst :=
    Multiset.mem_map.mpr ⟨_, mem_openFiles.mpr hopen, rfl⟩
  rw [Multiset.map_add, Multiset.count_add] at hcount
  have hpos := Multiset.count_pos.mpr hhand
  have hpos' := Multiset.count_pos.mpr hfiles
  omega

theorem Sessions.ne_of_session (h : Sessions s) (hc : c' ≠ c)
    (hcall : s.calls.lookup c = some call)
    (hsession : (type, file) ∈ call.session)
    (hcall' : s.calls.lookup c' = some call')
    (hsession' : (type', file') ∈ call'.session) : type' ≠ type := by
  rintro rfl
  have hcount := h.count_le_one type'
  rw [Table.total_eq_of_lookup (fun _ => Call.session) hcall] at hcount
  have hhand : type' ∈ call.session.map Prod.fst :=
    Multiset.mem_map.mpr ⟨_, hsession, rfl⟩
  have hother : type' ∈ (Table.total (fun _ => Call.session)
      (s.calls.erase c)).map Prod.fst := by
    refine Multiset.mem_map.mpr ⟨_, Table.mem_total.mpr ⟨c', call', ?_,
      hsession'⟩, rfl⟩
    rw [AList.lookup_erase_ne hc]
    exact hcall'
  simp only [Multiset.map_add, Multiset.count_add] at hcount
  have hpos := Multiset.count_pos.mpr hhand
  have hpos' := Multiset.count_pos.mpr hother
  omega

theorem Sessions.not_open (h : Sessions s) (hdistinct : Distinct s.shared)
    (hcall : s.calls.lookup c = some call)
    (hsession : (type, file) ∈ call.session) :
    s.shared.files.lookup file = none := by
  by_contra hne
  obtain ⟨type', hopen⟩ := Option.ne_none_iff_exists'.mp hne
  refine h.ne_of_open hcall hsession hopen ?_
  refine hdistinct.eq type' type file ?_ (h.userContext_eq hcall hsession)
  rw [← mem_slots, h, Multiset.mem_add]
  exact Or.inr (mem_openFiles.mpr hopen)

end

theorem slots_eq_of_userContext
    (h : ∀ type, (y.party type).userContext = (x.party type).userContext) :
    y.slots = x.slots := by
  have hclient := h .client
  have hservice := h .service
  simp only [Shared.party] at hclient hservice
  rw [Shared.slots, Shared.slots, hclient, hservice]

theorem SessionAction.slots (h : SessionAction x before y after)
    (hopen : ∀ call ∈ before, ∀ type file, (type, file) ∈ call.session →
      (x.party type).userContext = some file ∧ x.files.lookup file = none) :
    y.slots + (before.elim 0 Call.session + openFiles x.files) =
      x.slots + (after.elim 0 Call.session + openFiles y.files) := by
  have hkeep : ∀ (type : FileType) (p : Party),
      p.userContext = (x.party type).userContext →
      (x.setParty type p).slots = x.slots := by
    intro type p hp
    have hset := slots_setParty x type p
    rw [hp] at hset
    exact add_right_cancel hset
  cases h with
  | refused | drained => rfl
  | create type hslot =>
    have hset := slots_setParty { x with nextFile := x.nextFile + 1 } type
      { x.party type with userContext := some x.nextFile }
    have hnone : slot type ((Shared.party
        { x with nextFile := x.nextFile + 1 } type).userContext) = 0 := by
      change slot type (x.party type).userContext = 0
      rw [hslot]
      rfl
    rw [hnone, add_zero] at hset
    rw [hset]
    simp only [Option.elim, Call.session, slot, zero_add]
    exact add_assoc _ _ _
  | initRundown type file =>
    rw [hkeep type { x.party type with rundown := .initialized } rfl]
    rfl
  | register type file =>
    obtain ⟨-, hfile⟩ := hopen _ rfl type file (Multiset.mem_singleton_self _)
    have hinsert : openFiles (x.files.insert file type) =
        {(type, file)} + openFiles x.files :=
      Table.total_insert_of_lookup_none _ type hfile
    change (x.setParty type { x.party type with isRegistered := true }).slots +
      _ = _ + (_ + openFiles (x.files.insert file type))
    rw [hkeep type { x.party type with isRegistered := true } rfl, hinsert]
    simp only [Option.elim, Call.session, zero_add]
  | close type file hfile =>
    have herase : openFiles x.files =
        {(type, file)} + openFiles (x.files.erase file) :=
      Table.total_eq_of_lookup _ hfile
    simp only [Option.elim, Call.session, zero_add, herase]
    rfl
  | beginWait type file =>
    rw [hkeep type { x.party type with
      rundown := (x.party type).rundown.beginWait } rfl]
    rfl
  | deregister type file =>
    rw [hkeep type { x.party type with isRegistered := false } rfl]
    rfl
  | release type file =>
    obtain ⟨hslot, -⟩ := hopen _ rfl type file (Multiset.mem_singleton_self _)
    have hset := slots_setParty x type { x.party type with
      userContext := if (x.party type).userContext = some file then none
        else (x.party type).userContext }
    simp only [hslot, if_true, slot, Option.elim, add_zero] at hset
    simp only [hslot, if_true, Option.elim, Call.session, zero_add]
    rw [← add_assoc, hset]
    rfl

theorem sessions_of_reachable (hs : relay.machine.Reachable s) :
    Sessions s := by
  refine Program.conserved (fun _ => Call.session) Shared.slots
    (fun x => openFiles x.files) rfl ?_ hs
  intro s c before n y after hs ih hbefore hturn
  rcases (action_of_turn hturn).1.session_cases with
    hsession | ⟨hsame, hbefore', hafter⟩
  · refine hsession.slots ?_
    intro call hcall type file hfile
    exact ⟨Sessions.userContext_eq ih (hbefore.trans hcall) hfile,
      Sessions.not_open ih (distinct_of_reachable hs) (hbefore.trans hcall)
        hfile⟩
  · have hnone : ∀ calls : Option Call, (∀ call ∈ calls, call.session = 0) →
        calls.elim 0 Call.session = 0 := by
      intro calls hcalls
      cases calls with
      | none => rfl
      | some call => exact hcalls call rfl
    rw [hnone before hbefore', hnone after hafter, hsame.files,
      slots_eq_of_userContext fun type => (hsame.party type).1]

/-! ## Registration -/

def Live (x : Shared) : Prop :=
  ∀ file type, x.files.lookup file = some type →
    (x.party type).isRegistered = true ∧ (x.party type).rundown.active = true

def Prepared (x : Shared) : Call → Prop
  | .registered type _ => (x.party type).rundown.active = true
  | _ => True

theorem SessionAction.registration_eq (h : SessionAction x before y after)
    (type : FileType)
    (hother : ∀ call ∈ before, ∀ file, (type, file) ∉ call.session) :
    (y.party type).isRegistered = (x.party type).isRegistered ∧
      (y.party type).rundown = (x.party type).rundown := by
  have hne : ∀ {call type' file}, call ∈ before →
      (type', file) ∈ call.session → type ≠ type' := by
    rintro call type' file hcall hsession rfl
    exact hother call hcall file hsession
  cases h with
  | refused | close | drained => exact ⟨rfl, rfl⟩
  | create type' hslot =>
    by_cases htype : type = type'
    · subst htype
      rw [party_setParty_self]
      exact ⟨rfl, rfl⟩
    · rw [party_setParty_ne _ _ htype]
      exact ⟨rfl, rfl⟩
  | initRundown | register | beginWait | deregister | release =>
    rw [party_setParty_ne _ _ (hne rfl (Multiset.mem_singleton_self _))]
    exact ⟨rfl, rfl⟩

theorem SessionAction.files_cases (h : SessionAction x before y after)
    (hfile : y.files.lookup file = some type) :
    x.files.lookup file = some type ∨
      (before = some (.registered type file) ∧ y.party type =
        { x.party type with isRegistered := true }) := by
  cases h with
  | register type' file' =>
    by_cases heq : file = file'
    · subst heq
      change (x.files.insert file type').lookup file = some type at hfile
      rw [AList.lookup_insert] at hfile
      cases hfile
      exact Or.inr ⟨rfl, party_setParty_self _ _ _⟩
    · change (x.files.insert file' type').lookup file = some type at hfile
      rw [AList.lookup_insert_ne heq] at hfile
      exact Or.inl hfile
  | close type' file' =>
    by_cases heq : file = file'
    · subst heq
      rw [AList.lookup_erase] at hfile
      cases hfile
    · rw [AList.lookup_erase_ne heq] at hfile
      exact Or.inl hfile
  | _ => exact Or.inl hfile

theorem live_of_reachable (hs : relay.machine.Reachable s) :
    Program.Annotated (fun _ => Live) (fun x _ => Prepared x) s := by
  refine Program.invariant ?_ ?_ hs
  · exact ⟨by rintro file type ⟨⟩, by rintro c call ⟨⟩⟩
  · intro s c before n y after hs ih hbefore hturn
    have hsessions := sessions_of_reachable hs
    rcases (action_of_turn hturn).1.session_cases with
      hact | ⟨hsame, -, hafter⟩
    · refine Program.Annotated.turn ?_ ?_ ?_
      · intro file type hfile
        rcases hact.files_cases hfile with hopen | ⟨rfl, hparty⟩
        · have hkeep := hact.registration_eq type fun call hcall file'
            hsession => hsessions.ne_of_open (hbefore.trans hcall) hsession
              hopen rfl
          rw [hkeep.1, hkeep.2]
          exact ih.shared file type hopen
        · rw [hparty]
          exact ⟨rfl, ih.calls c _ hbefore⟩
      · intro call hcall
        cases hact with
        | initRundown type file =>
          cases hcall
          change (Shared.party (s.shared.setParty type _) type).rundown.active =
            true
          rw [party_setParty_self]
          rfl
        | _ =>
          cases hcall
          try exact trivial
      · intro c' call hc hcall
        cases call with
        | registered type file =>
          have hkeep := hact.registration_eq type
            fun call' hcall' file' hsession =>
              hsessions.ne_of_session hc (hbefore.trans hcall') hsession
                hcall (Multiset.mem_singleton_self (type, file)) rfl
          change (y.party type).rundown.active = true
          rw [hkeep.2]
          exact ih.calls c' _ hcall
        | _ => exact trivial
    · refine Program.Annotated.turn ?_ ?_ ?_
      · intro file type hfile
        rw [hsame.files] at hfile
        rw [(hsame.party type).2.1, (hsame.party type).2.2]
        exact ih.shared file type hfile
      · intro call hcall
        cases call with
        | registered type file =>
          exact absurd (hafter _ hcall) (Multiset.singleton_ne_zero _)
        | _ => exact trivial
      · intro c' call _ hcall
        cases call with
        | registered type file =>
          change (y.party type).rundown.active = true
          rw [(hsame.party type).2.2]
          exact ih.calls c' _ hcall
        | _ => exact trivial

/-! ## The handles of the IRPs -/

theorem Action.completions_subset (h : Action x c before y after) :
    x.completions ⊆ y.completions := by
  rcases h.completions_cases with
    hsame | ⟨irp, status, rfl⟩ | ⟨request, result, -, hnew⟩
  · rw [hsame]
    exact List.Subset.refl _
  · exact List.subset_append_left _ _
  · rw [hnew]
    exact List.subset_append_left _ _

theorem Action.completedIrps_subset (h : Action x c before y after) :
    x.completedIrps ⊆ y.completedIrps :=
  List.map_subset _ h.completions_subset

theorem open_of_not_completed (hs : relay.machine.Reachable s) {i : Irp}
    (hi : s.shared.irps.lookup irp = some i)
    (hirp : irp ∉ s.shared.completedIrps) :
    s.shared.files.lookup i.file = some i.objectType := by
  refine Program.invariant
    (I := fun s => ∀ irp i, s.shared.irps.lookup irp = some i →
      irp ∉ s.shared.completedIrps →
      s.shared.files.lookup i.file = some i.objectType) ?_ ?_ hs irp i hi hirp
  · rintro irp i ⟨⟩
  · intro s c before n y after hs ih hbefore hturn irp i hi hirp
    have hact := (action_of_turn hturn).1
    have hopen : s.shared.files.lookup i.file = some i.objectType := by
      rcases hact.irp_cases hi with ⟨-, -, hfile⟩ | ⟨i', hi', hfile, htype⟩
      · exact hfile
      · rw [hfile, htype]
        exact ih irp i' hi' fun hold => hirp (hact.completedIrps_subset hold)
    rcases hact.session_cases with hsession | ⟨hsame, -, -⟩
    · cases hsession with
      | register type file =>
        have hne : i.file ≠ file := by
          rintro rfl
          rw [(sessions_of_reachable hs).not_open (distinct_of_reachable hs)
            hbefore (Multiset.mem_singleton_self (type, i.file))] at hopen
          cases hopen
        exact (AList.lookup_insert_ne hne).trans hopen
      | close type file hfile hirps =>
        have hne : i.file ≠ file := fun heq => hirp (hirps irp i hi heq)
        exact (AList.lookup_erase_ne hne).trans hopen
      | _ => exact hopen
    · rw [← hsame.files] at hopen
      exact hopen

def IsClientIrp (x : Shared) (irp : ℕ) : Prop :=
  ∃ i, x.irps.lookup irp = some i ∧ i.objectType = .client

theorem IsClientIrp.of_action (hirp : IsClientIrp x irp)
    (h : Action x c before y after)
    (hfresh : before = none → x.irps.lookup c = none) : IsClientIrp y irp := by
  obtain ⟨i, hi, htype⟩ := hirp
  obtain ⟨i', hi', -, htype', -⟩ := h.irp_kept hfresh hi
  exact ⟨i', hi', htype'.trans htype⟩

section

variable (hs : relay.machine.Reachable s)

include hs

theorem clientIrp_of_reachable :
    Program.Annotated
      (fun _ x => ∀ r ∈ x.inserted, IsClientIrp x r.clientContext)
      (fun x c call => ∀ id command, call = .submitting id command →
        IsClientIrp x c) s := by
  refine Program.invariant ?_ ?_ hs
  · exact ⟨by rintro r ⟨⟩, by rintro c call ⟨⟩⟩
  · intro s c before n y after hs ih hbefore hturn
    have hact := (action_of_turn hturn).1
    have hfresh := irp_fresh hs hturn
    refine Program.Annotated.turn ?_ ?_ ?_
    · intro r hr
      rcases hact.inserted_cases with hsame | ⟨id, command, rfl, hpush⟩
      · rw [hsame] at hr
        exact (ih.shared r hr).of_action hact hfresh
      · rw [hpush, List.mem_append, List.mem_singleton] at hr
        rcases hr with hr | rfl
        · exact (ih.shared r hr).of_action hact hfresh
        · exact (ih.calls c _ hbefore id command rfl).of_action hact hfresh
    · rintro call hcall id command rfl
      cases hact with
      | submit file command' => exact ⟨_, AList.lookup_insert _, rfl⟩
      | push id' command' service =>
        split at hcall <;> cases hcall
      | session hsession => cases hsession <;> cases hcall
      | _ => cases hcall
    · rintro c' call - hcall id command hsubmitting
      exact (ih.calls c' call hcall id command hsubmitting).of_action hact
        hfresh

theorem client_acquire_ne_none {r : Request} (hr : r ∈ s.shared.inserted)
    (hirp : r.clientContext ∉ s.shared.completedIrps) :
    s.shared.client.acquire ≠ none := by
  obtain ⟨i, hi, htype⟩ := (clientIrp_of_reachable hs).shared r hr
  have hopen := open_of_not_completed hs hi hirp
  rw [htype] at hopen
  obtain ⟨hregistered, hactive⟩ :=
    (live_of_reachable hs).shared i.file .client hopen
  exact acquire_ne_none hregistered hactive

theorem dropped_eq_nil : s.shared.dropped = [] := by
  refine Program.invariant
    (I := fun s => s.shared.dropped = []) rfl ?_ hs
  intro s c before n y after hs ih hbefore hturn
  cases (action_of_turn hturn).1 with
  | session h =>
    cases h <;> exact ih
  | postDrop request result hacquire =>
    obtain ⟨hinserted, -⟩ := (answered_of_reachable hs).calls c _ hbefore
    refine absurd hacquire (client_acquire_ne_none hs hinserted ?_)
    intro hcompleted
    have hhand : request.clientContext ∈
        Call.irps c (.posting (.took request result)) :=
      Multiset.mem_add.mpr (Or.inr (Multiset.mem_singleton_self _))
    refine (accounted_of_reachable hs).notMem_settledIrps hbefore hhand ?_
    simp [Shared.settledIrps, hcompleted]
  | _ => exact ih

end

end WinNetTest.Isr
