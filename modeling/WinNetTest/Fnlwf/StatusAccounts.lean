import WinNetTest.Fnlwf.StatusEvents

/-!
# What becomes of a status indication

Every indication is queued and forwarded as the handle that governs it asks,
and every handle gets what is queued to it in order.  The account of an
indication is settled by the events of its own call, so a turn of one call
leaves the accounts of the others as they are.
-/

namespace WinNetTest.Fnlwf.Status

open Support

/-! ## Every indication is judged once -/

def StatusIndication.allocated (indication : StatusIndication) : Prop :=
  indication.copyAllocated = true ∧ indication.bufferAllocated = true

variable {indication : StatusIndication}

theorem StatusIndication.copy_of_allocated (h : indication.allocated) :
    indication.copy = some indication.statusBuffer := by
  unfold copy
  rw [h.1, h.2]
  cases indication.statusBuffer <;> simp

/-- The copies the handle that governs an indication asks for, after the events
before its arrival. -/
def copiesAsked (earlier : List Event) (indication : StatusIndication) :
    List (ℕ × List UInt8) :=
  match governor earlier indication.statusCode with
  | none => []
  | some (h, setting) =>
    if setting.queue then [(h, indication.statusBuffer)] else []

def blocked (earlier : List Event) (indication : StatusIndication) : Bool :=
  (governor earlier indication.statusCode).any fun found => found.2.block

def Event.number : Event → Option ℕ
  | .indicated c _ => some c
  | .queued c _ _ => some c
  | .forwarded c => some c
  | _ => none

/-- The indications that have arrived are queued as asked, and are forwarded
once or in the course of it unless they are blocked. -/
structure Judged (s : Pool Shared Call) : Prop where
  isOpen : ∀ h file, s.shared.files.lookup h = some file → h < s.nextCall
  numbered : ∀ event ∈ s.shared.events, ∀ c, event.number = some c →
    c < s.nextCall
  copies : ∀ c indication earlier,
    (.indicated c indication :: earlier) <:+ s.shared.events →
    indication.allocated →
    queuedTo c s.shared.events = copiesAsked earlier indication
  onward : ∀ c indication earlier,
    (.indicated c indication :: earlier) <:+ s.shared.events →
    forwards c s.shared.events + (s.calls.lookup c).elim 0 (fun _ => 1) =
      if blocked earlier indication then 0 else 1

variable {c n : ℕ}

theorem account_cons {event : Event} (h : event.number ≠ some c)
    (earlier : List Event) :
    queuedTo c (event :: earlier) = queuedTo c earlier ∧
      forwards c (event :: earlier) = forwards c earlier := by
  have hne : event ≠ .forwarded c := fun heq => h (heq ▸ rfl)
  refine ⟨?_, List.count_cons_of_ne hne⟩
  cases event with
  | queued c' h' payload =>
    have hc : c' ≠ c := fun heq => h (congrArg some heq)
    simp [queuedTo, hc]
  | _ => rfl

theorem account_append {front : List Event}
    (h : ∀ event ∈ front, event.number ≠ some c) (events : List Event) :
    queuedTo c (front ++ events) = queuedTo c events ∧
      forwards c (front ++ events) = forwards c events ∧
      ∀ indication earlier,
        (.indicated c indication :: earlier) <:+ front ++ events →
          (.indicated c indication :: earlier) <:+ events := by
  induction front with
  | nil => exact ⟨rfl, rfl, fun _ _ => id⟩
  | cons event front ih =>
    obtain ⟨hevent, hfront⟩ := List.forall_mem_cons.mp h
    obtain ⟨hqueued, hforwards, harrival⟩ := ih hfront
    obtain ⟨hqueued', hforwards'⟩ := account_cons hevent (front ++ events)
    refine ⟨hqueued'.trans hqueued, hforwards'.trans hforwards,
      fun indication earlier hsuffix => ?_⟩
    rcases List.suffix_cons_iff.mp hsuffix with heq | hsuffix
    · cases heq
      exact absurd rfl hevent
    · exact harrival indication earlier hsuffix

variable {s : Pool Shared Call}

theorem Judged.fresh (hs : Judged s) :
    queuedTo s.nextCall s.shared.events = [] ∧
      forwards s.nextCall s.shared.events = 0 ∧
      ∀ indication earlier, ¬(.indicated s.nextCall indication :: earlier) <:+
          s.shared.events := by
  have hnumber : ∀ event ∈ s.shared.events,
      event.number ≠ some s.nextCall := fun event hevent heq =>
    Nat.lt_irrefl _ (hs.numbered event hevent _ heq)
  have haccount := account_append hnumber []
  rw [List.append_nil] at haccount
  refine ⟨haccount.1, haccount.2.1, fun indication earlier hsuffix => ?_⟩
  simpa using haccount.2.2 indication earlier hsuffix

variable {y : Shared} {after : Option Call}

theorem Judged.turn (hs : Judged s) (front : List Event)
    (hevents : y.events = front ++ s.shared.events)
    (hfront : ∀ event ∈ front, ∀ c', event.number = some c' → c' = c)
    (hc : c < n) (hn : s.nextCall ≤ n)
    (hopen : ∀ h file, y.files.lookup h = some file → h < n)
    (hacts : ∀ indication earlier,
      (.indicated c indication :: earlier) <:+ y.events →
        (indication.allocated →
          queuedTo c y.events = copiesAsked earlier indication) ∧
        forwards c y.events + after.elim 0 (fun _ => 1) =
          if blocked earlier indication then 0 else 1) :
    Judged ⟨y, s.calls.put c after, n⟩ := by
  have hothers : ∀ c', c' ≠ c → ∀ event ∈ front, event.number ≠ some c' :=
    fun c' hne event hevent heq => hne (hfront event hevent c' heq)
  refine ⟨hopen, ?_, ?_, ?_⟩
  · intro event hevent c' hnumber
    rw [hevents] at hevent
    rcases List.mem_append.mp hevent with hevent | hevent
    · exact hfront event hevent c' hnumber ▸ hc
    · exact (hs.numbered event hevent c' hnumber).trans_le hn
  · intro c' indication earlier harrival hallocated
    by_cases hne : c' = c
    · subst hne
      exact (hacts indication earlier harrival).1 hallocated
    · obtain ⟨hqueued, -, hold⟩ :=
        account_append (hothers c' hne) s.shared.events
      simp only [hevents] at harrival ⊢
      rw [hqueued]
      exact hs.copies c' indication earlier (hold _ _ harrival) hallocated
  · intro c' indication earlier harrival
    rw [Table.lookup_put]
    by_cases hne : c' = c
    · subst hne
      rw [if_pos rfl]
      exact (hacts indication earlier harrival).2
    · obtain ⟨-, hforwards, hold⟩ :=
        account_append (hothers c' hne) s.shared.events
      simp only [hevents] at harrival ⊢
      rw [hforwards, if_neg hne]
      exact hs.onward c' indication earlier (hold _ _ harrival)

theorem Judged.quiet (hs : Judged s) (front : List Event)
    (hevents : y.events = front ++ s.shared.events)
    (hfront : ∀ event ∈ front, event.number = none)
    (hopen : ∀ h file, y.files.lookup h = some file → h < s.nextCall + 1) :
    Judged ⟨y, s.calls.put s.nextCall none, s.nextCall + 1⟩ := by
  have hnumber : ∀ event ∈ front, ∀ c, event.number ≠ some c :=
    fun event hevent c heq => by simp [hfront event hevent] at heq
  refine hs.turn front hevents
    (fun event hevent c heq => absurd heq (hnumber event hevent c))
    (Nat.lt_succ_self _) (Nat.le_succ _) hopen ?_
  intro indication earlier harrival
  rw [hevents] at harrival
  exact absurd
    ((account_append (fun event hevent => hnumber event hevent _) _).2.2 _ _
      harrival)
    (hs.fresh.2.2 indication earlier)

theorem Judged.arrival (hs : Judged s) (copies : List (ℕ × List UInt8))
    (hevents : y.events =
      copies.map (fun copy => .queued s.nextCall copy.1 copy.2) ++
        .indicated s.nextCall indication :: s.shared.events)
    (hcopies : indication.allocated →
      copies = copiesAsked s.shared.events indication)
    (hafter : after.elim 0 (fun _ => 1) =
      if blocked s.shared.events indication then 0 else 1)
    (hopen : ∀ h file, y.files.lookup h = some file → h < s.nextCall + 1) :
    Judged ⟨y, s.calls.put s.nextCall after, s.nextCall + 1⟩ := by
  obtain ⟨hqueued, hforwards, hnone⟩ := hs.fresh
  have haccount : queuedTo s.nextCall y.events = copies ∧
      forwards s.nextCall y.events = 0 ∧
      ∀ indication' earlier,
        (.indicated s.nextCall indication' :: earlier) <:+ y.events →
          indication' = indication ∧ earlier = s.shared.events := by
    rw [hevents]
    clear hevents hcopies
    induction copies with
    | nil =>
      refine ⟨hqueued, ?_, fun indication' earlier hsuffix => ?_⟩
      · simpa [forwards] using hforwards
      · rcases List.suffix_cons_iff.mp hsuffix with heq | hsuffix
        · cases heq
          exact ⟨rfl, rfl⟩
        · exact absurd hsuffix (hnone indication' earlier)
    | cons copy rest ih =>
      obtain ⟨hrest, hzero, harrival⟩ := ih
      refine ⟨?_, ?_, fun indication' earlier hsuffix => ?_⟩
      · simpa [queuedTo] using hrest
      · simpa [forwards] using hzero
      · rcases List.suffix_cons_iff.mp hsuffix with heq | hsuffix
        · cases heq
        · exact harrival indication' earlier hsuffix
  obtain ⟨hcount, hzero, harrival⟩ := haccount
  refine hs.turn
    (copies.map (fun copy => .queued s.nextCall copy.1 copy.2) ++
      [.indicated s.nextCall indication])
    (by simpa using hevents) ?_ (Nat.lt_succ_self _) (Nat.le_succ _) hopen ?_
  · intro event hevent c' hnumber
    rcases List.mem_append.mp hevent with hevent | hevent
    · obtain ⟨copy, -, rfl⟩ := List.mem_map.mp hevent
      exact (Option.some.inj hnumber).symm
    · cases List.mem_singleton.mp hevent
      exact (Option.some.inj hnumber).symm
  · intro indication' earlier hsuffix
    obtain ⟨rfl, rfl⟩ := harrival indication' earlier hsuffix
    rw [hcount, hzero, zero_add]
    exact ⟨hcopies, hafter⟩

theorem Action.judged {before : Option Call}
    (hact : Action s.shared c before y after)
    (hturn : program.Turn s c before n y after)
    (hbefore : s.calls.lookup c = before) (hx : Follows s.shared)
    (hs : Judged s) : Judged ⟨y, s.calls.put c after, n⟩ := by
  have hold : ∀ h file, s.shared.files.lookup h = some file →
      h < s.nextCall + 1 := fun h file hfile =>
    Nat.lt_succ_of_lt (hs.isOpen h file hfile)
  have hinsert : ∀ h file', h < s.nextCall + 1 → ∀ h' file,
      (s.shared.files.insert h file').lookup h' = some file →
        h' < s.nextCall + 1 := by
    intro h file' hlt h' file hfile
    by_cases hne : h' = h
    · exact hne ▸ hlt
    · exact hold h' file (by simpa [hne] using hfile)
  cases before with
  | some call =>
    cases hturn with
    | advance hc hadvance =>
      cases hact with
      | forwarded =>
        refine hs.turn [.forwarded c] rfl
          (by simp [Event.number]) hc le_rfl hs.isOpen ?_
        intro indication earlier hsuffix
        rcases List.suffix_cons_iff.mp hsuffix with heq | hsuffix
        · cases heq
        · have honward := hs.onward c indication earlier hsuffix
          rw [hbefore] at honward
          refine ⟨hs.copies c indication earlier hsuffix, ?_⟩
          simpa [Shared.record, forwards] using honward
  | none =>
    obtain ⟨rfl, rfl⟩ := hturn.of_none
    cases hact with
    | opened =>
      exact hs.quiet [.opened s.nextCall] rfl (by simp [Event.number])
        (hinsert _ _ (Nat.lt_succ_self _))
    | closed hopen =>
      rename_i h file
      refine hs.quiet [.closed h] rfl (by simp [Event.number]) ?_
      intro h' file' hfile
      by_cases hne : h' = h
      · exact hne ▸ hold h file hopen
      · exact hold h' file' (by simpa [statusCleanup, hne] using hfile)
    | refused => exact hs.quiet [] rfl (by simp) hold
    | @filtered h file setting hopen =>
      exact hs.quiet [.filtered h setting] rfl (by simp [Event.number])
        (hinsert _ _ (hold h file hopen))
    | @replied h _ _ file _ reply hopen hreply =>
      exact hs.quiet [.replied h reply] rfl (by simp [Event.number])
        (hinsert _ _ (hold h file hopen))
    | unmatched hmatch =>
      refine hs.arrival [] rfl ?_ ?_ hold
      · simp [copiesAsked, hx.governor_eq, hmatch]
      · simp [blocked, hx.governor_eq, hmatch]
    | @ignored indication h file hmatch hignore =>
      refine hs.arrival [] rfl ?_ ?_ hold
      · intro hallocated
        have hqueue : file.queueIndications = false := by
          simpa [StatusIndication.copy_of_allocated hallocated]
            using hignore
        simp [copiesAsked, hx.governor_eq, hmatch, StatusFile.setting, hqueue]
      · cases hblock : file.blockIndications <;>
          simp [blocked, hx.governor_eq, hmatch, StatusFile.setting, hblock]
    | @queued indication h file payload hmatch hqueue hcopy =>
      refine hs.arrival [(h, payload)] rfl ?_ ?_
        (hinsert _ _ (hold h file (firstMatch_some hmatch)))
      · intro hallocated
        rw [StatusIndication.copy_of_allocated hallocated] at hcopy
        cases hcopy
        simp [copiesAsked, hx.governor_eq, hmatch, StatusFile.setting, hqueue]
      · cases hblock : file.blockIndications <;>
          simp [blocked, hx.governor_eq, hmatch, StatusFile.setting, hblock]

theorem follows_judged (hs : machine.Reachable s) :
    Follows s.shared ∧ Judged s := by
  refine Program.invariant
    (I := fun s => Follows s.shared ∧ Judged s) ?_ ?_ hs
  · exact ⟨⟨rfl, by simp [registered, program, Program.machine],
        by simp [registered, program, Program.machine],
        by simp [program, Program.machine], fun h => List.prefix_refl []⟩,
      ⟨by simp [program, Program.machine], by simp [program, Program.machine],
        by simp [program, Program.machine], by simp [program, Program.machine]⟩⟩
  · intro s c before n y after hreach ih hbefore hturn
    obtain ⟨hx, hs⟩ := ih
    have hact := Action.of_turn hturn
    refine ⟨hact.follows hx ?_, hact.judged hturn hbefore hx hs⟩
    rintro rfl
    obtain ⟨rfl, -⟩ := hturn.of_none
    by_contra hopen
    obtain ⟨file, hfile⟩ := Option.ne_none_iff_exists'.mp hopen
    exact Nat.lt_irrefl _ (hs.isOpen _ file hfile)

/-! ## The accounts of a run -/

/-- What the events of a run say about its indications and its handles, and
what a request for an indication does next. -/
structure Accounted (s : Pool Shared Call) : Prop where
  copies : ∀ c indication earlier,
    (.indicated c indication :: earlier) <:+ s.shared.events →
    indication.allocated →
    queuedTo c s.shared.events = copiesAsked earlier indication
  forwards : ∀ c indication earlier,
    (.indicated c indication :: earlier) <:+ s.shared.events →
    forwards c s.shared.events =
      if blocked earlier indication ∨ (s.calls.lookup c).isSome then 0 else 1
  returned : ∀ h,
    returnedSince h s.shared.events <+: queuedSince h s.shared.events
  unsuccessful : ∀ h outputBufferLength inputOperation t, machine.step s
      (.start (.getIndication h outputBufferLength inputOperation)) = some t →
    ∃ reply, t.shared.events = .replied h reply :: s.shared.events ∧
      (reply.status ≠ .success →
        t.shared.statusFilterList = s.shared.statusFilterList ∧
        ∀ h', t.shared.files.lookup h' = s.shared.files.lookup h')

/-- In every run, every indication is queued to the earliest-registered handle
with its code, if that handle queues, and to no other; it is forwarded once,
when its call returns, unless that handle blocks it; every handle gets a prefix
of what has been queued to it since its latest filter request, and a request
that does not succeed takes nothing. -/
theorem statusIndications_accounted {s : Pool Shared Call}
    (hs : machine.Reachable s) : Accounted s := by
  obtain ⟨hx, hjudged⟩ := follows_judged hs
  refine ⟨hjudged.copies, ?_, hx.delivered, ?_⟩
  · intro c indication earlier harrival
    have honward := hjudged.onward c indication earlier harrival
    cases hcall : s.calls.lookup c with
    | none =>
      rw [hcall] at honward
      simpa using honward
    | some call =>
      rw [hcall] at honward
      simp only [Option.elim_some] at honward
      split at honward
      · omega
      · simpa using honward
  · intro h outputBufferLength inputOperation t hstep
    obtain ⟨_, hstart, rfl⟩ := Option.map_eq_some_iff.mp hstep
    obtain ⟨file, hfile, rfl⟩ := Option.map_eq_some_iff.mp hstart
    refine ⟨_, rfl, fun hstatus => ⟨rfl, fun h' => ?_⟩⟩
    obtain ⟨-, hspec⟩ := statusIrpGetIndication_spec
      (Prod.eta (statusIrpGetIndication file outputBufferLength
        inputOperation)).symm
    have hafter := (hspec.resolve_left fun hsuccess =>
      hstatus hsuccess.1).2
    by_cases hne : h' = h
    · subst hne
      simpa [Shared.record, hafter] using hfile.symm
    · simp [Shared.record, hne]

/-- Two handles filter the same code, and the later of them sets its filter
first.  It gets the copies, one of them without data; the probe for the length
takes nothing. -/
theorem statusIndications_accounted_twoHandles :
    ∃ s, machine.Reachable s ∧ Accounted s ∧
      queuedTo 4 s.shared.events = [(1, [1, 2])] ∧
      forwards 4 s.shared.events = 1 ∧
      returnedSince 1 s.shared.events = [[1, 2]] ∧
      queuedSince 1 s.shared.events = [[1, 2], []] :=
  (Machine.exists_reachable_of_run
      [.start .create, .start .create, .start (.filter 1 8 ⟨5, 0, 1⟩),
      .start (.filter 0 8 ⟨5, 1, 1⟩),
      .start (.indicate ⟨5, [1, 2], true, true⟩), .advance 4,
      .start (.indicate ⟨5, [], true, true⟩),
      .start (.getIndication 1 0 false), .start (.getIndication 1 2 true)]
      (by decide +kernel)).imp fun s ⟨hs, hfacts⟩ =>
      ⟨hs, statusIndications_accounted hs, hfacts⟩

end WinNetTest.Fnlwf.Status
