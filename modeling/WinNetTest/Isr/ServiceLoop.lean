import WinNetTest.Isr.RelayCommands
import WinNetTest.Isr.RelayOrder

/-!
# The relay and the service that it ships with

`DoServiceWork` fetches a request with a GET, runs the command and posts the
result with the `Id` it has fetched.  All it knows is what its GETs have
returned and what it has posted.  That the Ids come in the order of the
requests, and that a POST finds its request, is due to the driver: the slot of
the request is not given away between the GET and the POST.
-/

namespace WinNetTest.Isr

open Support

/-- The Ids of the requests that were handed to GETs. -/
def Shared.handedIds (x : Shared) : List UInt64 :=
  x.handed.map fun e => e.1.id

/-- The Ids that were posted. -/
def Shared.postedIds (x : Shared) : List UInt64 :=
  x.posts.map Prod.fst

/-- A GET has returned the `Id`. -/
def Completion.fetches (id : UInt64) (completion : Completion) : Bool :=
  completion.status = .success && match completion.output with
    | some (.request id' _) => id' = id
    | _ => false

/-- The POSTs are those of `DoServiceWork`: each is of an `Id` that a GET has
returned, and no `Id` is posted twice. -/
def doServiceWork (s : Pool Shared Call) : Move Input → Bool
  | .start (.ioctl _ (.post _ id _)) =>
    id ∉ s.shared.postedIds && s.shared.completions.any (·.fetches id)
  | _ => true

variable {x y : Shared} {c : ℕ} {before after : Option Call}
  {s : Pool Shared Call}

theorem Action.service_cases (h : Action x c before y after)
    (hsection : ∀ call ∈ before, call.locks = true → Section x c call) :
    (y.pendingRequest = x.pendingRequest ∧ y.handed = x.handed ∧
      y.posts = x.posts ∧ ∀ id result,
        after = some (.posting (.acquire id result)) → before = after) ∨
    (∃ id result, before = none ∧
      after = some (.posting (.acquire id result)) ∧
      y.pendingRequest = x.pendingRequest ∧ y.handed = x.handed ∧
      y.posts = x.posts ++ [(id, result)]) ∨
    (∃ r irp, x.pendingRequest = none ∧ y.pendingRequest = some r ∧
      y.handed = x.handed ++ [(r, irp)] ∧ y.posts = x.posts ∧
      ∀ id result, after ≠ some (.posting (.acquire id result))) ∨
    ∃ r result, before = some (.posting (.acquire r.id result)) ∧
      after = some (.posting (.took r result)) ∧ y.handed = x.handed ∧
      y.posts = x.posts := by
  cases h with
  | session h =>
    have hne : ∀ id result, after ≠ some (.posting (.acquire id result)) := by
      cases h <;> simp
    cases h <;>
      exact Or.inl ⟨rfl, rfl, rfl, fun id result heq => absurd heq (hne _ _)⟩
  | push => exact Or.inl ⟨rfl, rfl, rfl, by split <;> simp⟩
  | post file id result =>
    exact Or.inr (Or.inl ⟨id, result, rfl, rfl, rfl, rfl, rfl⟩)
  | notifyStore request irp | getStore request =>
    obtain ⟨-, -, hnone⟩ := hsection _ rfl rfl
    exact Or.inr (Or.inr (Or.inl ⟨request, _, hnone, rfl, rfl, rfl, by simp⟩))
  | postTake request result =>
    exact Or.inr (Or.inr (Or.inr ⟨request, result, rfl, rfl, rfl, rfl⟩))
  | _ => exact Or.inl ⟨rfl, rfl, rfl, by simp⟩

theorem start_posting {input : Input} {id : UInt64} {result : Int32}
    (h : start x c input = some (y, some (.posting (.acquire id result)))) :
    ∃ file length, input = .ioctl file (.post length id result) := by
  cases input with
  | ioctl file ioctl =>
    obtain ⟨type, -, heq⟩ := Option.map_eq_some_iff.mp h
    unfold isrIrpIoctl at heq
    split at heq
    · unfold clientIrpSubmit at heq
      split_ifs at heq <;> cases heq
    · split_ifs at heq <;> cases heq
    · split_ifs at heq <;> cases heq
      exact ⟨file, _, rfl⟩
    · cases heq
  | create type allocated =>
    simp only [start] at h
    split at h <;> cases h
  | _ =>
    simp only [start, Option.ite_none_left_eq_some,
      Option.ite_none_right_eq_some, Option.map_eq_some_iff] at h
    obtain ⟨-, _, -, heq⟩ := h
    cases heq

theorem mem_handedIds (hs : relay.machine.Reachable s) {id : UInt64}
    {completion : Completion} (hmem : completion ∈ s.shared.completions)
    (h : completion.fetches id = true) : id ∈ s.shared.handedIds := by
  obtain ⟨-, h⟩ := Bool.and_eq_true_iff.mp h
  split at h
  · rename_i id' command houtput
    obtain ⟨r, hr, heq⟩ := (outputs_of_reachable hs).completions completion hmem
      id' command houtput
    obtain ⟨e, he, rfl⟩ := List.mem_map.mp hr
    have hid : e.1.id = id :=
      (congrArg Prod.fst heq).symm.trans (of_decide_eq_true h)
    exact List.mem_map.mpr ⟨e, he, hid⟩
  · cases h

def Posting (s : Pool Shared Call) (c : ℕ) (id : UInt64) : Prop :=
  ∃ result, s.calls.lookup c = some (.posting (.acquire id result))

/-- The requests have been posted as they were handed out, but for the last one,
which may be with the service; a POST before its lock section is the only one
and finds its request. -/
structure Served (s : Pool Shared Call) : Prop where
  due : s.shared.handedIds = s.shared.postedIds ∨ ∃ r,
    s.shared.handedIds = s.shared.postedIds ++ [r.id] ∧
      s.shared.pendingRequest = some r ∧ ∀ c id, ¬ Posting s c id
  found : ∀ c id, Posting s c id →
    (∃ r, s.shared.pendingRequest = some r ∧ r.id = id) ∧
      ∀ c' id', Posting s c' id' → c' = c

theorem Posting.of_put {n : ℕ} {c' : ℕ} {id : UInt64}
    (h : Posting ⟨y, s.calls.put c after, n⟩ c' id) :
    (c' = c ∧ ∃ result, after = some (.posting (.acquire id result))) ∨
      c' ≠ c ∧ Posting s c' id := by
  obtain ⟨result, h⟩ := h
  rw [Table.lookup_put] at h
  split at h
  · rename_i hc
    exact Or.inl ⟨hc, result, h⟩
  · rename_i hc
    exact Or.inr ⟨hc, result, h⟩

theorem Served.turn {n : ℕ} (h : Served s)
    (hact : Action s.shared c before y after)
    (hsection : ∀ call ∈ before, call.locks = true → Section s.shared c call)
    (hbefore : s.calls.lookup c = before)
    (hpost : ∀ id result, before = none →
      after = some (.posting (.acquire id result)) →
      id ∈ s.shared.handedIds ∧ id ∉ s.shared.postedIds) :
    Served ⟨y, s.calls.put c after, n⟩ := by
  rcases hact.service_cases hsection with
    ⟨hpending, hhanded, hposts, hafter⟩ |
    ⟨id, result, rfl, rfl, hpending, hhanded, hposts⟩ |
    ⟨r, irp, hnone, hpending, hhanded, hposts, hafter⟩ |
    ⟨r, result, rfl, rfl, hhanded, hposts⟩
  · have hold : ∀ {c' id}, Posting ⟨y, s.calls.put c after, n⟩ c' id →
        Posting s c' id := by
      intro c' id hcall
      rcases hcall.of_put with ⟨rfl, result, heq⟩ | ⟨-, hcall⟩
      · exact ⟨result, hbefore.trans ((hafter id result heq).trans heq)⟩
      · exact hcall
    refine ⟨?_, fun c' id hcall => ?_⟩
    · simp only [Shared.handedIds, Shared.postedIds, hhanded, hposts, hpending]
      exact h.due.imp_right fun ⟨r, hids, hr, hno⟩ =>
        ⟨r, hids, hr, fun c' id hcall => hno c' id (hold hcall)⟩
    · obtain ⟨hr, halone⟩ := h.found c' id (hold hcall)
      exact ⟨hpending.symm ▸ hr, fun c'' id' h' => halone c'' id' (hold h')⟩
  · obtain ⟨hhand, hnew⟩ := hpost id result rfl rfl
    rcases h.due with heq | ⟨r, hids, hr, hno⟩
    · exact absurd (heq ▸ hhand) hnew
    · rw [hids, List.mem_append] at hhand
      obtain rfl := List.mem_singleton.mp (hhand.resolve_left hnew)
      have hown : ∀ {c' id'}, Posting ⟨y, s.calls.put c (some (.posting
          (.acquire r.id result))), n⟩ c' id' → c' = c ∧ id' = r.id := by
        intro c' id' hcall
        rcases hcall.of_put with ⟨rfl, result', heq⟩ | ⟨-, hcall⟩
        · cases heq
          exact ⟨rfl, rfl⟩
        · exact absurd hcall (hno c' id')
      refine ⟨Or.inl ?_, fun c' id' hcall => ?_⟩
      · simp only [Shared.handedIds, Shared.postedIds, hhanded, hposts,
          List.map_append, List.map_cons, List.map_nil] at hids ⊢
        exact hids
      · obtain ⟨rfl, rfl⟩ := hown hcall
        exact ⟨⟨r, hpending.trans hr, rfl⟩, fun c'' id'' h' => (hown h').1⟩
  · have hfree : ∀ c' id, ¬ Posting s c' id := by
      intro c' id hcall
      obtain ⟨⟨r', hr', -⟩, -⟩ := h.found c' id hcall
      cases hnone.symm.trans hr'
    have hno : ∀ c' id, ¬ Posting ⟨y, s.calls.put c after, n⟩ c' id := by
      intro c' id hcall
      rcases hcall.of_put with ⟨-, result, heq⟩ | ⟨-, hcall⟩
      · exact hafter id result heq
      · exact hfree c' id hcall
    refine ⟨Or.inr ⟨r, ?_, hpending, hno⟩, fun c' id hcall =>
      absurd hcall (hno c' id)⟩
    rcases h.due with heq | ⟨r', -, hr', -⟩
    · simp only [Shared.handedIds, Shared.postedIds, hhanded, hposts,
        List.map_append, List.map_cons, List.map_nil] at heq ⊢
      rw [heq]
    · cases hnone.symm.trans hr'
  · have hhere : Posting s c r.id := ⟨result, hbefore⟩
    obtain ⟨-, halone⟩ := h.found c r.id hhere
    refine ⟨Or.inl ?_, fun c' id hcall => ?_⟩
    · simp only [Shared.handedIds, Shared.postedIds, hhanded, hposts]
      exact h.due.resolve_right fun ⟨r', _, _, hno⟩ => hno c r.id hhere
    · rcases hcall.of_put with ⟨-, result', heq⟩ | ⟨hc, hcall⟩
      · cases heq
      · exact absurd (halone c' id hcall) hc

theorem served_of_reachableWithin
    (hs : relay.machine.ReachableWithin (fun s m => doServiceWork s m) s) :
    Served s := by
  induction hs with
  | init => exact ⟨Or.inl rfl, by rintro c id ⟨result, ⟨⟩⟩⟩
  | @step s t m hs hwork hstep ih =>
    cases m with
    | start input =>
      obtain ⟨⟨y, after⟩, hstart, rfl⟩ := Option.map_eq_some_iff.mp hstep
      have hstart := (Option.ite_none_left_eq_some.mp hstart).2
      have hfresh : s.calls.lookup s.nextCall = none := by
        by_contra hne
        obtain ⟨call, hcall⟩ := Option.ne_none_iff_exists'.mp hne
        exact Nat.lt_irrefl _ (Program.lt_nextCall hs.reachable hcall)
      refine ih.turn (action_of_start hstart) (by rintro call ⟨⟩) hfresh ?_
      rintro id result - rfl
      obtain ⟨_, _, rfl⟩ := start_posting hstart
      obtain ⟨hnew, hany⟩ := Bool.and_eq_true_iff.mp hwork
      obtain ⟨completion, hmem, hfetches⟩ := List.any_eq_true.mp hany
      exact ⟨mem_handedIds hs.reachable hmem hfetches, of_decide_eq_true hnew⟩
    | advance c =>
      obtain ⟨call, hcall, hmap⟩ := Option.bind_eq_some_iff.mp hstep
      obtain ⟨⟨y, after⟩, hadvance, rfl⟩ := Option.map_eq_some_iff.mp hmap
      refine ih.turn (action_of_advance
        (Option.ite_none_left_eq_some.mp hadvance).2)
        (section_before hs.reachable hcall) hcall ?_
      rintro id result ⟨⟩

/-- With a service that works like `DoServiceWork`, in every interleaving with
clients, cancellations and restarts, no `NULL` pointer is dereferenced, the
requests are posted in the order in which they were handed out, each once, and
every POST takes the request whose `Id` it has. -/
theorem doServiceWork_served {s : Pool Shared Call}
    (hs : relay.machine.ReachableWithin (fun s m => doServiceWork s m) s) :
    s.shared.fault = false ∧ s.shared.postedIds <+: s.shared.handedIds ∧
      ∀ c id result t,
        s.calls.lookup c = some (.posting (.acquire id result)) →
        relay.machine.step s (.advance c) = some t →
        ∃ r, s.shared.pendingRequest = some r ∧ r.id = id ∧
          t.calls.lookup c = some (.posting (.took r result)) := by
  have hserved := served_of_reachableWithin hs
  refine ⟨?_, ?_, ?_⟩
  · cases hs with
    | init => rfl
    | @step s t m hs hwork hstep =>
      obtain ⟨c, _, _, n, y, hbefore, hturn, rfl, -⟩ :=
        Program.turn_of_step hs.reachable hstep
      obtain ⟨hact, hfault⟩ := action_of_turn hturn
      by_contra hne
      rcases hact.fault_cases (section_before hs.reachable hbefore)
        (Bool.not_eq_false _ ▸ hne) with hold | ⟨id, result, rfl, hnone⟩
      · exact absurd (hfault.symm.trans hold) (by decide)
      · obtain ⟨⟨r, hr, -⟩, -⟩ :=
          (served_of_reachableWithin hs).found c id ⟨result, hbefore⟩
        cases hnone.symm.trans hr
  · rcases hserved.due with heq | ⟨r, hids, -⟩
    · exact heq ▸ List.prefix_rfl
    · exact hids ▸ List.prefix_append _ _
  · intro c id result t hcall hstep
    obtain ⟨⟨r, hr, hid⟩, -⟩ := hserved.found c id ⟨result, hcall⟩
    obtain ⟨_, hcall', hmap⟩ := Option.bind_eq_some_iff.mp hstep
    cases hcall.symm.trans hcall'
    obtain ⟨_, hadvance, rfl⟩ := Option.map_eq_some_iff.mp hmap
    have hpost := (Option.ite_none_left_eq_some.mp hadvance).2
    simp only [advance, serviceIrpPost, hr, hid, if_true] at hpost
    obtain ⟨-, hnext⟩ := Option.ite_none_right_eq_some.mp hpost
    cases hnext
    exact ⟨r, hr, hid, by rw [Table.lookup_put, if_pos rfl]⟩

/-- A GET waits, a command is submitted and handed to it, and the service posts
its result. -/
theorem doServiceWork_served_posting :
    ∃ s, relay.machine.ReachableWithin (fun s m => doServiceWork s m) s ∧
      s.calls.lookup 4 = some (.posting (.acquire 1 0)) ∧
      s.shared.fault = false :=
  (Machine.exists_reachableWithin_of_run _
      (getWaits ++ [submitDir] ++ List.replicate 8 (.advance 3) ++
      [.start (.ioctl 0 (.post 16 1 0))]) (by decide +kernel)).imp
      fun s ⟨hs, hcall⟩ => ⟨hs, hcall, (doServiceWork_served hs).1⟩

end WinNetTest.Isr
