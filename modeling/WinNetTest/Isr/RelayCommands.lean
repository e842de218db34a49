import WinNetTest.Isr.RelayCancel

/-!
# The commands that are relayed

`ClientIrpSubmit` looks at the last byte of its input, and the command is copied
twice as a string, into the request and into the output of the GET.  A
well-formed command is accepted and arrives as it was sent.  An empty input is
not refused: the byte in front of the buffer is read in place of its last byte,
and what is relayed is whatever the buffer happens to hold.
-/

namespace WinNetTest.Isr

open Support

namespace SubmitInput

def bytes (input : SubmitInput) : List UInt8 :=
  input.systemBuffer.take input.inputBufferLength

/-- `ClientIrpSubmit` accepts the buffers. -/
def Accepted (input : SubmitInput) : Prop :=
  input.inputBufferLength ≤ isrMaxCommandLength ∧
    4 ≤ input.outputBufferLength ∧ input.lastByte = 0

def WellFormed (input : SubmitInput) : Prop :=
  1 ≤ input.inputBufferLength ∧ input.inputBufferLength ≤ isrMaxCommandLength ∧
    4 ≤ input.outputBufferLength ∧
    input.bytes[input.inputBufferLength - 1]? = some 0

end SubmitInput

variable {command : List UInt8}

theorem length_takeWhile_le {α : Type*} {p : α → Bool} {l : List α} {i : ℕ}
    {a : α} (ha : l[i]? = some a) (hp : p a = false) :
    (l.takeWhile p).length ≤ i := by
  induction l generalizing i with
  | nil => cases ha
  | cons b l ih =>
    cases i with
    | zero =>
      cases ha
      simp [hp]
    | succ i =>
      rw [List.takeWhile_cons]
      split
      · exact Nat.succ_le_succ (ih ha)
      · exact Nat.zero_le _

variable {input : SubmitInput}

section

variable (hpos : input.inputBufferLength ≠ 0)

include hpos

section

variable (hbacked : input.inputBufferLength ≤ input.systemBuffer.length)

include hbacked

theorem SubmitInput.lastByte_eq :
    input.bytes[input.inputBufferLength - 1]? = some input.lastByte := by
  rw [bytes, List.getElem?_take_of_lt (by omega), lastByte, if_neg hpos,
    List.getD_eq_getElem?_getD, List.getElem?_eq_getElem (by omega)]
  rfl

theorem SubmitInput.copied (haccepted : input.Accepted) :
    (input.systemBuffer.takeWhile (· ≠ 0)).length < input.inputBufferLength ∧
      input.command = input.bytes.takeWhile (· ≠ 0) := by
  have hlast := lastByte_eq hpos hbacked
  rw [haccepted.2.2] at hlast
  have hlength := length_takeWhile_le (p := (· ≠ 0)) hlast (by simp)
  have hstring : input.systemBuffer.takeWhile (· ≠ 0) =
      input.bytes.takeWhile (· ≠ 0) := by
    have hbytes : input.bytes.length = input.inputBufferLength := by
      simpa [bytes] using hbacked
    conv_lhs => rw [← List.take_append_drop input.inputBufferLength
      input.systemBuffer]
    rw [List.takeWhile_append, if_neg]
    · rfl
    · change (input.bytes.takeWhile _).length ≠ input.bytes.length
      omega
  have hshort : (input.systemBuffer.takeWhile (· ≠ 0)).length <
      input.inputBufferLength := by
    rw [hstring]
    omega
  exact ⟨hshort, (if_pos (hshort.trans_le haccepted.1)).trans hstring⟩

end

end

/-! ## Delivery -/

variable {x y : Shared} {c : ℕ} {before after : Option Call}
  {s : Pool Shared Call}

def Handed (x : Shared) (output : UInt64 × List UInt8) : Prop :=
  ∃ r ∈ x.handed.map Prod.fst, output = (r.id, r.command)

theorem Action.output_cases (h : Action x c before y after) {irp : ℕ}
    {output : UInt64 × List UInt8} (houtput : y.output irp = some output) :
    x.output irp = some output ∨ Handed y output := by
  rcases h.irps_cases with hsame | ⟨file, type, -, -, hnew⟩ |
    ⟨irp', i, w, hi, hupdate, -, -, hw⟩
  · rw [Shared.output, hsame] at houtput
    exact Or.inl houtput
  · rw [Shared.output, hnew] at houtput
    by_cases hirp : irp = c
    · subst hirp
      simp at houtput
    · rw [AList.lookup_insert_ne hirp] at houtput
      exact Or.inl houtput
  · by_cases hirp : irp = irp'
    · subst hirp
      rcases hw with hw | ⟨r, hr⟩
      · rw [Shared.output, hupdate, AList.lookup_insert] at houtput
        refine Or.inl ?_
        rw [Shared.output, hi]
        exact hw.symm.trans houtput
      · refine Or.inr ?_
        rcases h.handed_cases with hsame | ⟨r', irp', hnew, -, hout, -⟩
        · simp [hsame] at hr
        · obtain ⟨rfl, rfl⟩ : r = r' ∧ irp = irp' := by
            simpa [hnew] using hr.symm
          rw [houtput] at hout
          cases hout
          exact ⟨r, by simp [hnew], rfl⟩
    · rw [Shared.output, hupdate, AList.lookup_insert_ne hirp] at houtput
      exact Or.inl houtput

/-- Every output, of an IRP and of a completion, is that of such a request. -/
structure Outputs (x : Shared) : Prop where
  irps : ∀ irp output, x.output irp = some output → Handed x output
  completions : ∀ completion ∈ x.completions, ∀ id command,
    completion.output = some (.request id command) → Handed x (id, command)

theorem Action.outputs (h : Action x c before y after) (hx : Outputs x) :
    Outputs y := by
  have hkept : ∀ {output}, Handed x output → Handed y output := by
    rintro output ⟨r, hr, heq⟩
    refine ⟨r, ?_, heq⟩
    rcases h.handed_cases with hsame | ⟨r', irp, hnew, -⟩
    · exact hsame ▸ hr
    · rw [hnew, List.map_append]
      exact List.mem_append_left _ hr
  refine ⟨fun irp output hout => ?_, fun completion hmem id command hout => ?_⟩
  · exact (h.output_cases hout).elim (hkept ∘ hx.irps irp output) id
  · have hold := fun hmem =>
      hkept (hx.completions completion hmem id command hout)
    rcases h.completions_cases with
      hsame | ⟨irp, status, rfl⟩ | ⟨request, result, rfl, hnew⟩
    · exact hold (hsame ▸ hmem)
    · rcases List.mem_append.mp hmem with hmem | hmem
      · exact hold hmem
      · rw [List.mem_singleton.mp hmem] at hout
        obtain ⟨output, houtput, heq⟩ := Option.map_eq_some_iff.mp hout
        cases heq
        exact hx.irps irp output houtput
    · rw [hnew, List.mem_append, List.mem_singleton] at hmem
      rcases hmem with hmem | rfl
      · exact hold hmem
      · cases hout

theorem outputs_of_reachable (hs : relay.machine.Reachable s) :
    Outputs s.shared := by
  refine Program.invariant (P := relay) (I := fun s => Outputs s.shared)
    ⟨by rintro irp output ⟨⟩, by rintro completion ⟨⟩⟩ ?_ hs
  intro s c before n y after _ ih _ hturn
  exact (action_of_turn hturn).1.outputs ih

end WinNetTest.Isr
