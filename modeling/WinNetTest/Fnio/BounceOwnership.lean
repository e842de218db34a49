import WinNetTest.Fnio.Bounce

/-!
# Ownership of bounced input

A failed `FnIoIoctlBounceEnqueue` or `FnIoIoctlBounceFilter` leaves a zeroed
structure and has freed the copies it had made.  After a successful call every
pointer of the output is a block of its own with a copy of the caller's bytes,
the lengths in kernel memory are the ones that were checked, and the cleanup
frees each block once.
-/

namespace WinNetTest.Fnio.Bounce

open Support

/-! ## The cleanup of a frame -/

variable {rest blocks : List Block} {array b : Block} {env : Surroundings}
variable {k : Kernel}

theorem cleanupLoop_frees (enqueueIn : DataEnqueueIn) (blocks : List Block)
    (first : ℕ) (hlive : k.heap.live.Perm (blocks ++ rest))
    (hpointers : ∀ i b, blocks[i]? = some b → (readDataBuffer k.heap.memory
        (enqueueIn.entry (first + i))).virtualAddress = b.address) :
    k.heap.Frees
      ((List.range' first blocks.length).foldl
        (fun k bufferIndex => bounceFree k
          (readDataBuffer k.heap.memory
            (enqueueIn.entry bufferIndex)).virtualAddress) k).heap blocks := by
  induction blocks generalizing first k with
  | nil => exact Heap.Frees.refl _
  | cons b blocks ih =>
    have hfirst := hpointers 0 b rfl
    have hfree : k.heap.Frees (bounceFree k b.address).heap [b] :=
      bounceFree_address (hlive.mem_iff.mpr (by simp))
    rw [List.length_cons, List.range'_succ, List.foldl_cons]
    rw [Nat.add_zero] at hfirst
    rw [hfirst]
    refine hfree.trans (ih (first + 1) ?_ fun i c hc => ?_)
    · exact List.Perm.cons_inv (hfree.live.symm.trans hlive)
    · rw [hfree.memory, Nat.add_assoc, Nat.add_comm 1 i]
      exact hpointers (i + 1) c hc

theorem fnIoIoctlCleanupEnqueue_frees {enqueueIn : DataEnqueueIn}
    (hlive : k.heap.live.Perm (blocks ++ [array] ++ rest))
    (hbuffers : enqueueIn.buffers = array.address)
    (hcount : enqueueIn.bufferCount.toNat = blocks.length)
    (hpointers : ∀ i b, blocks[i]? = some b → (readDataBuffer k.heap.memory
        (enqueueIn.entry i)).virtualAddress = b.address) :
    k.heap.Frees (fnIoIoctlCleanupEnqueue k enqueueIn).heap
      (blocks ++ [array]) := by
  rw [List.append_assoc] at hlive
  have harray : array ∈ k.heap.live := hlive.mem_iff.mpr (by simp)
  have hloop := cleanupLoop_frees enqueueIn blocks 0 hlive
    (by simpa using hpointers)
  rw [fnIoIoctlCleanupEnqueue, hbuffers, hcount, List.range_eq_range',
    if_pos (Nat.ne_of_gt (k.heap.placed array harray).1)]
  refine hloop.trans (bounceFree_address ?_)
  have hkept := (List.perm_append_left_iff blocks).mp
    (hloop.live.symm.trans hlive)
  exact hkept.mem_iff.mpr (by simp)

/-! ## The array while it is worked through -/

/-- A bounced entry: the entry fetched from the caller but for its pointer, with
checked lengths; its block holds the caller's bytes. -/
structure BouncedEntry (env : Surroundings) (m : Memory)
    (given : DataBufferEntry) (address : ℕ) (b : Block) : Prop where
  entry_eq :
    readDataBuffer m address = { given with virtualAddress := b.address }
  size_eq : b.size = given.bufferLength
  bufferLength_pos : 0 < given.bufferLength
  no_wrap : given.dataOffset + given.dataLength < 2 ^ 32
  data_le : given.dataOffset + given.dataLength ≤ given.bufferLength
  copied : Copied env given.virtualAddress m b

variable {m m' : Memory}

theorem readDataBuffer_congr {address : ℕ}
    (h : ∀ i < sizeofDataBuffer, m' (address + i) = m (address + i)) :
    readDataBuffer m' address = readDataBuffer m address := by
  have hfield (offset w : ℕ) (hle : offset + w ≤ sizeofDataBuffer) :
      m'.readInt (address + offset) w = m.readInt (address + offset) w := by
    refine Memory.readInt_congr fun i hi => ?_
    rw [Nat.add_assoc]
    exact h _ (by omega)
  unfold sizeofDataBuffer at hfield
  rw [readDataBuffer, readDataBuffer, hfield 8 4 (by omega),
    hfield 12 4 (by omega), hfield 16 4 (by omega)]
  have hpointer := hfield 0 8 (by omega)
  rw [Nat.add_zero] at hpointer
  rw [hpointer]

theorem Copied.congr {source : ℕ} (h : Copied env source m b)
    (hblock : ∀ i < b.size, m' (b.address + i) = m (b.address + i)) :
    Copied env source m' b := by
  obtain ⟨clock, hread⟩ := h
  refine ⟨clock, fun i hi => ?_⟩
  rw [hblock i hi]
  exact hread i hi

theorem BouncedEntry.congr {given : DataBufferEntry} {address : ℕ}
    (h : BouncedEntry env m given address b)
    (hentry : ∀ i < sizeofDataBuffer, m' (address + i) = m (address + i))
    (hblock : ∀ i < b.size, m' (b.address + i) = m (b.address + i)) :
    BouncedEntry env m' given address b :=
  { h with
    entry_eq := (readDataBuffer_congr hentry).trans h.entry_eq
    copied := h.copied.congr hblock }

theorem readDataBuffer_write (m : Memory) (address : ℕ) {pointer : ℕ}
    (hpointer : pointer < 256 ^ 8) :
    readDataBuffer (m.write address (leBytes 8 pointer)) address =
      { readDataBuffer m address with virtualAddress := pointer } := by
  have hsame : (m.write address (leBytes 8 pointer)).readInt address 8 =
      pointer := Memory.readInt_writeInt_same m address hpointer
  have hother (offset : ℕ) (hoffset : 8 ≤ offset) :
      (m.write address (leBytes 8 pointer)).readInt (address + offset) 4 =
        m.readInt (address + offset) 4 := by
    refine Memory.readInt_congr fun i hi => ?_
    refine Memory.write_apply_outside m (Or.inr ?_)
    rw [length_leBytes]
    omega
  simp only [readDataBuffer, hsame, hother 8 (le_refl 8),
    hother 12 (by omega), hother 16 (by omega)]

/-- The state of the loop when `blocks` have been bounced. -/
structure Progress (env : Surroundings) (start : Heap (256 ^ 8))
    (given : ℕ → DataBufferEntry) (count : ℕ) (s : EnqueueLocals)
    (array : Block) (blocks : List Block) : Prop where
  holds : start.Holds s.kernel.heap (blocks ++ [array])
  freed : s.kernel.heap.freed = start.freed
  buffers_eq : s.enqueueIn.buffers = array.address
  bufferCount_eq : s.enqueueIn.bufferCount.toNat = blocks.length
  buffers_released : s.buffers = 0
  buffer_released : s.buffer = 0
  size_eq : array.size = sizeofDataBuffer * count
  length_le : blocks.length ≤ count
  bounced : ∀ i b, blocks[i]? = some b →
    BouncedEntry env s.kernel.heap.memory (given i) (s.enqueueIn.entry i) b
  rest : ∀ i, blocks.length ≤ i → i < count →
    readDataBuffer s.kernel.heap.memory (s.enqueueIn.entry i) = given i

structure Abandoned (start : Heap (256 ^ 8)) (s : EnqueueLocals) : Prop where
  cleaned : start.Holds
    (fnIoIoctlCleanupEnqueue s.kernel s.enqueueIn).heap []
  buffers_released : s.buffers = 0
  buffer_released : s.buffer = 0

section Round

variable {env : Surroundings} {start : Heap (256 ^ 8)}
  {given : ℕ → DataBufferEntry} {count : ℕ} {s : EnqueueLocals}
  {array : Block} {blocks : List Block}

section

variable (h : Progress env start given count s array blocks)

include h

variable {heap : Heap (256 ^ 8)}

theorem Progress.keeps_entry (hkeeps : s.kernel.heap.Keeps heap) {i : ℕ}
    (hi : i < count) :
    ∀ j < sizeofDataBuffer, heap.memory (s.enqueueIn.entry i + j) =
      s.kernel.heap.memory (s.enqueueIn.entry i + j) := by
  intro j hj
  have harray : array ∈ s.kernel.heap.live := h.holds.mem_live (by simp)
  have hkept := hkeeps array harray (sizeofDataBuffer * i + j) (by
    rw [h.size_eq]
    unfold sizeofDataBuffer at hj ⊢
    omega)
  rw [DataEnqueueIn.entry, h.buffers_eq, Nat.add_assoc]
  exact hkept

theorem Progress.keeps_bounced (hkeeps : s.kernel.heap.Keeps heap) {i : ℕ}
    {b : Block} (hb : blocks[i]? = some b) :
    BouncedEntry env heap.memory (given i) (s.enqueueIn.entry i) b := by
  obtain ⟨hi, -⟩ := List.getElem?_eq_some_iff.mp hb
  have hlive : b ∈ s.kernel.heap.live :=
    h.holds.mem_live (List.mem_append_left _ (List.mem_of_getElem? hb))
  exact (h.bounced i b hb).congr
    (h.keeps_entry hkeeps (hi.trans_le h.length_le)) (hkeeps b hlive)

theorem Progress.abandoned {k : Kernel} (hk : s.kernel.heap.Holds k.heap []) :
    Abandoned start { s with kernel := k } := by
  have hheld : start.Holds k.heap (blocks ++ [array]) := h.holds.trans hk
  refine ⟨?_, h.buffers_released, h.buffer_released⟩
  have hfrees := fnIoIoctlCleanupEnqueue_frees hheld.live h.buffers_eq
    h.bufferCount_eq fun i b hb => by
      rw [(h.keeps_bounced hk.keeps hb).entry_eq]
  exact Heap.Holds.frees (by rwa [List.append_nil]) hfrees

theorem Progress.extend (hlt : blocks.length < count) (hcount : count < 2 ^ 16)
    {b : Block} {k : Kernel} (hk : s.kernel.heap.Holds k.heap [b])
    (hfreed : k.heap.freed = s.kernel.heap.freed)
    (hsize : b.size = (given blocks.length).bufferLength)
    (hpos : 0 < (given blocks.length).bufferLength)
    (hwrap : (given blocks.length).dataOffset +
      (given blocks.length).dataLength < 2 ^ 32)
    (hdata : (given blocks.length).dataOffset +
      (given blocks.length).dataLength ≤ (given blocks.length).bufferLength)
    (hcopied : Copied env (given blocks.length).virtualAddress
      k.heap.memory b) :
    Progress env start given count
      { s with
        kernel :=
          { k with
            heap := k.heap.write (s.enqueueIn.entry blocks.length)
              (leBytes 8 b.address) }
        buffer := 0
        enqueueIn :=
          { s.enqueueIn with bufferCount := s.enqueueIn.bufferCount + 1 } }
      array (blocks ++ [b]) := by
  have hheld : start.Holds k.heap (blocks ++ [b] ++ [array]) := by
    refine (h.holds.trans hk).congr ?_
    rw [List.append_assoc, List.singleton_append, List.singleton_append]
    exact List.perm_middle.symm
  have hlow : array.address ≤ s.enqueueIn.entry blocks.length := by
    rw [DataEnqueueIn.entry, h.buffers_eq]
    omega
  have hhigh : s.enqueueIn.entry blocks.length +
      (leBytes 8 b.address).length ≤ array.address + array.size := by
    rw [DataEnqueueIn.entry, h.buffers_eq, h.size_eq, length_leBytes]
    unfold sizeofDataBuffer
    omega
  have hapart : ∀ c ∈ blocks ++ [b], array.Apart c := by
    intro c hc
    have hpair := (List.pairwise_append.mp hheld.apart).1
    exact ((List.pairwise_append.mp hpair).2.2 c hc array (by simp)).symm
  have hentry : ∀ i, i ≠ blocks.length → ∀ j < sizeofDataBuffer,
      (k.heap.write (s.enqueueIn.entry blocks.length)
        (leBytes 8 b.address)).memory (s.enqueueIn.entry i + j) =
        k.heap.memory (s.enqueueIn.entry i + j) := by
    intro i hi j hj
    refine Memory.write_apply_outside _ ?_
    rw [length_leBytes]
    unfold DataEnqueueIn.entry sizeofDataBuffer at *
    omega
  have haddress : b.address < 256 ^ 8 := by
    have hplaced := k.heap.placed b (hk.mem_live (List.mem_singleton_self b))
    omega
  have hgiven : readDataBuffer k.heap.memory
      (s.enqueueIn.entry blocks.length) = given blocks.length :=
    (readDataBuffer_congr (h.keeps_entry hk.keeps hlt)).trans
      (h.rest _ (le_refl _) hlt)
  refine ⟨hheld.write (b := array) (by simp) hlow hhigh,
    hfreed.trans h.freed, h.buffers_eq, ?_, h.buffers_released, rfl,
    h.size_eq, ?_, ?_, ?_⟩
  · rw [List.length_append, List.length_singleton, UInt16.toNat_add,
      h.bufferCount_eq, UInt16.toNat_one]
    exact Nat.mod_eq_of_lt (by omega)
  · rw [List.length_append, List.length_singleton]
    omega
  · intro i c hc
    have hapart := hapart c (List.mem_of_getElem? hc)
    by_cases hi : i < blocks.length
    · rw [List.getElem?_append_left hi] at hc
      exact (h.keeps_bounced hk.keeps hc).congr (hentry i (by omega))
        fun j hj => Heap.keeps_write hlow hhigh hapart hj
    · obtain ⟨hle, -⟩ := List.getElem?_eq_some_iff.mp hc
      rw [List.length_append, List.length_singleton] at hle
      obtain rfl : i = blocks.length := by omega
      rw [List.getElem?_concat_length] at hc
      cases hc
      refine ⟨?_, hsize, hpos, hwrap, hdata,
        hcopied.congr fun j hj => Heap.keeps_write hlow hhigh hapart hj⟩
      rw [← hgiven]
      exact readDataBuffer_write _ _ haddress
  · intro i hi hi'
    rw [List.length_append, List.length_singleton] at hi
    refine (readDataBuffer_congr (hentry i (by omega))).trans ?_
    exact (readDataBuffer_congr (h.keeps_entry hk.keeps hi')).trans
      (h.rest i (by omega) hi')

theorem Progress.round (hlt : blocks.length < count) (hcount : count < 2 ^ 16)
    (requestorMode : KProcessorMode) :
    (∃ status s', bounceRound env requestorMode s = (status, s') ∧
      status.ntSuccess = false ∧ Abandoned start s') ∨
    ∃ b s', bounceRound env requestorMode s = (.success, s') ∧
      s'.enqueueIn.input = s.enqueueIn.input ∧
      Progress env start given count s' array (blocks ++ [b]) := by
  have hgiven := h.rest blocks.length (le_refl _) hlt
  have hsame : Abandoned start s := h.abandoned (Heap.Holds.refl _)
  rw [bounceRound, h.bufferCount_eq, hgiven]
  simp only
  split
  · exact Or.inl ⟨_, _, rfl, rfl, hsame⟩
  · next hpos =>
      split
      · exact Or.inl ⟨_, _, rfl, rfl, hsame⟩
      · next hwrap =>
          split
          · exact Or.inl ⟨_, _, rfl, rfl, hsame⟩
          · next hdata =>
              rcases bounceBuffer_cases env requestorMode s.kernel
                  (given blocks.length).virtualAddress 1 hpos with
                ⟨status, k, heq, hfailed, hk⟩ |
                  ⟨b, k, heq, hsize, hk, hfreed, hcopied⟩
              · rw [heq]
                simp only [hfailed, Bool.not_false, if_true]
                refine Or.inl ⟨_, _, rfl, hfailed, ?_⟩
                have hleft := h.abandoned hk
                exact ⟨hleft.cleaned, hleft.buffers_released, rfl⟩
              · rw [heq]
                refine Or.inr ⟨b, _, rfl, rfl, ?_⟩
                exact h.extend hlt hcount hk hfreed hsize
                  (Nat.pos_of_ne_zero hpos) (Nat.lt_of_not_le hwrap)
                  (Nat.le_of_not_lt hdata) hcopied

theorem Progress.loop (hcount : count < 2 ^ 16) (requestorMode : KProcessorMode)
    {remaining : ℕ} (hremaining : blocks.length + remaining = count) :
    (∃ status s', bounceLoop env requestorMode remaining s = (status, s') ∧
      status.ntSuccess = false ∧ Abandoned start s') ∨
    ∃ all s', bounceLoop env requestorMode remaining s = (.success, s') ∧
      all.length = count ∧ s'.enqueueIn.input = s.enqueueIn.input ∧
      Progress env start given count s' array all := by
  induction remaining generalizing s blocks with
  | zero => exact Or.inr ⟨blocks, s, rfl, hremaining, rfl, h⟩
  | succ remaining ih =>
    rw [bounceLoop]
    rcases h.round (by omega) hcount requestorMode with
      ⟨status, s', heq, hfailed, hleft⟩ | ⟨b, s', heq, hinput, hnext⟩
    · rw [heq]
      simp only [hfailed, Bool.false_eq_true, if_false]
      exact Or.inl ⟨_, _, rfl, hfailed, hleft⟩
    · rw [heq]
      have hrest := ih hnext (by
        rw [List.length_append, List.length_singleton]
        omega)
      rwa [hinput] at hrest

end

end Round

/-! ## Whole calls -/

/-- What a successful `FnIoIoctlBounceEnqueue` has made: an array and a block
for each entry, allocated by the call. -/
structure FrameBounced (env : Surroundings) (k k' : Kernel)
    (ioBuffer enqueueIn : DataEnqueueIn) (array : Block)
    (blocks : List Block) : Prop where
  holds : k.heap.Holds k'.heap (blocks ++ [array])
  freed : k'.heap.freed = k.heap.freed
  apart : (blocks ++ [array]).Pairwise Block.Apart
  buffers_eq : enqueueIn.buffers = array.address
  bufferCount_eq : enqueueIn.bufferCount = ioBuffer.bufferCount
  length_eq : blocks.length = ioBuffer.bufferCount.toNat
  size_eq : array.size = sizeofDataBuffer * ioBuffer.bufferCount.toNat
  input_eq : enqueueIn.input = ioBuffer.input
  bounced : ∃ fetched : Memory, (∃ clock, ∀ i < array.size,
      env.byte (clock + i) (ioBuffer.buffers + i) = .ok (fetched i)) ∧
    ∀ i b, blocks[i]? = some b → BouncedEntry env k'.heap.memory
        (readDataBuffer fetched (sizeofDataBuffer * i)) (enqueueIn.entry i) b
  cleanup : ∀ (later : Kernel) (rest : List Block),
    later.heap.live.Perm (blocks ++ [array] ++ rest) →
    (∀ i < array.size, later.heap.memory (array.address + i) =
      k'.heap.memory (array.address + i)) →
    later.heap.Frees (fnIoIoctlCleanupEnqueue later enqueueIn).heap
      (blocks ++ [array])

variable {ioBuffer : DataEnqueueIn}

theorem Progress.frameBounced {fetched : Memory} {clock : ℕ} {s : EnqueueLocals}
    (h : Progress env k.heap
      (fun i => readDataBuffer fetched (sizeofDataBuffer * i))
      ioBuffer.bufferCount.toNat s array blocks)
    (hlength : blocks.length = ioBuffer.bufferCount.toNat)
    (hinput : s.enqueueIn.input = ioBuffer.input)
    (hfetched : ∀ i < array.size,
      env.byte (clock + i) (ioBuffer.buffers + i) = .ok (fetched i)) :
    FrameBounced env k s.kernel ioBuffer s.enqueueIn array blocks := by
  refine ⟨h.holds, h.freed, (List.pairwise_append.mp h.holds.apart).1,
    h.buffers_eq, UInt16.toNat_inj.mp (h.bufferCount_eq.trans hlength),
    hlength, h.size_eq, hinput, ⟨fetched, ⟨clock, hfetched⟩, h.bounced⟩, ?_⟩
  intro later rest hlive hkept
  refine fnIoIoctlCleanupEnqueue_frees hlive h.buffers_eq h.bufferCount_eq
    fun i b hb => ?_
  obtain ⟨hi, -⟩ := List.getElem?_eq_some_iff.mp hb
  have hentry : readDataBuffer later.heap.memory (s.enqueueIn.entry i) =
      readDataBuffer s.kernel.heap.memory (s.enqueueIn.entry i) := by
    refine readDataBuffer_congr fun j hj => ?_
    rw [DataEnqueueIn.entry, h.buffers_eq, Nat.add_assoc]
    refine hkept _ ?_
    rw [h.size_eq, ← hlength]
    unfold sizeofDataBuffer at hj ⊢
    omega
  rw [hentry, (h.bounced i b hb).entry_eq]

theorem progress_nil (env : Surroundings) {k' : Kernel}
    (hheld : k.heap.Holds k'.heap [array])
    (hfreed : k'.heap.freed = k.heap.freed)
    (hsize : array.size = sizeofDataBuffer * ioBuffer.bufferCount.toNat) :
    Progress env k.heap
      (fun i => readDataBuffer
        (fun j => k'.heap.memory (array.address + j)) (sizeofDataBuffer * i))
      ioBuffer.bufferCount.toNat
      ⟨k', { ioBuffer with buffers := array.address, bufferCount := 0 }, 0, 0⟩
      array [] := by
  refine ⟨hheld, hfreed, rfl, rfl, rfl, rfl, hsize, Nat.zero_le _,
    by simp, fun i _ _ => ?_⟩
  have hread (offset w : ℕ) : k'.heap.memory.readInt
        (array.address + sizeofDataBuffer * i + offset) w =
      Memory.readInt (fun j => k'.heap.memory (array.address + j))
        (sizeofDataBuffer * i + offset) w :=
    Memory.readInt_congr fun j _ => by simp only [Nat.add_assoc]
  have hpointer := hread 0 8
  rw [Nat.add_zero, Nat.add_zero] at hpointer
  rw [readDataBuffer, readDataBuffer]
  simp only [DataEnqueueIn.entry, hpointer, hread]

theorem bounceFrame_cases (env : Surroundings)
    (requestorMode : KProcessorMode) (k : Kernel) (inputBufferLength : ℕ)
    (ioBuffer : DataEnqueueIn) :
    (∃ status s, bounceFrame env requestorMode k inputBufferLength ioBuffer =
        (status, s) ∧
      status.ntSuccess = false ∧ Abandoned k.heap s) ∨
    ∃ s array blocks,
      bounceFrame env requestorMode k inputBufferLength ioBuffer =
        (.success, s) ∧
      s.buffers = 0 ∧ s.buffer = 0 ∧
      FrameBounced env k s.kernel ioBuffer s.enqueueIn array blocks := by
  have hnothing (enqueueIn : DataEnqueueIn) (hnull : enqueueIn.buffers = 0)
      {k' : Kernel} (hheld : k.heap.Holds k'.heap []) :
      Abandoned k.heap ⟨k', enqueueIn, 0, 0⟩ := by
    refine ⟨?_, rfl, rfl⟩
    simpa [fnIoIoctlCleanupEnqueue, hnull] using hheld
  unfold bounceFrame
  split
  · exact Or.inl ⟨_, _, rfl, rfl, hnothing _ rfl (Heap.Holds.refl _)⟩
  · simp only
    split
    · exact Or.inl ⟨_, _, rfl, rfl, hnothing _ rfl (Heap.Holds.refl _)⟩
    · next hcount =>
        have hcount' : ioBuffer.bufferCount.toNat ≠ 0 := fun hzero =>
          hcount (UInt16.toNat_inj.mp hzero)
        have hsize : sizeofDataBuffer * ioBuffer.bufferCount.toNat ≠ 0 := by
          unfold sizeofDataBuffer
          omega
        rcases bounceBuffer_cases env requestorMode k ioBuffer.buffers 8
            hsize with
          ⟨status, k', heq, hfailed, hheld⟩ |
            ⟨array, k', heq, hsize', hheld, hfreed, clock, hfetched⟩
        · rw [heq]
          simp only [hfailed, Bool.not_false, if_true]
          exact Or.inl ⟨_, _, rfl, hfailed, hnothing _ rfl hheld⟩
        · rw [heq]
          have hstart := progress_nil env hheld hfreed hsize'
          rcases hstart.loop ioBuffer.bufferCount.toNat_lt requestorMode
              (Nat.zero_add _) with
            ⟨status, s, hloop, hfailed, hleft⟩ |
              ⟨blocks, s, hloop, hlength, hinput, hall⟩
          · exact Or.inl ⟨status, s, hloop, hfailed, hleft⟩
          · exact Or.inr ⟨s, array, blocks, hloop, hall.buffers_released,
              hall.buffer_released, hall.frameBounced hlength hinput hfetched⟩

theorem fnIoIoctlBounceEnqueue_cases (env : Surroundings)
    (requestorMode : KProcessorMode) (k : Kernel) (inputBufferLength : ℕ)
    (ioBuffer : DataEnqueueIn) :
    (∃ status k',
      fnIoIoctlBounceEnqueue env requestorMode k inputBufferLength ioBuffer =
        (status, .zero, k') ∧
      status.ntSuccess = false ∧ k.heap.Holds k'.heap []) ∨
    ∃ enqueueIn k' array blocks,
      fnIoIoctlBounceEnqueue env requestorMode k inputBufferLength ioBuffer =
        (.success, enqueueIn, k') ∧
      FrameBounced env k k' ioBuffer enqueueIn array blocks := by
  unfold fnIoIoctlBounceEnqueue
  rcases bounceFrame_cases env requestorMode k inputBufferLength ioBuffer with
    ⟨status, s, heq, hfailed, hleft⟩ |
      ⟨s, array, blocks, heq, hbuffers, hbuffer, hframe⟩
  · rw [heq]
    simp only [hfailed, Bool.not_false, if_true, hleft.buffers_released,
      hleft.buffer_released]
    exact Or.inl ⟨_, _, rfl, hfailed, hleft.cleaned⟩
  · rw [heq]
    simp only [NtStatus.ntSuccess, Bool.not_true, Bool.false_eq_true, if_false,
      hbuffers, hbuffer]
    exact Or.inr ⟨_, _, array, blocks, rfl, hframe⟩

/-! ## The filter -/

/-- What a successful `FnIoIoctlBounceFilter` has made for a filter that is not
empty: a pattern and a mask. -/
structure FilterBounced (env : Surroundings) (k k' : Kernel)
    (ioBuffer filterIn : DataFilterIn) (pattern mask : Block) : Prop where
  holds : k.heap.Holds k'.heap [mask, pattern]
  freed : k'.heap.freed = k.heap.freed
  apart : mask.Apart pattern
  filterIn_eq : filterIn = ⟨pattern.address, mask.address, ioBuffer.length⟩
  pattern_size : pattern.size = ioBuffer.length.toNat
  mask_size : mask.size = ioBuffer.length.toNat
  pattern_copied : Copied env ioBuffer.pattern k'.heap.memory pattern
  mask_copied : Copied env ioBuffer.mask k'.heap.memory mask
  cleanup : ∀ (later : Kernel) (rest : List Block),
    later.heap.live.Perm ([mask, pattern] ++ rest) →
    later.heap.Frees (fnIoIoctlCleanupFilter later filterIn).1.heap
      [mask, pattern]

theorem fnIoIoctlCleanupFilter_frees {pattern mask : Block} (length : UInt32)
    (hlive : k.heap.live.Perm ([mask, pattern] ++ rest)) :
    k.heap.Frees
      (fnIoIoctlCleanupFilter k
        ⟨pattern.address, mask.address, length⟩).1.heap [mask, pattern] := by
  have hmask : k.heap.Frees (bounceFree k mask.address).heap [mask] :=
    bounceFree_address (hlive.mem_iff.mpr (by simp))
  refine hmask.trans (bounceFree_address ?_)
  exact (List.Perm.cons_inv (hmask.live.symm.trans hlive)).mem_iff.mpr
    (by simp)

theorem fnIoIoctlBounceFilter_cases (env : Surroundings)
    (requestorMode : KProcessorMode) (k : Kernel) (inputBufferLength : ℕ)
    (ioBuffer : DataFilterIn) :
    (∃ status k',
      fnIoIoctlBounceFilter env requestorMode k inputBufferLength ioBuffer =
        (status, .zero, k') ∧
      status.ntSuccess = false ∧ k.heap.Holds k'.heap []) ∨
    (ioBuffer.length = 0 ∧
      fnIoIoctlBounceFilter env requestorMode k inputBufferLength ioBuffer =
        (.success, .zero, k)) ∨
    ∃ filterIn k' pattern mask,
      fnIoIoctlBounceFilter env requestorMode k inputBufferLength ioBuffer =
        (.success, filterIn, k') ∧
      FilterBounced env k k' ioBuffer filterIn pattern mask := by
  have hsuccess : NtStatus.success.ntSuccess = true := rfl
  unfold fnIoIoctlBounceFilter bounceFilter
  by_cases hshort : inputBufferLength < sizeofDataFilterIn
  · simp only [if_pos hshort]
    exact Or.inl ⟨_, _, rfl, rfl, Heap.Holds.refl _⟩
  · by_cases hlength : ioBuffer.length = 0
    · simp only [if_neg hshort, if_pos hlength]
      exact Or.inr (Or.inl ⟨hlength, rfl⟩)
    · simp only [if_neg hshort, if_neg hlength]
      have hsize : ioBuffer.length.toNat ≠ 0 := fun hzero =>
        hlength (UInt32.toNat_inj.mp hzero)
      rcases bounceBuffer_cases env requestorMode k ioBuffer.pattern 1
          hsize with
        ⟨status, k₁, heq, hfailed, hheld⟩ |
          ⟨pattern, k₁, heq, hpattern, hheld, hfreed, hcopied⟩
      · rw [heq]
        simp only [hfailed, Bool.not_false, if_true]
        exact Or.inl ⟨_, _, rfl, hfailed, hheld⟩
      · rw [heq]
        rcases bounceBuffer_cases env requestorMode k₁ ioBuffer.mask 1
            hsize with
          ⟨status, k₂, heq₂, hfailed, hheld₂⟩ |
            ⟨mask, k₂, heq₂, hmask, hheld₂, hfreed₂, hcopied₂⟩
        · simp only [heq₂, hfailed, hsuccess, Bool.not_true,
            Bool.false_eq_true, if_false, Bool.not_false, if_true]
          refine Or.inl ⟨_, _, rfl, hfailed, ?_⟩
          have hboth : k.heap.Holds k₂.heap [pattern] := hheld.trans hheld₂
          exact hboth.frees (bounceFree_address
            (hboth.mem_live (List.mem_singleton_self _)))
        · simp only [heq₂, hsuccess, Bool.not_true,
            Bool.false_eq_true, if_false]
          have hboth := hheld.trans hheld₂
          refine Or.inr (Or.inr ⟨_, _, pattern, mask, rfl, hboth,
            hfreed₂.trans hfreed, ?_, rfl, hpattern, hmask, ?_, hcopied₂,
            fun later rest hlive => fnIoIoctlCleanupFilter_frees _ hlive⟩)
          · have hpair := (List.pairwise_append.mp hboth.apart).1
            exact List.pairwise_pair.mp hpair
          · exact hcopied.congr
              (hheld₂.keeps pattern (hheld.mem_live (by simp)))

/-- Bounced input is owned by the kernel: a failed call returns a zeroed
structure and has freed its copies, each once; after a successful one the output
consists of blocks of its own, which hold what was fetched and checked, and the
cleanup frees each of them once. -/
theorem bounced_input_owned (env : Surroundings)
    (requestorMode : KProcessorMode) (k : Kernel) (inputBufferLength : ℕ)
    (enqueue : DataEnqueueIn) (filter : DataFilterIn) :
    ((∃ status k',
        fnIoIoctlBounceEnqueue env requestorMode k inputBufferLength enqueue =
          (status, .zero, k') ∧
        status.ntSuccess = false ∧ k.heap.Holds k'.heap []) ∨
      ∃ enqueueIn k' array blocks,
        fnIoIoctlBounceEnqueue env requestorMode k inputBufferLength enqueue =
          (.success, enqueueIn, k') ∧
        FrameBounced env k k' enqueue enqueueIn array blocks) ∧
    ((∃ status k',
        fnIoIoctlBounceFilter env requestorMode k inputBufferLength filter =
          (status, .zero, k') ∧
        status.ntSuccess = false ∧ k.heap.Holds k'.heap []) ∨
      (filter.length = 0 ∧
        fnIoIoctlBounceFilter env requestorMode k inputBufferLength filter =
          (.success, .zero, k)) ∨
      ∃ filterIn k' pattern mask,
        fnIoIoctlBounceFilter env requestorMode k inputBufferLength filter =
          (.success, filterIn, k') ∧
        FilterBounced env k k' filter filterIn pattern mask) :=
  ⟨fnIoIoctlBounceEnqueue_cases env requestorMode k inputBufferLength enqueue,
    fnIoIoctlBounceFilter_cases env requestorMode k inputBufferLength filter⟩

end WinNetTest.Fnio.Bounce
