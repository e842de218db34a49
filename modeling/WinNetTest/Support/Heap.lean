import Mathlib.Data.List.Nodup
import WinNetTest.Support.Memory

/-!
# Heaps with a ledger

A heap hands out blocks of memory and takes them back.  Its blocks never
overlap, and none of them lies at address zero.  Allocations are numbered, and
the ledger of the heap keeps the numbers of the blocks that were freed and the
addresses that were passed to `free` without being a block.
-/

namespace WinNetTest.Support

structure Block where
  serial : ℕ
  address : ℕ
  size : ℕ
  deriving DecidableEq

namespace Block

def Apart (b c : Block) : Prop :=
  b.address + b.size ≤ c.address ∨ c.address + c.size ≤ b.address

instance (b c : Block) : Decidable (b.Apart c) :=
  inferInstanceAs (Decidable (_ ∨ _))

theorem Apart.symm {b c : Block} (h : b.Apart c) : c.Apart b := Or.symm h

end Block

structure Heap (space : ℕ) where
  memory : Memory
  live : List Block
  next : ℕ
  freed : List ℕ
  invalid : List ℕ
  placed : ∀ b ∈ live, 0 < b.address ∧ 0 < b.size ∧ b.address + b.size ≤ space
  apart : live.Pairwise Block.Apart

namespace Heap

variable {space : ℕ}

/-! ## Operations -/

def Room (h : Heap space) (address size : ℕ) : Prop :=
  0 < address ∧ 0 < size ∧ address + size ≤ space ∧
    ∀ b ∈ h.live, Block.Apart ⟨h.next, address, size⟩ b

instance (h : Heap space) (address size : ℕ) :
    Decidable (h.Room address size) :=
  inferInstanceAs (Decidable (_ ∧ _))

def allocate (h : Heap space) (address size : ℕ)
    (hroom : h.Room address size) : Heap space :=
  { h with
    memory := h.memory.write address (List.replicate size 0)
    live := ⟨h.next, address, size⟩ :: h.live
    next := h.next + 1
    placed := List.forall_mem_cons.mpr
      ⟨⟨hroom.1, hroom.2.1, hroom.2.2.1⟩, h.placed⟩
    apart := List.pairwise_cons.mpr ⟨hroom.2.2.2, h.apart⟩ }

def free (h : Heap space) (address : ℕ) : Heap space :=
  match h.live.find? fun b => b.address = address with
  | some b =>
    { h with
      live := h.live.erase b
      freed := h.freed ++ [b.serial]
      placed := fun c hc => h.placed c (List.mem_of_mem_erase hc)
      apart := h.apart.sublist List.erase_sublist }
  | none => { h with invalid := h.invalid ++ [address] }

def write (h : Heap space) (address : ℕ) (bytes : List UInt8) : Heap space :=
  { h with memory := h.memory.write address bytes }

variable {b c : Block} {h h' : Heap space} {bs cs : List Block}

theorem apart_of_ne (hb : b ∈ h.live) (hc : c ∈ h.live) (hne : c ≠ b) :
    c.Apart b := by
  have hperm := (List.perm_cons_erase hc).pairwise_iff
    (R := Block.Apart) Block.Apart.symm
  have hpair := List.pairwise_cons.mp (hperm.mp h.apart)
  exact hpair.1 b ((List.mem_erase_of_ne hne.symm).mpr hb)

theorem eq_of_address_eq (hb : b ∈ h.live) (hc : c ∈ h.live)
    (heq : c.address = b.address) : c = b := by
  by_contra hne
  have hapart : c.Apart b := apart_of_ne hb hc hne
  have hbsize := (h.placed b hb).2.1
  have hcsize := (h.placed c hc).2.1
  unfold Block.Apart at hapart
  omega

theorem free_of_mem (hb : b ∈ h.live) :
    (h.free b.address).live = h.live.erase b ∧
      (h.free b.address).freed = h.freed ++ [b.serial] ∧
      (h.free b.address).invalid = h.invalid ∧
      (h.free b.address).next = h.next ∧
      (h.free b.address).memory = h.memory := by
  have hfind : (h.live.find? fun c => c.address = b.address) = some b := by
    cases hcase : h.live.find? fun c => c.address = b.address with
    | none =>
      have hnone := List.find?_eq_none.mp hcase b hb
      simp at hnone
    | some c =>
      have haddress : c.address = b.address := by
        simpa using List.find?_some hcase
      rw [eq_of_address_eq hb (List.mem_of_find?_eq_some hcase) haddress]
  simp [free, hfind]

/-! ## Accounts -/

/-- The blocks that are live in the first heap hold the same bytes in the
second one. -/
def Keeps (h h' : Heap space) : Prop :=
  ∀ b ∈ h.live, ∀ i < b.size,
    h'.memory (b.address + i) = h.memory (b.address + i)

/-- From the first heap to the second one, the blocks of the list have been
allocated and are still held, all others that were allocated have been freed
once, and nothing else has been freed or changed. -/
structure Holds (h h' : Heap space) (bs : List Block) : Prop where
  live : h'.live.Perm (bs ++ h.live)
  ledger : ∃ n serials, h'.next = h.next + n ∧ h'.freed = h.freed ++ serials ∧
    (serials ++ bs.map Block.serial).Perm (List.range' h.next n)
  invalid : h'.invalid = h.invalid
  keeps : h.Keeps h'

theorem Holds.refl (h : Heap space) : h.Holds h [] :=
  ⟨List.Perm.refl _,
    ⟨0, [], rfl, (List.append_nil _).symm, List.Perm.refl _⟩, rfl,
    fun _ _ _ _ => rfl⟩

theorem Holds.congr (hheld : h.Holds h' bs) (hperm : bs.Perm cs) :
    h.Holds h' cs := by
  obtain ⟨n, serials, hnext, hfreed, hledger⟩ := hheld.ledger
  refine ⟨hheld.live.trans (hperm.append_right _),
    ⟨n, serials, hnext, hfreed, ?_⟩, hheld.invalid, hheld.keeps⟩
  exact ((hperm.symm.map _).append_left _).trans hledger

theorem Holds.mem_live (hheld : h.Holds h' bs) (hb : b ∈ bs) : b ∈ h'.live :=
  hheld.live.mem_iff.mpr (List.mem_append_left _ hb)

theorem Holds.apart (hheld : h.Holds h' bs) :
    (bs ++ h.live).Pairwise Block.Apart :=
  (hheld.live.pairwise_iff (R := Block.Apart) Block.Apart.symm).mp h'.apart

variable {h₀ h₁ h₂ : Heap space}

theorem Holds.trans (hfirst : h₀.Holds h₁ bs) (hsecond : h₁.Holds h₂ cs) :
    h₀.Holds h₂ (cs ++ bs) := by
  obtain ⟨n, serials, hnext, hfreed, hledger⟩ := hfirst.ledger
  obtain ⟨m, serials', hnext', hfreed', hledger'⟩ := hsecond.ledger
  refine ⟨?_, ⟨n + m, serials ++ serials', ?_, ?_, ?_⟩, ?_, ?_⟩
  · rw [List.append_assoc]
    exact hsecond.live.trans (hfirst.live.append_left cs)
  · rw [hnext', hnext, Nat.add_assoc]
  · rw [hfreed', hfreed, List.append_assoc]
  · rw [← List.range'_append_1, ← hnext, List.map_append]
    have hshuffle : (serials ++ serials' ++
          (cs.map Block.serial ++ bs.map Block.serial)).Perm
          (serials ++ bs.map Block.serial ++
            (serials' ++ cs.map Block.serial)) := by
      simp only [List.append_assoc]
      refine List.Perm.append_left _ ?_
      rw [← List.append_assoc]
      exact List.perm_append_comm
    exact hshuffle.trans (hledger.append hledger')
  · rw [hsecond.invalid, hfirst.invalid]
  · intro b hb i hi
    rw [hsecond.keeps b (hfirst.live.mem_iff.mpr
      (List.mem_append_right _ hb)) i hi, hfirst.keeps b hb i hi]

variable {bytes : List UInt8}

theorem keeps_write {address : ℕ} (hlow : b.address ≤ address)
    (hhigh : address + bytes.length ≤ b.address + b.size) (hapart : b.Apart c)
    {i : ℕ} (hi : i < c.size) :
    (h.write address bytes).memory (c.address + i) =
      h.memory (c.address + i) := by
  unfold Block.Apart at hapart
  exact Memory.write_apply_outside _ (by omega)

theorem holds_allocate (h : Heap space) {address size : ℕ}
    (hroom : h.Room address size) :
    h.Holds (h.allocate address size hroom) [⟨h.next, address, size⟩] := by
  refine ⟨List.Perm.refl _, ⟨1, [], rfl, (List.append_nil _).symm,
    List.Perm.refl _⟩, rfl, ?_⟩
  intro b hb i hi
  exact keeps_write (b := ⟨h.next, address, size⟩) (le_refl _) (by simp)
    (hroom.2.2.2 b hb) hi

theorem Holds.write (hheld : h.Holds h' bs) (hb : b ∈ bs) {address : ℕ}
    (hlow : b.address ≤ address)
    (hhigh : address + bytes.length ≤ b.address + b.size) :
    h.Holds (h'.write address bytes) bs := by
  refine ⟨hheld.live, hheld.ledger, hheld.invalid, fun c hc i hi => ?_⟩
  have hapart : b.Apart c :=
    (List.pairwise_append.mp hheld.apart).2.2 b hb c hc
  rw [keeps_write hlow hhigh hapart hi, hheld.keeps c hc i hi]

/-! ## Giving blocks back -/

/-- From the first heap to the second one, the blocks of the list have been
freed in their order, and nothing else has happened. -/
structure Frees (h h' : Heap space) (bs : List Block) : Prop where
  live : h.live.Perm (bs ++ h'.live)
  freed : h'.freed = h.freed ++ bs.map Block.serial
  invalid : h'.invalid = h.invalid
  next : h'.next = h.next
  memory : h'.memory = h.memory

theorem Frees.refl (h : Heap space) : h.Frees h [] :=
  ⟨List.Perm.refl _, (List.append_nil _).symm, rfl, rfl, rfl⟩

theorem Frees.trans (hfirst : h₀.Frees h₁ bs) (hsecond : h₁.Frees h₂ cs) :
    h₀.Frees h₂ (bs ++ cs) := by
  refine ⟨?_, ?_, hsecond.invalid.trans hfirst.invalid,
    hsecond.next.trans hfirst.next, hsecond.memory.trans hfirst.memory⟩
  · rw [List.append_assoc]
    exact hfirst.live.trans (hsecond.live.append_left bs)
  · rw [hsecond.freed, hfirst.freed, List.map_append, List.append_assoc]

theorem frees_free (hb : b ∈ h.live) : h.Frees (h.free b.address) [b] := by
  obtain ⟨hlive, hfreed, hinvalid, hnext, hmemory⟩ := free_of_mem hb
  refine ⟨?_, hfreed, hinvalid, hnext, hmemory⟩
  rw [hlive]
  exact List.perm_cons_erase hb

theorem Holds.frees {h'' : Heap space} (hheld : h.Holds h' (bs ++ cs))
    (hfrees : h'.Frees h'' bs) :
    h.Holds h'' cs := by
  obtain ⟨n, serials, hnext, hfreed, hledger⟩ := hheld.ledger
  refine ⟨?_, ⟨n, serials ++ bs.map Block.serial, ?_, ?_, ?_⟩, ?_, ?_⟩
  · have hlive := hfrees.live.symm.trans hheld.live
    rw [List.append_assoc] at hlive
    exact (List.perm_append_left_iff bs).mp hlive
  · rw [hfrees.next, hnext]
  · rw [hfrees.freed, hfreed, List.append_assoc]
  · rw [List.append_assoc, ← List.map_append]
    exact hledger
  · rw [hfrees.invalid, hheld.invalid]
  · intro b hb i hi
    rw [hfrees.memory, hheld.keeps b hb i hi]

end Heap

end WinNetTest.Support
