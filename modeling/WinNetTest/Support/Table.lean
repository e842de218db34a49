import Mathlib.Data.List.AList
import Mathlib.Algebra.BigOperators.Group.Multiset.Basic
import Mathlib.Algebra.Order.Group.Multiset
import Mathlib.Data.Multiset.OrderedMonoid
import Mathlib.Tactic.Abel

/-!
# Tables of running calls and open handles

A table is a Mathlib association list over one value type.  This module adds
what conservation arguments need: the sum of a measure over all entries of a
table, and how inserting or erasing one entry changes it.  The measure takes
its values in any commutative monoid, so one pair of lemmas serves counters
(natural numbers) and contents (multisets) alike.
-/

namespace WinNetTest.Support

abbrev Table (κ β : Type*) := AList (fun _ : κ => β)

namespace Table

variable {κ β M : Type*}

/-- The sum of `g` over all entries of a table. -/
def total [AddCommMonoid M] (g : κ → β → M) (t : Table κ β) : M :=
  (t.entries.map fun e => g e.1 e.2).sum

@[simp] theorem total_empty [AddCommMonoid M] (g : κ → β → M) :
    total g (∅ : Table κ β) = 0 := rfl

theorem total_add [AddCommMonoid M]
    (g g' : κ → β → M) (t : Table κ β) :
    total (fun k v => g k v + g' k v) t = total g t + total g' t := by
  unfold total
  induction t.entries with
  | nil => simp
  | cons e rest ih =>
    simp only [List.map_cons, List.sum_cons, ih]
    abel

theorem card_total {α : Type*} (g : κ → β → Multiset α) (t : Table κ β) :
    Multiset.card (total g t) = total (fun k v => Multiset.card (g k v)) t := by
  unfold total
  induction t.entries with
  | nil => rfl
  | cons e rest ih =>
    simp only [List.map_cons, List.sum_cons, Multiset.card_add, ih]

theorem map_total {α γ : Type*} (f : α → γ) (g : κ → β → Multiset α)
    (t : Table κ β) :
    (total g t).map f = total (fun k v => (g k v).map f) t := by
  unfold total
  induction t.entries with
  | nil => rfl
  | cons e rest ih =>
    simp only [List.map_cons, List.sum_cons, Multiset.map_add, ih]

variable {g g' : κ → β → M}

theorem total_le_total [AddCommMonoid M] [PartialOrder M] [IsOrderedAddMonoid M]
    (h : ∀ k v, g k v ≤ g' k v) (t : Table κ β) : total g t ≤ total g' t := by
  unfold total
  induction t.entries with
  | nil => exact le_rfl
  | cons e rest ih =>
    simp only [List.map_cons, List.sum_cons]
    exact add_le_add (h e.1 e.2) ih

variable [DecidableEq κ]

theorem total_insert [AddCommMonoid M]
    (g : κ → β → M) (t : Table κ β) (k : κ) (v : β) :
    total g (t.insert k v) = g k v + total g (t.erase k) := by
  have herase : (t.erase k).entries = t.entries.kerase k := rfl
  simp [total, AList.entries_insert, herase]

variable {t : Table κ β} {k : κ}

theorem total_eq_of_lookup [AddCommMonoid M] (g : κ → β → M) {v : β}
    (hk : t.lookup k = some v) : total g t = g k v + total g (t.erase k) := by
  have hmem : (⟨k, v⟩ : Sigma fun _ : κ => β) ∈ t.entries :=
    AList.mem_lookup_iff.mp hk
  obtain ⟨w, l₁, l₂, hnot, hentries, herase⟩ :=
    List.exists_of_kerase (List.mem_keys_of_mem hmem)
  have hw : w = v := by
    have hlookup : t.entries.dlookup k = some w := by
      rw [hentries, List.dlookup_append, List.dlookup_eq_none.mpr hnot]
      simp
    have hv : t.entries.dlookup k = some v := hk
    exact Option.some.inj (hlookup.symm.trans hv)
  subst hw
  change (t.entries.map fun e => g e.1 e.2).sum =
    g k w + ((t.entries.kerase k).map fun e => g e.1 e.2).sum
  rw [herase, hentries]
  simp only [List.map_append, List.map_cons, List.sum_append, List.sum_cons]
  exact add_left_comm _ _ _

theorem erase_eq_of_lookup_none (hk : t.lookup k = none) : t.erase k = t := by
  apply AList.ext
  exact List.kerase_of_notMem_keys (List.dlookup_eq_none.mp hk)

theorem total_insert_of_lookup_none [AddCommMonoid M] (g : κ → β → M) (v : β)
    (hk : t.lookup k = none) : total g (t.insert k v) = g k v + total g t := by
  rw [total_insert, erase_eq_of_lookup_none hk]

theorem total_update [AddCommMonoid M] (g : κ → β → M) {v : β} (w : β)
    (hk : t.lookup k = some v) :
    total g (t.insert k w) + g k v = total g t + g k w := by
  rw [total_insert, total_eq_of_lookup g hk]
  abel

theorem total_update_eq [AddCommMonoid M] (g : κ → β → M) {v w : β}
    (hk : t.lookup k = some v) (hw : g k w = g k v) :
    total g (t.insert k w) = total g t := by
  rw [total_insert, total_eq_of_lookup g hk, hw]

def put (t : Table κ β) (k : κ) : Option β → Table κ β
  | none => t.erase k
  | some v => t.insert k v

theorem lookup_put (t : Table κ β) (k k' : κ) (next : Option β) :
    (t.put k next).lookup k' = if k' = k then next else t.lookup k' := by
  by_cases h : k' = k
  · subst h
    cases next <;> simp [put]
  · cases next <;> simp [put, h]

theorem total_put [AddCommMonoid M]
    (g : κ → β → M) (t : Table κ β) (k : κ) (next : Option β) :
    total g (t.put k next) + (t.lookup k).elim 0 (g k) =
      total g t + next.elim 0 (g k) := by
  cases hlookup : t.lookup k with
  | none =>
    cases next with
    | none => simp [put, erase_eq_of_lookup_none hlookup]
    | some v =>
      simp only [put, Option.elim]
      rw [total_insert_of_lookup_none _ v hlookup]
      abel
  | some old =>
    cases next with
    | none =>
      simp only [put, Option.elim]
      rw [total_eq_of_lookup g hlookup]
      abel
    | some v => exact total_update _ v hlookup

theorem total_eq_erase [AddCommMonoid M]
    (g : κ → β → M) (t : Table κ β) (k : κ) :
    total g t = (t.lookup k).elim 0 (g k) + total g (t.erase k) := by
  cases hlookup : t.lookup k with
  | none => simp [erase_eq_of_lookup_none hlookup]
  | some v => exact total_eq_of_lookup g hlookup

theorem total_put_eq [AddCommMonoid M]
    (g : κ → β → M) (t : Table κ β) (k : κ) (next : Option β) :
    total g (t.put k next) = next.elim 0 (g k) + total g (t.erase k) := by
  cases next with
  | none => simp [put]
  | some v => exact total_insert g t k v

theorem total_eq_zero [AddCommMonoid M]
    (h : ∀ k v, t.lookup k = some v → g k v = 0) : total g t = 0 := by
  refine List.sum_eq_zero fun m hm => ?_
  obtain ⟨e, he, rfl⟩ := List.mem_map.mp hm
  exact h e.1 e.2 (AList.mem_lookup_iff.mpr he)

theorem total_congr [AddCommMonoid M]
    (h : ∀ k v, t.lookup k = some v → g k v = g' k v) :
    total g t = total g' t := by
  refine congrArg List.sum (List.map_congr_left fun e he => ?_)
  exact h e.1 e.2 (AList.mem_lookup_iff.mpr he)

theorem mem_total {α : Type*} {g : κ → β → Multiset α} {a : α} :
    a ∈ total g t ↔ ∃ k v, t.lookup k = some v ∧ a ∈ g k v := by
  have hentries : ∀ l : List (Sigma fun _ : κ => β),
      a ∈ (l.map fun e => g e.1 e.2).sum ↔ ∃ e ∈ l, a ∈ g e.1 e.2 := by
    intro l
    induction l with
    | nil => simp
    | cons e rest ih => simp [ih]
  rw [total, hentries]
  constructor
  · rintro ⟨e, he, ha⟩
    exact ⟨e.1, e.2, AList.mem_lookup_iff.mpr he, ha⟩
  · rintro ⟨k, v, hk, ha⟩
    exact ⟨⟨k, v⟩, AList.mem_lookup_iff.mp hk, ha⟩

end Table

end WinNetTest.Support
