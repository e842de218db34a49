import Mathlib.Data.List.Nodup
import Mathlib.Logic.Function.Basic

/-!
# Rings of nodes

A head and its nodes are linked in a ring, forwards and backwards.  The
operations change the links one by one, as the usual header functions do.
-/

namespace WinNetTest.Support

/-- The forward and the backward link of every node. -/
structure Links (α : Type*) where
  flink : α → α
  blink : α → α

namespace Links

variable {α : Type*}

section Operations

variable [DecidableEq α] (l : Links α)

def setFlink (node link : α) : Links α :=
  { l with flink := Function.update l.flink node link }

def setBlink (node link : α) : Links α :=
  { l with blink := Function.update l.blink node link }

def initHead (head : α) : Links α :=
  (l.setFlink head head).setBlink head head

/-- Append the ring of `other`, which stays in it as a node. -/
def appendTail (head other : α) : Links α :=
  let last := l.blink head
  let l := l.setFlink last other
  let l := l.setBlink head (l.blink other)
  let l := l.setFlink (l.blink other) head
  l.setBlink other last

def removeEntry (node : α) : Links α :=
  (l.setFlink (l.blink node) (l.flink node)).setBlink (l.flink node)
    (l.blink node)

/-- Move the nodes of `other` to the new head `head`. -/
def moveAll (head other : α) : Links α :=
  (((l.initHead head).appendTail head other).removeEntry other).initHead other

end Operations

/-- The links lead from `a` through the nodes to `z`, and back. -/
def Segment (l : Links α) : α → List α → α → Prop
  | a, [], z => l.flink a = z ∧ l.blink z = a
  | a, x :: xs, z => l.flink a = x ∧ l.blink x = a ∧ l.Segment x xs z

/-- The nodes of a head. -/
structure IsRing (l : Links α) (head : α) (nodes : List α) : Prop where
  nodup : (head :: nodes).Nodup
  segment : l.Segment head nodes head

variable {l l' : Links α} {a z z' : α} {xs : List α}

theorem Segment.blink_mem (h : l.Segment a xs z) : l.blink z ∈ a :: xs := by
  induction xs generalizing a with
  | nil => exact List.mem_singleton.mpr h.2
  | cons x xs ih => exact List.mem_cons_of_mem a (ih h.2.2)

theorem Segment.retarget (h : l.Segment a xs z) (hnodup : (a :: xs).Nodup)
    (hflink : ∀ y ∈ a :: xs, y ≠ l.blink z → l'.flink y = l.flink y)
    (hblink : ∀ y ∈ xs, l'.blink y = l.blink y)
    (hlast : l'.flink (l.blink z) = z') (hend : l'.blink z' = l.blink z) :
    l'.Segment a xs z' := by
  induction xs generalizing a with
  | nil =>
    obtain ⟨-, rfl⟩ := h
    exact ⟨hlast, hend⟩
  | cons x xs ih =>
    obtain ⟨hnot, hnodup⟩ := List.nodup_cons.mp hnodup
    have ha : a ≠ l.blink z := fun heq => hnot (heq ▸ h.2.2.blink_mem)
    exact ⟨(hflink a List.mem_cons_self ha).trans h.1,
      (hblink x List.mem_cons_self).trans h.2.1,
      ih h.2.2 hnodup (fun y hy => hflink y (List.mem_cons_of_mem a hy))
        fun y hy => hblink y (List.mem_cons_of_mem x hy)⟩

variable [DecidableEq α] {head other : α}

theorem links_moveAll (hne : head ≠ other) (hfirst : l.flink other ≠ head)
    (hempty : l.flink other = other ↔ l.blink other = other) (y : α) :
    (l.moveAll head other).flink y = (if y = other then other
      else if y = head then
        if l.flink other = other then head else l.flink other
      else if y = l.blink other then head else l.flink y) ∧
    (l.moveAll head other).blink y = (if y = other then other
      else if y = l.flink other then head
      else if y = head then
        if l.flink other = other then head else l.blink other
      else l.blink y) := by
  simp only [moveAll, initHead, appendTail, removeEntry, setFlink, setBlink,
    Function.update_apply]
  grind

theorem IsRing.moveAll (h : l.IsRing other xs) (hhead : head ∉ other :: xs) :
    (l.moveAll head other).IsRing head xs ∧
      (l.moveAll head other).IsRing other [] ∧
      ∀ y ∉ head :: other :: xs, (l.moveAll head other).flink y = l.flink y ∧
        (l.moveAll head other).blink y = l.blink y := by
  obtain ⟨hnodup, hsegment⟩ := h
  have hne : head ≠ other := fun heq => hhead (heq ▸ List.mem_cons_self)
  cases xs with
  | nil =>
    obtain ⟨hflink, hblink⟩ := hsegment
    have hlinks := links_moveAll (l := l) hne (by grind) (by grind)
    refine ⟨⟨List.nodup_singleton head, ?_⟩,
      ⟨List.nodup_singleton other, ?_⟩, ?_⟩ <;> grind [Segment]
  | cons x xs =>
    obtain ⟨hflink, hblink, htail⟩ := hsegment
    have hmem := htail.blink_mem
    have hlinks := links_moveAll (l := l) hne (by grind) (by grind)
    refine ⟨⟨by grind, by grind, by grind, ?_⟩,
      ⟨List.nodup_singleton other, ?_⟩, by grind⟩
    · refine htail.retarget (List.nodup_cons.mp hnodup).2 ?_ ?_ ?_ ?_ <;> grind
    · grind [Segment]

end Links

end WinNetTest.Support
