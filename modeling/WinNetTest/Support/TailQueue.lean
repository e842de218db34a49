import Mathlib.Data.List.Basic
import Mathlib.Data.List.Nodup
import Mathlib.Logic.Function.Basic

/-!
# Singly linked queues

A queue is kept as its first node, the place where the next node is to be
linked, and the number of its nodes.  The operations change the links of the
nodes one by one, as the usual header functions do; the lemmas say what they do
to the list of nodes, and that links of other nodes are not affected.
-/

namespace WinNetTest.Support

/-- The place of a link: the head of the queue or a node. -/
inductive Slot (α : Type*) where
  | first
  | next (node : α)
  deriving DecidableEq

/-- A queue head: the first node, the place of the link behind the last node
and the number of nodes. -/
structure TailQueue (α : Type*) where
  first : Option α
  last : Slot α
  count : ℕ

namespace TailQueue

variable {α : Type*}

def empty : TailQueue α := ⟨none, .first, 0⟩

/-- Follow the links for a number of steps, or until they end. -/
def walk (next : α → Option α) : ℕ → Option α → Option α
  | 0, node => node
  | _ + 1, none => none
  | n + 1, some node => walk next n (next node)

section Operations

variable [DecidableEq α]

def link (next : α → Option α) (q : TailQueue α) (node : Option α) :
    (α → Option α) × TailQueue α :=
  match q.last with
  | .first => (next, { q with first := node })
  | .next last => (Function.update next last node, q)

def append (next : α → Option α) (q : TailQueue α) (node : α) :
    (α → Option α) × TailQueue α :=
  let (next, q) := q.link next (some node)
  (next, { q with last := .next node, count := q.count + 1 })

def popFirst (next : α → Option α) (q : TailQueue α) :
    Option (α × (α → Option α) × TailQueue α) :=
  match q.first with
  | none => none
  | some node =>
    some (node, Function.update next node none,
      { first := next node
        last := if (next node).isNone then .first else q.last
        count := q.count - 1 })

/-- Append all nodes of another queue, which is left empty. -/
def appendQueue (next : α → Option α) (q source : TailQueue α) :
    (α → Option α) × TailQueue α × TailQueue α :=
  if source.first.isNone then (next, q, source)
  else
    let (next, q) := q.link next source.first
    (next,
      { q with last := source.last, count := q.count + source.count }, empty)

end Operations

/-! ## The nodes of a queue -/

/-- The links lead through the given nodes and end. -/
def Chain (next : α → Option α) : Option α → List α → Prop
  | node, [] => node = none
  | node, x :: xs => node = some x ∧ Chain next (next x) xs

def lastSlot (nodes : List α) : Slot α :=
  nodes.getLast?.elim .first .next

/-- The queue has the given nodes, and its fields are consistent with them. -/
structure IsQueue (next : α → Option α) (q : TailQueue α) (nodes : List α) :
    Prop where
  chain : Chain next q.first nodes
  last : q.last = lastSlot nodes
  count : q.count = nodes.length
  nodup : nodes.Nodup

variable {next next' : α → Option α} {q : TailQueue α} {nodes : List α}

theorem isQueue_empty (next : α → Option α) : IsQueue next empty [] :=
  ⟨rfl, rfl, rfl, List.nodup_nil⟩

theorem walk_none (next : α → Option α) (n : ℕ) : walk next n none = none := by
  cases n <;> rfl

variable {node : Option α}

theorem Chain.walk (h : Chain next node nodes) (n : ℕ) :
    TailQueue.walk next n node = nodes[n]? := by
  induction nodes generalizing node n with
  | nil =>
    rw [show node = none from h, walk_none, List.getElem?_nil]
  | cons x xs ih =>
    obtain ⟨rfl, htail⟩ := h
    cases n with
    | zero => rfl
    | succ n => exact ih htail n

theorem Chain.congr (h : Chain next node nodes)
    (hnext : ∀ x ∈ nodes, next' x = next x) : Chain next' node nodes := by
  induction nodes generalizing node with
  | nil => exact h
  | cons x xs ih =>
    obtain ⟨hfirst, htail⟩ := h
    refine ⟨hfirst, ?_⟩
    rw [hnext x List.mem_cons_self]
    exact ih htail fun y hy => hnext y (List.mem_cons_of_mem x hy)

theorem IsQueue.congr (h : IsQueue next q nodes)
    (hnext : ∀ x ∈ nodes, next' x = next x) : IsQueue next' q nodes :=
  ⟨h.chain.congr hnext, h.last, h.count, h.nodup⟩

theorem lastSlot_append_singleton (nodes : List α) (node : α) :
    lastSlot (nodes ++ [node]) = .next node := by
  simp [lastSlot]

variable {nodes' : List α}

theorem lastSlot_append (nodes : List α) (h : nodes' ≠ []) :
    lastSlot (nodes ++ nodes') = lastSlot nodes' := by
  simp [lastSlot, List.getLast?_append_of_ne_nil _ h]

theorem Chain.extend {first : Option α} {before nodes' : List α} {last : α}
    (h : Chain next first (before ++ [last]))
    (hbefore : ∀ x ∈ before, next' x = next x)
    (hlast : Chain next' (next' last) nodes') :
    Chain next' first (before ++ last :: nodes') := by
  induction before generalizing first with
  | nil => exact ⟨h.1, hlast⟩
  | cons x xs ih =>
    obtain ⟨hfirst, htail⟩ := h
    refine ⟨hfirst, ?_⟩
    rw [hbefore x List.mem_cons_self]
    exact ih htail fun y hy => hbefore y (List.mem_cons_of_mem x hy)

/-! ## What the operations do -/

variable [DecidableEq α]

theorem IsQueue.link (h : IsQueue next q nodes)
    (hchain : Chain next node nodes') (hdisjoint : nodes.Disjoint nodes') :
    Chain (q.link next node).1 (q.link next node).2.first (nodes ++ nodes') ∧
      ∀ x ∉ nodes, (q.link next node).1 x = next x := by
  rcases List.eq_nil_or_concat' nodes with rfl | ⟨before, last, rfl⟩
  · have hq : q.last = .first := h.last
    simp only [TailQueue.link, hq]
    exact ⟨hchain, fun _ _ => trivial⟩
  · have hq : q.last = .next last :=
      h.last.trans (lastSlot_append_singleton before last)
    simp only [TailQueue.link, hq]
    have hkept : ∀ x, x ≠ last → Function.update next last node x = next x :=
      fun x hx => Function.update_of_ne hx _ _
    have hnotMem : last ∉ before := fun hmem =>
      (List.nodup_append.mp h.nodup).2.2 last hmem last (by simp) rfl
    refine ⟨?_, fun x hx => hkept x fun heq => hx (by simp [heq])⟩
    rw [List.append_assoc, List.singleton_append]
    refine h.chain.extend (fun x hx => hkept x fun heq => hnotMem (heq ▸ hx)) ?_
    rw [Function.update_self]
    refine hchain.congr fun x hx => hkept x fun heq => ?_
    exact hdisjoint (a := x) (by simp [heq]) hx

theorem IsQueue.append (h : IsQueue next q nodes) {node : α}
    (hnode : node ∉ nodes) (hnext : next node = none) :
    IsQueue (q.append next node).1 (q.append next node).2 (nodes ++ [node]) ∧
      ∀ x ∉ nodes, (q.append next node).1 x = next x := by
  have hsingle : Chain next (some node) [node] := ⟨rfl, hnext⟩
  obtain ⟨hchain, hkept⟩ :=
    h.link hsingle (List.disjoint_singleton.mpr hnode)
  refine ⟨⟨hchain, (lastSlot_append_singleton nodes node).symm, ?_, ?_⟩, hkept⟩
  · have hcount : (q.link next (some node)).2.count = q.count := by
      unfold TailQueue.link
      split <;> rfl
    simp [TailQueue.append, hcount, h.count]
  · exact h.nodup.append (List.nodup_singleton node)
      (List.disjoint_singleton.mpr hnode)

theorem IsQueue.popFirst {x : α} {xs : List α} (h : IsQueue next q (x :: xs)) :
    ∃ next' q', q.popFirst next = some (x, next', q') ∧
      IsQueue next' q' xs ∧ next' x = none ∧
      ∀ y, y ≠ x → next' y = next y := by
  obtain ⟨hfirst, htail⟩ := h.chain
  obtain ⟨hnotMem, hnodup⟩ := List.nodup_cons.mp h.nodup
  have hkept : ∀ y, y ≠ x → Function.update next x none y = next y :=
    fun y hy => Function.update_of_ne hy _ _
  refine ⟨Function.update next x none, _, by rw [TailQueue.popFirst, hfirst],
    ⟨htail.congr fun y hy => hkept y fun heq => hnotMem (heq ▸ hy), ?_, ?_,
      hnodup⟩, Function.update_self _ _ _, hkept⟩
  · cases xs with
    | nil =>
      have hnone : next x = none := htail
      simp [hnone, lastSlot]
    | cons y ys =>
      simp only [htail.1, Option.isNone_some, Bool.false_eq_true, if_false]
      exact h.last.trans (lastSlot_append [x] (List.cons_ne_nil y ys))
  · simp [h.count]

theorem IsQueue.popFirst_nil (h : IsQueue next q []) :
    q.popFirst next = none := by
  have hfirst : q.first = none := h.chain
  rw [TailQueue.popFirst, hfirst]

theorem IsQueue.appendQueue {source : TailQueue α} (h : IsQueue next q nodes)
    (hsource : IsQueue next source nodes') (hdisjoint : nodes.Disjoint nodes') :
    ∃ next' q' source', q.appendQueue next source = (next', q', source') ∧
      IsQueue next' q' (nodes ++ nodes') ∧ IsQueue next' source' [] ∧
      ∀ x ∉ nodes, next' x = next x := by
  cases nodes' with
  | nil =>
    have hfirst : source.first = none := hsource.chain
    refine ⟨next, q, source, by simp [TailQueue.appendQueue, hfirst],
      by simpa using h, hsource, fun _ _ => rfl⟩
  | cons x xs =>
    have hfirst : source.first = some x := hsource.chain.1
    obtain ⟨hchain, hkept⟩ := h.link hsource.chain hdisjoint
    have hcount : (q.link next source.first).2.count = q.count := by
      unfold TailQueue.link
      split <;> rfl
    refine ⟨(q.link next source.first).1,
      { (q.link next source.first).2 with
        last := source.last
        count := (q.link next source.first).2.count + source.count }, empty,
      by simp [TailQueue.appendQueue, hfirst], ⟨hchain, ?_, ?_, ?_⟩,
      isQueue_empty _, hkept⟩
    · exact hsource.last.trans
        (lastSlot_append nodes (List.cons_ne_nil x xs)).symm
    · simp only [hcount, h.count, hsource.count, List.length_append]
    · exact h.nodup.append hsource.nodup hdisjoint

end TailQueue

end WinNetTest.Support
