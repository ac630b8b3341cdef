import Mathlib.Data.List.Nodup

/-!
# Linked chains

The nodes of a linked list in memory, from a pointer on up to the null pointer; `next` is
the link that a node stores. A chain has no cycle, so writing to its last node leaves the
others alone.
-/

namespace Linked

variable {Node : Type*} {next next' : Node → Option Node} {pointer : Option Node}

/-- The nodes from this pointer on. -/
inductive Chain (next : Node → Option Node) : Option Node → List Node → Prop
  | null : Chain next none []
  | node {first : Node} {nodes : List Node} (rest : Chain next (next first) nodes) :
      Chain next (some first) (first :: nodes)

namespace Chain

variable {nodes others : List Node}

/-- The links determine the chain. -/
theorem unique (chain : Chain next pointer nodes) (other : Chain next pointer others) :
    nodes = others := by
  induction chain generalizing others with
  | null =>
      cases other
      rfl
  | node _ ih =>
      cases other with
      | node rest => rw [ih rest]

/-- What follows a node of a chain is the chain from its link on. -/
theorem behind {front back : List Node} {node : Node}
    (chain : Chain next pointer (front ++ node :: back)) : Chain next (next node) back := by
  induction front generalizing pointer with
  | nil =>
      cases chain with
      | node rest => exact rest
  | cons first front ih =>
      cases chain with
      | node rest => exact ih rest

/-- No node occurs twice: the chain would never end. -/
theorem nodup (chain : Chain next pointer nodes) : nodes.Nodup := by
  induction chain with
  | null => exact List.nodup_nil
  | @node first nodes rest ih =>
      refine List.nodup_cons.mpr ⟨fun again => ?_, ih⟩
      obtain ⟨front, back, rfl⟩ := List.append_of_mem again
      have shorter := congrArg List.length (rest.unique rest.behind)
      rw [List.length_append, List.length_cons] at shorter
      omega

/-- The last node of a chain occurs nowhere before. -/
theorem ne_last {front : List Node} {node last : Node}
    (chain : Chain next pointer (front ++ [last])) (member : node ∈ front) : node ≠ last := by
  rintro rfl
  exact (List.nodup_append.mp chain.nodup).2.2 node member node (List.mem_singleton_self node) rfl

/-- A new node behind the last one. -/
theorem push {front : List Node} {last fresh : Node}
    (chain : Chain next pointer (front ++ [last])) (same : ∀ node ∈ front, next' node = next node)
    (link : next' last = some fresh) (end_ : next' fresh = none) :
    Chain next' pointer (front ++ [last] ++ [fresh]) := by
  induction front generalizing pointer with
  | nil =>
      cases chain with
      | node _ =>
          refine .node ?_
          rw [link]
          refine .node ?_
          rw [end_]
          exact .null
  | cons first front ih =>
      cases chain with
      | node rest =>
          refine .node ?_
          rw [same first List.mem_cons_self]
          exact ih rest fun node member => same node (List.mem_cons_of_mem first member)

end Chain

end Linked
