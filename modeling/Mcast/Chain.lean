import Mathlib.Data.List.Nodup
import Mathlib.Logic.Function.Basic

/-!
# Chains of nodes with pending links

A chain is given by its nodes in order and by a partial successor function.  A link may be missing
as long as it is pending, so that the chain can grow behind a gap.  The rules say how a chain grows
at its end and how a pending link is stored.
-/

namespace Chain

variable {Node : Type*}

/-- From the first node on, each node points to the next one, or to nothing while this link is
pending; the last one points to nothing. -/
def Linked (next : Node → Option Node) (pending : Node → Node → Prop) : Node → List Node → Prop
  | a, [] => next a = none
  | a, b :: nodes => (next a = some b ∨ next a = none ∧ pending a b) ∧ Linked next pending b nodes

variable {next next' : Node → Option Node} {pending pending' : Node → Node → Prop} {a : Node}
  {nodes : List Node}

theorem Linked.last (linked : Linked next pending a nodes) : next (nodes.getLastD a) = none := by
  induction nodes generalizing a with
  | nil => exact linked
  | cons b nodes ih =>
      rw [List.getLastD_cons]
      exact ih linked.2

/-- What is not on the chain does not matter. -/
theorem Linked.congr (linked : Linked next pending a nodes)
    (same : ∀ x ∈ a :: nodes, next' x = next x)
    (kept : ∀ x ∈ a :: nodes, ∀ y, pending x y → pending' x y) : Linked next' pending' a nodes := by
  induction nodes generalizing a with
  | nil => exact (same a List.mem_cons_self).trans linked
  | cons b nodes ih =>
      refine ⟨?_, ih linked.2 (fun x member => same x (List.mem_cons_of_mem a member))
        (fun x member => kept x (List.mem_cons_of_mem a member))⟩
      rw [same a List.mem_cons_self]
      exact linked.1.imp_right fun ⟨missing, due⟩ => ⟨missing, kept a List.mem_cons_self b due⟩

/-- A new last node, whose link is pending. -/
theorem Linked.concat {n : Node} (linked : Linked next pending a nodes)
    (kept : ∀ x y, pending x y → pending' x y) (due : pending' (nodes.getLastD a) n)
    (last : next n = none) : Linked next pending' a (nodes ++ [n]) := by
  induction nodes generalizing a with
  | nil => exact ⟨Or.inr ⟨linked, due⟩, last⟩
  | cons b nodes ih =>
      rw [List.getLastD_cons] at due
      refine ⟨?_, ih linked.2 due⟩
      exact linked.1.imp_right fun ⟨missing, old⟩ => ⟨missing, kept a b old⟩

/-- A new last node, whose link is stored at once. -/
theorem Linked.append [DecidableEq Node] {n : Node} (linked : Linked next pending a nodes)
    (distinct : (a :: (nodes ++ [n])).Nodup) (last : next n = none) :
    Linked (Function.update next (nodes.getLastD a) (some n)) pending a (nodes ++ [n]) := by
  induction nodes generalizing a with
  | nil =>
      have other : n ≠ a := by
        rintro rfl
        simp at distinct
      exact ⟨Or.inl (Function.update_self ..), (Function.update_of_ne other _ _).trans last⟩
  | cons b nodes ih =>
      obtain ⟨absent, rest⟩ := List.nodup_cons.mp distinct
      have elsewhere : a ≠ (b :: nodes).getLastD a := by
        intro same
        apply absent
        rw [same, List.getLastD_cons]
        exact List.mem_append_left _ List.getLastD_mem_cons
      refine ⟨?_, ?_⟩
      · rw [Function.update_of_ne elsewhere]
        exact linked.1
      · rw [List.getLastD_cons]
        exact ih linked.2 rest

theorem infix_pair_cons {x y : Node} :
    [x, y] <:+: a :: nodes ↔ (x = a ∧ nodes.head? = some y) ∨ [x, y] <:+: nodes := by
  rw [List.infix_cons_iff, List.cons_prefix_cons]
  cases nodes with
  | nil => simp
  | cons b nodes => simp [eq_comm]

/-- A successor is not the first node. -/
theorem mem_of_infix_cons {x y : Node} (found : [x, y] <:+: a :: nodes) : y ∈ nodes := by
  rcases infix_pair_cons.mp found with ⟨-, head⟩ | later
  · exact List.mem_of_head? head
  · exact later.subset (by simp)

/-- A node has one successor. -/
theorem eq_of_infix {x y y' : Node} (distinct : nodes.Nodup) (first : [x, y] <:+: nodes)
    (second : [x, y'] <:+: nodes) : y = y' := by
  induction nodes with
  | nil => simp at first
  | cons b nodes ih =>
      obtain ⟨absent, rest⟩ := List.nodup_cons.mp distinct
      have inside : ∀ z, [x, z] <:+: nodes → x ∈ nodes := fun z found => found.subset (by simp)
      rcases infix_pair_cons.mp first with ⟨here, head⟩ | later <;>
        rcases infix_pair_cons.mp second with ⟨here', head'⟩ | later'
      · exact Option.some.inj (head.symm.trans head')
      · exact absurd (inside y' later') (here ▸ absent)
      · exact absurd (inside y later) (here' ▸ absent)
      · exact ih rest later later'

/-- The pending link between two neighbours is stored. -/
theorem Linked.store [DecidableEq Node] {x y : Node} (linked : Linked next pending a nodes)
    (distinct : (a :: nodes).Nodup) (neighbours : [x, y] <:+: a :: nodes)
    (kept : ∀ u v, u ≠ x → pending u v → pending' u v) :
    Linked (Function.update next x (some y)) pending' a nodes := by
  induction nodes generalizing a with
  | nil => simp [infix_pair_cons] at neighbours
  | cons b nodes ih =>
      obtain ⟨absent, rest⟩ := List.nodup_cons.mp distinct
      rcases infix_pair_cons.mp neighbours with ⟨rfl, head⟩ | later
      · obtain rfl : b = y := Option.some.inj head
        refine ⟨Or.inl (by rw [Function.update_self]), linked.2.congr ?_ ?_⟩
        · intro z member
          rw [Function.update_of_ne]
          rintro rfl
          exact absent member
        · intro z member v due
          refine kept z v ?_ due
          rintro rfl
          exact absent member
      · have elsewhere : a ≠ x := by
          rintro rfl
          exact absent (later.subset (by simp))
        refine ⟨?_, ih linked.2 rest later⟩
        rw [Function.update_of_ne elsewhere]
        exact linked.1.imp_right fun ⟨missing, due⟩ => ⟨missing, kept a b elsewhere due⟩

end Chain
