import Mathlib.Data.List.Perm.Basic

/-!
# Labelled trees with any number of children

Syntax trees of generic tooling carry a label and an ordered list of children at each node. This
file has the traversals that such tooling offers (breadth-first order, relabelling, folding) and
the rules that reduce a statement about a traversal to a statement about one node.
-/

namespace Trees

universe u

/-- A finite tree with a label at every node and an ordered list of children. -/
inductive RoseTree (α : Type u) where
  | node (label : α) (children : List (RoseTree α))

namespace RoseTree

variable {α β : Type u}

/-- The label of the root. -/
def label : RoseTree α → α
  | node a _ => a

/-- The trees right below the root. -/
def children : RoseTree α → List (RoseTree α)
  | node _ ts => ts

/-- Induction on trees: a property that passes from the children to the node holds everywhere. -/
theorem induct {P : RoseTree α → Prop}
    (hnode : ∀ a ts, (∀ t ∈ ts, P t) → P (node a ts)) (t : RoseTree α) : P t :=
  @RoseTree.rec α P (fun ts => ∀ t ∈ ts, P t) hnode
    (fun _ h => absurd h List.not_mem_nil)
    (fun _ _ hhead htail t ht => by
      rcases List.mem_cons.mp ht with rfl | ht
      · exact hhead
      · exact htail t ht) t

mutual

/-- The number of nodes. -/
def size : RoseTree α → ℕ
  | node _ ts => sizes ts + 1

/-- The number of nodes of a forest. -/
def sizes : List (RoseTree α) → ℕ
  | [] => 0
  | t :: ts => size t + sizes ts

end

mutual

/-- All subtrees, a node before its children. -/
def subtrees : RoseTree α → List (RoseTree α)
  | node a ts => node a ts :: subtreesOf ts

/-- All subtrees of a forest. -/
def subtreesOf : List (RoseTree α) → List (RoseTree α)
  | [] => []
  | t :: ts => subtrees t ++ subtreesOf ts

end

mutual

/-- The tree with every label replaced. -/
def map (f : α → β) : RoseTree α → RoseTree β
  | node a ts => node (f a) (maps f ts)

/-- The forest with every label replaced. -/
def maps (f : α → β) : List (RoseTree α) → List (RoseTree β)
  | [] => []
  | t :: ts => map f t :: maps f ts

end

mutual

/-- Bottom-up evaluation: a node sees the label and the value of each of its children. -/
def fold (f : α → List (α × β) → β) : RoseTree α → β
  | node a ts => f a (folds f ts)

/-- The labels and the values of a list of trees. -/
def folds (f : α → List (α × β) → β) : List (RoseTree α) → List (α × β)
  | [] => []
  | t :: ts => (t.label, fold f t) :: folds f ts

end

/-- At most `n` steps of the queue loop of a breadth-first search: take the first tree of the
queue and append its children. -/
def breadthFirst : ℕ → List (RoseTree α) → List (RoseTree α)
  | 0, _ => []
  | _, [] => []
  | n + 1, t :: queue => t :: breadthFirst n (queue ++ t.children)

/-- The subtrees in breadth-first order. -/
def walk (t : RoseTree α) : List (RoseTree α) := breadthFirst t.size [t]

/-- The subtrees of a forest are those of its trees. -/
theorem subtreesOf_eq (ts : List (RoseTree α)) : subtreesOf ts = ts.flatMap subtrees := by
  induction ts with
  | nil => rfl
  | cons t ts ih => rw [subtreesOf, ih, List.flatMap_cons]

/-- The size of a concatenation. -/
theorem sizes_append (ts us : List (RoseTree α)) : sizes (ts ++ us) = sizes ts + sizes us := by
  induction ts with
  | nil => simp [sizes]
  | cons t ts ih => simp only [List.cons_append, sizes, ih, Nat.add_assoc]

/-- Relabelling a forest relabels each tree. -/
theorem maps_eq (f : α → β) (ts : List (RoseTree α)) : maps f ts = ts.map (map f) := by
  induction ts with
  | nil => rfl
  | cons t ts ih => rw [maps, ih, List.map_cons]

/-- The values of a list of trees. -/
theorem folds_eq (f : α → List (α × β) → β) (ts : List (RoseTree α)) :
    folds f ts = ts.map (fun t => (t.label, fold f t)) := by
  induction ts with
  | nil => rfl
  | cons t ts ih => rw [folds, ih, List.map_cons]

/-- Relabelling keeps the label of the root in step. -/
@[simp] theorem label_map (f : α → β) (t : RoseTree α) : (map f t).label = f t.label := by
  cases t
  rfl

/-- Relabelling keeps the children in step. -/
@[simp] theorem children_map (f : α → β) (t : RoseTree α) :
    (map f t).children = t.children.map (map f) := by
  cases t
  exact maps_eq f _

/-- The subtrees of a tree are the tree itself and the subtrees of its children. -/
theorem mem_subtrees {s t : RoseTree α} :
    s ∈ t.subtrees ↔ s = t ∨ ∃ c ∈ t.children, s ∈ c.subtrees := by
  cases t with
  | node a ts => simp only [subtrees, List.mem_cons, subtreesOf_eq, List.mem_flatMap, children]

/-- A tree is one of its own subtrees. -/
theorem self_mem_subtrees (t : RoseTree α) : t ∈ t.subtrees := mem_subtrees.mpr (Or.inl rfl)

/-- Subtrees of a child are subtrees. -/
theorem mem_subtrees_of_child {s c t : RoseTree α} (hc : c ∈ t.children) (hs : s ∈ c.subtrees) :
    s ∈ t.subtrees := mem_subtrees.mpr (Or.inr ⟨c, hc, hs⟩)

/-- The subtrees of a relabelled tree are the relabelled subtrees. -/
theorem subtrees_map (f : α → β) (t : RoseTree α) :
    (map f t).subtrees = t.subtrees.map (map f) := by
  induction t using induct with
  | hnode a ts ih =>
    simp only [map, subtrees, maps_eq, subtreesOf_eq, List.map_cons, List.cons.injEq,
      List.flatMap_map, List.map_flatMap, true_and]
    exact List.flatMap_congr (fun t ht => ih t ht)

/-- Two relabellings of a tree are equal exactly when they agree on its labels. -/
theorem map_eq_map_iff {f g : α → β} {t : RoseTree α} :
    map f t = map g t ↔ ∀ s ∈ t.subtrees, f s.label = g s.label := by
  induction t using induct with
  | hnode a ts ih =>
    simp only [map, maps_eq, node.injEq, List.map_inj_left, subtrees, subtreesOf_eq,
      List.forall_mem_cons, label, List.mem_flatMap]
    constructor
    · rintro ⟨hroot, hchildren⟩
      refine ⟨hroot, ?_⟩
      rintro s ⟨t, ht, hs⟩
      exact (ih t ht).mp (hchildren t ht) s hs
    · rintro ⟨hroot, hbelow⟩
      exact ⟨hroot, fun t ht => (ih t ht).mpr (fun s hs => hbelow s ⟨t, ht, hs⟩)⟩

/-- Relabelling twice relabels by the composition. -/
theorem map_map (f g : α → α) (t : RoseTree α) : map g (map f t) = map (g ∘ f) t := by
  induction t using induct with
  | hnode a ts ih =>
    simp only [map, maps_eq, List.map_map, Function.comp_apply, node.injEq, true_and]
    exact List.map_congr_left ih

/-- Relabelling keeps the number of nodes. -/
theorem sizes_map {f : α → β} {ts : List (RoseTree α)} (h : ∀ t ∈ ts, (map f t).size = t.size) :
    sizes (ts.map (map f)) = sizes ts := by
  induction ts with
  | nil => rfl
  | cons t ts ih =>
    simp only [List.map_cons, sizes, h t List.mem_cons_self,
      ih (fun t ht => h t (List.mem_cons_of_mem _ ht))]

/-- Relabelling keeps the number of nodes. -/
theorem size_map (f : α → β) (t : RoseTree α) : (map f t).size = t.size := by
  induction t using induct with
  | hnode a ts ih => rw [map, maps_eq, size, size, sizes_map ih]

/-- The queue loop visits a relabelled queue in the same order. -/
theorem breadthFirst_map (f : α → β) (n : ℕ) (queue : List (RoseTree α)) :
    breadthFirst n (queue.map (map f)) = (breadthFirst n queue).map (map f) := by
  induction n generalizing queue with
  | zero => simp [breadthFirst]
  | succ n ih =>
    cases queue with
    | nil => simp [breadthFirst]
    | cons t queue =>
      rw [List.map_cons, breadthFirst, breadthFirst, children_map, ← List.map_append, ih,
        List.map_cons]

/-- The breadth-first walk of a relabelled tree is the relabelled walk. -/
theorem walk_map (f : α → β) (t : RoseTree α) : (map f t).walk = t.walk.map (map f) := by
  rw [walk, size_map, walk, ← breadthFirst_map, List.map_singleton]

/-- With enough steps the queue loop visits every subtree of the queue exactly once. -/
theorem breadthFirst_perm {n : ℕ} {queue : List (RoseTree α)} (h : sizes queue ≤ n) :
    (breadthFirst n queue).Perm (queue.flatMap subtrees) := by
  induction n generalizing queue with
  | zero =>
    cases queue with
    | nil => exact List.Perm.refl _
    | cons t queue =>
      cases t
      simp only [sizes, size] at h
      omega
  | succ n ih =>
    cases queue with
    | nil => exact List.Perm.refl _
    | cons t queue =>
      cases t with
      | node a ts =>
        have hbound : sizes (queue ++ ts) ≤ n := by
          simp only [sizes, size] at h
          rw [sizes_append]
          omega
        have hrest := ih hbound
        simp only [breadthFirst, children, List.flatMap_cons, subtrees, subtreesOf_eq,
          List.cons_append]
        refine List.Perm.cons _ (hrest.trans ?_)
        rw [List.flatMap_append]
        exact List.perm_append_comm

/-- The breadth-first walk visits every subtree exactly once. -/
theorem walk_perm (t : RoseTree α) : t.walk.Perm t.subtrees := by
  have hbound : sizes [t] ≤ t.size := by simp [sizes]
  simpa [walk] using breadthFirst_perm hbound

/-- The breadth-first walk visits exactly the subtrees. -/
theorem mem_walk {s t : RoseTree α} : s ∈ t.walk ↔ s ∈ t.subtrees := (walk_perm t).mem_iff

/-- A fold satisfies `Q` when every node passes `Q` from its children to itself. -/
theorem fold_induct {f : α → List (α × β) → β} {Q : RoseTree α → β → Prop}
    (hnode : ∀ a ts, (∀ t ∈ ts, Q t (fold f t)) →
      Q (node a ts) (f a (ts.map (fun t => (t.label, fold f t))))) (t : RoseTree α) :
    Q t (fold f t) := by
  induction t using induct with
  | hnode a ts ih =>
    rw [fold, folds_eq]
    exact hnode a ts ih

end RoseTree

end Trees
