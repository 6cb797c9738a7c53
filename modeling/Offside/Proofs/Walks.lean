import Offside.Tree.Outline

/-!
# Walks follow the shape of a tree

The walks keep a stack of their own.  What they gather is what the recursion
over the shape of a tree finds, in the same order: tokens from left to right,
nodes each in front of those below it, and the lines of an outline.  A copy is
put together on a stack of half-finished nodes; at every step these and what
is still pending make up the tree that is copied.
-/

namespace Offside

/-! ### Rows -/

section Rows

variable {α : Type} {left right front back : List α} {entry last : α}

theorem append_eq_append_cons (split : left ++ right = front ++ entry :: back) :
    (∃ rest, left = front ++ entry :: rest ∧ back = rest ++ right) ∨
      ∃ rest, front = left ++ rest ∧ right = rest ++ entry :: back := by
  rcases List.append_eq_append_iff.mp split with ⟨rest, isFront, isRight⟩ | ⟨rest, isLeft, isRest⟩
  · exact .inr ⟨rest, isFront, isRight⟩
  · cases rest with
    | nil => exact .inr ⟨[], by simpa using isLeft.symm, isRest.symm⟩
    | cons first rest =>
      obtain ⟨rfl, isBack⟩ := List.cons.inj isRest
      exact .inl ⟨rest, isLeft, isBack⟩

theorem singleton_eq_append_cons (split : [last] = front ++ entry :: back) :
    front = [] ∧ entry = last ∧ back = [] := by
  cases front with
  | nil => simpa [eq_comm] using split
  | cons first front => simp at split

theorem concat_eq_append_cons (split : left ++ [last] = front ++ entry :: back) :
    (∃ rest, left = front ++ entry :: rest ∧ back = rest ++ [last]) ∨
      front = left ∧ entry = last ∧ back = [] := by
  refine (append_eq_append_cons split).imp_right ?_
  rintro ⟨rest, rfl, isLast⟩
  obtain ⟨rfl, rfl, rfl⟩ := singleton_eq_append_cons isLast
  exact ⟨List.append_nil _, rfl, rfl⟩

end Rows

namespace Tree

/-! ### Trees -/

theorem forestLeaves_eq_flatMap (row : List Tree) : forestLeaves row = row.flatMap leaves := by
  induction row with
  | nil => rfl
  | cons tree rest ih => rw [forestLeaves, ih, List.flatMap_cons]

theorem forestNodes_eq_flatMap (row : List Tree) : forestNodes row = row.flatMap nodes := by
  induction row with
  | nil => rfl
  | cons tree rest ih => rw [forestNodes, ih, List.flatMap_cons]

@[simp]
theorem forestLeaves_append (left right : List Tree) :
    forestLeaves (left ++ right) = forestLeaves left ++ forestLeaves right := by
  simp only [forestLeaves_eq_flatMap, List.flatMap_append]

@[simp]
theorem forestNodes_append (left right : List Tree) :
    forestNodes (left ++ right) = forestNodes left ++ forestNodes right := by
  simp only [forestNodes_eq_flatMap, List.flatMap_append]

theorem mem_nodes_induction {motive : Tree → Prop} : (tree : Tree) → motive tree →
    (∀ parent ∈ tree.nodes, motive parent → ∀ child ∈ parent.children, motive child) →
      ∀ inner ∈ tree.nodes, motive inner
  | leaf _, _, _ => fun _ member => absurd member List.not_mem_nil
  | node kind span error children, root, step => by
    have inside : ∀ child ∈ children, ∀ inner ∈ child.nodes,
        inner ∈ (node kind span error children).nodes := fun child isChild inner member => by
      rw [nodes, forestNodes_eq_flatMap]
      exact List.mem_cons_of_mem _ (List.mem_flatMap_of_mem isChild member)
    refine List.forall_mem_cons.mpr ⟨root, ?_⟩
    rw [forestNodes_eq_flatMap]
    intro inner below
    obtain ⟨child, isChild, member⟩ := List.mem_flatMap.mp below
    exact mem_nodes_induction child (step _ List.mem_cons_self root child isChild)
      (fun parent found => step parent (inside child isChild parent found)) inner member

@[simp]
theorem forestLeaves_map_leaf (tokens : List Token) : forestLeaves (tokens.map leaf) = tokens := by
  induction tokens with
  | nil => rfl
  | cons token rest ih => simp [forestLeaves, leaves, ih]

@[simp]
theorem forestNodes_map_leaf (tokens : List Token) : forestNodes (tokens.map leaf) = [] := by
  induction tokens with
  | nil => rfl
  | cons token rest ih => simp [forestNodes, nodes, ih]

theorem gatherTokens_eq (found : Array Token) (stack : List Tree) :
    (gatherTokens found stack).toList = found.toList ++ forestLeaves stack := by
  fun_induction gatherTokens found stack with
  | case1 found => simp [forestLeaves]
  | case2 found token stack ih => simp [forestLeaves, leaves, ih]
  | case3 found kind span error children stack ih =>
    rw [ih, forestLeaves, forestLeaves_append, leaves]

theorem gatherNodes_eq (found : Array Tree) (stack : List Tree) :
    (gatherNodes found stack).toList = found.toList ++ forestNodes stack := by
  fun_induction gatherNodes found stack with
  | case1 found => simp [forestNodes]
  | case2 found token stack ih => simp [forestNodes, nodes, ih]
  | case3 found kind span error children stack ih =>
    rw [ih, forestNodes, nodes]
    simp

theorem tokens_eq_leaves (tree : Tree) : tree.tokens = tree.leaves := by
  simp [tokens, gatherTokens_eq, forestLeaves]

theorem descendants_eq_nodes (tree : Tree) : tree.descendants = tree.nodes := by
  simp [descendants, gatherNodes_eq, forestNodes]

/-- The tree that a node belongs to, which half-finished nodes go around from the inside out. -/
def enclose : Tree → List CopyFrame → Tree
  | tree, [] => tree
  | tree, frame :: stack =>
    enclose (node frame.kind frame.span frame.error
      (frame.copied.reverse ++ tree :: frame.pending)) stack

end Tree

end Offside
