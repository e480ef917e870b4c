import DiagramService.Yaml.Document

/-! Documents as trees. A node is a scalar, a list of nodes or a mapping of nodes to nodes, and its
items are those of its parts between marks. Skipping passes exactly one node, however deep it is. -/

namespace DiagramService.Yaml

/-- A node without names of other nodes in it. -/
inductive Node where
  | scalar (content : Scalar)
  | list (nodes : List Node)
  | map (entries : List (Node × Node))

namespace Node

mutual

/-- The items of a node. -/
def items : Node → List Item
  | .scalar content => [.scalar content]
  | .list nodes => .listStart :: (itemsOfList nodes ++ [.listEnd])
  | .map entries => .mapStart :: (itemsOfMap entries ++ [.mapEnd])

/-- The items of some nodes. -/
def itemsOfList : List Node → List Item
  | [] => []
  | node :: nodes => node.items ++ itemsOfList nodes

/-- The items of some keys and values. -/
def itemsOfMap : List (Node × Node) → List Item
  | [] => []
  | (key, value) :: entries => key.items ++ (value.items ++ itemsOfMap entries)

end

theorem length_items_pos (node : Node) : 0 < node.items.length := by
  cases node <;> simp [items]

theorem length_le_itemsOfList (nodes : List Node) : nodes.length ≤ (itemsOfList nodes).length := by
  induction nodes with
  | nil => exact Nat.le_refl _
  | cons node nodes ih =>
    have hnode := length_items_pos node
    rw [itemsOfList, List.length_append, List.length_cons]
    omega

theorem length_le_itemsOfMap (entries : List (Node × Node)) :
    entries.length ≤ (itemsOfMap entries).length := by
  induction entries with
  | nil => exact Nat.le_refl _
  | cons entry entries ih =>
    obtain ⟨key, value⟩ := entry
    have hkey := length_items_pos key
    rw [itemsOfMap, List.length_append, List.length_append, List.length_cons]
    omega

mutual

/-- Inside something that is open, a node is passed over. -/
theorem skipNode_inside (depth : Nat) (rest : List Item) :
    ∀ node : Node, Item.skipNode (depth + 1) (node.items ++ rest) = Item.skipNode (depth + 1) rest
  | .scalar content => rfl
  | .list nodes => by
    rw [items, List.cons_append, List.append_assoc]
    exact skipNode_list (depth + 1) (.listEnd :: rest) nodes
  | .map entries => by
    rw [items, List.cons_append, List.append_assoc]
    exact skipNode_map (depth + 1) (.mapEnd :: rest) entries

theorem skipNode_list (depth : Nat) (rest : List Item) : ∀ nodes : List Node,
    Item.skipNode (depth + 1) (itemsOfList nodes ++ rest) = Item.skipNode (depth + 1) rest
  | [] => rfl
  | node :: nodes => by
    rw [itemsOfList, List.append_assoc, skipNode_inside depth _ node,
      skipNode_list depth rest nodes]

theorem skipNode_map (depth : Nat) (rest : List Item) : ∀ entries : List (Node × Node),
    Item.skipNode (depth + 1) (itemsOfMap entries ++ rest) = Item.skipNode (depth + 1) rest
  | [] => rfl
  | (key, value) :: entries => by
    rw [itemsOfMap, List.append_assoc, List.append_assoc, skipNode_inside depth _ key,
      skipNode_inside depth _ value, skipNode_map depth rest entries]

end

/-- What is skipped is one node. -/
theorem skipNode_items (node : Node) (rest : List Item) :
    Item.skipNode 0 (node.items ++ rest) = rest := by
  cases node with
  | scalar content => rfl
  | list nodes =>
    rw [items, List.cons_append, List.append_assoc]
    exact skipNode_list 0 (.listEnd :: rest) nodes
  | map entries =>
    rw [items, List.cons_append, List.append_assoc]
    exact skipNode_map 0 (.mapEnd :: rest) entries

end Node

end DiagramService.Yaml
