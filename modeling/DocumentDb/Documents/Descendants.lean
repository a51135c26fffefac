import DocumentDb.Documents.Opening
import DocumentDb.Lib.Forest

namespace DocumentDb.Documents

open Storage Program Forest

section Nodes

variable {nodes nodes' : List Node} {id : NodeId} {node : Node}

/-- The node with this id and the nodes below it. -/
abbrev Below (nodes : List Node) (id : NodeId) : NodeId → Prop := Under Node.id Node.parentId nodes id

/-- Every node is a root, or its parent is live and has a smaller id. -/
abbrev Rooted (nodes : List Node) : Prop := Grounded Node.id Node.parentId nullNodeId Before nodes

theorem ids_injective (hids : nodes.Pairwise fun a b => Before a.id b.id) {a b : Node} (ha : a ∈ nodes)
    (hb : b ∈ nodes) (hab : a.id = b.id) : a = b := by
  have hnodup : (nodes.map Node.id).Nodup := List.pairwise_map.mpr (hids.imp fun h => h.ne)
  exact List.inj_on_of_nodup_map hnodup ha hb hab

theorem length_filter_ne (hids : nodes.Pairwise fun a b => Before a.id b.id)
    (hmem : ∃ node ∈ nodes, node.id = id) :
    (nodes.filter fun node => node.id ≠ id).length + 1 = nodes.length := by
  induction hids with
  | nil => simp at hmem
  | @cons a nodes ha _ ih =>
      rw [List.filter_cons]
      by_cases haid : a.id = id
      · have hrest : nodes.filter (fun node => node.id ≠ id) = nodes := by
          refine List.filter_eq_self.mpr fun b hb => ?_
          simpa using haid ▸ (ha b hb).ne.symm
        rw [if_neg (by simpa using haid), hrest, List.length_cons]
      · obtain ⟨b, hb, hbid⟩ := hmem
        rcases List.mem_cons.mp hb with rfl | hb
        · exact absurd hbid haid
        · rw [if_pos (by simpa using haid), List.length_cons, List.length_cons, ih ⟨b, hb, hbid⟩]

end Nodes

section Deleting

variable {pageSize : Nat} {store : List (List Slot)} {doc t : Document} {id : NodeId} {count count' : Int}

def deleteChildren (fuel : Nat) (children : List Node) (deletedCount : Int) : DocumentM Int :=
  children.foldlM (fun deletedCount child => do
    let (res, deletedCount) ← deleteNodeWithAllDescendants fuel child.id deletedCount
    abortIfFail res "Failed to delete node"
    pure deletedCount) deletedCount

theorem deleteChildren_cons (fuel : Nat) (child : Node) (children : List Node) (deletedCount : Int) :
    deleteChildren fuel (child :: children) deletedCount = (do
      let r ← deleteNodeWithAllDescendants fuel child.id deletedCount
      abortIfFail r.1 "Failed to delete node"
      deleteChildren fuel children r.2) := by
  unfold deleteChildren
  rw [List.foldlM_cons]
  simp only [bind_assoc, pure_bind]

def takeChildren (nodeId : NodeId) : DocumentM (List Node) := do
  let childrenCount ← documentCountChildren nodeId
  if 0 < childrenCount then
    let res ← documentGetNodesByCondition (nodeMatcherNew (nodeConditionParentIdEq nodeId)) childrenCount
    abortIfFail res "Failed to get children of node"
  else
    return []

theorem deleteNodeWithAllDescendants_eq (fuel : Nat) (nodeId : NodeId) (deletedCount : Int) :
    deleteNodeWithAllDescendants (fuel + 1) nodeId deletedCount = (do
      let children ← takeChildren nodeId
      let deletedCount ← deleteChildren fuel children deletedCount
      let res ← documentDeleteNode ⟨nodeId⟩
      abortIfFail res "Trying to delete node with not children"
      return (res, deletedCount + 1)) := by
  funext s
  rw [deleteNodeWithAllDescendants]
  rw [takeChildren]
  simp only [bind_assoc]
  rw [run_bind, run_bind]
  cases documentCountChildren nodeId s with
  | error e u => rfl
  | ok n u =>
      simp only [andThen_ok]
      by_cases hn : 0 < n
      · simp only [if_pos hn, bind_assoc]
        rfl
      · simp only [if_neg hn, pure_bind]
        rfl

theorem Holds.takeChildren_ok {children : List Node} (h : Holds pageSize store doc)
    (hrun : takeChildren id doc = .ok children t) :
    Holds pageSize store t ∧ children = (nodesOf store).filter fun node => node.parentId == id := by
  have hmatch : matching (nodeMatcherNew (nodeConditionParentIdEq id)) = fun node => node.parentId == id :=
    funext (matching_parentIdEq id)
  rw [takeChildren] at hrun
  obtain ⟨n, s1, hcount, hrest⟩ := bind_eq_ok.mp hrun
  obtain ⟨h1, _, _, hn⟩ := h.count_ok hcount
  rw [hmatch] at hn
  by_cases hpos : 0 < n
  · rw [if_pos hpos] at hrest
    obtain ⟨res, s2, hget, habort⟩ := bind_eq_ok.mp hrest
    obtain ⟨h2, _, _, rfl, _⟩ := h1.get_ok hget
    obtain ⟨hres, rfl⟩ := abortIfFail_eq_ok.mp habort
    cases hres
    exact ⟨h2, by rw [hmatch]⟩
  · rw [if_neg hpos, run_pure] at hrest
    cases hrest
    exact ⟨h1, (List.length_eq_zero_iff.mp (by omega)).symm⟩

/-- What a call that deletes nodes has done: the nodes that are gone, and their number. -/
def Deletes (pageSize : Nat) (store : List (List Slot)) (gone : NodeId → Prop) (count count' : Int)
    (t : Document) : Prop :=
  ∃ store', Holds pageSize store' t ∧
    (∀ node, node ∈ nodesOf store' ↔ node ∈ nodesOf store ∧ ¬gone node.id) ∧
    count' + (nodesOf store').length = count + (nodesOf store).length

theorem Deletes.cons {store1 : List (List Slot)} {child : Node} {children : List Node} {count1 : Int}
    (hnodes : ∀ node, node ∈ nodesOf store1 ↔
      node ∈ nodesOf store ∧ ¬Below (nodesOf store) child.id node.id)
    (hcount : count1 + (nodesOf store1).length = count + (nodesOf store).length)
    (hrest : Deletes pageSize store1 (fun k => ∃ c ∈ children, Below (nodesOf store1) c.id k) count1 count' t) :
    Deletes pageSize store (fun k => ∃ c ∈ child :: children, Below (nodesOf store) c.id k) count count' t := by
  obtain ⟨store2, h2, hnodes2, hcount2⟩ := hrest
  refine ⟨store2, h2, fun node => ?_, by omega⟩
  rw [hnodes2, hnodes]
  have hdown : ∀ n ∈ nodesOf store, Below (nodesOf store) child.id n.parentId →
      Below (nodesOf store) child.id n.id := fun n hn hp => Under.child hn hp
  constructor
  · rintro ⟨⟨hmem, hkept⟩, hrest⟩
    refine ⟨hmem, ?_⟩
    rintro ⟨c, hc, hbelow⟩
    rcases List.mem_cons.mp hc with rfl | hc
    · exact hkept hbelow
    · exact hrest ⟨c, hc, (under_remaining hnodes hdown hkept).mpr hbelow⟩
  · rintro ⟨hmem, hkept⟩
    have hfirst : ¬Below (nodesOf store) child.id node.id := fun hbelow =>
      hkept ⟨child, List.mem_cons_self, hbelow⟩
    refine ⟨⟨hmem, hfirst⟩, ?_⟩
    rintro ⟨c, hc, hbelow⟩
    exact hkept ⟨c, List.mem_cons_of_mem _ hc, (under_remaining hnodes hdown hfirst).mp hbelow⟩

theorem Holds.deletes_nil (h : Holds pageSize store t) (count : Int) :
    Deletes pageSize store (fun k => ∃ c ∈ ([] : List Node), Below (nodesOf store) c.id k) count count t :=
  ⟨store, h, by simp, rfl⟩

theorem deleteChildren_ok {fuel : Nat} {children : List Node}
    (ih : ∀ {store : List (List Slot)} {doc t : Document} {id : NodeId} {count count' : Int} {res : Result Unit},
      Holds pageSize store doc → deleteNodeWithAllDescendants fuel id count doc = .ok (res, count') t →
        res = .ok () ∧ Deletes pageSize store (Below (nodesOf store) id) count count' t)
    (h : Holds pageSize store doc) (hrun : deleteChildren fuel children count doc = .ok count' t) :
    Deletes pageSize store (fun k => ∃ child ∈ children, Below (nodesOf store) child.id k) count count' t := by
  induction children generalizing store doc count with
  | nil =>
      simp only [deleteChildren, List.foldlM_nil, run_pure] at hrun
      cases hrun
      exact h.deletes_nil _
  | cons child children ihc =>
      rw [deleteChildren_cons] at hrun
      obtain ⟨⟨res, count1⟩, s1, hone, hrest⟩ := bind_eq_ok.mp hrun
      obtain ⟨rfl, store1, h1, hnodes1, hcount1⟩ := ih h hone
      obtain ⟨_, s2, habort, hrest⟩ := bind_eq_ok.mp hrest
      simp only [run_abortIfFail_ok] at habort
      cases habort
      exact Deletes.cons hnodes1 hcount1 (ihc h1 hrest)

/-- `delete_node_with_all_descendants` that returns has deleted the node and the
nodes below it, and counted them. -/
theorem deleteNodeWithAllDescendants_ok {fuel : Nat} {res : Result Unit} (h : Holds pageSize store doc)
    (hrun : deleteNodeWithAllDescendants fuel id count doc = .ok (res, count') t) :
    res = .ok () ∧ Deletes pageSize store (Below (nodesOf store) id) count count' t := by
  induction fuel generalizing store doc id count count' res t with
  | zero =>
      rw [deleteNodeWithAllDescendants, run_throw] at hrun
      cases hrun
  | succ fuel ih =>
      rw [deleteNodeWithAllDescendants_eq] at hrun
      obtain ⟨children, s1, htake, hrest⟩ := bind_eq_ok.mp hrun
      obtain ⟨h1, rfl⟩ := h.takeChildren_ok htake
      obtain ⟨count2, s2, hchildren, hrest⟩ := bind_eq_ok.mp hrest
      obtain ⟨store2, h2, hnodes2, hcount2⟩ := deleteChildren_ok ih h1 hchildren
      obtain ⟨r, s3, hdelete, hrest⟩ := bind_eq_ok.mp hrest
      obtain ⟨_, s4, habort, hpure⟩ := bind_eq_ok.mp hrest
      obtain ⟨rfl, rfl⟩ := abortIfFail_eq_ok.mp habort
      simp only [run_pure] at hpure
      cases hpure
      obtain ⟨_, _, ⟨hbad, _⟩ | ⟨_, hmem, k, i, rfl, h3⟩⟩ := h2.deleteNode_ok hdelete
      · exact absurd rfl hbad
      · have hlen := length_filter_ne (pairwise_nodesOf store2) hmem
        refine ⟨rfl, _, h3, fun node => ?_, by rw [nodesOf_deleteAt]; omega⟩
        rw [nodesOf_deleteAt, List.mem_filter, hnodes2, decide_eq_true_eq]
        constructor
        · rintro ⟨⟨hnode, hkept⟩, hne⟩
          refine ⟨hnode, fun hbelow => ?_⟩
          rcases hbelow.cases_child with hroot | ⟨c, hc, hparent, hc'⟩
          · exact hne hroot
          · exact hkept ⟨c, List.mem_filter.mpr ⟨hc, by simpa using hparent⟩, hc'⟩
        · rintro ⟨hnode, hkept⟩
          refine ⟨⟨hnode, ?_⟩, fun hroot => hkept (hroot ▸ Under.root)⟩
          rintro ⟨c, hc, hbelow⟩
          obtain ⟨hc, hparent⟩ := List.mem_filter.mp hc
          exact hkept (Under.of_child hc (by simpa using hparent) hbelow)

end Deleting

end DocumentDb.Documents
