import DocumentDb.Documents.Children
import DocumentDb.Documents.Sequences

namespace DocumentDb.Documents

open Storage Program Forest Bytes

section Calls

/-- One call of a function of the document that returns. The document may also be
closed and opened again. -/
inductive DocumentCall : Document → Document → Prop
  | addNode {s request result r t} : documentAddNode request result s = .ok r t → DocumentCall s t
  | deleteNode {s request res t} : documentDeleteNode request s = .ok res t → DocumentCall s t
  | updateNode {s request result r t} : documentUpdateNode request result s = .ok r t → DocumentCall s t
  | deleteNodeWithAllDescendants {s fuel nodeId deletedCount r t} :
      deleteNodeWithAllDescendants fuel nodeId deletedCount s = .ok r t → DocumentCall s t
  | deleteNodesByCondition {s fuel matcher deletedCount r t} :
      documentDeleteNodesByCondition fuel matcher deletedCount s = .ok r t → DocumentCall s t
  | addBulkNodes {s request result r t} : documentAddBulkNodes request result s = .ok r t → DocumentCall s t
  | getAllChildren {s request capacity r t} :
      documentGetAllChildren request capacity s = .ok r t → DocumentCall s t
  | countNodes {s matcher n t} : documentCountNodesByCondition matcher s = .ok n t → DocumentCall s t
  | takeFirstNode {s matcher res t} :
      documentTakeFirstNodeByCondition matcher s = .ok res t → DocumentCall s t
  | getNodes {s matcher n res t} : documentGetNodesByCondition matcher n s = .ok res t → DocumentCall s t
  | countSequence {s matchers r t} :
      documentCountNodesByConditionSequence matchers s = .ok r t → DocumentCall s t
  | getSequence {s matchers n res t} :
      documentGetNodesByConditionSequence matchers n s = .ok res t → DocumentCall s t
  | reopen {s pageSize res t} :
      documentInit pageSize (documentNew (fileOpen (some (savedFile s)) noFaults)) = .ok res t →
      DocumentCall s t

/-- The documents after `document_init` on a new file and any calls, as long as the
file stays below `2 ^ 32` bytes. -/
inductive ReachableDocument (pageSize : Nat) : Document → Prop
  | init {res t} : sizeofFileHeader + toUInt32 pageSize < 2 ^ 32 →
      documentInit pageSize (documentNew (fileOpen none noFaults)) = .ok res t →
      ReachableDocument pageSize t
  | call {s t} : ReachableDocument pageSize s → DocumentCall s t → FileBelow t.pageManager →
      ReachableDocument pageSize t

end Calls

section Invariant

variable {pageSize : Nat} {store : List (List Slot)} {doc t : Document} {id : NodeId} {node : Node}

def Tree (pageSize : Nat) (doc : Document) : Prop :=
  ∃ store, Holds pageSize store doc ∧ Rooted (nodesOf store)

theorem id_ne_null (hnode : node ∈ nodesOf store) : node.id ≠ nullNodeId := by
  obtain ⟨item, hitem, rfl⟩ := List.mem_map.mp hnode
  obtain ⟨k, i, _, _, hid, _⟩ := liveBytes_some (mem_liveItems.mp hitem).1
  rw [nodeOfItem_id, hid]
  intro hnull
  cases hnull

theorem Rooted.added {request : CreateNodeRequest} {stored : Node} (hrooted : Rooted (nodesOf store))
    (h : Holds pageSize store doc) (hparent : stored.parentId = request.parent)
    (hvalue : stored.value = request.value)
    (hlive : request.parent ≠ nullNodeId → ∃ node ∈ nodesOf store, node.id = request.parent) :
    Rooted (nodesOf (putSlots pageSize store (encodeNode stored))) := by
  rw [nodesOf_added h hparent hvalue zeroNode]
  refine hrooted.append ?_ fun m hm => before_putId_node pageSize sizeofNode hm
  by_cases hnull : request.parent = nullNodeId
  · exact Or.inl hnull
  · exact Or.inr (hlive hnull)

theorem Rooted.deleteLeaf {k i : Nat} (hrooted : Rooted (nodesOf store))
    (hleaf : ∀ node ∈ nodesOf store, node.parentId ≠ ⟨k, i⟩) : Rooted (nodesOf (deleteAt store k i)) := by
  rw [nodesOf_deleteAt]
  exact Grounded.remaining hrooted (· = ⟨k, i⟩) (fun n => by rw [List.mem_filter, decide_eq_true_eq])
    fun n hn hp => absurd hp (hleaf n hn)

theorem Holds.tree_add {request : CreateNodeRequest} {result : Node} {r : Result Unit × Node}
    (h : Holds pageSize store doc) (hrooted : Rooted (nodesOf store))
    (hrun : documentAddNode request result doc = .ok r t) (hbelow : FileBelow t.pageManager) :
    Tree pageSize t := by
  rcases h.addNode_ok hrun hbelow with ⟨_, ht, _⟩ | ⟨_, _, hlive, _, stored, hparent, hvalue, ht⟩
  · exact ⟨store, ht, hrooted⟩
  · exact ⟨_, ht, hrooted.added h hparent hvalue hlive⟩

theorem Deletes.tree {children : List Node} {count count' : Int} (hrooted : Rooted (nodesOf store))
    (h : Deletes pageSize store (fun k => ∃ c ∈ children, Below (nodesOf store) c.id k) count count' t) :
    Tree pageSize t := by
  obtain ⟨store', ht, hnodes, _⟩ := h
  refine ⟨store', ht, Grounded.remaining hrooted (fun k => ∃ c ∈ children, Below (nodesOf store) c.id k)
    hnodes ?_⟩
  rintro n hn ⟨c, hc, hbelow⟩
  exact ⟨c, hc, Under.child hn hbelow⟩

/-- Every call keeps the forest. -/
theorem Tree.call (h : Tree pageSize doc) (hcall : DocumentCall doc t) (hbelow : FileBelow t.pageManager) :
    Tree pageSize t := by
  obtain ⟨store, h, hrooted⟩ := h
  cases hcall with
  | addNode hrun => exact h.tree_add hrooted hrun hbelow
  | deleteNode hrun =>
      obtain ⟨_, hleaf, ⟨_, ht, _⟩ | ⟨_, _, k, i, hki, ht⟩⟩ := h.deleteNode_ok hrun
      · exact ⟨store, ht, hrooted⟩
      · exact ⟨_, ht, hrooted.deleteLeaf (hki ▸ hleaf)⟩
  | updateNode hrun =>
      obtain ⟨hleaf, ⟨_, ht, _⟩ | ⟨_, k, i, hki, s, res, hs, hadd, _⟩⟩ := h.updateNode_ok hrun
      · exact ⟨store, ht, hrooted⟩
      · exact hs.tree_add (hrooted.deleteLeaf (hki ▸ hleaf)) hadd hbelow
  | deleteNodeWithAllDescendants hrun =>
      obtain ⟨_, store', ht, hnodes, _⟩ := deleteNodeWithAllDescendants_ok h hrun
      exact ⟨store', ht, hrooted.deleted _ hnodes⟩
  | deleteNodesByCondition hrun =>
      obtain ⟨_, _, hdeletes⟩ := h.deleteByCondition_ok hrun
      exact hdeletes.tree hrooted
  | addBulkNodes hrun => exact ⟨store, (h.addBulkNodes_ok hrun).2.1, hrooted⟩
  | getAllChildren hrun => exact ⟨store, (h.getAllChildren_ok hrun).1, hrooted⟩
  | countNodes hrun => exact ⟨store, (h.count_ok hrun).1, hrooted⟩
  | takeFirstNode hrun => exact ⟨store, h.takeFirst_ok hrun, hrooted⟩
  | getNodes hrun => exact ⟨store, (h.get_ok hrun).1, hrooted⟩
  | countSequence hrun => exact ⟨store, (h.countSequence_ok hrun).1, hrooted⟩
  | getSequence hrun => exact ⟨store, (h.getSequence_ok hrun).1, hrooted⟩
  | reopen hrun => exact ⟨store, (h.reopen_ok hrun).2, hrooted⟩

theorem rooted_fresh : Rooted (nodesOf [[]]) := by
  rw [nodesOf_fresh]
  exact grounded_nil

theorem ReachableDocument.tree (h : ReachableDocument pageSize doc) : Tree (toUInt32 pageSize) doc := by
  induction h with
  | init hsmall hinit => exact ⟨[[]], (documentInit_new_ok hsmall hinit).2, rooted_fresh⟩
  | call _ hcall hbelow ih => exact ih.call hcall hbelow

end Invariant

end DocumentDb.Documents
