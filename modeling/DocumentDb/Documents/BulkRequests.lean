import DocumentDb.Documents.Growth

namespace DocumentDb.Documents

open Storage Program Forest Bytes

section Bulk

variable {pageSize : Nat} {store : List (List Slot)} {doc : Document} {request : CreateMultipleNodesRequest}

/-- The values of the request become nodes below its parent. -/
def BulkAdded (request : CreateMultipleNodesRequest) (result : List Node) (doc : Document) : Prop :=
  ∃ nodes t, documentAddBulkNodes request result doc = .ok (.ok (), nodes) t ∧
    liveNodes t = liveNodes doc ++ nodes ∧ nodes.map Node.value = request.values ∧
    ∀ node ∈ nodes, node.parentId = request.parent

/-- `document_add_bulk_nodes` does not return once it has found the parent. -/
theorem addBulkNodes_never (h : ReachableDocument pageSize doc) (hvalues : request.values ≠ [])
    (hlive : ∃ parent ∈ liveNodes doc, parent.id = request.parent) (result : List Node) :
    ¬BulkAdded request result doc ∧ ∀ r t, documentAddBulkNodes request result doc ≠ .ok r t := by
  obtain ⟨store, hs, _⟩ := h.tree
  rw [hs.liveNodes_eq] at hlive
  obtain ⟨parent, hparent, hid⟩ := hlive
  have hnever : ∀ r t, documentAddBulkNodes request result doc ≠ .ok r t := fun r t hrun =>
    absurd hid ((hs.addBulkNodes_ok hrun).2.2.2 hvalues parent hparent)
  refine ⟨?_, hnever⟩
  rintro ⟨nodes, t, hrun, _⟩
  exact hnever _ t hrun

theorem Packed.addBulkNodes_released (h : Packed pageSize store doc) (request : CreateMultipleNodesRequest)
    (node : Node) {value : NodeValue} (hone : request.values = [value])
    (hlive : ∃ parent ∈ nodesOf store, parent.id = request.parent)
    (hfit : sizeofNode + sizeofPageHeader + sizeofItemMetadata ≤ pageSize)
    (hroom : sizeofFileHeader + (store.length + 1) * pageSize < 2 ^ 32) :
    ∃ t, documentAddBulkNodes request [node] doc = .error (.undefined "item iterator released twice") t := by
  obtain ⟨it, s1, hsearch, h1, halive⟩ :=
    h.holds.searchNodes_clean h.allLive.clean fun node => node.id == request.parent
  obtain ⟨parent, hparent, hid⟩ := hlive
  have hsome : ((nodesOf store).find? fun node => node.id == request.parent).isSome = true :=
    List.find?_isSome.mpr ⟨parent, hparent, by simpa using hid⟩
  obtain ⟨s2, hpersist, h2⟩ := h1.persist_room { node with value := value, parentId := request.parent } hfit
    fun _ => hroom
  obtain ⟨it', pm, hdestroy, _⟩ := h2.stores.destroy halive
  have hreleased := (itemIteratorDestroy_ok hdestroy).2.1
  have hagain : itemIteratorDestroy it' pm = .error (.undefined "item iterator released twice") pm := by
    rw [itemIteratorDestroy]
    simp only [hreleased, if_true, run_bind, run_throw, andThen_error]
  have hagainOn : destroyIterator it' { s2 with pageManager := pm } =
      .error (.undefined "item iterator released twice") { s2 with pageManager := pm } := by
    have hon : onPageManager (itemIteratorDestroy it') { s2 with pageManager := pm } = .error _ _ :=
      run_onPageManager_error hagain
    rw [destroyIterator]
    simp only [run_bind, hon, andThen_error]
  refine ⟨{ s2 with pageManager := pm }, ?_⟩
  rw [documentAddBulkNodes]
  simp only [run_bind, h.holds.assertInitDone, andThen_ok, hone, List.length_singleton, one_ne_zero, if_false,
    hsearch, hsome, if_true, bulkLoop_cons, hpersist, run_onPageManager hdestroy]
  rw [bulkLoop]
  simp only [run_bind, run_pure, andThen_ok, hagainOn, andThen_error]

def oneChild : CreateMultipleNodesRequest where
  parent := rootNodeId
  values := [nodeValueOfBytes .int32 [2]]
  isInt32_pageId := isInt32_rootNodeId_pageId
  isInt32_itemId := isInt32_rootNodeId_itemId

theorem addBulkNodes_never_oneChild :
    ∃ doc, ReachableDocument 4096 doc ∧ ¬BulkAdded oneChild [zeroNode] doc ∧
      ∀ r t, documentAddBulkNodes oneChild [zeroNode] doc ≠ .ok r t := by
  obtain ⟨doc, slots, hr, hs, _, hnodes⟩ := exists_root (nodeValueOfBytes .int32 [1])
    (show sizeofPageHeader + (sizeofItemMetadata + sizeofNode) ≤ 4096 by decide) (by decide)
  have hlive : ∃ parent ∈ liveNodes doc, parent.id = oneChild.parent :=
    ⟨_, by rw [hs.holds.liveNodes_eq, hnodes]; exact List.mem_cons_self, rfl⟩
  exact ⟨doc, hr, addBulkNodes_never hr (by simp [oneChild]) hlive [zeroNode]⟩

/-- The parent is live, and its iterator is released twice. -/
theorem addBulkNodes_releases_twice :
    ∃ doc t, ReachableDocument 4096 doc ∧
      liveNodes doc = [⟨rootNodeId, nullNodeId, nodeValueOfBytes .int32 [1]⟩] ∧
      documentAddBulkNodes oneChild [zeroNode] doc = .error (.undefined "item iterator released twice") t ∧
      ¬BulkAdded oneChild [zeroNode] doc := by
  obtain ⟨doc, slots, hr, hs, _, hnodes⟩ := exists_root (nodeValueOfBytes .int32 [1])
    (show sizeofPageHeader + (sizeofItemMetadata + sizeofNode) ≤ 4096 by decide) (by decide)
  obtain ⟨t, hrun⟩ := hs.addBulkNodes_released oneChild zeroNode rfl
    ⟨_, by rw [hnodes]; exact List.mem_cons_self, rfl⟩ (by decide) (show 20 + 2 * 4096 < 2 ^ 32 by decide)
  refine ⟨doc, t, hr, by rw [hs.holds.liveNodes_eq, hnodes], hrun, ?_⟩
  rintro ⟨nodes, u, hok, _⟩
  rw [hrun] at hok
  cases hok

end Bulk

section DeleteByCondition

variable {pageSize : Nat} {store : List (List Slot)} {doc t : Document} {matcher : NodeMatcher} {fuel : Nat}
  {count count' : Int} {res : Result Unit}

/-- The nodes that a matcher takes go with all nodes below them, and are counted. -/
structure DeletesMatching (matcher : NodeMatcher) (count count' : Int) (doc t : Document) : Prop where
  none_left : ∀ node ∈ liveNodes t, nodeConditionMatches matcher node ≠ .ok true
  removed : ∀ node, node ∈ liveNodes t ↔ node ∈ liveNodes doc ∧
    ¬∃ m ∈ liveNodes doc, nodeConditionMatches matcher m = .ok true ∧ Below (liveNodes doc) m.id node.id
  counted : count' + (liveNodes t).length = count + (liveNodes doc).length

/-- `document_delete_nodes_by_condition` looks at roots only and counts every root
twice, so it does its work exactly when there is nothing to do. -/
theorem deleteNodesByCondition_iff (h : ReachableDocument pageSize doc)
    (hrun : documentDeleteNodesByCondition fuel matcher count doc = .ok (.ok (), count') t) :
    DeletesMatching matcher count count' doc t ↔
      ∀ node ∈ liveNodes doc, nodeConditionMatches matcher node ≠ .ok true := by
  obtain ⟨store, hs, _⟩ := h.tree
  obtain ⟨_, hdef, store', ht, hnodes, hcount⟩ := hs.deleteByCondition_ok hrun
  rw [hs.liveNodes_eq]
  constructor
  · rintro ⟨hleft, _, hcounted⟩
    rw [ht.liveNodes_eq] at hleft hcounted
    rw [hs.liveNodes_eq] at hcounted
    have hnone : ((nodesOf store).filter fun node => node.parentId == nullNodeId).filter (matching matcher) = [] :=
      List.length_eq_zero_iff.mp (by omega)
    intro node hnode
    refine hleft node ((hnodes node).mpr ⟨hnode, ?_⟩)
    rintro ⟨root, hroot, _⟩
    rw [hnone] at hroot
    cases hroot
  · intro hno
    have hnone : ((nodesOf store).filter fun node => node.parentId == nullNodeId).filter (matching matcher) = [] := by
      refine List.filter_eq_nil_iff.mpr fun root hroot hmatch => ?_
      have hok := hdef.matches_eq hroot
      rw [hmatch] at hok
      exact hno root (List.mem_of_mem_filter hroot) hok
    rw [hnone] at hnodes hcount
    have hsame : ∀ node, node ∈ nodesOf store' ↔ node ∈ nodesOf store := fun node => by
      rw [hnodes]
      simp
    refine ⟨?_, ?_, ?_⟩
    · rw [ht.liveNodes_eq]
      exact fun node hnode => hno node ((hsame node).mp hnode)
    · intro node
      rw [ht.liveNodes_eq, hs.liveNodes_eq, hsame]
      refine ⟨fun hnode => ⟨hnode, ?_⟩, And.left⟩
      rintro ⟨m, hm, hmatch, _⟩
      exact hno m hm hmatch
    · rw [ht.liveNodes_eq, hs.liveNodes_eq]
      simpa using hcount

def rootChildren : NodeMatcher := nodeMatcherNew (nodeConditionParentIdEq rootNodeId)

/-- The root does not match, so that its child is not looked at. -/
theorem rootChildren_run :
    ∃ doc t, ReachableDocument 4096 doc ∧
      liveNodes doc = [⟨rootNodeId, nullNodeId, nodeValueOfBytes .int32 [1]⟩,
        ⟨⟨0, 1⟩, rootNodeId, nodeValueOfBytes .int32 [2]⟩] ∧
      documentDeleteNodesByCondition 1 rootChildren 0 doc = .ok (.ok (), 0) t ∧
      liveNodes t = liveNodes doc := by
  obtain ⟨doc, slots, hr, hs, _, hnodes⟩ := exists_child (nodeValueOfBytes .int32 [1])
    (nodeValueOfBytes .int32 [2])
    (show sizeofPageHeader + (sizeofItemMetadata + sizeofNode) * 2 ≤ 4096 by decide) (by decide)
  have hroots : (nodesOf [slots]).filter (fun node => node.parentId == nullNodeId) =
      [⟨rootNodeId, nullNodeId, nodeValueOfBytes .int32 [1]⟩] := by
    rw [hnodes]
    rfl
  obtain ⟨t, hget, ht⟩ := hs.holds.getAllChildren_clean hs.allLive.clean ⟨nullNodeId⟩ hroots
    (show 1 ≤ 1000 by decide)
  refine ⟨doc, t, hr, by rw [hs.holds.liveNodes_eq, hnodes], ?_, by rw [ht.liveNodes_eq, hs.holds.liveNodes_eq]⟩
  rw [documentDeleteNodesByCondition, documentGetAllNodes]
  simp only [run_bind, hs.holds.assertInitDone, andThen_ok, hget, List.length_singleton, List.take_succ_cons,
    List.take_zero]
  rw [deleteByConditionLoop, deleteByConditionLoop]
  have hno : nodeConditionMatches rootChildren ⟨rootNodeId, nullNodeId, nodeValueOfBytes .int32 [1]⟩ =
      .ok false := nodeConditionMatches_new _ _
  simp only [run_bind, hno, run_lift_ok, andThen_ok, Bool.false_eq_true, if_false, run_pure]

theorem deleteNodesByCondition_iff_rootChildren :
    ∃ doc t, ReachableDocument 4096 doc ∧ (DeletesMatching rootChildren 0 0 doc t ↔
      ∀ node ∈ liveNodes doc, nodeConditionMatches rootChildren node ≠ .ok true) := by
  obtain ⟨doc, t, hr, _, hrun, _⟩ := rootChildren_run
  exact ⟨doc, t, hr, deleteNodesByCondition_iff hr hrun⟩

/-- The child of the root matches and stays. -/
theorem deleteNodesByCondition_leaves_child :
    ∃ doc t, ReachableDocument 4096 doc ∧
      liveNodes doc = [⟨rootNodeId, nullNodeId, nodeValueOfBytes .int32 [1]⟩,
        ⟨⟨0, 1⟩, rootNodeId, nodeValueOfBytes .int32 [2]⟩] ∧
      documentDeleteNodesByCondition 1 rootChildren 0 doc = .ok (.ok (), 0) t ∧
      ¬DeletesMatching rootChildren 0 0 doc t := by
  obtain ⟨doc, t, hr, hnodes, hrun, hsame⟩ := rootChildren_run
  refine ⟨doc, t, hr, hnodes, hrun, fun hdeletes => ?_⟩
  refine hdeletes.none_left ⟨⟨0, 1⟩, rootNodeId, nodeValueOfBytes .int32 [2]⟩ ?_ (nodeConditionMatches_new _ _)
  rw [hsame, hnodes]
  simp

end DeleteByCondition

end DocumentDb.Documents
