import DocumentDb.Documents.Growth

namespace DocumentDb.Documents

open Storage Program Bytes

variable {pageSize : Nat} {doc t : Document} {request : UpdateNodeRequest} {result node' : Node}
  {res : Result Unit}

/-- What an update may replace: no live node has the id, or the new node is
accepted by a tree without the old one. -/
def Replaceable (request : UpdateNodeRequest) (nodes : List Node) : Prop :=
  (∀ node ∈ nodes, node.id ≠ request.nodeId) ∨
    (request.parentId = nullNodeId → ∀ node ∈ nodes, node.id = rootNodeId → node.id = request.nodeId) ∧
    (request.parentId ≠ nullNodeId → ∃ node ∈ nodes, node.id = request.parentId ∧ node.id ≠ request.nodeId)

def UnchangedOnError (res : Result Unit) (doc t : Document) : Prop :=
  res ≠ .ok () → ∀ node, node ∈ liveNodes t ↔ node ∈ liveNodes doc

/-- An update that returns an error has changed nothing exactly when its second half,
which adds the node again, is not what has failed. -/
theorem updateNode_unchanged_iff (h : ReachableDocument pageSize doc)
    (hrun : documentUpdateNode request result doc = .ok (res, node') t) (hbelow : FileBelow t.pageManager) :
    UnchangedOnError res doc t ↔ Replaceable request (liveNodes doc) := by
  obtain ⟨store, hstore, _⟩ := h.tree
  rw [UnchangedOnError]
  rw [hstore.liveNodes_eq]
  obtain ⟨_, ⟨hres, ht, hmissing⟩ | ⟨hlive, k, i, hki, s, res', hs, hadd, hiff⟩⟩ := hstore.updateNode_ok hrun
  · rw [ht.liveNodes_eq]
    exact ⟨fun _ => Or.inl hmissing, fun _ _ _ => Iff.rfl⟩
  · have hmem : ∀ node, node ∈ nodesOf (deleteAt store k i) ↔
        node ∈ nodesOf store ∧ node.id ≠ request.nodeId := fun node => by
      rw [nodesOf_deleteAt, hki, List.mem_filter, decide_eq_true_eq]
    rcases hs.addNode_ok hadd hbelow with ⟨hres', ht, _, hroot, hchild⟩ | ⟨hres', hroot, hchild, _⟩
    · -- the node is gone, and nothing has taken its place
      rw [ht.liveNodes_eq]
      constructor
      · intro hsame
        obtain ⟨node, hnode, hid⟩ := hlive
        have hgone := (hmem node).mp ((hsame (fun hok => hres' (hiff.mp hok)) node).mpr hnode)
        exact absurd hid hgone.2
      · rintro (hmissing | ⟨hnull, hparent⟩)
        · obtain ⟨node, hnode, hid⟩ := hlive
          exact absurd hid (hmissing node hnode)
        · by_cases hcase : request.parentId = nullNodeId
          · obtain ⟨root, hmemRoot, hid⟩ := hroot hcase
            obtain ⟨hin, hne⟩ := (hmem root).mp hmemRoot
            exact absurd (hnull hcase root hin hid) hne
          · obtain ⟨node, hnode, hid, hne⟩ := hparent hcase
            exact absurd hid (hchild hcase node ((hmem node).mpr ⟨hnode, hne⟩))
    · refine ⟨fun _ => Or.inr ⟨fun hnull node hnode hid => ?_, fun hne => ?_⟩,
        fun _ hbad => absurd (hiff.mpr hres') hbad⟩
      · by_contra hne
        exact (hroot hnull).2 node ((hmem node).mpr ⟨hnode, hne⟩) hid
      · obtain ⟨node, hnode, hid⟩ := hchild hne
        obtain ⟨hin, hne'⟩ := (hmem node).mp hnode
        exact ⟨node, hin, hid, hne'⟩

/-- A node in the last slot of its page is lost when the new parent is missing. -/
theorem Packed.updateNode_refused {store : List (List Slot)} (h : Packed pageSize store doc)
    (request : UpdateNodeRequest) (result : Node) {k i : Nat} {slots : List Slot}
    (hk : store[k]? = some slots) (hi : i + 1 = slots.length) (hid : request.nodeId = ⟨k, i⟩)
    (hlive : ∃ node ∈ nodesOf store, node.id = request.nodeId)
    (hleaf : ∀ node ∈ nodesOf store, node.parentId ≠ request.nodeId) (hchild : request.parentId ≠ nullNodeId)
    (hmissing : ∀ node ∈ nodesOf store, node.id ≠ request.parentId) :
    ∃ t node', documentUpdateNode request result doc =
        .ok (.error "failed to add node while updating", node') t ∧
      Packed pageSize (deleteAt store k i) t := by
  rw [hid] at hlive hleaf
  obtain ⟨s, hdelete, hs⟩ := h.pop hk hi hlive hleaf
  obtain ⟨t, message, hadd, ht⟩ := hs.holds.addNode_refused hs.allLive.clean (createRequest request) result
    (fun hnull => absurd hnull hchild) fun _ node hnode => by
      rw [nodesOf_deleteAt] at hnode
      exact hmissing node (List.mem_of_mem_filter hnode)
  rw [createRequest] at hadd
  refine ⟨t, requested (createRequest request) result, ?_, ht, hs.allLive⟩
  rw [documentUpdateNode]
  simp only [run_bind, h.holds.assertInitDone, andThen_ok, hid, hdelete, hadd, run_pure, returnIfFail,
    Except.mapError]
  rfl

theorem Packed.updateOnPage {slots : List Slot} (h : Packed pageSize [slots] doc) (request : UpdateNodeRequest)
    (result : Node) {i : Nat} (hi : i + 1 = slots.length) (hid : request.nodeId = ⟨0, i⟩)
    (hlive : ∃ node ∈ nodesOf [slots], node.id = request.nodeId)
    (hleaf : ∀ node ∈ nodesOf [slots], node.parentId ≠ request.nodeId)
    (hfit : sizeofPageHeader + (sizeofItemMetadata + sizeofNode) * slots.length ≤ pageSize)
    (hroom : sizeofFileHeader + 2 * pageSize < 2 ^ 32) (hchild : request.parentId ≠ nullNodeId)
    (hparent : ∃ node ∈ nodesOf [slots], node.id = request.parentId ∧ node.id ≠ request.nodeId) :
    ∃ t slots', documentUpdateNode request result doc =
        .ok (.ok (), ⟨⟨0, i⟩, request.parentId, request.newValue⟩) t ∧ Packed pageSize [slots'] t ∧
      nodesOf [slots'] = ((nodesOf [slots]).filter fun node => node.id ≠ request.nodeId) ++
        [⟨⟨0, i⟩, request.parentId, request.newValue⟩] := by
  have hk : [slots][0]? = some slots := rfl
  have hpop : deleteAt [slots] 0 i = [slots.dropLast] := by
    rw [deleteAt, List.modify_zero_cons, deleteSlot, if_pos hi]
  rw [hid] at hlive hleaf
  obtain ⟨s, hpopped, hs⟩ := h.pop hk hi hlive hleaf
  have hdelete : documentDeleteNode ⟨⟨0, i⟩⟩ doc = .ok (.ok ()) s := hpopped
  have hnodes : nodesOf [slots.dropLast] = (nodesOf [slots]).filter fun node => node.id ≠ request.nodeId := by
    rw [← hpop, nodesOf_deleteAt, hid]
    rfl
  rw [hpop] at hs
  have hlen : slots.dropLast.length = i := by
    rw [List.length_dropLast]
    omega
  obtain ⟨t, slot, hadd, ht, hadded⟩ := hs.addOnPage (createRequest request) result
    (by rw [hlen, hi]; exact hfit) hroom (fun hnull => absurd hnull hchild) fun _ => by
      obtain ⟨node, hnode, hnodeId, hne⟩ := hparent
      exact ⟨node, by rw [hnodes, List.mem_filter]; exact ⟨hnode, by simpa using hne⟩, hnodeId⟩
  rw [hlen, hnodes] at hadded
  rw [hlen] at hadd
  rw [createRequest] at hadd
  refine ⟨t, _, ?_, ht, hadded⟩
  rw [documentUpdateNode]
  simp only [run_bind, h.holds.assertInitDone, andThen_ok, hid, hdelete, hadd, run_pure, returnIfFail,
    Except.mapError]

section Missing

def missingParent : UpdateNodeRequest where
  nodeId := ⟨0, 1⟩
  parentId := ⟨0, 7⟩
  newValue := nodeValueOfBytes .int32 [3]
  isInt32_pageId := ⟨by decide, by decide⟩
  isInt32_itemId := ⟨by decide, by decide⟩

theorem missingParent_run :
    ∃ doc t node', ReachableDocument 4096 doc ∧
      liveNodes doc = [⟨rootNodeId, nullNodeId, nodeValueOfBytes .int32 [1]⟩,
        ⟨⟨0, 1⟩, rootNodeId, nodeValueOfBytes .int32 [2]⟩] ∧
      documentUpdateNode missingParent zeroNode doc =
        .ok (.error "failed to add node while updating", node') t ∧
      FileBelow t.pageManager ∧ ∀ node ∈ liveNodes t, node.id ≠ ⟨0, 1⟩ := by
  obtain ⟨doc, slots, hr, hs, hlen, hnodes⟩ := exists_child (nodeValueOfBytes .int32 [1])
    (nodeValueOfBytes .int32 [2])
    (show sizeofPageHeader + (sizeofItemMetadata + sizeofNode) * 2 ≤ 4096 by decide) (by decide)
  have hk : [slots][0]? = some slots := rfl
  obtain ⟨t, node', hrun, ht⟩ := hs.updateNode_refused missingParent zeroNode hk
    hlen.symm rfl (by rw [hnodes]; simp [missingParent])
    (by rw [hnodes]; simp [missingParent, nullNodeId, rootNodeId]) (by simp [missingParent, nullNodeId])
    (by rw [hnodes]; simp [missingParent, rootNodeId])
  refine ⟨doc, t, node', hr, by rw [hs.holds.liveNodes_eq, hnodes], hrun, ht.holds.below, fun node hnode => ?_⟩
  rw [ht.holds.liveNodes_eq, nodesOf_deleteAt] at hnode
  exact of_decide_eq_true (List.mem_filter.mp hnode).2

theorem updateNode_unchanged_iff_missingParent :
    ∃ doc t node', ReachableDocument 4096 doc ∧
      documentUpdateNode missingParent zeroNode doc =
        .ok (.error "failed to add node while updating", node') t ∧
      (UnchangedOnError (.error "failed to add node while updating") doc t ↔
        Replaceable missingParent (liveNodes doc)) := by
  obtain ⟨doc, t, node', hr, _, hrun, hbelow, _⟩ := missingParent_run
  exact ⟨doc, t, node', hr, hrun, updateNode_unchanged_iff hr hrun hbelow⟩

/-- The update returns an error, and the child is gone. -/
theorem updateNode_loses_node :
    ∃ doc t node', ReachableDocument 4096 doc ∧
      liveNodes doc = [⟨rootNodeId, nullNodeId, nodeValueOfBytes .int32 [1]⟩,
        ⟨⟨0, 1⟩, rootNodeId, nodeValueOfBytes .int32 [2]⟩] ∧
      documentUpdateNode missingParent zeroNode doc =
        .ok (.error "failed to add node while updating", node') t ∧
      ¬UnchangedOnError (.error "failed to add node while updating") doc t := by
  obtain ⟨doc, t, node', hr, hnodes, hrun, _, hgone⟩ := missingParent_run
  refine ⟨doc, t, node', hr, hnodes, hrun, fun hsame => ?_⟩
  have hchild := (hsame (by simp) ⟨⟨0, 1⟩, rootNodeId, nodeValueOfBytes .int32 [2]⟩).mpr
    (by rw [hnodes]; simp)
  exact hgone _ hchild rfl

end Missing

end DocumentDb.Documents
