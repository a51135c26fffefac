import DocumentDb.Server.Reachable
import DocumentDb.Documents.Updates

namespace DocumentDb.Server

open Storage Program Bytes Documents Rpc

variable {pageSize : Nat} {doc t : Document} {response : RpcNode}

section Create

variable {request : RpcCreateNodeRequest} {nodeRequest : CreateNodeRequest}

/-- The tree takes a root while none has the first id, and a child of a live node. -/
def Accepted (parent : NodeId) (nodes : List Node) : Prop :=
  (parent = nullNodeId → ∀ node ∈ nodes, node.id ≠ rootNodeId) ∧
    (parent ≠ nullNodeId → ∃ node ∈ nodes, node.id = parent)

def Created (doc t : Document) : Prop := ∃ node, liveNodes t = liveNodes doc ++ [node]

/-- What the client may rely on: the id of the response is the id of a live node as
requested, and a failure does not answer what a success answers. -/
structure CreateReported (nodeRequest : CreateNodeRequest) (response : RpcNode) (doc t : Document) : Prop where
  stored : ∀ id, convertFromRpcNodeId response.id = .ok id → ∃ node ∈ liveNodes t,
    node.id = id ∧ node.parentId = nodeRequest.parent ∧ node.value = nodeRequest.value
  distinguished : ¬Created doc t → ∀ pageSize' doc' request' response' t',
    ReachableDocument pageSize' doc' → handleCreateNodeRequest request' doc' = .ok response' t' →
      FileBelow t'.pageManager → Created doc' t' → response' ≠ response

theorem not_created_self {nodes : List Node} : ¬∃ node, nodes = nodes ++ [node] := by
  rintro ⟨node, h⟩
  simpa using congrArg List.length h

theorem exists_created_root {message : RpcNodeValue} {value : NodeValue}
    (hvalue : convertFromRpcNodeValue message = .ok value) :
    ∃ doc request t response, ReachableDocument 4096 doc ∧
      handleCreateNodeRequest request doc = .ok response t ∧ FileBelow t.pageManager ∧ Created doc t ∧
      convertToRpcNode ⟨rootNodeId, nullNodeId, value⟩ = .ok response := by
  obtain ⟨s, hr, hs⟩ := exists_started (show sizeofPageHeader ≤ 4096 by decide) (by decide)
  obtain ⟨t, slot, response, hrun, ht, hnodes, _, hresponse⟩ := createOnPage hs hvalue isInt32_nullNodeId_pageId
    isInt32_nullNodeId_itemId (show 28 + 298 * 1 ≤ 4096 by decide) (show 20 + 2 * 4096 < 2 ^ 32 by decide)
    (by simp [nodesOf_fresh]) fun hne => absurd rfl hne
  exact ⟨s, _, t, response, hr.document, hrun, ht.holds.below,
    ⟨_, by rw [ht.holds.liveNodes_eq, hs.holds.liveNodes_eq]; exact hnodes⟩, hresponse⟩

/-- The response of a create request tells the truth exactly when the tree accepts
the request. -/
theorem handleCreateNodeRequest_reported_iff (h : ReachableDocument pageSize doc)
    (hrequest : convertFromRpcCreateNodeRequest request = .ok nodeRequest)
    (hrun : handleCreateNodeRequest request doc = .ok response t) (hbelow : FileBelow t.pageManager) :
    CreateReported nodeRequest response doc t ↔ Accepted nodeRequest.parent (liveNodes doc) := by
  obtain ⟨store, hs, hrooted⟩ := h.tree
  obtain ⟨nodeRequest', ⟨id, parent, value⟩, store', hrequest', hresponse, ht, hparent, hvalue, hnodes⟩ :=
    handleCreateNodeRequest_nodes hs hrun hbelow
  rw [hrequest] at hrequest'
  cases hrequest'
  obtain rfl : parent = nodeRequest.parent := hparent
  obtain rfl : value = nodeRequest.value := hvalue
  obtain ⟨_, message, _, hmessage⟩ := convertFromRpcCreateNodeRequest_ok hrequest
  rcases hnodes with ⟨hsame, hid, hroot, hchild⟩ | ⟨hadded, hroot, hchild, _⟩
  · obtain rfl : id = ⟨0, 0⟩ := hid
    rw [hs.liveNodes_eq]
    constructor
    · intro hreported
      exfalso
      by_cases hnull : nodeRequest.parent = nullNodeId
      · -- a root that is refused is answered as the root of a new document is
        obtain ⟨doc', request', t', response', hr', hrun', hbelow', hcreated', hresponse'⟩ :=
          exists_created_root hmessage
        rw [hnull] at hresponse
        refine hreported.distinguished ?_ 4096 doc' request' response' t' hr' hrun' hbelow' hcreated' ?_
        · rw [Created, ht.liveNodes_eq, hs.liveNodes_eq, hsame]
          exact not_created_self
        · exact Except.ok.inj (hresponse'.symm.trans hresponse)
      · obtain ⟨node, hnode, hnodeId, hnodeParent, _⟩ := hreported.stored ⟨0, 0⟩
          (convertFromRpcNodeId_of_ok hresponse ⟨isInt32_rootNodeId_pageId, isInt32_rootNodeId_itemId,
            nodeRequest.isInt32_pageId, nodeRequest.isInt32_itemId⟩)
        rw [ht.liveNodes_eq, hsame] at hnode
        rcases hrooted node hnode with hnodeNull | ⟨m, hm, hkey, _⟩
        · exact hnull (hnodeParent.symm.trans hnodeNull)
        · exact hchild hnull m hm (hkey.trans hnodeParent)
    · rintro ⟨hnoRoot, hparent⟩
      exfalso
      by_cases hnull : nodeRequest.parent = nullNodeId
      · obtain ⟨root, hmem, hrootId⟩ := hroot hnull
        exact hnoRoot hnull root hmem hrootId
      · obtain ⟨node, hnode, hnodeId⟩ := hparent hnull
        exact hchild hnull node hnode hnodeId
  · have hmem : (⟨id, nodeRequest.parent, nodeRequest.value⟩ : Node) ∈ nodesOf store' := by
      rw [hadded]
      exact List.mem_append_right _ List.mem_cons_self
    refine ⟨fun _ => by rw [hs.liveNodes_eq]; exact ⟨hroot, hchild⟩, fun _ => ⟨fun id' hid' => ?_, ?_⟩⟩
    · rw [convertFromRpcNodeId_of_ok hresponse (idsFit ht hmem)] at hid'
      cases hid'
      exact ⟨_, by rw [ht.liveNodes_eq]; exact hmem, rfl, rfl, rfl⟩
    · exact fun hfailed => absurd ⟨_, by rw [ht.liveNodes_eq, hs.liveNodes_eq]; exact hadded⟩ hfailed

def orphan : RpcCreateNodeRequest := ⟨some ⟨.int32, .intValue 2⟩, some (convertNodeIdToRpc ⟨0, 7⟩)⟩

theorem orphan_run :
    ∃ doc t response nodeRequest, ReachableDocument 4096 doc ∧
      liveNodes doc = [⟨rootNodeId, nullNodeId, nodeValueOfBytes .int32 [1]⟩] ∧
      convertFromRpcCreateNodeRequest orphan = .ok nodeRequest ∧ nodeRequest.parent = ⟨0, 7⟩ ∧
      handleCreateNodeRequest orphan doc = .ok response t ∧ FileBelow t.pageManager := by
  obtain ⟨doc, slots, hr, hs, _, hnodes⟩ := exists_root (nodeValueOfBytes .int32 [1])
    (show sizeofPageHeader + (sizeofItemMetadata + sizeofNode) ≤ 4096 by decide) (by decide)
  have hparent : convertFromRpcNodeId (some (convertNodeIdToRpc ⟨0, 7⟩)) = .ok ⟨0, 7⟩ :=
    convertFromRpcNodeId_convertNodeIdToRpc ⟨by decide, by decide⟩ ⟨by decide, by decide⟩
  have hvalue : convertFromRpcNodeValue ⟨.int32, .intValue 2⟩ =
      .ok (nodeValueOfBytes .int32 (encodeInt32 (2 : Int32).toInt)) := rfl
  have hrequest := convertFromRpcCreateNodeRequest_eq hparent hvalue
  obtain ⟨t, message, hrun, ht⟩ := hs.holds.addNode_refused hs.allLive.clean
    ⟨⟨0, 7⟩, _, (isInt32_of_convertFromRpcNodeId hparent).1, (isInt32_of_convertFromRpcNodeId hparent).2⟩ zeroNode
    (fun hnull => by cases hnull) fun _ node hnode => by
      rw [hnodes, List.mem_singleton] at hnode
      subst hnode
      exact fun hid => by cases hid
  have hconvertible : Convertible (nodeValueOfBytes .int32 (encodeInt32 (2 : Int32).toInt)) := ⟨_, hvalue⟩
  have hids : IdsFit ⟨rootNodeId, ⟨0, 7⟩, nodeValueOfBytes .int32 (encodeInt32 (2 : Int32).toInt)⟩ :=
    ⟨isInt32_rootNodeId_pageId, isInt32_rootNodeId_itemId, ⟨by decide, by decide⟩, by decide, by decide⟩
  obtain ⟨response, hresponse, _⟩ := Convertible.toRpcNode hconvertible hids
  exact ⟨doc, t, response, _, hr, by rw [hs.holds.liveNodes_eq, hnodes], hrequest, rfl,
    handleCreateNodeRequest_eq hrequest hrun hresponse, ht.below⟩

theorem handleCreateNodeRequest_reported_iff_orphan :
    ∃ doc t response nodeRequest, handleCreateNodeRequest orphan doc = .ok response t ∧
      (CreateReported nodeRequest response doc t ↔ Accepted nodeRequest.parent (liveNodes doc)) := by
  obtain ⟨doc, t, response, nodeRequest, hr, _, hrequest, _, hrun, hbelow⟩ := orphan_run
  exact ⟨doc, t, response, nodeRequest, hrun, handleCreateNodeRequest_reported_iff hr hrequest hrun hbelow⟩

/-- The response carries the id of the root, which has another parent. -/
theorem handleCreateNodeRequest_misreports :
    ∃ doc t response nodeRequest, ReachableDocument 4096 doc ∧
      liveNodes doc = [⟨rootNodeId, nullNodeId, nodeValueOfBytes .int32 [1]⟩] ∧
      convertFromRpcCreateNodeRequest orphan = .ok nodeRequest ∧
      handleCreateNodeRequest orphan doc = .ok response t ∧ ¬CreateReported nodeRequest response doc t := by
  obtain ⟨doc, t, response, nodeRequest, hr, hnodes, hrequest, hparent, hrun, hbelow⟩ := orphan_run
  refine ⟨doc, t, response, nodeRequest, hr, hnodes, hrequest, hrun, fun hreported => ?_⟩
  obtain ⟨store, hs, _⟩ := hr.tree
  rw [hs.liveNodes_eq] at hnodes
  obtain ⟨nodeRequest', node, store', hrequest', hresponse, ht, hnodeParent, _, hcase⟩ :=
    handleCreateNodeRequest_nodes hs hrun hbelow
  rw [hrequest] at hrequest'
  cases hrequest'
  have hchild : nodeRequest.parent ≠ nullNodeId := by
    rw [hparent]
    exact fun hnull => by cases hnull
  rcases hcase with ⟨hsame, hid, _⟩ | ⟨_, _, hlive, _⟩
  · obtain ⟨found, hfound, hfoundId, hfoundParent, _⟩ := hreported.stored node.id
      (convertFromRpcNodeId_of_ok hresponse ⟨by rw [hid]; exact isInt32_rootNodeId_pageId,
        by rw [hid]; exact isInt32_rootNodeId_itemId, by rw [hnodeParent]; exact nodeRequest.isInt32_pageId,
        by rw [hnodeParent]; exact nodeRequest.isInt32_itemId⟩)
    rw [ht.liveNodes_eq, hsame, hnodes, List.mem_singleton] at hfound
    rw [hfound] at hfoundParent
    exact hchild hfoundParent.symm
  · obtain ⟨parent, hmem, hid⟩ := hlive hchild
    rw [hnodes, List.mem_singleton] at hmem
    rw [hmem, hparent] at hid
    cases hid

end Create

section Update

variable {request : RpcUpdateNodeRequest} {node : Node} {value : NodeValue}

/-- A node has the new value, under the parent of the node that it replaces. -/
def UpdatedInPlace (node : Node) (value : NodeValue) (doc t : Document) : Prop :=
  ∃ new : Node, new.parentId = node.parentId ∧ new.value = value ∧
    (∀ other ∈ liveNodes doc, other ≠ node → other.id ≠ new.id) ∧
    ∀ other, other ∈ liveNodes t ↔ (other ∈ liveNodes doc ∧ other ≠ node) ∨ other = new

/-- An update request that returns keeps the parent exactly when it is the node with
the first id, the only parent that comes through the converters. -/
theorem handleUpdateNodeRequest_inPlace_iff (h : ReachableDocument pageSize doc) (hnode : node ∈ liveNodes doc)
    (hrequest : SentAs { node with value := value } ⟨request.id, request.parentId, request.value⟩)
    (hrun : handleUpdateNodeRequest request doc = .ok response t) (hbelow : FileBelow t.pageManager) :
    (UpdatedInPlace node value doc t ↔ node.parentId = rootNodeId) ∧
      ∀ update : UpdateNodeRequest, Convertible update.newValue → IsInt32 update.nodeId.pageId →
        IsInt32 update.nodeId.itemId → (RoundTrips update ↔ update.parentId = rootNodeId) := by
  refine ⟨?_, fun update => roundTrips_iff⟩
  obtain ⟨store, hs, _⟩ := h.tree
  obtain ⟨nodeRequest, new, store', hconvert, _, ht, hparent, hvalue, _, hnodes, hfresh⟩ :=
    handleUpdateNodeRequest_nodes hs hrun hbelow
  obtain ⟨hid, _, message, hmessage, hnew⟩ := convertFromRpcUpdateNodeRequest_ok hconvert
  obtain ⟨hid', _, message', hmessage', hnew'⟩ := hrequest
  dsimp only at hid' hmessage' hnew'
  obtain rfl : message = message' := Option.some.inj (hmessage.symm.trans hmessage')
  have hnodeId : nodeRequest.nodeId = node.id := Except.ok.inj (hid.symm.trans hid')
  have hnewValue : new.value = value := hvalue.trans (Except.ok.inj (hnew.symm.trans hnew'))
  rw [hnodeId] at hnodes hfresh
  rw [hs.liveNodes_eq] at hnode
  have hne : ∀ other ∈ nodesOf store, other ≠ node → other.id ≠ node.id := fun other hother hdiff hids =>
    hdiff (ids_injective (pairwise_nodesOf store) hother hnode hids)
  rw [UpdatedInPlace]
  rw [ht.liveNodes_eq, hs.liveNodes_eq, hnodes]
  constructor
  · rintro ⟨new', hparent', _, _, hiff⟩
    rcases (hiff new).mp (List.mem_append_right _ List.mem_cons_self) with ⟨hmem, hdiff⟩ | rfl
    · exact absurd (hfresh new hmem (hne new hmem hdiff)) (Before.irrefl _)
    · exact hparent'.symm.trans hparent
  · intro hroot
    refine ⟨new, hparent.trans hroot.symm, hnewValue, fun other hother hdiff =>
      (hfresh other hother (hne other hother hdiff)).ne, fun other => ?_⟩
    rw [List.mem_append, List.mem_filter, List.mem_singleton, decide_eq_true_eq]
    refine or_congr_left (and_congr_right fun hother => ⟨?_, hne other hother⟩)
    rintro hids rfl
    exact hids rfl

def nestedUpdate : RpcUpdateNodeRequest :=
  ⟨some (convertNodeIdToRpc ⟨0, 2⟩), some (convertNodeIdToRpc ⟨0, 1⟩), some ⟨.int32, .intValue 4⟩⟩

theorem nestedUpdate_run :
    ∃ doc node value t response, ReachableDocument 4096 doc ∧ node ∈ liveNodes doc ∧ node.id = ⟨0, 2⟩ ∧
      node.parentId = ⟨0, 1⟩ ∧ (∀ other ∈ liveNodes doc, other.parentId ≠ node.id) ∧
      SentAs { node with value := value } ⟨nestedUpdate.id, nestedUpdate.parentId, nestedUpdate.value⟩ ∧
      handleUpdateNodeRequest nestedUpdate doc = .ok response t ∧ FileBelow t.pageManager := by
  obtain ⟨doc, slots, hr, hs, hlen, hnodes⟩ := exists_grandchild (nodeValueOfBytes .int32 [1])
    (nodeValueOfBytes .int32 [2]) (nodeValueOfBytes .int32 [3])
    (show sizeofPageHeader + (sizeofItemMetadata + sizeofNode) * 3 ≤ 4096 by decide)
    (show 20 + 2 * 4096 < 2 ^ 32 by decide)
  have hid : convertFromRpcNodeId (some (convertNodeIdToRpc ⟨0, 2⟩)) = .ok ⟨0, 2⟩ :=
    convertFromRpcNodeId_convertNodeIdToRpc ⟨by decide, by decide⟩ ⟨by decide, by decide⟩
  have hparent : convertFromRpcNodeId (some (convertNodeIdToRpc ⟨0, 1⟩)) = .ok ⟨0, 1⟩ :=
    convertFromRpcNodeId_convertNodeIdToRpc ⟨by decide, by decide⟩ ⟨by decide, by decide⟩
  have hvalue : convertFromRpcNodeValue ⟨.int32, .intValue 4⟩ =
      .ok (nodeValueOfBytes .int32 (encodeInt32 (4 : Int32).toInt)) := rfl
  have hconvertible : Convertible (nodeValueOfBytes .int32 (encodeInt32 (4 : Int32).toInt)) := ⟨_, hvalue⟩
  have hids : IdsFit ⟨⟨0, 2⟩, rootNodeId, nodeValueOfBytes .int32 (encodeInt32 (4 : Int32).toInt)⟩ :=
    ⟨⟨by decide, by decide⟩, ⟨by decide, by decide⟩, isInt32_rootNodeId_pageId, isInt32_rootNodeId_itemId⟩
  obtain ⟨response, hresponse, _⟩ := Convertible.toRpcNode hconvertible hids
  obtain ⟨t, slots', hrun, ht, _⟩ := hs.updateOnPage
    ⟨⟨0, 2⟩, ⟨0, 0⟩, _, ⟨by decide, by decide⟩, by decide, by decide⟩ zeroNode hlen.symm rfl
    (by rw [hnodes]; simp) (by rw [hnodes]; simp [nullNodeId, rootNodeId])
    (by rw [hlen]; exact (show 28 + 298 * 3 ≤ 4096 by decide)) (show 20 + 2 * 4096 < 2 ^ 32 by decide)
    (fun hnull => by cases hnull) ⟨⟨rootNodeId, nullNodeId, nodeValueOfBytes .int32 [1]⟩, by
      rw [hnodes]; simp, rfl, fun hbad => by cases hbad⟩
  refine ⟨doc, ⟨⟨0, 2⟩, ⟨0, 1⟩, nodeValueOfBytes .int32 [3]⟩, _, t, response, hr, ?_, rfl, rfl, ?_,
    ⟨hid, hparent, _, rfl, hvalue⟩,
    handleUpdateNodeRequest_eq (convertFromRpcUpdateNodeRequest_eq hid hvalue) hrun hresponse, ht.holds.below⟩
  · rw [hs.holds.liveNodes_eq, hnodes]
    simp
  · rw [hs.holds.liveNodes_eq, hnodes]
    simp [nullNodeId, rootNodeId]

theorem handleUpdateNodeRequest_inPlace_iff_nested :
    ∃ doc node value t response, handleUpdateNodeRequest nestedUpdate doc = .ok response t ∧
      (UpdatedInPlace node value doc t ↔ node.parentId = rootNodeId) := by
  obtain ⟨doc, node, value, t, response, hr, hnode, _, _, _, hsent, hrun, hbelow⟩ := nestedUpdate_run
  exact ⟨doc, node, value, t, response, hrun,
    (handleUpdateNodeRequest_inPlace_iff hr hnode hsent hrun hbelow).1⟩

/-- The node below the second one is moved below the first. -/
theorem handleUpdateNodeRequest_moves :
    ∃ doc node value t response, ReachableDocument 4096 doc ∧ node ∈ liveNodes doc ∧
      node.parentId = ⟨0, 1⟩ ∧ (∀ other ∈ liveNodes doc, other.parentId ≠ node.id) ∧
      SentAs { node with value := value } ⟨nestedUpdate.id, nestedUpdate.parentId, nestedUpdate.value⟩ ∧
      handleUpdateNodeRequest nestedUpdate doc = .ok response t ∧ ¬UpdatedInPlace node value doc t := by
  obtain ⟨doc, node, value, t, response, hr, hnode, hid, hparent, hleaf, hsent, hrun, hbelow⟩ := nestedUpdate_run
  refine ⟨doc, node, value, t, response, hr, hnode, hparent, hleaf, hsent, hrun, ?_⟩
  rintro ⟨new, hnewParent, _, _, hiff⟩
  obtain ⟨store, hs, _⟩ := hr.tree
  obtain ⟨nodeRequest, moved, store', hconvert, _, ht, hmoved, _, _, hnodes, hfresh⟩ :=
    handleUpdateNodeRequest_nodes hs hrun hbelow
  have hname : nodeRequest.nodeId = node.id :=
    Except.ok.inj ((convertFromRpcUpdateNodeRequest_ok hconvert).1.symm.trans hsent.id)
  rw [hs.liveNodes_eq] at hnode hiff
  rw [ht.liveNodes_eq, hnodes, hname] at hiff
  rw [hname] at hfresh
  rcases (hiff moved).mp (List.mem_append_right _ List.mem_cons_self) with ⟨hmem, hne⟩ | rfl
  · have hids : moved.id ≠ node.id := fun hids => hne (ids_injective (pairwise_nodesOf store) hmem hnode hids)
    exact Before.irrefl _ (hfresh moved hmem hids)
  · rw [hmoved, hparent] at hnewParent
    cases hnewParent

end Update

section Delete

variable {request : RpcDeleteNodeRequest} {node : Node} {s : Document}

/-- The request is answered with the node, which is gone, and no other node is. -/
def DeleteAnswered (request : RpcDeleteNodeRequest) (node : Node) (doc : Document) : Prop :=
  ∃ response t, handleDeleteNodeRequest request doc = .ok response t ∧ SentAs node response ∧
    ∀ other, other ∈ liveNodes t ↔ other ∈ liveNodes doc ∧ other ≠ node

/-- A delete that the store accepts ends the server when it makes its response. -/
theorem handleDeleteNodeRequest_never (hname : convertFromRpcNodeId request.id = .ok node.id)
    (haccepted : documentDeleteNode ⟨node.id⟩ doc = .ok (.ok ()) s) :
    ¬DeleteAnswered request node doc ∧ handleDeleteNodeRequest request doc = .error (.exit "Unknown type") s := by
  constructor
  · rintro ⟨response, t, hrun, _⟩
    exact handleDeleteNodeRequest_ne_ok request hrun
  · obtain ⟨id⟩ := request
    cases id with
    | none => cases hname
    | some id =>
        have hrequest : convertFromRpcDeleteNodeRequest ⟨some id⟩ = .ok ⟨node.id⟩ := by
          rw [convertFromRpcDeleteNodeRequest]
          rw [hname]
          rfl
        have hresponse : convertToRpcNode zeroNode = .error (.exit "Unknown type") := rfl
        rw [handleDeleteNodeRequest]
        simp only [run_bind, assertArgNotNull, run_lift_ok, andThen_ok, hrequest, haccepted,
          run_abortIfFail_ok, hresponse, run_lift_error]

theorem deletable_child :
    ∃ doc s, ReachableDocument 4096 doc ∧
      liveNodes doc = [⟨rootNodeId, nullNodeId, nodeValueOfBytes .int32 [1]⟩,
        ⟨⟨0, 1⟩, rootNodeId, nodeValueOfBytes .int32 [2]⟩] ∧
      documentDeleteNode ⟨⟨0, 1⟩⟩ doc = .ok (.ok ()) s := by
  obtain ⟨doc, slots, hr, hs, hlen, hnodes⟩ := exists_child (nodeValueOfBytes .int32 [1])
    (nodeValueOfBytes .int32 [2])
    (show sizeofPageHeader + (sizeofItemMetadata + sizeofNode) * 2 ≤ 4096 by decide) (by decide)
  have hk : [slots][0]? = some slots := rfl
  obtain ⟨s, hdelete, _⟩ := hs.pop hk hlen.symm
    ⟨⟨⟨0, 1⟩, rootNodeId, nodeValueOfBytes .int32 [2]⟩, by rw [hnodes]; simp, rfl⟩
    (by rw [hnodes]; simp [nullNodeId, rootNodeId])
  exact ⟨doc, s, hr, by rw [hs.holds.liveNodes_eq, hnodes], hdelete⟩

theorem handleDeleteNodeRequest_never_child :
    ∃ doc s, ReachableDocument 4096 doc ∧
      ¬DeleteAnswered ⟨some (convertNodeIdToRpc ⟨0, 1⟩)⟩
        ⟨⟨0, 1⟩, rootNodeId, nodeValueOfBytes .int32 [2]⟩ doc ∧
      handleDeleteNodeRequest ⟨some (convertNodeIdToRpc ⟨0, 1⟩)⟩ doc = .error (.exit "Unknown type") s := by
  obtain ⟨doc, s, hr, _, hdelete⟩ := deletable_child
  exact ⟨doc, s, hr, handleDeleteNodeRequest_never
    (convertFromRpcNodeId_convertNodeIdToRpc ⟨by decide, by decide⟩ ⟨by decide, by decide⟩) hdelete⟩

/-- The last child of a root is deleted, and the server ends. -/
theorem handleDeleteNodeRequest_exits :
    ∃ doc s, ReachableDocument 4096 doc ∧
      liveNodes doc = [⟨rootNodeId, nullNodeId, nodeValueOfBytes .int32 [1]⟩,
        ⟨⟨0, 1⟩, rootNodeId, nodeValueOfBytes .int32 [2]⟩] ∧
      documentDeleteNode ⟨⟨0, 1⟩⟩ doc = .ok (.ok ()) s ∧
      ¬DeleteAnswered ⟨some (convertNodeIdToRpc ⟨0, 1⟩)⟩
        ⟨⟨0, 1⟩, rootNodeId, nodeValueOfBytes .int32 [2]⟩ doc := by
  obtain ⟨doc, s, hr, hnodes, hdelete⟩ := deletable_child
  refine ⟨doc, s, hr, hnodes, hdelete, ?_⟩
  rintro ⟨response, t, hrun, _⟩
  exact handleDeleteNodeRequest_ne_ok _ hrun

end Delete

end DocumentDb.Server
