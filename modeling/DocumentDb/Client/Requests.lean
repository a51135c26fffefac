import DocumentDb.Client.Helpers

namespace DocumentDb.Client

open Storage Program Bytes Documents Rpc Server

section Requests

variable {nodeId : Option RpcNodeId} {content : Except Fault (List UInt8)} {request : CreateNodeRequest}
  {query : RpcCreateNodeRequest} {nodeRequest : CreateNodeRequest}

theorem createBelow_ok (h : createBelow nodeId content = .ok request) :
    convertFromRpcNodeId nodeId = .ok request.parent ∧
      ∃ text, content = .ok text ∧ nodeValueStringNew text = .ok request.value := by
  rw [createBelow] at h
  split at h
  · cases h
  · rename_i parent hparent
    cases content with
    | error e => cases h
    | ok text =>
        cases hvalue : nodeValueStringNew text with
        | error e => simp [bind, Except.bind, hvalue] at h
        | ok value =>
            simp only [bind, Except.bind, hvalue, pure, Except.pure, Except.ok.injEq] at h
            subst h
            exact ⟨hparent, text, rfl, hvalue⟩

theorem createBelow_eq {parent : NodeId} {text : List UInt8} {value : NodeValue}
    (hparent : convertFromRpcNodeId nodeId = .ok parent) (hvalue : nodeValueStringNew text = .ok value) :
    ∃ request, createBelow nodeId (.ok text) = .ok request ∧ request.parent = parent ∧ request.value = value := by
  rw [createBelow]
  split
  · rename_i e herror
    rw [hparent] at herror
    cases herror
  · rename_i parent' hparent'
    rw [hparent] at hparent'
    cases hparent'
    simp only [bind, Except.bind, hvalue, pure, Except.pure]
    exact ⟨_, rfl, rfl, rfl⟩

theorem parent_of_sent (hsend : convertToRpcCreateNodeRequest request = .ok query)
    (hreceive : convertFromRpcCreateNodeRequest query = .ok nodeRequest) : nodeRequest.parent = request.parent := by
  rw [convertToRpcCreateNodeRequest] at hsend
  cases hvalue : convertToRpcNodeValue request.value with
  | error e => rw [hvalue] at hsend; cases hsend
  | ok value =>
      rw [hvalue] at hsend
      cases hsend
      have hparent := (convertFromRpcCreateNodeRequest_ok hreceive).1
      rw [convertFromRpcNodeId_convertNodeIdToRpc request.isInt32_pageId request.isInt32_itemId] at hparent
      exact (Except.ok.inj hparent).symm

theorem convertToRpcCreateNodeRequest_eq {message : RpcNodeValue}
    (h : convertToRpcNodeValue request.value = .ok message) :
    convertToRpcCreateNodeRequest request = .ok ⟨some message, some (convertNodeIdToRpc request.parent)⟩ := by
  rw [convertToRpcCreateNodeRequest, h]
  rfl

theorem clientAddNode_ok {doc t : Document} {response : RpcNode} (hrun : clientAddNode request doc = .ok response t) :
    ∃ query answer, convertToRpcCreateNodeRequest request = .ok query ∧
      handleCreateNodeRequest query doc = .ok answer t ∧ handleCreateResponse answer = .ok response := by
  rw [clientAddNode] at hrun
  obtain ⟨query, _, hsend, hrest⟩ := bind_eq_ok.mp hrun
  obtain ⟨hquery, rfl⟩ := lift_eq_ok.mp hsend
  obtain ⟨answer, _, hcreate, hrest⟩ := bind_eq_ok.mp hrest
  obtain ⟨hresponse, rfl⟩ := lift_eq_ok.mp hrest
  exact ⟨query, answer, hquery, hcreate, hresponse⟩

theorem handleGetResponse_ok {response nodes : RpcNodes} (h : handleGetResponse response = .ok nodes) :
    nodes = response := by
  rw [handleGetResponse] at h
  cases hprint : response.nodes.forM printNode with
  | error e => rw [hprint] at h; cases h
  | ok u => rw [hprint] at h; cases h; rfl

def parameterFilters (q : Query) : List FilterExpr := (q.nodes.head?.map ParsedNode.filters).getD []

def addBelowFirst (q : Query) (nodes : RpcNodes) : DocumentM Unit :=
  match nodes.nodes with
  | [] => return ()
  | node :: _ => do
    let request ← lift (createBelow node.id (convertQueryArgsToString (parameterFilters q)))
    let _ ← clientAddNode request

theorem addNodesSequence_calls (q : Query) : addNodesSequence q = (do
    let chain ← lift (convertNodesToFilterChainPathOnly q.nodes)
    let nodes ← clientGetNodeByFilter chain
    addBelowFirst q nodes) := (rfl)

theorem clientGetNodeByFilter_ok {chain : RpcFilterChain} {found : RpcNodes} {doc s : Document}
    (h : clientGetNodeByFilter chain doc = .ok found s) : handleGetNodesByFilterRequest chain doc = .ok found s := by
  rw [clientGetNodeByFilter] at h
  obtain ⟨response, _, hlookup, hlift⟩ := bind_eq_ok.mp h
  obtain ⟨hprinted, rfl⟩ := lift_eq_ok.mp hlift
  obtain rfl := handleGetResponse_ok hprinted
  exact hlookup

theorem addBelowFirst_ok {q : Query} {found : RpcNodes} {doc s : Document} {u : Unit}
    (h : addBelowFirst q found doc = .ok u s) :
    found.nodes = [] ∧ s = doc ∨ ∃ message request query answer, message ∈ found.nodes.head? ∧
      createBelow message.id (convertQueryArgsToString (parameterFilters q)) = .ok request ∧
      convertToRpcCreateNodeRequest request = .ok query ∧ handleCreateNodeRequest query doc = .ok answer s := by
  obtain ⟨nodes⟩ := found
  rw [addBelowFirst] at h
  cases nodes with
  | nil =>
      dsimp only at h
      rw [run_pure] at h
      cases h
      exact Or.inl ⟨rfl, rfl⟩
  | cons message rest =>
      obtain ⟨request, _, hlift, hrest⟩ := bind_eq_ok.mp h
      obtain ⟨hrequest, rfl⟩ := lift_eq_ok.mp hlift
      obtain ⟨response, _, hadd, hrest⟩ := bind_eq_ok.mp hrest
      rw [run_pure] at hrest
      cases hrest
      obtain ⟨query, answer, hsend, hcreate, _⟩ := clientAddNode_ok hadd
      exact Or.inr ⟨message, request, query, answer, rfl, hrequest, hsend, hcreate⟩

/-- A create command is a lookup of its path, and a node that is added under the first
node of the answer. -/
theorem addNodesSequence_ok {q : Query} {doc t : Document} {u : Unit} (hrun : addNodesSequence q doc = .ok u t) :
    ∃ chain found lookedUp, convertNodesToFilterChainPathOnly q.nodes = .ok chain ∧
      handleGetNodesByFilterRequest chain doc = .ok found lookedUp ∧
      (found.nodes = [] ∧ t = lookedUp ∨
        ∃ message request query answer, message ∈ found.nodes.head? ∧
          createBelow message.id (convertQueryArgsToString (parameterFilters q)) = .ok request ∧
          convertToRpcCreateNodeRequest request = .ok query ∧
          handleCreateNodeRequest query lookedUp = .ok answer t) := by
  rw [addNodesSequence_calls] at hrun
  obtain ⟨chain, _, hlift, hrest⟩ := bind_eq_ok.mp hrun
  obtain ⟨hchain, rfl⟩ := lift_eq_ok.mp hlift
  obtain ⟨found, s, hget, hrest⟩ := bind_eq_ok.mp hrest
  exact ⟨chain, found, s, hchain, clientGetNodeByFilter_ok hget, addBelowFirst_ok hrest⟩

end Requests

section Adding

variable {pageSize : Nat} {store : List (List Slot)} {doc : Document} {node : Node} {response : RpcNode}
  {request : CreateNodeRequest} {text : List UInt8}

theorem type_of_converted {value : NodeValue} {message : RpcNodeValue}
    (h : convertToRpcNodeValue value = .ok message) (htype : value.type = .string) : message.type = .string := by
  rw [convertToRpcNodeValue] at h
  rw [htype] at h
  cases hstring : value.stringValue with
  | error e =>
      rw [hstring] at h
      cases h
  | ok string =>
      rw [hstring] at h
      change (if _ then _ else _ : Except Fault RpcNodeValue) = _ at h
      split at h
      · cases h
      · cases h
        rfl

theorem handleCreateResponse_string (h : convertToRpcNode node = .ok response) (hsent : SentAs node response)
    (htype : node.value.type = .string) : handleCreateResponse response = .ok response := by
  obtain ⟨hid, hparentId, value, hvalue, hconvert⟩ := convertToRpcNode_ok h
  have hstring := type_of_converted hconvert htype
  have hnodeId := hsent.id
  obtain ⟨id, parentId, value'⟩ := response
  dsimp only at hid hparentId hvalue hnodeId
  subst hid hparentId hvalue
  rw [handleCreateResponse]
  rw [hnodeId]
  simp only [convertersCopyNode, derefArg, bind, Except.bind, pure, Except.pure, hstring, ne_eq,
    not_true_eq_false, if_false, ite_self]

theorem clientAddNode_packed (h : Packed pageSize store doc) (hvalue : nodeValueStringNew text = .ok request.value)
    (hfit : sizeofNode + sizeofPageHeader + sizeofItemMetadata ≤ pageSize)
    (hroom : ¬HasPlace pageSize store sizeofNode → sizeofFileHeader + (store.length + 1) * pageSize < 2 ^ 32)
    (hroot : request.parent = nullNodeId → ∀ node ∈ nodesOf store, node.id ≠ rootNodeId)
    (hchild : request.parent ≠ nullNodeId → ∃ node ∈ nodesOf store, node.id = request.parent) :
    ∃ t stored response, clientAddNode request doc = .ok response t ∧
      Packed pageSize (putSlots pageSize store (encodeNode stored)) t ∧
      nodesOf (putSlots pageSize store (encodeNode stored)) =
        nodesOf store ++ [⟨putId pageSize store sizeofNode, request.parent, request.value⟩] ∧
      convertFromRpcNodeId response.id = .ok (putId pageSize store sizeofNode) := by
  obtain ⟨message, hto, hfrom⟩ := Convertible.to_rpc ⟨⟨.string, .stringValue text⟩, hvalue⟩
  obtain ⟨t, stored, response, hrun, ht, hnodes, hsent, hresponse⟩ := createPacked h hfrom request.isInt32_pageId
    request.isInt32_itemId hfit hroom hroot hchild
  have htaken := handleCreateResponse_string hresponse hsent (nodeValueStringNew_ok hvalue).2.1
  refine ⟨t, stored, response, ?_, ht, hnodes, hsent.id⟩
  rw [clientAddNode]
  simp only [run_bind, convertToRpcCreateNodeRequest_eq hto, run_lift_ok, andThen_ok, hrun, htaken]

end Adding

end DocumentDb.Client
