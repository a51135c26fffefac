import DocumentDb.Server.Handlers
import DocumentDb.Documents.Growth

namespace DocumentDb.Server

open Storage Program Bytes Documents Rpc

section Filters

variable {pageSize : Nat} {store : List (List Slot)} {doc t : Document} {request : RpcFilterChain}
  {matchers : List NodeMatcher} {nodes : List Node}

theorem fsNewNodeMatcherArray_length (h : fsNewNodeMatcherArray request = .ok matchers) :
    matchers.length = request.filters.length ∧ ∀ matcher ∈ matchers, matcher.conditions.length = 1 := by
  rw [fsNewNodeMatcherArray] at h
  cases hconditions : request.filters.mapM filterCondition with
  | error e => rw [hconditions] at h; cases h
  | ok conditions =>
      rw [hconditions] at h
      cases h
      refine ⟨?_, fun matcher hmatcher => ?_⟩
      · rw [nodeMatcherArrayNew, List.length_map, (mapM_eq_ok.mp hconditions).length_eq]
      · obtain ⟨condition, _, rfl⟩ := List.mem_map.mp hmatcher
        rfl

theorem selected_subset (matchers : List NodeMatcher) (parentId : NodeId) :
    selected nodes matchers parentId ⊆ nodes := by
  induction matchers generalizing parentId with
  | nil => exact List.nil_subset _
  | cons matcher matchers ih =>
      rw [selected]
      cases hlevel : level nodes matcher parentId with
      | nil => exact List.nil_subset _
      | cons first rest =>
          dsimp only
          split
          · rw [← hlevel]
            exact List.filter_subset_self _
          · exact ih first.id

/-- A request for nodes that returns answers with what its matchers select. -/
theorem getNodesByFilterRequest_ok {response : RpcNodes} (h : Holds pageSize store doc)
    (hrun : getNodesByFilterRequest request doc = .ok response t) :
    Holds pageSize store t ∧ ∃ matchers, fsNewNodeMatcherArray request = .ok matchers ∧
      Evaluable (nodesOf store) matchers nullNodeId ∧
      convertToRpcNodes (selected (nodesOf store) matchers nullNodeId) = .ok response := by
  obtain ⟨matchers, n, left, s, hmatchers, hcount, hrest⟩ := getNodesByFilterRequest_run hrun
  obtain ⟨h1, heval, rfl, hn⟩ := h.countSequence_ok hcount
  rcases hrest with ⟨hzero, rfl, rfl⟩ | ⟨hpos, res, left', hget, hconvert⟩
  · rw [hzero] at hn
    exact ⟨h1, matchers, hmatchers, heval, by rw [List.length_eq_zero_iff.mp hn.symm]; rfl⟩
  · obtain ⟨h2, hres⟩ := h1.getSequence_ok hget
    rw [selected_leftBehind] at hres
    exact ⟨h2, matchers, hmatchers, heval, hconvert _ (hres fun hnil => hpos (by rw [hn, hnil]; rfl))⟩

/-- A request for nodes returns when no deleted slot and no matcher is in its way and
all values can be sent. -/
theorem getNodesByFilterRequest_clean (h : Holds pageSize store doc) (hclean : Clean (visits store))
    (hmatchers : fsNewNodeMatcherArray request = .ok matchers)
    (heval : Evaluable (nodesOf store) matchers nullNodeId)
    (hconvert : ∃ response, convertToRpcNodes (selected (nodesOf store) matchers nullNodeId) = .ok response) :
    ∃ response t, getNodesByFilterRequest request doc = .ok response t := by
  have hone := (fsNewNodeMatcherArray_length hmatchers).2
  have hroom : ∀ matcher ∈ matchers, matcher.conditions.length ≤ 1 := fun m hm => (hone m hm).le
  obtain ⟨s1, hcount, h1⟩ := h.countSequence_clean hclean heval fun m hm => (hroom m hm).trans (by decide)
  obtain ⟨response, hresponse⟩ := hconvert
  rw [getNodesByFilterRequest]
  rw [hmatchers]
  simp only [run_bind, run_lift_ok, andThen_ok, hcount]
  by_cases hzero : (selected (nodesOf store) matchers nullNodeId).length = 0
  · rw [if_pos hzero]
    exact ⟨_, _, run_pure _ _⟩
  · rw [if_neg hzero]
    have hsome : selected (nodesOf store) matchers nullNodeId ≠ [] := fun hnil => hzero (by rw [hnil]; rfl)
    obtain ⟨s2, hget, _⟩ := h1.getSequence_clean hclean (evaluable_leftBehind heval)
      (fun m hm => (leftBehind_length_le hroom nullNodeId m hm).trans (by decide))
      (by rw [selected_leftBehind]; exact hsome)
    rw [selected_leftBehind] at hget
    exact ⟨response, s2, by simp only [run_bind, hget, andThen_ok, hresponse, run_lift_ok]⟩

end Filters

section Deleting

variable {pageSize : Nat} {store : List (List Slot)} {doc t : Document} {fuel : Nat} {tmpCounts : Nat → Int}
  {messages : List RpcNode} {nodes : List Node}

theorem deleteNodesLoop_ok {u : Unit} (h : Holds pageSize store doc)
    (hnames : List.Forall₂ (fun message node => convertFromRpcNodeId message.id = .ok node.id) messages nodes)
    (hrun : deleteNodesLoop fuel tmpCounts messages doc = .ok u t) (count : Int) :
    ∃ count', Deletes pageSize store (fun k => ∃ c ∈ nodes, Below (nodesOf store) c.id k) count count' t := by
  induction hnames generalizing store doc tmpCounts count with
  | nil =>
      rw [deleteNodesLoop, run_pure] at hrun
      cases hrun
      exact ⟨count, h.deletes_nil count⟩
  | @cons message node messages nodes hname _ ih =>
      rw [deleteNodesLoop] at hrun
      obtain ⟨id, s, hlift, hrest⟩ := bind_eq_ok.mp hrun
      obtain ⟨hid, rfl⟩ := lift_eq_ok.mp hlift
      rw [hname] at hid
      cases hid
      obtain ⟨⟨res, count1⟩, s1, hone, hrest⟩ := bind_eq_ok.mp hrest
      obtain ⟨rfl, store1, h1, hnodes1, hcount1⟩ := deleteNodeWithAllDescendants_ok h hone
      obtain ⟨_, s2, habort, hrest⟩ := bind_eq_ok.mp hrest
      simp only [run_abortIfFail_ok] at habort
      cases habort
      obtain ⟨count', hdeletes⟩ :=
        ih h1 hrest (count + (nodesOf store).length - (nodesOf store1).length)
      exact ⟨count', Deletes.cons hnodes1 (by omega) hdeletes⟩

end Deleting

section Reachable

variable {pageSize : Nat} {store : List (List Slot)} {doc t : Document} {node : Node}

/-- The documents of a server that has been started with a new file and has answered
requests, as long as the file stays below `2 ^ 32` bytes. -/
inductive ServerReachable (pageSize : Nat) : Document → Prop
  | start {u t} : sizeofFileHeader + toUInt32 pageSize < 2 ^ 32 →
      serverInitDocument pageSize (documentNew (fileOpen none noFaults)) = .ok u t → ServerReachable pageSize t
  | createNode {s request response t} : ServerReachable pageSize s →
      handleCreateNodeRequest request s = .ok response t → FileBelow t.pageManager → ServerReachable pageSize t
  | updateNode {s request response t} : ServerReachable pageSize s →
      handleUpdateNodeRequest request s = .ok response t → FileBelow t.pageManager → ServerReachable pageSize t
  | deleteNode {s request response t} : ServerReachable pageSize s →
      handleDeleteNodeRequest request s = .ok response t → ServerReachable pageSize t
  | getNodesByFilter {s request response t} : ServerReachable pageSize s →
      handleGetNodesByFilterRequest request s = .ok response t → ServerReachable pageSize t
  | deleteNodesByFilter {s fuel tmpCounts request response t} : ServerReachable pageSize s →
      handleDeleteNodesByFilterRequest fuel tmpCounts request s = .ok response t → ServerReachable pageSize t

theorem reachable_call {store' : List (List Slot)} (h : ReachableDocument pageSize doc)
    (hcall : DocumentCall doc t) (ht : Holds (toUInt32 pageSize) store' t) : ReachableDocument pageSize t :=
  h.call hcall ht.below

theorem reachable_getNodesByFilter {request : RpcFilterChain} {response : RpcNodes}
    (h : ReachableDocument pageSize doc) (hrun : getNodesByFilterRequest request doc = .ok response t) :
    ReachableDocument pageSize t := by
  obtain ⟨store, hs, _⟩ := h.tree
  obtain ⟨matchers, n, left, s, _, hcount, hrest⟩ := getNodesByFilterRequest_run hrun
  obtain ⟨h1, _⟩ := hs.countSequence_ok hcount
  have hr1 := reachable_call h (.countSequence hcount) h1
  rcases hrest with ⟨_, _, rfl⟩ | ⟨_, res, left', hget, _⟩
  · exact hr1
  · exact reachable_call hr1 (.getSequence hget) (h1.getSequence_ok hget).1

theorem reachable_deleteNodesLoop {fuel : Nat} {tmpCounts : Nat → Int} {messages : List RpcNode} {u : Unit}
    (h : ReachableDocument pageSize doc) (hrun : deleteNodesLoop fuel tmpCounts messages doc = .ok u t) :
    ReachableDocument pageSize t := by
  induction messages generalizing doc tmpCounts with
  | nil =>
      rw [deleteNodesLoop, run_pure] at hrun
      cases hrun
      exact h
  | cons message messages ih =>
      rw [deleteNodesLoop] at hrun
      obtain ⟨id, s, hlift, hrest⟩ := bind_eq_ok.mp hrun
      obtain ⟨_, rfl⟩ := lift_eq_ok.mp hlift
      obtain ⟨⟨res, count⟩, s1, hone, hrest⟩ := bind_eq_ok.mp hrest
      obtain ⟨store, hs, _⟩ := h.tree
      obtain ⟨rfl, _, h1, _⟩ := deleteNodeWithAllDescendants_ok hs hone
      obtain ⟨_, s2, habort, hrest⟩ := bind_eq_ok.mp hrest
      simp only [run_abortIfFail_ok] at habort
      cases habort
      exact ih (reachable_call h (.deleteNodeWithAllDescendants hone) h1) hrest

theorem reachable_deleteNodesByFilter {fuel : Nat} {tmpCounts : Nat → Int} {request : RpcFilterChain}
    {response : RpcDeletedNodes} (h : ReachableDocument pageSize doc)
    (hrun : handleDeleteNodesByFilterRequest fuel tmpCounts request doc = .ok response t) :
    ReachableDocument pageSize t := by
  rw [handleDeleteNodesByFilterRequest] at hrun
  obtain ⟨messages, s, hget, hrest⟩ := bind_eq_ok.mp hrun
  have hr := reachable_getNodesByFilter h hget
  by_cases hzero : messages.nodes.length = 0
  · rw [if_pos hzero, run_pure] at hrest
    cases hrest
    exact hr
  · rw [if_neg hzero] at hrest
    obtain ⟨_, s1, hloop, hrest⟩ := bind_eq_ok.mp hrest
    rw [run_pure] at hrest
    cases hrest
    exact reachable_deleteNodesLoop hr hloop

theorem ServerReachable.document (h : ServerReachable pageSize doc) : ReachableDocument pageSize doc := by
  induction h with
  | start hsmall hrun =>
      rw [serverInitDocument] at hrun
      obtain ⟨res, s, hinit, habort⟩ := bind_eq_ok.mp hrun
      obtain ⟨_, rfl⟩ := abortIfFail_eq_ok.mp habort
      exact .init hsmall hinit
  | createNode _ hrun hbelow ih =>
      obtain ⟨_, _, _, _, hadd, _⟩ := handleCreateNodeRequest_ok hrun
      exact ih.call (.addNode hadd) hbelow
  | updateNode _ hrun hbelow ih =>
      obtain ⟨_, _, _, hupdate, _⟩ := handleUpdateNodeRequest_ok hrun
      exact ih.call (.updateNode hupdate) hbelow
  | deleteNode _ hrun => exact absurd hrun (handleDeleteNodeRequest_ne_ok _)
  | getNodesByFilter _ hrun ih => exact reachable_getNodesByFilter ih hrun
  | deleteNodesByFilter _ hrun ih => exact reachable_deleteNodesByFilter ih hrun

theorem idsFit (h : Holds pageSize store doc) (hnode : node ∈ nodesOf store) : IdsFit node := by
  obtain ⟨item, hitem, rfl⟩ := List.mem_map.mp hnode
  obtain ⟨k, i, slots, slot, hid, hk, hi, _⟩ := liveBytes_some (mem_liveItems.mp hitem).1
  obtain ⟨hpage, hslots⟩ := h.stores.numbers_lt hk
  have hlt := (List.getElem?_eq_some_iff.mp hi).1
  have hnodeId : (nodeOfItem item).id = ⟨k, i⟩ := (nodeOfItem_id item).trans hid
  refine ⟨?_, ?_, isInt32_decodeInt32 _, isInt32_decodeInt32 _⟩
  · rw [hnodeId]
    exact isInt32_natCast hpage
  · rw [hnodeId]
    exact isInt32_natCast (by omega)

theorem handleCreateNodeRequest_nodes {request : RpcCreateNodeRequest} {response : RpcNode}
    (h : Holds pageSize store doc) (hrun : handleCreateNodeRequest request doc = .ok response t)
    (hbelow : FileBelow t.pageManager) :
    ∃ nodeRequest node store', convertFromRpcCreateNodeRequest request = .ok nodeRequest ∧
      convertToRpcNode node = .ok response ∧ Holds pageSize store' t ∧
      node.parentId = nodeRequest.parent ∧ node.value = nodeRequest.value ∧
      ((nodesOf store' = nodesOf store ∧ node.id = ⟨0, 0⟩ ∧
          (nodeRequest.parent = nullNodeId → ∃ root ∈ nodesOf store, root.id = rootNodeId) ∧
          (nodeRequest.parent ≠ nullNodeId → ∀ other ∈ nodesOf store, other.id ≠ nodeRequest.parent)) ∨
        (nodesOf store' = nodesOf store ++ [node] ∧
          (nodeRequest.parent = nullNodeId → ∀ other ∈ nodesOf store, other.id ≠ rootNodeId) ∧
          (nodeRequest.parent ≠ nullNodeId → ∃ parent ∈ nodesOf store, parent.id = nodeRequest.parent) ∧
          ∀ other ∈ nodesOf store, Before other.id node.id)) := by
  obtain ⟨nodeRequest, res, node, hrequest, hadd, hresponse⟩ := handleCreateNodeRequest_ok hrun
  obtain ⟨_, ht, rfl, hroot, hchild⟩ | ⟨_, hroot, hchild, rfl, stored, hparent, hvalue, ht⟩ :=
    h.addNode_ok hadd hbelow
  · exact ⟨nodeRequest, _, store, hrequest, hresponse, ht, rfl, rfl, Or.inl ⟨rfl, rfl, hroot, hchild⟩⟩
  · refine ⟨nodeRequest, _, _, hrequest, hresponse, ht, rfl, rfl, Or.inr ⟨?_, fun hnull => (hroot hnull).2,
      hchild, fun other hother => before_putId_node _ _ hother⟩⟩
    rw [nodesOf_added h hparent hvalue zeroNode]

/-- What an update request that returns has done to the nodes: the new node is below the
node with the first id. -/
theorem handleUpdateNodeRequest_nodes {request : RpcUpdateNodeRequest} {response : RpcNode}
    (h : Holds pageSize store doc) (hrun : handleUpdateNodeRequest request doc = .ok response t)
    (hbelow : FileBelow t.pageManager) :
    ∃ nodeRequest node store', convertFromRpcUpdateNodeRequest request = .ok nodeRequest ∧
      convertToRpcNode node = .ok response ∧ Holds pageSize store' t ∧
      node.parentId = rootNodeId ∧ node.value = nodeRequest.newValue ∧
      (∃ old ∈ nodesOf store, old.id = nodeRequest.nodeId) ∧
      nodesOf store' = (nodesOf store).filter (fun other => other.id ≠ nodeRequest.nodeId) ++ [node] ∧
      ∀ other ∈ nodesOf store, other.id ≠ nodeRequest.nodeId → Before other.id node.id := by
  obtain ⟨nodeRequest, node, hrequest, hupdate, hresponse⟩ := handleUpdateNodeRequest_ok hrun
  obtain ⟨_, hzero, _⟩ := convertFromRpcUpdateNodeRequest_ok hrequest
  obtain ⟨_, ⟨hbad, _⟩ | ⟨hlive, k, i, hki, s, res, hs, hadd, hiff⟩⟩ := h.updateNode_ok hupdate
  · exact absurd rfl hbad
  · rcases hs.addNode_ok hadd hbelow with ⟨hbad, _⟩ | ⟨_, _, _, rfl, stored, hparent, hvalue, ht⟩
    · exact absurd (hiff.mp rfl) hbad
    · refine ⟨nodeRequest, _, _, hrequest, hresponse, ht, hzero, rfl, hlive, ?_, fun other hother hne => ?_⟩
      · rw [nodesOf_added hs hparent hvalue zeroNode, nodesOf_deleteAt, hki]
      · refine before_putId_node _ _ ?_
        rw [nodesOf_deleteAt, List.mem_filter, decide_eq_true_eq, ← hki]
        exact ⟨hother, hne⟩

theorem handleDeleteNodesByFilterRequest_nodes {fuel : Nat} {tmpCounts : Nat → Int} {request : RpcFilterChain}
    {response : RpcDeletedNodes} (h : Holds pageSize store doc)
    (hrun : handleDeleteNodesByFilterRequest fuel tmpCounts request doc = .ok response t) :
    ∃ matchers messages s store', fsNewNodeMatcherArray request = .ok matchers ∧
      Evaluable (nodesOf store) matchers nullNodeId ∧
      getNodesByFilterRequest request doc = .ok messages s ∧
      convertToRpcNodes (selected (nodesOf store) matchers nullNodeId) = .ok messages ∧
      response.count = messages.nodes.length ∧ Holds pageSize store' t ∧
      ∀ node, node ∈ nodesOf store' ↔ node ∈ nodesOf store ∧
        ¬∃ c ∈ selected (nodesOf store) matchers nullNodeId, Below (nodesOf store) c.id node.id := by
  rw [handleDeleteNodesByFilterRequest] at hrun
  obtain ⟨messages, s, hget, hrest⟩ := bind_eq_ok.mp hrun
  obtain ⟨h1, matchers, hmatchers, heval, hconvert⟩ := getNodesByFilterRequest_ok h hget
  have hsent := convertToRpcNodes_eq_ok.mp hconvert
  by_cases hzero : messages.nodes.length = 0
  · rw [if_pos hzero, run_pure] at hrest
    cases hrest
    refine ⟨matchers, messages, t, store, hmatchers, heval, hget, hconvert, by rw [hzero]; rfl, h1,
      fun node => ?_⟩
    rw [List.length_eq_zero_iff.mp (hsent.length_eq.trans hzero)]
    simp
  · rw [if_neg hzero] at hrest
    obtain ⟨_, s1, hloop, hrest⟩ := bind_eq_ok.mp hrest
    rw [run_pure] at hrest
    cases hrest
    have hnames := convertToRpcNodes_ids hconvert fun node hnode =>
      idsFit h (selected_subset matchers nullNodeId hnode)
    obtain ⟨_, store', ht, hnodes, _⟩ := deleteNodesLoop_ok h1 hnames hloop 0
    exact ⟨matchers, messages, s, store', hmatchers, heval, hget, hconvert, rfl, ht, hnodes⟩

/-- All values of a server's document have come out of requests. -/
theorem ServerReachable.convertible (h : ServerReachable pageSize doc) :
    ∀ node ∈ liveNodes doc, Convertible node.value := by
  induction h with
  | start hsmall hrun =>
      rw [serverInitDocument] at hrun
      obtain ⟨res, s, hinit, habort⟩ := bind_eq_ok.mp hrun
      obtain ⟨_, rfl⟩ := abortIfFail_eq_ok.mp habort
      rw [(documentInit_new_ok hsmall hinit).2.liveNodes_eq, nodesOf_fresh]
      simp
  | createNode hs hrun hbelow ih =>
      obtain ⟨store, hstore, _⟩ := hs.document.tree
      rw [hstore.liveNodes_eq] at ih
      obtain ⟨nodeRequest, node, store', hrequest, _, ht, _, hvalue, hnodes⟩ :=
        handleCreateNodeRequest_nodes hstore hrun hbelow
      rw [ht.liveNodes_eq]
      rcases hnodes with ⟨hsame, _⟩ | ⟨hadded, _⟩
      · rw [hsame]
        exact ih
      · rw [hadded]
        refine List.forall_mem_append.mpr ⟨ih, List.forall_mem_singleton.mpr ?_⟩
        obtain ⟨_, message, _, hmessage⟩ := convertFromRpcCreateNodeRequest_ok hrequest
        exact ⟨message, by rw [hvalue]; exact hmessage⟩
  | updateNode hs hrun hbelow ih =>
      obtain ⟨store, hstore, _⟩ := hs.document.tree
      rw [hstore.liveNodes_eq] at ih
      obtain ⟨nodeRequest, node, store', hrequest, _, ht, _, hvalue, _, hnodes, _⟩ :=
        handleUpdateNodeRequest_nodes hstore hrun hbelow
      rw [ht.liveNodes_eq, hnodes]
      refine List.forall_mem_append.mpr ⟨fun other hother => ih other (List.mem_of_mem_filter hother),
        List.forall_mem_singleton.mpr ?_⟩
      obtain ⟨_, _, message, _, hmessage⟩ := convertFromRpcUpdateNodeRequest_ok hrequest
      exact ⟨message, by rw [hvalue]; exact hmessage⟩
  | deleteNode _ hrun => exact absurd hrun (handleDeleteNodeRequest_ne_ok _)
  | getNodesByFilter hs hrun ih =>
      obtain ⟨store, hstore, _⟩ := hs.document.tree
      rw [(getNodesByFilterRequest_ok hstore hrun).1.liveNodes_eq, ← hstore.liveNodes_eq]
      exact ih
  | deleteNodesByFilter hs hrun ih =>
      obtain ⟨store, hstore, _⟩ := hs.document.tree
      rw [hstore.liveNodes_eq] at ih
      obtain ⟨_, _, _, store', _, _, _, _, _, ht, hnodes⟩ :=
        handleDeleteNodesByFilterRequest_nodes hstore hrun
      rw [ht.liveNodes_eq]
      exact fun node hnode => ih node ((hnodes node).mp hnode).1

end Reachable

section Beginnings

variable {pageSize : Nat} {doc : Document} {slots : List Slot} {parent : NodeId} {message : RpcNodeValue}
  {value : NodeValue}

theorem serverInitDocument_new (hmin : sizeofPageHeader ≤ pageSize) (hsmall : sizeofFileHeader + pageSize < 2 ^ 32) :
    ∃ t, serverInitDocument pageSize (documentNew (fileOpen none noFaults)) = .ok () t ∧
      Packed pageSize [[]] t := by
  obtain ⟨t, hinit, _, ht⟩ := Packed.new hmin hsmall
  refine ⟨t, ?_, ht⟩
  rw [serverInitDocument]
  simp only [run_bind, hinit, andThen_ok, run_abortIfFail_ok]

theorem exists_started (hmin : sizeofPageHeader ≤ pageSize) (hsmall : sizeofFileHeader + pageSize < 2 ^ 32) :
    ∃ t, ServerReachable pageSize t ∧ Packed pageSize [[]] t := by
  have hsize : toUInt32 pageSize = pageSize := toUInt32_of_lt (by omega)
  obtain ⟨t, hrun, ht⟩ := serverInitDocument_new hmin hsmall
  exact ⟨t, .start (by rw [hsize]; exact hsmall) hrun, ht⟩

theorem createPacked {store : List (List Slot)} (h : Packed pageSize store doc)
    (hvalue : convertFromRpcNodeValue message = .ok value)
    (hpage : IsInt32 parent.pageId) (hitem : IsInt32 parent.itemId)
    (hfit : sizeofNode + sizeofPageHeader + sizeofItemMetadata ≤ pageSize)
    (hroom : ¬HasPlace pageSize store sizeofNode → sizeofFileHeader + (store.length + 1) * pageSize < 2 ^ 32)
    (hroot : parent = nullNodeId → ∀ node ∈ nodesOf store, node.id ≠ rootNodeId)
    (hchild : parent ≠ nullNodeId → ∃ node ∈ nodesOf store, node.id = parent) :
    ∃ t stored response, handleCreateNodeRequest ⟨some message, some (convertNodeIdToRpc parent)⟩ doc =
        .ok response t ∧ Packed pageSize (putSlots pageSize store (encodeNode stored)) t ∧
      nodesOf (putSlots pageSize store (encodeNode stored)) =
        nodesOf store ++ [⟨putId pageSize store sizeofNode, parent, value⟩] ∧
      SentAs ⟨putId pageSize store sizeofNode, parent, value⟩ response ∧
      convertToRpcNode ⟨putId pageSize store sizeofNode, parent, value⟩ = .ok response := by
  have hparent := convertFromRpcNodeId_convertNodeIdToRpc hpage hitem
  have hrequest := convertFromRpcCreateNodeRequest_eq hparent hvalue
  have hconvertible : Convertible value := ⟨message, hvalue⟩
  obtain ⟨t, stored, hrun, ht, hnodes⟩ := h.add ⟨parent, value, hpage, hitem⟩ zeroNode hfit hroom hroot hchild
  have hids : IdsFit ⟨putId pageSize store sizeofNode, parent, value⟩ :=
    idsFit ht.holds (by rw [hnodes]; exact List.mem_append_right _ List.mem_cons_self)
  obtain ⟨response, hresponse, hsent⟩ := Convertible.toRpcNode hconvertible hids
  exact ⟨t, stored, response, handleCreateNodeRequest_eq hrequest hrun hresponse, ht, hnodes, hsent, hresponse⟩

theorem createOnPage (h : Packed pageSize [slots] doc) (hvalue : convertFromRpcNodeValue message = .ok value)
    (hpage : IsInt32 parent.pageId) (hitem : IsInt32 parent.itemId)
    (hfit : sizeofPageHeader + (sizeofItemMetadata + sizeofNode) * (slots.length + 1) ≤ pageSize)
    (hroom : sizeofFileHeader + 2 * pageSize < 2 ^ 32)
    (hroot : parent = nullNodeId → ∀ node ∈ nodesOf [slots], node.id ≠ rootNodeId)
    (hchild : parent ≠ nullNodeId → ∃ node ∈ nodesOf [slots], node.id = parent) :
    ∃ t slot response, handleCreateNodeRequest ⟨some message, some (convertNodeIdToRpc parent)⟩ doc =
        .ok response t ∧ Packed pageSize [slots ++ [slot]] t ∧
      nodesOf [slots ++ [slot]] = nodesOf [slots] ++ [⟨⟨0, slots.length⟩, parent, value⟩] ∧
      SentAs ⟨⟨0, slots.length⟩, parent, value⟩ response ∧
      convertToRpcNode ⟨⟨0, slots.length⟩, parent, value⟩ = .ok response := by
  obtain ⟨t, stored, response, hrun, ht, hnodes, hsent, hresponse⟩ :=
    createPacked h hvalue hpage hitem (node_fits_of_more hfit) (fun _ => hroom) hroot hchild
  obtain ⟨hput, hid⟩ := putSlots_onePage h.holds.nodes (by omega) hfit stored
  rw [hid] at hnodes hsent hresponse
  rw [hput] at ht hnodes
  exact ⟨t, _, response, hrun, ht, hnodes, hsent, hresponse⟩

theorem exists_serverRoot (hvalue : convertFromRpcNodeValue message = .ok value) :
    ∃ doc slots, ServerReachable 4096 doc ∧ Packed 4096 [slots] doc ∧ slots.length = 1 ∧
      nodesOf [slots] = [⟨rootNodeId, nullNodeId, value⟩] := by
  obtain ⟨s, hr, hs⟩ := exists_started (show sizeofPageHeader ≤ 4096 by decide) (by decide)
  obtain ⟨t, slot, response, hrun, ht, hnodes, _⟩ := createOnPage hs hvalue isInt32_nullNodeId_pageId
    isInt32_nullNodeId_itemId (show 28 + 298 * 1 ≤ 4096 by decide) (show 20 + 2 * 4096 < 2 ^ 32 by decide)
    (by simp [nodesOf_fresh]) fun hne => absurd rfl hne
  rw [nodesOf_fresh] at hnodes
  exact ⟨t, _, hr.createNode hrun ht.holds.below, ht, rfl, hnodes⟩

theorem createLeaf (hr : ServerReachable 4096 doc) (h : Packed 4096 [slots] doc)
    (hvalue : convertFromRpcNodeValue message = .ok value) (hlive : ∃ node ∈ nodesOf [slots], node.id = parent)
    (hfit : sizeofPageHeader + (sizeofItemMetadata + sizeofNode) * (slots.length + 1) ≤ 4096) :
    ∃ t slot, ServerReachable 4096 t ∧ Packed 4096 [slots ++ [slot]] t ∧
      nodesOf [slots ++ [slot]] = nodesOf [slots] ++ [⟨⟨0, slots.length⟩, parent, value⟩] := by
  obtain ⟨node, hnode, rfl⟩ := hlive
  have hids := idsFit h.holds hnode
  obtain ⟨t, slot, response, hrun, ht, hnodes, _⟩ := createOnPage h hvalue hids.id_pageId hids.id_itemId hfit
    (show 20 + 2 * 4096 < 2 ^ 32 by decide) (fun hnull => absurd hnull (id_ne_null hnode))
    fun _ => ⟨node, hnode, rfl⟩
  exact ⟨t, slot, hr.createNode hrun ht.holds.below, ht, hnodes⟩

def oneChar (id parentId : NodeId) (char : UInt8) : Node :=
  ⟨id, parentId, nodeValueOfBytes .string (encodeUInt32 1 ++ [char])⟩

theorem oneChar_received {char : UInt8} (h : char ≠ 0) (id parentId : NodeId) :
    convertFromRpcNodeValue ⟨.string, .stringValue [char]⟩ = .ok (oneChar id parentId char).value := by
  have hself : cString [char] = [char] := cString_eq_self (by simpa using h.symm)
  change nodeValueStringNew [char] = _
  rw [nodeValueStringNew, hself, if_neg (by rw [List.length_singleton]; decide)]
  rfl

def family : List Node :=
  [oneChar rootNodeId nullNodeId 97, oneChar ⟨0, 1⟩ rootNodeId 98, oneChar ⟨0, 2⟩ rootNodeId 99,
    oneChar ⟨0, 3⟩ ⟨0, 2⟩ 100]

theorem exists_family :
    ∃ doc slots, ServerReachable 4096 doc ∧ Packed 4096 [slots] doc ∧ slots.length = 4 ∧ nodesOf [slots] = family := by
  obtain ⟨d1, s1, r1, h1, l1, e1⟩ :=
    exists_serverRoot (oneChar_received (show (97 : UInt8) ≠ 0 by decide) rootNodeId nullNodeId)
  have hroot : ∀ rest : List Node, ∃ node ∈ oneChar rootNodeId nullNodeId 97 :: rest, node.id = rootNodeId :=
    fun rest => ⟨_, List.mem_cons_self, rfl⟩
  obtain ⟨d2, s2, r2, h2, e2⟩ := createLeaf r1 h1
    (oneChar_received (show (98 : UInt8) ≠ 0 by decide) ⟨0, 1⟩ rootNodeId) (by rw [e1]; exact hroot _)
    (by rw [l1]; decide)
  have l2 : (s1 ++ [s2]).length = 2 := by rw [List.length_append, l1]; rfl
  rw [e1, l1] at e2
  obtain ⟨d3, s3, r3, h3, e3⟩ := createLeaf r2 h2
    (oneChar_received (show (99 : UInt8) ≠ 0 by decide) ⟨0, 2⟩ rootNodeId) (by rw [e2]; exact hroot _)
    (by rw [l2]; decide)
  have l3 : (s1 ++ [s2] ++ [s3]).length = 3 := by rw [List.length_append, l2]; rfl
  rw [e2, l2] at e3
  obtain ⟨d4, s4, r4, h4, e4⟩ := createLeaf r3 h3
    (oneChar_received (show (100 : UInt8) ≠ 0 by decide) ⟨0, 3⟩ ⟨0, 2⟩)
    ⟨oneChar ⟨0, 2⟩ rootNodeId 99, by rw [e3]; exact List.mem_append_right _ List.mem_cons_self, rfl⟩
    (by rw [l3]; decide)
  rw [e3, l3] at e4
  exact ⟨d4, _, r4, h4, by rw [List.length_append, l3]; rfl, e4⟩

end Beginnings

end DocumentDb.Server
