import DocumentDb.Client.Requests

namespace DocumentDb.Client

open Storage Program Bytes Documents Rpc Server

section Interleaving

variable {pageSize : Nat} {doc s t : Document} {id : NodeId} {added : List Node} {removed : Prop} {first : Node}

def Live (id : NodeId) (doc : Document) : Prop := ∃ node ∈ liveNodes doc, node.id = id

/-- Requests of other clients that the server answers one after the other: the nodes that
they add, and whether one of them takes away the node with some id. -/
inductive Between (pageSize : Nat) (id : NodeId) (doc : Document) : Document → List Node → Prop → Prop
  | refl : Between pageSize id doc doc [] False
  | createNode {s added removed request response t new} : Between pageSize id doc s added removed →
      handleCreateNodeRequest request s = .ok response t → FileBelow t.pageManager →
      liveNodes t = liveNodes s ++ new → Between pageSize id doc t (added ++ new) removed
  | deleteNodesByFilter {s added removed fuel tmpCounts request response t} :
      Between pageSize id doc s added removed →
      handleDeleteNodesByFilterRequest fuel tmpCounts request s = .ok response t →
      Between pageSize id doc t added (removed ∨ (Live id s ∧ ¬Live id t))
  | getNodesByFilter {s added removed request response t} : Between pageSize id doc s added removed →
      handleGetNodesByFilterRequest request s = .ok response t → Between pageSize id doc t added removed

theorem Between.reachable (h : ServerReachable pageSize doc) (hbetween : Between pageSize id doc s added removed) :
    ServerReachable pageSize s := by
  induction hbetween with
  | refl => exact h
  | createNode _ hrun hbelow _ ih => exact ih.createNode hrun hbelow
  | deleteNodesByFilter _ hrun ih => exact ih.deleteNodesByFilter hrun
  | getNodesByFilter _ hrun ih => exact ih.getNodesByFilter hrun

theorem liveNodes_getNodesByFilter {request : RpcFilterChain} {response : RpcNodes} (h : ServerReachable pageSize s)
    (hrun : handleGetNodesByFilterRequest request s = .ok response t) : liveNodes t = liveNodes s := by
  obtain ⟨store, hs, _⟩ := h.document.tree
  obtain ⟨ht, _⟩ := getNodesByFilterRequest_ok hs hrun
  rw [ht.liveNodes_eq, hs.liveNodes_eq]

theorem fresh_of_createNode {request : RpcCreateNodeRequest} {response : RpcNode} {new : List Node}
    (h : ServerReachable pageSize s) (hrun : handleCreateNodeRequest request s = .ok response t)
    (hbelow : FileBelow t.pageManager) (hnew : liveNodes t = liveNodes s ++ new) :
    ∀ node ∈ new, ∀ other ∈ liveNodes s, other.id ≠ node.id := by
  obtain ⟨store, hs, _⟩ := h.document.tree
  obtain ⟨_, node, store', _, _, ht, _, _, hcase⟩ := handleCreateNodeRequest_nodes hs hrun hbelow
  rw [ht.liveNodes_eq, hs.liveNodes_eq] at hnew
  rw [hs.liveNodes_eq]
  rcases hcase with ⟨hsame, _⟩ | ⟨hadded, _, _, hfresh⟩
  · rw [hsame, List.self_eq_append_right] at hnew
    simp [hnew]
  · rw [hadded, List.append_cancel_left_eq] at hnew
    subst hnew
    intro new hnew other hother
    obtain rfl := List.mem_singleton.mp hnew
    exact (hfresh other hother).ne

/-- As long as the node with the id has not been taken away it is the only one with that
id, and from then on such a node is one that has been added. -/
theorem Between.identity (h : ServerReachable pageSize doc) (hfirst : first ∈ liveNodes doc)
    (hbetween : Between pageSize first.id doc s added removed) :
    (¬removed → first ∈ liveNodes s ∧ ∀ node ∈ added, node.id ≠ first.id) ∧
      (removed → ∀ node ∈ liveNodes s, node.id = first.id → node ∈ added) := by
  induction hbetween with
  | refl => exact ⟨fun _ => ⟨hfirst, List.forall_mem_nil _⟩, False.elim⟩
  | @createNode s added removed request response t new hbefore hrun hbelow hnew ih =>
      have hfresh := fresh_of_createNode (hbefore.reachable h) hrun hbelow hnew
      rw [hnew]
      refine ⟨fun hkept => ?_, fun hremoved node hnode hid => ?_⟩
      · obtain ⟨hlive, hother⟩ := ih.1 hkept
        refine ⟨List.mem_append_left _ hlive, List.forall_mem_append.mpr ⟨hother, fun node hnode => ?_⟩⟩
        exact (hfresh node hnode first hlive).symm
      · rw [List.mem_append] at hnode ⊢
        exact hnode.imp (fun hnode => ih.2 hremoved node hnode hid) fun hnode => hnode
  | @deleteNodesByFilter s added removed fuel tmpCounts request response t hbefore hrun ih =>
      obtain ⟨store, hs, _⟩ := (hbefore.reachable h).document.tree
      obtain ⟨_, _, _, store', _, _, _, _, _, ht, hnodes⟩ := handleDeleteNodesByFilterRequest_nodes hs hrun
      have hsubset : ∀ node ∈ liveNodes t, node ∈ liveNodes s := by
        rw [ht.liveNodes_eq, hs.liveNodes_eq]
        exact fun node hnode => ((hnodes node).mp hnode).1
      refine ⟨fun hkept => ?_, fun hremoved node hnode hid => ?_⟩
      · rw [not_or, not_and_not_right] at hkept
        obtain ⟨hlive, hother⟩ := ih.1 hkept.1
        obtain ⟨node, hnode, hid⟩ := hkept.2 ⟨first, hlive, rfl⟩
        have hsame : node = first := by
          have hnode' := hsubset node hnode
          rw [hs.liveNodes_eq] at hnode' hlive
          exact ids_injective (pairwise_nodesOf store) hnode' hlive hid
        exact ⟨hsame ▸ hnode, hother⟩
      · rcases hremoved with hearlier | ⟨_, hgone⟩
        · exact ih.2 hearlier node (hsubset node hnode) hid
        · exact absurd ⟨node, hnode, hid⟩ hgone
  | getNodesByFilter hbefore hrun ih =>
      rw [liveNodes_getNodesByFilter (hbefore.reachable h) hrun]
      exact ih

theorem first_of_lookup {chain : RpcFilterChain} {found : RpcNodes} {message : RpcNode}
    (h : ServerReachable pageSize doc) (hlookup : handleGetNodesByFilterRequest chain doc = .ok found t)
    (hmessage : message ∈ found.nodes.head?) :
    liveNodes t = liveNodes doc ∧ ∃ first ∈ liveNodes doc, SentAs first message := by
  obtain ⟨store, hs, _⟩ := h.document.tree
  have hvalues := h.convertible
  rw [hs.liveNodes_eq] at hvalues ⊢
  obtain ⟨ht, matchers, _, _, hconvert⟩ := getNodesByFilterRequest_ok hs hlookup
  have hsubset : selected (nodesOf store) matchers nullNodeId ⊆ nodesOf store := selected_subset matchers nullNodeId
  obtain ⟨messages, hmessages, hall⟩ := convertToRpcNodes_convertible
    (fun node hnode => hvalues node (hsubset hnode)) fun node hnode => idsFit hs (hsubset hnode)
  rw [hconvert] at hmessages
  cases hmessages
  obtain ⟨found⟩ := found
  dsimp only at hall hmessage
  refine ⟨ht.liveNodes_eq, ?_⟩
  generalize hselected : selected (nodesOf store) matchers nullNodeId = nodes at hall hsubset
  cases hall with
  | nil => cases hmessage
  | @cons first _ _ _ hsent _ =>
      cases hmessage
      exact ⟨first, hsubset List.mem_cons_self, hsent⟩

/-- A node that is added under the first node of a lookup goes below the live node with its
id: the node of the lookup unless that has been taken away in between, and else one that
has been added since. -/
theorem handleCreateNodeRequest_lookedUp {chain : RpcFilterChain} {found : RpcNodes} {message response : RpcNode}
    {lookedUp : Document} {content : Except Fault (List UInt8)} {request : CreateNodeRequest}
    {query : RpcCreateNodeRequest} {new : Node} (h : ServerReachable pageSize doc)
    (hlookup : handleGetNodesByFilterRequest chain doc = .ok found lookedUp)
    (hmessage : message ∈ found.nodes.head?) (hrequest : createBelow message.id content = .ok request)
    (hbetween : Between pageSize request.parent lookedUp s added removed)
    (hsend : convertToRpcCreateNodeRequest request = .ok query)
    (hcreate : handleCreateNodeRequest query s = .ok response t) (hbelow : FileBelow t.pageManager)
    (hadds : liveNodes t = liveNodes s ++ [new]) :
    ∃ first ∈ liveNodes doc, SentAs first message ∧ new.parentId = first.id ∧
      ∃ parent ∈ liveNodes s, parent.id = first.id ∧
        (¬removed → parent = first ∧ ∀ node ∈ added, node.id ≠ first.id) ∧ (removed → parent ∈ added) := by
  obtain ⟨hsame, first, hfirst, hsent⟩ := first_of_lookup h hlookup hmessage
  have hparentId : request.parent = first.id := by
    have hid := (createBelow_ok hrequest).1
    rw [hsent.id] at hid
    exact (Except.ok.inj hid).symm
  have hlookedUp : ServerReachable pageSize lookedUp := h.getNodesByFilter hlookup
  obtain ⟨store, hs, _⟩ := (hbetween.reachable hlookedUp).document.tree
  rw [hparentId] at hbetween
  obtain ⟨hkept, hremoved⟩ := hbetween.identity hlookedUp (by rw [hsame]; exact hfirst)
  obtain ⟨nodeRequest, node, store', hreceive, _, ht, hparent, _, hcase⟩ :=
    handleCreateNodeRequest_nodes hs hcreate hbelow
  rw [ht.liveNodes_eq, hs.liveNodes_eq] at hadds
  rw [hs.liveNodes_eq] at hkept hremoved ⊢
  rcases hcase with ⟨hrefused, _⟩ | ⟨hadded, _, hlive, _⟩
  · rw [hrefused, List.self_eq_append_right] at hadds
    cases hadds
  · rw [hadded, List.append_cancel_left_eq, List.cons.injEq] at hadds
    obtain ⟨rfl, _⟩ := hadds
    rw [parent_of_sent hsend hreceive, hparentId] at hparent hlive
    have hnotNull : first.id ≠ nullNodeId := by
      obtain ⟨store, hstore, _⟩ := h.document.tree
      rw [hstore.liveNodes_eq] at hfirst
      exact id_ne_null hfirst
    obtain ⟨parent, hmem, hid⟩ := hlive hnotNull
    refine ⟨first, hfirst, hsent, hparent, parent, hmem, hid, fun hnot => ?_, fun hgone => hremoved hgone parent hmem hid⟩
    obtain ⟨hstill, hothers⟩ := hkept hnot
    exact ⟨ids_injective (pairwise_nodesOf store) hmem hstill hid, hothers⟩

end Interleaving

section Reuse

def childPath : RpcFilterChain := ⟨[nameFilter (bytesOf "root"), nameFilter (bytesOf "x")]⟩

theorem answer_childPath {rootValue xValue : NodeValue} {root x : FileRecord}
    (hroot : HasRecord ⟨rootNodeId, nullNodeId, rootValue⟩ root) (hx : HasRecord ⟨⟨0, 1⟩, rootNodeId, xValue⟩ x)
    (hrootName : root.field .name = bytesOf "root") (hxName : x.field .name = bytesOf "x") :
    answer [⟨rootNodeId, nullNodeId, rootValue⟩, ⟨⟨0, 1⟩, rootNodeId, xValue⟩] childPath.filters nullNodeId =
        [⟨⟨0, 1⟩, rootNodeId, xValue⟩] ∧
      Evaluates [⟨rootNodeId, nullNodeId, rootValue⟩, ⟨⟨0, 1⟩, rootNodeId, xValue⟩] childPath.filters
        nullNodeId := by
  have hrootLevel : childrenWith [⟨rootNodeId, nullNodeId, rootValue⟩, ⟨⟨0, 1⟩, rootNodeId, xValue⟩]
      (nameFilter (bytesOf "root")) nullNodeId = [⟨rootNodeId, nullNodeId, rootValue⟩] := by
    simp only [childrenWith, List.filter_cons, (asks_nameFilter _).satisfies_eq hroot,
      (asks_nameFilter _).satisfies_eq hx, hrootName, hxName]
    rfl
  have hxLevel : childrenWith [⟨rootNodeId, nullNodeId, rootValue⟩, ⟨⟨0, 1⟩, rootNodeId, xValue⟩]
      (nameFilter (bytesOf "x")) rootNodeId = [⟨⟨0, 1⟩, rootNodeId, xValue⟩] := by
    simp only [childrenWith, List.filter_cons, (asks_nameFilter _).satisfies_eq hroot,
      (asks_nameFilter _).satisfies_eq hx, hrootName, hxName]
    rfl
  refine ⟨?_, evaluates_of_asks ?_ ?_ nullNodeId⟩
  · rw [childPath, answer_step hrootLevel]
    exact hxLevel
  · exact List.forall_mem_cons.mpr ⟨⟨root, hroot⟩, List.forall_mem_singleton.mpr ⟨x, hx⟩⟩
  · exact List.forall_mem_cons.mpr ⟨⟨_, _, asks_nameFilter _⟩, List.forall_mem_singleton.mpr ⟨_, _, asks_nameFilter _⟩⟩

theorem createRootChild {slots : List Slot} {doc : Document} {message : RpcNodeValue} {rootValue value : NodeValue}
    (hs : Packed 4096 [slots] doc) (hlen : slots.length = 1)
    (hnodes : nodesOf [slots] = [⟨rootNodeId, nullNodeId, rootValue⟩])
    (hvalue : convertFromRpcNodeValue message = .ok value) :
    ∃ t slot response, handleCreateNodeRequest ⟨some message, some (convertNodeIdToRpc rootNodeId)⟩ doc =
        .ok response t ∧ Packed 4096 [slots ++ [slot]] t ∧
      nodesOf [slots ++ [slot]] = [⟨rootNodeId, nullNodeId, rootValue⟩, ⟨⟨0, 1⟩, rootNodeId, value⟩] := by
  obtain ⟨t, slot, response, hrun, ht, hadded, _⟩ := createOnPage hs hvalue isInt32_rootNodeId_pageId
    isInt32_rootNodeId_itemId (by rw [hlen]; exact (show 28 + 298 * 2 ≤ 4096 by decide))
    (show 20 + 2 * 4096 < 2 ^ 32 by decide) (fun hnull => by cases hnull)
    fun _ => ⟨_, by rw [hnodes]; exact List.mem_cons_self, rfl⟩
  rw [hnodes, hlen] at hadded
  exact ⟨t, slot, response, hrun, ht, hadded⟩

/-- Between a lookup and the node that is added below its answer, the node of the answer
is deleted, and another one gets its slot. -/
theorem reuse_run :
    ∃ doc lookedUp s t found message request query response first parent new removed,
      ServerReachable 4096 doc ∧ handleGetNodesByFilterRequest childPath doc = .ok found lookedUp ∧
      message ∈ found.nodes.head? ∧ createBelow message.id (.ok (bytesOf "z")) = .ok request ∧
      Between 4096 request.parent lookedUp s [parent] removed ∧ removed ∧
      convertToRpcCreateNodeRequest request = .ok query ∧
      handleCreateNodeRequest query s = .ok response t ∧ FileBelow t.pageManager ∧
      liveNodes t = liveNodes s ++ [new] ∧
      first ∈ liveNodes doc ∧ SentAs first message ∧ new.parentId = first.id ∧
      first ∉ liveNodes s ∧ parent ∈ liveNodes s ∧ parent.id = first.id := by
  obtain ⟨rootValue, hrootValue, hroot⟩ :=
    exists_recordValue (.named (bytesOf "root") ⟨by decide, by decide, by decide⟩) (by decide)
  obtain ⟨xValue, hxValue, hx⟩ :=
    exists_recordValue (.named (bytesOf "x") ⟨by decide, by decide, by decide⟩) (by decide)
  obtain ⟨yValue, hyValue, hy⟩ :=
    exists_recordValue (.named (bytesOf "y") ⟨by decide, by decide, by decide⟩) (by decide)
  have hdifferent : yValue ≠ xValue := by
    intro hsame
    have htext := (hy rootNodeId nullNodeId).2.symm.trans ((congrArg NodeValue.stringValue hsame).trans
      (hx rootNodeId nullNodeId).2)
    exact absurd (Except.ok.inj htext) (by decide)
  have hfile : 20 + 2 * 4096 < 2 ^ 32 := by decide
  -- a root with a child
  obtain ⟨doc0, slots0, hr0, hs0, hlen0, hnodes0⟩ := exists_serverRoot hrootValue
  obtain ⟨doc, slot, _, hcreate, hs, hnodes⟩ := createRootChild hs0 hlen0 hnodes0 hxValue
  have hr := hr0.createNode hcreate hs.holds.below
  obtain ⟨hanswer, heval⟩ := answer_childPath (hroot rootNodeId nullNodeId) (hx ⟨0, 1⟩ rootNodeId) rfl rfl
  have hconditions : List.Forall₂ (fun filter condition => filterCondition filter = .ok condition)
      childPath.filters [_, _] := .cons (filterCondition_nameFilter _) (.cons (filterCondition_nameFilter _) .nil)
  rw [← hnodes] at hanswer heval
  have hxLive : (⟨⟨0, 1⟩, rootNodeId, xValue⟩ : Node) ∈ nodesOf [slots0 ++ [slot]] := by
    rw [hnodes]
    simp
  -- the lookup, and the request that is made of its answer
  obtain ⟨message, lookedUp, hlookup, hsent, hlookedUp⟩ :=
    getSingleByFilter hs hconditions heval hanswer ⟨_, hxValue⟩ hxLive
  obtain ⟨zValue, hzValue⟩ : ∃ value, nodeValueStringNew (bytesOf "z") = .ok value := ⟨_, rfl⟩
  obtain ⟨request, hrequest, hparent, hvalue⟩ := createBelow_eq hsent.id hzValue
  obtain ⟨value, hto, hfrom⟩ := Convertible.to_rpc ⟨⟨.string, .stringValue (bytesOf "z")⟩, hzValue⟩
  have hsend : convertToRpcCreateNodeRequest request = .ok ⟨some value, some (convertNodeIdToRpc ⟨0, 1⟩)⟩ := by
    rw [convertToRpcCreateNodeRequest_eq (by rw [hvalue]; exact hto), hparent]
  -- the child is deleted, and another one is added
  have hlen : 1 + 1 = (slots0 ++ [slot]).length := by simp [hlen0]
  obtain ⟨u, hdelete, hu⟩ := deleteLeafByFilter hlookedUp hconditions heval hanswer ⟨_, hxValue⟩
    (show [slots0 ++ [slot]][0]? = some (slots0 ++ [slot]) from rfl) hlen rfl hxLive
    (by rw [hnodes]; simp [nullNodeId, rootNodeId]) 1 fun _ => 0
  have hleft : nodesOf (deleteAt [slots0 ++ [slot]] 0 1) = [⟨rootNodeId, nullNodeId, rootValue⟩] := by
    rw [nodesOf_deleteAt, hnodes]
    rfl
  have hpopped : deleteAt [slots0 ++ [slot]] 0 1 = [slots0] := by
    change [deleteSlot (slots0 ++ [slot]) 1] = _
    rw [deleteSlot, if_pos hlen, List.dropLast_concat]
  rw [hpopped] at hu hleft
  obtain ⟨s, slot', _, hcreate', hs', hnodes'⟩ := createRootChild hu hlen0 hleft hyValue
  -- the node of the request is added below that one
  have hyLive : (⟨⟨0, 1⟩, rootNodeId, yValue⟩ : Node) ∈ nodesOf [slots0 ++ [slot']] := by
    rw [hnodes']
    simp
  have hlen' : (slots0 ++ [slot']).length = 2 := by simp [hlen0]
  have hids : IsInt32 (⟨0, 1⟩ : NodeId).pageId ∧ IsInt32 (⟨0, 1⟩ : NodeId).itemId :=
    ⟨⟨by decide, by decide⟩, by decide, by decide⟩
  obtain ⟨t, slot'', response, hrun, ht, hadded, _⟩ := createOnPage hs' hfrom hids.1 hids.2
    (by rw [hlen']; exact (show 28 + 298 * 3 ≤ 4096 by decide)) hfile (fun hnull => by cases hnull)
    fun _ => ⟨_, hyLive, rfl⟩
  rw [hlen'] at hadded
  have hnew : liveNodes s = liveNodes u ++ [⟨⟨0, 1⟩, rootNodeId, yValue⟩] := by
    rw [hs'.holds.liveNodes_eq, hu.holds.liveNodes_eq, hnodes', hleft]
    rfl
  have hbetween : Between 4096 request.parent lookedUp s [⟨⟨0, 1⟩, rootNodeId, yValue⟩]
      (False ∨ Live request.parent lookedUp ∧ ¬Live request.parent u) :=
    (Between.refl.deleteNodesByFilter hdelete).createNode hcreate' hs'.holds.below hnew
  refine ⟨doc, lookedUp, s, t, ⟨[message]⟩, message, request, _, response, ⟨⟨0, 1⟩, rootNodeId, xValue⟩,
    ⟨⟨0, 1⟩, rootNodeId, yValue⟩, ⟨⟨0, 2⟩, ⟨0, 1⟩, zValue⟩, _, hr, hlookup, rfl, hrequest, hbetween, Or.inr ?gone,
    hsend, hrun, ht.holds.below, ?added, ?first, hsent, rfl, ?replaced, ?parent, rfl⟩
  case gone =>
    rw [hparent]
    refine ⟨⟨_, by rw [hlookedUp.holds.liveNodes_eq]; exact hxLive, rfl⟩, ?_⟩
    rintro ⟨node, hnode, hid⟩
    rw [hu.holds.liveNodes_eq, hleft, List.mem_singleton] at hnode
    rw [hnode] at hid
    cases hid
  case added =>
    rw [ht.holds.liveNodes_eq, hs'.holds.liveNodes_eq, hadded]
    rfl
  case first =>
    rw [hs.holds.liveNodes_eq]
    exact hxLive
  case replaced =>
    rw [hs'.holds.liveNodes_eq, hnodes']
    simp [rootNodeId, hdifferent.symm]
  case parent =>
    rw [hs'.holds.liveNodes_eq]
    exact hyLive

/-- The parent of the new node is not the node of the lookup. -/
theorem handleCreateNodeRequest_other_parent :
    ∃ doc lookedUp s t found message request query response first new added removed,
      ServerReachable 4096 doc ∧ handleGetNodesByFilterRequest childPath doc = .ok found lookedUp ∧
      message ∈ found.nodes.head? ∧ first ∈ liveNodes doc ∧ SentAs first message ∧
      createBelow message.id (.ok (bytesOf "z")) = .ok request ∧
      Between 4096 request.parent lookedUp s added removed ∧ convertToRpcCreateNodeRequest request = .ok query ∧
      handleCreateNodeRequest query s = .ok response t ∧ liveNodes t = liveNodes s ++ [new] ∧
      first ∉ liveNodes s ∧ ∃ parent ∈ added, parent ∈ liveNodes s ∧ parent.id = new.parentId := by
  obtain ⟨doc, lookedUp, s, t, found, message, request, query, response, first, parent, new, removed, hr, hlookup,
    hmessage, hrequest, hbetween, _, hsend, hrun, _, hadds, hfirst, hsent, hnew, hreplaced, hparent, hid⟩ := reuse_run
  exact ⟨doc, lookedUp, s, t, found, message, request, query, response, first, new, [parent], removed, hr, hlookup,
    hmessage, hfirst, hsent, hrequest, hbetween, hsend, hrun, hadds, hreplaced, parent, List.mem_singleton_self _,
    hparent, hid.trans hnew.symm⟩

theorem handleCreateNodeRequest_lookedUp_reuse :
    ∃ doc message t new first, ServerReachable 4096 doc ∧ new ∈ liveNodes t ∧ first ∈ liveNodes doc ∧
      SentAs first message ∧ new.parentId = first.id := by
  obtain ⟨doc, lookedUp, s, t, found, message, request, query, response, _, _, new, removed, hr, hlookup,
    hmessage, hrequest, hbetween, _, hsend, hrun, hbelow, hadds, _⟩ := reuse_run
  obtain ⟨first, hfirst, hsent, hnew, _⟩ :=
    handleCreateNodeRequest_lookedUp hr hlookup hmessage hrequest hbetween hsend hrun hbelow hadds
  exact ⟨doc, message, t, new, first, hr, by rw [hadds]; simp, hfirst, hsent, hnew⟩

end Reuse

end DocumentDb.Client
