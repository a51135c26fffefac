import DocumentDb.Client.Interleaving
import DocumentDb.Server.TextTrees

namespace DocumentDb.Client

open Storage Program Bytes Documents Rpc Server Trees

section Meaning

variable {nodes : List ParsedNode} {q : Query} {room : Nat → Nat} {filter : FilterExpr} {f : RpcFilter}
  {chain : RpcFilterChain}

/-- What the names of a path ask of the texts on the way. -/
def pathTests (nodes : List ParsedNode) : List (List UInt8 → Bool) := nodes.map fun node => fieldTest .name node.name

/-- What a filter asks of a text. Every comparison is taken for one of equality, and one with an
attribute that there is not for one with the whole text. -/
def filterTest (filter : FilterExpr) (text : List UInt8) : Bool :=
  if filter.operation = .allOp then true
  else
    match filter.left, filter.right with
    | some name, some (.string argument) =>
      match fileInfoAttributeFromString name with
      | .ok attr => fieldTest attr argument text
      | .error _ => strEq text argument
    | _, _ => false

def queryTests (nodes : List ParsedNode) : List (List UInt8 → Bool) :=
  pathTests nodes ++ ((nodes.head?.bind fun node => node.filters.head?).map filterTest).toList

def newText (q : Query) : List UInt8 :=
  match convertQueryArgsToString (parameterFilters q) with
  | .ok text => cString text
  | .error _ => []

/-- What a query does to the trees. -/
def treeStep (t : Trees (List UInt8)) (q : Query) : Trees (List UInt8) :=
  match q.func with
  | .nop => t
  | .createOp => t.insert (newText q) (pathTests q.nodes)
  | .deleteOp => t.remove (queryTests q.nodes)
  | .updateOp => t

theorem passes_nameFilter (name : List UInt8) : passes (nameFilter name) = fieldTest .name name := by
  funext text
  rfl

theorem map_passes_names (nodes : List ParsedNode) :
    (nodes.map fun node => nameFilter node.name).map passes = pathTests nodes := by
  rw [List.map_map]
  exact List.map_congr_left fun node _ => passes_nameFilter node.name

theorem passes_additionalFilter (h : additionalFilter filter = .ok f) : passes f = filterTest filter := by
  funext text
  rw [additionalFilter] at h
  rw [passes, filterTest]
  by_cases hall : filter.operation = .allOp
  · rw [if_pos hall] at h
    cases h
    rw [if_pos hall]
    rfl
  · rw [if_neg hall] at h
    rw [if_neg hall]
    cases hleft : filter.left with
    | none =>
        rw [hleft] at h
        cases h
    | some name =>
        cases hright : filter.right with
        | none =>
            rw [hleft, hright] at h
            cases h
        | some element =>
            rw [hleft, hright] at h
            cases element with
            | string argument =>
                cases h
                rfl
            | boolean value => cases h
            | number value => cases h
            | double value => cases h

theorem tests_of_path (h : convertNodesToFilterChainPathOnly nodes = .ok chain) :
    chain.filters.map passes = pathTests nodes := by
  rw [convertNodesToFilterChainPathOnly] at h
  cases nodes with
  | nil => cases h
  | cons node nodes =>
      cases h
      exact map_passes_names (node :: nodes)

theorem tests_of_query (h : convertNodesToFilterChain room nodes = .ok chain) :
    chain.filters.map passes = queryTests nodes := by
  rw [convertNodesToFilterChain] at h
  cases nodes with
  | nil => cases h
  | cons node nodes =>
      rw [queryTests, List.head?_cons]
      simp only [List.head?_cons, assertArgNotNull, bind, Except.bind] at h
      cases hfilters : node.filters with
      | nil =>
          simp only [hfilters, pure, Except.pure, Except.ok.injEq] at h
          subst h
          rw [map_passes_names]
          simp [hfilters]
      | cons filter filters =>
          simp only [hfilters] at h
          cases hadditional : additionalFilter filter with
          | error e =>
              simp only [hadditional] at h
              cases h
          | ok f =>
              simp only [hadditional] at h
              split at h
              · cases h
              · cases h
                rw [List.map_append, map_passes_names]
                simp [hfilters, passes_additionalFilter hadditional]

end Meaning

section Steps

variable {pageSize : Nat} {doc s : Document} {tree : Trees (List UInt8)} {q : Query} {room : Nat → Nat} {fuel : Nat}
  {tmpCounts : Nat → Int} {u : Unit}

theorem value_of_sent {request nodeRequest : CreateNodeRequest} {query : RpcCreateNodeRequest} {text : List UInt8}
    (hvalue : nodeValueStringNew text = .ok request.value) (hsend : convertToRpcCreateNodeRequest request = .ok query)
    (hreceive : convertFromRpcCreateNodeRequest query = .ok nodeRequest) : nodeRequest.value = request.value := by
  obtain ⟨message, hto, hfrom⟩ := Convertible.to_rpc ⟨⟨.string, .stringValue text⟩, hvalue⟩
  rw [convertToRpcCreateNodeRequest_eq hto] at hsend
  cases hsend
  obtain ⟨_, _, hmessage, hconvert⟩ := convertFromRpcCreateNodeRequest_ok hreceive
  cases hmessage
  rw [hfrom] at hconvert
  exact (Except.ok.inj hconvert).symm

theorem createNode_shows {first : Node} {filters : List RpcFilter} {nodeId : Option RpcNodeId}
    {request : CreateNodeRequest} {query : RpcCreateNodeRequest} {created : RpcNode} (h : ServerReachable pageSize doc)
    (hshows : Shows (liveNodes doc) tree) (hfirst : first ∈ (answer (liveNodes doc) filters nullNodeId).head?)
    (hid : convertFromRpcNodeId nodeId = .ok first.id)
    (hrequest : createBelow nodeId (convertQueryArgsToString (parameterFilters q)) = .ok request)
    (hsend : convertToRpcCreateNodeRequest request = .ok query)
    (hcreate : handleCreateNodeRequest query doc = .ok created s) (hbelow : FileBelow s.pageManager) :
    Shows (liveNodes s) (tree.insert (newText q) (filters.map passes)) ∧
      ∃ new, liveNodes s = liveNodes doc ++ [new] := by
  obtain ⟨store, hstore, _⟩ := h.document.tree
  have hgrown := h.grown
  obtain ⟨hparent, text, htext, hvalue⟩ := createBelow_ok hrequest
  have hlive : first ∈ liveNodes doc := hshows.mem_of_answer (List.mem_of_mem_head? hfirst)
  obtain ⟨nodeRequest, node, store', hreceive, _, ht, hnodeParent, hnodeValue, hnodes⟩ :=
    handleCreateNodeRequest_nodes hstore hcreate hbelow
  have hnodeRequest : nodeRequest.parent = first.id := by
    rw [parent_of_sent hsend hreceive]
    exact Except.ok.inj (hparent.symm.trans hid)
  rw [hstore.liveNodes_eq] at hshows hgrown hfirst hlive
  rw [ht.liveNodes_eq, hstore.liveNodes_eq]
  rcases hnodes with ⟨_, _, _, hnone⟩ | ⟨hadded, _, _, hbefore⟩
  · have hne := hnone (by rw [hnodeRequest]; exact hgrown.ne_null first hlive) first hlive
    exact absurd hnodeRequest.symm hne
  · have htextNew : newText q = cString text := by
      rw [newText, htext]
    have hholds : HoldsText node (newText q) := by
      rw [HoldsText, hnodeValue, value_of_sent hvalue hsend hreceive, htextNew]
      exact ⟨(nodeValueStringNew_ok hvalue).2.1, (nodeValueStringNew_ok hvalue).2.2.1⟩
    have hlive : node ∈ nodesOf store' := by
      rw [hadded]
      exact List.mem_append_right _ List.mem_cons_self
    have hnull := id_ne_null hlive
    rw [hadded]
    exact ⟨hshows.insert hgrown hfirst hbefore hnull (hnodeParent.trans hnodeRequest) hholds, node, rfl⟩

theorem lookup_first {chain : RpcFilterChain} {found : RpcNodes} {message : RpcNode} {lookedUp : Document}
    (h : ServerReachable pageSize doc) (hlookup : handleGetNodesByFilterRequest chain doc = .ok found lookedUp)
    (hmessage : message ∈ found.nodes.head?) :
    ∃ first ∈ (answer (liveNodes doc) chain.filters nullNodeId).head?,
      convertFromRpcNodeId message.id = .ok first.id := by
  have hanswers := getNodesByFilter_answers h hlookup
  obtain ⟨messages⟩ := found
  cases messages with
  | nil => cases hmessage
  | cons head messages =>
      obtain rfl : head = message := by simpa using hmessage
      obtain ⟨first, rest, hsent, _, hcons⟩ := List.forall₂_cons_right_iff.mp hanswers
      exact ⟨first, by rw [hcons]; rfl, hsent.id⟩

theorem pathTests_ne_nil {chain : RpcFilterChain} (h : convertNodesToFilterChainPathOnly q.nodes = .ok chain) :
    pathTests q.nodes ≠ [] := by
  rw [convertNodesToFilterChainPathOnly] at h
  cases hnodes : q.nodes with
  | nil =>
      rw [hnodes] at h
      cases h
  | cons node nodes => exact List.cons_ne_nil _ _

theorem addNodesSequence_shows (h : ServerReachable pageSize doc) (hshows : Shows (liveNodes doc) tree)
    (hrun : addNodesSequence q doc = .ok u s) (hbelow : FileBelow s.pageManager) :
    ServerReachable pageSize s ∧ Shows (liveNodes s) (tree.insert (newText q) (pathTests q.nodes)) ∧
      (liveNodes s = liveNodes doc ∨ liveNodes doc ≠ [] ∧ ∃ new, liveNodes s = liveNodes doc ++ [new]) := by
  obtain ⟨chain, found, lookedUp, hchain, hlookup, hrest⟩ := addNodesSequence_ok hrun
  have hl := h.getNodesByFilter hlookup
  obtain ⟨hsame, hcarries⟩ := hshows.getNodes h hlookup
  have htests := tests_of_path hchain
  rcases hrest with ⟨hnil, rfl⟩ | ⟨message, request, query, created, hmessage, hrequest, hsend, hcreate⟩
  · rw [hnil, htests] at hcarries
    rw [insert_of_answer_nil (pathTests_ne_nil hchain) (List.forall₂_nil_left_iff.mp hcarries), hsame]
    exact ⟨hl, hshows, Or.inl rfl⟩
  · obtain ⟨first, hfirst, hid⟩ := lookup_first h hlookup hmessage
    rw [← hsame] at hshows hfirst
    obtain ⟨hall, hnew⟩ := createNode_shows hl hshows hfirst hid hrequest hsend hcreate hbelow
    rw [← htests, ← hsame]
    exact ⟨hl.createNode hcreate hbelow, hall,
      Or.inr ⟨List.ne_nil_of_mem (hshows.mem_of_answer (List.mem_of_mem_head? hfirst)), hnew⟩⟩

theorem getNodes_ok {response : RpcNodes} (hrun : getNodes room q doc = .ok response s) :
    ∃ chain, convertNodesToFilterChain room q.nodes = .ok chain ∧
      handleGetNodesByFilterRequest chain doc = .ok response s := by
  rw [getNodes] at hrun
  obtain ⟨chain, _, hlift, hrest⟩ := bind_eq_ok.mp hrun
  obtain ⟨hchain, rfl⟩ := lift_eq_ok.mp hlift
  exact ⟨chain, hchain, clientGetNodeByFilter_ok hrest⟩

theorem deleteNodeSequence_ok {response : RpcDeletedNodes}
    (hrun : deleteNodeSequence room fuel tmpCounts q doc = .ok response s) :
    ∃ chain, convertNodesToFilterChain room q.nodes = .ok chain ∧
      handleDeleteNodesByFilterRequest fuel tmpCounts chain doc = .ok response s := by
  rw [deleteNodeSequence] at hrun
  obtain ⟨chain, _, hlift, hrest⟩ := bind_eq_ok.mp hrun
  obtain ⟨hchain, rfl⟩ := lift_eq_ok.mp hlift
  exact ⟨chain, hchain, hrest⟩

/-- Every query does to the document what it means for the trees. -/
theorem makeRequestBasedOnQuery_shows (h : ServerReachable pageSize doc) (hshows : Shows (liveNodes doc) tree)
    (hrun : makeRequestBasedOnQuery room fuel tmpCounts q doc = .ok u s) (hbelow : FileBelow s.pageManager) :
    ServerReachable pageSize s ∧ Shows (liveNodes s) (treeStep tree q) := by
  rw [makeRequestBasedOnQuery] at hrun
  rw [treeStep]
  cases hfunc : q.func with
  | nop =>
      rw [hfunc] at hrun
      obtain ⟨response, s, hget, hpure⟩ := bind_eq_ok.mp hrun
      cases hpure
      obtain ⟨chain, _, hlookup⟩ := getNodes_ok hget
      obtain ⟨hsame, _⟩ := hshows.getNodes h hlookup
      rw [hsame]
      exact ⟨h.getNodesByFilter hlookup, hshows⟩
  | updateOp =>
      rw [hfunc] at hrun
      cases hrun
      exact ⟨h, hshows⟩
  | createOp =>
      rw [hfunc] at hrun
      obtain ⟨hs, hall, _⟩ := addNodesSequence_shows h hshows hrun hbelow
      exact ⟨hs, hall⟩
  | deleteOp =>
      rw [hfunc] at hrun
      obtain ⟨response, s, hdelete, hpure⟩ := bind_eq_ok.mp hrun
      cases hpure
      obtain ⟨chain, hchain, hremove⟩ := deleteNodeSequence_ok hdelete
      rw [← tests_of_query hchain]
      exact ⟨h.deleteNodesByFilter hremove, (hshows.deleteNodes h hremove).1⟩

end Steps

section Returning

variable {pageSize : Nat} {doc s : Document} {tree : Trees (List UInt8)} {q : Query} {chain : RpcFilterChain}
  {response : RpcNodes}

/-- The pages of the file have been filled one after the other, and no node has gone. -/
def Dense (pageSize : Nat) (doc : Document) : Prop :=
  ∃ store, Packed pageSize store doc ∧ Filled pageSize (nodesOf store).length store

def HasRoom (pageSize n : Nat) : Prop := sizeofFileHeader + pagesFor pageSize n * pageSize < 2 ^ 32

theorem Dense.getNodes (h : Dense pageSize doc) (hrun : handleGetNodesByFilterRequest chain doc = .ok response s) :
    Dense pageSize s := by
  obtain ⟨store, hp, hfilled⟩ := h
  exact ⟨store, ⟨(getNodesByFilterRequest_ok hp.holds hrun).1, hp.allLive⟩, hfilled⟩

theorem Dense.createNode {query : RpcCreateNodeRequest} {created : RpcNode} (h : Dense pageSize doc)
    (hsize : pageSize < 2 ^ 31) (hfit : sizeofPageHeader + (sizeofItemMetadata + sizeofNode) ≤ pageSize)
    (hrun : handleCreateNodeRequest query doc = .ok created s) (hbelow : FileBelow s.pageManager) :
    Dense pageSize s := by
  obtain ⟨store, hp, hfilled⟩ := h
  obtain ⟨nodeRequest, res, node, _, hadd, _⟩ := handleCreateNodeRequest_ok hrun
  rcases hp.holds.addNode_ok hadd hbelow with ⟨_, hs, _⟩ | ⟨_, _, _, _, stored, hparent, hvalue, hs⟩
  · exact ⟨store, ⟨hs, hp.allLive⟩, hfilled⟩
  · refine ⟨_, ⟨hs, hp.allLive.put _⟩, ?_⟩
    rw [nodesOf_added hp.holds hparent hvalue zeroNode, List.length_append, List.length_singleton]
    exact hfilled.put hp.holds.nodes hsize hfit stored

theorem handleGetResponse_carries {texts : List (List UInt8)} (hids : ∀ message ∈ response.nodes, message.id ≠ none)
    (hcarries : List.Forall₂ Carries response.nodes texts) : handleGetResponse response = .ok response := by
  obtain ⟨messages⟩ := response
  have hprint : messages.forM printNode = .ok () := by
    dsimp only at hids hcarries
    induction hcarries with
    | nil => rfl
    | @cons message text messages texts hcarries _ ih =>
        obtain ⟨hid, hids⟩ := List.forall_mem_cons.mp hids
        obtain ⟨id, hid⟩ := Option.ne_none_iff_exists'.mp hid
        have hhead : printNode message = .ok () := by
          rw [printNode, hid, hcarries]
          rfl
        change (printNode message >>= fun _ => messages.forM printNode) = _
        rw [hhead]
        exact ih hids
  rw [handleGetResponse]
  simp only [hprint, bind, Except.bind, pure, Except.pure]

theorem clientGetNodeByFilter_returns (h : ServerReachable pageSize doc) (hshows : Shows (liveNodes doc) tree)
    (hnamed : ∀ filter ∈ chain.filters, Named filter) (hreturns : ScanReturns doc)
    (heval : Evaluates (liveNodes doc) chain.filters nullNodeId) :
    ∃ response s, clientGetNodeByFilter chain doc = .ok response s := by
  obtain ⟨response, s, hget⟩ := getNodesByFilter_returns h hnamed hreturns heval
  have hids : ∀ message ∈ response.nodes, message.id ≠ none := by
    intro message hmessage hnone
    obtain ⟨node, _, hsent⟩ := forall₂_exists (getNodesByFilter_answers h hget).flip message hmessage
    have hid := hsent.id
    rw [hnone] at hid
    cases hid
  have hprint := handleGetResponse_carries hids (hshows.getNodes h hget).2
  refine ⟨response, s, ?_⟩
  rw [clientGetNodeByFilter]
  simp only [run_bind, hget, andThen_ok, hprint, run_lift_ok]

theorem named_of_path {nodes : List ParsedNode} (hchain : convertNodesToFilterChainPathOnly nodes = .ok chain) :
    ∀ filter ∈ chain.filters, Named filter := by
  rw [convertNodesToFilterChainPathOnly] at hchain
  cases nodes with
  | nil => cases hchain
  | cons node nodes =>
      cases hchain
      rw [List.forall_mem_map]
      exact fun node _ => (asks_nameFilter node.name).named

/-- A text whose first field can be asked for. -/
def NamedText (text : List UInt8) : Prop := ∃ name, (parseFileInfo text).field .name = some name

theorem HoldsText.evaluates_name {node : Node} {text : List UInt8} (h : HoldsText node text) (hnamed : NamedText text)
    (name : List UInt8) : ∃ b, evaluate (nameFilter name) node = .ok b := by
  obtain ⟨field, hfield⟩ := hnamed
  refine ⟨strEq field name, ?_⟩
  have hne : text.length ≠ 0 := by
    intro hzero
    rw [List.eq_nil_of_length_eq_zero hzero] at hfield
    cases hfield
  rw [evaluate, filterCondition_nameFilter]
  simp only [bind, Except.bind, fsNewAttributeCondition, h.1, h.2, ne_eq, not_true_eq_false, if_false, if_neg hne]
  change fileInfoAttributeMatches .name name (parseFileInfo text) = _
  rw [fileInfoAttributeMatches, hfield]

theorem evaluates_of_named {nodes : List Node} (hshows : Shows nodes tree)
    (hnamed : ∀ text ∈ tree.toList, NamedText text) (names : List (List UInt8)) (parentId : NodeId) :
    Evaluates nodes (names.map nameFilter) parentId := by
  induction names generalizing parentId with
  | nil => trivial
  | cons name names ih =>
      refine ⟨fun node hnode => ?_, fun first _ => ih first.id⟩
      obtain ⟨text, htext, hholds⟩ := hshows.exists_text hnode
      exact HoldsText.evaluates_name hholds (hnamed text htext) name

theorem chain_of_path {nodes : List ParsedNode} (hne : nodes ≠ []) :
    convertNodesToFilterChainPathOnly nodes = .ok ⟨(nodes.map ParsedNode.name).map nameFilter⟩ := by
  rw [convertNodesToFilterChainPathOnly, List.map_map]
  cases nodes with
  | nil => exact absurd rfl hne
  | cons node nodes => rfl

theorem lookup_returns (h : ServerReachable pageSize doc) (hd : Dense pageSize doc)
    (hshows : Shows (liveNodes doc) tree)
    (hnamed : ∀ text ∈ tree.toList, NamedText text) (hchain : convertNodesToFilterChainPathOnly q.nodes = .ok chain) :
    ∃ found s, clientGetNodeByFilter chain doc = .ok found s := by
  obtain ⟨store, hp, _⟩ := hd
  refine clientGetNodeByFilter_returns h hshows (named_of_path hchain) (scanReturns_of_packed hp) ?_
  have hne : q.nodes ≠ [] := by
    intro hnil
    rw [hnil] at hchain
    cases hchain
  rw [chain_of_path hne] at hchain
  cases hchain
  exact evaluates_of_named hshows hnamed _ nullNodeId

theorem addBelowFirst_returns {first : Node} {message : RpcNode} {messages : List RpcNode} {text : List UInt8}
    {value : NodeValue} (hd : Dense pageSize doc) (hfirst : first ∈ liveNodes doc)
    (hid : convertFromRpcNodeId message.id = .ok first.id)
    (htext : convertQueryArgsToString (parameterFilters q) = .ok text) (hvalue : nodeValueStringNew text = .ok value)
    (hsize : pageSize < 2 ^ 31) (hfit : sizeofPageHeader + (sizeofItemMetadata + sizeofNode) ≤ pageSize)
    (hroom : HasRoom pageSize ((liveNodes doc).length + 1)) :
    ∃ s, addBelowFirst q ⟨message :: messages⟩ doc = .ok () s ∧ FileBelow s.pageManager := by
  obtain ⟨store, hp, hfilled⟩ := hd
  rw [hp.holds.liveNodes_eq] at hfirst hroom
  obtain ⟨request, hrequest, hparent, hrequestValue⟩ := createBelow_eq hid hvalue
  obtain ⟨s, stored, answer, hadd, hs, _⟩ := clientAddNode_packed hp (by rw [hrequestValue]; exact hvalue)
    (node_fits_of_more (k := 0) (by rw [Nat.zero_add, Nat.mul_one]; exact hfit))
    (hfilled.room hp.holds.nodes hsize hfit (Nat.lt_succ_self _) hroom)
    (fun hnull => absurd (hparent.symm.trans hnull) (id_ne_null hfirst)) fun _ => ⟨first, hfirst, hparent.symm⟩
  refine ⟨s, ?_, hs.holds.below⟩
  rw [addBelowFirst]
  simp only [htext, run_bind, hrequest, run_lift_ok, andThen_ok, hadd]
  rfl

theorem addNodesSequence_returns {text : List UInt8} {value : NodeValue} (h : ServerReachable pageSize doc)
    (hd : Dense pageSize doc) (hshows : Shows (liveNodes doc) tree) (hnamed : ∀ text ∈ tree.toList, NamedText text)
    (hne : q.nodes ≠ []) (htext : convertQueryArgsToString (parameterFilters q) = .ok text)
    (hvalue : nodeValueStringNew text = .ok value) (hsize : pageSize < 2 ^ 31)
    (hfit : sizeofPageHeader + (sizeofItemMetadata + sizeofNode) ≤ pageSize)
    (hroom : HasRoom pageSize ((liveNodes doc).length + 1)) :
    ∃ s, addNodesSequence q doc = .ok () s ∧ FileBelow s.pageManager := by
  have hchain := chain_of_path hne
  obtain ⟨⟨messages⟩, s, hlookup⟩ := lookup_returns h hd hshows hnamed hchain
  have hget := clientGetNodeByFilter_ok hlookup
  have hds := hd.getNodes hget
  rw [addNodesSequence_calls]
  simp only [run_bind, hchain, run_lift_ok, andThen_ok, hlookup]
  cases messages with
  | nil =>
      obtain ⟨store, hp, _⟩ := hds
      exact ⟨s, rfl, hp.holds.below⟩
  | cons message messages =>
      obtain ⟨hsame, _⟩ := hshows.getNodes h hget
      have hhead : message ∈ (message :: messages).head? := rfl
      obtain ⟨first, hfirst, hid⟩ := lookup_first h hget hhead
      have hlive := hshows.mem_of_answer (List.mem_of_mem_head? hfirst)
      rw [← hsame] at hlive hroom
      exact addBelowFirst_returns hds hlive hid htext hvalue hsize hfit hroom

end Returning

section Runs

inductive Executes (room : Nat → Nat) : Document → List (List UInt8) → Document → Prop
  | nil {doc} : Executes room doc [] doc
  | cons {doc s t command commands q fuel tmpCounts u} : parserParseCommand command = .ok q →
      makeRequestBasedOnQuery room fuel tmpCounts q doc = .ok u s → FileBelow s.pageManager →
      Executes room s commands t → Executes room doc (command :: commands) t

def commandStep (tree : Trees (List UInt8)) (command : List UInt8) : Trees (List UInt8) :=
  match parserParseCommand command with
  | .ok q => treeStep tree q
  | .error _ => tree

variable {pageSize : Nat} {doc s : Document} {tree : Trees (List UInt8)} {room : Nat → Nat}
  {commands : List (List UInt8)}

theorem Executes.shows (h : ServerReachable pageSize doc) (hshows : Shows (liveNodes doc) tree)
    (hrun : Executes room doc commands s) :
    ServerReachable pageSize s ∧ Shows (liveNodes s) (commands.foldl commandStep tree) := by
  induction hrun generalizing tree with
  | nil => exact ⟨h, hshows⟩
  | cons hparse hmake hbelow _ ih =>
      obtain ⟨hs, hstep⟩ := makeRequestBasedOnQuery_shows h hshows hmake hbelow
      rw [List.foldl_cons]
      refine ih hs ?_
      rw [commandStep, hparse]
      exact hstep

/-- Whatever commands have been carried out, the document is the trees to which their meanings
have been applied, and what a query answers is read off the trees. -/
theorem executes_refines (h : ServerReachable pageSize doc) (hshows : Shows (liveNodes doc) tree)
    (hrun : Executes room doc commands s) :
    Shows (liveNodes s) (commands.foldl commandStep tree) ∧ ∀ q,
      (∀ response t, getNodes room q s = .ok response t →
        List.Forall₂ Carries response.nodes ((commands.foldl commandStep tree).answer (queryTests q.nodes))) ∧
      ∀ fuel tmpCounts response t, deleteNodeSequence room fuel tmpCounts q s = .ok response t →
        response.count = ((commands.foldl commandStep tree).answer (queryTests q.nodes)).length := by
  obtain ⟨hs, hall⟩ := hrun.shows h hshows
  refine ⟨hall, fun q => ⟨fun response t hget => ?_, fun fuel tmpCounts response t hdelete => ?_⟩⟩
  · obtain ⟨chain, hchain, hlookup⟩ := getNodes_ok hget
    rw [← tests_of_query hchain]
    exact (hall.getNodes hs hlookup).2
  · obtain ⟨chain, hchain, hremove⟩ := deleteNodeSequence_ok hdelete
    rw [← tests_of_query hchain]
    exact (hall.deleteNodes hs hremove).2

theorem exists_denseRoot (record : FileRecord) (hshort : record.text.length < 256) :
    ∃ doc, ServerReachable 4096 doc ∧ Dense 4096 doc ∧ (∃ root, liveNodes doc = [root] ∧ root.id = rootNodeId) ∧
      Shows (liveNodes doc) (.node record.text .nil .nil) := by
  obtain ⟨value, hvalue, hrecord⟩ := exists_recordValue record hshort
  obtain ⟨doc, slots, hr, hdoc, hlength, hnodes⟩ := exists_serverRoot hvalue
  refine ⟨doc, hr, ⟨[slots], hdoc, ?_⟩, ?_, ?_⟩
  · have hper : (1 : Nat) ≤ nodesPerPage 4096 := by decide
    rw [hnodes]
    exact ⟨Nat.one_pos, by simp [lastSlots, hlength], by simpa [lastSlots, hlength] using hper⟩
  · rw [hdoc.holds.liveNodes_eq, hnodes]
    exact ⟨_, rfl, rfl⟩
  · rw [hdoc.holds.liveNodes_eq, hnodes]
    exact shows_nil.concat ⟨.nil, List.forall_mem_nil _, List.forall_mem_nil _⟩ (List.forall_mem_nil _)
      (show rootNodeId ≠ nullNodeId by decide) rfl (hrecord rootNodeId nullNodeId)

/-- A node is created below the root. -/
theorem executes_refines_child :
    ∃ doc s, Executes (fun n => n + 1) doc [bytesOf "create(root[x])\n"] s ∧
      Shows (liveNodes s) (.node (bytesOf "root - - -") (.node (bytesOf "x") .nil .nil) .nil) := by
  obtain ⟨doc, hr, hd, ⟨root, hroot, _⟩, hshows⟩ :=
    exists_denseRoot (.named (bytesOf "root") ⟨by decide, by decide, by decide⟩) (by decide)
  have hparse : parserParseCommand (bytesOf "create(root[x])\n") =
      .ok ⟨.createOp, [⟨bytesOf "root", [createFilterSingleValue (.string (bytesOf "x"))]⟩]⟩ := (rfl)
  obtain ⟨s, hrun, hbelow⟩ : ∃ s, addNodesSequence
      ⟨.createOp, [⟨bytesOf "root", [createFilterSingleValue (.string (bytesOf "x"))]⟩]⟩ doc = .ok () s ∧
      FileBelow s.pageManager := by
    obtain ⟨value, hvalue⟩ : ∃ value, nodeValueStringNew (bytesOf "x") = .ok value := ⟨_, rfl⟩
    refine addNodesSequence_returns hr hd hshows (List.forall_mem_singleton.mpr ⟨bytesOf "root", rfl⟩)
      (List.cons_ne_nil _ _) rfl hvalue (by decide) (by decide) ?_
    rw [hroot, List.length_singleton]
    exact (by decide : 20 + 1 * 4096 < 2 ^ 32)
  have hexecutes : Executes (fun n => n + 1) doc [bytesOf "create(root[x])\n"] s :=
    @Executes.cons _ doc s s _ _ _ 0 (fun _ => 0) () hparse hrun hbelow .nil
  refine ⟨doc, s, hexecutes, ?_⟩
  have htree := (executes_refines hr hshows hexecutes).1
  rw [List.foldl_cons, List.foldl_nil, commandStep, hparse] at htree
  exact htree

end Runs

end DocumentDb.Client
