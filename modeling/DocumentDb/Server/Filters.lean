import DocumentDb.Server.Reachable
import DocumentDb.Documents.Growth

namespace DocumentDb.Server

open Storage Program Bytes Documents Rpc

section Reference

variable {nodes : List Node} {filter : RpcFilter} {filters : List RpcFilter} {conditions : List NodeConditionFunc}
  {parentId : NodeId}

def evaluate (filter : RpcFilter) (node : Node) : Except Fault Bool := do
  let condition ← filterCondition filter
  condition node

def satisfies (filter : RpcFilter) (node : Node) : Bool :=
  match evaluate filter node with
  | .ok b => b
  | .error _ => false

def childrenWith (nodes : List Node) (filter : RpcFilter) (parentId : NodeId) : List Node :=
  nodes.filter fun node => satisfies filter node && node.parentId == parentId

/-- What a chain of filters means: every filter is for the children of the first node
that the one before it has found. -/
def answer (nodes : List Node) : List RpcFilter → NodeId → List Node
  | [], _ => []
  | [filter], parentId => childrenWith nodes filter parentId
  | filter :: filters, parentId =>
    match childrenWith nodes filter parentId with
    | [] => []
    | first :: _ => answer nodes filters first.id

def Evaluates (nodes : List Node) : List RpcFilter → NodeId → Prop
  | [], _ => True
  | filter :: filters, parentId =>
    (∀ node ∈ nodes, ∃ b, evaluate filter node = .ok b) ∧
      ∀ first ∈ (childrenWith nodes filter parentId).head?, Evaluates nodes filters first.id

/-- An `ALL` filter, or one with a name and a string. -/
def Named (filter : RpcFilter) : Prop :=
  filter.type = .all ∨ ∃ name argument, filter.name = some name ∧ filter.argument = .stringArgument argument

theorem evaluate_eq {condition : NodeConditionFunc} (h : filterCondition filter = .ok condition) (node : Node) :
    evaluate filter node = nodeConditionMatches (nodeMatcherNew condition) node := by
  rw [nodeConditionMatches_new, evaluate, h]
  rfl

theorem level_eq {condition : NodeConditionFunc} (h : filterCondition filter = .ok condition) (nodes : List Node)
    (parentId : NodeId) : level nodes (nodeMatcherNew condition) parentId = childrenWith nodes filter parentId := by
  have hmatching : matching (nodeMatcherNew condition) = satisfies filter := by
    funext node
    cases hmatches : nodeConditionMatches (nodeMatcherNew condition) node with
    | ok b => simp only [matching, satisfies, evaluate_eq h, hmatches]
    | error e => simp only [matching, satisfies, evaluate_eq h, hmatches]
  rw [level, hmatching]
  rfl

theorem selected_eq_answer
    (h : List.Forall₂ (fun filter condition => filterCondition filter = .ok condition) filters conditions)
    (parentId : NodeId) : selected nodes (nodeMatcherArrayNew conditions) parentId = answer nodes filters parentId := by
  induction h generalizing parentId with
  | nil => rfl
  | @cons filter condition filters conditions hfilter hrest ih =>
      change selected nodes (nodeMatcherNew condition :: nodeMatcherArrayNew conditions) parentId = _
      rw [selected, level_eq hfilter]
      cases hrest with
      | nil =>
          rw [answer]
          cases childrenWith nodes filter parentId <;> rfl
      | cons hnext hrest =>
          rw [answer]
          · cases childrenWith nodes filter parentId with
            | nil => rfl
            | cons first rest => exact ih first.id
          · simp

theorem answer_step {next : RpcFilter} {first : Node} {rest : List Node}
    (h : childrenWith nodes filter parentId = first :: rest) :
    answer nodes (filter :: next :: filters) parentId = answer nodes (next :: filters) first.id := by
  rw [answer, h]
  simp

theorem evaluable_of_evaluates
    (h : List.Forall₂ (fun filter condition => filterCondition filter = .ok condition) filters conditions)
    (heval : Evaluates nodes filters parentId) : Evaluable nodes (nodeMatcherArrayNew conditions) parentId := by
  induction h generalizing parentId with
  | nil => trivial
  | @cons filter condition filters conditions hfilter hrest ih =>
      obtain ⟨hdef, hnext⟩ := heval
      refine ⟨fun node hnode => ?_, fun first hfirst => ih (hnext first ?_)⟩
      · obtain ⟨b, hb⟩ := hdef node hnode
        exact ⟨b, by rw [← evaluate_eq hfilter]; exact hb⟩
      · rw [← level_eq hfilter]
        exact hfirst

theorem stringArgument_ok {member : RpcFilterArgument} {pointer : StringPointer}
    (h : stringArgument member = .ok pointer) :
    (∃ argument, member = .stringArgument argument ∧ pointer = .ok argument) ∨
      (∀ argument, member ≠ .stringArgument argument) ∧ ∃ fault, pointer = .error fault := by
  unfold stringArgument at h
  split at h
  case h_1 value =>
    cases h
    exact Or.inl ⟨value, rfl, rfl⟩
  case h_6 hstring _ _ _ _ =>
    cases h
    exact Or.inr ⟨hstring, _, rfl⟩
  all_goals cases h

theorem containsFileInfoAttribute_of_ok (h : fileInfoAttributeFromString name = .ok attr) :
    containsFileInfoAttribute name = true := by
  rw [fileInfoAttributeFromString] at h
  rw [containsFileInfoAttribute]
  split at h
  · simp [*]
  split at h
  · simp [*]
  split at h
  · simp [*]
  split at h
  · simp [*]
  · cases h

theorem containsFileInfoAttribute_iff {name : List UInt8} :
    containsFileInfoAttribute name = true ↔ ∃ attr, fileInfoAttributeFromString name = .ok attr := by
  constructor
  · intro h
    rw [fileInfoAttributeFromString]
    simp only [containsFileInfoAttribute, Bool.or_eq_true] at h
    split
    · exact ⟨_, rfl⟩
    split
    · exact ⟨_, rfl⟩
    split
    · exact ⟨_, rfl⟩
    split
    · exact ⟨_, rfl⟩
    · simp_all
  · rintro ⟨attr, hattr⟩
    exact containsFileInfoAttribute_of_ok hattr

theorem filterCondition_cases (h : filterCondition filter = .ok condition) :
    (filter.type = .all ∧ condition = nodeConditionAll) ∨
      filter.type ≠ .all ∧ ∃ name pointer, filter.name = some name ∧ stringArgument filter.argument = .ok pointer ∧
        ((∃ attr, fileInfoAttributeFromString name = .ok attr ∧ condition = fsNewAttributeCondition name pointer) ∨
          (∀ attr, fileInfoAttributeFromString name ≠ .ok attr) ∧ condition = fsSingleArgumentCondition pointer) := by
  rw [filterCondition] at h
  by_cases hall : filter.type = .all
  · rw [if_pos hall] at h
    cases h
    exact Or.inl ⟨hall, rfl⟩
  rw [if_neg hall] at h
  refine Or.inr ⟨hall, ?_⟩
  cases hname : filter.name with
  | none => simp [hname] at h
  | some name =>
      simp only [hname] at h
      cases hargument : stringArgument filter.argument with
      | error e => simp [hargument, bind, Except.bind] at h
      | ok pointer =>
          simp only [hargument, bind, Except.bind] at h
          refine ⟨name, pointer, rfl, rfl, ?_⟩
          by_cases hcontains : containsFileInfoAttribute name = true
          · rw [if_pos hcontains] at h
            cases h
            obtain ⟨attr, hattr⟩ := containsFileInfoAttribute_iff.mp hcontains
            exact Or.inl ⟨attr, hattr, rfl⟩
          · rw [if_neg hcontains] at h
            cases h
            exact Or.inr ⟨fun attr hattr => hcontains (containsFileInfoAttribute_of_ok hattr), rfl⟩

/-- The string that a condition compares with is read after that of the node, if at all. -/
theorem fsNewAttributeCondition_unreadable (fault : Fault) :
    fsNewAttributeCondition name (.error fault) node ≠ .ok b := by
  rw [fsNewAttributeCondition]
  by_cases htype : node.value.type = .string
  swap
  · simp [htype, bind, Except.bind, throw, throwThe, MonadExceptOf.throw]
  simp only [bind, Except.bind, htype, ne_eq, not_true_eq_false, if_false]
  cases node.value.stringValue with
  | error e => simp
  | ok string =>
      by_cases hempty : string.length = 0
      · simp [hempty, throw, throwThe, MonadExceptOf.throw]
      · cases hattr : fileInfoAttributeFromString name <;> simp [hempty]

theorem fsSingleArgumentCondition_unreadable (fault : Fault) :
    fsSingleArgumentCondition (.error fault) node ≠ .ok b := by
  rw [fsSingleArgumentCondition]
  by_cases htype : node.value.type = .string
  swap
  · simp [htype, bind, Except.bind, throw, throwThe, MonadExceptOf.throw]
  cases node.value.stringValue <;> simp [htype, bind, Except.bind]

/-- A filter whose argument is not a string is never answered. -/
theorem evaluate_other (hall : filter.type ≠ .all) (hother : ∀ argument, filter.argument ≠ .stringArgument argument)
    (node : Node) (b : Bool) : evaluate filter node ≠ .ok b := by
  intro h
  obtain ⟨condition, hcondition, hb⟩ := partial_bind_eq_ok.mp h
  rcases filterCondition_cases hcondition with ⟨hall', _⟩ | ⟨_, name, pointer, _, hpointer, hkind⟩
  · exact hall hall'
  rcases stringArgument_ok hpointer with ⟨argument, hargument, _⟩ | ⟨_, fault, rfl⟩
  · exact hother argument hargument
  rcases hkind with ⟨attr, _, rfl⟩ | ⟨_, rfl⟩
  · exact fsNewAttributeCondition_unreadable fault hb
  · exact fsSingleArgumentCondition_unreadable fault hb

theorem named_condition (h : Named filter) : ∃ condition, filterCondition filter = .ok condition := by
  rw [filterCondition]
  by_cases hall : filter.type = .all
  · exact ⟨_, if_pos hall⟩
  · rcases h with hall' | ⟨name, argument, hname, hargument⟩
    · exact absurd hall' hall
    · rw [if_neg hall, hname, hargument]
      by_cases hattribute : containsFileInfoAttribute name = true
      · exact ⟨fsNewAttributeCondition name (.ok argument), by
          simp only [stringArgument, bind, Except.bind, hattribute, if_true]; rfl⟩
      · exact ⟨fsSingleArgumentCondition (.ok argument), by
          simp only [stringArgument, bind, Except.bind, hattribute, Bool.false_eq_true, if_false]; rfl⟩

theorem fsNewNodeMatcherArray_eq_ok {request : RpcFilterChain} {matchers : List NodeMatcher} :
    fsNewNodeMatcherArray request = .ok matchers ↔ ∃ conditions, matchers = nodeMatcherArrayNew conditions ∧
      List.Forall₂ (fun filter condition => filterCondition filter = .ok condition) request.filters conditions := by
  rw [fsNewNodeMatcherArray]
  simp only [← mapM_eq_ok]
  cases request.filters.mapM filterCondition with
  | error e => simp [bind, Except.bind]
  | ok conditions => simp [bind, Except.bind, pure, Except.pure, eq_comm]

theorem fsNewNodeMatcherArray_named {request : RpcFilterChain} (h : ∀ filter ∈ request.filters, Named filter) :
    ∃ matchers, fsNewNodeMatcherArray request = .ok matchers := by
  obtain ⟨filters⟩ := request
  suffices hconditions : ∃ conditions, List.Forall₂
      (fun filter condition => filterCondition filter = .ok condition) filters conditions by
    obtain ⟨conditions, hall⟩ := hconditions
    exact ⟨_, fsNewNodeMatcherArray_eq_ok.mpr ⟨conditions, rfl, hall⟩⟩
  dsimp only at h
  induction filters with
  | nil => exact ⟨[], List.Forall₂.nil⟩
  | cons filter filters ih =>
      obtain ⟨hfilter, hfilters⟩ := List.forall_mem_cons.mp h
      obtain ⟨condition, hcondition⟩ := named_condition hfilter
      obtain ⟨conditions, hall⟩ := ih hfilters
      exact ⟨_, List.Forall₂.cons hcondition hall⟩

end Reference

section Get

variable {pageSize : Nat} {doc : Document} {request : RpcFilterChain}

/-- A scan over all nodes returns: it hits no deleted slot. -/
def ScanReturns (doc : Document) : Prop :=
  ∃ it t, eachNode (fun (_ : Unit) _ => .ok ()) () doc = .ok ((), it) t

theorem selected_of_matchers {nodes : List Node} {matchers : List NodeMatcher}
    (h : fsNewNodeMatcherArray request = .ok matchers) (parentId : NodeId) :
    selected nodes matchers parentId = answer nodes request.filters parentId := by
  obtain ⟨conditions, rfl, hall⟩ := fsNewNodeMatcherArray_eq_ok.mp h
  exact selected_eq_answer hall parentId

theorem convertToRpcNodes_selected (h : ServerReachable pageSize doc) (matchers : List NodeMatcher) :
    ∃ messages, convertToRpcNodes (selected (liveNodes doc) matchers nullNodeId) = .ok messages ∧
      List.Forall₂ SentAs (selected (liveNodes doc) matchers nullNodeId) messages.nodes := by
  obtain ⟨store, hs, _⟩ := h.document.tree
  have hvalues := h.convertible
  rw [hs.liveNodes_eq] at hvalues ⊢
  exact convertToRpcNodes_convertible
    (fun node hnode => hvalues node (selected_subset matchers nullNodeId hnode))
    fun node hnode => idsFit hs (selected_subset matchers nullNodeId hnode)

/-- A request for nodes answers with what its chain means. -/
theorem getNodesByFilter_answers (h : ServerReachable pageSize doc) {response : RpcNodes} {t : Document}
    (hrun : handleGetNodesByFilterRequest request doc = .ok response t) :
    List.Forall₂ SentAs (answer (liveNodes doc) request.filters nullNodeId) response.nodes := by
  obtain ⟨store, hs, _⟩ := h.document.tree
  obtain ⟨_, matchers, hmatchers, _, hconvert⟩ := getNodesByFilterRequest_ok hs hrun
  obtain ⟨messages, hmessages, hall⟩ := convertToRpcNodes_selected h matchers
  rw [← hs.liveNodes_eq, hmessages] at hconvert
  cases hconvert
  rw [← selected_of_matchers hmatchers]
  exact hall

/-- It returns when no deleted slot and no filter is in its way. -/
theorem getNodesByFilter_returns (h : ServerReachable pageSize doc)
    (hnamed : ∀ filter ∈ request.filters, Named filter) (hreturns : ScanReturns doc)
    (heval : Evaluates (liveNodes doc) request.filters nullNodeId) :
    ∃ response t, handleGetNodesByFilterRequest request doc = .ok response t := by
  obtain ⟨store, hs, _⟩ := h.document.tree
  obtain ⟨it, u, hscan⟩ := hreturns
  obtain ⟨_, _, hclean, _⟩ := hs.eachNode_ok hscan
  obtain ⟨matchers, hmatchers⟩ := fsNewNodeMatcherArray_named hnamed
  obtain ⟨messages, hmessages, _⟩ := convertToRpcNodes_selected h matchers
  obtain ⟨conditions, rfl, hall⟩ := fsNewNodeMatcherArray_eq_ok.mp hmatchers
  rw [hs.liveNodes_eq] at heval hmessages
  exact getNodesByFilterRequest_clean hs hclean hmatchers (evaluable_of_evaluates hall heval)
    ⟨messages, hmessages⟩

theorem scanReturns_of_packed {store : List (List Slot)} (h : Packed pageSize store doc) : ScanReturns doc := by
  have hfold : ∀ nodes : List Node,
      nodes.foldlM (fun (_ : Unit) _ => (.ok () : Except Fault Unit)) () = .ok () := by
    intro nodes
    induction nodes with
    | nil => rfl
    | cons node nodes ih => exact ih
  obtain ⟨it, u, hscan, _⟩ := h.holds.eachNode_clean h.allLive.clean (hfold (nodesOf store))
  exact ⟨it, u, hscan⟩

/-- A request for nodes answers with what its chain means, and returns unless a deleted
slot or a filter is in its way. The pass that collects, with the matchers that the pass
that counts leaves behind, finds the nodes that have been counted. -/
theorem handleGetNodesByFilterRequest_answer (h : ServerReachable pageSize doc)
    (hnamed : ∀ filter ∈ request.filters, Named filter) :
    (∀ response t, handleGetNodesByFilterRequest request doc = .ok response t →
      List.Forall₂ SentAs (answer (liveNodes doc) request.filters nullNodeId) response.nodes) ∧
    (ScanReturns doc → Evaluates (liveNodes doc) request.filters nullNodeId →
      ∃ response t, handleGetNodesByFilterRequest request doc = .ok response t) ∧
    ∀ matchers n left s, fsNewNodeMatcherArray request = .ok matchers →
      documentCountNodesByConditionSequence matchers doc = .ok (n, left) s → n ≠ 0 →
        ∃ t, documentGetNodesByConditionSequence left n s =
          .ok (.ok (answer (liveNodes doc) request.filters nullNodeId), left) t := by
  refine ⟨fun response t hrun => getNodesByFilter_answers h hrun, getNodesByFilter_returns h hnamed, ?second⟩
  case second =>
    intro matchers n left s hmatchers hcount hn
    obtain ⟨store, hs, _⟩ := h.document.tree
    rw [hs.liveNodes_eq]
    have hclean := hs.countSequence_visits hcount hn
    obtain ⟨h1, heval, rfl, hlength⟩ := hs.countSequence_ok hcount
    have hroom : ∀ matcher ∈ matchers, matcher.conditions.length ≤ 1 := fun matcher hmatcher =>
      ((fsNewNodeMatcherArray_length hmatchers).2 matcher hmatcher).le
    have hsome : selected (nodesOf store) matchers nullNodeId ≠ [] := by
      rintro hnil
      rw [hnil] at hlength
      exact hn hlength
    obtain ⟨t, hget, _⟩ := h1.getSequence_clean hclean (evaluable_leftBehind heval)
      (fun m hm => (leftBehind_length_le hroom nullNodeId m hm).trans (by decide))
      (by rw [selected_leftBehind]; exact hsome)
    rw [selected_leftBehind] at hget
    rw [hlength, ← selected_of_matchers hmatchers]
    exact ⟨t, hget⟩

/-- A chain for the children of the first root whose text is `c`. -/
def childC : RpcFilterChain :=
  ⟨[⟨.all, .notSet, none⟩, ⟨.equal, .stringArgument [99], some (bytesOf "text")⟩]⟩

theorem childC_conditions : List.Forall₂ (fun filter condition => filterCondition filter = .ok condition)
    childC.filters [nodeConditionAll, fsSingleArgumentCondition (.ok [99])] := .cons rfl (.cons rfl .nil)

theorem childC_evaluates : Evaluates family childC.filters nullNodeId := by
  refine ⟨fun node _ => ⟨true, rfl⟩, fun first _ => ⟨?_, fun _ _ => trivial⟩⟩
  simp only [family, List.forall_mem_cons]
  exact ⟨⟨_, rfl⟩, ⟨_, rfl⟩, ⟨_, rfl⟩, ⟨_, rfl⟩, List.forall_mem_nil _⟩

theorem childC_answer : answer family childC.filters nullNodeId = [oneChar ⟨0, 2⟩ rootNodeId 99] := by
  decide +kernel

def rootValue : NodeValue := nodeValueOfBytes .int32 (encodeInt32 (1 : Int32).toInt)

theorem rootValue_received : convertFromRpcNodeValue ⟨.int32, .intValue 1⟩ = .ok rootValue := (rfl)

theorem handleGetNodesByFilterRequest_answer_root :
    ∃ doc response t, ServerReachable 4096 doc ∧ liveNodes doc = family ∧
      handleGetNodesByFilterRequest childC doc = .ok response t ∧
      List.Forall₂ SentAs [oneChar ⟨0, 2⟩ rootNodeId 99] response.nodes := by
  obtain ⟨doc, slots, hr, hdoc, _, hnodes⟩ := exists_family
  have hlive : liveNodes doc = family := by rw [hdoc.holds.liveNodes_eq, hnodes]
  have hnamed : ∀ filter ∈ childC.filters, Named filter := by
    simp only [childC, List.forall_mem_cons]
    exact ⟨Or.inl rfl, Or.inr ⟨_, _, rfl, rfl⟩, List.forall_mem_nil _⟩
  obtain ⟨hanswer, hreturns, _⟩ := handleGetNodesByFilterRequest_answer hr hnamed
  obtain ⟨response, t, hget⟩ := hreturns (scanReturns_of_packed hdoc) (hlive ▸ childC_evaluates)
  have hsent := hanswer response t hget
  rw [hlive, childC_answer] at hsent
  exact ⟨doc, response, t, hr, hlive, hget, hsent⟩

end Get

section Delete

variable {pageSize : Nat} {doc t : Document} {fuel : Nat} {tmpCounts : Nat → Int} {request : RpcFilterChain}
  {response : RpcDeletedNodes}

theorem exists_named_iff {messages : List RpcNode} {nodes : List Node}
    (h : List.Forall₂ (fun message node => convertFromRpcNodeId message.id = .ok node.id) messages nodes)
    (P : NodeId → Prop) :
    (∃ node ∈ nodes, P node.id) ↔ ∃ message ∈ messages, ∃ id, convertFromRpcNodeId message.id = .ok id ∧ P id := by
  induction h with
  | nil => simp
  | @cons message node messages nodes hname _ ih =>
      rw [List.exists_mem_cons_iff, List.exists_mem_cons_iff, ih, hname]
      refine or_congr_left ⟨fun hnode => ⟨node.id, rfl, hnode⟩, ?_⟩
      rintro ⟨id, hid, hnode⟩
      cases hid
      exact hnode

/-- A delete request that returns has deleted the subtrees of the nodes that a request
for the chain of filters returns, and answers with their number. Every deletion of a
subtree ends, and counts the nodes that are gone. -/
theorem handleDeleteNodesByFilterRequest_selected (h : ReachableDocument pageSize doc)
    (hrun : handleDeleteNodesByFilterRequest fuel tmpCounts request doc = .ok response t) :
    (∃ messages u, handleGetNodesByFilterRequest request doc = .ok messages u ∧
      response.count = messages.nodes.length ∧
      ∀ node, node ∈ liveNodes t ↔ node ∈ liveNodes doc ∧ ¬∃ message ∈ messages.nodes, ∃ id,
        convertFromRpcNodeId message.id = .ok id ∧ Below (liveNodes doc) id node.id) ∧
    ∀ s, ReachableDocument pageSize s → ∀ fuel' id count,
      ((liveNodes s).length < fuel' → ∀ u, deleteNodeWithAllDescendants fuel' id count s ≠ .error .diverges u) ∧
      ∀ res count' u, deleteNodeWithAllDescendants fuel' id count s = .ok (res, count') u →
        ReachableDocument pageSize u ∧
          (∀ node, node ∈ liveNodes u ↔ node ∈ liveNodes s ∧ ¬Below (liveNodes s) id node.id) ∧
          count' - count = (liveNodes s).length - (liveNodes u).length := by
  refine ⟨?_, fun s hs fuel' id count => ⟨fun hfuel u hdiverges => ?_, fun res count' u hdelete => ?_⟩⟩
  · obtain ⟨store, hs, _⟩ := h.tree
    obtain ⟨matchers, messages, u, store', _, _, hget, hconvert, hcount, ht, hnodes⟩ :=
      handleDeleteNodesByFilterRequest_nodes hs hrun
    refine ⟨messages, u, hget, hcount, fun node => ?_⟩
    rw [ht.liveNodes_eq, hs.liveNodes_eq, hnodes]
    refine and_congr_right fun _ => not_congr ?_
    exact exists_named_iff
      (convertToRpcNodes_ids hconvert fun n hn => idsFit hs (selected_subset matchers nullNodeId hn))
      fun id => Below (nodesOf store) id node.id
  · obtain ⟨store, hstore, hrooted⟩ := hs.tree
    rw [hstore.liveNodes_eq] at hfuel
    have habove : above (nodesOf store) id ≤ (nodesOf store).length := List.countP_le_length
    exact deleteNodeWithAllDescendants_stops hstore hrooted (by omega) _ u hdiverges rfl
  · obtain ⟨store, hstore, _⟩ := hs.tree
    obtain ⟨_, store', hu, hnodes, hcount⟩ := deleteNodeWithAllDescendants_ok hstore hdelete
    rw [hu.liveNodes_eq, hstore.liveNodes_eq]
    exact ⟨reachable_call hs (.deleteNodeWithAllDescendants hdelete) hu, hnodes, by omega⟩

/-- A delete request that returns has deleted the subtrees of the nodes that its chain
means, and answers with their number. -/
theorem deleteNodesByFilter_remaining (h : ReachableDocument pageSize doc)
    (hrun : handleDeleteNodesByFilterRequest fuel tmpCounts request doc = .ok response t) :
    response.count = (answer (liveNodes doc) request.filters nullNodeId).length ∧
      ∀ node, node ∈ liveNodes t ↔ node ∈ liveNodes doc ∧
        ¬∃ c ∈ answer (liveNodes doc) request.filters nullNodeId, Below (liveNodes doc) c.id node.id := by
  obtain ⟨store, hs, _⟩ := h.tree
  obtain ⟨matchers, messages, _, store', hmatchers, _, _, hconvert, hcount, ht, hnodes⟩ :=
    handleDeleteNodesByFilterRequest_nodes hs hrun
  have hlength := (convertToRpcNodes_eq_ok.mp hconvert).length_eq
  rw [selected_of_matchers hmatchers] at hlength hnodes
  rw [ht.liveNodes_eq, hs.liveNodes_eq]
  exact ⟨by rw [hcount, hlength], hnodes⟩

theorem getSingleByFilter {store : List (List Slot)} (h : Packed pageSize store doc) {single : Node}
    {conditions : List NodeConditionFunc}
    (hconditions : List.Forall₂ (fun filter condition => filterCondition filter = .ok condition)
      request.filters conditions)
    (heval : Evaluates (nodesOf store) request.filters nullNodeId)
    (hanswer : answer (nodesOf store) request.filters nullNodeId = [single])
    (hvalue : Convertible single.value) (hlive : single ∈ nodesOf store) :
    ∃ message s, getNodesByFilterRequest request doc = .ok ⟨[message]⟩ s ∧ SentAs single message ∧
      Packed pageSize store s := by
  have hmatchers := fsNewNodeMatcherArray_eq_ok.mpr ⟨conditions, rfl, hconditions⟩
  have hselected := (selected_eq_answer hconditions nullNodeId).trans hanswer
  obtain ⟨message, hmessage, hsent⟩ := hvalue.toRpcNode (idsFit h.holds hlive)
  have hconvert : convertToRpcNodes [single] = .ok ⟨[message]⟩ :=
    convertToRpcNodes_eq_ok.mpr (List.Forall₂.cons hmessage List.Forall₂.nil)
  obtain ⟨response, s, hget⟩ := getNodesByFilterRequest_clean h.holds h.allLive.clean hmatchers
    (evaluable_of_evaluates hconditions heval) ⟨⟨[message]⟩, by rw [hselected]; exact hconvert⟩
  obtain ⟨hs, matchers', hmatchers', _, hresponse⟩ := getNodesByFilterRequest_ok h.holds hget
  rw [hmatchers] at hmatchers'
  cases hmatchers'
  rw [hselected, hconvert] at hresponse
  cases hresponse
  exact ⟨message, s, hget, hsent, hs, h.allLive⟩

theorem deleteSingleByFilter {store store' : List (List Slot)} (h : Packed pageSize store doc) {single : Node}
    {conditions : List NodeConditionFunc}
    (hconditions : List.Forall₂ (fun filter condition => filterCondition filter = .ok condition)
      request.filters conditions)
    (heval : Evaluates (nodesOf store) request.filters nullNodeId)
    (hanswer : answer (nodesOf store) request.filters nullNodeId = [single])
    (hvalue : Convertible single.value) (hlive : single ∈ nodesOf store)
    (hdeletes : ∀ s, Packed pageSize store s → ∃ t count,
      deleteNodeWithAllDescendants fuel single.id (tmpCounts 0) s = .ok (.ok (), count) t ∧ Packed pageSize store' t) :
    ∃ t, handleDeleteNodesByFilterRequest fuel tmpCounts request doc = .ok ⟨1⟩ t ∧ Packed pageSize store' t := by
  obtain ⟨message, s, hget, hsent, hs⟩ := getSingleByFilter h hconditions heval hanswer hvalue hlive
  obtain ⟨t, count, hdelete, ht⟩ := hdeletes s hs
  refine ⟨t, ?_, ht⟩
  rw [handleDeleteNodesByFilterRequest]
  simp only [run_bind, hget, andThen_ok, List.length_singleton, one_ne_zero, if_false, deleteNodesLoop,
    hsent.id, run_lift_ok, hdelete, run_abortIfFail_ok, run_pure, Nat.cast_one]

theorem deleteLeafByFilter {store : List (List Slot)} (h : Packed pageSize store doc) {k i : Nat}
    {slots : List Slot} {leaf : Node} {conditions : List NodeConditionFunc}
    (hconditions : List.Forall₂ (fun filter condition => filterCondition filter = .ok condition)
      request.filters conditions)
    (heval : Evaluates (nodesOf store) request.filters nullNodeId)
    (hanswer : answer (nodesOf store) request.filters nullNodeId = [leaf])
    (hvalue : Convertible leaf.value) (hk : store[k]? = some slots) (hi : i + 1 = slots.length)
    (hid : leaf.id = ⟨k, i⟩) (hlive : leaf ∈ nodesOf store)
    (hleaf : ∀ node ∈ nodesOf store, node.parentId ≠ ⟨k, i⟩) (fuel : Nat) (tmpCounts : Nat → Int) :
    ∃ t, handleDeleteNodesByFilterRequest (fuel + 1) tmpCounts request doc = .ok ⟨1⟩ t ∧
      Packed pageSize (deleteAt store k i) t := by
  refine deleteSingleByFilter h hconditions heval hanswer hvalue hlive fun s hs => ?_
  obtain ⟨t, hdelete, ht⟩ := hs.deleteLeaf hk hi ⟨leaf, hlive, hid⟩ hleaf fuel (tmpCounts 0)
  exact ⟨t, _, by rw [hid]; exact hdelete, ht⟩

/-- The second child of the root is deleted with the node below it. -/
theorem handleDeleteNodesByFilterRequest_selected_root :
    ∃ doc messages u t, ReachableDocument 4096 doc ∧ liveNodes doc = family ∧
      handleDeleteNodesByFilterRequest 5 (fun _ => 7) childC doc = .ok ⟨1⟩ t ∧
      handleGetNodesByFilterRequest childC doc = .ok messages u ∧ messages.nodes.length = 1 ∧
      ∀ node, node ∈ liveNodes t ↔ node ∈ family ∧ ¬∃ message ∈ messages.nodes, ∃ id,
        convertFromRpcNodeId message.id = .ok id ∧ Below family id node.id := by
  obtain ⟨doc, slots, hr, hdoc, hlen, hnodes⟩ := exists_family
  have hlive : liveNodes doc = family := by rw [hdoc.holds.liveNodes_eq, hnodes]
  have hpair (s : Document) (hs : Packed 4096 [slots] s) : ∃ t count,
      deleteNodeWithAllDescendants 5 (⟨0, 2⟩ : NodeId) 7 s = .ok (.ok (), count) t ∧
        Packed 4096 (deleteAt (deleteAt [slots] 0 3) 0 2) t := by
    obtain ⟨t, hdelete, ht⟩ := hs.deletePair (k := 0) (i := 2) rfl hlen.symm
      ⟨oneChar ⟨0, 2⟩ rootNodeId 99, by rw [hnodes]; simp [family], rfl⟩ (by rw [hnodes]; rfl) rfl
      (by rw [hnodes]; decide) 3 7
    exact ⟨t, _, hdelete, ht⟩
  have hselected : ∃ t, handleDeleteNodesByFilterRequest 5 (fun _ => 7) childC doc = .ok ⟨1⟩ t ∧
      Packed 4096 (deleteAt (deleteAt [slots] 0 3) 0 2) t :=
    deleteSingleByFilter hdoc childC_conditions (hnodes ▸ childC_evaluates) (by rw [hnodes]; exact childC_answer)
      ⟨_, oneChar_received (show (99 : UInt8) ≠ 0 by decide) ⟨0, 2⟩ rootNodeId⟩ (by rw [hnodes]; simp [family]) hpair
  obtain ⟨t, hdelete, _⟩ := hselected
  obtain ⟨⟨messages, u, hget, hcount, hleft⟩, _⟩ :=
    handleDeleteNodesByFilterRequest_selected hr.document hdelete
  rw [hlive] at hleft
  exact ⟨doc, messages, u, t, hr.document, hlive, hdelete, hget, by simpa using hcount.symm, hleft⟩

end Delete

end DocumentDb.Server
