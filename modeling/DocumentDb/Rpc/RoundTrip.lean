import DocumentDb.Rpc.Converters

namespace DocumentDb.Rpc

open Storage Program Bytes Documents

section Ids

variable {id : NodeId}

theorem toNat_ofNat_toUInt32 (i : Int) : (UInt32.ofNat (toUInt32 i)).toNat = toUInt32 i :=
  UInt32.toNat_ofNat_of_lt' (toUInt32_lt i)

theorem convertFromRpcNodeId_convertNodeIdToRpc (hpage : IsInt32 id.pageId) (hitem : IsInt32 id.itemId) :
    convertFromRpcNodeId (some (convertNodeIdToRpc id)) = .ok id := by
  obtain ⟨pageId, itemId⟩ := id
  change Except.ok _ = _
  simp only [convertNodeIdToRpc, toNat_ofNat_toUInt32, toInt32_toUInt32]
  rw [toInt32_of_range hpage.1 hpage.2, toInt32_of_range hitem.1 hitem.2]

end Ids

section Values

variable {value : NodeValue} {message : RpcNodeValue} {bytes string : List UInt8}

/-- The values that come out of messages. -/
def Convertible (value : NodeValue) : Prop := ∃ message, convertFromRpcNodeValue message = .ok value

theorem nodeValueOfBytes_eq (type : ValueType) (h : bytes.length ≤ sizeofUnion) :
    (nodeValueOfBytes type bytes).union = bytes ++ List.replicate (sizeofUnion - bytes.length) 0 := by
  change bytes.takeD sizeofUnion 0 = _
  generalize sizeofUnion = n at h
  induction bytes generalizing n with
  | nil => simp
  | cons b bytes ih =>
      cases n with
      | zero => simp at h
      | succ n =>
          have htail : bytes.takeD n 0 = bytes ++ List.replicate (n - bytes.length) 0 := ih n (by simpa using h)
          change b :: bytes.takeD n 0 = _
          rw [htail, List.length_cons, Nat.add_sub_add_right, List.cons_append]

theorem slice_nodeValueOfBytes (type : ValueType) {n : Nat} (h : bytes.length ≤ sizeofUnion)
    (hn : n = bytes.length) : slice (nodeValueOfBytes type bytes).union 0 n = bytes := by
  subst hn
  rw [nodeValueOfBytes_eq type h, slice_append_left _ _ (by omega), slice_zero_length]

theorem nodeValueStringNew_ok (h : nodeValueStringNew string = .ok value) :
    (cString string).length < 256 ∧ value.type = .string ∧ value.stringValue = .ok (cString string) ∧
      decodeLE (slice value.union 0 4) = (cString string).length := by
  rw [nodeValueStringNew] at h
  split at h
  · cases h
  · rename_i hlt
    cases h
    have hlen : (encodeUInt32 (cString string).length ++ cString string).length =
        4 + (cString string).length := by simp
    have hunion := nodeValueOfBytes_eq .string
      (show (encodeUInt32 (cString string).length ++ cString string).length ≤ sizeofUnion by
        rw [hlen, sizeofUnion]; omega)
    rw [hlen, List.append_assoc] at hunion
    obtain ⟨m, hm⟩ : ∃ m, sizeofUnion - (4 + (cString string).length) = m + 1 :=
      ⟨255 - (cString string).length, by rw [sizeofUnion]; omega⟩
    have htext : slice (nodeValueOfBytes .string
        (encodeUInt32 (cString string).length ++ cString string)).union 4 256 =
          cString string ++ 0 :: List.replicate m 0 := by
      rw [hunion, hm, slice_append_right _ _ _ (by simp), length_encodeUInt32, Nat.sub_self, slice,
        List.drop_zero, List.replicate_succ]
      refine List.take_of_length_le ?_
      rw [sizeofUnion] at hm
      simp only [List.length_append, List.length_cons, List.length_replicate]
      omega
    refine ⟨by omega, rfl, ?_, ?_⟩
    · rw [NodeValue.stringValue, htext, if_pos (by simp), cString_append_zero (zero_notMem_cString string)]
    · rw [hunion, slice_append_left _ _ (by simp)]
      have hword := slice_zero_length (encodeUInt32 (cString string).length)
      rw [length_encodeUInt32] at hword
      rw [hword, decodeLE_encodeUInt32 (by omega)]

/-- The type and the member of a message go together, and a string is one that a node
value can hold. -/
def Agrees : RpcNodeValue → Prop
  | ⟨.int32, .intValue _⟩ => True
  | ⟨.double, .doubleValue _⟩ => True
  | ⟨.string, .stringValue string⟩ => string.length < 256 ∧ 0 ∉ string
  | ⟨.bool, .boolValue _⟩ => True
  | _ => False

theorem Agrees.roundTrip (h : Agrees message) :
    ∃ value, convertFromRpcNodeValue message = .ok value ∧ convertToRpcNodeValue value = .ok message := by
  obtain ⟨type, member⟩ := message
  cases type <;> cases member <;> try exact absurd h not_false
  case int32.intValue i =>
    refine ⟨_, rfl, ?_⟩
    have hslice := slice_nodeValueOfBytes .int32 (n := 4)
      (show (encodeInt32 i.toInt).length ≤ sizeofUnion by simp [sizeofUnion]) (by simp)
    have hback : decodeInt32 (encodeInt32 i.toInt) = i.toInt :=
      decodeInt32_encodeInt32 i.le_toInt i.toInt_lt
    change Except.ok (⟨.int32, .intValue (Int32.ofInt (decodeInt32 (slice _ 0 4)))⟩ : RpcNodeValue) = _
    rw [hslice, hback, Int32.ofInt_toInt]
  case double.doubleValue bits =>
    refine ⟨_, rfl, ?_⟩
    have hslice := slice_nodeValueOfBytes .double (n := 8)
      (show (encodeLE 8 bits.toNat).length ≤ sizeofUnion by simp [sizeofUnion]) (by simp)
    have hback : decodeLE (encodeLE 8 bits.toNat) = bits.toNat := by
      rw [decodeLE_encodeLE]
      exact Nat.mod_eq_of_lt bits.toNat_lt
    change Except.ok (⟨.double, .doubleValue (UInt64.ofNat (decodeLE (slice _ 0 8)))⟩ : RpcNodeValue) = _
    rw [hslice, hback, UInt64.ofNat_toNat]
  case string.stringValue string =>
    obtain ⟨hlt, hzero⟩ := h
    have hself := cString_eq_self hzero
    have hvalue : ∃ value, nodeValueStringNew string = .ok value := by
      rw [nodeValueStringNew, hself, if_neg (by omega)]
      exact ⟨_, rfl⟩
    obtain ⟨value, hvalue⟩ := hvalue
    obtain ⟨hlen, htype, hstring, hlength⟩ := nodeValueStringNew_ok hvalue
    rw [hself] at hlen hstring hlength
    refine ⟨value, hvalue, ?_⟩
    have hsize : ¬stringCopySize value < string.length + 1 := by
      rw [stringCopySize, hlength, toUInt32_of_lt (by omega)]
      omega
    rw [convertToRpcNodeValue, htype, hstring]
    change (if _ then _ else _ : Except Fault RpcNodeValue) = _
    rw [if_neg hsize]
    rfl
  case bool.boolValue b =>
    refine ⟨_, rfl, ?_⟩
    cases b <;> rfl

theorem Convertible.exists_agrees (h : Convertible value) :
    ∃ message, Agrees message ∧ convertFromRpcNodeValue message = .ok value := by
  obtain ⟨⟨type, member⟩, h⟩ := h
  cases type with
  | unknown | fileInfo => cases h
  | int32 =>
      simp only [convertFromRpcNodeValue] at h
      cases hmember : intValue member with
      | error e => rw [hmember] at h; cases h
      | ok i =>
          rw [hmember] at h
          exact ⟨⟨.int32, .intValue i⟩, trivial, h⟩
  | double =>
      simp only [convertFromRpcNodeValue] at h
      cases hmember : doubleValue member with
      | error e => rw [hmember] at h; cases h
      | ok bits =>
          rw [hmember] at h
          exact ⟨⟨.double, .doubleValue bits⟩, trivial, h⟩
  | string =>
      simp only [convertFromRpcNodeValue] at h
      cases hmember : stringValue member with
      | error e => rw [hmember] at h; cases h
      | ok string =>
          rw [hmember] at h
          change nodeValueStringNew string = .ok value at h
          refine ⟨⟨.string, .stringValue (cString string)⟩,
            ⟨(nodeValueStringNew_ok h).1, zero_notMem_cString string⟩, ?_⟩
          change nodeValueStringNew (cString string) = .ok value
          rw [← h, nodeValueStringNew, nodeValueStringNew, cString_eq_self (zero_notMem_cString string)]
  | bool =>
      simp only [convertFromRpcNodeValue] at h
      cases hmember : boolValue member with
      | error e => rw [hmember] at h; cases h
      | ok b =>
          rw [hmember] at h
          exact ⟨⟨.bool, .boolValue b⟩, trivial, h⟩

theorem Convertible.to_rpc (h : Convertible value) :
    ∃ message, convertToRpcNodeValue value = .ok message ∧ convertFromRpcNodeValue message = .ok value := by
  obtain ⟨message, hagrees, hvalue⟩ := h.exists_agrees
  obtain ⟨value', hvalue', hback⟩ := hagrees.roundTrip
  rw [hvalue] at hvalue'
  cases hvalue'
  exact ⟨message, hback, hvalue⟩

def SameValue (a b : NodeValue) : Prop :=
  a.type = b.type ∧
    match a.type with
    | .int32 => decodeInt32 (slice a.union 0 4) = decodeInt32 (slice b.union 0 4)
    | .double => decodeLE (slice a.union 0 8) = decodeLE (slice b.union 0 8)
    | .string => decodeLE (slice a.union 0 4) = decodeLE (slice b.union 0 4) ∧ a.stringValue = b.stringValue
    | .bool => (a.union.headD 0 != 0) = (b.union.headD 0 != 0)
    | .unknown | .fileInfo => False

/-- A number, or a string that has been made by `node_value_string_new`. -/
def Transferable (value : NodeValue) : Prop :=
  value.type = .int32 ∨ value.type = .double ∨ value.type = .bool ∨
    ∃ string, string.length < 256 ∧ 0 ∉ string ∧ nodeValueStringNew string = .ok value

theorem Transferable.roundTrip (h : Transferable value) :
    ∃ message value', convertToRpcNodeValue value = .ok message ∧
      convertFromRpcNodeValue message = .ok value' ∧ SameValue value' value := by
  rcases h with htype | htype | htype | ⟨string, hlen, hzero, hnew⟩
  · obtain ⟨hlow, hhigh⟩ := isInt32_decodeInt32 (slice value.union 0 4)
    have hword : (Int32.ofInt (decodeInt32 (slice value.union 0 4))).toInt = decodeInt32 (slice value.union 0 4) :=
      Int32.toInt_ofInt_of_le hlow hhigh
    refine ⟨⟨.int32, .intValue _⟩, _, by rw [convertToRpcNodeValue, htype]; rfl, rfl, htype.symm, ?_⟩
    change decodeInt32 (slice (nodeValueOfBytes .int32 (encodeInt32 (Int32.toInt _))).union 0 4) = _
    rw [hword, slice_nodeValueOfBytes .int32 (by simp [sizeofUnion]) (by simp)]
    exact decodeInt32_encodeInt32 hlow hhigh
  · have hlt : decodeLE (slice value.union 0 8) < 2 ^ 64 := by
      have h := decodeLE_lt (slice value.union 0 8)
      rw [length_slice_of_le (by simp [value.length_union, sizeofUnion])] at h
      exact h
    refine ⟨⟨.double, .doubleValue _⟩, _, by rw [convertToRpcNodeValue, htype]; rfl, rfl, htype.symm, ?_⟩
    change decodeLE (slice (nodeValueOfBytes .double (encodeLE 8 (UInt64.toNat _))).union 0 8) = _
    rw [UInt64.toNat_ofNat_of_lt' hlt, slice_nodeValueOfBytes .double (by simp [sizeofUnion]) (by simp),
      decodeLE_encodeLE]
    exact Nat.mod_eq_of_lt hlt
  · refine ⟨⟨.bool, .boolValue _⟩, _, by rw [convertToRpcNodeValue, htype]; rfl, rfl, htype.symm, ?_⟩
    change ((nodeValueOfBytes .bool [if (value.union.headD 0 != 0) = true then 1 else 0]).union.headD 0 != 0) = _
    cases value.union.headD 0 != 0 <;> rfl
  · have hvalue : Convertible value := ⟨⟨.string, .stringValue string⟩, hnew⟩
    obtain ⟨message, hto, hfrom⟩ := hvalue.to_rpc
    obtain ⟨_, htype, _, _⟩ := nodeValueStringNew_ok hnew
    refine ⟨message, value, hto, hfrom, rfl, ?_⟩
    rw [htype]
    exact ⟨rfl, rfl⟩

end Values

section Nodes

variable {node : Node} {message : RpcNode} {nodes : List Node} {messages : RpcNodes}

/-- The message has the id, the parent and the value of the node. -/
structure SentAs (node : Node) (message : RpcNode) : Prop where
  id : convertFromRpcNodeId message.id = .ok node.id
  parentId : convertFromRpcNodeId message.parentId = .ok node.parentId
  value : ∃ value, message.value = some value ∧ convertFromRpcNodeValue value = .ok node.value

structure IdsFit (node : Node) : Prop where
  id_pageId : IsInt32 node.id.pageId
  id_itemId : IsInt32 node.id.itemId
  parentId_pageId : IsInt32 node.parentId.pageId
  parentId_itemId : IsInt32 node.parentId.itemId

theorem convertToRpcNode_ok (h : convertToRpcNode node = .ok message) :
    message.id = some (convertNodeIdToRpc node.id) ∧
      message.parentId = some (convertNodeIdToRpc node.parentId) ∧
      ∃ value, message.value = some value ∧ convertToRpcNodeValue node.value = .ok value := by
  rw [convertToRpcNode] at h
  cases hvalue : convertToRpcNodeValue node.value with
  | error e => rw [hvalue] at h; cases h
  | ok value =>
      rw [hvalue] at h
      cases h
      exact ⟨rfl, rfl, value, rfl, rfl⟩

theorem convertFromRpcNodeId_of_ok (h : convertToRpcNode node = .ok message) (hids : IdsFit node) :
    convertFromRpcNodeId message.id = .ok node.id := by
  rw [(convertToRpcNode_ok h).1]
  exact convertFromRpcNodeId_convertNodeIdToRpc hids.id_pageId hids.id_itemId

theorem Convertible.toRpcNode (hvalue : Convertible node.value) (hids : IdsFit node) :
    ∃ message, convertToRpcNode node = .ok message ∧ SentAs node message := by
  obtain ⟨value, hto, hfrom⟩ := hvalue.to_rpc
  refine ⟨⟨some (convertNodeIdToRpc node.id), some (convertNodeIdToRpc node.parentId), some value⟩, ?_,
    convertFromRpcNodeId_convertNodeIdToRpc hids.id_pageId hids.id_itemId,
    convertFromRpcNodeId_convertNodeIdToRpc hids.parentId_pageId hids.parentId_itemId, value, rfl, hfrom⟩
  rw [convertToRpcNode]
  rw [hto]
  rfl

theorem convertToRpcNodes_eq_ok :
    convertToRpcNodes nodes = .ok messages ↔
      List.Forall₂ (fun node message => convertToRpcNode node = .ok message) nodes messages.nodes := by
  rw [← mapM_eq_ok]
  rw [convertToRpcNodes]
  obtain ⟨messages⟩ := messages
  cases nodes.mapM convertToRpcNode with
  | error e => simp [bind, Except.bind]
  | ok sent => simp [bind, Except.bind, pure, Except.pure]

theorem convertToRpcNodes_ids (h : convertToRpcNodes nodes = .ok messages)
    (hids : ∀ node ∈ nodes, IdsFit node) :
    List.Forall₂ (fun message node => convertFromRpcNodeId message.id = .ok node.id) messages.nodes nodes := by
  obtain ⟨messages⟩ := messages
  have hsent := convertToRpcNodes_eq_ok.mp h
  clear h
  dsimp only at hsent ⊢
  induction hsent with
  | nil => exact List.Forall₂.nil
  | cons hnode _ ih =>
      obtain ⟨hid, hids⟩ := List.forall_mem_cons.mp hids
      exact List.Forall₂.cons (convertFromRpcNodeId_of_ok hnode hid) (ih hids)

theorem convertToRpcNodes_exists {R : Node → RpcNode → Prop}
    (h : ∀ node ∈ nodes, ∃ message, convertToRpcNode node = .ok message ∧ R node message) :
    ∃ messages, convertToRpcNodes nodes = .ok messages ∧ List.Forall₂ R nodes messages.nodes := by
  obtain ⟨messages, hsent, hall⟩ := mapM_exists h
  exact ⟨⟨messages⟩, convertToRpcNodes_eq_ok.mpr (mapM_eq_ok.mp hsent), hall⟩

theorem convertToRpcNodes_convertible (hvalues : ∀ node ∈ nodes, Convertible node.value)
    (hids : ∀ node ∈ nodes, IdsFit node) :
    ∃ messages, convertToRpcNodes nodes = .ok messages ∧ List.Forall₂ SentAs nodes messages.nodes := by
  apply convertToRpcNodes_exists
  intro node hnode
  exact (hvalues node hnode).toRpcNode (hids node hnode)

/-- What is received has the ids of the node, and its value says the same. -/
structure ComesBack (node : Node) (message : RpcNode) : Prop where
  id : convertFromRpcNodeId message.id = .ok node.id
  parentId : convertFromRpcNodeId message.parentId = .ok node.parentId
  value : ∃ sent value, message.value = some sent ∧ convertFromRpcNodeValue sent = .ok value ∧
    SameValue value node.value

theorem Transferable.toRpcNode (hvalue : Transferable node.value) (hids : IdsFit node) :
    ∃ message, convertToRpcNode node = .ok message ∧ ComesBack node message := by
  obtain ⟨sent, value, hto, hfrom, hsame⟩ := hvalue.roundTrip
  refine ⟨⟨some (convertNodeIdToRpc node.id), some (convertNodeIdToRpc node.parentId), some sent⟩, ?_,
    convertFromRpcNodeId_convertNodeIdToRpc hids.id_pageId hids.id_itemId,
    convertFromRpcNodeId_convertNodeIdToRpc hids.parentId_pageId hids.parentId_itemId,
    sent, value, rfl, hfrom, hsame⟩
  rw [convertToRpcNode]
  rw [hto]
  rfl

end Nodes

section Requests

theorem convertFromRpcCreateNodeRequest_ok {request : RpcCreateNodeRequest} {nodeRequest : CreateNodeRequest}
    (h : convertFromRpcCreateNodeRequest request = .ok nodeRequest) :
    convertFromRpcNodeId request.parentId = .ok nodeRequest.parent ∧
      ∃ value, request.value = some value ∧ convertFromRpcNodeValue value = .ok nodeRequest.value := by
  obtain ⟨value, parentId⟩ := request
  rw [convertFromRpcCreateNodeRequest] at h
  split at h
  · cases h
  · rename_i parent hparent
    cases value with
    | none => cases h
    | some value =>
        change (convertFromRpcNodeValue value >>= _) = _ at h
        cases hvalue : convertFromRpcNodeValue value with
        | error e => rw [hvalue] at h; cases h
        | ok v =>
            rw [hvalue] at h
            cases h
            exact ⟨hparent, value, rfl, hvalue⟩

theorem convertFromRpcCreateNodeRequest_eq {parentId : Option RpcNodeId} {message : RpcNodeValue}
    {parent : NodeId} {value : NodeValue} (hparent : convertFromRpcNodeId parentId = .ok parent)
    (hvalue : convertFromRpcNodeValue message = .ok value) :
    convertFromRpcCreateNodeRequest ⟨some message, parentId⟩ =
      .ok ⟨parent, value, (isInt32_of_convertFromRpcNodeId hparent).1,
        (isInt32_of_convertFromRpcNodeId hparent).2⟩ := by
  rw [convertFromRpcCreateNodeRequest]
  split
  · rename_i e herror
    rw [hparent] at herror
    cases herror
  · rename_i parent' hparent'
    rw [hparent] at hparent'
    cases hparent'
    change (convertFromRpcNodeValue message >>= _) = _
    rw [hvalue]
    rfl

/-- The parent of an update that has been received is always the node with the first id. -/
theorem convertFromRpcUpdateNodeRequest_ok {request : RpcUpdateNodeRequest} {nodeRequest : UpdateNodeRequest}
    (h : convertFromRpcUpdateNodeRequest request = .ok nodeRequest) :
    convertFromRpcNodeId request.id = .ok nodeRequest.nodeId ∧ nodeRequest.parentId = ⟨0, 0⟩ ∧
      ∃ value, request.value = some value ∧ convertFromRpcNodeValue value = .ok nodeRequest.newValue := by
  obtain ⟨id, parentId, value⟩ := request
  rw [convertFromRpcUpdateNodeRequest] at h
  cases hid : convertFromRpcNodeId id with
  | error e => rw [hid] at h; cases h
  | ok nodeId =>
      cases value with
      | none => rw [hid] at h; cases h
      | some value =>
          rw [hid] at h
          change (convertFromRpcNodeValue value >>= _) = _ at h
          cases hvalue : convertFromRpcNodeValue value with
          | error e => rw [hvalue] at h; cases h
          | ok v =>
              rw [hvalue] at h
              cases h
              exact ⟨rfl, rfl, value, rfl, hvalue⟩

theorem convertFromRpcUpdateNodeRequest_eq {id parentId : Option RpcNodeId} {message : RpcNodeValue}
    {nodeId : NodeId} {value : NodeValue} (hid : convertFromRpcNodeId id = .ok nodeId)
    (hvalue : convertFromRpcNodeValue message = .ok value) :
    convertFromRpcUpdateNodeRequest ⟨id, parentId, some message⟩ =
      .ok ⟨nodeId, ⟨0, 0⟩, value, ⟨by decide, by decide⟩, by decide, by decide⟩ := by
  rw [convertFromRpcUpdateNodeRequest]
  rw [hid]
  change (convertFromRpcNodeValue message >>= _) = _
  rw [hvalue]
  rfl

def RoundTrips (request : UpdateNodeRequest) : Prop :=
  ∃ message, convertToRpcUpdateNodeRequest request = .ok message ∧
    convertFromRpcUpdateNodeRequest message = .ok request

theorem roundTrips_iff {request : UpdateNodeRequest} (hvalue : Convertible request.newValue)
    (hpage : IsInt32 request.nodeId.pageId) (hitem : IsInt32 request.nodeId.itemId) :
    RoundTrips request ↔ request.parentId = ⟨0, 0⟩ := by
  obtain ⟨nodeId, parentId, newValue, hparentPage, hparentItem⟩ := request
  obtain ⟨message, hto, hfrom⟩ := hvalue.to_rpc
  have hsend : convertToRpcUpdateNodeRequest ⟨nodeId, parentId, newValue, hparentPage, hparentItem⟩ =
      .ok ⟨some (convertNodeIdToRpc nodeId), none, some message⟩ := by
    rw [convertToRpcUpdateNodeRequest]
    rw [hto]
    rfl
  have hreceive : convertFromRpcUpdateNodeRequest ⟨some (convertNodeIdToRpc nodeId), none, some message⟩ = _ :=
    convertFromRpcUpdateNodeRequest_eq (convertFromRpcNodeId_convertNodeIdToRpc hpage hitem) hfrom
  constructor
  · rintro ⟨message', hsend', hreceive'⟩
    rw [hsend] at hsend'
    cases hsend'
    rw [hreceive] at hreceive'
    cases hreceive'
    rfl
  · rintro rfl
    exact ⟨_, hsend, hreceive⟩

/-- Requests, nodes and values come back as they were sent, and a message that agrees with
itself is sent on as it was received. -/
theorem convert_roundTrips {request : CreateNodeRequest} {deleteRequest : DeleteNodeRequest} {nodes : List Node}
    {message : RpcNodeValue} (hrequest : Transferable request.value)
    (hpage : IsInt32 deleteRequest.nodeId.pageId) (hitem : IsInt32 deleteRequest.nodeId.itemId)
    (hids : ∀ node ∈ nodes, IdsFit node) (hvalues : ∀ node ∈ nodes, Transferable node.value)
    (hmessage : Agrees message) :
    (∃ sent received, convertToRpcCreateNodeRequest request = .ok sent ∧
      convertFromRpcCreateNodeRequest sent = .ok received ∧
      received.parent = request.parent ∧ SameValue received.value request.value) ∧
    convertFromRpcDeleteNodeRequest (convertToRpcDeleteNodeRequest deleteRequest) = .ok deleteRequest ∧
    (∃ sent, convertToRpcNodes nodes = .ok sent ∧ List.Forall₂ ComesBack nodes sent.nodes) ∧
    ∃ value, convertFromRpcNodeValue message = .ok value ∧ convertToRpcNodeValue value = .ok message := by
  refine ⟨?_, ?_, ?_, hmessage.roundTrip⟩
  · obtain ⟨sent, value, hto, hfrom, hsame⟩ := hrequest.roundTrip
    have hparent := convertFromRpcNodeId_convertNodeIdToRpc request.isInt32_pageId request.isInt32_itemId
    refine ⟨_, _, ?_, convertFromRpcCreateNodeRequest_eq hparent hfrom, rfl, hsame⟩
    rw [convertToRpcCreateNodeRequest]
    rw [hto]
    rfl
  · rw [convertFromRpcDeleteNodeRequest, convertToRpcDeleteNodeRequest,
      convertFromRpcNodeId_convertNodeIdToRpc hpage hitem]
    rfl
  · apply convertToRpcNodes_exists
    intro node hnode
    exact (hvalues node hnode).toRpcNode (hids node hnode)

/-- A root with a string is created, listed and deleted. -/
theorem convert_roundTrips_root :
    ∃ value : NodeValue, nodeValueStringNew [97, 98] = .ok value ∧
      (∃ sent received,
        convertToRpcCreateNodeRequest ⟨nullNodeId, value, ⟨by decide, by decide⟩, by decide, by decide⟩ = .ok sent ∧
        convertFromRpcCreateNodeRequest sent = .ok received ∧
        received.parent = nullNodeId ∧ SameValue received.value value) ∧
      convertFromRpcDeleteNodeRequest (convertToRpcDeleteNodeRequest ⟨rootNodeId⟩) = .ok ⟨rootNodeId⟩ ∧
      (∃ sent, convertToRpcNodes [⟨rootNodeId, nullNodeId, value⟩] = .ok sent ∧
        List.Forall₂ ComesBack [⟨rootNodeId, nullNodeId, value⟩] sent.nodes) ∧
      ∃ value, convertFromRpcNodeValue ⟨.int32, .intValue 5⟩ = .ok value ∧
        convertToRpcNodeValue value = .ok ⟨.int32, .intValue 5⟩ := by
  have hvalue : Transferable (nodeValueOfBytes .string (encodeUInt32 2 ++ [97, 98])) :=
    Or.inr (Or.inr (Or.inr ⟨[97, 98], by decide, by decide, rfl⟩))
  refine ⟨_, rfl, @convert_roundTrips ⟨nullNodeId, _, ⟨by decide, by decide⟩, by decide, by decide⟩ ⟨rootNodeId⟩
    [⟨rootNodeId, nullNodeId, _⟩] _ hvalue ⟨by decide, by decide⟩ ⟨by decide, by decide⟩ ?_ ?_ trivial⟩
  · intro node hnode
    cases List.mem_singleton.mp hnode
    exact ⟨⟨by decide, by decide⟩, ⟨by decide, by decide⟩, ⟨by decide, by decide⟩, ⟨by decide, by decide⟩⟩
  · intro node hnode
    cases List.mem_singleton.mp hnode
    exact hvalue

end Requests

end DocumentDb.Rpc
