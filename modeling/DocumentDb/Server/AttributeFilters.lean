import DocumentDb.Server.Records

namespace DocumentDb.Server

open Storage Program Bytes Documents Rpc

section Conditions

variable {node : Node} {filter : RpcFilter} {name argument string : List UInt8} {attr : FileInfoAttributes} {b : Bool}
  {condition : NodeConditionFunc}

def HasField (node : Node) (attr : FileInfoAttributes) (text : List UInt8) : Prop :=
  node.value.type = .string ∧
    ∃ string, node.value.stringValue = .ok string ∧ (parseFileInfo string).field attr = some text

def HasAttribute (node : Node) (attr : FileInfoAttributes) (value : List UInt8) : Prop :=
  ∃ text, HasField node attr text ∧ strEq text value = true

theorem HasField.unique {text text' : List UInt8} (h : HasField node attr text) (h' : HasField node attr text') :
    text = text' := by
  obtain ⟨_, string, hstring, hfield⟩ := h
  obtain ⟨_, string', hstring', hfield'⟩ := h'
  rw [hstring] at hstring'
  cases hstring'
  rw [hfield] at hfield'
  exact Option.some.inj hfield'

/-- A filter other than `ALL` needs a string for its argument, and it takes a string from the node, or
a string with a field. -/
def Readable (filter : RpcFilter) (node : Node) : Prop :=
  filter.type = .all ∨
    (∃ argument, filter.argument = .stringArgument argument) ∧ node.value.type = .string ∧
      ∀ name attr, filter.name = some name → fileInfoAttributeFromString name = .ok attr →
        ∃ text, HasField node attr text

theorem field_parseFileInfo_nil (attr : FileInfoAttributes) : (parseFileInfo []).field attr = none := by
  cases attr <;> rfl

theorem fsNewAttributeCondition_eq_ok (hattr : fileInfoAttributeFromString name = .ok attr) :
    fsNewAttributeCondition name (.ok argument) node = .ok b ↔
      ∃ text, HasField node attr text ∧ b = strEq text argument := by
  rw [fsNewAttributeCondition]
  by_cases htype : node.value.type = .string
  swap
  · simp [htype, HasField, bind, Except.bind, throw, throwThe, MonadExceptOf.throw]
  cases hstring : node.value.stringValue with
  | error e => simp [htype, hstring, HasField, bind, Except.bind]
  | ok string =>
      by_cases hempty : string = []
      · subst hempty
        simp [htype, hstring, HasField, bind, Except.bind, throw, throwThe, MonadExceptOf.throw, field_parseFileInfo_nil]
      have hlength : ¬string.length = 0 := by simpa using hempty
      simp only [bind, Except.bind, htype, ne_eq, not_true_eq_false, if_false, hstring, if_neg hlength, hattr,
        fileInfoAttributeMatches, HasField, true_and]
      cases hfield : (parseFileInfo string).field attr with
      | none => simp [hfield]
      | some text => simp [hfield, eq_comm]

theorem fsSingleArgumentCondition_eq_ok :
    fsSingleArgumentCondition (.ok argument) node = .ok b ↔ node.value.type = .string ∧
      ∃ string, node.value.stringValue = .ok string ∧ b = strEq string argument := by
  rw [fsSingleArgumentCondition]
  by_cases htype : node.value.type = .string
  swap
  · simp [htype, bind, Except.bind, throw, throwThe, MonadExceptOf.throw]
  cases hstring : node.value.stringValue with
  | error e => simp [htype, bind, Except.bind]
  | ok string => simp [htype, bind, Except.bind, pure, Except.pure, eq_comm]

end Conditions

section Matchers

variable {node : Node} {filter : RpcFilter} {name argument : List UInt8} {attr : FileInfoAttributes}
  {condition : NodeConditionFunc}

/-- The matcher of a filter has an answer for the node. If the filter asks for an
attribute, the answer is whether the node has it. -/
def Decides (filter : RpcFilter) (matcher : NodeMatcher) (node : Node) : Prop :=
  ∃ b, nodeConditionMatches matcher node = .ok b ∧
    ∀ attr argument, Asks filter attr argument → (b = true ↔ HasAttribute node attr argument)

theorem stringValue_of_convertible (h : Convertible node.value) (htype : node.value.type = .string) :
    ∃ string, node.value.stringValue = .ok string := by
  obtain ⟨⟨type, member⟩, hagrees, hmessage⟩ := h.exists_agrees
  obtain ⟨id, parentId, value⟩ := node
  cases type <;> cases member <;> try exact absurd hagrees not_false
  case string.stringValue string => exact ⟨_, (nodeValueStringNew_ok hmessage).2.2.1⟩
  all_goals
    cases hmessage
    cases htype

/-- A matcher decides about a node exactly when its filter can read it. -/
theorem decides_iff (hcondition : filterCondition filter = .ok condition) (hvalue : Convertible node.value) :
    Decides filter (nodeMatcherNew condition) node ↔ Readable filter node := by
  rw [Decides]
  simp only [nodeConditionMatches_new]
  rcases filterCondition_cases hcondition with ⟨hall, rfl⟩ | ⟨hall, name, pointer, hname, hpointer, hkind⟩
  · refine iff_of_true ⟨true, rfl, ?_⟩ (Or.inl hall)
    intro attr argument hasks
    exact absurd hall hasks.type
  rw [Readable, or_iff_right hall]
  rcases stringArgument_ok hpointer with ⟨argument, hargument, rfl⟩ | ⟨hother, fault, rfl⟩
  swap
  · -- the argument is another member of the union, so every evaluation ends the server
    refine iff_of_false ?_ fun hreadable => hother _ hreadable.1.choose_spec
    rintro ⟨b, hb, _⟩
    rcases hkind with ⟨attr, _, rfl⟩ | ⟨_, rfl⟩
    · exact fsNewAttributeCondition_unreadable fault hb
    · exact fsSingleArgumentCondition_unreadable fault hb
  rw [and_iff_right ⟨argument, hargument⟩]
  rcases hkind with ⟨attr, hattr, rfl⟩ | ⟨hnone, rfl⟩
  · constructor
    · rintro ⟨b, hb, _⟩
      obtain ⟨text, hfield, _⟩ := (fsNewAttributeCondition_eq_ok hattr).mp hb
      refine ⟨hfield.1, ?_⟩
      intro name' attr' hname' hattr'
      rw [hname] at hname'
      cases hname'
      rw [hattr] at hattr'
      cases hattr'
      exact ⟨text, hfield⟩
    · rintro ⟨_, hfields⟩
      obtain ⟨text, hfield⟩ := hfields name attr hname hattr
      refine ⟨_, (fsNewAttributeCondition_eq_ok hattr).mpr ⟨text, hfield, rfl⟩, ?_⟩
      intro attr' argument' hasks
      obtain ⟨name', hname', hattr'⟩ := hasks.name
      have hargument' := hasks.argument
      rw [hname] at hname'
      cases hname'
      rw [hattr] at hattr'
      cases hattr'
      rw [hargument] at hargument'
      cases hargument'
      constructor
      · intro heq
        exact ⟨text, hfield, heq⟩
      · rintro ⟨text', hfield', heq⟩
        rwa [hfield.unique hfield']
  · constructor
    · rintro ⟨b, hb, _⟩
      refine ⟨(fsSingleArgumentCondition_eq_ok.mp hb).1, ?_⟩
      intro name' attr' hname' hattr'
      rw [hname] at hname'
      cases hname'
      exact absurd hattr' (hnone attr')
    · rintro ⟨htype, _⟩
      obtain ⟨string, hstring⟩ := stringValue_of_convertible hvalue htype
      refine ⟨_, fsSingleArgumentCondition_eq_ok.mpr ⟨htype, string, hstring, rfl⟩, ?_⟩
      intro attr' argument' hasks
      obtain ⟨name', hname', hattr'⟩ := hasks.name
      rw [hname] at hname'
      cases hname'
      exact absurd hattr' (hnone attr')

end Matchers

section Chains

variable {pageSize : Nat} {doc : Document} {request : RpcFilterChain} {matchers : List NodeMatcher}

/-- On the nodes of a server's document every matcher of a chain has an answer, which for
an attribute is whether the node has it, exactly when the chain asks with strings, and all nodes are
strings and have the fields that it asks for. -/
theorem matchers_decide_iff (h : ServerReachable pageSize doc)
    (hmatchers : fsNewNodeMatcherArray request = .ok matchers) :
    List.Forall₂ (fun filter matcher => ∀ node ∈ liveNodes doc, Decides filter matcher node) request.filters matchers ↔
      ∀ filter ∈ request.filters, ∀ node ∈ liveNodes doc, Readable filter node := by
  obtain ⟨conditions, rfl, hall⟩ := fsNewNodeMatcherArray_eq_ok.mp hmatchers
  have hvalues := h.convertible
  rw [nodeMatcherArrayNew, List.forall₂_map_right_iff]
  refine forall₂_iff_forall hall ?_
  intro filter condition hcondition
  exact forall₂_congr fun node hnode => decides_iff hcondition (hvalues node hnode)

def attributeChain (name argument : String) : RpcFilterChain :=
  ⟨[⟨.equal, .stringArgument (bytesOf argument), some (bytesOf name)⟩]⟩

theorem attributeChain_matchers {name : String} {attr : FileInfoAttributes}
    (h : fileInfoAttributeFromString (bytesOf name) = .ok attr) (argument : String) :
    fsNewNodeMatcherArray (attributeChain name argument) =
      .ok [nodeMatcherNew (fsNewAttributeCondition (bytesOf name) (.ok (bytesOf argument)))] := by
  have hcondition : filterCondition ⟨.equal, .stringArgument (bytesOf argument), some (bytesOf name)⟩ =
      .ok (fsNewAttributeCondition (bytesOf name) (.ok (bytesOf argument))) := by
    simp [filterCondition, stringArgument, bind, Except.bind, pure, Except.pure, containsFileInfoAttribute_of_ok h]
  exact fsNewNodeMatcherArray_eq_ok.mpr ⟨_, rfl, .cons hcondition .nil⟩

/-- A record with all fields is asked for its owner. -/
theorem matchers_decide_iff_record :
    ∃ doc matchers, ServerReachable 4096 doc ∧ (liveNodes doc).length = 1 ∧
      fsNewNodeMatcherArray (attributeChain "owner" "-") = .ok matchers ∧
      List.Forall₂ (fun filter matcher => ∀ node ∈ liveNodes doc, Decides filter matcher node)
        (attributeChain "owner" "-").filters matchers := by
  obtain ⟨value, hvalue, hrecord⟩ := exists_recordValue .dashes (by decide)
  obtain ⟨doc, slots, hr, hs, _, hnodes⟩ := exists_serverRoot hvalue
  have hmatchers :=
    attributeChain_matchers (show fileInfoAttributeFromString (bytesOf "owner") = .ok .owner by decide) "-"
  refine ⟨doc, _, hr, by rw [hs.holds.liveNodes_eq, hnodes]; rfl, hmatchers, (matchers_decide_iff hr hmatchers).mpr ?_⟩
  intro filter hfilter node hnode
  rw [hs.holds.liveNodes_eq, hnodes, List.mem_singleton] at hnode
  subst hnode
  obtain ⟨htype, hstring⟩ := hrecord rootNodeId nullNodeId
  obtain rfl := List.mem_singleton.mp hfilter
  refine Or.inr ⟨⟨_, rfl⟩, htype, ?_⟩
  intro name attr _ _
  exact ⟨_, htype, _, hstring, by rw [parseFileInfo_text, FileRecord.field_fileInfo]⟩

/-- An integer and a string of one word, each the only node of a document, end the server
when they are asked for their owner. -/
theorem owner_condition_fails :
    (∃ doc matcher node, ServerReachable 4096 doc ∧ node ∈ liveNodes doc ∧
      fsNewNodeMatcherArray (attributeChain "owner" "me") = .ok [matcher] ∧
      nodeConditionMatches matcher node = .error (.assertion "node.value.type == STRING")) ∧
    ∃ doc matcher node, ServerReachable 4096 doc ∧ node ∈ liveNodes doc ∧
      fsNewNodeMatcherArray (attributeChain "owner" "me") = .ok [matcher] ∧
      nodeConditionMatches matcher node = .error (.undefined "null string") := by
  have hmatchers :=
    attributeChain_matchers (show fileInfoAttributeFromString (bytesOf "owner") = .ok .owner by decide) "me"
  constructor
  · obtain ⟨doc, slots, hr, hs, _, hnodes⟩ := exists_serverRoot rootValue_received
    refine ⟨doc, _, _, hr, by rw [hs.holds.liveNodes_eq, hnodes]; exact List.mem_singleton_self _, hmatchers, ?_⟩
    rw [nodeConditionMatches_new]
    rfl
  · obtain ⟨value, hvalue⟩ : ∃ value, nodeValueStringNew (bytesOf "a") = .ok value := ⟨_, rfl⟩
    obtain ⟨doc, slots, hr, hs, _, hnodes⟩ := exists_serverRoot (show convertFromRpcNodeValue
      ⟨.string, .stringValue (bytesOf "a")⟩ = .ok value from hvalue)
    obtain ⟨_, htype, hstring, _⟩ := nodeValueStringNew_ok hvalue
    refine ⟨doc, _, _, hr, by rw [hs.holds.liveNodes_eq, hnodes]; exact List.mem_singleton_self _, hmatchers, ?_⟩
    rw [nodeConditionMatches_new, fsNewAttributeCondition]
    simp only [htype, ne_eq, not_true_eq_false, if_false, hstring]
    rfl

end Chains

end DocumentDb.Server
