import DocumentDb.Client.Paths
import DocumentDb.Server.Branch

namespace DocumentDb.Client

open Storage Program Bytes Documents Rpc Server

section Meaning

structure AttributeFilter where
  attr : FileInfoAttributes
  op : Fin 4
  word : List UInt8
  isWord : IsWord word

def attributeText : FileInfoAttributes → List UInt8
  | .name => bytesOf "name"
  | .owner => bytesOf "owner"
  | .accessTime => bytesOf "access_time"
  | .mimeType => bytesOf "mime_type"

def AttributeFilter.expr (filter : AttributeFilter) : FilterExpr :=
  createFilter (attributeText filter.attr) filter.op (.string filter.word)

def comparison : LogicalOperation → List UInt8 → List UInt8 → Bool
  | .equalsOp, a, b => a == b
  | .notEqualsOp, a, b => a != b
  | .lessThanOp, a, b => decide (a < b)
  | .greaterThanOp, a, b => decide (b < a)
  | _, _, _ => false

def AttributeFilter.admits (filter : AttributeFilter) (field : List UInt8) : Bool :=
  comparison (operationOfInt filter.op) field filter.word

def recordField (node : Node) (attr : FileInfoAttributes) : Option (List UInt8) :=
  match node.value.stringValue with
  | .ok text => (parseFileInfo text).field attr
  | .error _ => none

def accepts (filter : AttributeFilter) (node : Node) : Bool := (recordField node filter.attr).any filter.admits

def pathNode (nodes : List Node) : List (List UInt8) → NodeId → Option NodeId
  | [], id => some id
  | name :: names, id =>
    match nodes.find? fun node => node.parentId == id && recordField node .name == some name with
    | none => none
    | some node => pathNode nodes names node.id

/-- What a query means: the children of the node of its path that satisfy all filters. -/
def meaning (nodes : List Node) (names : List (List UInt8)) (filters : List AttributeFilter) : List Node :=
  match pathNode nodes names nullNodeId with
  | none => []
  | some id => nodes.filter fun node => node.parentId == id && filters.all fun filter => accepts filter node

/-- In a document of records a chain selects what a query means, to be sent and to be
deleted. -/
structure Selects (chain : RpcFilterChain) (names : List (List UInt8)) (filters : List AttributeFilter) : Prop where
  get {pageSize doc} : ServerReachable pageSize doc → (∀ node ∈ liveNodes doc, ∃ record, HasRecord node record) →
    (∀ response t, handleGetNodesByFilterRequest chain doc = .ok response t →
      List.Forall₂ SentAs (meaning (liveNodes doc) names filters) response.nodes) ∧
    (ScanReturns doc → ∃ response t, handleGetNodesByFilterRequest chain doc = .ok response t)
  delete {pageSize doc} : ServerReachable pageSize doc →
    (∀ node ∈ liveNodes doc, ∃ record, HasRecord node record) → ∀ fuel tmpCounts response t,
      handleDeleteNodesByFilterRequest fuel tmpCounts chain doc = .ok response t →
        response.count = (meaning (liveNodes doc) names filters).length ∧
          ∀ node, node ∈ liveNodes t ↔ node ∈ liveNodes doc ∧
            ¬∃ c ∈ meaning (liveNodes doc) names filters, Below (liveNodes doc) c.id node.id

end Meaning

section Fields

variable {node : Node} {record : FileRecord} {filter : AttributeFilter} {s : List UInt8}

theorem recordField_eq (h : HasRecord node record) (attr : FileInfoAttributes) :
    recordField node attr = some (record.field attr) := by
  rw [recordField, h.2]
  dsimp only
  rw [parseFileInfo_text, record.field_fileInfo]

theorem accepts_eq (h : HasRecord node record) (filter : AttributeFilter) :
    accepts filter node = filter.admits (record.field filter.attr) := by
  rw [accepts, recordField_eq h, Option.any_some]

end Fields

section Conversion

def attributeFilter (filter : AttributeFilter) : RpcFilter :=
  ⟨.fieldName, .stringArgument filter.word, some (attributeText filter.attr)⟩

theorem additionalFilter_expr (filter : AttributeFilter) :
    additionalFilter filter.expr = .ok (attributeFilter filter) := by
  have hop : filter.expr.operation ≠ .allOp :=
    (by decide : ∀ op : Fin 4, operationOfInt op ≠ .allOp) filter.op
  rw [additionalFilter]
  rw [if_neg hop]
  rfl

theorem asks_attributeFilter (filter : AttributeFilter) : Asks (attributeFilter filter) filter.attr filter.word :=
  ⟨by simp [attributeFilter], ⟨_, rfl, by cases filter.attr <;> rfl⟩, rfl⟩

end Conversion

section Answers

variable {nodes rest : List Node} {node : Node} {id last : NodeId} {names : List (List UInt8)} {first : AttributeFilter}
  {filters : List AttributeFilter}

theorem answer_path (hrecords : ∀ node ∈ nodes, ∃ record, HasRecord node record) (hwords : ∀ s ∈ names, IsWord s)
    (filter : RpcFilter) (id : NodeId) :
    answer nodes (names.map nameFilter ++ [filter]) id =
      match pathNode nodes names id with
      | none => []
      | some id => childrenWith nodes filter id := by
  induction names generalizing id with
  | nil => rfl
  | cons name names ih =>
      obtain ⟨hname, hnames⟩ := List.forall_mem_cons.mp hwords
      have hlevel : childrenWith nodes (nameFilter name) id =
          nodes.filter fun node => node.parentId == id && recordField node .name == some name := by
        refine List.filter_congr fun node hnode => ?_
        obtain ⟨record, hrecord⟩ := hrecords node hnode
        rw [(asks_nameFilter name).satisfies_eq hrecord, strEq_field (record.isField .name) hname.isField,
          recordField_eq hrecord, Bool.and_comm]
        rfl
      have hfind := List.head?_filter (p := fun node => node.parentId == id && recordField node .name == some name)
        (l := nodes)
      rw [pathNode, ← hfind, ← hlevel]
      obtain ⟨next, more, hmore⟩ : ∃ next more, names.map nameFilter ++ [filter] = next :: more :=
        List.exists_cons_of_ne_nil (by simp)
      cases hchildren : childrenWith nodes (nameFilter name) id with
      | nil =>
          rw [List.map_cons, List.cons_append, hmore, answer, hchildren]
          · rfl
          · simp
      | cons found others =>
          rw [List.map_cons, List.cons_append, hmore, answer_step hchildren, ← hmore, ih hnames]
          rfl

theorem answer_meaning (hrecords : ∀ node ∈ nodes, ∃ record, HasRecord node record) (hwords : ∀ s ∈ names, IsWord s)
    (hop : first.op = 0) (hfilters : ∀ filter ∈ filters, filter.attr = first.attr ∧ filter.admits first.word) :
    answer nodes (names.map nameFilter ++ [attributeFilter first]) nullNodeId =
      meaning nodes names (first :: filters) := by
  rw [answer_path hrecords hwords, meaning]
  cases pathNode nodes names nullNodeId with
  | none => rfl
  | some id =>
      refine List.filter_congr fun node hnode => ?_
      obtain ⟨record, hrecord⟩ := hrecords node hnode
      have hequals : first.admits (record.field first.attr) = (record.field first.attr == first.word) := by
        rw [AttributeFilter.admits, hop]
        rfl
      have hothers : record.field first.attr = first.word →
          filters.all (fun filter => accepts filter node) = true := fun heq => by
        refine List.all_eq_true.mpr fun filter hfilter => ?_
        obtain ⟨hattr, hadmits⟩ := hfilters filter hfilter
        rw [accepts_eq hrecord, hattr, heq, hadmits]
      rw [(asks_attributeFilter first).satisfies_eq hrecord, strEq_field (record.isField _) first.isWord.isField,
        List.all_cons, accepts_eq hrecord, hequals, Bool.and_comm]
      by_cases heq : record.field first.attr = first.word
      · rw [hothers heq, Bool.and_true]
      · rw [beq_false_of_ne heq, Bool.false_and]

theorem meaning_branch (h : Branch nodes last id rest) {m : Node} {found : NodeId}
    (hpath : pathNode nodes names id = some found) (hm : m ∈ nodes) (hparent : m.parentId = found) :
    rest[names.length]? = some m := by
  induction names generalizing id rest with
  | nil =>
      cases hpath
      obtain ⟨rest', rfl, _⟩ := h.only_child hm hparent
      rfl
  | cons name names ih =>
      rw [pathNode] at hpath
      cases hfind : nodes.find? fun node => node.parentId == id && recordField node .name == some name with
      | none => rw [hfind] at hpath; cases hpath
      | some node =>
          rw [hfind] at hpath
          have hnode := List.find?_some hfind
          rw [Bool.and_eq_true, beq_iff_eq] at hnode
          obtain ⟨rest', rfl, hrest⟩ := h.only_child (List.mem_of_find?_eq_some hfind) hnode.1
          exact ih hrest hpath

end Answers

section Selecting

variable {names : List (List UInt8)} {first : AttributeFilter} {filters : List AttributeFilter} {chain : RpcFilterChain}
  {records : List FileRecord} {nodes : List ParsedNode} {room : Nat → Nat}

theorem selects_chain (hwords : ∀ s ∈ names, IsWord s) (hop : first.op = 0)
    (hfilters : ∀ filter ∈ filters, filter.attr = first.attr ∧ filter.admits first.word) :
    Selects ⟨names.map nameFilter ++ [attributeFilter first]⟩ names (first :: filters) := by
  have hasks : ∀ filter ∈ names.map nameFilter ++ [attributeFilter first], ∃ attr argument,
      Asks filter attr argument := by
    rw [List.forall_mem_append, List.forall_mem_map, List.forall_mem_singleton]
    exact ⟨fun name _ => ⟨_, _, asks_nameFilter name⟩, _, _, asks_attributeFilter first⟩
  refine ⟨fun hreachable hrecords => ⟨fun response t hget => ?_, fun hreturns => ?_⟩,
    fun hreachable hrecords fuel tmpCounts response t hdelete => ?_⟩
  · rw [← answer_meaning hrecords hwords hop hfilters]
    exact getNodesByFilter_answers hreachable hget
  · refine getNodesByFilter_returns hreachable (fun filter hfilter => ?_) hreturns
      (evaluates_of_asks hrecords hasks nullNodeId)
    obtain ⟨_, _, hfilter⟩ := hasks filter hfilter
    exact hfilter.named
  · rw [← answer_meaning hrecords hwords hop hfilters]
    exact deleteNodesByFilter_remaining hreachable.document hdelete

theorem admits_of_meaning {store : List (List Slot)} {doc : Document} {last : NodeId} {m : Node}
    (h : BranchOf records store doc last) (hm : m ∈ meaning (liveNodes doc) names filters) :
    ∃ record, records[names.length]? = some record ∧
      ∀ filter ∈ filters, filter.admits (record.field filter.attr) = true := by
  rw [h.packed.holds.liveNodes_eq, meaning] at hm
  cases hpath : pathNode (nodesOf store) names nullNodeId with
  | none => rw [hpath] at hm; cases hm
  | some found =>
      rw [hpath] at hm
      obtain ⟨hlive, hfilters⟩ := List.mem_filter.mp hm
      rw [Bool.and_eq_true, beq_iff_eq] at hfilters
      obtain ⟨hi, hmi⟩ := List.getElem?_eq_some_iff.mp (meaning_branch h.branch hpath hlive hfilters.1)
      have hj : names.length < records.length := h.records.length_eq ▸ hi
      have hrecord := (List.forall₂_iff_get.mp h.records).2 names.length hi hj
      simp only [List.get_eq_getElem, hmi] at hrecord
      refine ⟨_, List.getElem?_eq_getElem hj, fun filter hfilter => ?_⟩
      rw [← accepts_eq hrecord]
      exact List.all_eq_true.mp hfilters.2 filter hfilter

/-- If a chain selects what a query means, and records have what it asks for one below the
other, then the one behind the path satisfies the filters of the query. -/
theorem Selects.admits (h : Selects chain names filters) (hchain : List.Forall₂ Meets chain.filters records)
    (hne : records ≠ []) (hshort : ∀ record ∈ records, record.text.length < 256) (hcount : records.length ≤ 256) :
    ∃ record, records[names.length]? = some record ∧
      ∀ filter ∈ filters, filter.admits (record.field filter.attr) = true := by
  obtain ⟨store, doc, last, hbranch⟩ := exists_branch records hshort hcount
  obtain ⟨message, t, hget⟩ := hbranch.getNodes hne hchain
  have hsent := (h.get hbranch.reachable hbranch.hasRecord).1 _ _ hget
  obtain ⟨m, _, _, _, hmeaning⟩ := List.forall₂_cons_right_iff.mp hsent
  exact admits_of_meaning hbranch (hmeaning ▸ List.mem_cons_self)

theorem comparison_self (op : Fin 4) (a : List UInt8) :
    comparison (operationOfInt op) a a = decide (op = 0) := by
  match op with
  | 0 => simp [operationOfInt, comparison]
  | 1 => simp [operationOfInt, comparison]
  | 2 => simp [operationOfInt, comparison]
  | 3 => simp [operationOfInt, comparison]

theorem exists_refused (filter : AttributeFilter) :
    ∃ s, IsField s ∧ s.length ≤ filter.word.length ∧ filter.admits s = false := by
  have hpos := List.length_pos_of_ne_nil filter.isWord.ne_nil
  by_cases hop : filter.op = 0
  · have hequals : ∀ s, filter.admits s = (s == filter.word) := fun s => by
      rw [AttributeFilter.admits, hop]
      rfl
    by_cases hdash : filter.word = bytesOf "-"
    · refine ⟨bytesOf ".", ⟨by decide, by decide, by decide⟩, hpos, ?_⟩
      rw [hequals, hdash]
      rfl
    · exact ⟨bytesOf "-", isField_dash, hpos, by rw [hequals]; exact beq_false_of_ne (Ne.symm hdash)⟩
  · refine ⟨filter.word, filter.isWord.isField, le_rfl, ?_⟩
    rw [AttributeFilter.admits, comparison_self, decide_eq_false hop]

def AttributeFilter.record (filter : AttributeFilter) : FileRecord :=
  FileRecord.dashes.set filter.attr filter.word filter.isWord.isField

theorem AttributeFilter.field_record (filter : AttributeFilter) : filter.record.field filter.attr = filter.word :=
  FileRecord.field_set ..

theorem AttributeFilter.length_text_record (filter : AttributeFilter) :
    filter.record.text.length = filter.word.length + 6 := FileRecord.length_text_dashes_set _

/-- Filters that hold of every record that has the first one's word are implied by its
equality. -/
theorem admits_forced (hforced : ∀ record : FileRecord, record.text.length < 256 →
      record.field first.attr = first.word → ∀ filter ∈ first :: filters, filter.admits (record.field filter.attr) = true)
    (hfirst : first.word.length + 6 < 256)
    (hboth : ∀ filter ∈ filters, first.word.length + filter.word.length + 6 < 256) :
    first.op = 0 ∧ ∀ filter ∈ filters, filter.attr = first.attr ∧ filter.admits first.word = true := by
  have hone := hforced first.record (by rw [first.length_text_record]; exact hfirst) first.field_record
  constructor
  · have hadmits := hone first List.mem_cons_self
    rw [first.field_record, AttributeFilter.admits, comparison_self] at hadmits
    exact of_decide_eq_true hadmits
  · intro filter hfilter
    have hattr : filter.attr = first.attr := by
      by_contra hne
      obtain ⟨s, hs, hle, hrefused⟩ := exists_refused filter
      have hlength := FileRecord.length_text_set filter.attr first.record hs
      have hless := hboth filter hfilter
      have hother : (first.record.field filter.attr).length = 1 := by
        rw [AttributeFilter.record, FileRecord.field_set_of_ne hne, FileRecord.length_field_dashes]
      rw [first.length_text_record] at hlength
      have hadmits := hforced (first.record.set filter.attr s hs) (by omega)
        (by rw [FileRecord.field_set_of_ne (Ne.symm hne), first.field_record]) filter (List.mem_cons_of_mem _ hfilter)
      rw [FileRecord.field_set, hrefused] at hadmits
      cases hadmits
    have hadmits := hone filter (List.mem_cons_of_mem _ hfilter)
    rw [hattr, first.field_record] at hadmits
    exact ⟨hattr, hadmits⟩

theorem exists_named (hnodes : ∀ node ∈ nodes, IsField node.name ∧ node.name.length + 6 < 256) :
    ∃ records, List.Forall₂ Meets (nodes.map fun node => nameFilter node.name) records ∧
      ∀ record ∈ records, record.text.length < 256 := by
  induction nodes with
  | nil => exact ⟨[], .nil, List.forall_mem_nil _⟩
  | cons node nodes ih =>
      obtain ⟨⟨hname, hlength⟩, hnodes⟩ := List.forall_mem_cons.mp hnodes
      obtain ⟨records, hmeets, hshort⟩ := ih hnodes
      refine ⟨FileRecord.dashes.set .name node.name hname :: records, .cons ⟨_, _, asks_nameFilter node.name, ?_⟩ hmeets,
        List.forall_mem_cons.mpr ⟨?_, hshort⟩⟩
      · rw [FileRecord.field_set, strEq_field hname hname, beq_self_eq_true]
      · rw [FileRecord.length_text_dashes_set]
        exact hlength

theorem convertNodesToFilterChain_ok {head : ParsedNode} {rest : List ParsedNode}
    (h : convertNodesToFilterChain room (head :: rest) = .ok chain) :
    head.filters = [] ∧ chain.filters = (head :: rest).map (fun node => nameFilter node.name) ∨
    ∃ filter more sent, head.filters = filter :: more ∧ additionalFilter filter = .ok sent ∧
      chain.filters = (head :: rest).map (fun node => nameFilter node.name) ++ [sent] ∧
      rest.length + 1 < room (rest.length + 1) := by
  rw [convertNodesToFilterChain] at h
  simp only [List.head?_cons, assertArgNotNull, bind, Except.bind, List.length_map, List.length_cons, pure,
    Except.pure] at h
  cases hfilters : head.filters with
  | nil =>
      rw [hfilters] at h
      cases h
      exact Or.inl ⟨rfl, rfl⟩
  | cons filter more =>
      rw [hfilters] at h
      dsimp only at h
      cases hsent : additionalFilter filter with
      | error e => rw [hsent] at h; cases h
      | ok sent =>
          rw [hsent] at h
          dsimp only at h
          split at h
          · cases h
          · rename_i hroom
            cases h
            exact Or.inr ⟨filter, more, sent, rfl, hsent, rfl, Nat.lt_of_not_le hroom⟩

/-- Only for a short path with an equality that implies the other filters does the chain of
a query select what the query means. -/
theorem short_of_selects {init : List (List UInt8)} {last : List UInt8} (hwords : ∀ s ∈ init ++ [last], IsWord s)
    (hshort : ∀ s ∈ init ++ [last], s.length + 6 < 256) (hcount : init.length + 2 ≤ 256)
    (hfirst : first.word.length + 6 < 256)
    (hboth : ∀ filter ∈ filters, first.word.length + filter.word.length + 6 < 256)
    (hchain : convertNodesToFilterChain room
      (pathQuery init ((first :: filters).map AttributeFilter.expr) last).nodes = .ok chain)
    (h : Selects chain (init ++ [last]) (first :: filters)) :
    ShortPath (init ++ [last]) ∧ (init ++ [last]).length < room (init ++ [last]).length ∧ first.op = 0 ∧
      ∀ filter ∈ filters, filter.attr = first.attr ∧ filter.admits first.word = true := by
  obtain ⟨head, rest, hnodes, hnames, hle, hshape⟩ := pathQuery_nodes hwords
    (show (first :: filters).map AttributeFilter.expr ≠ [] by simp)
  rw [hnodes] at hchain
  have hfields : ∀ node ∈ head :: rest, IsField node.name ∧ node.name.length + 6 < 256 := fun node hnode =>
    ⟨(hwords _ (hnames node hnode)).isField, hshort _ (hnames node hnode)⟩
  obtain ⟨named, hmeets, hnamed⟩ := exists_named hfields
  have hlength : named.length = rest.length + 1 := by simpa using hmeets.length_eq.symm
  have hpath : (init ++ [last]).length = init.length + 1 := by simp
  rcases convertNodesToFilterChain_ok hchain with ⟨_, hfilters⟩ | ⟨filter, more, sent, hhead, hsent, hfilters, hroom⟩
  · rw [← hfilters] at hmeets
    obtain ⟨_, hrecord, _⟩ := h.admits hmeets (List.ne_nil_of_length_pos (by omega)) hnamed (by omega)
    have hlt := (List.getElem?_eq_some_iff.mp hrecord).1
    omega
  · rcases hshape with hnone | ⟨hall, hcases⟩
    · rw [hhead] at hnone
      cases hnone
    rw [hhead, List.map_cons] at hall
    cases hall
    rw [additionalFilter_expr] at hsent
    cases hsent
    have hforced : ∀ record : FileRecord, record.text.length < 256 → record.field first.attr = first.word →
        rest.length = init.length ∧
          ∀ filter ∈ first :: filters, filter.admits (record.field filter.attr) = true := by
      intro record hrecord heq
      have hmeet : Meets (attributeFilter first) record :=
        ⟨_, _, asks_attributeFilter first, by
          rw [heq, strEq_field first.isWord.isField first.isWord.isField, beq_self_eq_true]⟩
      have hall : List.Forall₂ Meets chain.filters (named ++ [record]) := by
        rw [hfilters]
        exact List.rel_append hmeets (.cons hmeet .nil)
      obtain ⟨found, hfound, hadmits⟩ := h.admits hall (by simp)
        (List.forall_mem_append.mpr ⟨hnamed, List.forall_mem_singleton.mpr hrecord⟩) (by simp; omega)
      have hlt := (List.getElem?_eq_some_iff.mp hfound).1
      simp only [List.length_append, List.length_singleton] at hlt
      have hlast : (init ++ [last]).length = named.length := by omega
      rw [hlast, List.getElem?_concat_length] at hfound
      cases hfound
      exact ⟨by omega, hadmits⟩
    have hsame := (hforced first.record (by rw [first.length_text_record]; exact hfirst) first.field_record).1
    refine ⟨hcases.resolve_left (by omega), ?_,
      admits_forced (fun record hrecord heq => (hforced record hrecord heq).2) hfirst hboth⟩
    rw [hpath, ← hsame]
    exact hroom

end Selecting

section Lengths

variable {names : List (List UInt8)} {texts : List (List UInt8)} {text : List UInt8} {filter : AttributeFilter}
  {filters : List AttributeFilter}

theorem word_length_le (h : FilterText text filter.expr) : filter.word.length + 4 ≤ text.length := by
  obtain ⟨⟨tokens, hlex, htokens⟩, _⟩ := h
  have hle := tokenLength_sum_le hlex
  generalize hexpr : filter.expr = expr at htokens
  cases htokens with
  | value =>
      have htype : FilterExprType.selectByLogicalOp = .selectByValue := congrArg FilterExpr.type hexpr
      cases htype
  | all | varName =>
      have htype : FilterExprType.selectByLogicalOp = .selectByPropName := congrArg FilterExpr.type hexpr
      cases htype
  | @logical name op token value hvalue =>
      have hright : some (Element.string filter.word) = some value := congrArg FilterExpr.right hexpr
      cases hright
      have htoken : token = .word filter.word := by
        cases token <;> cases hvalue
        rfl
      rw [htoken] at hle
      simp only [List.map_cons, List.map_nil, List.sum_cons, List.sum_nil, tokenLength] at hle
      omega

theorem word_length_le_flatten (h : List.Forall₂ FilterText texts (filters.map AttributeFilter.expr)) :
    ∀ filter ∈ filters, filter.word.length + 4 ≤ texts.flatten.length := by
  intro filter hfilter
  obtain ⟨text, htext, hfilterText⟩ := forall₂_exists h.flip _ (List.mem_map_of_mem hfilter)
  exact (word_length_le hfilterText).trans (List.sublist_flatten_of_mem htext).length_le

theorem length_pathText (hwords : ∀ s ∈ names, IsWord s) :
    ∀ s ∈ names, s.length + names.length ≤ (pathText names).length + 1 := by
  induction names with
  | nil => exact List.forall_mem_nil _
  | cons s names ih =>
      obtain ⟨_, hnames⟩ := List.forall_mem_cons.mp hwords
      cases names with
      | nil => simp [pathText]
      | cons t names =>
          have hpos := List.length_pos_of_ne_nil (hnames t List.mem_cons_self).ne_nil
          have hrest := ih hnames
          have ht := hrest t List.mem_cons_self
          have hpath : pathText (s :: t :: names) = s ++ 47 :: pathText (t :: names) := rfl
          rw [hpath, List.length_append, List.length_cons]
          refine List.forall_mem_cons.mpr ⟨?_, fun u hu => ?_⟩
          · simp only [List.length_cons] at ht ⊢
            omega
          · have hu := hrest u hu
            simp only [List.length_cons] at hu ⊢
            omega

theorem length_commandText (func : FunctionType) (text : List UInt8) :
    text.length < (commandText func text).length := by
  have hnewline : (bytesOf "\n").length = 1 := rfl
  rw [commandText]
  cases functionName func with
  | none => simp [hnewline]
  | some name =>
      simp
      omega

end Lengths

section Translating

variable {names : List (List UInt8)} {texts : List (List UInt8)} {first : AttributeFilter}
  {filters : List AttributeFilter}

/-- A command with a path and filters is translated to a chain that selects what it means. -/
def Preserved (func : FunctionType) (room : Nat → Nat) (names texts : List (List UInt8))
    (filters : List AttributeFilter) : Prop :=
  ∃ query chain, parserParseCommand (commandText func (pathText names ++ texts.flatten)) = .ok query ∧
    convertNodesToFilterChain room query.nodes = .ok chain ∧ Selects chain names filters

/-- The path is short and finds room for a filter behind it, which is an equality that
implies the other filters. -/
structure Translatable (room : Nat → Nat) (names : List (List UInt8)) (first : AttributeFilter)
    (filters : List AttributeFilter) : Prop where
  short : ShortPath names
  room : names.length < room names.length
  equals : first.op = 0
  implied : ∀ filter ∈ filters, filter.attr = first.attr ∧ filter.admits first.word = true

/-- Queries of that kind keep their meaning, and of those that the client can read no
others do. -/
theorem convertNodesToFilterChain_preserves_iff (func : FunctionType) (room : Nat → Nat) (hne : names ≠ [])
    (hwords : ∀ s ∈ names, IsWord s)
    (hfilters : List.Forall₂ FilterText texts ((first :: filters).map AttributeFilter.expr)) :
    (Translatable room names first filters → Preserved func room names texts (first :: filters)) ∧
      ((commandText func (pathText names ++ texts.flatten)).length < 256 →
        (Preserved func room names texts (first :: filters) ↔ Translatable room names first filters)) := by
  obtain ⟨init, last, rfl⟩ : ∃ init last, names = init ++ [last] :=
    ⟨_, _, (List.dropLast_append_getLast hne).symm⟩
  have hparse := parse_command func init last hwords hfilters
  have henough : Translatable room (init ++ [last]) first filters →
      Preserved func room (init ++ [last]) texts (first :: filters) := by
    rintro ⟨hshort, hroom, hequals, himplied⟩
    have hreads := (readsAs_iff func hwords (List.cons_ne_nil first.expr (filters.map AttributeFilter.expr))).mpr hshort
    have hchain := ((convertNodesToFilterChain_reads hreads).mpr ⟨additionalFilter_expr first, hroom⟩).2
    exact ⟨_, _, hparse, hchain, selects_chain hwords hequals himplied⟩
  refine ⟨henough, fun hlength => ⟨?_, henough⟩⟩
  rintro ⟨query, chain, hquery, hchain, hselects⟩
  rw [hparse] at hquery
  cases hquery
  obtain ⟨text, texts, hfirst, hrest, rfl⟩ := List.forall₂_cons_right_iff.mp hfilters
  have hcommand := length_commandText func (pathText (init ++ [last]) ++ (text :: texts).flatten)
  have hflatten : (text :: texts).flatten.length = text.length + texts.flatten.length := by
    rw [List.flatten_cons, List.length_append]
  rw [List.length_append, hflatten] at hcommand
  have hfirstWord := word_length_le hfirst
  have hfirstPos := List.length_pos_of_ne_nil first.isWord.ne_nil
  have hnames := length_pathText hwords
  have hlast := hnames last (by simp)
  have hlastPos := List.length_pos_of_ne_nil (hwords last (by simp)).ne_nil
  rw [List.length_append, List.length_singleton] at hlast
  obtain ⟨hshort, hroom, hequals, himplied⟩ := short_of_selects hwords
    (fun s hs => by
      have hs := hnames s hs
      rw [List.length_append, List.length_singleton] at hs
      omega)
    (by omega) (by omega)
    (fun filter hfilter => by
      have hword := word_length_le_flatten hrest filter hfilter
      omega)
    hchain hselects
  exact ⟨hshort, hroom, hequals, himplied⟩

theorem convertNodesToFilterChain_preserves_iff_equals :
    ∃ filter : AttributeFilter, filter.attr = .name ∧ filter.op = 0 ∧ filter.word = bytesOf "x" ∧
      Preserved .deleteOp (fun n => n + 1) [bytesOf "r"] [bytesOf "[@name=x]"] [filter] := by
  have hr : IsWord (bytesOf "r") := isWord_of_all (by decide) (by decide) (by decide)
  have hx : IsWord (bytesOf "x") := isWord_of_all (by decide) (by decide) (by decide)
  have htext : FilterText (bytesOf "[@name=x]") (AttributeFilter.mk .name 0 (bytesOf "x") hx).expr :=
    ⟨⟨_, rfl, .logical rfl⟩, Or.inl rfl⟩
  refine ⟨⟨.name, 0, bytesOf "x", hx⟩, rfl, rfl, rfl, ?_⟩
  exact (convertNodesToFilterChain_preserves_iff .deleteOp (fun n => n + 1) (List.cons_ne_nil _ [])
    (List.forall_mem_singleton.mpr hr) (.cons htext .nil)).1
    ⟨Or.inl rfl, by decide, rfl, List.forall_mem_nil _⟩

/-- The operator of a filter is lost on its way. -/
theorem convertNodesToFilterChain_loses_operator :
    ∃ (filter : AttributeFilter) (query : Query) (chain : RpcFilterChain) (doc t : Document) (message : RpcNode),
      filter.attr = .name ∧ filter.op = 1 ∧ filter.word = bytesOf "x" ∧
      parserParseCommand (bytesOf "delete(r[@name!=x])\n") = .ok query ∧ query.func = .deleteOp ∧
      convertNodesToFilterChain (fun n => n + 1) query.nodes = .ok chain ∧ ServerReachable 4096 doc ∧
      (∀ node ∈ liveNodes doc, ∃ record, HasRecord node record) ∧
      handleGetNodesByFilterRequest chain doc = .ok ⟨[message]⟩ t ∧
      meaning (liveNodes doc) [bytesOf "r"] [filter] = [] ∧ ¬Selects chain [bytesOf "r"] [filter] := by
  have hr : IsWord (bytesOf "r") := isWord_of_all (by decide) (by decide) (by decide)
  have hx : IsWord (bytesOf "x") := isWord_of_all (by decide) (by decide) (by decide)
  obtain ⟨filter, hfilter⟩ : ∃ filter : AttributeFilter, filter = ⟨.name, 1, bytesOf "x", hx⟩ := ⟨_, rfl⟩
  have hparse : parserParseCommand (bytesOf "delete(r[@name!=x])\n") =
      .ok ⟨.deleteOp, [⟨bytesOf "r", [createFilter (bytesOf "name") 1 (.string (bytesOf "x"))]⟩]⟩ := (rfl)
  have hchain : convertNodesToFilterChain (fun n => n + 1)
      [⟨bytesOf "r", [createFilter (bytesOf "name") 1 (.string (bytesOf "x"))]⟩] =
        .ok ⟨[nameFilter (bytesOf "r"), attributeFilter filter]⟩ := by
    rw [hfilter]
    rfl
  have hword : filter.attr = .name ∧ filter.op = 1 ∧ filter.word = bytesOf "x" := by
    rw [hfilter]
    exact ⟨rfl, rfl, rfl⟩
  obtain ⟨store, doc, last, hbranch⟩ := exists_branch
    [FileRecord.dashes.set .name (bytesOf "r") hr.isField, FileRecord.dashes.set .name (bytesOf "x") hx.isField]
    (by simp [FileRecord.length_text_dashes_set]; decide) (show 2 ≤ 256 by decide)
  have hmeets : List.Forall₂ Meets [nameFilter (bytesOf "r"), attributeFilter filter]
      [FileRecord.dashes.set .name (bytesOf "r") hr.isField, FileRecord.dashes.set .name (bytesOf "x") hx.isField] :=
    .cons ⟨_, _, asks_nameFilter _, by rw [FileRecord.field_set]; rfl⟩
      (.cons ⟨_, _, asks_attributeFilter filter, by rw [hword.1, hword.2.2, FileRecord.field_set]; rfl⟩ .nil)
  obtain ⟨message, t, hget⟩ := hbranch.getNodes (List.cons_ne_nil _ _)
    (show List.Forall₂ Meets (RpcFilterChain.mk _).filters _ from hmeets)
  have hmeaning : meaning (liveNodes doc) [bytesOf "r"] [filter] = [] := by
    refine List.eq_nil_iff_forall_not_mem.mpr fun m hm => ?_
    obtain ⟨record, hrecord, hadmits⟩ := admits_of_meaning hbranch hm
    cases hrecord
    have hadmit := hadmits filter List.mem_cons_self
    rw [hword.1, FileRecord.field_set, AttributeFilter.admits, hword.2.1, hword.2.2, comparison_self] at hadmit
    cases hadmit
  refine ⟨filter, _, _, doc, t, message, hword.1, hword.2.1, hword.2.2, hparse, rfl, hchain, hbranch.reachable,
    hbranch.hasRecord, hget, hmeaning, fun hselects => ?_⟩
  have hsent := (hselects.get hbranch.reachable hbranch.hasRecord).1 _ _ hget
  rw [hmeaning] at hsent
  cases hsent

end Translating

end DocumentDb.Client
