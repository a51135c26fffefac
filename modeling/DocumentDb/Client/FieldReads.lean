import DocumentDb.Lib.Reads
import DocumentDb.Client.Paths

namespace DocumentDb.Client

open Lexing Rpc Server Reads Reading

section Shapes

variable {state next : ParserState} {token : Token} {query : Query} {filter : FilterExpr} {word : List UInt8}

inductive Made : FilterExpr → Prop
  | value (value) : Made (createFilterSingleValue value)
  | logical (name op value) : Made (createFilter name op value)
  | all : Made createFilterAll
  | varName (name) : Made (createFilterByVarName name)

def FiltersMade (query : Query) : Prop := ∀ node ∈ query.nodes, ∀ filter ∈ node.filters, Made filter

theorem FiltersMade.addNode (h : FiltersMade query) (word : List UInt8) : FiltersMade (addNode query word) := by
  obtain ⟨func, nodes⟩ := query
  cases nodes with
  | nil => simp [FiltersMade, Client.addNode]
  | cons first rest =>
      rw [Client.addNode]
      dsimp only
      obtain ⟨hfirst, hrest⟩ := List.forall_mem_cons.mp h
      split_ifs
      · exact List.forall_mem_cons.mpr ⟨hfirst, hrest⟩
      · rw [FiltersMade, List.cons_append, List.forall_mem_cons, List.forall_mem_append]
        exact ⟨hfirst, hrest, by simp⟩

theorem FiltersMade.addFilter (h : FiltersMade query) (hfilter : Made filter) :
    FiltersMade (addFilter query filter) := by
  obtain ⟨func, nodes⟩ := query
  rcases List.eq_nil_or_concat nodes with rfl | ⟨front, last, rfl⟩
  · simpa [FiltersMade, Client.addFilter] using hfilter
  · rw [FiltersMade, List.concat_eq_append, List.forall_mem_append] at h
    have hadd : Client.addFilter ⟨func, front ++ [last]⟩ filter =
        ⟨func, front ++ [{ last with filters := last.filters ++ [filter] }]⟩ := foldl_addFilter [filter] front last
    rw [List.concat_eq_append, hadd, FiltersMade, List.forall_mem_append]
    refine ⟨h.1, ?_⟩
    rw [List.forall_mem_singleton, List.forall_mem_append, List.forall_mem_singleton]
    exact ⟨h.2 last (List.mem_singleton_self _), hfilter⟩

/-- What the parser holds: the filters of its query, and the one that it has just read. -/
structure WellMade (state : ParserState) : Prop where
  query : FiltersMade state.query
  pending : ∀ word filter, state.position = .filterExpr word filter → Made filter

theorem WellMade.shift (h : WellMade state) (hshift : shift state token = .ok next) : WellMade next := by
  unfold Client.shift at hshift
  split at hshift <;> (try split at hshift) <;> cases hshift
  -- A token ends a filter, ends a node, has been made a filter of, or does none of this.
  case h_17.refl hposition => exact ⟨h.query.addFilter (h.pending _ _ hposition), by simp⟩
  case h_10.refl => exact ⟨h.query.addFilter (.varName _), by simp⟩
  case h_12.refl => exact ⟨h.query, by rintro _ _ ⟨⟩; exact .all⟩
  case h_7.refl => exact ⟨h.query.addNode _, by simp⟩
  all_goals first
    | (refine ⟨h.query, ?_⟩; rintro _ _ ⟨⟩; first | exact .value _ | exact .logical _ _ _)
    | (refine ⟨h.query.addNode _, ?_⟩; rintro _ _ ⟨⟩)
    | (refine ⟨h.query, ?_⟩; rintro _ _ ⟨⟩)

theorem WellMade.yyparse (h : WellMade state) {tokens : List (Except Fault Token)}
    (hparse : yyparse state tokens = .ok next) : WellMade next := by
  unfold Client.yyparse at hparse
  induction tokens generalizing state with
  | nil =>
      cases hparse
      exact h
  | cons token tokens ih =>
      rw [List.foldlM_cons] at hparse
      cases token with
      | error e => cases hparse
      | ok token =>
          cases hshift : Client.shift state token with
          | error e => simp [hshift, bind, Except.bind] at hparse
          | ok middle =>
              simp only [hshift, bind, Except.bind] at hparse
              exact ih (h.shift hshift) hparse

theorem filtersMade_of_parse {command : List UInt8} (hparse : parserParseCommand command = .ok query) :
    FiltersMade query := by
  rw [parserParseCommand] at hparse
  cases hrun : yyparse ⟨.query, none, ⟨.nop, []⟩⟩ (yylex command) with
  | error e => simp [hrun, bind, Except.bind] at hparse
  | ok state =>
      have hstart : WellMade ⟨.query, none, ⟨.nop, []⟩⟩ := ⟨by simp [FiltersMade], by simp⟩
      simp only [hrun, bind, Except.bind] at hparse
      split_ifs at hparse
      cases hparse
      exact (hstart.yyparse hrun).query

end Shapes

section Translators

variable {filter : FilterExpr} {filters : List FilterExpr} {room : Nat → Nat} {nodes : List ParsedNode}

/-- What the translators read of a filter besides its type and operation: the name on its
left, what is on its right, and the string in that. -/
inductive FilterField
  | leftName
  | right
  | rightString
  deriving DecidableEq

def FilterExpr.IsSet (filter : FilterExpr) : FilterField → Prop
  | .leftName => filter.left ≠ none
  | .right => filter.right ≠ none
  | .rightString => ∃ text, filter.right = some (.string text)

abbrev FieldReading (α : Type) := Reading (FilterExpr × FilterField) Fault α

def elementStringReading (filter : FilterExpr) : FieldReading (List UInt8) := do
  let right ← read (filter, .right) (derefArg filter.right)
  read (filter, .rightString) (elementString (some right))

def additionalFilterReading (filter : FilterExpr) : FieldReading RpcFilter :=
  if filter.operation = .allOp then
    return ⟨.all, .notSet, none⟩
  else do
    let name ← read (filter, .leftName) (derefArg filter.left)
    let argument ← elementStringReading filter
    return ⟨.fieldName, .stringArgument argument, some name⟩

def convertNodesToFilterChainReading (room : Nat → Nat) (nodes : List ParsedNode) : FieldReading RpcFilterChain := do
  let firstNode ← lift (assertArgNotNull nodes.head? "nodes")
  let names := nodes.map fun node => nameFilter node.name
  match firstNode.filters with
  | [] => return ⟨names⟩
  | filter :: _ =>
    let filter ← additionalFilterReading filter
    if room names.length ≤ names.length then
      lift (.error (.undefined "filter behind the array"))
    else
      return ⟨names ++ [filter]⟩

def setAttributesReading : List FilterExpr → FileInfo → FieldReading FileInfo
  | [], fileInfo => return fileInfo
  | expr :: filters, fileInfo =>
    if expr.type ≠ .selectByLogicalOp then
      lift (.error (.assertion "expr->type == SELECT_BY_LOGICAL_OP"))
    else if expr.operation ≠ .equalsOp then
      lift (.error (.assertion "expr->operation == EQUALS_OP"))
    else do
      let name ← read (expr, .leftName) (derefArg expr.left)
      let attrId ← lift (fileInfoAttributeFromString name)
      let value ← elementStringReading expr
      setAttributesReading filters (fileInfoSetAttribute fileInfo attrId value)

def convertQueryArgsToStringReading (filters : List FilterExpr) : FieldReading (List UInt8) := do
  let filter ← lift (assertArgNotNull filters.head? "filters")
  let text ←
    if filters.length = 1 then elementStringReading filter
    else do lift (fileInfoToString (← setAttributesReading filters ⟨none, none, none, none⟩))
  if 256 ≤ text.length then
    lift (.error (.undefined "text longer than its buffer"))
  else
    return text

theorem outcome_elementStringReading (filter : FilterExpr) :
    (elementStringReading filter).outcome = elementString filter.right := by
  rw [elementStringReading]
  simp only [outcome_bind, outcome_read]
  cases filter.right <;> rfl

theorem outcome_additionalFilterReading (filter : FilterExpr) :
    (additionalFilterReading filter).outcome = additionalFilter filter := by
  rw [additionalFilterReading, additionalFilter]
  split_ifs
  · rfl
  · simp only [outcome_bind, outcome_read, outcome_elementStringReading]
    rfl

theorem outcome_convertNodesToFilterChainReading (room : Nat → Nat) (nodes : List ParsedNode) :
    (convertNodesToFilterChainReading room nodes).outcome = convertNodesToFilterChain room nodes := by
  refine outcome_bind_eq rfl ?_
  rintro ⟨name, filters⟩
  cases filters with
  | nil => rfl
  | cons filter filters =>
      refine outcome_bind_eq (outcome_additionalFilterReading filter) ?_
      intro filter
      dsimp only
      split_ifs <;> rfl

theorem outcome_setAttributesReading (filters : List FilterExpr) (fileInfo : FileInfo) :
    (setAttributesReading filters fileInfo).outcome = setAttributes filters fileInfo := by
  induction filters generalizing fileInfo with
  | nil => rfl
  | cons expr filters ih =>
      rw [setAttributesReading, setAttributes]
      by_cases htype : expr.type = .selectByLogicalOp
      swap
      · simp only [htype, ne_eq, not_false_eq_true, if_true, outcome_lift]
        rfl
      by_cases hop : expr.operation = .equalsOp
      swap
      · simp only [htype, hop, ne_eq, not_true_eq_false, not_false_eq_true, if_false, if_true, outcome_lift]
        rfl
      simp only [htype, hop, ne_eq, not_true_eq_false, if_false, outcome_bind, outcome_read, outcome_lift,
        outcome_elementStringReading, ih]

theorem outcome_convertQueryArgsToStringReading (filters : List FilterExpr) :
    (convertQueryArgsToStringReading filters).outcome = convertQueryArgsToString filters := by
  have htext : ∀ text : List UInt8,
      (if 256 ≤ text.length then lift (.error (.undefined "text longer than its buffer")) else pure text :
        FieldReading (List UInt8)).outcome =
      (do
        if 256 ≤ text.length then throw (.undefined "text longer than its buffer")
        return text) := by
    intro text
    dsimp only
    split_ifs <;> rfl
  refine outcome_bind_eq rfl ?_
  intro filter
  dsimp only
  by_cases hone : filters.length = 1
  · rw [if_pos hone, if_pos hone]
    exact outcome_bind_eq (outcome_elementStringReading filter) htext
  · rw [if_neg hone, if_neg hone]
    refine outcome_bind_eq (outcome_setAttributesReading filters _) ?_
    intro fileInfo
    exact outcome_bind_eq rfl htext

end Translators

section Fields

variable {filter : FilterExpr} {filters : List FilterExpr} {fileInfo : FileInfo} {room : Nat → Nat}
  {nodes : List ParsedNode}

abbrev ReadsSetFields {α : Type} (x : FieldReading α) : Prop := OnlyReads (fun field => field.1.IsSet field.2) x

theorem readsSetFields_elementString (filter : FilterExpr) :
    ReadsSetFields (elementStringReading filter) ↔ ∃ text, filter.right = some (.string text) := by
  rw [elementStringReading, ReadsSetFields, onlyReads_bind, onlyReads_read]
  simp only [onlyReads_read]
  cases hright : filter.right with
  | none => simp [FilterExpr.IsSet, hright]
  | some right => simp [FilterExpr.IsSet, hright, derefArg]

theorem readsSetFields_additionalFilter (filter : FilterExpr) :
    ReadsSetFields (additionalFilterReading filter) ↔ Sendable filter := by
  rw [additionalFilterReading, Sendable]
  by_cases hall : filter.operation = .allOp
  · rw [if_pos hall]
    exact iff_of_true (onlyReads_pure _) (Or.inl hall)
  rw [if_neg hall, ReadsSetFields, onlyReads_bind, onlyReads_read]
  cases hleft : filter.left with
  | none => simp [FilterExpr.IsSet, hleft, hall]
  | some name =>
      have helement := readsSetFields_elementString filter
      simp only [onlyReads_bind, onlyReads_pure, implies_true, and_true, derefArg, helement]
      simp [FilterExpr.IsSet, hleft, hall]

theorem readsSetFields_convertNodesToFilterChain :
    ReadsSetFields (convertNodesToFilterChainReading room nodes) ↔
      ∀ filter ∈ ((nodes.head?.map ParsedNode.filters).getD []).head?, Sendable filter := by
  rw [convertNodesToFilterChainReading, ReadsSetFields, onlyReads_bind]
  cases nodes with
  | nil => simp [onlyReads_lift, assertArgNotNull]
  | cons first rest =>
      obtain ⟨name, filters⟩ := first
      cases filters with
      | nil => simp [onlyReads_lift, onlyReads_pure, assertArgNotNull]
      | cons filter filters =>
          have hrest : ∀ sent : RpcFilter, ReadsSetFields
              (if room ((⟨name, filter :: filters⟩ :: rest).map fun node => nameFilter node.name).length ≤
                  ((⟨name, filter :: filters⟩ :: rest).map fun node => nameFilter node.name).length then
                lift (.error (.undefined "filter behind the array"))
              else return ⟨((⟨name, filter :: filters⟩ :: rest).map fun node => nameFilter node.name) ++ [sent]⟩ :
                FieldReading RpcFilterChain) := by
            intro sent
            split_ifs
            · exact onlyReads_lift _
            · exact onlyReads_pure _
          have hfilter := readsSetFields_additionalFilter filter
          constructor
          · rintro ⟨_, h⟩
            rintro _ ⟨⟩
            exact hfilter.mp (onlyReads_bind.mp (h _ rfl)).1
          · intro h
            refine ⟨onlyReads_lift _, ?_⟩
            rintro _ ⟨⟩
            exact onlyReads_bind.mpr ⟨hfilter.mpr (h filter rfl), fun sent _ => hrest sent⟩

/-- The loop over the attributes of a new node reads the values of the equalities up to the
first filter that it refuses. -/
def AttributesSet : List FilterExpr → Prop
  | [] => True
  | expr :: filters => expr.operation = .equalsOp → ∀ name attr, expr.left = some name →
      fileInfoAttributeFromString name = .ok attr → (∃ text, expr.right = some (.string text)) ∧ AttributesSet filters

theorem Made.equals_left (h : Made filter) (hop : filter.operation = .equalsOp) :
    filter.type = .selectByLogicalOp ∧ ∃ name, filter.left = some name := by
  cases h with
  | logical name op value => exact ⟨rfl, name, rfl⟩
  | value | all | varName => cases hop

theorem readsSetFields_setAttributes (hmade : ∀ filter ∈ filters, Made filter) :
    ReadsSetFields (setAttributesReading filters fileInfo) ↔ AttributesSet filters := by
  induction filters generalizing fileInfo with
  | nil => exact iff_of_true (onlyReads_pure _) trivial
  | cons expr filters ih =>
      obtain ⟨hexpr, hfilters⟩ := List.forall_mem_cons.mp hmade
      rw [setAttributesReading, AttributesSet]
      by_cases hop : expr.operation = .equalsOp
      swap
      · refine iff_of_true ?_ fun h => absurd h hop
        split_ifs <;> exact onlyReads_lift _
      obtain ⟨htype, name, hleft⟩ := hexpr.equals_left hop
      have helement := readsSetFields_elementString expr
      simp only [htype, hop, ne_eq, not_true_eq_false, if_false]
      constructor
      · intro h _ name' attr hname hattr
        have hrest := (onlyReads_bind.mp h).2 name' (by rw [outcome_read, hname]; rfl)
        obtain ⟨hread, hloop⟩ := onlyReads_bind.mp ((onlyReads_bind.mp hrest).2 attr hattr)
        obtain ⟨text, hright⟩ := (readsSetFields_elementString expr).mp hread
        refine ⟨⟨text, hright⟩, ?_⟩
        exact (ih hfilters).mp (hloop text (by rw [outcome_elementStringReading, hright]; rfl))
      · intro h
        refine onlyReads_bind.mpr ⟨onlyReads_read.mpr (by simp [FilterExpr.IsSet, hleft]), ?_⟩
        intro name' hname
        rw [outcome_read, hleft] at hname
        cases hname
        refine onlyReads_bind.mpr ⟨onlyReads_lift _, ?_⟩
        intro attr hattr
        obtain ⟨hstring, hrest⟩ := h trivial name attr hleft hattr
        exact onlyReads_bind.mpr ⟨(readsSetFields_elementString expr).mpr hstring, fun text _ => (ih hfilters).mpr hrest⟩

theorem readsSetFields_convertQueryArgsToString (hmade : ∀ filter ∈ filters, Made filter) :
    ReadsSetFields (convertQueryArgsToStringReading filters) ↔
      if filters.length = 1 then ∀ filter ∈ filters, ∃ text, filter.right = some (.string text)
      else AttributesSet filters := by
  have htext : ∀ text : List UInt8, ReadsSetFields
      (if 256 ≤ text.length then lift (.error (.undefined "text longer than its buffer")) else pure text :
        FieldReading (List UInt8)) := by
    intro text
    split_ifs
    · exact onlyReads_lift _
    · exact onlyReads_pure _
  rw [convertQueryArgsToStringReading, ReadsSetFields, onlyReads_bind]
  cases filters with
  | nil => simp [onlyReads_lift, assertArgNotNull, AttributesSet]
  | cons filter rest =>
      have hhead : (lift (assertArgNotNull (filter :: rest).head? "filters") : FieldReading FilterExpr).outcome =
          .ok filter := rfl
      simp only [onlyReads_lift, true_and, hhead, Except.ok.injEq, forall_eq']
      by_cases hone : (filter :: rest).length = 1
      · obtain rfl : rest = [] := by simpa using hone
        simp only [if_pos hone, onlyReads_bind, List.forall_mem_singleton]
        exact ⟨fun h => (readsSetFields_elementString _).mp h.1,
          fun h => ⟨(readsSetFields_elementString _).mpr h, fun text _ => htext text⟩⟩
      · simp only [if_neg hone, onlyReads_bind]
        exact ⟨fun h => (readsSetFields_setAttributes hmade).mp h.1,
          fun h => ⟨(readsSetFields_setAttributes hmade).mpr h, fun fileInfo _ =>
            ⟨onlyReads_lift _, fun text _ => htext text⟩⟩⟩

end Fields

section Result

variable {command : List UInt8} {query : Query}

def firstFilters (query : Query) : List FilterExpr := (query.nodes.head?.map ParsedNode.filters).getD []

def RequestReads (room : Nat → Nat) (query : Query) : Prop :=
  match query.func with
  | .nop | .deleteOp => ReadsSetFields (convertNodesToFilterChainReading room query.nodes)
  | .createOp => ReadsSetFields (convertQueryArgsToStringReading (firstFilters query))
  | .updateOp => True

/-- What is read of the filters is set: for a path, of the first one; for a new node, of
the only one, or of the equalities up to the first filter that is refused. -/
def FieldsSet (func : FunctionType) (filters : List FilterExpr) : Prop :=
  match func with
  | .nop | .deleteOp => ∀ filter ∈ filters.head?, Sendable filter
  | .createOp =>
    if filters.length = 1 then ∀ filter ∈ filters, ∃ text, filter.right = some (.string text)
    else AttributesSet filters
  | .updateOp => True

theorem filtersMade_first (h : FiltersMade query) : ∀ filter ∈ firstFilters query, Made filter := by
  intro filter hfilter
  rw [firstFilters] at hfilter
  cases hhead : query.nodes.head? with
  | none => simp [hhead] at hfilter
  | some node =>
      rw [hhead] at hfilter
      exact h node (List.mem_of_mem_head? hhead) filter hfilter

/-- Of the queries that the grammar accepts, those are translated without reading a field
that is not set whose filters have what is read of them. -/
theorem requestReads_iff (room : Nat → Nat) (hparse : parserParseCommand command = .ok query) :
    RequestReads room query ↔ FieldsSet query.func (firstFilters query) := by
  have hmade := filtersMade_first (filtersMade_of_parse hparse)
  unfold RequestReads FieldsSet
  cases query.func with
  | nop | deleteOp => exact readsSetFields_convertNodesToFilterChain
  | createOp => exact readsSetFields_convertQueryArgsToString hmade
  | updateOp => exact Iff.rfl

/-- A path with a comparison with a word. -/
theorem requestReads_iff_word :
    ∃ query, parserParseCommand (bytesOf "r[@name=x]\n") = .ok query ∧ RequestReads (fun n => n + 1) query := by
  refine ⟨⟨.nop, [⟨bytesOf "r", [createFilter (bytesOf "name") 0 (.string (bytesOf "x"))]⟩]⟩, by decide, ?_⟩
  refine (requestReads_iff (fun n => n + 1) (show parserParseCommand (bytesOf "r[@name=x]\n") = _ by decide)).mpr ?_
  rintro _ ⟨⟩
  exact Or.inr ⟨_, _, rfl, rfl⟩

/-- A path with a word for its filter, and a new node whose value is a number. -/
theorem request_reads_unset :
    (∃ query, parserParseCommand (bytesOf "r[x]\n") = .ok query ∧ ¬RequestReads (fun n => n + 1) query) ∧
    ∃ query, parserParseCommand (bytesOf "create(r[+1])\n") = .ok query ∧ ¬RequestReads (fun n => n + 1) query := by
  constructor
  · refine ⟨⟨.nop, [⟨bytesOf "r", [createFilterSingleValue (.string (bytesOf "x"))]⟩]⟩, by decide, ?_⟩
    intro h
    exact absurd (h (createFilterSingleValue (.string (bytesOf "x")), .leftName) (by decide)) (by simp [FilterExpr.IsSet, createFilterSingleValue])
  · refine ⟨⟨.createOp, [⟨bytesOf "r", [createFilterSingleValue (.number 1)]⟩]⟩, by decide, ?_⟩
    intro h
    obtain ⟨text, hright⟩ := h (createFilterSingleValue (.number 1), .rightString) (by decide)
    cases hright

end Result

end DocumentDb.Client
