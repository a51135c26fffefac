import DocumentDb.Lib.Arrays
import DocumentDb.Client.Helpers

namespace DocumentDb.Client

open Storage Program Arrays Rpc

section Writing

variable {α : Type}

abbrev FilterWriting (α : Type) := EStateM Fault (Block RpcFilter) α

/-- The walk that counts the first node and every node that is next to another one. -/
def nodeNamesCount : List ParsedNode → Nat
  | _ :: node :: nodes => nodeNamesCount (node :: nodes) + 1
  | _ => 1

def writeNames : List ParsedNode → Nat → FilterWriting Nat
  | [], i => return i
  | node :: nodes, i => do
    modify fun filters => filters.write i (nameFilter node.name)
    writeNames nodes (i + 1)

/-- `convertNodesToFilterChainPathOnly` with its stores. It returns `n_filters`. -/
def convertNodesToFilterChainPathOnlyWriting (nodes : List ParsedNode) : FilterWriting Nat := do
  let _ ← lift (assertArgNotNull nodes.head? "nodes")
  let nodeNamesCount := nodeNamesCount nodes
  set (Block.new nodeNamesCount : Block RpcFilter)
  let _ ← writeNames nodes 0
  return nodeNamesCount

/-- `convertNodesToFilterChain` with its stores. It returns `n_filters`. -/
def convertNodesToFilterChainWriting (nodes : List ParsedNode) : FilterWriting Nat := do
  let firstNode ← lift (assertArgNotNull nodes.head? "nodes")
  let nodeNamesCount := nodeNamesCount nodes
  set (Block.new nodeNamesCount : Block RpcFilter)
  let i ← writeNames nodes 0
  match firstNode.filters with
  | [] => return nodeNamesCount
  | filter :: _ =>
    let filter ← lift (additionalFilter filter)
    modify fun filters => filters.write i filter
    return nodeNamesCount + 1

/-- A translator stays in the array that it has allocated, and what it returns is the number
of filters that it has stored. -/
structure FillsArray (x : FilterWriting Nat) : Prop where
  within : (final (x (.new 0))).Within
  count : ∀ nFilters filters, x (.new 0) = .ok nFilters filters → nFilters = filters.writes.length

end Writing

section Walks

variable (b : Block RpcFilter) (node : ParsedNode) (nodes : List ParsedNode)

theorem nodeNamesCount_cons : nodeNamesCount (node :: nodes) = (node :: nodes).length := by
  induction nodes generalizing node with
  | nil => rfl
  | cons next nodes ih => rw [nodeNamesCount, ih, List.length_cons (a := node)]

theorem writeNames_eq (i : Nat) :
    writeNames nodes i b = .ok (i + nodes.length) (b.fill i (nodes.map fun node => nameFilter node.name)) := by
  induction nodes generalizing b i with
  | nil => rfl
  | cons node nodes ih =>
      rw [writeNames]
      simp only [run_bind, run_modify, andThen_ok]
      rw [ih, List.length_cons, List.map_cons, Block.fill]
      congr 1
      omega

def namesArray : Block RpcFilter :=
  (Block.new nodes.length).fill 0 (nodes.map fun node => nameFilter node.name)

theorem size_namesArray : (namesArray nodes).size = nodes.length := by
  rw [namesArray, size_fill, size_new]

theorem within_namesArray : (namesArray nodes).Within := by
  rw [namesArray, within_fill_iff, List.length_map, Nat.zero_add, size_new]
  exact ⟨within_new _, fun _ => le_rfl⟩

theorem length_writes_namesArray : (namesArray nodes).writes.length = nodes.length := by
  rw [namesArray, length_writes_fill, writes_new, List.length_map, List.length_nil, Nat.zero_add]

theorem pathOnlyWriting_eq : convertNodesToFilterChainPathOnlyWriting (node :: nodes) b =
    .ok (node :: nodes).length (namesArray (node :: nodes)) := by
  rw [convertNodesToFilterChainPathOnlyWriting]
  simp only [assertArgNotNull, List.head?_cons, run_bind, run_lift_ok, andThen_ok, run_set, nodeNamesCount_cons,
    writeNames_eq, run_pure]
  rfl

theorem filterChainWriting_eq : convertNodesToFilterChainWriting (node :: nodes) b =
    match node.filters with
    | [] => .ok (node :: nodes).length (namesArray (node :: nodes))
    | filter :: _ =>
      match additionalFilter filter with
      | .error e => .error e (namesArray (node :: nodes))
      | .ok filter => .ok ((node :: nodes).length + 1)
          ((namesArray (node :: nodes)).write (node :: nodes).length filter) := by
  have hnames : (Block.new (node :: nodes).length).fill 0 ((node :: nodes).map fun node => nameFilter node.name) =
      namesArray (node :: nodes) := rfl
  rw [convertNodesToFilterChainWriting]
  simp only [assertArgNotNull, List.head?_cons, run_bind, run_lift_ok, andThen_ok, run_set, nodeNamesCount_cons,
    writeNames_eq, Nat.zero_add, hnames]
  cases node.filters with
  | nil => rfl
  | cons filter filters =>
      cases hfilter : additionalFilter filter with
      | error e => simp only [run_bind, hfilter, run_lift_error, andThen_error]
      | ok filter => simp only [run_bind, hfilter, run_lift_ok, andThen_ok, run_modify, run_pure]

end Walks

section Chains

variable {nodes : List ParsedNode} {filter : FilterExpr}

theorem convertNodesToFilterChain_writes (nodes : List ParsedNode) :
    convertNodesToFilterChain (· + 1) nodes =
      match convertNodesToFilterChainWriting nodes (.new 0) with
      | .ok _ filters => .ok ⟨filters.writes.map Prod.snd⟩
      | .error e _ => .error e := by
  cases nodes with
  | nil => rfl
  | cons node nodes =>
      have hwrites : (namesArray (node :: nodes)).writes.map Prod.snd =
          (node :: nodes).map fun node => nameFilter node.name := by
        rw [namesArray, entries_fill, writes_new, List.map_nil, List.nil_append]
      rw [filterChainWriting_eq, convertNodesToFilterChain]
      simp only [assertArgNotNull, List.head?_cons, bind, Except.bind]
      cases node.filters with
      | nil =>
          dsimp only
          rw [hwrites]
          rfl
      | cons filter filters =>
          cases hfilter : additionalFilter filter with
          | error e => simp only [hfilter]
          | ok filter =>
              simp only [hfilter, writes_write, List.map_append, hwrites, List.map_cons, List.map_nil]
              rw [if_neg (by omega)]
              rfl

theorem convertNodesToFilterChainPathOnly_writes (nodes : List ParsedNode) :
    convertNodesToFilterChainPathOnly nodes =
      match convertNodesToFilterChainPathOnlyWriting nodes (.new 0) with
      | .ok _ filters => .ok ⟨filters.writes.map Prod.snd⟩
      | .error e _ => .error e := by
  cases nodes with
  | nil => rfl
  | cons node nodes =>
      rw [pathOnlyWriting_eq]
      dsimp only
      rw [namesArray, entries_fill, writes_new, List.map_nil, List.nil_append]
      rfl

/-- The fields of a filter that `convertNodesToFilterChain` copies are set, if it copies any. -/
def Copied (filter : FilterExpr) : Prop :=
  filter.operation = .allOp ∨ filter.left ≠ none ∧ ∃ text, filter.right = some (.string text)

theorem additionalFilter_eq_ok : (∃ rpc, additionalFilter filter = .ok rpc) ↔ Copied filter := by
  obtain ⟨operation, left, right, type⟩ := filter
  rw [additionalFilter, Copied]
  dsimp only
  by_cases hall : operation = .allOp
  · rw [if_pos hall]
    exact ⟨fun _ => Or.inl hall, fun _ => ⟨_, rfl⟩⟩
  · rw [if_neg hall]
    rcases left with _ | name
    · simp [derefArg, bind, Except.bind, hall]
    rcases right with _ | _ | _ | _ | text
    all_goals simp [derefArg, elementString, bind, Except.bind, pure, Except.pure, hall]

/-- The first node has a filter, and it is made a filter of the request. -/
def HasAdditional (nodes : List ParsedNode) : Prop :=
  ∃ node ∈ nodes.head?, ∃ filter ∈ node.filters.head?, Copied filter

theorem fillsArray_of_names {x : FilterWriting Nat} {nodes : List ParsedNode}
    (hx : x (.new 0) = .ok nodes.length (namesArray nodes)) : FillsArray x := by
  constructor
  · rw [hx]
    exact within_namesArray nodes
  · intro nFilters filters hrun
    rw [hx] at hrun
    cases hrun
    exact (length_writes_namesArray nodes).symm

theorem filterChainWriting_fills_iff (node : ParsedNode) (nodes : List ParsedNode) :
    FillsArray (convertNodesToFilterChainWriting (node :: nodes)) ↔
      ∀ filter ∈ node.filters.head?, ¬Copied filter := by
  have hrun := filterChainWriting_eq (.new 0) node nodes
  cases hfilters : node.filters with
  | nil =>
      simp only [hfilters] at hrun
      exact iff_of_true (fillsArray_of_names hrun) fun filter hfilter => by cases hfilter
  | cons filter filters =>
      simp only [hfilters] at hrun
      simp only [List.head?_cons, Option.mem_some_iff, forall_eq']
      rw [← additionalFilter_eq_ok]
      cases hfilter : additionalFilter filter with
      | error e =>
          rw [hfilter] at hrun
          refine iff_of_true ⟨?_, fun nFilters filters h => ?_⟩ ?_
          · rw [hrun]
            exact within_namesArray _
          · rw [hrun] at h
            cases h
          · rintro ⟨rpc, hrpc⟩
            cases hrpc
      | ok rpc =>
          rw [hfilter] at hrun
          refine iff_of_false (fun hfills => ?_) fun hnone => hnone ⟨rpc, rfl⟩
          have hwithin := hfills.within
          rw [hrun, final_ok, within_write_iff, size_namesArray] at hwithin
          exact absurd hwithin.2 (lt_irrefl _)

/-- The filters for the names of a path fill their array exactly. An additional filter is
stored behind it. -/
theorem filterArrays_iff (nodes : List ParsedNode) :
    (FillsArray (convertNodesToFilterChainPathOnlyWriting nodes) ∧
      FillsArray (convertNodesToFilterChainWriting nodes)) ↔ ¬HasAdditional nodes := by
  cases nodes with
  | nil =>
      have hnone : ¬HasAdditional [] := by
        rintro ⟨node, hnode, _⟩
        cases hnode
      refine iff_of_true ⟨⟨within_new 0, ?_⟩, within_new 0, ?_⟩ hnone
      · rintro nFilters filters ⟨⟩
      · rintro nFilters filters ⟨⟩
  | cons node nodes =>
      rw [and_iff_right (fillsArray_of_names (pathOnlyWriting_eq (.new 0) node nodes)), filterChainWriting_fills_iff]
      simp [HasAdditional]

/-- The query `r[*]`. -/
theorem filterChain_behind_array :
    ¬FillsArray (convertNodesToFilterChainWriting [⟨bytesOf "r", [createFilterAll]⟩]) := by
  intro hfills
  rw [filterChainWriting_fills_iff] at hfills
  exact hfills createFilterAll rfl (Or.inl rfl)

end Chains

end DocumentDb.Client
