import DocumentDb.Documents.Conditions

namespace DocumentDb.Documents

open Storage Program

section Chains

variable {nodes : List Node} {matcher : NodeMatcher} {matchers : List NodeMatcher} {parentId : NodeId}

def level (nodes : List Node) (matcher : NodeMatcher) (parentId : NodeId) : List Node :=
  nodes.filter fun node => matching matcher node && node.parentId == parentId

/-- What a chain selects: every matcher takes from the children of the first node
that the one before it has taken. -/
def selected (nodes : List Node) : List NodeMatcher → NodeId → List Node
  | [], _ => []
  | matcher :: matchers, parentId =>
    match level nodes matcher parentId with
    | [] => []
    | first :: rest => if matchers.isEmpty then first :: rest else selected nodes matchers first.id

def Evaluable (nodes : List Node) : List NodeMatcher → NodeId → Prop
  | [], _ => True
  | matcher :: matchers, parentId =>
    Defined matcher nodes ∧ ∀ first ∈ (level nodes matcher parentId).head?, Evaluable nodes matchers first.id

def withParent (matcher : NodeMatcher) (parentId : NodeId) : NodeMatcher :=
  ⟨matcher.conditions ++ [nodeConditionParentIdEq parentId]⟩

def leftBehind (nodes : List Node) : List NodeMatcher → NodeId → List NodeMatcher
  | [], _ => []
  | matcher :: matchers, parentId =>
    match level nodes matcher parentId with
    | [] => matcher :: matchers
    | first :: _ => withParent matcher parentId :: leftBehind nodes matchers first.id

theorem nodeConditionMatches_withParent (matcher : NodeMatcher) (parentId : NodeId) (node : Node) :
    nodeConditionMatches (withParent matcher parentId) node =
      (nodeConditionMatches matcher node).map fun b => b && node.parentId == parentId := by
  unfold nodeConditionMatches withParent
  induction matcher.conditions with
  | nil => cases h : node.parentId == parentId <;>
      simp [List.allM, nodeConditionParentIdEq, h, bind, Except.bind, pure, Except.pure, Except.map]
  | cons condition conditions ih =>
      simp only [List.cons_append, List.allM]
      cases hc : condition node with
      | error e => simp [bind, Except.bind, Except.map]
      | ok b =>
          cases b with
          | false => simp [bind, Except.bind, pure, Except.pure, Except.map]
          | true => simpa [bind, Except.bind] using ih

theorem matching_withParent (matcher : NodeMatcher) (parentId : NodeId) :
    matching (withParent matcher parentId) =
      fun node => matching matcher node && node.parentId == parentId := by
  funext node
  rw [matching, matching, nodeConditionMatches_withParent]
  cases nodeConditionMatches matcher node with
  | error e => rfl
  | ok b => rfl

theorem filter_withParent (nodes : List Node) (matcher : NodeMatcher) (parentId : NodeId) :
    nodes.filter (matching (withParent matcher parentId)) = level nodes matcher parentId := by
  rw [matching_withParent, level]

theorem defined_withParent : Defined (withParent matcher parentId) nodes ↔ Defined matcher nodes := by
  refine forall₂_congr fun node _ => ?_
  rw [nodeConditionMatches_withParent]
  cases nodeConditionMatches matcher node <;> simp [Except.map]

/-- A parent condition that has stayed behind makes no difference. -/
theorem level_withParent (nodes : List Node) (matcher : NodeMatcher) (parentId : NodeId) :
    level nodes (withParent matcher parentId) parentId = level nodes matcher parentId := by
  unfold level
  rw [matching_withParent]
  simp

/-- The pass that collects selects with the matchers of the pass that counts what
it would select with fresh ones. -/
theorem selected_leftBehind (nodes : List Node) (matchers : List NodeMatcher) (parentId : NodeId) :
    selected nodes (leftBehind nodes matchers parentId) parentId = selected nodes matchers parentId := by
  induction matchers generalizing parentId with
  | nil => rfl
  | cons matcher matchers ih =>
      rw [leftBehind, selected]
      cases hlevel : level nodes matcher parentId with
      | nil => rw [selected, hlevel]
      | cons first rest =>
          rw [selected, level_withParent, hlevel]
          simp only [ih first.id]
          cases matchers with
          | nil => rfl
          | cons next matchers =>
              have hne : leftBehind nodes (next :: matchers) first.id ≠ [] := by
                rw [leftBehind]
                split <;> simp
              simp [hne]

theorem evaluable_leftBehind (h : Evaluable nodes matchers parentId) :
    Evaluable nodes (leftBehind nodes matchers parentId) parentId := by
  induction matchers generalizing parentId with
  | nil => exact h
  | cons matcher matchers ih =>
      obtain ⟨hdef, hrest⟩ := h
      rw [leftBehind]
      cases hlevel : level nodes matcher parentId with
      | nil => exact ⟨hdef, hrest⟩
      | cons first rest =>
          refine ⟨defined_withParent.mpr hdef, ?_⟩
          rw [level_withParent, hlevel]
          rw [hlevel] at hrest
          rintro _ ⟨⟩
          exact ih (hrest first rfl)

theorem leftBehind_length_le {n : Nat} (h : ∀ matcher ∈ matchers, matcher.conditions.length ≤ n)
    (parentId : NodeId) :
    ∀ matcher ∈ leftBehind nodes matchers parentId, matcher.conditions.length ≤ n + 1 := by
  induction matchers generalizing parentId with
  | nil => simp [leftBehind]
  | cons matcher matchers ih =>
      obtain ⟨hhead, htail⟩ := List.forall_mem_cons.mp h
      rw [leftBehind]
      split
      · exact fun m hm => (h m hm).trans (Nat.le_succ n)
      · refine List.forall_mem_cons.mpr ⟨?_, ih htail _⟩
        simpa [withParent] using hhead

theorem nodeAddCondition_ok {matcher' : NodeMatcher}
    (h : nodeAddCondition matcher (nodeConditionParentIdEq parentId) = .ok matcher') :
    matcher' = withParent matcher parentId := by
  rw [nodeAddCondition] at h
  split at h
  · cases h
  · cases h
    rfl

theorem nodeAddCondition_eq (h : matcher.conditions.length ≤ 8) :
    nodeAddCondition matcher (nodeConditionParentIdEq parentId) = .ok (withParent matcher parentId) := by
  rw [nodeAddCondition]
  rw [if_neg (by omega)]
  rfl

theorem nodeRemoveLastCondition_withParent (matcher : NodeMatcher) (parentId : NodeId) :
    nodeRemoveLastCondition (withParent matcher parentId) = matcher := by
  simp [nodeRemoveLastCondition, withParent]

end Chains

section Counting

variable {pageSize : Nat} {store : List (List Slot)} {doc t : Document} {matcher matcher' : NodeMatcher}
  {matchers left : List NodeMatcher} {parentId : NodeId} {n k : Nat}

theorem Holds.countUnderParent_ok (h : Holds pageSize store doc)
    (hrun : countUnderParent matcher parentId doc = .ok (matcher', n) t) :
    Holds pageSize store t ∧ Clean (visits store) ∧ Defined matcher (nodesOf store) ∧
      matcher' = withParent matcher parentId ∧ n = (level (nodesOf store) matcher parentId).length := by
  rw [countUnderParent] at hrun
  obtain ⟨m, s1, hlift, hrest⟩ := bind_eq_ok.mp hrun
  obtain ⟨hadd, rfl⟩ := lift_eq_ok.mp hlift
  obtain rfl := nodeAddCondition_ok hadd
  obtain ⟨count, s2, hcount, hrest⟩ := bind_eq_ok.mp hrest
  obtain ⟨h2, hclean, hdef, hn⟩ := h.count_ok hcount
  simp only [run_pure] at hrest
  cases hrest
  exact ⟨h2, hclean, defined_withParent.mp hdef, rfl, by rw [hn, filter_withParent]⟩

theorem Holds.countUnderParent_clean (h : Holds pageSize store doc) (hclean : Clean (visits store))
    (hdef : Defined matcher (nodesOf store)) (hroom : matcher.conditions.length ≤ 8) (parentId : NodeId) :
    ∃ t, countUnderParent matcher parentId doc =
        .ok (withParent matcher parentId, (level (nodesOf store) matcher parentId).length) t ∧
      Holds pageSize store t := by
  have hdef' : Defined (withParent matcher parentId) (nodesOf store) := defined_withParent.mpr hdef
  obtain ⟨t, hcount, ht⟩ := h.count_clean hclean hdef'
  rw [filter_withParent] at hcount
  refine ⟨t, ?_, ht⟩
  rw [countUnderParent]
  simp only [run_bind, nodeAddCondition_eq hroom, run_lift_ok, andThen_ok, hcount, run_pure]

theorem Holds.getLevel_ok {res : Result (List Node)} (h : Holds pageSize store doc)
    (hrun : documentGetNodesByCondition (withParent matcher parentId) n doc = .ok res t) :
    Holds pageSize store t ∧ res = .ok (level (nodesOf store) matcher parentId) := by
  obtain ⟨ht, _, _, hres, _⟩ := h.get_ok hrun
  rw [filter_withParent] at hres
  exact ⟨ht, hres⟩

theorem Holds.getLevel_clean (h : Holds pageSize store doc) (hclean : Clean (visits store))
    (hdef : Defined matcher (nodesOf store)) (hne : level (nodesOf store) matcher parentId ≠ []) :
    ∃ t, documentGetNodesByCondition (withParent matcher parentId)
        (level (nodesOf store) matcher parentId).length doc =
          .ok (.ok (level (nodesOf store) matcher parentId)) t ∧ Holds pageSize store t := by
  have hdef' : Defined (withParent matcher parentId) (nodesOf store) := defined_withParent.mpr hdef
  have hget := h.get_clean hclean hdef'
  rw [filter_withParent] at hget
  exact hget (List.length_pos_iff.mpr hne)

theorem countSequenceLoop_ok (h : Holds pageSize store doc)
    (hrun : countSequenceLoop matchers parentId k doc = .ok (n, left) t) :
    Holds pageSize store t ∧ Evaluable (nodesOf store) matchers parentId ∧
      left = leftBehind (nodesOf store) matchers parentId ∧
      n = if matchers = [] then k else (selected (nodesOf store) matchers parentId).length := by
  induction matchers generalizing doc parentId k n left with
  | nil =>
      rw [countSequenceLoop, run_pure] at hrun
      cases hrun
      exact ⟨h, trivial, rfl, rfl⟩
  | cons matcher matchers ih =>
      rw [countSequenceLoop] at hrun
      obtain ⟨⟨m, count⟩, s1, hcount, hrest⟩ := bind_eq_ok.mp hrun
      obtain ⟨h1, _, hdef, rfl, rfl⟩ := h.countUnderParent_ok hcount
      rw [Evaluable, leftBehind, selected, if_neg (by simp)]
      cases hlevel : level (nodesOf store) matcher parentId with
      | nil =>
          simp only [hlevel, List.length_nil, if_true, run_pure,
            nodeRemoveLastCondition_withParent] at hrest
          cases hrest
          exact ⟨h1, ⟨hdef, by simp⟩, rfl, rfl⟩
      | cons first rest =>
          dsimp only at hrest
          rw [if_neg (by simp [hlevel])] at hrest
          obtain ⟨res, s2, hget, hrest⟩ := bind_eq_ok.mp hrest
          obtain ⟨h2, rfl⟩ := h1.getLevel_ok hget
          obtain ⟨nodes, s3, habort, hrest⟩ := bind_eq_ok.mp hrest
          obtain ⟨hnodes, rfl⟩ := abortIfFail_eq_ok.mp habort
          rw [hlevel] at hnodes
          cases hnodes
          obtain ⟨⟨n', left'⟩, s4, hloop, hrest⟩ := bind_eq_ok.mp hrest
          simp only [run_pure] at hrest
          cases hrest
          obtain ⟨h4, heval, rfl, rfl⟩ := ih h2 hloop
          refine ⟨h4, ⟨hdef, by rintro _ ⟨⟩; exact heval⟩, rfl, ?_⟩
          rw [hlevel]
          cases matchers <;> rfl

/-- The pass that counts returns when no deleted slot and no matcher is in its way. -/
theorem countSequenceLoop_clean (h : Holds pageSize store doc) (hclean : Clean (visits store))
    (heval : Evaluable (nodesOf store) matchers parentId)
    (hroom : ∀ matcher ∈ matchers, matcher.conditions.length ≤ 8) (k : Nat) :
    ∃ t, countSequenceLoop matchers parentId k doc =
        .ok (if matchers = [] then k else (selected (nodesOf store) matchers parentId).length,
          leftBehind (nodesOf store) matchers parentId) t ∧ Holds pageSize store t := by
  induction matchers generalizing doc parentId k with
  | nil => exact ⟨doc, by rw [countSequenceLoop, run_pure]; rfl, h⟩
  | cons matcher matchers ih =>
      obtain ⟨hdef, hrest⟩ := heval
      obtain ⟨hhead, htail⟩ := List.forall_mem_cons.mp hroom
      obtain ⟨s1, hcount, h1⟩ := h.countUnderParent_clean hclean hdef hhead parentId
      rw [countSequenceLoop, leftBehind, selected, if_neg (by simp), run_bind, hcount, andThen_ok]
      cases hlevel : level (nodesOf store) matcher parentId with
      | nil =>
          refine ⟨s1, ?_, h1⟩
          simp only [List.length_nil, if_true, run_pure, nodeRemoveLastCondition_withParent]
      | cons first rest =>
          obtain ⟨s2, hget, h2⟩ := h1.getLevel_clean hclean hdef (by rw [hlevel]; simp)
          rw [hlevel] at hget
          obtain ⟨t, hloop, ht⟩ := ih h2 (hrest first (by rw [hlevel]; rfl)) htail (first :: rest).length
          refine ⟨t, ?_, ht⟩
          have hpos : ¬(first :: rest).length = 0 := by simp
          simp only [if_neg hpos, run_bind, hget, andThen_ok, run_abortIfFail_ok, hloop, run_pure]
          cases matchers <;> rfl

end Counting

section Sequences

variable {pageSize : Nat} {store : List (List Slot)} {doc t : Document} {matchers left : List NodeMatcher}
  {parentId : NodeId} {n : Nat} {res : Result (List Node)}

theorem countUnderParent_fst {matcher matcher' : NodeMatcher}
    (hrun : countUnderParent matcher parentId doc = .ok (matcher', n) t) : matcher' = withParent matcher parentId := by
  rw [countUnderParent] at hrun
  obtain ⟨m, s1, hlift, hrest⟩ := bind_eq_ok.mp hrun
  obtain ⟨count, s2, _, hrest⟩ := bind_eq_ok.mp hrest
  rw [run_pure] at hrest
  cases hrest
  exact nodeAddCondition_ok (lift_eq_ok.mp hlift).1

/-- Every level of the pass that collects gives its matcher back, whatever the
document is. -/
theorem getSequenceLoop_leaves (hrun : getSequenceLoop n matchers parentId doc = .ok (res, left) t) :
    left = matchers := by
  induction matchers generalizing doc parentId left with
  | nil =>
      rw [getSequenceLoop, run_pure] at hrun
      cases hrun
      rfl
  | cons matcher matchers ih =>
      rw [getSequenceLoop] at hrun
      obtain ⟨⟨m, count⟩, s1, hcount, hrest⟩ := bind_eq_ok.mp hrun
      obtain rfl := countUnderParent_fst hcount
      dsimp only at hrest
      by_cases hzero : count = 0
      · rw [if_pos hzero, run_pure, nodeRemoveLastCondition_withParent] at hrest
        cases hrest
        rfl
      rw [if_neg hzero] at hrest
      by_cases hlast : matchers.isEmpty = true ∧ n ≠ count
      · simp only [if_pos hlast, run_bind, run_throw, andThen_error, reduceCtorEq] at hrest
      rw [if_neg hlast] at hrest
      obtain ⟨r, s2, _, hrest⟩ := bind_eq_ok.mp hrest
      simp only [nodeRemoveLastCondition_withParent] at hrest
      cases r with
      | error message =>
          simp only [run_pure] at hrest
          cases hrest
          rfl
      | ok nodes =>
          by_cases hempty : matchers.isEmpty = true
          · simp only [if_pos hempty, run_pure] at hrest
            cases hrest
            rfl
          · simp only [if_neg hempty] at hrest
            cases nodes with
            | nil => cases hrest
            | cons first rest =>
                obtain ⟨⟨res', left'⟩, s3, hloop, hrest⟩ := bind_eq_ok.mp hrest
                rw [run_pure] at hrest
                cases hrest
                rw [ih hloop]

theorem getSequenceLoop_ok (h : Holds pageSize store doc)
    (hrun : getSequenceLoop n matchers parentId doc = .ok (res, left) t) :
    Holds pageSize store t ∧ (selected (nodesOf store) matchers parentId ≠ [] →
      res = .ok (selected (nodesOf store) matchers parentId)) := by
  induction matchers generalizing doc parentId left with
  | nil =>
      rw [getSequenceLoop, run_pure] at hrun
      cases hrun
      exact ⟨h, fun hne => absurd rfl hne⟩
  | cons matcher matchers ih =>
      rw [getSequenceLoop] at hrun
      obtain ⟨⟨m, count⟩, s1, hcount, hrest⟩ := bind_eq_ok.mp hrun
      obtain ⟨h1, _, hdef, rfl, rfl⟩ := h.countUnderParent_ok hcount
      rw [selected]
      cases hlevel : level (nodesOf store) matcher parentId with
      | nil =>
          simp only [hlevel, List.length_nil, if_true, run_pure] at hrest
          cases hrest
          exact ⟨h1, fun hne => absurd rfl hne⟩
      | cons first rest =>
          dsimp only at hrest
          rw [if_neg (by simp [hlevel])] at hrest
          by_cases hlast : matchers.isEmpty = true ∧ n ≠ (level (nodesOf store) matcher parentId).length
          · simp only [if_pos hlast, run_bind, run_throw, andThen_error, reduceCtorEq] at hrest
          rw [if_neg hlast] at hrest
          obtain ⟨r, s2, hget, hrest⟩ := bind_eq_ok.mp hrest
          obtain ⟨h2, rfl⟩ := h1.getLevel_ok hget
          simp only [hlevel] at hrest ⊢
          by_cases hempty : matchers.isEmpty = true
          · simp only [if_pos hempty, run_pure] at hrest ⊢
            cases hrest
            exact ⟨h2, fun _ => rfl⟩
          · simp only [if_neg hempty] at hrest ⊢
            obtain ⟨⟨res', left'⟩, s4, hloop, hrest⟩ := bind_eq_ok.mp hrest
            simp only [run_pure] at hrest
            cases hrest
            exact ih h2 hloop

/-- The pass that collects returns when no deleted slot and no matcher is in its
way and its array has the length that has been counted. -/
theorem getSequenceLoop_clean (h : Holds pageSize store doc) (hclean : Clean (visits store))
    (heval : Evaluable (nodesOf store) matchers parentId)
    (hroom : ∀ matcher ∈ matchers, matcher.conditions.length ≤ 8)
    (hsome : selected (nodesOf store) matchers parentId ≠ []) :
    ∃ t, getSequenceLoop (selected (nodesOf store) matchers parentId).length matchers parentId doc =
        .ok (.ok (selected (nodesOf store) matchers parentId), matchers) t ∧ Holds pageSize store t := by
  obtain ⟨n, hn⟩ : ∃ n, n = (selected (nodesOf store) matchers parentId).length := ⟨_, rfl⟩
  rw [← hn]
  induction matchers generalizing doc parentId with
  | nil => exact absurd rfl hsome
  | cons matcher matchers ih =>
      obtain ⟨hdef, hrest⟩ := heval
      obtain ⟨hhead, htail⟩ := List.forall_mem_cons.mp hroom
      obtain ⟨s1, hcount, h1⟩ := h.countUnderParent_clean hclean hdef hhead parentId
      rw [selected] at hsome hn ⊢
      rw [getSequenceLoop, run_bind, hcount, andThen_ok]
      cases hlevel : level (nodesOf store) matcher parentId with
      | nil => simp [hlevel] at hsome
      | cons first rest =>
          rw [hlevel] at hsome hn
          obtain ⟨s2, hget, h2⟩ := h1.getLevel_clean hclean hdef (by rw [hlevel]; simp)
          rw [hlevel] at hget
          have hpos : ¬(first :: rest).length = 0 := by simp
          simp only [if_neg hpos]
          by_cases hempty : matchers.isEmpty = true
          · simp only [hempty, if_true] at hn ⊢
            refine ⟨s2, ?_, h2⟩
            rw [if_neg (by simp [hn]), run_bind, hget, andThen_ok]
            simp only [run_pure, nodeRemoveLastCondition_withParent]
          · simp only [hempty, Bool.false_eq_true, if_false] at hsome hn ⊢
            obtain ⟨t, hloop, ht⟩ := ih h2 (hrest first (by rw [hlevel]; rfl)) htail hsome hn
            refine ⟨t, ?_, ht⟩
            rw [if_neg (by simp), run_bind, hget, andThen_ok]
            simp only [run_bind, hloop, andThen_ok, run_pure, nodeRemoveLastCondition_withParent]

theorem run_copyRootNode (h : Holds pageSize store doc) : copyRootNode doc = .ok () doc := by
  rw [copyRootNode]
  simp only [run_bind, run_get, andThen_ok, h.rootNode, if_false, run_pure]

theorem Holds.countSequence_ok (h : Holds pageSize store doc)
    (hrun : documentCountNodesByConditionSequence matchers doc = .ok (n, left) t) :
    Holds pageSize store t ∧ Evaluable (nodesOf store) matchers nullNodeId ∧
      left = leftBehind (nodesOf store) matchers nullNodeId ∧
      n = (selected (nodesOf store) matchers nullNodeId).length := by
  rw [documentCountNodesByConditionSequence] at hrun
  simp only [run_bind, h.assertInitDone, run_copyRootNode h, andThen_ok] at hrun
  obtain ⟨ht, heval, hleft, hn⟩ := countSequenceLoop_ok h hrun
  refine ⟨ht, heval, hleft, hn.trans ?_⟩
  cases matchers <;> rfl

/-- A pass that has counted a node has met no deleted slot. -/
theorem Holds.countSequence_visits (h : Holds pageSize store doc)
    (hrun : documentCountNodesByConditionSequence matchers doc = .ok (n, left) t) (hn : n ≠ 0) :
    Clean (visits store) := by
  rw [documentCountNodesByConditionSequence] at hrun
  simp only [run_bind, h.assertInitDone, run_copyRootNode h, andThen_ok] at hrun
  cases matchers with
  | nil =>
      rw [countSequenceLoop, run_pure] at hrun
      cases hrun
      exact absurd rfl hn
  | cons matcher matchers =>
      rw [countSequenceLoop] at hrun
      obtain ⟨⟨m, count⟩, s1, hcount, _⟩ := bind_eq_ok.mp hrun
      exact (h.countUnderParent_ok hcount).2.1

theorem Holds.countSequence_clean (h : Holds pageSize store doc) (hclean : Clean (visits store))
    (heval : Evaluable (nodesOf store) matchers nullNodeId)
    (hroom : ∀ matcher ∈ matchers, matcher.conditions.length ≤ 8) :
    ∃ t, documentCountNodesByConditionSequence matchers doc =
        .ok ((selected (nodesOf store) matchers nullNodeId).length,
          leftBehind (nodesOf store) matchers nullNodeId) t ∧ Holds pageSize store t := by
  obtain ⟨t, hrun, ht⟩ := countSequenceLoop_clean h hclean heval hroom 0
  refine ⟨t, ?_, ht⟩
  rw [documentCountNodesByConditionSequence]
  simp only [run_bind, h.assertInitDone, run_copyRootNode h, andThen_ok, hrun]
  cases matchers <;> rfl

theorem getSequence_leaves (hrun : documentGetNodesByConditionSequence matchers n doc = .ok (res, left) t) :
    left = matchers := by
  rw [documentGetNodesByConditionSequence] at hrun
  obtain ⟨_, s1, _, hrest⟩ := bind_eq_ok.mp hrun
  by_cases hn : n = 0
  · rw [if_pos hn, run_bind, run_throw, andThen_error] at hrest
    cases hrest
  · rw [if_neg hn] at hrest
    obtain ⟨_, s2, _, hloop⟩ := bind_eq_ok.mp hrest
    exact getSequenceLoop_leaves hloop

theorem Holds.getSequence_ok (h : Holds pageSize store doc)
    (hrun : documentGetNodesByConditionSequence matchers n doc = .ok (res, left) t) :
    Holds pageSize store t ∧ (selected (nodesOf store) matchers nullNodeId ≠ [] →
      res = .ok (selected (nodesOf store) matchers nullNodeId)) := by
  rw [documentGetNodesByConditionSequence] at hrun
  simp only [run_bind, h.assertInitDone, andThen_ok] at hrun
  by_cases hn : n = 0
  · rw [if_pos hn, run_bind, run_throw, andThen_error] at hrun
    cases hrun
  · rw [if_neg hn, run_bind, run_copyRootNode h, andThen_ok] at hrun
    exact getSequenceLoop_ok h hrun

theorem Holds.getSequence_clean (h : Holds pageSize store doc) (hclean : Clean (visits store))
    (heval : Evaluable (nodesOf store) matchers nullNodeId)
    (hroom : ∀ matcher ∈ matchers, matcher.conditions.length ≤ 8)
    (hsome : selected (nodesOf store) matchers nullNodeId ≠ []) :
    ∃ t, documentGetNodesByConditionSequence matchers (selected (nodesOf store) matchers nullNodeId).length doc =
        .ok (.ok (selected (nodesOf store) matchers nullNodeId), matchers) t ∧ Holds pageSize store t := by
  obtain ⟨t, hrun, ht⟩ := getSequenceLoop_clean h hclean heval hroom hsome
  have hn : (selected (nodesOf store) matchers nullNodeId).length ≠ 0 :=
    fun hzero => hsome (List.length_eq_zero_iff.mp hzero)
  refine ⟨t, ?_, ht⟩
  rw [documentGetNodesByConditionSequence]
  simp only [run_bind, h.assertInitDone, run_copyRootNode h, andThen_ok, if_neg hn, hrun]

end Sequences

end DocumentDb.Documents
