import DocumentDb.Documents.Growth

namespace DocumentDb.Documents

open Storage Program

section Frame

def NoneAtFirst (nodes : List Node) (matchers : List NodeMatcher) : Prop :=
  ∀ matcher ∈ matchers.head?, ∀ node ∈ nodes, node.parentId = nullNodeId →
    nodeConditionMatches matcher node ≠ .ok true

theorem matching_eq_true (matcher : NodeMatcher) (node : Node) :
    matching matcher node = true ↔ nodeConditionMatches matcher node = .ok true := by
  rw [matching]
  cases nodeConditionMatches matcher node <;> simp

theorem level_eq_nil (nodes : List Node) (matcher : NodeMatcher) (parentId : NodeId) :
    level nodes matcher parentId = [] ↔
      ∀ node ∈ nodes, node.parentId = parentId → nodeConditionMatches matcher node ≠ .ok true := by
  rw [level, List.filter_eq_nil_iff]
  refine forall₂_congr fun node _ => ?_
  rw [Bool.and_eq_true, matching_eq_true, beq_iff_eq]
  tauto

/-- The matchers stay as they are when the first level is empty, and only then. -/
theorem leftBehind_eq_self (nodes : List Node) (matchers : List NodeMatcher) :
    leftBehind nodes matchers nullNodeId = matchers ↔ NoneAtFirst nodes matchers := by
  cases matchers with
  | nil => exact iff_of_true rfl (by rintro _ ⟨⟩)
  | cons matcher matchers =>
      have hfirst : NoneAtFirst nodes (matcher :: matchers) ↔ level nodes matcher nullNodeId = [] := by
        rw [level_eq_nil]
        exact ⟨fun h => h matcher rfl, by rintro h _ ⟨⟩; exact h⟩
      rw [hfirst, leftBehind]
      cases level nodes matcher nullNodeId with
      | nil => simp
      | cons node rest =>
          refine iff_of_false ?_ (by simp)
          intro heq
          have hlength := congrArg (fun m => m.conditions.length) (List.cons.inj heq).1
          simp [withParent] at hlength

end Frame

section Runs

/-- The matchers are evaluated again and again, each time as the evaluation before has
left them, and the documents may differ. They are counted on documents with some property. -/
inductive EvaluationRun (pageSize : Nat) (P : List Node → List NodeMatcher → Prop) (first : List NodeMatcher) :
    List NodeMatcher → Prop
  | start : EvaluationRun pageSize P first first
  | count {matchers doc n left t} : EvaluationRun pageSize P first matchers → ReachableDocument pageSize doc →
      P (liveNodes doc) matchers → documentCountNodesByConditionSequence matchers doc = .ok (n, left) t →
      EvaluationRun pageSize P first left
  | get {matchers doc k res left t} : EvaluationRun pageSize P first matchers → ReachableDocument pageSize doc →
      documentGetNodesByConditionSequence matchers k doc = .ok (res, left) t → EvaluationRun pageSize P first left

variable {pageSize n : Nat} {doc t : Document} {matchers first left : List NodeMatcher}

theorem countSequence_leaves_iff (h : ReachableDocument pageSize doc)
    (hrun : documentCountNodesByConditionSequence matchers doc = .ok (n, left) t) :
    left = matchers ↔ NoneAtFirst (liveNodes doc) matchers := by
  obtain ⟨store, hs, _⟩ := h.tree
  obtain ⟨_, _, rfl, _⟩ := hs.countSequence_ok hrun
  rw [hs.liveNodes_eq]
  exact leftBehind_eq_self _ _

theorem EvaluationRun.eq_first (h : EvaluationRun pageSize NoneAtFirst first matchers) : matchers = first := by
  induction h with
  | start => rfl
  | count _ hdoc hnone hrun ih => exact ((countSequence_leaves_iff hdoc hrun).mpr hnone).trans ih
  | get _ _ hrun ih => exact (getSequence_leaves hrun).trans ih

/-- As long as every document whose nodes are counted has no root for the first matcher,
the matchers stay what they were, and so each evaluation is one with fresh matchers. The
pass that counts leaves them as they are only then, the pass that collects always. -/
theorem evaluations_leave_matchers_iff (h : EvaluationRun pageSize NoneAtFirst first matchers)
    (hdoc : ReachableDocument pageSize doc) :
    matchers = first ∧
    (∀ n left t, documentCountNodesByConditionSequence matchers doc = .ok (n, left) t →
      (left = first ↔ NoneAtFirst (liveNodes doc) first)) ∧
    ∀ k res left t, documentGetNodesByConditionSequence matchers k doc = .ok (res, left) t → left = first := by
  obtain rfl := h.eq_first
  refine ⟨rfl, ?_, ?_⟩
  · intro n left t hrun
    exact countSequence_leaves_iff hdoc hrun
  · intro k res left t hrun
    exact getSequence_leaves hrun

def everyNode : NodeMatcher := nodeMatcherNew nodeConditionAll

theorem defined_everyNode (nodes : List Node) : Defined everyNode nodes := fun _ _ => ⟨true, rfl⟩

theorem everyNode_run :
    ∃ doc s t, ReachableDocument 4096 doc ∧ liveNodes doc = [⟨rootNodeId, nullNodeId, nodeValueOfBytes .int32 [1]⟩] ∧
      documentCountNodesByConditionSequence [everyNode] doc = .ok (1, [withParent everyNode nullNodeId]) s ∧
      documentGetNodesByConditionSequence [everyNode] 1 doc =
        .ok (.ok [⟨rootNodeId, nullNodeId, nodeValueOfBytes .int32 [1]⟩], [everyNode]) t := by
  obtain ⟨doc, slots, hr, hs, _, hnodes⟩ := exists_root (nodeValueOfBytes .int32 [1])
    (show sizeofPageHeader + (sizeofItemMetadata + sizeofNode) ≤ 4096 by decide) (by decide)
  have hlevel : level (nodesOf [slots]) everyNode nullNodeId = nodesOf [slots] := by
    rw [hnodes]
    rfl
  have heval : Evaluable (nodesOf [slots]) [everyNode] nullNodeId := ⟨defined_everyNode _, fun _ _ => trivial⟩
  have hroom : ∀ matcher ∈ [everyNode], matcher.conditions.length ≤ 8 := by simp [everyNode, nodeMatcherNew]
  have hselected : selected (nodesOf [slots]) [everyNode] nullNodeId = nodesOf [slots] := by
    rw [selected, hlevel, hnodes]
    rfl
  obtain ⟨s, hcount, _⟩ := hs.holds.countSequence_clean hs.allLive.clean heval hroom
  obtain ⟨t, hget, _⟩ := hs.holds.getSequence_clean hs.allLive.clean heval hroom (by rw [hselected, hnodes]; simp)
  rw [hselected, hnodes] at hget
  rw [hselected, leftBehind, hlevel, hnodes] at hcount
  exact ⟨doc, s, t, hr, by rw [hs.holds.liveNodes_eq, hnodes], hcount, hget⟩

/-- The root is collected, and the matchers are evaluated again. -/
theorem evaluations_leave_matchers_iff_everyNode :
    ∃ doc s left, ReachableDocument 4096 doc ∧
      documentCountNodesByConditionSequence [everyNode] doc = .ok (1, left) s ∧
      (left = [everyNode] ↔ NoneAtFirst (liveNodes doc) [everyNode]) := by
  obtain ⟨doc, s, t, hr, _, hcount, hget⟩ := everyNode_run
  have hrun : EvaluationRun 4096 NoneAtFirst [everyNode] [everyNode] := .get .start hr hget
  exact ⟨doc, s, _, hr, hcount, (evaluations_leave_matchers_iff hrun hr).2.1 _ _ _ hcount⟩

/-- The root is counted, and the parent condition stays behind. -/
theorem countSequence_leaves_condition :
    ∃ doc s left, ReachableDocument 4096 doc ∧
      documentCountNodesByConditionSequence [everyNode] doc = .ok (1, left) s ∧ left ≠ [everyNode] := by
  obtain ⟨doc, s, t, hr, _, hcount, _⟩ := everyNode_run
  refine ⟨doc, s, _, hr, hcount, ?_⟩
  intro heq
  have hlength := congrArg (fun m => m.conditions.length) (List.cons.inj heq).1
  simp [withParent] at hlength

end Runs

end DocumentDb.Documents
