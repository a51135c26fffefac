import DocumentDb.Server.Records
import Mathlib.Data.List.Induction

namespace DocumentDb.Server

open Storage Program Bytes Documents Rpc

section Branches

variable {nodes rest : List Node} {node next new : Node} {id last : NodeId} {filters : List RpcFilter}

/-- From a node down to the last one every node has one child, the next one of the list. -/
def Branch (nodes : List Node) (last : NodeId) : NodeId → List Node → Prop
  | id, [] => id = last ∧ ∀ node ∈ nodes, node.parentId ≠ id
  | id, next :: rest => nodes.filter (fun node => node.parentId == id) = [next] ∧ Branch nodes last next.id rest

theorem Branch.only_child (h : Branch nodes last id rest) (hnode : node ∈ nodes) (hparent : node.parentId = id) :
    ∃ rest', rest = node :: rest' ∧ Branch nodes last node.id rest' := by
  cases rest with
  | nil => exact absurd hparent (h.2 node hnode)
  | cons next rest =>
      obtain ⟨hfilter, hrest⟩ := h
      have hmem : node ∈ nodes.filter (fun node => node.parentId == id) :=
        List.mem_filter.mpr ⟨hnode, by simpa using hparent⟩
      rw [hfilter, List.mem_singleton] at hmem
      subst hmem
      exact ⟨rest, rfl, hrest⟩

theorem Branch.childless (h : Branch nodes last id rest) : ∀ node ∈ nodes, node.parentId ≠ last := by
  induction rest generalizing id with
  | nil =>
      obtain ⟨rfl, hnone⟩ := h
      exact hnone
  | cons next rest ih => exact ih h.2

theorem Branch.add (h : Branch nodes last id rest) (hparent : new.parentId = last) (hself : last ≠ new.id)
    (hfresh : ∀ node ∈ nodes, node.parentId ≠ new.id) : Branch (nodes ++ [new]) new.id id (rest ++ [new]) := by
  induction rest generalizing id with
  | nil =>
      obtain ⟨rfl, hnone⟩ := h
      refine ⟨?_, rfl, ?_⟩
      · rw [List.filter_append, List.filter_eq_nil_iff.mpr fun node hnode => by simpa using hnone node hnode]
        simp [hparent]
      · rw [List.forall_mem_append, List.forall_mem_singleton, hparent]
        exact ⟨hfresh, hself⟩
  | cons next rest ih =>
      have hid : id ≠ last := by
        rintro rfl
        obtain ⟨hnext, hchild⟩ := List.mem_filter.mp (h.1 ▸ List.mem_cons_self : next ∈ nodes.filter _)
        exact h.childless next hnext (by simpa using hchild)
      refine ⟨?_, ih h.2⟩
      rw [List.filter_append, h.1]
      simp [hparent, hid.symm]

theorem Branch.answer_eq (h : Branch nodes last id (next :: rest))
    (hsatisfied : List.Forall₂ (fun filter node => satisfies filter node = true) filters (next :: rest)) :
    ∃ single, answer nodes filters id = [single] := by
  induction rest generalizing next id filters with
  | nil =>
      obtain ⟨_, _, hnext, hnone, rfl⟩ := List.forall₂_cons_right_iff.mp hsatisfied
      obtain rfl := List.forall₂_nil_right_iff.mp hnone
      refine ⟨next, ?_⟩
      rw [answer, childrenWith, ← List.filter_filter, h.1]
      simp [hnext]
  | cons later rest ih =>
      obtain ⟨filter, filters', hnext, hrest, rfl⟩ := List.forall₂_cons_right_iff.mp hsatisfied
      obtain ⟨_, _, _, _, rfl⟩ := List.forall₂_cons_right_iff.mp hrest
      have hlevel : childrenWith nodes filter id = [next] := by
        rw [childrenWith, ← List.filter_filter, h.1]
        simp [hnext]
      obtain ⟨single, hsingle⟩ := ih h.2 hrest
      exact ⟨single, (answer_step hlevel).trans hsingle⟩

end Branches

section Growing

variable {records : List FileRecord} {record : FileRecord} {store : List (List Slot)} {doc : Document} {last : NodeId}

structure BranchOf (records : List FileRecord) (store : List (List Slot)) (doc : Document) (last : NodeId) :
    Prop where
  reachable : ServerReachable 4096 doc
  packed : Packed 4096 store doc
  filled : Filled 4096 records.length store
  records : List.Forall₂ HasRecord (nodesOf store) records
  branch : Branch (nodesOf store) last nullNodeId (nodesOf store)
  last : last = nullNodeId ∧ nodesOf store = [] ∨ ∃ node ∈ nodesOf store, node.id = last

theorem BranchOf.isInt32 (h : BranchOf records store doc last) : IsInt32 last.pageId ∧ IsInt32 last.itemId := by
  rcases h.last with ⟨rfl, _⟩ | ⟨node, hnode, rfl⟩
  · exact ⟨isInt32_nullNodeId_pageId, isInt32_nullNodeId_itemId⟩
  · have hids := idsFit h.packed.holds hnode
    exact ⟨hids.id_pageId, hids.id_itemId⟩

theorem BranchOf.add (h : BranchOf records store doc last) (hshort : record.text.length < 256)
    (hcount : records.length < 256) :
    ∃ store' doc' last', BranchOf (records ++ [record]) store' doc' last' := by
  obtain ⟨value, hvalue, hrecord⟩ := exists_recordValue record hshort
  obtain ⟨t, stored, response, hrun, ht, hnodes, _⟩ := createPacked h.packed hvalue h.isInt32.1 h.isInt32.2
    (show sizeofNode + sizeofPageHeader + sizeofItemMetadata ≤ 4096 by decide)
    (h.filled.room h.packed.holds.nodes (by decide) (by decide) hcount (by decide))
    (fun hnull => by
      rcases h.last with ⟨_, hnone⟩ | ⟨node, hnode, hid⟩
      · simp [hnone]
      · exact absurd (hid.trans hnull) (id_ne_null hnode))
    fun hne => by
      rcases h.last with ⟨hnull, _⟩ | hlive
      · exact absurd hnull hne
      · exact hlive
  have hreachable := h.reachable.createNode hrun ht.holds.below
  obtain ⟨store', hstore', hrooted⟩ := hreachable.document.tree
  rw [← hstore'.liveNodes_eq, ht.holds.liveNodes_eq] at hrooted
  generalize hnew : (⟨putId 4096 store sizeofNode, last, value⟩ : Node) = new at hnodes
  have hid : new.id = putId 4096 store sizeofNode := by rw [← hnew]
  have hparent : new.parentId = last := by rw [← hnew]
  have hmem : new ∈ nodesOf (putSlots 4096 store (encodeNode stored)) := by
    rw [hnodes]
    exact List.mem_append_right _ List.mem_cons_self
  have hfresh : ∀ node ∈ nodesOf store, node.parentId ≠ new.id := fun node hnode heq => by
    have hbefore := Rooted.before_child hrooted (hnodes ▸ List.mem_append_left _ hnode) heq
    rw [hid] at hbefore
    exact Before.irrefl _ (hbefore.trans (before_putId_node 4096 sizeofNode hnode))
  refine ⟨_, t, new.id, hreachable, ht, ?_, ?_, ?_, Or.inr ⟨new, hmem, rfl⟩⟩
  · rw [List.length_append, List.length_singleton]
    exact h.filled.put h.packed.holds.nodes (by decide) (by decide) stored
  · rw [hnodes, ← hnew]
    exact List.rel_append h.records (.cons (hrecord _ _) .nil)
  · rw [hnodes]
    exact h.branch.add hparent (Rooted.before_child hrooted hmem hparent).ne hfresh

theorem exists_branch (records : List FileRecord) (hshort : ∀ record ∈ records, record.text.length < 256)
    (hcount : records.length ≤ 256) : ∃ store doc last, BranchOf records store doc last := by
  induction records using List.reverseRecOn with
  | nil =>
      obtain ⟨doc, hreachable, hpacked⟩ := exists_started (show sizeofPageHeader ≤ 4096 by decide) (by decide)
      refine ⟨[[]], doc, nullNodeId, hreachable, hpacked, filled_fresh 4096, ?_, ?_, Or.inl ⟨rfl, nodesOf_fresh⟩⟩
      · rw [nodesOf_fresh]
        exact .nil
      · rw [nodesOf_fresh]
        exact ⟨rfl, List.forall_mem_nil _⟩
  | append_singleton records record ih =>
      obtain ⟨hrecords, hrecord⟩ := List.forall_mem_append.mp hshort
      rw [List.length_append, List.length_singleton] at hcount
      obtain ⟨store, doc, last, h⟩ := ih hrecords (Nat.le_of_succ_le hcount)
      exact h.add (hrecord record List.mem_cons_self) hcount

theorem BranchOf.hasRecord (h : BranchOf records store doc last) :
    ∀ node ∈ liveNodes doc, ∃ record, HasRecord node record := by
  intro node hnode
  rw [h.packed.holds.liveNodes_eq] at hnode
  obtain ⟨record, _, hrecord⟩ := forall₂_exists h.records node hnode
  exact ⟨record, hrecord⟩

theorem BranchOf.getNodes {request : RpcFilterChain} (h : BranchOf records store doc last) (hne : records ≠ [])
    (hchain : List.Forall₂ Meets request.filters records) :
    ∃ message t, handleGetNodesByFilterRequest request doc = .ok ⟨[message]⟩ t := by
  have hasks : ∀ filter ∈ request.filters, ∃ attr argument, Asks filter attr argument := fun filter hfilter => by
    obtain ⟨_, _, attr, argument, hasks, _⟩ := forall₂_exists hchain filter hfilter
    exact ⟨attr, argument, hasks⟩
  have hsatisfied : List.Forall₂ (fun filter node => satisfies filter node = true) request.filters
      (nodesOf store) := by
    refine forall₂_along (fun filter node record hfilter hrecord => ?_) hchain h.records
    obtain ⟨attr, argument, hasks, heq⟩ := hfilter
    rw [hasks.satisfies_eq hrecord, heq]
  have hlive := h.packed.holds.liveNodes_eq
  obtain ⟨⟨messages⟩, t, hget⟩ := getNodesByFilter_returns h.reachable
    (fun filter hfilter => by
      obtain ⟨attr, argument, hfilter⟩ := hasks filter hfilter
      exact hfilter.named)
    (scanReturns_of_packed h.packed) (evaluates_of_asks h.hasRecord hasks nullNodeId)
  have hanswer := getNodesByFilter_answers h.reachable hget
  have hbranch := h.branch
  have hlength := h.records.length_eq
  rw [hlive] at hanswer
  cases hnodes : nodesOf store with
  | nil =>
      rw [hnodes] at hlength
      exact absurd (List.eq_nil_of_length_eq_zero hlength.symm) hne
  | cons next rest =>
      rw [hnodes] at hbranch hsatisfied hanswer
      obtain ⟨single, hsingle⟩ := hbranch.answer_eq hsatisfied
      rw [hsingle] at hanswer
      obtain ⟨message, _, _, hnone, rfl⟩ := List.forall₂_cons_left_iff.mp hanswer
      obtain rfl := List.forall₂_nil_left_iff.mp hnone
      exact ⟨message, t, hget⟩

end Growing

end DocumentDb.Server
