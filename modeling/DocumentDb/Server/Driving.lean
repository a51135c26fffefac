import DocumentDb.Documents.Crashes
import DocumentDb.Server.Handlers

namespace DocumentDb.Server

open Storage Program Bytes Documents Rpc

section Reads

variable {R : List UInt8 → List UInt8 → Prop} [Std.Refl R] [IsTrans (List UInt8) R] {α β γ : Type}

theorem drives_foldlM {f : β → α → DocumentM β} (hf : ∀ b a, Driven R (f b a)) (as : List α) (b : β) :
    Driven R (as.foldlM f b) := by
  induction as generalizing b with
  | nil => exact Device.Drives.pure b
  | cons a as ih =>
      rw [List.foldlM_cons]
      exact (hf b a).bind ih

theorem drives_eachNode (f : γ → Node → Except Fault γ) (acc : γ) : Driven R (eachNode f acc) :=
  drives_onPageManager (drives_scanItems _ _)

theorem drives_countNodes (matcher : NodeMatcher) : Driven R (documentCountNodesByCondition matcher) := by
  apply drives_assertInitDone.bind
  intro _
  apply (drives_eachNode _ _).bind
  rintro ⟨count, itemsIt⟩
  exact (drives_destroyIterator itemsIt).bind fun _ => Device.Drives.pure _

theorem drives_getNodes (matcher : NodeMatcher) (resultCount : Nat) :
    Driven R (documentGetNodesByCondition matcher resultCount) := by
  apply drives_assertInitDone.bind
  intro _
  apply Device.Drives.ite
  · exact Device.Drives.throw_bind _
  apply (drives_eachNode _ _).bind
  rintro ⟨nodes, itemsIt⟩
  apply (drives_destroyIterator itemsIt).bind
  intro _
  apply Device.Drives.ite
  · exact Device.Drives.throw_bind _
  apply Device.Drives.ite
  · exact Device.Drives.pure _
  · exact Device.Drives.pure _

theorem drives_countChildren (parentId : NodeId) : Driven R (documentCountChildren parentId) := drives_countNodes _

theorem drives_copyRootNode : Driven R copyRootNode := by
  apply Device.Drives.get
  · intro p doc
    rfl
  intro doc
  apply Device.Drives.ite
  · exact Device.Drives.throw _
  · exact Device.Drives.pure _

theorem drives_countUnderParent (matcher : NodeMatcher) (parentId : NodeId) :
    Driven R (countUnderParent matcher parentId) := by
  apply (Device.Drives.lift _).bind
  intro matcher
  exact (drives_countNodes matcher).bind fun _ => Device.Drives.pure _

theorem drives_countSequence (matchers : List NodeMatcher) (parentId : NodeId) (count : Nat) :
    Driven R (countSequenceLoop matchers parentId count) := by
  induction matchers generalizing parentId count with
  | nil => exact Device.Drives.pure _
  | cons matcher matchers ih =>
      apply (drives_countUnderParent matcher parentId).bind
      rintro ⟨matcher, matched⟩
      apply Device.Drives.ite
      · exact Device.Drives.pure _
      apply (drives_getNodes matcher matched).bind
      intro res
      apply Documents.drives_abortIfFail.bind
      intro nodes
      cases nodes with
      | nil => exact Device.Drives.throw _
      | cons current nodes => exact (ih current.id matched).bind fun _ => Device.Drives.pure _

theorem drives_getSequence (resultCount : Nat) (matchers : List NodeMatcher) (parentId : NodeId) :
    Driven R (getSequenceLoop resultCount matchers parentId) := by
  induction matchers generalizing parentId with
  | nil => exact Device.Drives.pure _
  | cons matcher matchers ih =>
      apply (drives_countUnderParent matcher parentId).bind
      rintro ⟨matcher, matched⟩
      apply Device.Drives.ite
      · exact Device.Drives.pure _
      apply Device.Drives.ite
      · exact Device.Drives.throw_bind _
      apply (drives_getNodes matcher matched).bind
      intro res
      cases res with
      | error message => exact Device.Drives.pure _
      | ok nodes =>
          apply Device.Drives.ite
          · exact Device.Drives.pure _
          cases nodes with
          | nil => exact Device.Drives.throw _
          | cons current nodes => exact (ih current.id).bind fun _ => Device.Drives.pure _

theorem drives_getNodesByFilter (request : RpcFilterChain) : Driven R (handleGetNodesByFilterRequest request) := by
  apply (Device.Drives.lift _).bind
  intro matchers
  apply Device.Drives.bind
  · apply drives_assertInitDone.bind
    intro _
    exact drives_copyRootNode.bind fun _ => drives_countSequence matchers nullNodeId 0
  rintro ⟨count, matchers⟩
  apply Device.Drives.ite
  · exact Device.Drives.pure _
  apply Device.Drives.bind
  · apply drives_assertInitDone.bind
    intro _
    apply Device.Drives.ite
    · exact Device.Drives.throw_bind _
    · exact drives_copyRootNode.bind fun _ => drives_getSequence count matchers nullNodeId
  rintro ⟨res, left⟩
  cases res with
  | ok result => exact Device.Drives.lift _
  | error message => exact Device.Drives.pure _

end Reads

section Writes

theorem drives_deleteWithDescendants (fuel : Nat) (nodeId : NodeId) (deletedCount : Int) :
    Driven Longer (deleteNodeWithAllDescendants fuel nodeId deletedCount) := by
  induction fuel generalizing nodeId deletedCount with
  | zero => exact Device.Drives.throw _
  | succ fuel ih =>
      have hlast (deletedCount : Int) : Driven Longer (do
          let res ← documentDeleteNode ⟨nodeId⟩
          abortIfFail res "Trying to delete node with not children"
          return (res, deletedCount)) := by
        apply (drives_deleteNode _).bind
        intro res
        exact Documents.drives_abortIfFail.bind fun _ => Device.Drives.pure _
      rw [deleteNodeWithAllDescendants]
      apply (drives_countChildren nodeId).bind
      intro childrenCount
      apply Device.Drives.ite
      · apply (drives_getNodes _ childrenCount).bind
        intro res
        apply Documents.drives_abortIfFail.bind
        intro children
        refine (drives_foldlM (fun deletedCount child => ?_) children deletedCount).bind fun count => hlast (count + 1)
        apply (ih child.id deletedCount).bind
        rintro ⟨res, count⟩
        exact Documents.drives_abortIfFail.bind fun _ => Device.Drives.pure _
      · exact hlast (deletedCount + 1)

theorem drives_createNode (request : RpcCreateNodeRequest) : Driven Longer (handleCreateNodeRequest request) := by
  apply (Device.Drives.lift _).bind
  intro _
  apply (Device.Drives.lift _).bind
  intro _
  apply (Device.Drives.lift _).bind
  intro nodeRequest
  apply (drives_addNode nodeRequest zeroNode).bind
  rintro ⟨res, node⟩
  exact Device.Drives.lift _

theorem drives_deleteNodesLoop (fuel : Nat) (tmpCounts : Nat → Int) (nodes : List RpcNode) :
    Driven Longer (deleteNodesLoop fuel tmpCounts nodes) := by
  induction nodes generalizing tmpCounts with
  | nil => exact Device.Drives.pure _
  | cons node nodes ih =>
      apply (Device.Drives.lift _).bind
      intro deleteNodeId
      apply (drives_deleteWithDescendants fuel deleteNodeId _).bind
      rintro ⟨res, count⟩
      exact Documents.drives_abortIfFail.bind fun _ => ih _

theorem drives_deleteNodesByFilter (fuel : Nat) (tmpCounts : Nat → Int) (request : RpcFilterChain) :
    Driven Longer (handleDeleteNodesByFilterRequest fuel tmpCounts request) := by
  apply (drives_getNodesByFilter request).bind
  intro nodes
  apply Device.Drives.ite
  · exact Device.Drives.pure _
  · exact (drives_deleteNodesLoop fuel tmpCounts nodes.nodes).bind fun _ => Device.Drives.pure _

end Writes

end DocumentDb.Server
