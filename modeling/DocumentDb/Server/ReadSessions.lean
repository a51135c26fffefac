import DocumentDb.Server.Driving
import DocumentDb.Storage.OpenedFiles

namespace DocumentDb.Server

open Storage Program Bytes Documents Rpc

section Reads

variable {R : List UInt8 → List UInt8 → Prop} [Std.Refl R] [IsTrans (List UInt8) R]

theorem drives_takeFirst (matcher : NodeMatcher) : Driven R (documentTakeFirstNodeByCondition matcher) := by
  apply drives_assertInitDone.bind
  intro _
  apply (drives_searchNodes _).bind
  rintro ⟨found, itemsIt⟩
  apply (drives_destroyIterator itemsIt).bind
  intro _
  cases found with
  | some node => exact Device.Drives.pure _
  | none => exact Device.Drives.pure _

theorem drives_getAllChildren (request : GetAllChildrenRequest) (capacity : Nat) :
    Driven R (documentGetAllChildren request capacity) := by
  apply drives_assertInitDone.bind
  intro _
  apply (drives_eachNode _ _).bind
  rintro ⟨count, itemsIt⟩
  apply (drives_destroyIterator itemsIt).bind
  intro _
  apply Device.Drives.ite
  · exact Device.Drives.pure _
  apply (drives_eachNode _ _).bind
  rintro ⟨nodes, itemsIt⟩
  exact (drives_destroyIterator itemsIt).bind fun _ => Device.Drives.pure _

theorem drives_countNodesSequence (matchers : List NodeMatcher) :
    Driven R (documentCountNodesByConditionSequence matchers) := by
  apply drives_assertInitDone.bind
  intro _
  exact drives_copyRootNode.bind fun _ => drives_countSequence matchers nullNodeId 0

theorem drives_getNodesSequence (matchers : List NodeMatcher) (resultCount : Nat) :
    Driven R (documentGetNodesByConditionSequence matchers resultCount) := by
  apply drives_assertInitDone.bind
  intro _
  apply Device.Drives.ite
  · exact Device.Drives.throw_bind _
  · exact drives_copyRootNode.bind fun _ => drives_getSequence resultCount matchers nullNodeId

theorem drives_setRootNode : Driven R setRootNode := by
  apply Device.Drives.bind
  · exact drives_memory (fun _ => rfl) fun _ _ => rfl
  intro _
  apply (drives_takeFirst _).bind
  rintro (message | node)
  · exact Device.Drives.pure _
  · exact drives_memory (fun _ => rfl) fun _ _ => rfl

end Reads

section Opening

variable {bytes : List UInt8} {α : Type} {x : DocumentM α}

theorem savedFile_of_reads (hx : Driven Eq x) (doc : Document) : savedFile (final (x doc)) = savedFile doc :=
  Eq.symm (hx.leads doc).onward

def rootSet (res : Result Unit) : DocumentM (Result Unit) :=
  match res with
  | .error _ => return .error "failed to init page manager"
  | .ok () => do
    setRootNode
    return .ok ()

theorem drives_rootSet (res : Result Unit) : Driven Eq (rootSet res) := by
  cases res with
  | error message => exact Device.Drives.pure _
  | ok u => exact drives_setRootNode.bind fun _ => Device.Drives.pure _

/-- The root is only looked for, so the file is as `page_manager_init` leaves it. -/
theorem savedFile_documentInit (file : FileState) (pageSize : Nat) :
    savedFile (final (documentInit pageSize (documentNew file))) =
      (final (pageManagerInit pageSize fileSignature (pageManagerNew file))).fileManager.file.content := by
  have hrun : documentInit pageSize (documentNew file) =
      (onPageManager (pageManagerInit pageSize fileSignature) >>= rootSet)
        { documentNew file with initDone := true } := (rfl)
  have hinit : savedFile (final (onPageManager (pageManagerInit pageSize fileSignature)
      { documentNew file with initDone := true })) = savedFile (final (documentInit pageSize (documentNew file))) := by
    rw [hrun]
    exact Device.Drives.onward_bind drives_rootSet _
  rw [← hinit, savedFile, final_onPageManager]
  rfl

/-- A data file below `2 ^ 32` bytes is opened without a change exactly when it has a header that is
another program's or counts pages. -/
theorem documentInit_leaves_iff (hlen : bytes.length < 2 ^ 32) (hroom : RoomInFile fileSignature bytes)
    (pageSize : Nat) :
    savedFile (final (documentInit pageSize (documentNew (fileOpen (some bytes) noFaults)))) = bytes ↔
      LeftAlone fileSignature bytes := by
  rw [savedFile_documentInit]
  constructor
  · intro hsame
    by_contra h
    exact pageManagerInit_changes hlen hroom h pageSize hsame
  · intro h
    exact pageManagerInit_leaves h noFaults pageSize

/-- Twenty bytes that are zero have the signature of another program. A file with nothing in it gets a header. -/
theorem documentInit_leaves_iff_zeros :
    savedFile (final (documentInit 4096 (documentNew (fileOpen (some (List.replicate 20 0)) noFaults)))) =
      List.replicate 20 0 ∧
    savedFile (final (documentInit 4096 (documentNew (fileOpen (some []) noFaults)))) ≠ [] := by
  constructor
  · have hother : (headerOf (List.replicate 20 0)).constants.signature ≠ fileSignature := by decide +kernel
    refine (documentInit_leaves_iff (by decide) (fun _ h => absurd h hother) 4096).mpr ⟨?_, .inl hother⟩
    rw [List.length_replicate, toUInt32_of_lt (by decide)]
    exact Nat.le_refl 20
  · have hshort : ¬sizeofFileHeader ≤ ([] : List UInt8).length := by decide
    refine mt (documentInit_leaves_iff (by decide) (fun h => absurd h hshort) 4096).mp ?_
    rintro ⟨hsize, _⟩
    rw [toUInt32_of_lt (by decide)] at hsize
    exact hshort hsize

end Opening

section Sessions

inductive ReadCall : Document → Document → Prop
  | countNodes (s matcher) : ReadCall s (final (documentCountNodesByCondition matcher s))
  | takeFirstNode (s matcher) : ReadCall s (final (documentTakeFirstNodeByCondition matcher s))
  | getNodes (s matcher resultCount) : ReadCall s (final (documentGetNodesByCondition matcher resultCount s))
  | countChildren (s parentId) : ReadCall s (final (documentCountChildren parentId s))
  | getAllChildren (s request capacity) : ReadCall s (final (documentGetAllChildren request capacity s))
  | countSequence (s matchers) : ReadCall s (final (documentCountNodesByConditionSequence matchers s))
  | getSequence (s matchers resultCount) :
      ReadCall s (final (documentGetNodesByConditionSequence matchers resultCount s))
  | getNodesByFilter (s request) : ReadCall s (final (handleGetNodesByFilterRequest request s))

/-- A file is opened, and then only looked at. Any access may fail, and the calls may end the program. -/
inductive ReadSession (bytes : List UInt8) : Document → Prop
  | opened (pageSize faults) : LeftAlone fileSignature bytes →
      ReadSession bytes (final (documentInit pageSize (documentNew (fileOpen (some bytes) faults))))
  | call {s t} : ReadSession bytes s → ReadCall s t → ReadSession bytes t

variable {pageSize : Nat} {bytes : List UInt8} {doc s t : Document}

theorem ReadCall.savedFile_eq (h : ReadCall s t) : savedFile t = savedFile s := by
  cases h with
  | countNodes matcher => exact savedFile_of_reads (drives_countNodes matcher) s
  | takeFirstNode matcher => exact savedFile_of_reads (drives_takeFirst matcher) s
  | getNodes matcher resultCount => exact savedFile_of_reads (drives_getNodes matcher resultCount) s
  | countChildren parentId => exact savedFile_of_reads (drives_countChildren parentId) s
  | getAllChildren request capacity => exact savedFile_of_reads (drives_getAllChildren request capacity) s
  | countSequence matchers => exact savedFile_of_reads (drives_countNodesSequence matchers) s
  | getSequence matchers resultCount => exact savedFile_of_reads (drives_getNodesSequence matchers resultCount) s
  | getNodesByFilter request => exact savedFile_of_reads (drives_getNodesByFilter request) s

/-- Nothing that is asked of an opened file changes a byte of it. -/
theorem readSession_leaves (h : ReadSession bytes doc) : savedFile doc = bytes := by
  induction h with
  | opened pageSize faults hleft =>
      rw [savedFile_documentInit]
      exact pageManagerInit_leaves hleft faults pageSize
  | call _ hcall ih => exact hcall.savedFile_eq.trans ih

theorem leftAlone_savedFile (h : ReachableDocument pageSize doc) : LeftAlone fileSignature (savedFile doc) := by
  obtain ⟨store, hstore, _⟩ := h.tree
  obtain ⟨disk, hcoherent, hsettled, _⟩ := hstore.stores
  rw [savedFile, hcoherent.opened.content]
  exact hsettled.leftAlone

/-- A file is opened, its nodes are counted, and one of them is asked for. -/
def countAndGet (bytes : List UInt8) (faults : Nat → Option IoFault) : Document :=
  let opened := final (documentInit 4096 (documentNew (fileOpen (some bytes) faults)))
  let counted := final (documentCountNodesByCondition (nodeMatcherNew nodeConditionAll) opened)
  final (documentGetNodesByCondition (nodeMatcherNew nodeConditionAll) 1 counted)

/-- The file of a document with a root, of which only the header and one page can be read. -/
theorem readSession_leaves_root :
    ∃ doc s, ReachableDocument 4096 doc ∧
      s = countAndGet (savedFile doc) (fun n => if n < 2 then none else some .seek) ∧
      ReadSession (savedFile doc) s ∧ savedFile s = savedFile doc := by
  obtain ⟨doc, slots, hr, _⟩ := exists_root (nodeValueOfBytes .int32 [1])
    (show sizeofPageHeader + (sizeofItemMetadata + sizeofNode) ≤ 4096 by decide) (by decide)
  have hopened := ReadSession.opened 4096 (fun n => if n < 2 then none else some .seek) (leftAlone_savedFile hr)
  have hcounted := hopened.call (.countNodes _ (nodeMatcherNew nodeConditionAll))
  have hsession := hcounted.call (.getNodes _ (nodeMatcherNew nodeConditionAll) 1)
  exact ⟨doc, _, hr, rfl, hsession, readSession_leaves hsession⟩

end Sessions

end DocumentDb.Server
