import DocumentDb.Documents.Conditions

namespace DocumentDb.Documents

open Storage Program Bytes

variable {pageSize : Nat} {store : List (List Slot)} {doc t : Document} {res : Result Unit}

theorem isInt32_fileSignature : IsInt32 fileSignature := ⟨by decide, by decide⟩

theorem allNodes_fresh : AllNodes [[]] := by
  intro slots hslots slot hslot
  rw [List.mem_singleton] at hslots
  subst hslots
  cases hslot

theorem clean_fresh : Clean (visits [[]]) := by
  simp [Clean, visits, slotVisits, laterVisits]

theorem nodesOf_fresh : nodesOf [[]] = [] := by
  simp [nodesOf, liveItems, pagesVisits, slotVisits]

theorem documentInit_of_stores {file : FileState} {pm : PageManager}
    (hinit : pageManagerInit pageSize fileSignature (pageManagerNew file) = .ok (.ok ()) pm) :
    documentInit pageSize (documentNew file) =
      (setRootNode >>= fun _ => pure (Except.ok () : Result Unit))
        { rootNode := none, pageManager := pm, initDone := true } := by
  have hon : onPageManager (pageManagerInit pageSize fileSignature)
      { documentNew file with initDone := true } =
        .ok (.ok ()) { rootNode := none, pageManager := pm, initDone := true } := run_onPageManager hinit
  rw [documentInit]
  simp only [run_bind, run_modify, andThen_ok, hon]

/-- `set_root_node` starts from a document without a root. -/
theorem setRootNode_withRoot (doc : Document) :
    setRootNode doc = setRootNode { doc with rootNode := some zeroNode } := by
  rw [setRootNode]
  simp only [run_bind, run_modify, andThen_ok]

theorem documentInit_ok {file : FileState} {pm : PageManager}
    (hinit : pageManagerInit pageSize fileSignature (pageManagerNew file) = .ok (.ok ()) pm) {size : Nat}
    (hpm : Stores fileSignature size store pm) (hnodes : AllNodes store)
    (hrun : documentInit pageSize (documentNew file) = .ok res t) :
    res = .ok () ∧ Holds size store t := by
  rw [documentInit_of_stores hinit] at hrun
  obtain ⟨_, s1, hroot, hpure⟩ := bind_eq_ok.mp hrun
  simp only [run_pure] at hpure
  cases hpure
  rw [setRootNode_withRoot] at hroot
  have hholds : Holds size store { rootNode := some zeroNode, pageManager := pm, initDone := true } :=
    ⟨rfl, by simp, hpm, hnodes⟩
  exact ⟨rfl, hholds.setRootNode_ok hroot⟩

theorem documentInit_clean {file : FileState} {pm : PageManager}
    (hinit : pageManagerInit pageSize fileSignature (pageManagerNew file) = .ok (.ok ()) pm) {size : Nat}
    (hpm : Stores fileSignature size store pm) (hnodes : AllNodes store) (hclean : Clean (visits store)) :
    ∃ t, documentInit pageSize (documentNew file) = .ok (.ok ()) t ∧ Holds size store t := by
  have hholds : Holds size store { rootNode := some zeroNode, pageManager := pm, initDone := true } :=
    ⟨rfl, by simp, hpm, hnodes⟩
  obtain ⟨t, hroot, ht⟩ := hholds.setRootNode_clean hclean
  refine ⟨t, ?_, ht⟩
  rw [documentInit_of_stores hinit]
  rw [← setRootNode_withRoot { rootNode := none, pageManager := pm, initDone := true }] at hroot
  simp only [run_bind, hroot, andThen_ok, run_pure]

theorem pageManagerInit_small (hsmall : sizeofFileHeader + toUInt32 pageSize < 2 ^ 32)
    (hmin : sizeofPageHeader ≤ toUInt32 pageSize) :
    ∃ pm, pageManagerInit pageSize fileSignature (pageManagerNew (fileOpen none noFaults)) = .ok (.ok ()) pm ∧
      Stores fileSignature (toUInt32 pageSize) [[]] pm := by
  obtain ⟨pm, hinit, hpm⟩ :=
    (pageManagerInit_new isInt32_fileSignature hmin (toUInt32_lt pageSize)).1 hsmall
  rw [pageManagerInit_toUInt32]
  exact ⟨pm, hinit, (stores_init isInt32_fileSignature (toUInt32_lt pageSize) hinit hpm.below).2⟩

theorem documentInit_new_ok (hsmall : sizeofFileHeader + toUInt32 pageSize < 2 ^ 32)
    (hrun : documentInit pageSize (documentNew (fileOpen none noFaults)) = .ok res t) :
    res = .ok () ∧ Holds (toUInt32 pageSize) [[]] t := by
  by_cases hmin : sizeofPageHeader ≤ toUInt32 pageSize
  · obtain ⟨pm, hinit, hpm⟩ := pageManagerInit_small hsmall hmin
    exact documentInit_ok hinit hpm allNodes_fresh hrun
  · rw [documentInit] at hrun
    obtain ⟨_, s1, hmodify, hrest⟩ := bind_eq_ok.mp hrun
    obtain ⟨r, s2, hon, _⟩ := bind_eq_ok.mp hrest
    simp only [run_modify] at hmodify
    cases hmodify
    obtain ⟨pm, hinit, _⟩ := onPageManager_eq_ok.mp hon
    rw [pageManagerInit_toUInt32] at hinit
    exact absurd (pageManagerInit_ok_le (toUInt32_lt pageSize) hinit) hmin

theorem documentInit_new (hsmall : sizeofFileHeader + toUInt32 pageSize < 2 ^ 32)
    (hmin : sizeofPageHeader ≤ toUInt32 pageSize) :
    ∃ t, documentInit pageSize (documentNew (fileOpen none noFaults)) = .ok (.ok ()) t ∧
      Holds (toUInt32 pageSize) [[]] t := by
  obtain ⟨pm, hinit, hpm⟩ := pageManagerInit_small hsmall hmin
  exact documentInit_clean hinit hpm allNodes_fresh clean_fresh

theorem Holds.reopen_ok (h : Holds pageSize store doc) {pageSize' : Nat}
    (hrun : documentInit pageSize' (documentNew (fileOpen (some (savedFile doc)) noFaults)) = .ok res t) :
    res = .ok () ∧ Holds pageSize store t := by
  obtain ⟨pm, hinit, hpm⟩ := h.stores.reopen pageSize'
  exact documentInit_ok hinit hpm h.nodes hrun

theorem Holds.reopen (h : Holds pageSize store doc) (hclean : Clean (visits store)) (pageSize' : Nat) :
    ∃ t, documentInit pageSize' (documentNew (fileOpen (some (savedFile doc)) noFaults)) =
        .ok (.ok ()) t ∧ Holds pageSize store t := by
  obtain ⟨pm, hinit, hpm⟩ := h.stores.reopen pageSize'
  exact documentInit_clean hinit hpm h.nodes hclean

end DocumentDb.Documents
