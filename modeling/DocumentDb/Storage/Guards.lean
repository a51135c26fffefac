import DocumentDb.Storage.ItemOperations

namespace DocumentDb.Storage

open Bytes Program

section Guards

variable {page : Page} {n : Nat} {payload : ItemPayload}

def freeSpace (page : Page) : Int :=
  (page.pageHeader.freeSpaceEndOffset : Int) - page.pageHeader.freeSpaceStartOffset

def HasFree (page : Page) (n : Nat) : Prop := (n : Int) + sizeofItemMetadata ≤ freeSpace page

def noSpace : Fault := .exit "Can't add item to this page. Not enough space for metadata"

theorem setMetadata_ne_noSpace (self : Page) (itemId : ItemIndex) (metadata : ItemMetadata) :
    setMetadata self itemId metadata ≠ .error noSpace := by
  rw [setMetadata]
  intro h
  split at h
  · cases h
  · split at h <;> cases h

theorem putItemData_ne_noSpace (self : Page) (payload : ItemPayload) (dataOffset : Nat) :
    pagePutItemDataInPage self payload dataOffset ≠ .error noSpace := by
  rw [pagePutItemDataInPage, getItemDataAddr]
  intro h
  split at h <;> cases h

theorem pageAddItemUpdateHeader_ne_noSpace (page : Page) (payload : ItemPayload) (continuesOnPage : Int) :
    pageAddItemUpdateHeader page payload continuesOnPage ≠ .error noSpace := by
  rw [pageAddItemUpdateHeader, pagePutItemMetadataInPage]
  intro h
  simp only [bind, Except.bind] at h
  split at h
  · rename_i e hset
    cases h
    exact setMetadata_ne_noSpace _ _ _ hset
  · split at h
    · rename_i e hput
      cases h
      exact putItemData_ne_noSpace _ _ _ hput
    · cases h

/-- The guard of `page_add_item` is the test of `page_can_fit_payload`. -/
theorem pageAddItem_noSpace_iff (page : Page) (payload : ItemPayload) (continuesOnPage : Int) :
    pageAddItem page payload continuesOnPage = .error noSpace ↔
      pageCanFitPayload page payload.length = false := by
  rw [pageAddItem, pageCanFitPayload, decide_eq_false_iff_not, not_le]
  split
  · exact ⟨fun _ => ‹_›, fun _ => rfl⟩
  · exact ⟨fun h => absurd h (pageAddItemUpdateHeader_ne_noSpace page payload continuesOnPage),
      fun h => absurd h ‹_›⟩

/-- A payload of less than `2 ^ 31` bytes for a page with less free space than that, or a
larger payload that has room. -/
def GuardHolds (page : Page) (n : Nat) : Prop :=
  (n < 2 ^ 31 ∧ freeSpace page < 2 ^ 31) ∨ (2 ^ 31 ≤ n ∧ HasFree page n)

def GuardSound (page : Page) (n : Nat) : Prop := n < 2 ^ 31 ∨ HasFree page n

theorem GuardHolds.sound (h : GuardHolds page n) : GuardSound page n := by
  rcases h with ⟨hn, _⟩ | ⟨_, hfree⟩
  · exact Or.inl hn
  · exact Or.inr hfree

structure Ordered (page : Page) : Prop where
  start_le : page.pageHeader.freeSpaceStartOffset ≤ page.pageHeader.freeSpaceEndOffset
  end_lt : page.pageHeader.freeSpaceEndOffset < 2 ^ 32

theorem Ordered.canFit_iff (h : Ordered page) (h0 : 0 < n) (hn : n < 2 ^ 32) :
    (-2 ^ 31 ≤ toInt32 (pageGetFreeSpaceLeft page) - sizeofItemMetadata ∧
      (pageCanFitPayload page n = true ↔ HasFree page n)) ↔ GuardHolds page n := by
  obtain ⟨hstart, hend⟩ := h
  rw [pageCanFitPayload, decide_eq_true_iff, pageGetPayloadAvailableSpace, pageGetFreeSpaceLeft, GuardHolds,
    HasFree, freeSpace, sizeofItemMetadata]
  rw [toUInt32_sub hstart hend]
  unfold toInt32
  omega

theorem Ordered.hasFree (h : Ordered page) (h0 : 0 < n) (hn : n < 2 ^ 32) (hsound : GuardSound page n)
    (hfit : pageCanFitPayload page n = true) : HasFree page n := by
  obtain ⟨hstart, hend⟩ := h
  rcases hsound with hlt | hfree
  · rw [pageCanFitPayload, decide_eq_true_iff, pageGetPayloadAvailableSpace, pageGetFreeSpaceLeft,
      toUInt32_sub hstart hend, sizeofItemMetadata] at hfit
    rw [HasFree, freeSpace, sizeofItemMetadata]
    unfold toInt32 at hfit
    omega
  · exact hfree

theorem getElem?_patch_outside {bs new : List UInt8} {off i : Nat} (h : i < off ∨ off + new.length ≤ i)
    (hlen : off ≤ bs.length) : (patch bs off new)[i]? = bs[i]? := by
  rw [getElem?_patch]
  rcases h with hlt | hge
  · rw [if_pos hlt, if_pos (by omega)]
  · rw [if_neg (by omega), if_neg (by omega)]

end Guards

section Runs

variable {pageSize n : Nat} {pageId : Int} {page : Page} {payload : ItemPayload} {slots : List Slot}

/-- The pages that `page_new`, `page_add_item` and `page_delete_item` make, as long as the
guard is sound for every payload that is added. -/
inductive PageRun (pageSize : Nat) (pageId : Int) : Page → Prop
  | new : PageRun pageSize pageId (pageNew pageId pageSize)
  | add {s payload res} : PageRun pageSize pageId s → 0 < payload.length → payload.length < 2 ^ 32 →
      GuardSound s payload.length → pageAddItem s payload nullPageIndex = .ok res → PageRun pageSize pageId res.1
  | delete {s item res} : PageRun pageSize pageId s → pageDeleteItem s item = .ok res → PageRun pageSize pageId res.1

theorem HasSlots.ordered (h : HasSlots pageSize pageId slots page) (hp : pageSize < 2 ^ 32) : Ordered page := by
  have hroom := h.room
  have hstart := h.freeSpaceStart
  have hend := h.freeSpaceEnd
  rw [usedSpace] at hroom
  constructor <;> omega

theorem HasSlots.fits_iff (h : HasSlots pageSize pageId slots page) :
    Fits pageSize slots n ↔ HasFree page n := by
  have hroom := h.room
  have hstart := h.freeSpaceStart
  have hend := h.freeSpaceEnd
  rw [usedSpace] at hroom
  rw [Fits, usedSpace, HasFree, freeSpace]
  omega

theorem HasSlots.pageAddItem_cases (h : HasSlots pageSize pageId slots page) (hp : pageSize < 2 ^ 32)
    (h0 : 0 < payload.length) (hn : payload.length < 2 ^ 32) (hsound : GuardSound page payload.length) :
    pageAddItem page payload nullPageIndex = .error noSpace ∨
    (HasFree page payload.length ∧ ∃ res, pageAddItem page payload nullPageIndex =
      .ok (Storage.addedPage pageSize pageId slots payload page, res)) := by
  cases hfit : pageCanFitPayload page payload.length with
  | false => exact Or.inl ((pageAddItem_noSpace_iff page payload nullPageIndex).mpr hfit)
  | true =>
      have hfree := (h.ordered hp).hasFree h0 hn hsound hfit
      rw [pageCanFitPayload, decide_eq_true_iff] at hfit
      have hpass : pageAddItem page payload nullPageIndex =
          pageAddItemUpdateHeader page payload nullPageIndex := by
        rw [pageAddItem, if_neg (by omega)]
      rw [hpass]
      exact Or.inr ⟨hfree, _, h.addItem_eq hp (h.fits_iff.mpr hfree)⟩

theorem PageRun.hasSlots (hid : IsInt32 pageId) (hheader : sizeofPageHeader ≤ pageSize) (hp : pageSize < 2 ^ 32)
    (h : PageRun pageSize pageId page) : ∃ slots, HasSlots pageSize pageId slots page := by
  induction h with
  | new => exact ⟨[], pageNew_hasSlots hheader⟩
  | @add s payload res _ h0 hn hsound hadd ih =>
      obtain ⟨slots, hslots⟩ := ih
      rcases hslots.pageAddItem_cases hp h0 hn hsound with hrefused | ⟨hfree, r, hok⟩
      · rw [hadd] at hrefused
        cases hrefused
      · rw [hadd] at hok
        cases hok
        exact ⟨_, hslots.addedPage hid (hslots.fits_iff.mpr hfree)⟩
  | @delete s item res _ hdelete ih =>
      obtain ⟨slots, hslots⟩ := ih
      obtain ⟨hfresh, hlow, hnext, hcount⟩ := pageDeleteItem_ok hdelete
      rw [hslots.nextItemId] at hnext
      obtain ⟨i, hi⟩ := Int.eq_ofNat_of_zero_le hlow
      have hlt : i < slots.length := by omega
      have hslot := List.getElem?_eq_getElem hlt
      rw [hslots.pageDeleteItem_eq hp hid hslot hcount hi hfresh] at hdelete
      cases hdelete
      exact ⟨_, hslots.deletedPage hslot⟩

/-- The page has taken an item: its offsets are in order, and no byte has changed outside
of what was free. -/
structure AddsWithin (page new : Page) : Prop where
  ordered : new.pageHeader.freeSpaceStartOffset ≤ new.pageHeader.freeSpaceEndOffset
  outside : ∀ i : Nat, i + sizeofPageHeader < page.pageHeader.freeSpaceStartOffset ∨
    page.pageHeader.freeSpaceEndOffset ≤ i + sizeofPageHeader → new.pagePayload[i]? = page.pagePayload[i]?

theorem HasSlots.addsWithin (h : HasSlots pageSize pageId slots page) (hfit : Fits pageSize slots payload.length) :
    AddsWithin page (Storage.addedPage pageSize pageId slots payload page) := by
  have hstart := h.freeSpaceStart
  have hend := h.freeSpaceEnd
  have hl := h.payload
  have hoffset : dataOffset pageSize (slots ++ [⟨payload, false⟩]) slots.length =
      page.pageHeader.freeSpaceEndOffset - payload.length := by
    rw [dataOffset_last]
    simp only
    omega
  rw [Fits, usedSpace] at hfit
  constructor
  · simp only [Storage.addedPage, hoffset, Nat.mul_add, Nat.mul_one]
    omega
  · intro i hi
    simp only [Storage.addedPage, addedPayload, hoffset]
    have hmeta := length_encodeItemMetadata (addedMetadata pageSize pageId slots payload)
    rw [getElem?_patch_outside (by omega) (by rw [length_patch_of_le (by omega)]; omega),
      getElem?_patch_outside (by omega) (by omega)]

end Runs

section Puts

variable {self t : PageManager} {a b : PageAddr} {page : Page} {payload : ItemPayload} {pages : List AllocatedPage}
  {α : Type}

def CacheIs (pages : List AllocatedPage) (self : PageManager) : Prop := self.allocatedPages = pages

theorem cacheIs_onFileManager (x : EStateM Fault FileManager α) : Keeps (CacheIs pages) (onFileManager x) :=
  Keeps.zoom (P := fun _ => True) (fun _ _ => trivial) (fun _ _ h _ => h) fun _ _ => trivial

theorem cacheIs_loadPage (a : PageAddr) : Keeps (CacheIs pages) (loadPage a) := by
  apply Keeps.get
  intro s
  split
  · exact Keeps.pure _
  · exact Keeps.throw _

theorem cacheIs_abortIfFail (res : Result α) (message : String) :
    Keeps (CacheIs pages) (abortIfFail res message : PageManagerM α) := by
  cases res with
  | ok a => exact Keeps.pure a
  | error e => exact Keeps.throw _

theorem cacheIs_writePageOnDisk (a : PageAddr) : Keeps (CacheIs pages) (writePageOnDisk a) :=
  Keeps.bind (cacheIs_loadPage a) fun _ => Keeps.get fun _ =>
    Keeps.bind (cacheIs_onFileManager _) fun _ => Keeps.pure _

theorem cacheIs_setCurrentFreePage (a : PageAddr) : Keeps (CacheIs pages) (pageManagerSetCurrentFreePage a) :=
  Keeps.bind (cacheIs_loadPage a) fun _ => Keeps.bind (Keeps.modify fun _ h => h) fun _ => cacheIs_onFileManager _

/-- What `page_manager_page_new` does once the page has been allocated. -/
def writeNewPage (page : PageAddr) : PageManagerM (Result Unit × PageAddr) := do
  let oldPagesCount := pageManagerGetPagesCount (← get)
  match ← pageManagerSetPagesCount (toUInt32 ((oldPagesCount : Int) + 1)) with
  | .error _ => return (.error "Failed increment pages count", page)
  | .ok () =>
    let res ← pageManagerWritePageOnDisk page
    return (returnIfFail res "Failed to write new page to file", page)

theorem cacheIs_setPagesCount (pagesCount : Nat) : Keeps (CacheIs pages) (pageManagerSetPagesCount pagesCount) :=
  Keeps.bind (Keeps.modify fun _ h => h) fun _ => cacheIs_onFileManager _

theorem cacheIs_writeNewPage (a : PageAddr) : Keeps (CacheIs pages) (writeNewPage a) := by
  apply Keeps.get
  intro s
  refine Keeps.bind (cacheIs_setPagesCount _) fun res => ?_
  cases res with
  | error e => exact Keeps.pure _
  | ok u =>
      exact Keeps.bind (Keeps.bind (cacheIs_loadPage a) fun _ => Keeps.get fun _ =>
        Keeps.bind (cacheIs_onFileManager _) fun _ => Keeps.pure _) fun _ => Keeps.pure _

theorem writeNewPage_ok {res : Result Unit × PageAddr} (h : writeNewPage a self = .ok res t) : res.2 = a := by
  obtain ⟨s, _, _, h⟩ := bind_eq_ok.mp h
  obtain ⟨count, _, _, h⟩ := bind_eq_ok.mp h
  cases count with
  | error e =>
      cases h
      rfl
  | ok u =>
      obtain ⟨_, _, _, h⟩ := bind_eq_ok.mp h
      cases h
      rfl

theorem pageManagerPageNew_eq : pageManagerPageNew = (do
    let page ← pageManagerAllocatePage (toInt32 (pageManagerGetLastPageId (← get) + 1))
    writeNewPage page) := (rfl)

theorem allocatePage_cases (id : Int) (self : PageManager) :
    (pageManagerGetPageSize self < sizeofPageHeader ∧ ∃ e, pageManagerAllocatePage id self = .error e self) ∨
    ∃ t, pageManagerAllocatePage id self = .ok self.nextAddr t ∧
      CacheIs (⟨self.nextAddr, pageNew id (pageManagerGetPageSize self)⟩ :: self.allocatedPages) t := by
  rw [pageManagerAllocatePage]
  simp only [run_bind, run_get, andThen_ok, run_ite]
  split
  · exact Or.inl ⟨‹_›, _, rfl⟩
  · exact Or.inr ⟨_, rfl, rfl⟩

theorem getNewFreePage_eq {s : PageManager}
    (halloc : pageManagerAllocatePage (toInt32 (pageManagerGetLastPageId self + 1)) self = .ok a s) :
    pageManagerGetNewFreePage self = (do
      let (res, freePage) ← writeNewPage a
      abortIfFail res "Failed to allocate one more page for large payload"
      let res ← pageManagerSetCurrentFreePage freePage
      return res.map fun _ => freePage) s := by
  rw [pageManagerGetNewFreePage, pageManagerPageNew_eq, run_bind, run_bind, run_get, andThen_ok, run_bind,
    halloc, andThen_ok, ← run_bind]

theorem getNewFreePage_cases (self : PageManager) :
    CacheIs self.allocatedPages (final (pageManagerGetNewFreePage self)) ∧
      (∀ res t, pageManagerGetNewFreePage self ≠ .ok res t) ∨
    ∃ id, CacheIs (⟨self.nextAddr, pageNew id (pageManagerGetPageSize self)⟩ :: self.allocatedPages)
        (final (pageManagerGetNewFreePage self)) ∧
      ∀ b t, pageManagerGetNewFreePage self = .ok (.ok b) t → b = self.nextAddr := by
  let id := toInt32 (pageManagerGetLastPageId self + 1)
  rcases allocatePage_cases id self with ⟨_, e, halloc⟩ | ⟨s, halloc, hs⟩
  · have hrun : pageManagerGetNewFreePage self = .error e self := by
      rw [pageManagerGetNewFreePage, pageManagerPageNew_eq]
      simp only [run_bind, run_get, andThen_ok, andThen_error, halloc, id]
    rw [hrun]
    exact Or.inl ⟨rfl, fun _ _ h => by cases h⟩
  · have hrun := getNewFreePage_eq halloc
    refine Or.inr ⟨id, ?_, ?_⟩
    · rw [hrun]
      exact Keeps.bind (cacheIs_writeNewPage _) (fun _ => Keeps.bind (cacheIs_abortIfFail _ _) fun _ =>
        Keeps.bind (cacheIs_setCurrentFreePage _) fun _ => Keeps.pure _) s hs
    · intro b t h
      rw [hrun] at h
      obtain ⟨res, _, hwrite, h⟩ := bind_eq_ok.mp h
      obtain ⟨_, _, _, h⟩ := bind_eq_ok.mp h
      obtain ⟨set, _, _, h⟩ := bind_eq_ok.mp h
      cases set with
      | error e => cases h
      | ok u =>
          cases h
          exact writeNewPage_ok hwrite

theorem findPage_cons (h : CacheIs (⟨a, page⟩ :: pages) t) : findPage t a = some page := by
  rw [findPage]
  rw [show t.allocatedPages = _ from h]
  simp

theorem putWhole_cases {s : PageManager} (hb : findPage s b = some page) (payload : ItemPayload) :
    CacheIs s.allocatedPages (final (putWhole b payload s)) ∨
    ∃ new res, pageAddItem page payload nullPageIndex = .ok (new, res) ∧
      CacheIs (stored s b new).allocatedPages (final (putWhole b payload s)) := by
  rw [Storage.putWhole, pageManagerAddPartOfItem]
  simp only [run_bind, run_loadPage hb, andThen_ok]
  cases hadd : pageAddItem page payload nullPageIndex with
  | error e => exact Or.inl rfl
  | ok res =>
      obtain ⟨new, res⟩ := res
      refine Or.inr ⟨new, res, rfl, ?_⟩
      simp only [run_lift_ok, andThen_ok]
      refine Keeps.andThen ?_ fun _ => cacheIs_abortIfFail _ _
      rw [run_bind, run_storePage, andThen_ok]
      split
      · rfl
      · exact Keeps.bind (cacheIs_writePageOnDisk b) (fun _ => Keeps.pure _) (stored s b new) rfl

theorem putTarget_cases (ha : findPage self a = some page) (payload : ItemPayload) :
    CacheIs self.allocatedPages (final (putTarget a payload self)) ∧
      (∀ b t, putTarget a payload self = .ok b t → b = a ∧ t = self) ∨
    ∃ id, CacheIs (⟨self.nextAddr, pageNew id (pageManagerGetPageSize self)⟩ :: self.allocatedPages)
        (final (putTarget a payload self)) ∧
      ∀ b t, putTarget a payload self = .ok b t → b = self.nextAddr := by
  rw [putTarget]
  simp only [run_bind, run_loadPage ha, andThen_ok, run_ite]
  split
  · rcases getNewFreePage_cases self with ⟨hcache, hnever⟩ | ⟨id, hcache, hfresh⟩
    · refine Or.inl ⟨Keeps.andThen hcache fun _ => cacheIs_abortIfFail _ _, ?_⟩
      intro b t h
      rw [← run_bind] at h
      obtain ⟨res, s, hnew, _⟩ := bind_eq_ok.mp h
      exact absurd hnew (hnever res s)
    · refine Or.inr ⟨id, Keeps.andThen hcache fun _ => cacheIs_abortIfFail _ _, ?_⟩
      intro b t h
      rw [← run_bind] at h
      obtain ⟨res, s, hnew, habort⟩ := bind_eq_ok.mp h
      obtain ⟨rfl, _⟩ := abortIfFail_eq_ok.mp habort
      exact hfresh b s hnew
  · refine Or.inl ⟨rfl, ?_⟩
    intro b t h
    cases h
    exact ⟨rfl, rfl⟩

/-- Every page in the cache is an old or a new one, and it may have taken one item. -/
def PutsWithin (self t : PageManager) : Prop :=
  ∀ q ∈ t.allocatedPages, ∃ old,
    (⟨q.addr, old⟩ ∈ self.allocatedPages ∨ ∃ id, old = pageNew id (pageManagerGetPageSize self)) ∧
      (q.rawPage = old ∨ AddsWithin old q.rawPage)

theorem PutsWithin.of_cacheIs (h : CacheIs self.allocatedPages t) : PutsWithin self t := by
  intro q hq
  rw [h] at hq
  exact ⟨q.rawPage, Or.inl hq, Or.inl rfl⟩

variable {pageSize : Nat} {pageId : Int} {slots : List Slot}

theorem GuardSound.fresh (h : HasSlots pageSize pageId slots page) (hheader : sizeofPageHeader ≤ pageSize)
    (hsound : GuardSound page payload.length) (id : Int) : GuardSound (pageNew id pageSize) payload.length := by
  rcases hsound with hlt | hfree
  · exact Or.inl hlt
  · refine Or.inr ((pageNew_hasSlots hheader).fits_iff.mp ?_)
    have hfits := h.fits_iff.mpr hfree
    rw [Fits, usedSpace] at hfits ⊢
    simp only [List.length_nil, Nat.mul_zero, dataSize_nil]
    omega

theorem stored_putsWithin {s : PageManager} {new : Page} (hold : PutsWithin self s)
    (hb : ∃ old, (⟨b, old⟩ ∈ self.allocatedPages ∨ ∃ id, old = pageNew id (pageManagerGetPageSize self)) ∧
      AddsWithin old new) (h : CacheIs (stored s b new).allocatedPages t) : PutsWithin self t := by
  intro q hq
  rw [h] at hq
  rcases mem_stored hq with rfl | ⟨_, hq⟩
  · obtain ⟨old, hmem, hadds⟩ := hb
    exact ⟨old, hmem, Or.inr hadds⟩
  · exact hold q hq

theorem HasSlots.putWhole_within {s : PageManager} (h : HasSlots pageSize pageId slots page) (hp : pageSize < 2 ^ 32)
    (h0 : 0 < payload.length) (hn : payload.length < 2 ^ 32) (hsound : GuardSound page payload.length)
    (hb : findPage s b = some page) (hs : PutsWithin self s)
    (hold : ⟨b, page⟩ ∈ self.allocatedPages ∨ ∃ id, page = pageNew id (pageManagerGetPageSize self)) :
    PutsWithin self (final (putWhole b payload s)) := by
  rcases putWhole_cases hb payload with hsame | ⟨new, res, hadd, hstored⟩
  · intro q hq
    rw [hsame] at hq
    exact hs q hq
  · rcases h.pageAddItem_cases hp h0 hn hsound with hrefused | ⟨hfree, r, hok⟩
    · rw [hadd] at hrefused
      cases hrefused
    · rw [hadd] at hok
      cases hok
      exact stored_putsWithin hs ⟨page, hold, h.addsWithin (h.fits_iff.mpr hfree)⟩ hstored

theorem HasSlots.putItem_within (h : HasSlots pageSize pageId slots page) (hheader : sizeofPageHeader ≤ pageSize)
    (hp : pageSize < 2 ^ 32) (h0 : 0 < payload.length) (hn : payload.length < 2 ^ 32)
    (hsound : GuardSound page payload.length) (hsize : pageManagerGetPageSize self = pageSize)
    (ha : findPage self a = some page) : PutsWithin self (final (pageManagerPutItem a payload self)) := by
  rw [pageManagerPutItem_eq h0 hn, run_bind]
  have hself : PutsWithin self self := PutsWithin.of_cacheIs rfl
  rcases putTarget_cases ha payload with ⟨hcache, hsame⟩ | ⟨id, hcache, hfresh⟩
  · cases hrun : putTarget a payload self with
    | error e t =>
        rw [hrun] at hcache
        exact PutsWithin.of_cacheIs hcache
    | ok b t =>
        obtain ⟨rfl, rfl⟩ := hsame b t hrun
        exact h.putWhole_within hp h0 hn hsound ha hself (Or.inl (findPage_mem ha))
  · have hgrown : PutsWithin self (final (putTarget a payload self)) := by
      intro q hq
      rw [hcache] at hq
      rcases List.mem_cons.mp hq with rfl | hq
      · exact ⟨_, Or.inr ⟨id, rfl⟩, Or.inl rfl⟩
      · exact ⟨_, Or.inl hq, Or.inl rfl⟩
    cases hrun : putTarget a payload self with
    | error e t =>
        rw [hrun] at hgrown
        exact hgrown
    | ok b t =>
        obtain rfl := hfresh b t hrun
        rw [hrun] at hcache hgrown
        rw [hsize] at hcache
        exact (pageNew_hasSlots hheader).putWhole_within hp h0 hn (hsound.fresh h hheader id)
          (findPage_cons hcache) hgrown (Or.inr ⟨id, by rw [hsize]⟩)

end Puts

section Bounds

variable {self t : PageManager} {a b : PageAddr} {page : Page} {payload : ItemPayload}

def IsDefined (e : Fault) : Prop := ∀ reason, e ≠ .undefined reason

theorem isDefined_exit (message : String) : IsDefined (.exit message) := fun _ h => by cases h

theorem isDefined_assertion (condition : String) : IsDefined (.assertion condition) := fun _ h => by cases h

theorem isDefined_fileWrite (data : List UInt8) (offset : Nat) (fs : FileState) :
    FailsWith IsDefined (fileWrite data offset) fs := by
  apply FailsWith.get
  refine FailsWith.ite (fun _ => ?_) fun _ => ?_
  · exact FailsWith.bind (FailsWith.throw (isDefined_assertion _)) fun _ _ h => by cases h
  · refine FailsWith.bind (FailsWith.get (fun e t h => by cases h)) fun fault s _ => ?_
    refine FailsWith.ite (fun _ => FailsWith.pure _) fun _ => ?_
    refine FailsWith.ite (fun _ => FailsWith.pure _) fun _ => ?_
    refine FailsWith.bind (FailsWith.modify _) fun _ _ _ => ?_
    rcases fault with _ | _ | _ | _ <;> exact FailsWith.pure _

theorem isDefined_writeHeader (self : PageManager) :
    FailsWith IsDefined (onFileManager fileManagerWriteHeader) self :=
  FailsWith.zoom (FailsWith.bind (FailsWith.modify _) fun _ _ _ =>
    FailsWith.get (FailsWith.zoom (isDefined_fileWrite _ _ _)))

theorem isDefined_abortIfFail {α : Type} (res : Result α) (message : String) (self : PageManager) :
    FailsWith IsDefined (abortIfFail res message) self := by
  cases res with
  | ok a => exact FailsWith.pure a
  | error e => exact FailsWith.throw (isDefined_exit _)

theorem isDefined_writePageOnDisk (ha : findPage self a = some page) :
    FailsWith IsDefined (writePageOnDisk a) self := by
  refine FailsWith.bind (FailsWith.of_ok (run_loadPage ha)) fun _ _ h => ?_
  rw [run_loadPage ha] at h
  cases h
  exact FailsWith.get (FailsWith.bind (FailsWith.zoom (FailsWith.zoom (isDefined_fileWrite _ _ _))) fun _ _ _ =>
    FailsWith.pure _)

theorem CacheIs.findPage_eq (h : CacheIs self.allocatedPages t) (a : PageAddr) : findPage t a = findPage self a := by
  rw [findPage, findPage]
  rw [show t.allocatedPages = _ from h]

theorem isDefined_writeNewPage (ha : findPage self a = some page) : FailsWith IsDefined (writeNewPage a) self := by
  apply FailsWith.get
  refine FailsWith.bind (FailsWith.bind (FailsWith.modify _) fun _ _ _ => isDefined_writeHeader _) fun res s hset => ?_
  have hcache : CacheIs self.allocatedPages s := by
    have h := cacheIs_setPagesCount (toUInt32 ((pageManagerGetPagesCount self : Int) + 1)) self
      (show CacheIs self.allocatedPages self from rfl)
    rw [hset] at h
    exact h
  cases res with
  | error e => exact FailsWith.pure _
  | ok u =>
      have hs := (hcache.findPage_eq a).trans ha
      refine FailsWith.bind (FailsWith.bind (FailsWith.of_ok (run_loadPage hs)) fun _ _ h => ?_) fun _ _ _ =>
        FailsWith.pure _
      rw [run_loadPage hs] at h
      cases h
      exact FailsWith.get (FailsWith.bind (FailsWith.zoom (FailsWith.zoom (isDefined_fileWrite _ _ _))) fun _ _ _ =>
        FailsWith.pure _)

theorem isDefined_setCurrentFreePage (ha : findPage self a = some page) :
    FailsWith IsDefined (pageManagerSetCurrentFreePage a) self := by
  refine FailsWith.bind (FailsWith.of_ok (run_loadPage ha)) fun _ _ _ => ?_
  exact FailsWith.bind (FailsWith.modify _) fun _ _ _ => isDefined_writeHeader _

theorem isDefined_getNewFreePage (hheader : sizeofPageHeader ≤ pageManagerGetPageSize self) :
    FailsWith IsDefined pageManagerGetNewFreePage self := by
  rcases allocatePage_cases (toInt32 (pageManagerGetLastPageId self + 1)) self with ⟨hlt, _⟩ | ⟨s, halloc, hcons⟩
  · omega
  have hs : findPage s self.nextAddr = some _ := findPage_cons hcons
  intro e t h
  rw [getNewFreePage_eq halloc] at h
  refine FailsWith.bind (isDefined_writeNewPage hs) ?_ e t h
  intro res u hwrite
  have hcache : CacheIs s.allocatedPages u := by
    have h := cacheIs_writeNewPage self.nextAddr s (show CacheIs s.allocatedPages s from rfl)
    rw [hwrite] at h
    exact h
  obtain ⟨res, freePage⟩ := res
  obtain rfl : freePage = self.nextAddr := writeNewPage_ok hwrite
  refine FailsWith.bind (isDefined_abortIfFail _ _ _) fun _ v habort => ?_
  obtain ⟨_, rfl⟩ := abortIfFail_eq_ok.mp habort
  exact FailsWith.bind (isDefined_setCurrentFreePage ((hcache.findPage_eq _).trans hs)) fun _ _ _ =>
    FailsWith.pure _

theorem isDefined_putWhole {pageSize : Nat} {pageId : Int} {slots : List Slot}
    (h : HasSlots pageSize pageId slots page) (hp : pageSize < 2 ^ 32) (h0 : 0 < payload.length)
    (hn : payload.length < 2 ^ 32) (hsound : GuardSound page payload.length) (ha : findPage self a = some page) :
    FailsWith IsDefined (putWhole a payload) self := by
  refine FailsWith.bind (FailsWith.bind (FailsWith.of_ok (run_loadPage ha)) fun _ _ hload => ?_) fun _ _ _ =>
    isDefined_abortIfFail _ _ _
  rw [run_loadPage ha] at hload
  cases hload
  refine FailsWith.bind (FailsWith.lift fun e he => ?_) fun res s hlift => ?_
  · rcases h.pageAddItem_cases hp h0 hn hsound with hrefused | ⟨_, r, hok⟩
    · rw [he] at hrefused
      cases hrefused
      exact isDefined_exit _
    · rw [he] at hok
      cases hok
  · obtain ⟨_, rfl⟩ := lift_eq_ok.mp hlift
    obtain ⟨new, res⟩ := res
    refine FailsWith.bind (FailsWith.modify _) fun _ s hstore => ?_
    rw [run_storePage] at hstore
    cases hstore
    refine FailsWith.ite (fun _ => ?_) fun _ => ?_
    · exact FailsWith.bind (FailsWith.throw (isDefined_assertion _)) fun _ _ h => by cases h
    · exact FailsWith.bind (isDefined_writePageOnDisk (findPage_stored ha new)) fun _ _ _ => FailsWith.pure _

/-- `page_manager_put_item` does not write behind a page. -/
theorem HasSlots.isDefined_putItem {pageSize : Nat} {pageId : Int} {slots : List Slot}
    (h : HasSlots pageSize pageId slots page) (hheader : sizeofPageHeader ≤ pageSize) (hp : pageSize < 2 ^ 32)
    (h0 : 0 < payload.length) (hn : payload.length < 2 ^ 32) (hsound : GuardSound page payload.length)
    (hsize : pageManagerGetPageSize self = pageSize) (ha : findPage self a = some page) :
    FailsWith IsDefined (pageManagerPutItem a payload) self := by
  rw [pageManagerPutItem_eq h0 hn]
  refine FailsWith.bind ?_ fun b t htarget => ?_
  · refine FailsWith.bind (FailsWith.of_ok (run_loadPage ha)) fun _ _ hload => ?_
    rw [run_loadPage ha] at hload
    cases hload
    refine FailsWith.ite (fun _ => ?_) fun _ => FailsWith.pure _
    exact FailsWith.bind (isDefined_getNewFreePage (by omega)) fun _ _ _ => isDefined_abortIfFail _ _ _
  · rcases putTarget_cases ha payload with ⟨_, hsame⟩ | ⟨id, hcache, hfresh⟩
    · obtain ⟨rfl, rfl⟩ := hsame b t htarget
      exact isDefined_putWhole h hp h0 hn hsound ha
    · obtain rfl := hfresh b t htarget
      rw [htarget, hsize] at hcache
      exact isDefined_putWhole (pageNew_hasSlots hheader) hp h0 hn (hsound.fresh h hheader id)
        (findPage_cons hcache)

end Bounds

section Guarded

variable {pageSize n : Nat} {pageId : Int} {page : Page}

/-- What the guards promise for payloads of `n` bytes: they accept a payload exactly when
there is room for it, without leaving the range of their type, and what they let through is
written to the free range of a page. -/
structure Guarded (pageSize : Nat) (page : Page) (n : Nat) : Prop where
  inRange : -2 ^ 31 ≤ toInt32 (pageGetFreeSpaceLeft page) - sizeofItemMetadata
  canFit : pageCanFitPayload page n = true ↔ HasFree page n
  addGuard : ∀ payload : ItemPayload, payload.length = n →
    (pageAddItem page payload nullPageIndex ≠ .error noSpace ↔ HasFree page n)
  add : ∀ payload : ItemPayload, payload.length = n → pageAddItem page payload nullPageIndex ≠ .error noSpace →
    ∃ new res, pageAddItem page payload nullPageIndex = .ok (new, res) ∧ AddsWithin page new
  put : ∀ (self : PageManager) (a : PageAddr) (payload : ItemPayload), payload.length = n →
    pageManagerGetPageSize self = pageSize → findPage self a = some page →
    PutsWithin self (final (pageManagerPutItem a payload self)) ∧ FailsWith IsDefined (pageManagerPutItem a payload) self

/-- On a page that runs have made the guards are exact for the payloads of less than
`2 ^ 31` bytes while the page has less free space than that, and for larger payloads that
have room. -/
theorem pageRun_guarded_iff (hid : IsInt32 pageId) (hheader : sizeofPageHeader ≤ pageSize) (hp : pageSize < 2 ^ 32)
    (hrun : PageRun pageSize pageId page) (h0 : 0 < n) (hn : n < 2 ^ 32) :
    Guarded pageSize page n ↔ GuardHolds page n := by
  obtain ⟨slots, hslots⟩ := hrun.hasSlots hid hheader hp
  have hguard := (hslots.ordered hp).canFit_iff h0 hn
  constructor
  · intro h
    exact hguard.mp ⟨h.inRange, h.canFit⟩
  · intro h
    obtain ⟨hrange, hfit⟩ := hguard.mpr h
    refine ⟨hrange, hfit, ?_, ?_, ?_⟩
    · rintro payload rfl
      rw [Ne, pageAddItem_noSpace_iff, Bool.not_eq_false, hfit]
    · rintro payload rfl hne
      rcases hslots.pageAddItem_cases hp h0 hn h.sound with hrefused | ⟨hfree, res, hok⟩
      · exact absurd hrefused hne
      · exact ⟨_, res, hok, hslots.addsWithin (hslots.fits_iff.mpr hfree)⟩
    · rintro self a payload rfl hsize ha
      exact ⟨hslots.putItem_within hheader hp h0 hn h.sound hsize ha,
        hslots.isDefined_putItem hheader hp h0 hn h.sound hsize ha⟩

/-- Two payloads are added to a new page, and the first is deleted. -/
def busyPages : Except Fault (Page × Page × Page) := do
  let (first, _) ← pageAddItem (pageNew 3 128) [1] nullPageIndex
  let (second, _) ← pageAddItem first [2, 3] nullPageIndex
  let (last, _) ← pageDeleteItem second (createItem [1] ⟨3, 0⟩)
  return (first, second, last)

theorem busyPages_eq_ok {first second last : Page} (h : busyPages = .ok (first, second, last)) :
    ∃ added added' deleted, pageAddItem (pageNew 3 128) [1] nullPageIndex = .ok (first, added) ∧
      pageAddItem first [2, 3] nullPageIndex = .ok (second, added') ∧
      pageDeleteItem second (createItem [1] ⟨3, 0⟩) = .ok (last, deleted) := by
  obtain ⟨⟨first', added⟩, hfirst, h⟩ := partial_bind_eq_ok.mp h
  obtain ⟨⟨second', added'⟩, hsecond, h⟩ := partial_bind_eq_ok.mp h
  obtain ⟨⟨last', deleted⟩, hlast, h⟩ := partial_bind_eq_ok.mp h
  cases h
  exact ⟨added, added', deleted, hfirst, hsecond, hlast⟩

/-- Four bytes for the page that is left. -/
theorem pageRun_guarded_iff_128 : ∃ page, PageRun 128 3 page ∧ page.pageHeader.itemsCount = 1 ∧ Guarded 128 page 4 := by
  have hfacts : (busyPages.map fun (_, _, last) => (last.pageHeader.itemsCount, freeSpace last)) = .ok (1, 55) := by
    decide +kernel
  obtain ⟨⟨first, second, last⟩, hpages, hfacts⟩ := partial_map_eq_ok hfacts
  simp only [Prod.mk.injEq] at hfacts
  obtain ⟨hcount, hfree⟩ := hfacts
  obtain ⟨_, _, _, hfirst, hsecond, hlast⟩ := busyPages_eq_ok hpages
  have hone := PageRun.new.add (by decide) (by decide) (Or.inl (by decide)) hfirst
  have hrun := (hone.add (by decide) (by decide) (Or.inl (by decide)) hsecond).delete hlast
  refine ⟨last, hrun, hcount, ?_⟩
  apply (pageRun_guarded_iff ⟨by decide, by decide⟩ (by decide) (by decide) hrun (by decide) (by decide)).mpr
  exact Or.inl ⟨by decide, by rw [hfree]; decide⟩

/-- A payload of `2 ^ 31` bytes is let through to a page of 64 bytes. -/
theorem pageCanFitPayload_large : PageRun 64 0 (pageNew 0 64) ∧
    pageCanFitPayload (pageNew 0 64) (2 ^ 31) = true ∧ ¬HasFree (pageNew 0 64) (2 ^ 31) := by
  refine ⟨.new, ?_, ?_⟩
  · rw [pageCanFitPayload, decide_eq_true_iff, pageGetPayloadAvailableSpace]
    have hneg : toInt32 ((2 ^ 31 : Nat) : Int) < 0 := by
      unfold toInt32
      norm_num
    exact hneg.le.trans (le_max_right _ _)
  · rw [HasFree, freeSpace, sizeofItemMetadata, pageNew, sizeofPageHeader]
    norm_num

end Guarded

end DocumentDb.Storage
