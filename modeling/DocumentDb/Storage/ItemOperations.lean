import DocumentDb.Storage.Coherence
import DocumentDb.Storage.ItemManagement

namespace DocumentDb.Storage

open Bytes Program

section Adding

variable {self t : PageManager} {disk : Disk} {a b : PageAddr} {k : Nat} {p : StoredPage}
  {payload : ItemPayload}

def StoredPage.add (pageSize k : Nat) (p : StoredPage) (payload : ItemPayload) : StoredPage :=
  ⟨addedPage pageSize k p.slots payload p.page, p.slots ++ [⟨payload, false⟩]⟩

theorem StoredPage.add_hasSlots (hk : disk.pages[k]? = some p)
    (hfit : Fits disk.pageSize p.slots payload.length) :
    HasSlots disk.pageSize k (p.add disk.pageSize k payload).slots
      (p.add disk.pageSize k payload).page :=
  (disk.layout k p hk).addedPage (Disk.isInt32_pageId hk) hfit

def addResult (pageSize k : Nat) (p : StoredPage) (payload : ItemPayload) : ItemAddResult where
  metadataOffsetInPage := sizeofPageHeader + sizeofItemMetadata * p.slots.length
  metadata := addedMetadata pageSize k p.slots payload
  writeStatus := ⟨true, payload.length⟩

theorem addResult_itemId (pageSize k : Nat) (p : StoredPage) (payload : ItemPayload) :
    (addResult pageSize k p payload).metadata.itemId = ⟨k, p.slots.length⟩ := rfl

/-- `page_manager_add_part_of_item` on a page with enough room. -/
theorem Coherent.addPartOfItem (h : Coherent self disk) (hk : disk.pages[k]? = some p)
    (ha : findPage self a = some p.page) (h0 : 0 < payload.length) (hn : payload.length < 2 ^ 31)
    (hroom : payload.length ≤ available disk.pageSize p.slots) :
    ∃ t, pageManagerAddPartOfItem a payload nullPageIndex self =
        .ok (.ok (addResult disk.pageSize k p payload)) t ∧
      Coherent t (disk.setPage k (p.add disk.pageSize k payload)
        (StoredPage.add_hasSlots hk (fits_of_le_available h0 hroom))) ∧
      findPage t a = some (p.add disk.pageSize k payload).page ∧
      (∀ b ≠ a, findPage t b = findPage self b) := by
  have hlayout := disk.layout k p hk
  have hadd := hlayout.pageAddItem_eq disk.pageSize_lt h0 hn hroom
  obtain ⟨t, hwrite, ht, hta, hother, _⟩ := h.write ha (Disk.pageId_eq hk) (Disk.lt_length hk)
    (StoredPage.add_hasSlots hk (fits_of_le_available h0 hroom))
  refine ⟨t, ?_, ht, hta, hother⟩
  rw [pageManagerAddPartOfItem]
  simp only [run_bind, andThen_ok, run_loadPage ha, hadd, run_lift_ok, run_storePage]
  have hwrite' : writePageOnDisk a (stored self a (addedPage disk.pageSize k p.slots payload p.page)) =
      .ok (.ok ()) t := hwrite
  rw [if_neg (by omega), run_bind, hwrite', andThen_ok, run_pure]
  rfl

theorem addPartOfItem_full (hk : disk.pages[k]? = some p)
    (ha : findPage self a = some p.page) (hn : payload.length < 2 ^ 31)
    (hfull : available disk.pageSize p.slots < payload.length) :
    ∃ e, pageManagerAddPartOfItem a payload nullPageIndex self = .error e self := by
  have hadd := (disk.layout k p hk).pageAddItem_full disk.pageSize_lt hn hfull nullPageIndex
  rw [pageManagerAddPartOfItem]
  simp only [run_bind, andThen_ok, run_loadPage ha, hadd, run_lift_error]
  exact ⟨_, rfl⟩

theorem addPartOfItem_writeStatus {res : ItemAddResult} (hadd :
    pageManagerAddPartOfItem a payload nullPageIndex self = .ok (.ok res) t) :
    res.writeStatus = ⟨true, payload.length⟩ := by
  rw [pageManagerAddPartOfItem] at hadd
  obtain ⟨raw, s1, _, hadd⟩ := bind_eq_ok.mp hadd
  obtain ⟨⟨raw', r⟩, s2, hpage, hadd⟩ := bind_eq_ok.mp hadd
  obtain ⟨hpage, rfl⟩ := lift_eq_ok.mp hpage
  obtain ⟨_, s3, _, hadd⟩ := bind_eq_ok.mp hadd
  have hr : r.writeStatus = ⟨true, payload.length⟩ := by
    rw [pageAddItem, pageAddItemUpdateHeader] at hpage
    split at hpage
    · cases hpage
    · simp only [bind, Except.bind] at hpage
      split at hpage
      · cases hpage
      · split at hpage
        · cases hpage
        · cases hpage
          rfl
  simp only [run_ite] at hadd
  split at hadd
  · obtain ⟨_, _, hthrow, _⟩ := bind_eq_ok.mp hadd
    cases hthrow
  · obtain ⟨w, s4, _, hadd⟩ := bind_eq_ok.mp hadd
    simp only [run_pure, EStateM.Result.ok.injEq] at hadd
    cases w with
    | error e => simp [Except.map] at hadd
    | ok w =>
        obtain ⟨rfl, _⟩ : r = res ∧ _ := by simpa [Except.map] using hadd
        exact hr

end Adding

section Putting

variable {self t : PageManager} {disk : Disk} {a b : PageAddr} {k : Nat} {p : StoredPage}
  {payload : ItemPayload}

/-- The page `page_manager_put_item` writes to: the given one or a new one. -/
def putTarget (page : PageAddr) (payload : ItemPayload) : PageManagerM PageAddr := do
  let raw ← loadPage page
  if pageCanFitAnyPayload raw = false ∨ pageCanFitPayload raw payload.length = false then
    let res ← pageManagerGetNewFreePage
    abortIfFail res "Failed to allocate one more page for payload that can't suite page"
  else
    return page

def putWhole (page : PageAddr) (payload : ItemPayload) : PageManagerM ItemAddResult := do
  let res ← pageManagerAddPartOfItem page payload nullPageIndex
  abortIfFail res "Failed to add item to page in memory"

theorem putWhole_writeStatus {res : ItemAddResult} (hput : putWhole a payload self = .ok res t) :
    res.writeStatus = ⟨true, payload.length⟩ := by
  obtain ⟨r, s1, hadd, habort⟩ := bind_eq_ok.mp hput
  obtain ⟨rfl, rfl⟩ := abortIfFail_eq_ok.mp habort
  exact addPartOfItem_writeStatus hadd

theorem putItemLoop_done (payload : ItemPayload) (fuel : Nat) (page : Option PageAddr) (res : ItemAddResult) :
    putItemLoop payload (fuel + 1) page payload.length (some res) =
      pure (some res, payload.length) := by
  unfold putItemLoop
  rw [if_pos le_rfl]

theorem putItemLoop_round (fuel : Nat) (target : Option PageAddr) (a : PageAddr) (payload : ItemPayload) :
    (do
      let res ← pageManagerAddPartOfItem a payload nullPageIndex
      let tmpAddResult ← abortIfFail res "Failed to add item to page in memory"
      putItemLoop payload (fuel + 1) target (0 + tmpAddResult.writeStatus.bytesWritten)
        (some tmpAddResult)) = (do
      let res ← putWhole a payload
      return (some res, payload.length)) := by
  funext s
  rw [putWhole]
  rw [bind_assoc]
  refine run_bind_congr fun res t hadd => ?_
  cases res with
  | error e => rfl
  | ok r =>
      simp only [run_bind, andThen_ok, run_abortIfFail_ok, addPartOfItem_writeStatus hadd, Nat.zero_add,
        putItemLoop_done]

theorem putItemLoop_eq (h0 : 0 < payload.length) (hn : payload.length < 2 ^ 32) (fuel : Nat)
    (page : PageAddr) :
    putItemLoop payload (fuel + 2) (some page) 0 none = (do
      let target ← putTarget page payload
      let res ← putWhole target payload
      return (some res, payload.length)) := by
  have hsize : toUInt32 (toInt32 payload.length - toInt32 (0 : Nat)) = payload.length := by
    have hzero : toInt32 (0 : Nat) = 0 := toInt32_natCast (by decide)
    rw [hzero, sub_zero, toUInt32_toInt32, toUInt32_of_lt hn]
  have hpart : slice payload 0 payload.length = payload := slice_zero_length payload
  rw [putItemLoop, putTarget]
  rw [if_neg (by omega)]
  simp only [hsize, hpart, bind_assoc]
  congr 1
  funext raw
  split
  · simp only [bind_assoc]
    congr 1
    funext res
    congr 1
    funext freePage
    exact putItemLoop_round fuel _ freePage payload
  · simp only [pure_bind]
    exact putItemLoop_round fuel none page payload

/-- `page_manager_put_item` writes the whole payload to one page. -/
theorem pageManagerPutItem_eq (h0 : 0 < payload.length) (hn : payload.length < 2 ^ 32) (page : PageAddr) :
    pageManagerPutItem page payload = (do
      let target ← putTarget page payload
      putWhole target payload) := by
  funext s
  obtain ⟨n, hlen⟩ : ∃ n, payload.length + 1 = n + 2 := ⟨payload.length - 1, by omega⟩
  rw [pageManagerPutItem]
  rw [if_neg (by omega), hlen, putItemLoop_eq h0 hn]
  simp only [bind_assoc]
  refine run_bind_congr fun target t _ => ?_
  conv_rhs => rw [← bind_pure (putWhole target payload)]
  refine run_bind_congr fun res u hput => ?_
  obtain ⟨offset, metadata, status⟩ := res
  obtain rfl : status = ⟨true, payload.length⟩ := putWhole_writeStatus hput
  simp

theorem Coherent.getNewFreePage (h : Coherent self disk) :
    (∀ hroom : disk.HasRoom, ∃ a t, pageManagerGetNewFreePage self = .ok (.ok a) t ∧
      Coherent t (disk.grow hroom) ∧ findPage t a = some (nextPage disk).page ∧ KeepsCache self t) ∧
    (¬disk.HasRoom → AtLeast (2 ^ 32) (final (pageManagerGetNewFreePage self))) := by
  obtain ⟨a, t, hnew, _, _, hgrow, hfull⟩ := h.pageNew
  rw [pageManagerGetNewFreePage]
  simp only [run_bind, andThen_ok, hnew, run_abortIfFail_ok]
  constructor
  · intro hroom
    obtain ⟨u, hset, hu, hua, hkeep⟩ := hgrow hroom
    refine ⟨a, u, ?_, hu, hua, hkeep⟩
    simp only [hset, andThen_ok, run_pure]
    rfl
  · intro hroom
    exact Keeps.andThen (keeps_setCurrentFreePage a t (hfull hroom)) fun _ => Keeps.pure _

theorem keeps_abortIfFail {P : PageManager → Prop} {α : Type} (res : Result α) (message : String) :
    Keeps P (abortIfFail res message : PageManagerM α) := by
  cases res with
  | ok a => exact Keeps.pure a
  | error e => exact Keeps.throw _

theorem keeps_putWhole {n : Nat} (a : PageAddr) (payload : ItemPayload) :
    Keeps (AtLeast n) (putWhole a payload) := by
  refine Keeps.bind (Keeps.bind (keeps_loadPage a) fun raw => Keeps.bind (Keeps.lift _) fun res =>
    Keeps.bind (Keeps.modify fun _ h => h) fun _ => ?_) fun _ => keeps_abortIfFail _ _
  exact Keeps.ite (Keeps.bind (Keeps.throw _) fun _ =>
    Keeps.bind (keeps_writePageOnDisk a) fun _ => Keeps.pure _)
    (Keeps.bind (keeps_writePageOnDisk a) fun _ => Keeps.pure _)

theorem keeps_putTarget {n : Nat} (a : PageAddr) (payload : ItemPayload) :
    Keeps (AtLeast n) (putTarget a payload) := by
  refine Keeps.bind (keeps_loadPage a) fun raw => Keeps.ite ?_ (Keeps.pure a)
  refine Keeps.bind (Keeps.bind keeps_pageNew fun res => Keeps.bind (keeps_abortIfFail _ _) fun _ =>
    Keeps.bind (keeps_setCurrentFreePage _) fun _ => Keeps.pure _) fun _ => keeps_abortIfFail _ _

theorem keeps_putItem {n : Nat} (h0 : 0 < payload.length) (hn : payload.length < 2 ^ 31) (a : PageAddr) :
    Keeps (AtLeast n) (pageManagerPutItem a payload) := by
  rw [pageManagerPutItem_eq h0 (by omega)]
  exact Keeps.bind (keeps_putTarget a payload) fun _ => keeps_putWhole _ payload

theorem Coherent.putWhole (h : Coherent self disk) (hk : disk.pages[k]? = some p)
    (ha : findPage self a = some p.page) (h0 : 0 < payload.length) (hn : payload.length < 2 ^ 31)
    (hroom : payload.length ≤ available disk.pageSize p.slots) :
    ∃ t, putWhole a payload self = .ok (addResult disk.pageSize k p payload) t ∧
      Coherent t (disk.setPage k (p.add disk.pageSize k payload)
        (StoredPage.add_hasSlots hk (fits_of_le_available h0 hroom))) := by
  obtain ⟨t, hadd, ht, _, _⟩ := h.addPartOfItem hk ha h0 hn hroom
  refine ⟨t, ?_, ht⟩
  rw [Storage.putWhole]
  simp only [run_bind, andThen_ok, hadd, run_abortIfFail_ok]

theorem Disk.targets_iff (hk : disk.pages[k]? = some p) (h0 : 0 < payload.length)
    (hn : payload.length < 2 ^ 31) :
    (pageCanFitAnyPayload p.page = false ∨ pageCanFitPayload p.page payload.length = false) ↔
      available disk.pageSize p.slots < payload.length := by
  have hany := (disk.layout k p hk).canFitAnyPayload_iff disk.pageSize_lt
  have hfit := (disk.layout k p hk).canFitPayload_iff disk.pageSize_lt hn
  rw [← Bool.not_eq_true, ← Bool.not_eq_true, hany, hfit]
  omega

/-- An item that fits goes to the given page. -/
theorem Coherent.putItem_here (h : Coherent self disk) (hk : disk.pages[k]? = some p)
    (ha : findPage self a = some p.page) (h0 : 0 < payload.length) (hn : payload.length < 2 ^ 31)
    (hroom : payload.length ≤ available disk.pageSize p.slots) :
    ∃ t, pageManagerPutItem a payload self = .ok (addResult disk.pageSize k p payload) t ∧
      Coherent t (disk.setPage k (p.add disk.pageSize k payload)
        (StoredPage.add_hasSlots hk (fits_of_le_available h0 hroom))) := by
  obtain ⟨t, hput, ht⟩ := h.putWhole hk ha h0 hn hroom
  have hcond := (Disk.targets_iff hk h0 hn).not.mpr hroom.not_gt
  refine ⟨t, ?_, ht⟩
  rw [pageManagerPutItem_eq h0 (by omega)]
  rw [putTarget]
  simp only [run_bind, andThen_ok, run_loadPage ha, if_neg hcond, run_pure]
  exact hput

/-- An item that does not fit goes to a new page. -/
theorem Coherent.putItem_new (h : Coherent self disk) (hk : disk.pages[k]? = some p)
    (ha : findPage self a = some p.page) (h0 : 0 < payload.length) (hn : payload.length < 2 ^ 31)
    (hfull : available disk.pageSize p.slots < payload.length) :
    (∀ hroom : disk.HasRoom,
      (∀ hfits : payload.length ≤ available disk.pageSize [], ∃ t,
        pageManagerPutItem a payload self =
          .ok (addResult disk.pageSize disk.pages.length (nextPage disk) payload) t ∧
        Coherent t ((disk.grow hroom).setPage disk.pages.length
          ((nextPage disk).add disk.pageSize disk.pages.length payload)
          (StoredPage.add_hasSlots (Disk.grow_last hroom) (fits_of_le_available h0 hfits)))) ∧
      (available disk.pageSize [] < payload.length → ∃ e t,
        pageManagerPutItem a payload self = .error e t)) ∧
    (¬disk.HasRoom → AtLeast (2 ^ 32) (final (pageManagerPutItem a payload self))) := by
  have hcond := (Disk.targets_iff hk h0 hn).mpr hfull
  obtain ⟨hgrow, hover⟩ := h.getNewFreePage
  have htarget : putTarget a payload self = (do
      let res ← pageManagerGetNewFreePage
      abortIfFail res "Failed to allocate one more page for payload that can't suite page") self := by
    rw [putTarget]
    simp only [run_bind, andThen_ok, run_loadPage ha, if_pos hcond]
  rw [pageManagerPutItem_eq h0 (by omega)]
  refine ⟨fun hroom => ?_, fun hroom => ?_⟩
  · obtain ⟨b, t, hnew, ht, hb, _⟩ := hgrow hroom
    have hrun : putTarget a payload self = .ok b t := by
      simp only [htarget, run_bind, hnew, andThen_ok, run_abortIfFail_ok]
    simp only [run_bind, andThen_ok, hrun]
    refine ⟨fun hfits => ht.putWhole (Disk.grow_last hroom) hb h0 hn hfits, fun hbig => ?_⟩
    obtain ⟨e, hadd⟩ := addPartOfItem_full (Disk.grow_last hroom) hb hn hbig
    exact ⟨e, t, by simp only [Storage.putWhole, run_bind, hadd, andThen_error]⟩
  · rw [run_bind, htarget, run_bind]
    exact Keeps.andThen (Keeps.andThen (hover hroom) fun _ => keeps_abortIfFail _ _) fun _ =>
      keeps_putWhole _ payload

end Putting

section Getting

variable {self t : PageManager} {disk : Disk} {a b : PageAddr} {k i : Nat} {p : StoredPage} {slot : Slot}

theorem pageId_ne_null (hk : disk.pages[k]? = some p) : p.page.pageHeader.pageId ≠ nullPageIndex := by
  rw [Disk.pageId_eq hk]
  rw [nullPageIndex]
  omega

theorem Opened.partRounds_eq (h : Opened self.fileManager disk) (hk : disk.pages[k]? = some p) :
    ∃ n, partRounds self = n + 2 := by
  have hlt := Disk.lt_length hk
  rw [partRounds]
  rw [h.pagesCount_eq]
  exact ⟨disk.pages.length - 1, by omega⟩

theorem nextPart_head (ha : findPage self a = some p.page) (itemId : ItemIndex) :
    nextPart a a p.page.pageHeader.pageId itemId self = .ok (a, itemId) self := by
  rw [nextPart]
  simp only [run_bind, andThen_ok, run_loadPage ha, ne_eq, not_true, if_false, run_pure]

/-- `page_manager_get_item` returns the bytes of a live slot and changes nothing. -/
theorem Opened.getItem_live (h : Opened self.fileManager disk) (hk : disk.pages[k]? = some p)
    (ha : findPage self a = some p.page) (hs : p.slots[i]? = some slot) (hlive : slot.deleted = false)
    (onPage : Int) :
    pageManagerGetItem a ⟨onPage, i⟩ self = .ok (createItem slot.data ⟨onPage, i⟩) self := by
  obtain ⟨n, hn⟩ := h.partRounds_eq hk
  have hlayout := disk.layout k p hk
  have hget := hlayout.getItem_live disk.pageSize_lt (Disk.isInt32_pageId hk) hs hlive onPage
  have hcont := hlayout.continuation_eq disk.pageSize_lt (Disk.isInt32_pageId hk) hs
    (show (createItem slot.data ⟨onPage, i⟩).id.itemId = i from rfl)
  rw [pageManagerGetItem]
  simp only [run_bind, andThen_ok, run_loadPage ha, run_get, hn]
  rw [getItemLoop]
  simp only [run_bind, andThen_ok, run_ite, if_neg (pageId_ne_null hk), run_loadPage ha, if_true, nextPart_head ha,
    hget, run_lift_ok, run_abortIfFail_ok, hcont, lt_irrefl, if_false]
  rw [getItemLoop]
  simp only [if_true, run_pure, List.nil_append]
  rfl

theorem Opened.calculateLargeItemSize_live (h : Opened self.fileManager disk) (hk : disk.pages[k]? = some p)
    (ha : findPage self a = some p.page) (hs : p.slots[i]? = some slot) (hlive : slot.deleted = false)
    (onPage : Int) :
    pageManagerCalculateLargeItemSize a ⟨onPage, i⟩ self = .ok slot.data.length self := by
  obtain ⟨n, hn⟩ := h.partRounds_eq hk
  have hlayout := disk.layout k p hk
  have hget := hlayout.getItem_live disk.pageSize_lt (Disk.isInt32_pageId hk) hs hlive onPage
  have hcont := hlayout.continuation_eq disk.pageSize_lt (Disk.isInt32_pageId hk) hs
    (show (createItem slot.data ⟨onPage, i⟩).id.itemId = i from rfl)
  obtain ⟨_, hhigh⟩ := hlayout.data_fits hs
  have hsize : toUInt32 (((0 : Nat) : Int) + slot.data.length) = slot.data.length := by
    have hp := disk.pageSize_lt
    rw [toUInt32_add (by omega), Nat.zero_add]
  rw [pageManagerCalculateLargeItemSize]
  simp only [run_bind, andThen_ok, run_loadPage ha, run_get, hn]
  rw [calculateLargeItemSizeLoop]
  simp only [run_bind, andThen_ok, run_ite, if_neg (pageId_ne_null hk), run_loadPage ha, nextPart_head ha,
    hget, run_lift_ok, run_abortIfFail_ok, hcont]
  rw [calculateLargeItemSizeLoop]
  simp only [if_true, run_pure, createItem, hsize]

theorem Opened.calculateLargeItemSize_deleted (h : Opened self.fileManager disk) (hk : disk.pages[k]? = some p)
    (ha : findPage self a = some p.page) (hs : p.slots[i]? = some slot) (hdeleted : slot.deleted = true)
    (onPage : Int) :
    pageManagerCalculateLargeItemSize a ⟨onPage, i⟩ self =
      .error (.assertion "metadata->is_deleted == false") self := by
  obtain ⟨n, hn⟩ := h.partRounds_eq hk
  have hget := (disk.layout k p hk).getItem_deleted disk.pageSize_lt (Disk.isInt32_pageId hk) hs hdeleted
    onPage
  rw [pageManagerCalculateLargeItemSize]
  simp only [run_bind, andThen_ok, run_loadPage ha, run_get, hn]
  rw [calculateLargeItemSizeLoop]
  simp only [run_bind, andThen_ok, run_ite, if_neg (pageId_ne_null hk), run_loadPage ha, nextPart_head ha,
    hget, run_lift_error, andThen_error]

theorem HasSlots.pageGetItem_live {pageSize : Nat} {pageId : Int} {slots : List Slot} {page : Page}
    (h : HasSlots pageSize pageId slots page) (hp : pageSize < 2 ^ 32) (hid : IsInt32 pageId)
    {itemId : ItemIndex} {item : Item} (hget : pageGetItem page itemId = .ok (.ok item)) :
    ∃ (i : Nat) (slot : Slot), itemId.itemId = i ∧ slots[i]? = some slot ∧ slot.deleted = false := by
  obtain ⟨hlow, hhigh, _⟩ := pageGetItem_ok hget
  obtain ⟨onPage, itemId⟩ := itemId
  obtain ⟨i, rfl⟩ := Int.eq_ofNat_of_zero_le hlow
  rw [h.nextItemId] at hhigh
  have hi : i < slots.length := by
    simp only at hhigh
    omega
  refine ⟨i, slots[i], rfl, List.getElem?_eq_getElem hi, ?_⟩
  by_contra hdeleted
  rw [h.getItem_deleted hp hid (List.getElem?_eq_getElem hi) (by simpa using hdeleted)] at hget
  cases hget

theorem Disk.slot_of_read {α : Type} (hk : disk.pages[k]? = some p) {itemId : ItemIndex} {message : String}
    {f : Item → PageManagerM α} {r : α}
    (hrun : (do
      let res ← lift (pageGetItem p.page itemId)
      let item ← abortIfFail res message
      f item) self = .ok r t) :
    ∃ (i : Nat) (slot : Slot), itemId.itemId = i ∧ p.slots[i]? = some slot ∧ slot.deleted = false := by
  obtain ⟨res, _, hread, hrest⟩ := bind_eq_ok.mp hrun
  obtain ⟨item, _, habort, _⟩ := bind_eq_ok.mp hrest
  obtain ⟨hread, _⟩ := lift_eq_ok.mp hread
  obtain ⟨rfl, _⟩ := abortIfFail_eq_ok.mp habort
  exact (disk.layout k p hk).pageGetItem_live disk.pageSize_lt (Disk.isInt32_pageId hk) hread

theorem Coherent.getItem_ok (h : Coherent self disk) (hk : disk.pages[k]? = some p)
    (ha : findPage self a = some p.page) {itemId : ItemIndex} {item : Item}
    (hget : pageManagerGetItem a itemId self = .ok item t) :
    t = self ∧ ∃ (i : Nat) (slot : Slot), itemId.itemId = i ∧ p.slots[i]? = some slot ∧
      slot.deleted = false ∧ item = createItem slot.data itemId := by
  obtain ⟨n, hn⟩ := h.opened.partRounds_eq hk
  have hrun := hget
  rw [pageManagerGetItem] at hrun
  simp only [run_bind, andThen_ok, run_loadPage ha, run_get, hn] at hrun
  rw [getItemLoop] at hrun
  simp only [run_bind, andThen_ok, run_ite, if_neg (pageId_ne_null hk), run_loadPage ha, if_true, nextPart_head ha,
    lt_irrefl, if_false] at hrun
  rw [← run_bind, ← run_bind] at hrun
  obtain ⟨_, _, hloop, _⟩ := bind_eq_ok.mp hrun
  obtain ⟨i, slot, hi, hs, hlive⟩ := Disk.slot_of_read hk hloop
  obtain ⟨onPage, itemId⟩ := itemId
  simp only at hi
  subst hi
  rw [h.opened.getItem_live hk ha hs hlive onPage] at hget
  cases hget
  exact ⟨rfl, i, slot, rfl, hs, hlive, rfl⟩

theorem Coherent.calculateLargeItemSize_ok (h : Coherent self disk) (hk : disk.pages[k]? = some p)
    (ha : findPage self a = some p.page) {itemId : ItemIndex} {size : Nat}
    (hcalc : pageManagerCalculateLargeItemSize a itemId self = .ok size t) : t = self := by
  obtain ⟨n, hn⟩ := h.opened.partRounds_eq hk
  have hrun := hcalc
  rw [pageManagerCalculateLargeItemSize] at hrun
  simp only [run_bind, andThen_ok, run_loadPage ha, run_get, hn] at hrun
  rw [calculateLargeItemSizeLoop] at hrun
  simp only [run_bind, andThen_ok, run_ite, if_neg (pageId_ne_null hk), nextPart_head ha,
    run_loadPage ha] at hrun
  rw [← run_bind] at hrun
  obtain ⟨i, slot, hi, hs, hlive⟩ := Disk.slot_of_read hk hrun
  obtain ⟨onPage, itemId⟩ := itemId
  simp only at hi
  subst hi
  rw [h.opened.calculateLargeItemSize_live hk ha hs hlive onPage] at hcalc
  cases hcalc
  rfl

end Getting

section Deleting

variable {self t : PageManager} {disk : Disk} {a b : PageAddr} {k i : Nat} {p : StoredPage} {slot : Slot}
  {item : Item}

def StoredPage.delete (pageSize k : Nat) (p : StoredPage) (i : Nat) (slot : Slot) : StoredPage :=
  ⟨deletedPage pageSize k p.slots i slot p.page, deleteSlot p.slots i⟩

theorem StoredPage.delete_hasSlots (hk : disk.pages[k]? = some p) (hs : p.slots[i]? = some slot) :
    HasSlots disk.pageSize k (p.delete disk.pageSize k i slot).slots
      (p.delete disk.pageSize k i slot).page :=
  (disk.layout k p hk).deletedPage hs

theorem Coherent.deleteItem (h : Coherent self disk) (hk : disk.pages[k]? = some p)
    (ha : findPage self a = some p.page) (hs : p.slots[i]? = some slot)
    (hcount : 0 < p.page.pageHeader.itemsCount) (hitem : item.id.itemId = i)
    (hfresh : item.isDeleted = false) :
    ∃ t, pageManagerDeleteItem a item self = .ok { item with isDeleted := true } t ∧
      Coherent t (disk.setPage k (p.delete disk.pageSize k i slot) (StoredPage.delete_hasSlots hk hs)) := by
  obtain ⟨n, hn⟩ := h.opened.partRounds_eq hk
  have hlayout := disk.layout k p hk
  have hdel := hlayout.pageDeleteItem_eq disk.pageSize_lt (Disk.isInt32_pageId hk) hs hcount hitem hfresh
  have hcont := hlayout.deletedPage_continuation disk.pageSize_lt (Disk.isInt32_pageId hk) hs
    (show ({ item with isDeleted := true } : Item).id.itemId = i from hitem)
  obtain ⟨t, hwrite, ht, _⟩ := h.write ha (Disk.pageId_eq hk) (Disk.lt_length hk)
    (StoredPage.delete_hasSlots hk hs)
  refine ⟨t, ?_, ht⟩
  have hwrite' : writePageOnDisk a (stored self a (deletedPage disk.pageSize k p.slots i slot p.page)) =
      .ok (.ok ()) t := hwrite
  rw [pageManagerDeleteItem]
  simp only [run_bind, andThen_ok, run_loadPage ha, run_get, hn]
  rw [deleteItemLoop]
  simp only [run_bind, andThen_ok, run_ite, if_neg (pageId_ne_null hk), run_loadPage ha, ne_eq, not_true, if_false,
    run_pure, andThen_ok, hdel, run_lift_ok, run_storePage, hwrite', run_abortIfFail_ok, hcont]
  rw [deleteItemLoop]
  simp only [if_true, run_pure, andThen_ok, reduceCtorEq, if_false]

theorem Coherent.deleteItem_ok (h : Coherent self disk) (hk : disk.pages[k]? = some p)
    (ha : findPage self a = some p.page) {item' : Item}
    (hdelete : pageManagerDeleteItem a item self = .ok item' t) :
    ∃ (i : Nat) (slot : Slot), item.id.itemId = i ∧ p.slots[i]? = some slot ∧ item.isDeleted = false ∧
      0 < p.page.pageHeader.itemsCount := by
  obtain ⟨n, hn⟩ := h.opened.partRounds_eq hk
  rw [pageManagerDeleteItem] at hdelete
  simp only [run_bind, andThen_ok, run_loadPage ha, run_get, hn] at hdelete
  rw [deleteItemLoop] at hdelete
  simp only [run_bind, andThen_ok, run_ite, if_neg (pageId_ne_null hk), run_loadPage ha, ne_eq, not_true, if_false,
    run_pure] at hdelete
  have hread : ∃ r, pageDeleteItem p.page item = .ok r := by
    cases hp : pageDeleteItem p.page item with
    | error e => simp [hp] at hdelete
    | ok r => exact ⟨r, rfl⟩
  obtain ⟨r, hread⟩ := hread
  obtain ⟨hfresh, hlow, hhigh, hcount⟩ := pageDeleteItem_ok hread
  obtain ⟨i, hi⟩ := Int.eq_ofNat_of_zero_le hlow
  rw [(disk.layout k p hk).nextItemId] at hhigh
  have hlt : i < p.slots.length := by omega
  exact ⟨i, p.slots[i], hi, List.getElem?_eq_getElem hlt, hfresh, hcount⟩

end Deleting

end DocumentDb.Storage
