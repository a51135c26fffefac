import DocumentDb.Storage.Opening
import DocumentDb.Storage.Scan

namespace DocumentDb.Storage

open Bytes Program

def FileBelow (self : PageManager) : Prop := self.fileManager.file.content.length < 2 ^ 32

theorem Coherent.below {self : PageManager} {disk : Disk} (h : Coherent self disk) : FileBelow self := by
  rw [FileBelow]
  rw [h.opened.content, Disk.length_bytes]
  exact disk.small

section Short

variable {α : Type} {x : PageManagerM α} {r : α} {self t : PageManager}

def short (x : PageManagerM α) : PageManagerM α := do
  let r ← x
  if 2 ^ 32 ≤ (← get).fileManager.file.content.length then
    throw .diverges
  return r

theorem short_eq_ok (h : short x self = .ok r t) : x self = .ok r t ∧ FileBelow t := by
  obtain ⟨r', s, hx, hrest⟩ := bind_eq_ok.mp h
  simp only [run_bind, run_get, andThen_ok, run_ite, run_throw, run_pure] at hrest
  split at hrest
  · cases hrest
  · rename_i hlength
    cases hrest
    exact ⟨hx, Nat.lt_of_not_le hlength⟩

end Short

section Sessions

/-- A client of the page manager and the iterators it has been handed. An
iterator stays in the lists when a newer copy of it is added. -/
structure Session where
  manager : PageManager
  pageIterators : List PageIterator
  itemIterators : List ItemIterator

/-- One call of a function of the page manager that returns. A function that is
given a page that is no longer in the cache does not return. -/
inductive Call : Session → Session → Prop
  | getPageForData {s page t} : pageManagerGetPageForData s.manager = .ok page t →
      Call s { s with manager := t }
  | putItem {s page payload res t} : 0 < payload.length → payload.length < 2 ^ 31 →
      pageManagerPutItem page payload s.manager = .ok res t → Call s { s with manager := t }
  | deleteItem {s page item item' t} : pageManagerDeleteItem page item s.manager = .ok item' t →
      Call s { s with manager := t }
  | getItem {s page itemId item t} : pageManagerGetItem page itemId s.manager = .ok item t →
      Call s { s with manager := t }
  | freePages {s t} : pageManagerFreePages s.manager = .ok () t → Call s { s with manager := t }
  | pageIteratorNew {s it t} : pageIteratorNew s.manager = .ok it t →
      Call s { s with manager := t, pageIterators := it :: s.pageIterators }
  | pageIteratorHasNext {s it hasNext t} : it ∈ s.pageIterators →
      pageIteratorHasNext it s.manager = .ok hasNext t → Call s { s with manager := t }
  | pageIteratorNext {s it res it' t} : it ∈ s.pageIterators →
      pageIteratorNext it s.manager = .ok (res, it') t →
      Call s { s with manager := t, pageIterators := it' :: s.pageIterators }
  | pageIteratorDestroy {s it t} : it ∈ s.pageIterators → pageIteratorDestroy it s.manager = .ok () t →
      Call s { s with manager := t }
  | itemIteratorNew {s it t} : pageManagerGetItems s.manager = .ok it t →
      Call s { s with manager := t, itemIterators := it :: s.itemIterators }
  | itemIteratorHasNext {s it hasNext it' t} : it ∈ s.itemIterators →
      itemIteratorHasNext it s.manager = .ok (hasNext, it') t →
      Call s { s with manager := t, itemIterators := it' :: s.itemIterators }
  | itemIteratorNext {s it item it' t} : it ∈ s.itemIterators →
      itemIteratorNext it s.manager = .ok (item, it') t →
      Call s { s with manager := t, itemIterators := it' :: s.itemIterators }
  | itemIteratorDestroy {s it it' t} : it ∈ s.itemIterators →
      itemIteratorDestroy it s.manager = .ok it' t →
      Call s { s with manager := t, itemIterators := it' :: s.itemIterators }

/-- The sessions after `page_manager_init` on a new file and any calls, as long
as the file stays below `2 ^ 32` bytes. The file may be opened again in between. -/
inductive ReachableSession (pageSize : Nat) (signature : Int) : Session → Prop
  | init {res t} : pageManagerInit pageSize signature (pageManagerNew (fileOpen none noFaults)) = .ok res t →
      FileBelow t → ReachableSession pageSize signature ⟨t, [], []⟩
  | call {s s'} : ReachableSession pageSize signature s → Call s s' → FileBelow s'.manager →
      ReachableSession pageSize signature s'
  | reopen {s pageSize' res t} : ReachableSession pageSize signature s →
      pageManagerInit pageSize' signature
        (pageManagerNew (fileOpen (some s.manager.fileManager.file.content) noFaults)) = .ok res t →
      ReachableSession pageSize signature ⟨t, [], []⟩

end Sessions

section Invariant

variable {self t : PageManager} {pageSize : Nat} {signature : Int} {P : List Slot → Page → Prop}

structure PageInvariant (P : List Slot → Page → Prop) : Prop where
  fresh : ∀ pageId pageSize, P [] (pageNew pageId pageSize)
  add : ∀ {pageSize pageId slots page} payload, HasSlots pageSize pageId slots page → pageSize < 2 ^ 32 →
    P slots page → P (slots ++ [⟨payload, false⟩]) (addedPage pageSize pageId slots payload page)
  delete : ∀ {pageSize pageId slots page i slot}, slots[i]? = some slot → 0 < page.pageHeader.itemsCount →
    P slots page → P (deleteSlot slots i) (deletedPage pageSize pageId slots i slot page)

theorem pageInvariant_true : PageInvariant fun _ _ => True :=
  ⟨fun _ _ => trivial, fun _ _ _ _ => trivial, fun _ _ _ => trivial⟩

def EachPage (P : List Slot → Page → Prop) (disk : Disk) : Prop :=
  ∀ (k : Nat) (p : StoredPage), disk.pages[k]? = some p → P p.slots p.page

theorem EachPage.setPage {disk : Disk} {k : Nat} {p : StoredPage} (hd : EachPage P disk)
    (h : HasSlots disk.pageSize k p.slots p.page) (hp : P p.slots p.page) : EachPage P (disk.setPage k p h) := by
  intro j q hq
  rw [Disk.setPage_pages, List.getElem?_set] at hq
  split at hq
  · split at hq
    · cases hq
      exact hp
    · cases hq
  · exact hd j q hq

theorem EachPage.grow {disk : Disk} (hd : EachPage P disk) (hnext : P (nextPage disk).slots (nextPage disk).page)
    (hroom : disk.HasRoom) : EachPage P (disk.grow hroom) := by
  intro j q hq
  rw [Disk.grow_pages] at hq
  rcases concat_cases hq with hq | ⟨_, rfl⟩
  · exact hd j q hq
  · exact hnext

def Managed (pageSize : Nat) (signature : Int) (self : PageManager) : Prop :=
  ∃ disk, Coherent self disk ∧ Settled disk ∧ disk.pageSize = pageSize ∧ disk.signature = signature

def ManagedWith (P : List Slot → Page → Prop) (pageSize : Nat) (signature : Int) (self : PageManager) : Prop :=
  ∃ disk, Coherent self disk ∧ Settled disk ∧ EachPage P disk ∧ disk.pageSize = pageSize ∧ disk.signature = signature

theorem ManagedWith.managed (h : ManagedWith P pageSize signature self) : Managed pageSize signature self := by
  obtain ⟨disk, hd, hs, _, hsize, hsig⟩ := h
  exact ⟨disk, hd, hs, hsize, hsig⟩

theorem FileBelow.not_atLeast (h : FileBelow self) : ¬AtLeast (2 ^ 32) self := Nat.not_le.mpr h

theorem Settled.setPage {disk : Disk} {k : Nat} {p : StoredPage} (hs : Settled disk)
    (h : HasSlots disk.pageSize k p.slots p.page) : Settled (disk.setPage k p h) :=
  ⟨by simpa using hs.pages_pos, by simpa [Disk.setPage] using hs.freePage⟩

theorem Settled.last {disk : Disk} (hs : Settled disk) :
    ∃ p, disk.pages[disk.pages.length - 1]? = some p :=
  ⟨_, List.getElem?_eq_getElem (by have := hs.pages_pos; omega)⟩

theorem ManagedWith.getPageForData (hP : PageInvariant P) {page : PageAddr}
    (h : ManagedWith P pageSize signature self)
    (hcall : pageManagerGetPageForData self = .ok page t) (hbelow : FileBelow t) :
    ManagedWith P pageSize signature t := by
  obtain ⟨disk, hd, hs, hpages, rfl, rfl⟩ := h
  obtain ⟨p, hp⟩ := hs.last
  obtain ⟨hroom, hfull⟩ := hd.getPageForData hs hp
  rcases le_or_gt minimumDataPartSizeBytes (available disk.pageSize p.slots) with hle | hlt
  · obtain ⟨a, u, hrun, hu, _⟩ := hroom hle
    rw [hrun] at hcall
    cases hcall
    exact ⟨disk, hu, hs, hpages, rfl, rfl⟩
  · obtain ⟨hgrow, hover⟩ := hfull hlt
    by_cases hroom : disk.HasRoom
    · obtain ⟨a, u, hrun, hu, _⟩ := hgrow hroom
      rw [hrun] at hcall
      cases hcall
      exact ⟨disk.grow hroom, hu, Disk.grow_settled hroom, hpages.grow (hP.fresh _ _) hroom, rfl, rfl⟩
    · have hbig := hover hroom
      rw [hcall] at hbig
      exact absurd hbig hbelow.not_atLeast

theorem loadPage_of_bind_ok {α : Type} {f : Page → PageManagerM α} {a : PageAddr} {r : α}
    (h : (loadPage a >>= f) self = .ok r t) : ∃ page, findPage self a = some page := by
  obtain ⟨page, s, hload, _⟩ := bind_eq_ok.mp h
  exact ⟨page, (loadPage_eq_ok.mp hload).1⟩

theorem ManagedWith.putItem (hP : PageInvariant P) {page : PageAddr} {payload : ItemPayload} {res : ItemAddResult}
    (h : ManagedWith P pageSize signature self) (h0 : 0 < payload.length) (hn : payload.length < 2 ^ 31)
    (hcall : pageManagerPutItem page payload self = .ok res t) (hbelow : FileBelow t) :
    ManagedWith P pageSize signature t := by
  obtain ⟨disk, hd, hs, hpages, rfl, rfl⟩ := h
  obtain ⟨raw, hraw⟩ : ∃ raw, findPage self page = some raw := by
    rw [pageManagerPutItem_eq h0 (by omega)] at hcall
    obtain ⟨target, s, htarget, _⟩ := bind_eq_ok.mp hcall
    exact loadPage_of_bind_ok htarget
  obtain ⟨k, p, hk, rfl, _⟩ := hd.cached_page hraw
  rcases le_or_gt payload.length (available disk.pageSize p.slots) with hle | hlt
  · obtain ⟨u, hrun, hu⟩ := hd.putItem_here hk hraw h0 hn hle
    rw [hrun] at hcall
    cases hcall
    exact ⟨_, hu, hs.setPage _, hpages.setPage _ (hP.add _ (disk.layout k p hk) disk.pageSize_lt (hpages k p hk)), rfl, rfl⟩
  · obtain ⟨hnew, hover⟩ := hd.putItem_new hk hraw h0 hn hlt
    by_cases hroom : disk.HasRoom
    · obtain ⟨hfits, hbig⟩ := hnew hroom
      rcases le_or_gt payload.length (available disk.pageSize []) with hle | hlt
      · obtain ⟨u, hrun, hu⟩ := hfits hle
        rw [hrun] at hcall
        cases hcall
        have hnext := hP.fresh disk.pages.length disk.pageSize
        exact ⟨_, hu, (Disk.grow_settled hroom).setPage _, (hpages.grow hnext hroom).setPage _
          (hP.add _ (nextPage_hasSlots disk) disk.pageSize_lt hnext), rfl, rfl⟩
      · obtain ⟨e, u, hrun⟩ := hbig hlt
        rw [hrun] at hcall
        cases hcall
    · have hbig := hover hroom
      rw [hcall] at hbig
      exact absurd hbig hbelow.not_atLeast

theorem ManagedWith.deleteItem (hP : PageInvariant P) {page : PageAddr} {item item' : Item}
    (h : ManagedWith P pageSize signature self)
    (hcall : pageManagerDeleteItem page item self = .ok item' t) : ManagedWith P pageSize signature t := by
  obtain ⟨disk, hd, hs, hpages, rfl, rfl⟩ := h
  obtain ⟨raw, hraw⟩ : ∃ raw, findPage self page = some raw := loadPage_of_bind_ok hcall
  obtain ⟨k, p, hk, rfl, _⟩ := hd.cached_page hraw
  obtain ⟨i, slot, hi, hslot, hfresh, hcount⟩ := hd.deleteItem_ok hk hraw hcall
  obtain ⟨u, hrun, hu⟩ := hd.deleteItem hk hraw hslot hcount hi hfresh
  rw [hrun] at hcall
  cases hcall
  exact ⟨_, hu, hs.setPage _, hpages.setPage _ (hP.delete hslot hcount (hpages k p hk)), rfl, rfl⟩

theorem ManagedWith.getItem {page : PageAddr} {itemId : ItemIndex} {item : Item}
    (h : ManagedWith P pageSize signature self) (hcall : pageManagerGetItem page itemId self = .ok item t) :
    t = self := by
  obtain ⟨disk, hd, _⟩ := h
  obtain ⟨raw, hraw⟩ : ∃ raw, findPage self page = some raw := loadPage_of_bind_ok hcall
  obtain ⟨k, p, hk, rfl, _⟩ := hd.cached_page hraw
  exact (hd.getItem_ok hk hraw hcall).1

theorem ManagedWith.freePages (h : ManagedWith P pageSize signature self)
    (hcall : pageManagerFreePages self = .ok () t) : ManagedWith P pageSize signature t := by
  obtain ⟨disk, hd, hs, hpages, rfl, rfl⟩ := h
  obtain ⟨u, hrun, hu⟩ := hd.freePages
  rw [hrun] at hcall
  cases hcall
  exact ⟨disk, hu, hs, hpages, rfl, rfl⟩

end Invariant

section Iteration

variable {self t : PageManager} {pageSize : Nat} {signature : Int} {P : List Slot → Page → Prop}

theorem ManagedWith.pageIteratorNew {it : PageIterator} (h : ManagedWith P pageSize signature self)
    (hcall : pageIteratorNew self = .ok it t) : ManagedWith P pageSize signature t ∧ 1 ≤ it.nextPageId := by
  obtain ⟨disk, hd, hs, hpages, rfl, rfl⟩ := h
  have hpos := hs.pages_pos
  obtain ⟨a, u, hread, hu, _⟩ := hd.readPage (List.getElem?_eq_getElem hpos)
  have hrun : Storage.pageIteratorNew self = .ok ⟨1, some a⟩ u := by
    rw [Storage.pageIteratorNew]
    simp only [run_bind, run_get, andThen_ok, hd.opened.pagesCount_eq, hpos.ne', if_false]
    rw [show (0 : Int) = (0 : Nat) from rfl, hread]
    simp only [andThen_ok, run_pure, Except.toOption]
  rw [hrun] at hcall
  cases hcall
  exact ⟨⟨disk, hu, hs, hpages, rfl, rfl⟩, le_rfl⟩

theorem ManagedWith.pageIteratorHasNext {it : PageIterator} {hasNext : Bool}
    (hcall : pageIteratorHasNext it self = .ok hasNext t) : t = self := by
  rw [Storage.pageIteratorHasNext] at hcall
  simp only [run_bind, run_get, andThen_ok, run_pure] at hcall
  cases hcall
  rfl

theorem ManagedWith.pageIteratorNext {it it' : PageIterator} {res : Result Unit}
    (h : ManagedWith P pageSize signature self) (hit : 1 ≤ it.nextPageId)
    (hcall : pageIteratorNext it self = .ok (res, it') t) :
    ManagedWith P pageSize signature t ∧ 1 ≤ it'.nextPageId := by
  obtain ⟨disk, hd, hs, hpages, rfl, rfl⟩ := h
  obtain ⟨next, a⟩ := it
  obtain ⟨k, rfl⟩ := Int.eq_ofNat_of_zero_le (show 0 ≤ next by simp only at hit; omega)
  by_cases hlt : k < disk.pages.length
  · obtain ⟨b, u, hrun, hu, _⟩ := hd.opened.pageIteratorNext_eq (List.getElem?_eq_getElem hlt) a
    rw [hrun] at hcall
    cases hcall
    refine ⟨⟨disk, hu, hs, hpages, rfl, rfl⟩, ?_⟩
    simp only at hit ⊢
    omega
  · rw [Storage.pageIteratorNext] at hcall
    simp only [run_bind, hd.opened.pageIteratorHasNext_eq, hlt, decide_false, andThen_ok, if_true, run_throw,
      andThen_error, reduceCtorEq] at hcall

theorem ManagedWith.hasNextLoop {fuel : Nat} {it it' : ItemIterator} {hasNext : Bool}
    (h : ManagedWith P pageSize signature self) (hit : 1 ≤ it.pageIterator.nextPageId)
    (hcall : hasNextLoop fuel it self = .ok (hasNext, it') t) :
    ManagedWith P pageSize signature t ∧ 1 ≤ it'.pageIterator.nextPageId := by
  induction fuel generalizing self it with
  | zero => cases hcall
  | succ fuel ih =>
      rw [Storage.hasNextLoop] at hcall
      obtain ⟨more, s1, hmore, hrest⟩ := bind_eq_ok.mp hcall
      obtain rfl := ManagedWith.pageIteratorHasNext hmore
      cases more with
      | false =>
          simp only [if_true, run_pure] at hrest
          cases hrest
          exact ⟨h, hit⟩
      | true =>
          simp only [reduceCtorEq, if_false] at hrest
          obtain ⟨⟨res, pageIt⟩, s2, hnext, hrest⟩ := bind_eq_ok.mp hrest
          obtain ⟨h2, hit2⟩ := h.pageIteratorNext hit hnext
          obtain ⟨_, s3, habort, hbody⟩ := bind_eq_ok.mp hrest
          obtain ⟨_, rfl⟩ := abortIfFail_eq_ok.mp habort
          cases hpage : pageIt.currentPage with
          | none =>
              simp only [hpage, run_throw, reduceCtorEq] at hbody
          | some a =>
              simp only [hpage] at hbody
              obtain ⟨raw, s4, hload, htest⟩ := bind_eq_ok.mp hbody
              obtain ⟨_, rfl⟩ := loadPage_eq_ok.mp hload
              simp only [run_ite] at htest
              split at htest
              · simp only [run_pure] at htest
                cases htest
                exact ⟨h2, hit2⟩
              · exact ih h2 hit2 htest

theorem ManagedWith.itemIteratorHasNext {it it' : ItemIterator} {hasNext : Bool}
    (h : ManagedWith P pageSize signature self) (hit : 1 ≤ it.pageIterator.nextPageId)
    (hcall : itemIteratorHasNext it self = .ok (hasNext, it') t) :
    ManagedWith P pageSize signature t ∧ 1 ≤ it'.pageIterator.nextPageId := by
  rw [Storage.itemIteratorHasNext] at hcall
  by_cases hreleased : it.isReleased = true
  · simp only [hreleased, if_true, run_bind, run_throw, andThen_error, reduceCtorEq] at hcall
  rw [if_neg hreleased] at hcall
  cases hpage : it.pageIterator.currentPage with
  | none =>
      simp only [hpage, run_pure] at hcall
      cases hcall
      exact ⟨h, hit⟩
  | some a =>
      simp only [hpage] at hcall
      obtain ⟨raw, s1, hload, htest⟩ := bind_eq_ok.mp hcall
      obtain ⟨_, rfl⟩ := loadPage_eq_ok.mp hload
      simp only [run_ite] at htest
      split at htest
      · simp only [run_pure] at htest
        cases htest
        exact ⟨h, hit⟩
      · simp only [run_bind, run_get, andThen_ok] at htest
        exact h.hasNextLoop hit htest

theorem ManagedWith.calculateLargeItemSize {page : PageAddr} {itemId : ItemIndex} {size : Nat}
    (h : ManagedWith P pageSize signature self)
    (hcall : pageManagerCalculateLargeItemSize page itemId self = .ok size t) : t = self := by
  obtain ⟨disk, hd, _⟩ := h
  obtain ⟨raw, hraw⟩ : ∃ raw, findPage self page = some raw := loadPage_of_bind_ok hcall
  obtain ⟨k, p, hk, rfl, _⟩ := hd.cached_page hraw
  exact hd.calculateLargeItemSize_ok hk hraw hcall

theorem ManagedWith.itemIteratorNext {it it' : ItemIterator} {item : Item}
    (h : ManagedWith P pageSize signature self) (hit : 1 ≤ it.pageIterator.nextPageId)
    (hcall : itemIteratorNext it self = .ok (item, it') t) :
    ManagedWith P pageSize signature t ∧ 1 ≤ it'.pageIterator.nextPageId := by
  rw [Storage.itemIteratorNext] at hcall
  obtain ⟨⟨more, it1⟩, s1, hmore, hrest⟩ := bind_eq_ok.mp hcall
  obtain ⟨h1, hit1⟩ := h.itemIteratorHasNext hit hmore
  by_cases hnone : more = false
  · simp only [hnone, if_true, run_bind, run_throw, andThen_error, reduceCtorEq] at hrest
  simp only [hnone, reduceCtorEq, if_false] at hrest
  cases hpage : it1.pageIterator.currentPage with
  | none => simp only [hpage, run_throw, reduceCtorEq] at hrest
  | some a =>
      simp only [hpage] at hrest
      obtain ⟨raw, s2, hload, hbody⟩ := bind_eq_ok.mp hrest
      obtain ⟨_, rfl⟩ := loadPage_eq_ok.mp hload
      split at hbody
      · simp only [run_bind, run_throw, andThen_error, reduceCtorEq] at hbody
      · obtain ⟨size, s3, hsize, hget⟩ := bind_eq_ok.mp hbody
        obtain rfl := h1.calculateLargeItemSize hsize
        obtain ⟨found, s4, hfound, hcheck⟩ := bind_eq_ok.mp hget
        obtain rfl := h1.getItem hfound
        simp only [run_ite, run_bind, run_throw, andThen_error, run_pure] at hcheck
        split at hcheck
        · cases hcheck
        · cases hcheck
          exact ⟨h1, hit1⟩

end Iteration

section Result

variable {self t : PageManager} {pageSize : Nat} {signature : Int} {s s' : Session} {P : List Slot → Page → Prop}

def pageOnDisk (self : PageManager) (k : Nat) : List UInt8 :=
  slice self.fileManager.file.content
    (sizeofFileHeader + k * self.fileManager.header.constants.pageSize)
    self.fileManager.header.constants.pageSize

/-- Nothing is in memory only: what the page manager holds is what the file holds. -/
structure WriteThrough (pm : PageManager) : Prop where
  distinct : (pm.allocatedPages.map fun p => p.rawPage.pageHeader.pageId).Nodup
  cached : ∀ p ∈ pm.allocatedPages, ∃ k : Nat, p.rawPage.pageHeader.pageId = k ∧
    k < pm.fileManager.header.dynamic.pageCount ∧ pageOnDisk pm k = encodePage p.rawPage
  header : slice pm.fileManager.file.content 0 sizeofFileHeader = encodeFileHeader pm.fileManager.header
  stored : ∀ k < pm.fileManager.header.dynamic.pageCount,
    (pageOnDisk pm k).length = pm.fileManager.header.constants.pageSize ∧
      (decodePage (pageOnDisk pm k)).pageHeader.pageId = k
  lastIsFree : pm.fileManager.header.dynamic.currentFreePage =
    (pm.fileManager.header.dynamic.pageCount : Int) - 1
  freeIsCached : ∀ a, pm.currentFreePage = some a → ∃ p ∈ pm.allocatedPages,
    p.addr = a ∧ p.rawPage.pageHeader.pageId = pm.fileManager.header.dynamic.currentFreePage

theorem Opened.pageOnDisk_eq {disk : Disk} (h : Opened self.fileManager disk) {k : Nat} {p : StoredPage}
    (hk : disk.pages[k]? = some p) : pageOnDisk self k = encodePage p.page := by
  rw [pageOnDisk]
  rw [h.content, h.header]
  exact Disk.slice_bytes hk

theorem Coherent.pageOnDisk_eq {disk : Disk} (h : Coherent self disk) {k : Nat} {p : StoredPage}
    (hk : disk.pages[k]? = some p) : pageOnDisk self k = encodePage p.page := h.opened.pageOnDisk_eq hk

theorem Coherent.writeThrough {disk : Disk} (h : Coherent self disk) (hs : Settled disk) :
    WriteThrough self := by
  have hpos := hs.pages_pos
  constructor
  case distinct => exact h.ids
  case cached =>
    intro p hp
    obtain ⟨k, q, hk, hq⟩ := h.cached p hp
    refine ⟨k, by rw [← hq, Disk.pageId_eq hk], ?_, by rw [h.pageOnDisk_eq hk, hq]⟩
    rw [h.opened.header]
    exact Disk.lt_length hk
  case header =>
    rw [h.opened.content, h.opened.header, Disk.bytes, slice_append_left _ _ (by simp),
      ← Disk.length_encodeFileHeader disk.header, slice_zero_length]
  case stored =>
    intro k hk
    rw [h.opened.header] at hk ⊢
    have hpage := List.getElem?_eq_getElem (show k < disk.pages.length from hk)
    rw [h.pageOnDisk_eq hpage, decodePage_encode (Disk.inRange hpage)]
    exact ⟨Disk.length_encodePage hpage, Disk.pageId_eq hpage⟩
  case lastIsFree =>
    rw [h.opened.header]
    simp only [Disk.header, hs.freePage]
    omega
  case freeIsCached =>
    rw [h.opened.header]
    exact h.current

theorem Managed.writeThrough (h : Managed pageSize signature self) : WriteThrough self := by
  obtain ⟨disk, hd, hs, _⟩ := h
  exact hd.writeThrough hs

theorem ManagedWith.init (hP : PageInvariant P) (hsig : IsInt32 signature) (hmin : sizeofPageHeader ≤ pageSize)
    (hmax : pageSize < 2 ^ 32) {res : Result Unit}
    (hinit : pageManagerInit pageSize signature (pageManagerNew (fileOpen none noFaults)) = .ok res t)
    (hbelow : FileBelow t) : ManagedWith P pageSize signature t := by
  obtain ⟨hnew, hover⟩ := pageManagerInit_new hsig hmin hmax
  by_cases hroom : sizeofFileHeader + pageSize < 2 ^ 32
  · obtain ⟨u, hrun, hu⟩ := hnew hroom
    rw [hrun] at hinit
    cases hinit
    refine ⟨_, hu, freshDisk_settled hsig hmin hroom, ?_, rfl, rfl⟩
    intro k p hk
    obtain rfl := List.mem_singleton.mp (List.mem_of_getElem? (show [nextPage _][k]? = some p from hk))
    exact hP.fresh _ _
  · have hbig := hover hroom
    rw [hinit] at hbig
    exact absurd hbig hbelow.not_atLeast

structure Kept (P : List Slot → Page → Prop) (pageSize : Nat) (signature : Int) (s : Session) : Prop where
  managed : ManagedWith P pageSize signature s.manager
  pageIterators : ∀ it ∈ s.pageIterators, 1 ≤ it.nextPageId
  itemIterators : ∀ it ∈ s.itemIterators, 1 ≤ it.pageIterator.nextPageId

theorem Kept.call (hP : PageInvariant P) (h : Kept P pageSize signature s) (hcall : Call s s')
    (hbelow : FileBelow s'.manager) : Kept P pageSize signature s' := by
  cases hcall with
  | getPageForData hrun =>
      exact ⟨h.managed.getPageForData hP hrun hbelow, h.pageIterators, h.itemIterators⟩
  | putItem h0 hn hrun =>
      exact ⟨h.managed.putItem hP h0 hn hrun hbelow, h.pageIterators, h.itemIterators⟩
  | deleteItem hrun => exact ⟨h.managed.deleteItem hP hrun, h.pageIterators, h.itemIterators⟩
  | getItem hrun => exact ⟨(h.managed.getItem hrun) ▸ h.managed, h.pageIterators, h.itemIterators⟩
  | freePages hrun => exact ⟨h.managed.freePages hrun, h.pageIterators, h.itemIterators⟩
  | pageIteratorNew hrun =>
      obtain ⟨ht, hit⟩ := h.managed.pageIteratorNew hrun
      exact ⟨ht, List.forall_mem_cons.mpr ⟨hit, h.pageIterators⟩, h.itemIterators⟩
  | pageIteratorHasNext _ hrun =>
      exact ⟨(ManagedWith.pageIteratorHasNext hrun) ▸ h.managed, h.pageIterators, h.itemIterators⟩
  | pageIteratorNext hmem hrun =>
      obtain ⟨ht, hit⟩ := h.managed.pageIteratorNext (h.pageIterators _ hmem) hrun
      exact ⟨ht, List.forall_mem_cons.mpr ⟨hit, h.pageIterators⟩, h.itemIterators⟩
  | pageIteratorDestroy _ hrun => exact ⟨h.managed.freePages hrun, h.pageIterators, h.itemIterators⟩
  | itemIteratorNew hrun =>
      obtain ⟨it, s1, hpage, hpure⟩ := bind_eq_ok.mp hrun
      obtain ⟨ht, hit⟩ := h.managed.pageIteratorNew hpage
      simp only [run_pure] at hpure
      cases hpure
      exact ⟨ht, h.pageIterators, List.forall_mem_cons.mpr ⟨hit, h.itemIterators⟩⟩
  | itemIteratorHasNext hmem hrun =>
      obtain ⟨ht, hit⟩ := h.managed.itemIteratorHasNext (h.itemIterators _ hmem) hrun
      exact ⟨ht, h.pageIterators, List.forall_mem_cons.mpr ⟨hit, h.itemIterators⟩⟩
  | itemIteratorNext hmem hrun =>
      obtain ⟨ht, hit⟩ := h.managed.itemIteratorNext (h.itemIterators _ hmem) hrun
      exact ⟨ht, h.pageIterators, List.forall_mem_cons.mpr ⟨hit, h.itemIterators⟩⟩
  | @itemIteratorDestroy it it' t hmem hrun =>
      rw [itemIteratorDestroy] at hrun
      by_cases hreleased : it.isReleased = true
      · simp only [hreleased, if_true, run_bind, run_throw, andThen_error, reduceCtorEq] at hrun
      rw [if_neg hreleased] at hrun
      obtain ⟨_, s1, hfree, hpure⟩ := bind_eq_ok.mp hrun
      simp only [run_pure] at hpure
      cases hpure
      exact ⟨h.managed.freePages hfree, h.pageIterators,
        List.forall_mem_cons.mpr ⟨h.itemIterators it hmem, h.itemIterators⟩⟩

theorem ManagedWith.reopen (h : ManagedWith P pageSize signature self) (pageSize' : Nat) :
    ∃ t, pageManagerInit pageSize' signature
        (pageManagerNew (fileOpen (some self.fileManager.file.content) noFaults)) = .ok (.ok ()) t ∧
      ManagedWith P pageSize signature t ∧ t.fileManager.header = self.fileManager.header ∧
      t.fileManager.file.content = self.fileManager.file.content ∧ t.currentFreePage ≠ none := by
  obtain ⟨disk, hd, hs, hpages, hsize, hsig⟩ := h
  obtain ⟨t, a, page, hinit, ht, hcurrent, _⟩ := pageManagerInit_existing hs pageSize'
  rw [hsig, ← hd.opened.content] at hinit
  refine ⟨t, hinit, ⟨disk, ht, hs, hpages, hsize, hsig⟩, ?_, ?_, by simp [hcurrent]⟩
  · rw [ht.opened.header, hd.opened.header]
  · rw [ht.opened.content, hd.opened.content]

theorem ReachableSession.sizeofPageHeader_le (hmax : pageSize < 2 ^ 32) (h : ReachableSession pageSize signature s) :
    sizeofPageHeader ≤ pageSize := by
  induction h with
  | init hinit _ => exact pageManagerInit_ok_le hmax hinit
  | call _ _ _ ih => exact ih
  | reopen _ _ ih => exact ih

theorem ReachableSession.kept (hP : PageInvariant P) (hsig : IsInt32 signature) (hmin : sizeofPageHeader ≤ pageSize)
    (hmax : pageSize < 2 ^ 32) (h : ReachableSession pageSize signature s) :
    Kept P pageSize signature s := by
  induction h with
  | init hinit hbelow => exact ⟨.init hP hsig hmin hmax hinit hbelow, by simp, by simp⟩
  | call _ hcall hbelow ih => exact ih.call hP hcall hbelow
  | reopen _ hinit ih =>
      obtain ⟨t, hrun, ht, _⟩ := ih.managed.reopen _
      rw [hrun] at hinit
      cases hinit
      exact ⟨ht, by simp, by simp⟩

/-- In every reachable session the cache agrees with the file. So the cache can
be dropped, and the file can be opened again with any page size: the bytes of
the file, its page count, its page size and its current free page stay. -/
theorem reachableSession_writeThrough (hsig : IsInt32 signature) (hmin : sizeofPageHeader ≤ pageSize)
    (hmax : pageSize < 2 ^ 31) (h : ReachableSession pageSize signature s) :
    WriteThrough s.manager ∧
    (∃ t, pageManagerFreePages s.manager = .ok () t ∧ WriteThrough t ∧
      t.fileManager = s.manager.fileManager) ∧
    ∀ pageSize' : Nat, ∃ t, pageManagerInit pageSize' signature
        (pageManagerNew (fileOpen (some s.manager.fileManager.file.content) noFaults)) = .ok (.ok ()) t ∧
      WriteThrough t ∧ t.fileManager.header = s.manager.fileManager.header ∧
      t.fileManager.file.content = s.manager.fileManager.file.content ∧ t.currentFreePage ≠ none := by
  have hkept := (h.kept pageInvariant_true hsig hmin (by omega)).managed
  refine ⟨hkept.managed.writeThrough, ?_, fun pageSize' => ?_⟩
  · exact ⟨_, rfl, (hkept.freePages rfl).managed.writeThrough, rfl⟩
  · obtain ⟨t, hinit, ht, hheader, hcontent, hfree⟩ := hkept.reopen pageSize'
    exact ⟨t, hinit, ht.managed.writeThrough, hheader, hcontent, hfree⟩

end Result

section Busy

/-- An item is put on each of two pages of 64 bytes, and an iterator goes to the first of them, which is
then deleted. -/
def busyCalls : PageManagerM ItemIterator := do
  let _ ← short (pageManagerInit 64 7)
  let first ← short pageManagerGetPageForData
  let _ ← short (pageManagerPutItem first (List.replicate 15 1))
  let second ← short pageManagerGetPageForData
  let _ ← short (pageManagerPutItem second [2])
  let it ← short pageManagerGetItems
  let (item, it) ← short (itemIteratorNext it)
  let _ ← short (pageManagerDeleteItem first item)
  return it

theorem busyCalls_session {it : ItemIterator} {t : PageManager}
    (hcalls : busyCalls (pageManagerNew (fileOpen none noFaults)) = .ok it t) :
    ∃ new, ReachableSession 64 7 ⟨t, [], [it, new]⟩ ∧ FileBelow t := by
  obtain ⟨_, _, hstep, hcalls⟩ := bind_eq_ok.mp hcalls
  have hsession := ReachableSession.init (short_eq_ok hstep).1 (short_eq_ok hstep).2
  obtain ⟨first, _, hstep, hcalls⟩ := bind_eq_ok.mp hcalls
  replace hsession := hsession.call (.getPageForData (short_eq_ok hstep).1) (short_eq_ok hstep).2
  obtain ⟨_, _, hstep, hcalls⟩ := bind_eq_ok.mp hcalls
  replace hsession := hsession.call (.putItem (by decide) (by decide) (short_eq_ok hstep).1) (short_eq_ok hstep).2
  obtain ⟨second, _, hstep, hcalls⟩ := bind_eq_ok.mp hcalls
  replace hsession := hsession.call (.getPageForData (short_eq_ok hstep).1) (short_eq_ok hstep).2
  obtain ⟨_, _, hstep, hcalls⟩ := bind_eq_ok.mp hcalls
  replace hsession := hsession.call (.putItem (by decide) (by decide) (short_eq_ok hstep).1) (short_eq_ok hstep).2
  obtain ⟨new, _, hstep, hcalls⟩ := bind_eq_ok.mp hcalls
  replace hsession := hsession.call (.itemIteratorNew (short_eq_ok hstep).1) (short_eq_ok hstep).2
  obtain ⟨⟨item, moved⟩, _, hstep, hcalls⟩ := bind_eq_ok.mp hcalls
  replace hsession := hsession.call (.itemIteratorNext List.mem_cons_self (short_eq_ok hstep).1) (short_eq_ok hstep).2
  obtain ⟨_, _, hstep, hcalls⟩ := bind_eq_ok.mp hcalls
  cases hcalls
  exact ⟨new, hsession.call (.deleteItem (short_eq_ok hstep).1) (short_eq_ok hstep).2, (short_eq_ok hstep).2⟩

/-- Puts, an iterator, a delete and a dropped cache. -/
theorem reachableSession_writeThrough_64 :
    ∃ s, ReachableSession 64 7 s ∧ pageManagerGetPagesCount s.manager = 2 ∧ s.itemIterators.length = 2 ∧
      s.manager.allocatedPages = [] ∧ WriteThrough s.manager := by
  obtain ⟨it, hcalls⟩ := exists_of_returned
    (show (returned (busyCalls (pageManagerNew (fileOpen none noFaults)))).isOk = true by decide +kernel)
  have hcount : pageManagerGetPagesCount (final (busyCalls (pageManagerNew (fileOpen none noFaults)))) = 2 := by
    decide +kernel
  generalize final (busyCalls (pageManagerNew (fileOpen none noFaults))) = last at hcalls hcount
  obtain ⟨new, hsession, hbelow⟩ := busyCalls_session hcalls
  have hdropped := hsession.call (.freePages rfl) hbelow
  exact ⟨_, hdropped, hcount, rfl, rfl, (reachableSession_writeThrough ⟨by decide, by decide⟩ (by decide) (by decide)
    hdropped).1⟩

end Busy

end DocumentDb.Storage
