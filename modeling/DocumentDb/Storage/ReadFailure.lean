import DocumentDb.Storage.Cache
import DocumentDb.Storage.StoreScan

namespace DocumentDb.Storage

open Bytes Program

section Caching

variable {self t : PageManager} {disk : Disk} {k : Nat} {p : StoredPage} {a : PageAddr}

/-- The file holds the bytes of the disk. The cache is sound, but nothing is said about the bytes of its pages. -/
structure Caching (pm : PageManager) (disk : Disk) : Prop where
  sound : SoundCache pm
  opened : Opened pm.fileManager disk
  current : ∀ a, pm.currentFreePage = some a →
    ∃ p ∈ pm.allocatedPages, p.addr = a ∧ p.rawPage.pageHeader.pageId = disk.freePage

structure CacheAgrees (pm : PageManager) : Prop where
  distinct : (pm.allocatedPages.map fun p => p.rawPage.pageHeader.pageId).Nodup
  cached : ∀ p ∈ pm.allocatedPages, ∃ k : Nat, p.rawPage.pageHeader.pageId = k ∧ k < pageManagerGetPagesCount pm ∧
    p.rawPage = decodePage (pageOnDisk pm k)
  count : pm.allocatedPagesCount = pm.allocatedPages.length

theorem Coherent.caching (h : Coherent self disk) : Caching self disk where
  sound := by
    refine ⟨h.opened.reliable.isOpen, ?_, h.count.le, h.addrs, h.fresh, fun a ha => ?_⟩
    · rw [h.opened.pageSize_eq]
      exact disk.sizeofPageHeader_le
    · obtain ⟨p, hp, rfl, _⟩ := h.current a ha
      exact ⟨p.rawPage, h.findPage_of_mem hp⟩
  opened := h.opened
  current := h.current

theorem Opened.decodePage_pageOnDisk (h : Opened self.fileManager disk) (hk : disk.pages[k]? = some p) :
    decodePage (pageOnDisk self k) = p.page := by
  rw [h.pageOnDisk_eq hk, decodePage_encode (Disk.inRange hk)]

theorem Caching.coherent (h : Caching self disk) (hagrees : CacheAgrees self) : Coherent self disk where
  opened := h.opened
  cached q hq := by
    obtain ⟨k, _, hk, hpage⟩ := hagrees.cached q hq
    rw [h.opened.pagesCount_eq] at hk
    have hp := List.getElem?_eq_getElem hk
    exact ⟨k, _, hp, by rw [hpage, h.opened.decodePage_pageOnDisk hp]⟩
  ids := hagrees.distinct
  addrs := h.sound.addrs
  fresh := h.sound.fresh
  count := hagrees.count
  current := h.current

theorem Caching.pageSize_eq (h : Caching self.calm disk) : pageManagerGetPageSize self = disk.pageSize := by
  have heq := h.opened.pageSize_eq
  exact heq

theorem Caching.pagesCount_eq (h : Caching self.calm disk) : pageManagerGetPagesCount self = disk.pages.length := by
  have heq := h.opened.pagesCount_eq
  exact heq

theorem Caching.pageOffset_eq (h : Caching self.calm disk) (hk : k ≤ disk.pages.length) :
    pageManagerGetPageOffset self k = sizeofFileHeader + k * disk.pageSize := by
  have heq := h.opened.pageOffset_eq hk
  exact heq

theorem Caching.decodePage_pageOnDisk (h : Caching self.calm disk) (hk : disk.pages[k]? = some p) :
    decodePage (pageOnDisk self k) = p.page := by
  have heq := h.opened.decodePage_pageOnDisk hk
  exact heq

theorem Caching.readableAt_iff (h : Caching self.calm disk) (hk : disk.pages[k]? = some p) :
    ReadableAt self k ↔ self.fileManager.file.faults self.fileManager.file.accesses = none := by
  have hoffset := h.pageOffset_eq (Disk.lt_length hk).le
  have hsize := h.pageSize_eq
  have hcontent : self.fileManager.file.content = disk.bytes := h.opened.content
  have hend := Disk.offset_le hk
  have hsmall := disk.small
  have hlen := disk.length_bytes
  rw [ReadableAt, hoffset, hsize, hcontent]
  refine and_iff_left ⟨?_, hend⟩
  omega

theorem Caching.decodePage_bytesAt (h : Caching self.calm disk) (hk : disk.pages[k]? = some p) :
    decodePage (bytesAt self k) = p.page := by
  have hoffset := h.pageOffset_eq (Disk.lt_length hk).le
  have hsize := h.pageSize_eq
  have hcontent : self.fileManager.file.content = disk.bytes := h.opened.content
  rw [bytesAt, hoffset, hsize, hcontent, Disk.slice_bytes hk, decodePage_encode (Disk.inRange hk)]

theorem SoundCache.calm (h : SoundCache self) : SoundCache self.calm := h.withFaults noFaults

theorem Caching.withRead (h : Caching self.calm disk) (hsound : SoundCache self) (bytes : List UInt8) :
    Caching (self.withRead bytes).calm disk := by
  refine ⟨(hsound.withRead bytes).calm, h.opened.accessed, fun a ha => ?_⟩
  obtain ⟨q, hq, haddr, hid⟩ := h.current a ha
  exact ⟨q, List.mem_cons_of_mem _ hq, haddr, hid⟩

theorem Caching.soundCache (h : Caching self.calm disk) : SoundCache self := h.sound.withFaults _

theorem keptByReads_caching (disk : Disk) : KeptByReads fun s : PageManager => Caching s.calm disk where
  readPage k self h := by
    have hsound := h.soundCache
    by_cases hguard : toInt32 (pageManagerGetPagesCount self) ≤ k
    · rw [pageManagerReadPage]
      simp only [run_bind, run_get, andThen_ok, if_pos hguard, run_throw, andThen_error, final_error]
      exact h
    cases hcached : cachedPage self k with
    | some p =>
        rw [hsound.readPage_cached hguard hcached]
        exact h
    | none =>
        by_cases hread : ReadableAt self k
        · rw [hsound.readPage_readable hguard hcached hread]
          exact h.withRead hsound _
        · obtain ⟨message, bytes, hrun⟩ := hsound.readPage_unreadable hguard hcached hread
          rw [hrun]
          exact h.withRead hsound _
  freePages self h := by
    obtain ⟨t, hfree, ht⟩ := h.opened.freePages
    cases hfree
    exact ht.caching

end Caching

section FirstPage

variable {self t : PageManager} {disk : Disk} {p : StoredPage}

/-- The first page, if it is in the cache, is there as it is in the file. -/
def FirstPageFaithful (pm : PageManager) : Prop :=
  ∀ p, cachedPage pm 0 = some p → p.rawPage = decodePage (pageOnDisk pm 0)

/-- A scan gets at the first page: from the cache, or by an access that does not fail. -/
structure FirstPageAvailable (pm : PageManager) : Prop where
  faithful : FirstPageFaithful pm
  served : cachedPage pm 0 = none → pm.fileManager.file.faults pm.fileManager.file.accesses = none

theorem FirstPageFaithful.not_available (h : FirstPageFaithful self) (hblind : ¬FirstPageAvailable self) :
    cachedPage self 0 = none ∧ self.fileManager.file.faults self.fileManager.file.accesses ≠ none := by
  by_contra hno
  apply hblind
  refine ⟨h, fun hcached => ?_⟩
  by_contra hfault
  exact hno ⟨hcached, hfault⟩

theorem firstPageFaithful_of_empty (h : self.allocatedPages = []) : FirstPageFaithful self := by
  intro p hp
  simp [cachedPage, h] at hp

theorem itemIteratorDestroy_faithful {it it' : ItemIterator} (hrun : itemIteratorDestroy it self = .ok it' t) :
    FirstPageFaithful t := by
  obtain ⟨halive, _, _⟩ := itemIteratorDestroy_ok hrun
  rw [itemIteratorDestroy, halive] at hrun
  cases hrun
  exact firstPageFaithful_of_empty rfl

theorem itemIteratorNew_eq (hcount : pageManagerGetPagesCount self ≠ 0) {res : Result PageAddr}
    (hread : pageManagerReadPage 0 self = .ok res t) :
    itemIteratorNew self = .ok ⟨⟨1, res.toOption⟩, -1, false⟩ t := by
  rw [itemIteratorNew, pageIteratorNew]
  simp only [run_bind, run_get, andThen_ok, if_neg hcount, hread, run_pure]

theorem trusted_itemIteratorNew :
    Trusted (fun it => it.pageIterator.currentPage ≠ none) itemIteratorNew := by
  apply Tracks.bind (P := fun it => it.currentPage ≠ none)
  · apply Tracks.get
    · intro s
      rfl
    intro s
    apply Tracks.ite
    · exact Tracks.throw_bind _
    apply (trusted_readPage 0).bind
    · intro res _
      exact Tracks.pure _
    · rintro (_ | page) s it t hbad hrun
      · cases hrun
        exact fun hne => hne rfl
      · exact absurd ⟨page, rfl⟩ hbad
  · intro it _
    exact Tracks.pure _
  · intro pageIterator s it t hbad hrun hne
    cases hrun
    exact hbad hne

theorem Caching.guard_first (h : Caching self.calm disk) (hp : disk.pages[0]? = some p) :
    ¬toInt32 (pageManagerGetPagesCount self) ≤ 0 ∧ pageManagerGetPagesCount self ≠ 0 := by
  have hcount := h.pagesCount_eq
  have hpages := disk.length_pages_lt
  have hpos := Disk.lt_length hp
  rw [hcount, toInt32_natCast (by omega)]
  omega

theorem Caching.itemIteratorNew_available (h : Caching self.calm disk) (hp : disk.pages[0]? = some p)
    (havailable : FirstPageAvailable self) :
    ∃ a t, itemIteratorNew self = .ok ⟨⟨1, some a⟩, -1, false⟩ t ∧ findPage t a = some p.page := by
  obtain ⟨hguard, hcount⟩ := h.guard_first hp
  have hsound := h.soundCache
  cases hcached : cachedPage self 0 with
  | some q =>
      have hpage := havailable.faithful q hcached
      have hfile := h.decodePage_pageOnDisk hp
      refine ⟨q.addr, self, itemIteratorNew_eq hcount (hsound.readPage_cached hguard hcached), ?_⟩
      rw [findPage_of_mem hsound.addrs (cachedPage_mem hcached), hpage, hfile]
  | none =>
      have hread := hsound.readPage_readable hguard hcached ((h.readableAt_iff hp).mpr (havailable.served hcached))
      have hbytes : decodePage (bytesAt self 0) = p.page := h.decodePage_bytesAt hp
      refine ⟨self.nextAddr, _, itemIteratorNew_eq hcount hread, ?_⟩
      rw [show findPage (self.withRead (bytesAt self 0)) self.nextAddr = _ from findPage_withAllocated self _, hbytes]

theorem Caching.itemIteratorNew_blind (h : Caching self.calm disk) (hp : disk.pages[0]? = some p)
    (hcached : cachedPage self 0 = none) (hblind : self.fileManager.file.faults self.fileManager.file.accesses ≠ none) :
    ∃ t, itemIteratorNew self = .ok ⟨⟨1, none⟩, -1, false⟩ t ∧ t.fileManager = self.fileManager.accessed := by
  obtain ⟨hguard, hcount⟩ := h.guard_first hp
  have hunreadable : ¬ReadableAt self 0 := fun hread => hblind ((h.readableAt_iff hp).mp hread)
  obtain ⟨message, bytes, hread⟩ := h.soundCache.readPage_unreadable hguard hcached hunreadable
  exact ⟨_, itemIteratorNew_eq hcount hread, rfl⟩

end FirstPage

section Scans

variable {self t : PageManager} {disk : Disk} {p : StoredPage} {it : ItemIterator} {γ : Type}
  {body : γ → Item → Except Fault (ForInStep γ)} {acc : γ} {r : γ × ItemIterator}

/-- A scan that has started on the first page returns only if no access has failed, and it has met the slots of
the disk. -/
theorem Caching.scanItems_available (h : Caching self.calm disk) (hs : Settled disk) (hc : AllCounted disk)
    (havailable : FirstPageAvailable self) (hrun : scanItems body acc self = .ok r t) :
    Unfailing self t ∧ ∃ stop, runVisits body acc (visits disk.slots) = .ok (r.1, stop) := by
  obtain ⟨p, hp⟩ : ∃ p, disk.pages[0]? = some p := ⟨_, List.getElem?_eq_getElem hs.pages_pos⟩
  obtain ⟨it, s, hnew, hwhile⟩ := bind_eq_ok.mp hrun
  obtain ⟨a, s', hnew', ha⟩ := h.itemIteratorNew_available hp havailable
  rw [pageManagerGetItems, hnew'] at hnew
  cases hnew
  obtain ⟨hfirst, hcalm⟩ := trusted_itemIteratorNew self _ _ hnew' (Option.some_ne_none a)
  obtain ⟨hrest, hcalm'⟩ := trusted_whileItems body acc _ (P := fun _ => True) s r t hwhile trivial
  refine ⟨IsTrans.trans _ _ _ hfirst hrest, ?_⟩
  have hstart : Caching s.calm disk := (keptByReads_caching disk).itemIteratorNew.ok h hnew'
  have hat : At s.calm disk ⟨⟨1, some a⟩, -1, false⟩ 0 0 p :=
    ⟨hp, ⟨a, rfl, ha⟩, rfl, Nat.zero_le _, rfl⟩
  have hends := hat.whileItems_eq body acc hstart.opened False.elim hc
  unfold Ends at hends
  rw [hcalm'] at hends
  split at hends
  · rename_i acc' stop hvisits
    obtain ⟨it', u, heq, _⟩ := hends
    cases heq
    exact ⟨stop, hvisits⟩
  · obtain ⟨u, heq⟩ := hends
    cases heq

/-- A scan that has started on no page is over at once. -/
theorem Caching.scanItems_blind (h : Caching self.calm disk) (hp : disk.pages[0]? = some p)
    (hcached : cachedPage self 0 = none) (hblind : self.fileManager.file.faults self.fileManager.file.accesses ≠ none)
    (body : γ → Item → Except Fault (ForInStep γ)) (acc : γ) :
    ∃ t, scanItems body acc self = .ok (acc, ⟨⟨1, none⟩, -1, false⟩) t ∧
      t.fileManager = self.fileManager.accessed := by
  obtain ⟨t, hnew, ht⟩ := h.itemIteratorNew_blind hp hcached hblind
  refine ⟨t, ?_, ht⟩
  simp only [scanItems, pageManagerGetItems, whileItems, whileItemsLoop, itemIteratorHasNext, run_bind, run_get, hnew,
    andThen_ok, reduceCtorEq, if_false, if_true, run_pure]

end Scans

section Runs

inductive Reading : (α : Type) → PageManagerM α → Prop
  | readPage (k : Int) : Reading _ (pageManagerReadPage k)
  | getItem (page : PageAddr) (itemId : ItemIndex) : Reading _ (pageManagerGetItem page itemId)
  | freePages : Reading _ pageManagerFreePages
  | pageIteratorNew : Reading _ pageIteratorNew
  | pageIteratorNext (it : PageIterator) : Reading _ (pageIteratorNext it)
  | itemIteratorNew : Reading _ pageManagerGetItems
  | itemIteratorHasNext (it : ItemIterator) : Reading _ (itemIteratorHasNext it)
  | itemIteratorNext (it : ItemIterator) : Reading _ (itemIteratorNext it)
  | itemIteratorDestroy (it : ItemIterator) : Reading _ (itemIteratorDestroy it)
  | scan {γ : Type} (body : γ → Item → Except Fault (ForInStep γ)) (acc : γ) : Reading _ (scanItems body acc)

theorem KeptByReads.reading {P : PageManager → Prop} (h : KeptByReads P) {α : Type} {x : PageManagerM α}
    (hx : Reading α x) : Keeps P x := by
  cases hx with
  | readPage k => exact h.readPage k
  | getItem page itemId => exact h.getItem page itemId
  | freePages => exact h.freePages
  | pageIteratorNew => exact h.pageIteratorNew
  | pageIteratorNext it => exact h.pageIteratorNext it
  | itemIteratorNew => exact h.itemIteratorNew
  | itemIteratorHasNext it => exact h.itemIteratorHasNext it
  | itemIteratorNext it => exact h.itemIteratorNext it
  | itemIteratorDestroy it => exact h.itemIteratorDestroy it
  | scan body acc => exact h.scanItems body acc

/-- A run in which pages cannot always be read. At any time the environment may decide anew which accesses fail
from then on, and any reading may go wrong. An item is put or deleted only while the cache agrees with the file,
and no access fails there, or when the file is opened again: a failed read would end the program. -/
inductive FaultyRun (pageSize : Nat) (signature : Int) :
    PageManager → (ItemIndex → Option ItemPayload) → Prop
  | start {s m} : MapRun pageSize signature s m → FaultyRun pageSize signature s m
  | faults {s m} (faults : Nat → Option IoFault) : FaultyRun pageSize signature s m →
      FaultyRun pageSize signature (s.withFaults faults) m
  | reading {s m t} {α : Type} {x : PageManagerM α} {a : α} : FaultyRun pageSize signature s m → Reading α x →
      x s = .ok a t → FaultyRun pageSize signature t m
  | put {s m payload res t} : FaultyRun pageSize signature s m → s.calm = s → CacheAgrees s → 0 < payload.length →
      payload.length + sizeofPageHeader + sizeofItemMetadata ≤ pageSize →
      putData payload s = .ok res t → FileBelow t →
      FaultyRun pageSize signature t (Function.update m res.metadata.itemId (some payload))
  | delete {s m a item item' t} : FaultyRun pageSize signature s m → s.calm = s → CacheAgrees s → m item.id ≠ none →
      item.isDeleted = false → PointsTo s a item.id.pageId → pageManagerDeleteItem a item s = .ok item' t →
      FaultyRun pageSize signature t (Function.update m item.id none)
  | reopen {s m res t} (pageSize' : Nat) : FaultyRun pageSize signature s m →
      pageManagerInit pageSize' signature
        (pageManagerNew (fileOpen (some s.fileManager.file.content) noFaults)) = .ok res t →
      FaultyRun pageSize signature t m

variable {s t u : PageManager} {signature : Int} {pageSize : Nat} {store : List (List Slot)}
  {m : ItemIndex → Option ItemPayload} {it it' : ItemIterator} {γ : Type}
  {body : γ → Item → Except Fault (ForInStep γ)} {acc : γ} {r : γ × ItemIterator}

def Saves (signature : Int) (pageSize : Nat) (store : List (List Slot)) (self : PageManager) : Prop :=
  ∃ disk, Caching self disk ∧ Settled disk ∧ AllCounted disk ∧ disk.pageSize = pageSize ∧
    disk.signature = signature ∧ disk.slots = store

theorem Stores.saves (h : Stores signature pageSize store s) : Saves signature pageSize store s := by
  obtain ⟨disk, hd, hrest⟩ := h
  exact ⟨disk, hd.caching, hrest⟩

theorem Stores.saves_calm (h : Stores signature pageSize store s) : Saves signature pageSize store s.calm := by
  have hcalm : s.calm = s := by
    obtain ⟨disk, hd, _⟩ := h
    exact hd.calm_eq
  rw [hcalm]
  exact h.saves

theorem Saves.stores (h : Saves signature pageSize store s.calm) (hcalm : s.calm = s) (hagrees : CacheAgrees s) :
    Stores signature pageSize store s := by
  obtain ⟨disk, hd, hrest⟩ := h
  rw [hcalm] at hd
  exact ⟨disk, hd.coherent hagrees, hrest⟩

theorem Saves.freed (h : Saves signature pageSize store s) :
    ∃ t, pageManagerFreePages s = .ok () t ∧ Stores signature pageSize store t ∧
      t.fileManager.file.content = s.fileManager.file.content := by
  obtain ⟨disk, hd, hrest⟩ := h
  obtain ⟨t, hfree, ht⟩ := hd.opened.freePages
  refine ⟨t, hfree, ⟨disk, ht, hrest⟩, ?_⟩
  cases hfree
  rfl

theorem Saves.reopen_ok (h : Saves signature pageSize store s.calm) {pageSize' : Nat} {res : Result Unit}
    (hinit : pageManagerInit pageSize' signature
      (pageManagerNew (fileOpen (some s.fileManager.file.content) noFaults)) = .ok res t) :
    Stores signature pageSize store t := by
  obtain ⟨u, _, hu, hcontent⟩ := h.freed
  have hsame : u.fileManager.file.content = s.fileManager.file.content := hcontent
  rw [← hsame] at hinit
  exact hu.reopen_ok hinit

theorem keptByReads_saves : KeptByReads fun s : PageManager => Saves signature pageSize store s.calm where
  readPage k self h := by
    obtain ⟨disk, hd, hrest⟩ := h
    exact ⟨disk, (keptByReads_caching disk).readPage k self hd, hrest⟩
  freePages self h := by
    obtain ⟨disk, hd, hrest⟩ := h
    exact ⟨disk, (keptByReads_caching disk).freePages self hd, hrest⟩

/-- Whatever reads fail, the file holds the map that the puts and deletes describe. -/
theorem FaultyRun.saves (hsig : IsInt32 signature) (hmax : pageSize < 2 ^ 31) (h : FaultyRun pageSize signature s m) :
    ∃ store, Saves signature pageSize store s.calm ∧ liveBytes store = m := by
  induction h with
  | start hrun =>
      obtain ⟨store, hs, hm⟩ := hrun.stores hsig hmax
      exact ⟨store, hs.saves_calm, hm⟩
  | faults _ _ ih => exact ih
  | reading _ hx hrun ih =>
      obtain ⟨store, hs, hm⟩ := ih
      exact ⟨store, (keptByReads_saves.reading hx).ok hs hrun, hm⟩
  | put _ hcalm hagrees h0 hfit hput hbelow ih =>
      obtain ⟨store, hs, rfl⟩ := ih
      obtain ⟨store', ht, hm⟩ := (hs.stores hcalm hagrees).put_update hmax h0 hfit hput hbelow
      exact ⟨store', ht.saves_calm, hm⟩
  | delete _ hcalm hagrees hlive hfresh ha hdelete ih =>
      obtain ⟨store, hs, rfl⟩ := ih
      obtain ⟨store', ht, hm⟩ := (hs.stores hcalm hagrees).delete_update hlive hfresh ha hdelete
      exact ⟨store', ht.saves_calm, hm⟩
  | reopen pageSize' _ hinit ih =>
      obtain ⟨store, hs, hm⟩ := ih
      exact ⟨store, (hs.reopen_ok hinit).saves_calm, hm⟩

/-- A scan that starts on the first page of the file. -/
theorem Saves.scan_available (h : Saves signature pageSize store s.calm) (havailable : FirstPageAvailable s)
    (hrun : scanItems body acc s = .ok r t) :
    Unfailing s t ∧ ∃ stop, runVisits body acc (visits store) = .ok (r.1, stop) := by
  obtain ⟨disk, hd, hs, hc, _, _, rfl⟩ := h
  exact hd.scanItems_available hs hc havailable hrun

theorem Saves.storedItems_eq (h : Saves signature pageSize store s.calm) : storedItems s = liveItems store := by
  obtain ⟨disk, hd, _, _, _, _, rfl⟩ := h
  have hitems := hd.opened.storedItems_eq
  exact hitems

end Runs

section Reports

variable {s t : PageManager} {signature : Int} {pageSize : Nat} {store : List (List Slot)} {γ : Type}
  {body : γ → Item → Except Fault (ForInStep γ)} {acc acc' : γ} {vs : List (ItemIndex × Slot)} {stop : Option ItemIndex}

/-- A scan that does not get at the first page reports nothing. -/
theorem Saves.scan_blind (h : Saves signature pageSize store s.calm) (hfaithful : FirstPageFaithful s)
    (hblind : ¬FirstPageAvailable s) (body : γ → Item → Except Fault (ForInStep γ)) (acc : γ) :
    ∃ it t, scanItems body acc s = .ok (acc, it) t ∧ t.fileManager = s.fileManager.accessed := by
  obtain ⟨disk, hd, hs, _⟩ := h
  obtain ⟨hcached, hfault⟩ := hfaithful.not_available hblind
  obtain ⟨t, hscan, ht⟩ := hd.scanItems_blind (List.getElem?_eq_getElem hs.pages_pos) hcached hfault body acc
  exact ⟨_, t, hscan, ht⟩

end Reports

end DocumentDb.Storage
