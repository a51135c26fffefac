import DocumentDb.Storage.Keeping
import DocumentDb.Storage.Writes

namespace DocumentDb.Storage

open Bytes Program

/-- What the cache is like whatever has failed before: every pointer handed out belongs to one page, and
the current free page is one of them. Nothing is said about the bytes of the pages. -/
structure SoundCache (pm : PageManager) : Prop where
  isOpen : pm.fileManager.file.isOpen = true
  pageSize : sizeofPageHeader ≤ pageManagerGetPageSize pm
  count_le : pm.allocatedPagesCount ≤ pm.allocatedPages.length
  addrs : (pm.allocatedPages.map AllocatedPage.addr).Nodup
  fresh : ∀ p ∈ pm.allocatedPages, p.addr < pm.nextAddr
  current : ∀ a, pm.currentFreePage = some a → ∃ page, findPage pm a = some page

def cachedPage (pm : PageManager) (k : Int) : Option AllocatedPage :=
  (pm.allocatedPages.take pm.allocatedPagesCount).find? fun p => p.rawPage.pageHeader.pageId = k

section Reads

variable {self t : PageManager} {k : Int} {page : Page} {a : PageAddr}

theorem cachedPage_mem {p : AllocatedPage} (h : cachedPage self k = some p) : p ∈ self.allocatedPages :=
  List.mem_of_mem_take (List.mem_of_find?_eq_some h)

theorem SoundCache.getPageFromRam_eq (h : SoundCache self) (k : Int) :
    pageManagerGetPageFromRam k self = .ok (match cachedPage self k with
      | some p => .ok p.addr
      | none => .error "Page not found in ram") self := by
  rw [pageManagerGetPageFromRam]
  simp only [run_bind, andThen_ok, run_get, getPageFromRamLoop_eq k h.count_le]
  exact run_lift_ok _ _

theorem SoundCache.allocatePage_eq (h : SoundCache self) (id : Int) :
    pageManagerAllocatePage id self =
      .ok self.nextAddr (self.withAllocated (pageNew id (pageManagerGetPageSize self))) := by
  rw [pageManagerAllocatePage]
  simp only [run_bind, run_get, andThen_ok, if_neg h.pageSize.not_gt, run_set, run_pure, PageManager.withAllocated]

theorem findPage_withAllocated (self : PageManager) (page : Page) :
    findPage (self.withAllocated page) self.nextAddr = some page := by
  simp [findPage, PageManager.withAllocated]

theorem SoundCache.findPage_withAllocated_of (h : SoundCache self) (ha : findPage self a = some page) (new : Page) :
    findPage (self.withAllocated new) a = some page := by
  have hlt : a < self.nextAddr := h.fresh _ (findPage_mem ha)
  rw [findPage] at ha
  rw [findPage, PageManager.withAllocated, List.find?_cons_of_neg (by simpa using hlt.ne'), ha]

theorem readPage_guard_passed {res : Result PageAddr} (hrun : pageManagerReadPage k self = .ok res t) :
    ¬toInt32 (pageManagerGetPagesCount self) ≤ k := by
  intro hguard
  rw [pageManagerReadPage] at hrun
  simp only [run_bind, run_get, andThen_ok, if_pos hguard, run_throw, andThen_error, reduceCtorEq] at hrun

theorem SoundCache.readPage_cached (h : SoundCache self) (hguard : ¬toInt32 (pageManagerGetPagesCount self) ≤ k)
    {p : AllocatedPage} (hp : cachedPage self k = some p) : pageManagerReadPage k self = .ok (.ok p.addr) self := by
  rw [pageManagerReadPage]
  simp only [run_bind, andThen_ok, run_get, if_neg hguard, h.getPageFromRam_eq, hp, run_pure]

/-- The page manager after a page that was not in the cache has been read, with the bytes that the read
has left in its buffer. -/
def PageManager.withRead (self : PageManager) (bytes : List UInt8) : PageManager :=
  { self.withAllocated (decodePage bytes) with fileManager := self.fileManager.accessed }

/-- Such a page is put into the cache first, and it stays there also when the read fails. -/
theorem SoundCache.readPage_missing (h : SoundCache self) (hguard : ¬toInt32 (pageManagerGetPagesCount self) ≤ k)
    (hnew : cachedPage self k = none) {res : Result Unit} {bytes : List UInt8}
    (hread : fileRead (encodePage (pageNew k (pageManagerGetPageSize self))) (pageManagerGetPageOffset self k)
      self.fileManager.file = .ok (res, bytes) self.fileManager.accessed.file) :
    pageManagerReadPage k self = .ok (match res with
      | .ok () => .ok self.nextAddr
      | .error _ => .error "[read_page] Failed to read page header from file") (self.withRead bytes) := by
  have hzoom : onFileManager (fileManagerRead (encodePage (pageNew k (pageManagerGetPageSize self)))
      (pageManagerGetPageOffset self k)) (self.withAllocated (pageNew k (pageManagerGetPageSize self))) =
        .ok (res, bytes) { self.withAllocated (pageNew k (pageManagerGetPageSize self)) with
          fileManager := self.fileManager.accessed } := run_onFileManager (run_onFile hread)
  have hstore : storePage self.nextAddr (decodePage bytes)
      { self.withAllocated (pageNew k (pageManagerGetPageSize self)) with fileManager := self.fileManager.accessed } =
        .ok () (self.withRead bytes) := by
    rw [storePage, run_modify, PageManager.withRead]
    simp only [PageManager.withAllocated, List.map_cons, beq_self_eq_true, if_true, map_fresh h.fresh]
  rw [pageManagerReadPage]
  simp only [run_bind, andThen_ok, run_get, if_neg hguard, h.getPageFromRam_eq, hnew, h.allocatePage_eq,
    run_loadPage (findPage_withAllocated self _), hzoom, hstore]
  cases res with
  | error message => rfl
  | ok u => rfl

def ReadableAt (pm : PageManager) (k : Int) : Prop :=
  pm.fileManager.file.faults pm.fileManager.file.accesses = none ∧ pageManagerGetPageOffset pm k < 2 ^ 63 ∧
    pageManagerGetPageOffset pm k + pageManagerGetPageSize pm ≤ pm.fileManager.file.content.length

instance (pm : PageManager) (k : Int) : Decidable (ReadableAt pm k) := inferInstanceAs (Decidable (_ ∧ _))

def bytesAt (pm : PageManager) (k : Int) : List UInt8 :=
  slice pm.fileManager.file.content (pageManagerGetPageOffset pm k) (pageManagerGetPageSize pm)

theorem SoundCache.length_encodePage (h : SoundCache self) (k : Int) :
    (encodePage (pageNew k (pageManagerGetPageSize self))).length = pageManagerGetPageSize self := by
  rw [Storage.length_encodePage, Nat.add_comm]
  exact (pageNew_hasSlots h.pageSize).payload

theorem SoundCache.fileRead_readable (h : SoundCache self) (hread : ReadableAt self k) :
    fileRead (encodePage (pageNew k (pageManagerGetPageSize self))) (pageManagerGetPageOffset self k)
      self.fileManager.file = .ok (.ok (), bytesAt self k) self.fileManager.accessed.file := by
  obtain ⟨hfault, hoffset, hlength⟩ := hread
  have hlen := h.length_encodePage k
  have hmin := h.pageSize
  rw [sizeofPageHeader] at hmin
  rw [fileRead_served _ _ h.isOpen hfault, readOutcome, if_neg hoffset.not_ge, hlen, if_neg]
  · rfl
  · rw [not_or, not_lt, slice, List.length_take, List.length_drop]
    omega

theorem SoundCache.fileRead_unreadable (h : SoundCache self) (hread : ¬ReadableAt self k) :
    ∃ message bytes, fileRead (encodePage (pageNew k (pageManagerGetPageSize self))) (pageManagerGetPageOffset self k)
      self.fileManager.file = .ok (.error message, bytes) self.fileManager.accessed.file := by
  cases hfault : self.fileManager.file.faults self.fileManager.file.accesses with
  | some fault => exact fileRead_faulty _ _ h.isOpen hfault
  | none =>
      rw [fileRead_served _ _ h.isOpen hfault, readOutcome]
      by_cases hoffset : 2 ^ 63 ≤ pageManagerGetPageOffset self k
      · rw [if_pos hoffset]
        exact ⟨_, _, rfl⟩
      · have hshort : ¬pageManagerGetPageOffset self k + pageManagerGetPageSize self ≤
            self.fileManager.file.content.length := fun hlength => hread ⟨hfault, Nat.lt_of_not_le hoffset, hlength⟩
        have hmin := h.pageSize
        rw [sizeofPageHeader] at hmin
        rw [if_neg hoffset, h.length_encodePage k, if_pos]
        · exact ⟨_, _, rfl⟩
        · right
          rw [slice, List.length_take, List.length_drop]
          omega

theorem SoundCache.readPage_readable (h : SoundCache self) (hguard : ¬toInt32 (pageManagerGetPagesCount self) ≤ k)
    (hnew : cachedPage self k = none) (hread : ReadableAt self k) :
    pageManagerReadPage k self = .ok (.ok self.nextAddr) (self.withRead (bytesAt self k)) :=
  h.readPage_missing hguard hnew (h.fileRead_readable hread)

theorem SoundCache.readPage_unreadable (h : SoundCache self) (hguard : ¬toInt32 (pageManagerGetPagesCount self) ≤ k)
    (hnew : cachedPage self k = none) (hread : ¬ReadableAt self k) :
    ∃ message bytes, pageManagerReadPage k self = .ok (.error message) (self.withRead bytes) := by
  obtain ⟨message, bytes, hrun⟩ := h.fileRead_unreadable hread
  exact ⟨_, bytes, h.readPage_missing hguard hnew hrun⟩

/-- A page that is counted is found or read, or the read reports an error. -/
theorem SoundCache.readPage_returns (h : SoundCache self) (hguard : ¬toInt32 (pageManagerGetPagesCount self) ≤ k) :
    ∃ res t, pageManagerReadPage k self = .ok res t := by
  cases hcached : cachedPage self k with
  | some p => exact ⟨_, _, h.readPage_cached hguard hcached⟩
  | none =>
      by_cases hread : ReadableAt self k
      · exact ⟨_, _, h.readPage_readable hguard hcached hread⟩
      · obtain ⟨message, bytes, hrun⟩ := h.readPage_unreadable hguard hcached hread
        exact ⟨_, _, hrun⟩

end Reads

section Kept

variable {self t : PageManager} {k : Int} {a : PageAddr}

theorem SoundCache.of_cache_eq (h : SoundCache self) (hopen : t.fileManager.file.isOpen = true)
    (hsize : sizeofPageHeader ≤ pageManagerGetPageSize t) (hpages : t.allocatedPages = self.allocatedPages)
    (hcount : t.allocatedPagesCount = self.allocatedPagesCount) (haddr : t.nextAddr = self.nextAddr)
    (hcurrent : ∀ a, t.currentFreePage = some a → ∃ page, findPage self a = some page) : SoundCache t := by
  constructor
  case isOpen => exact hopen
  case pageSize => exact hsize
  case count_le => exact hcount ▸ hpages ▸ h.count_le
  case addrs => exact hpages ▸ h.addrs
  case fresh => exact haddr ▸ hpages ▸ h.fresh
  case current =>
    intro a ha
    rw [findPage, hpages]
    exact hcurrent a ha

theorem SoundCache.withAllocated (h : SoundCache self) (page : Page) : SoundCache (self.withAllocated page) := by
  constructor
  case isOpen => exact h.isOpen
  case pageSize => exact h.pageSize
  case count_le =>
    have hle := h.count_le
    change toUInt32 ((self.allocatedPagesCount : Int) + 1) ≤ self.allocatedPages.length + 1
    unfold toUInt32
    omega
  case addrs =>
    simp only [PageManager.withAllocated, List.map_cons, List.nodup_cons, List.mem_map, not_exists, not_and]
    exact ⟨fun q hq => (h.fresh q hq).ne, h.addrs⟩
  case fresh =>
    intro q hq
    rcases List.mem_cons.mp hq with rfl | hq
    · exact Nat.lt_succ_self _
    · exact Nat.lt_succ_of_lt (h.fresh q hq)
  case current =>
    intro b hb
    obtain ⟨q, hq⟩ := h.current b hb
    exact ⟨q, h.findPage_withAllocated_of hq page⟩

theorem SoundCache.withRead (h : SoundCache self) (bytes : List UInt8) : SoundCache (self.withRead bytes) :=
  let hallocated := h.withAllocated (decodePage bytes)
  hallocated.of_cache_eq h.isOpen h.pageSize rfl rfl rfl hallocated.current

theorem SoundCache.pageNew_outcome (h : SoundCache self) :
    ∃ res, pageManagerPageNew self = .ok (res, self.nextAddr) self.withPageNew ∧
      (res = .ok () ↔ ¬Reported (self.fileManager.file.faults self.fileManager.file.accesses) ∧
        ¬Reported (self.fileManager.file.faults (self.fileManager.file.accesses + 1))) :=
  pageManagerPageNew_outcome h.isOpen h.pageSize

theorem SoundCache.withPageNew (h : SoundCache self) : SoundCache self.withPageNew := by
  have hallocated := h.withAllocated (pageNew (nextPageId self) (pageManagerGetPageSize self))
  rw [PageManager.withPageNew]
  split
  · exact hallocated.of_cache_eq h.isOpen h.pageSize rfl rfl rfl hallocated.current
  · exact hallocated.of_cache_eq h.isOpen h.pageSize rfl rfl rfl hallocated.current

theorem SoundCache.withCurrent {page : Page} (h : SoundCache self) (ha : findPage self a = some page) :
    SoundCache { self with currentFreePage := some a } := by
  refine h.of_cache_eq h.isOpen h.pageSize rfl rfl rfl fun b hb => ?_
  cases hb
  exact ⟨page, ha⟩

theorem SoundCache.withCurrentFreePage {page : Page} (h : SoundCache self) (ha : findPage self a = some page)
    (pageId : Int) :
    SoundCache (self.withCurrentFreePage a pageId) := by
  have hcurrent := h.withCurrent ha
  exact hcurrent.of_cache_eq h.isOpen h.pageSize rfl rfl rfl hcurrent.current

end Kept

section Programs

variable {self t : PageManager} {k : Int} {a : PageAddr}

theorem SoundCache.withFaults (h : SoundCache self) (faults : Nat → Option IoFault) :
    SoundCache (self.withFaults faults) :=
  h.of_cache_eq h.isOpen h.pageSize rfl rfl rfl h.current

theorem SoundCache.readPage_ok (h : SoundCache self) {res : Result PageAddr}
    (hrun : pageManagerReadPage k self = .ok res t) :
    SoundCache t ∧ ∀ a, res = .ok a → ∃ page, findPage t a = some page := by
  have hguard := readPage_guard_passed hrun
  cases hcached : cachedPage self k with
  | some p =>
      rw [h.readPage_cached hguard hcached] at hrun
      cases hrun
      refine ⟨h, fun a ha => ?_⟩
      cases ha
      exact ⟨p.rawPage, findPage_of_mem h.addrs (cachedPage_mem hcached)⟩
  | none =>
      by_cases hread : ReadableAt self k
      · rw [h.readPage_readable hguard hcached hread] at hrun
        cases hrun
        refine ⟨h.withRead _, fun a ha => ?_⟩
        cases ha
        exact ⟨_, findPage_withAllocated self _⟩
      · obtain ⟨message, bytes, hfailed⟩ := h.readPage_unreadable hguard hcached hread
        rw [hfailed] at hrun
        cases hrun
        exact ⟨h.withRead bytes, fun a ha => by cases ha⟩

theorem SoundCache.keeps_readPage (k : Int) : Keeps SoundCache (pageManagerReadPage k) := by
  intro self h
  cases hrun : pageManagerReadPage k self with
  | ok res t => exact (h.readPage_ok hrun).1
  | error e t =>
      by_cases hguard : toInt32 (pageManagerGetPagesCount self) ≤ k
      · rw [pageManagerReadPage] at hrun
        simp only [run_bind, run_get, andThen_ok, if_pos hguard, run_throw, andThen_error] at hrun
        cases hrun
        exact h
      · obtain ⟨res, u, hreturned⟩ := h.readPage_returns hguard
        rw [hreturned] at hrun
        cases hrun

theorem SoundCache.keeps_pageNew : Keeps SoundCache pageManagerPageNew := by
  intro self h
  obtain ⟨res, hrun, _⟩ := h.pageNew_outcome
  rw [hrun]
  exact h.withPageNew

theorem SoundCache.keeps_setCurrentFreePage (a : PageAddr) : Keeps SoundCache (pageManagerSetCurrentFreePage a) := by
  intro self h
  cases ha : findPage self a with
  | some page =>
      obtain ⟨res, hrun, _⟩ := setCurrentFreePage_outcome h.isOpen ha
      rw [hrun]
      exact h.withCurrentFreePage ha _
  | none =>
      rw [pageManagerSetCurrentFreePage, loadPage]
      simp only [run_bind, run_get, andThen_ok, ha, run_throw, andThen_error, final_error]
      exact h

theorem SoundCache.keeps_getCurrentFreePage : Keeps SoundCache pageManagerGetCurrentFreePage := by
  intro self h
  rw [pageManagerGetCurrentFreePage]
  simp only [run_bind, run_get, andThen_ok]
  cases hcurrent : self.currentFreePage with
  | some a => exact h
  | none =>
      have hread := SoundCache.keeps_readPage self.fileManager.header.dynamic.currentFreePage self h
      simp only [run_bind]
      cases hrun : pageManagerReadPage self.fileManager.header.dynamic.currentFreePage self with
      | error e t =>
          rw [hrun] at hread
          exact hread
      | ok res t =>
          obtain ⟨ht, hfound⟩ := h.readPage_ok hrun
          cases res with
          | error message => exact ht
          | ok a =>
              obtain ⟨page, ha⟩ := hfound a rfl
              exact ht.withCurrent ha

theorem SoundCache.storePage (h : SoundCache self) (a : PageAddr) (new : Page) :
    SoundCache (final (storePage a new self)) := by
  have haddrs : (stored self a new).allocatedPages.map AllocatedPage.addr = self.allocatedPages.map AllocatedPage.addr := by
    rw [stored, List.map_map]
    apply List.map_congr_left
    intro p _
    rw [Function.comp_apply]
    split <;> rfl
  rw [run_storePage, final_ok]
  constructor
  case isOpen => exact h.isOpen
  case pageSize => exact h.pageSize
  case count_le => exact h.count_le.trans (by rw [stored, List.length_map])
  case addrs =>
    rw [haddrs]
    exact h.addrs
  case fresh =>
    intro p hp
    rcases mem_stored hp with rfl | ⟨_, hp⟩
    · obtain ⟨q, hq, hqa⟩ : ∃ q ∈ self.allocatedPages, q.addr = a := by
        have hmem := List.mem_map_of_mem (f := AllocatedPage.addr) hp
        rw [haddrs] at hmem
        exact List.mem_map.mp hmem
      exact hqa ▸ h.fresh q hq
    · exact h.fresh p hp
  case current =>
    intro b hb
    obtain ⟨page, hpage⟩ := h.current b hb
    by_cases hba : b = a
    · subst hba
      exact ⟨new, findPage_stored hpage new⟩
    · exact ⟨page, (findPage_stored_ne hba new).trans hpage⟩

theorem SoundCache.keeps_writePageOnDisk (a : PageAddr) : Keeps SoundCache (writePageOnDisk a) := by
  have hfile (data : List UInt8) (offset : Nat) : Keeps (fun fs : FileState => fs.isOpen = true) (fileWrite data offset) :=
    keeps_fileWrite_of (fun _ h => h) fun _ _ h => h
  have hmanager (data : List UInt8) (offset : Nat) :
      Keeps (fun fm : FileManager => fm.file.isOpen = true ∧ sizeofPageHeader ≤ fm.header.constants.pageSize)
        (fileManagerWrite data offset) :=
    Keeps.zoom (fun _ h => h.1) (fun _ _ h hopen => ⟨hopen, h.2⟩) (hfile data offset)
  have hwrite (data : List UInt8) (offset : Nat) : Keeps SoundCache (onFileManager (fileManagerWrite data offset)) :=
    Keeps.zoom (fun _ h => ⟨h.isOpen, h.pageSize⟩)
      (fun _ _ h hfm => h.of_cache_eq hfm.1 hfm.2 rfl rfl rfl h.current) (hmanager data offset)
  refine Keeps.bind (keeps_loadPage a) ?_
  intro raw
  apply Keeps.get
  intro self
  exact (hwrite _ _).bind fun _ => Keeps.pure _

theorem SoundCache.freePages (h : SoundCache self) : SoundCache (final (pageManagerFreePages self)) := by
  constructor
  case isOpen => exact h.isOpen
  case pageSize => exact h.pageSize
  case count_le => exact le_rfl
  case addrs => exact List.nodup_nil
  case fresh => exact fun p hp => absurd hp List.not_mem_nil
  case current => exact fun a ha => nomatch ha

theorem keptByWrites_soundCache : KeptByWrites SoundCache where
  readPage := SoundCache.keeps_readPage
  freePages _ h := h.freePages
  storePage a page _ h := h.storePage a page
  writePageOnDisk := SoundCache.keeps_writePageOnDisk
  pageNew := SoundCache.keeps_pageNew
  setCurrentFreePage := SoundCache.keeps_setCurrentFreePage
  getCurrentFreePage := SoundCache.keeps_getCurrentFreePage

end Programs

end DocumentDb.Storage
