import Mathlib.Data.List.Perm.Subperm
import Mathlib.Data.List.Nodup
import DocumentDb.Storage.Disk
import DocumentDb.Storage.PageManager

namespace DocumentDb.Storage

open Bytes Program

structure Reliable (fs : FileState) : Prop where
  isOpen : fs.isOpen = true
  faults : ∀ n, fs.faults n = none

section Reads

variable (buffer : List UInt8) (offset : Nat) {fs gs : FileState}

def readOutcome (content : List UInt8) : Result Unit × List UInt8 :=
  if 2 ^ 63 ≤ offset then
    (.error "Failed to set file offset", buffer)
  else if buffer.length = 0 ∨ (slice content offset buffer.length).length < buffer.length then
    (.error "Failed to read from file", patch buffer 0 (slice content offset buffer.length))
  else
    (.ok (), slice content offset buffer.length)

theorem fileRead_served (hopen : fs.isOpen = true) (hfault : fs.faults fs.accesses = none) :
    fileRead buffer offset fs =
      .ok (readOutcome buffer offset fs.content) { fs with accesses := fs.accesses + 1 } := by
  rw [fileRead, nextAccess, readOutcome]
  simp only [run_bind, run_get, run_set, run_pure, andThen_ok, hopen, hfault, reduceCtorEq, if_false, run_ite]
  split
  · rfl
  · split <;> rfl

theorem fileRead_faulty {fault : IoFault} (hopen : fs.isOpen = true) (hfault : fs.faults fs.accesses = some fault) :
    ∃ message bytes, fileRead buffer offset fs =
      .ok (.error message, bytes) { fs with accesses := fs.accesses + 1 } := by
  rw [fileRead, nextAccess]
  simp only [run_bind, run_get, run_set, run_pure, andThen_ok, hopen, hfault, reduceCtorEq, if_false]
  cases fault with
  | seek => exact ⟨_, _, rfl⟩
  | transfer n => exact ⟨_, _, rfl⟩
  | flush n => exact ⟨_, _, rfl⟩

theorem fileRead_isOpen {buffer : List UInt8} {offset : Nat} {r : Result Unit × List UInt8}
    (h : fileRead buffer offset fs = .ok r gs) : fs.isOpen = true := by
  cases hopen : fs.isOpen with
  | true => rfl
  | false =>
      rw [fileRead] at h
      simp only [run_bind, run_get, andThen_ok, hopen, if_true, run_throw, andThen_error, reduceCtorEq] at h

end Reads

section Access

variable {fs : FileState}

theorem Reliable.fileWrite_eq (h : Reliable fs) {data : List UInt8} {offset : Nat}
    (hdata : 0 < data.length) (hoffset : offset < 2 ^ 63) :
    fileWrite data offset fs = .ok (.ok ())
      { fs with content := patch fs.content offset data, accesses := fs.accesses + 1 } := by
  rw [fileWrite, nextAccess]
  simp only [run_bind, andThen_ok, run_get, run_set, h.isOpen, h.faults, run_pure, run_modify, reduceCtorEq, if_false,
    false_or, if_neg hoffset.not_ge, if_neg hdata.ne', writtenContent_none hdata]

theorem Reliable.fileRead_eq (h : Reliable fs) {buffer : List UInt8} {offset : Nat}
    (hbuffer : 0 < buffer.length) (hoffset : offset < 2 ^ 63)
    (hend : offset + buffer.length ≤ fs.content.length) :
    fileRead buffer offset fs = .ok (.ok (), slice fs.content offset buffer.length)
      { fs with accesses := fs.accesses + 1 } := by
  have hlen := length_slice_of_le hend
  rw [fileRead_served buffer offset h.isOpen (h.faults _), readOutcome, if_neg hoffset.not_ge, if_neg]
  rw [hlen]
  exact not_or.mpr ⟨hbuffer.ne', lt_irrefl _⟩

theorem keeps_fileWrite_of {P : FileState → Prop} {data : List UInt8} {offset : Nat}
    (haccess : ∀ fs, P fs → P { fs with accesses := fs.accesses + 1 })
    (hcontent : ∀ fault fs, P fs → P { fs with content := writtenContent fault data offset fs.content }) :
    Keeps P (fileWrite data offset) := by
  have hnext : Keeps P nextAccess := haccess
  apply Keeps.get
  intro fs
  apply Keeps.ite
  · exact Keeps.throw_bind _
  apply hnext.bind
  intro fault
  apply Keeps.ite
  · exact Keeps.pure _
  apply Keeps.ite
  · exact Keeps.pure _
  apply Keeps.bind
  · exact Keeps.modify fun fs h => hcontent fault fs h
  intro _
  rcases fault with _ | _ | _ | _ <;> exact Keeps.pure _

theorem keeps_fileWrite (n : Nat) (data : List UInt8) (offset : Nat) :
    Keeps (fun fs => n ≤ fs.content.length) (fileWrite data offset) :=
  keeps_fileWrite_of (fun _ h => h) fun fault fs h => le_trans h (length_writtenContent_ge fault data offset fs.content)

theorem keeps_fileRead_of {P : FileState → Prop} (buffer : List UInt8) (offset : Nat)
    (haccess : ∀ fs, P fs → P { fs with accesses := fs.accesses + 1 }) : Keeps P (fileRead buffer offset) := by
  have hnext : Keeps P nextAccess := haccess
  apply Keeps.get
  intro fs
  apply Keeps.ite
  · exact Keeps.throw_bind _
  apply hnext.bind
  rintro (_ | _ | _ | _)
  · exact Keeps.ite (Keeps.pure _) (Keeps.ite (Keeps.pure _) (Keeps.pure _))
  · exact Keeps.pure _
  · exact Keeps.pure _
  · exact Keeps.pure _

end Access

/-- The file holds the bytes of the disk, and the header in memory is the one in
the file. -/
structure Opened (fm : FileManager) (disk : Disk) : Prop where
  reliable : Reliable fm.file
  content : fm.file.content = disk.bytes
  header : fm.header = disk.header

/-- The memory of the page manager is a cache of the disk: every cached page is
the page in the file, and no page is cached twice. -/
structure Coherent (pm : PageManager) (disk : Disk) : Prop where
  opened : Opened pm.fileManager disk
  cached : ∀ p ∈ pm.allocatedPages, ∃ (k : Nat) (q : StoredPage),
    disk.pages[k]? = some q ∧ q.page = p.rawPage
  ids : (pm.allocatedPages.map fun p => p.rawPage.pageHeader.pageId).Nodup
  addrs : (pm.allocatedPages.map AllocatedPage.addr).Nodup
  fresh : ∀ p ∈ pm.allocatedPages, p.addr < pm.nextAddr
  count : pm.allocatedPagesCount = pm.allocatedPages.length
  current : ∀ a, pm.currentFreePage = some a →
    ∃ p ∈ pm.allocatedPages, p.addr = a ∧ p.rawPage.pageHeader.pageId = disk.freePage

def PointsTo (pm : PageManager) (a : PageAddr) (pageId : Int) : Prop :=
  ∃ page, findPage pm a = some page ∧ page.pageHeader.pageId = pageId

def KeepsCache (self t : PageManager) : Prop :=
  ∀ a page, findPage self a = some page → findPage t a = some page

section Cache

variable {self t : PageManager} {disk : Disk} {a b : PageAddr} {k : Nat} {p : StoredPage} {page : Page}

theorem KeepsCache.refl (self : PageManager) : KeepsCache self self := fun _ _ h => h

theorem KeepsCache.trans {u : PageManager} (h : KeepsCache self t) (h' : KeepsCache t u) :
    KeepsCache self u := fun a page hp => h' a page (h a page hp)

theorem findPage_mem (h : findPage self a = some page) : ⟨a, page⟩ ∈ self.allocatedPages := by
  rw [findPage] at h
  obtain ⟨q, hq, rfl⟩ := Option.map_eq_some_iff.mp h
  have ha := List.find?_some hq
  obtain rfl : q.addr = a := by simpa using ha
  exact List.mem_of_find?_eq_some hq

theorem findPage_of_mem (hnodup : (self.allocatedPages.map AllocatedPage.addr).Nodup) {q : AllocatedPage}
    (hq : q ∈ self.allocatedPages) : findPage self q.addr = some q.rawPage := by
  rw [findPage]
  generalize self.allocatedPages = pages at hq hnodup
  induction pages with
  | nil => simp at hq
  | cons x xs ih =>
      simp only [List.map_cons, List.nodup_cons] at hnodup
      rcases List.mem_cons.mp hq with rfl | hq
      · rw [List.find?_cons_of_pos (by simp)]
        rfl
      · have hne : x.addr ≠ q.addr := fun he => hnodup.1 (he ▸ List.mem_map_of_mem hq)
        rw [List.find?_cons_of_neg (by simpa using hne)]
        exact ih hq hnodup.2

theorem Coherent.findPage_of_mem (h : Coherent self disk) {q : AllocatedPage}
    (hq : q ∈ self.allocatedPages) : findPage self q.addr = some q.rawPage := Storage.findPage_of_mem h.addrs hq

theorem Coherent.cached_page (h : Coherent self disk) (ha : findPage self a = some page) :
    ∃ (k : Nat) (q : StoredPage), disk.pages[k]? = some q ∧ q.page = page ∧
      page.pageHeader.pageId = k := by
  obtain ⟨k, q, hk, rfl⟩ := h.cached _ (findPage_mem ha)
  exact ⟨k, q, hk, rfl, Disk.pageId_eq hk⟩

theorem Coherent.eq_of_pageId (h : Coherent self disk) (hk : disk.pages[k]? = some p)
    {q : AllocatedPage} (hq : q ∈ self.allocatedPages) (hid : q.rawPage.pageHeader.pageId = k) :
    q.rawPage = p.page := by
  obtain ⟨j, r, hj, hr⟩ := h.cached q hq
  have hj' := Disk.pageId_eq hj
  rw [hr, hid] at hj'
  obtain rfl : k = j := by omega
  rw [hk] at hj
  cases hj
  exact hr.symm

@[simp] theorem run_loadPage (h : findPage self a = some page) :
    loadPage a self = .ok page self := by
  rw [loadPage]
  simp only [run_bind, andThen_ok, run_get, h, run_pure]

theorem loadPage_eq_ok : loadPage a self = .ok page t ↔ findPage self a = some page ∧ t = self := by
  rw [loadPage]
  simp only [run_bind, andThen_ok, run_get]
  cases hf : findPage self a with
  | none => simp
  | some q => simp [eq_comm]

end Cache

section Files

variable {self : PageManager} {disk : Disk} {k : Nat} {p : StoredPage} {α : Type}

theorem run_onFile {fm : FileManager} {x : EStateM Fault FileState α} {fs : FileState} {a : α}
    (h : x fm.file = .ok a fs) : onFile x fm = .ok a { fm with file := fs } := zoom_ok h

theorem run_onFileManager {x : EStateM Fault FileManager α} {fm : FileManager} {a : α}
    (h : x self.fileManager = .ok a fm) : onFileManager x self = .ok a { self with fileManager := fm } :=
  zoom_ok h

theorem Opened.pageSize_eq (h : Opened self.fileManager disk) :
    pageManagerGetPageSize self = disk.pageSize := by
  rw [pageManagerGetPageSize, h.header]; rfl

theorem Opened.pagesCount_eq (h : Opened self.fileManager disk) :
    pageManagerGetPagesCount self = disk.pages.length := by
  rw [pageManagerGetPagesCount, h.header]; rfl

/-- Offsets do not wrap around, because the file is small. -/
theorem Opened.pageOffset_eq (h : Opened self.fileManager disk) (hk : k ≤ disk.pages.length) :
    pageManagerGetPageOffset self k = sizeofFileHeader + k * disk.pageSize := by
  have hm := Nat.mul_le_mul_right disk.pageSize hk
  have hs := disk.small
  rw [pageManagerGetPageOffset]
  rw [h.pageSize_eq, ← Nat.cast_mul, ← Nat.cast_add]
  omega

def FileManager.accessed (self : FileManager) : FileManager :=
  { self with file.accesses := self.file.accesses + 1 }

theorem Opened.accessed {fm : FileManager} (h : Opened fm disk) : Opened fm.accessed disk :=
  ⟨⟨h.reliable.isOpen, h.reliable.faults⟩, h.content, h.header⟩

theorem Opened.fileManagerRead_eq {fm : FileManager} (h : Opened fm disk)
    (hk : disk.pages[k]? = some p) {buffer : List UInt8} (hb : buffer.length = disk.pageSize) :
    fileManagerRead buffer (sizeofFileHeader + k * disk.pageSize) fm =
      .ok (.ok (), encodePage p.page) fm.accessed := by
  have hend := Disk.offset_le hk
  have hsmall := disk.small
  have hlen := disk.length_bytes
  have hmin := disk.sizeofPageHeader_le
  rw [sizeofPageHeader] at hmin
  have hread := h.reliable.fileRead_eq (show 0 < buffer.length by omega)
    (show sizeofFileHeader + k * disk.pageSize < 2 ^ 63 by omega) (by rw [h.content, hb]; exact hend)
  have hslice : slice fm.file.content (sizeofFileHeader + k * disk.pageSize) buffer.length =
      encodePage p.page := by rw [h.content, hb, Disk.slice_bytes hk]
  rw [hslice] at hread
  exact run_onFile hread

end Files

section Reading

variable {self t : PageManager} {disk : Disk} {a b : PageAddr} {k : Nat} {p : StoredPage} {page : Page}

theorem Opened.freePages (h : Opened self.fileManager disk) :
    ∃ t, pageManagerFreePages self = .ok () t ∧ Coherent t disk := by
  refine ⟨_, rfl, h, ?_, ?_, ?_, ?_, rfl, ?_⟩ <;> simp

theorem Coherent.freePages (h : Coherent self disk) :
    ∃ t, pageManagerFreePages self = .ok () t ∧ Coherent t disk := h.opened.freePages

theorem getPageFromRamLoop_eq (pageId : Int) {pages : List AllocatedPage} {count : Nat}
    (hcount : count ≤ pages.length) :
    getPageFromRamLoop pageId pages count =
      .ok (match (pages.take count).find? fun p => p.rawPage.pageHeader.pageId = pageId with
        | some p => .ok p.addr
        | none => .error "Page not found in ram") := by
  induction count generalizing pages with
  | zero => rw [getPageFromRamLoop, List.take_zero, List.find?_nil]
  | succ count ih =>
      cases pages with
      | nil => exact absurd hcount (Nat.not_succ_le_zero count)
      | cons p pages =>
          rw [getPageFromRamLoop, List.take_succ_cons]
          by_cases hp : p.rawPage.pageHeader.pageId = pageId
          · rw [if_pos hp, List.find?_cons_of_pos (by simpa using hp)]
          · rw [if_neg hp, ih (Nat.le_of_succ_le_succ hcount), List.find?_cons_of_neg (by simpa using hp)]

theorem Coherent.length_allocatedPages_le (h : Coherent self disk) :
    self.allocatedPages.length ≤ disk.pages.length := by
  have hsub : (self.allocatedPages.map fun p => p.rawPage.pageHeader.pageId) ⊆
      (List.range disk.pages.length).map fun k : Nat => (k : Int) := by
    intro id hid
    obtain ⟨q, hq, rfl⟩ := List.mem_map.mp hid
    obtain ⟨j, r, hj, hr⟩ := h.cached q hq
    refine List.mem_map.mpr ⟨j, List.mem_range.mpr (Disk.lt_length hj), ?_⟩
    rw [← hr, Disk.pageId_eq hj]
  have hle := (List.subperm_of_subset h.ids hsub).length_le
  simpa using hle

def withPage (self : PageManager) (page : Page) : PageManager :=
  { self with
    allocatedPages := ⟨self.nextAddr, page⟩ :: self.allocatedPages
    allocatedPagesCount := self.allocatedPages.length + 1
    nextAddr := self.nextAddr + 1 }

structure Readable (pm : PageManager) (disk : Disk) : Prop where
  pageSize : pageManagerGetPageSize pm = disk.pageSize
  pagesCount : pageManagerGetPagesCount pm = disk.pages.length
  pageOffset : ∀ k : Nat, k ≤ disk.pages.length → pageManagerGetPageOffset pm k = sizeofFileHeader + k * disk.pageSize
  count : pm.allocatedPagesCount = pm.allocatedPages.length
  length_le : pm.allocatedPages.length ≤ disk.pages.length

theorem Coherent.readable (h : Coherent self disk) : Readable self disk where
  pageSize := h.opened.pageSize_eq
  pagesCount := h.opened.pagesCount_eq
  pageOffset _ hk := h.opened.pageOffset_eq hk
  count := h.count
  length_le := h.length_allocatedPages_le

theorem Readable.getPageFromRam_eq (h : Readable self disk) (pageId : Int) :
    pageManagerGetPageFromRam pageId self =
      .ok (match self.allocatedPages.find? fun p => p.rawPage.pageHeader.pageId = pageId with
        | some p => .ok p.addr
        | none => .error "Page not found in ram") self := by
  rw [pageManagerGetPageFromRam]
  simp only [run_bind, andThen_ok, run_get, h.count, getPageFromRamLoop_eq pageId le_rfl, List.take_length, run_lift_ok]

theorem Readable.allocatePage_eq (h : Readable self disk) (id : Int) :
    pageManagerAllocatePage id self =
      .ok self.nextAddr (withPage self (pageNew id disk.pageSize)) := by
  have hlen := h.length_le
  have hpages := disk.length_pages_lt
  rw [pageManagerAllocatePage]
  simp only [run_bind, andThen_ok, run_get, h.pageSize, if_neg disk.sizeofPageHeader_le.not_gt, run_set,
    run_pure, h.count, toUInt32_succ (show self.allocatedPages.length + 1 < 2 ^ 32 by omega), withPage]

theorem findPage_withPage (self : PageManager) (page : Page) :
    findPage (withPage self page) self.nextAddr = some page := by
  simp [findPage, withPage]

theorem Coherent.findPage_withPage_of (h : Coherent self disk) {q : Page}
    (ha : findPage self a = some q) (page : Page) : findPage (withPage self page) a = some q := by
  have hlt := h.fresh _ (findPage_mem ha)
  simp only at hlt
  rw [findPage, withPage] at *
  rw [List.find?_cons_of_neg (by simpa using hlt.ne')]
  exact ha

theorem Coherent.allocated (h : Coherent self disk) (hk : disk.pages[k]? = some p)
    (hnew : ∀ q ∈ self.allocatedPages, q.rawPage.pageHeader.pageId ≠ k) :
    Coherent (withPage self p.page) disk := by
  constructor
  case opened => exact h.opened
  case cached =>
    intro q hq
    rcases List.mem_cons.mp hq with rfl | hq
    · exact ⟨k, p, hk, rfl⟩
    · exact h.cached q hq
  case ids =>
    simp only [withPage, List.map_cons, List.nodup_cons, List.mem_map, not_exists, not_and]
    refine ⟨fun q hq => ?_, h.ids⟩
    rw [Disk.pageId_eq hk]
    exact hnew q hq
  case addrs =>
    simp only [withPage, List.map_cons, List.nodup_cons, List.mem_map, not_exists, not_and]
    exact ⟨fun q hq => (h.fresh q hq).ne, h.addrs⟩
  case fresh =>
    intro q hq
    rcases List.mem_cons.mp hq with rfl | hq
    · exact Nat.lt_succ_self _
    · exact Nat.lt_succ_of_lt (h.fresh q hq)
  case count => simp [withPage]
  case current =>
    intro b hb
    obtain ⟨q, hq, hqb, hqk⟩ := h.current b hb
    exact ⟨q, List.mem_cons_of_mem _ hq, hqb, hqk⟩

theorem map_fresh (hfresh : ∀ p ∈ self.allocatedPages, p.addr < self.nextAddr) (q : Page) :
    (self.allocatedPages.map fun p => if p.addr == self.nextAddr then { p with rawPage := q } else p) =
      self.allocatedPages := by
  conv_rhs => rw [← List.map_id self.allocatedPages]
  refine List.map_congr_left fun x hx => if_neg ?_
  simpa using (hfresh x hx).ne

theorem storePage_withPage (h : Coherent self disk) (page q : Page) :
    storePage self.nextAddr q (withPage self page) = .ok () (withPage self q) := by
  rw [storePage, run_modify]
  simp only [withPage, List.map_cons, beq_self_eq_true, if_true, map_fresh h.fresh]

theorem Coherent.accessed (h : Coherent self disk) :
    Coherent { self with fileManager := self.fileManager.accessed } disk :=
  ⟨h.opened.accessed, h.cached, h.ids, h.addrs, h.fresh, h.count, h.current⟩

theorem Readable.readPage_guard (h : Readable self disk) (hk : k < disk.pages.length) :
    ¬toInt32 (pageManagerGetPagesCount self) ≤ (k : Int) := by
  have hcount := disk.length_pages_lt
  rw [h.pagesCount, toInt32_natCast (by omega)]
  omega

theorem Readable.readPage_cached (h : Readable self disk) (hk : k < disk.pages.length) {q : AllocatedPage}
    (hfind : self.allocatedPages.find? (fun p => p.rawPage.pageHeader.pageId = (k : Int)) = some q) :
    pageManagerReadPage k self = .ok (.ok q.addr) self := by
  rw [pageManagerReadPage]
  simp only [run_bind, andThen_ok, run_get, if_neg (h.readPage_guard hk), h.getPageFromRam_eq, hfind, run_pure]

theorem length_emptyPage (disk : Disk) (k : Nat) : (encodePage (pageNew k disk.pageSize)).length = disk.pageSize := by
  rw [Storage.length_encodePage, Nat.add_comm]
  exact (pageNew_hasSlots disk.sizeofPageHeader_le).payload

theorem Readable.readPage_absent (h : Readable self disk) {id : Int}
    (hguard : ¬toInt32 (pageManagerGetPagesCount self) ≤ id)
    (hnew : ∀ q ∈ self.allocatedPages, q.rawPage.pageHeader.pageId ≠ id) {res : Result Unit} {bytes : List UInt8}
    {fm : FileManager} (hread : fileManagerRead (encodePage (pageNew id disk.pageSize))
      (pageManagerGetPageOffset self id) self.fileManager = .ok (res, bytes) fm) :
    ∃ t, storePage self.nextAddr (decodePage bytes)
        (withPage { self with fileManager := fm } (pageNew id disk.pageSize)) = .ok () t ∧
      t.fileManager = fm ∧ pageManagerReadPage id self = .ok (match res with
        | .ok () => .ok self.nextAddr
        | .error _ => .error "[read_page] Failed to read page header from file") t := by
  have hfind : self.allocatedPages.find? (fun p => p.rawPage.pageHeader.pageId = id) = none := by
    simpa using hnew
  have hzoom : onFileManager (fileManagerRead (encodePage (pageNew id disk.pageSize))
      (pageManagerGetPageOffset self id)) (withPage self (pageNew id disk.pageSize)) =
      .ok (res, bytes) (withPage { self with fileManager := fm } (pageNew id disk.pageSize)) := run_onFileManager hread
  refine ⟨_, rfl, rfl, ?_⟩
  rw [pageManagerReadPage]
  simp only [run_bind, andThen_ok, run_get, if_neg hguard, h.getPageFromRam_eq, hfind,
    h.allocatePage_eq, run_loadPage (findPage_withPage self _), hzoom]
  cases res with
  | error message => rfl
  | ok u => rfl

theorem Readable.readPage_missing (h : Readable self disk) (hk : k < disk.pages.length)
    (hnew : ∀ q ∈ self.allocatedPages, q.rawPage.pageHeader.pageId ≠ k) {res : Result Unit} {bytes : List UInt8}
    {fm : FileManager} (hread : fileManagerRead (encodePage (pageNew k disk.pageSize))
      (sizeofFileHeader + k * disk.pageSize) self.fileManager = .ok (res, bytes) fm) :
    ∃ t, storePage self.nextAddr (decodePage bytes)
        (withPage { self with fileManager := fm } (pageNew k disk.pageSize)) = .ok () t ∧
      t.fileManager = fm ∧ pageManagerReadPage k self = .ok (match res with
        | .ok () => .ok self.nextAddr
        | .error _ => .error "[read_page] Failed to read page header from file") t := by
  have habsent : fileManagerRead (encodePage (pageNew k disk.pageSize)) (pageManagerGetPageOffset self k)
      self.fileManager = .ok (res, bytes) fm := by
    rw [h.pageOffset k hk.le]
    exact hread
  obtain ⟨t, hstore, hfile, hrun⟩ := h.readPage_absent (h.readPage_guard hk) hnew habsent
  refine ⟨t, hstore, hfile, ?_⟩
  cases res with
  | error message => exact hrun
  | ok u => exact hrun

/-- `page_manager_read_page` brings a page of the disk into the cache. -/
theorem Coherent.readPage (h : Coherent self disk) (hk : disk.pages[k]? = some p) :
    ∃ a t, pageManagerReadPage k self = .ok (.ok a) t ∧ Coherent t disk ∧
      findPage t a = some p.page ∧ KeepsCache self t ∧ t.currentFreePage = self.currentFreePage := by
  have hlt := Disk.lt_length hk
  cases hfind : self.allocatedPages.find? fun p => p.rawPage.pageHeader.pageId = (k : Int) with
  | some q =>
      have hq := List.mem_of_find?_eq_some hfind
      have hid : q.rawPage.pageHeader.pageId = k := by simpa using List.find?_some hfind
      refine ⟨q.addr, self, h.readable.readPage_cached hlt hfind, h, ?_, KeepsCache.refl self, rfl⟩
      rw [h.findPage_of_mem hq, h.eq_of_pageId hk hq hid]
  | none =>
      have hnew : ∀ q ∈ self.allocatedPages, q.rawPage.pageHeader.pageId ≠ k := by
        simpa using hfind
      have hread := h.opened.fileManagerRead_eq hk (length_emptyPage disk k)
      obtain ⟨t, hstore, _, hrun⟩ := h.readable.readPage_missing hlt hnew hread
      rw [decodePage_encode (Disk.inRange hk)] at hstore
      have hstored := storePage_withPage h.accessed (pageNew k disk.pageSize) p.page
      rw [show storePage self.nextAddr p.page _ = _ from hstore] at hstored
      cases hstored
      exact ⟨self.nextAddr, _, hrun, h.accessed.allocated hk hnew, findPage_withPage _ _,
        fun a q ha => h.accessed.findPage_withPage_of ha _, rfl⟩

end Reading

section Writing

variable {self t : PageManager} {disk : Disk} {a b : PageAddr} {k : Nat} {p q : StoredPage} {page : Page}

theorem Opened.fileManagerWrite_eq {fm : FileManager} (h : Opened fm disk) (hk : k < disk.pages.length)
    (hq : HasSlots disk.pageSize k q.slots q.page) :
    ∃ fm', fileManagerWrite (encodePage q.page) (sizeofFileHeader + k * disk.pageSize) fm =
      .ok (.ok ()) fm' ∧ Opened fm' (disk.setPage k q hq) := by
  have hm := Nat.mul_le_mul_right disk.pageSize hk
  rw [Nat.succ_mul] at hm
  have hsmall := disk.small
  have hlen : (encodePage q.page).length = disk.pageSize := by
    rw [Storage.length_encodePage, Nat.add_comm]
    exact hq.payload
  have hmin := disk.sizeofPageHeader_le
  rw [sizeofPageHeader] at hmin
  have hwrite := h.reliable.fileWrite_eq (show 0 < (encodePage q.page).length by omega)
    (show sizeofFileHeader + k * disk.pageSize < 2 ^ 63 by omega)
  refine ⟨_, run_onFile hwrite, ⟨h.reliable.isOpen, h.reliable.faults⟩, ?_, ?_⟩
  · simp only [h.content]
    exact Disk.bytes_setPage hk hq
  · simp only [h.header]
    simp [Disk.header, Disk.setPage]

def stored (self : PageManager) (a : PageAddr) (page : Page) : PageManager :=
  { self with
    allocatedPages := self.allocatedPages.map fun p => if p.addr == a then { p with rawPage := page } else p }

theorem run_storePage (self : PageManager) (a : PageAddr) (page : Page) :
    storePage a page self = .ok () (stored self a page) := rfl

theorem findPage_stored (ha : findPage self a = some page) (new : Page) :
    findPage (stored self a new) a = some new := by
  rw [findPage, stored] at *
  simp only at ha ⊢
  generalize self.allocatedPages = pages at ha
  induction pages with
  | nil => simp at ha
  | cons x xs ih =>
      by_cases hx : x.addr = a
      · simp [hx]
      · rw [List.find?_cons_of_neg (by simpa using hx)] at ha
        rw [List.map_cons, List.find?_cons_of_neg (by simp [hx])]
        exact ih ha

theorem findPage_stored_ne (hb : b ≠ a) (new : Page) : findPage (stored self a new) b = findPage self b := by
  unfold findPage stored
  simp only
  generalize self.allocatedPages = pages
  induction pages with
  | nil => rfl
  | cons x xs ih =>
      by_cases hx : x.addr = b
      · have hxa : x.addr ≠ a := hx ▸ hb
        simp [hx, hb]
      · rw [List.map_cons, List.find?_cons_of_neg (by by_cases ha : x.addr = a <;> simp [ha, hx, hb.symm]),
          List.find?_cons_of_neg (by simpa using hx), ih]

theorem map_addr_stored (self : PageManager) (a : PageAddr) (page : Page) :
    (stored self a page).allocatedPages.map AllocatedPage.addr =
      self.allocatedPages.map AllocatedPage.addr := by
  simp only [stored, List.map_map]
  refine List.map_congr_left fun x _ => ?_
  simp only [Function.comp_apply]
  split <;> rfl

theorem Coherent.map_pageId_stored (h : Coherent self disk) (ha : findPage self a = some page) {new : Page}
    (hid : new.pageHeader.pageId = page.pageHeader.pageId) :
    ((stored self a new).allocatedPages.map fun p => p.rawPage.pageHeader.pageId) =
      self.allocatedPages.map fun p => p.rawPage.pageHeader.pageId := by
  simp only [stored, List.map_map]
  refine List.map_congr_left fun x hx => ?_
  simp only [Function.comp_apply]
  split
  · have hxa : x.addr = a := by simpa using ‹(x.addr == a) = true›
    have hfind := h.findPage_of_mem hx
    rw [hxa, ha] at hfind
    cases hfind
    exact hid
  · rfl

theorem mem_stored {x : AllocatedPage} {new : Page} (hx : x ∈ (stored self a new).allocatedPages) :
    x = ⟨a, new⟩ ∨ (x.addr ≠ a ∧ x ∈ self.allocatedPages) := by
  simp only [stored, List.mem_map] at hx
  obtain ⟨y, hy, hxy⟩ := hx
  by_cases hya : y.addr = a
  · left
    rw [← hxy, if_pos (by simpa using hya), hya]
  · right
    rw [if_neg (by simpa using hya)] at hxy
    exact hxy ▸ ⟨hya, hy⟩

/-- A page that is changed in memory and written at once stays coherent. -/
theorem Coherent.write (h : Coherent self disk) (ha : findPage self a = some page)
    (hk : page.pageHeader.pageId = k) (hlt : k < disk.pages.length)
    (hq : HasSlots disk.pageSize k q.slots q.page) :
    ∃ t, writePageOnDisk a (stored self a q.page) = .ok (.ok ()) t ∧ Coherent t (disk.setPage k q hq) ∧
      findPage t a = some q.page ∧ (∀ b ≠ a, findPage t b = findPage self b) ∧
      t.currentFreePage = self.currentFreePage := by
  obtain ⟨fm, hwrite, hopened⟩ := h.opened.fileManagerWrite_eq hlt hq
  have hload := findPage_stored ha q.page
  have hoffset : pageManagerGetPageOffset (stored self a q.page) q.page.pageHeader.pageId =
      sizeofFileHeader + k * disk.pageSize := by
    rw [hq.pageId]
    exact h.opened.pageOffset_eq hlt.le
  have hrun : onFileManager (fileManagerWrite (encodePage q.page)
      (sizeofFileHeader + k * disk.pageSize)) (stored self a q.page) =
        .ok (.ok ()) { stored self a q.page with fileManager := fm } := run_onFileManager hwrite
  refine ⟨{ stored self a q.page with fileManager := fm }, ?_, ?_, hload,
    fun b hb => findPage_stored_ne hb q.page, rfl⟩
  · rw [writePageOnDisk]
    simp only [run_bind, andThen_ok, run_loadPage hload, run_get, hoffset, hrun]
    rfl
  · have hids := h.map_pageId_stored ha (hq.pageId.trans hk.symm)
    constructor
    case opened => exact hopened
    case cached =>
      intro x hx
      rcases mem_stored hx with rfl | ⟨hxa, hx⟩
      · exact ⟨k, q, by simp [hlt], rfl⟩
      · obtain ⟨j, r, hj, hr⟩ := h.cached x hx
        have hjk : j ≠ k := by
          rintro rfl
          refine hxa (congrArg AllocatedPage.addr
            (List.inj_on_of_nodup_map h.ids hx (findPage_mem ha) ?_))
          rw [← hr, Disk.pageId_eq hj, hk]
        exact ⟨j, r, by rw [Disk.setPage_pages, List.getElem?_set_ne hjk.symm, hj], hr⟩
    case ids => exact hids ▸ h.ids
    case addrs => exact (map_addr_stored self a q.page) ▸ h.addrs
    case fresh =>
      intro x hx
      rcases mem_stored hx with rfl | ⟨_, hx⟩
      · exact h.fresh ⟨a, page⟩ (findPage_mem ha)
      · exact h.fresh x hx
    case count =>
      have hcount := h.count
      simp only [stored, List.length_map]
      exact hcount
    case current =>
      intro b hb
      obtain ⟨x, hx, hxb, hxk⟩ := h.current b hb
      by_cases hba : b = a
      · subst hba
        have hfind := h.findPage_of_mem hx
        rw [hxb, ha] at hfind
        cases hfind
        exact ⟨⟨b, q.page⟩, findPage_mem hload, rfl, (hq.pageId.trans hk.symm).trans hxk⟩
      · refine ⟨x, ?_, hxb, hxk⟩
        have hfind := h.findPage_of_mem hx
        rw [hxb, ← findPage_stored_ne hba q.page] at hfind
        have hmem := findPage_mem hfind
        subst hxb
        exact hmem

end Writing

section NewPages

variable {self t : PageManager} {disk : Disk} {a b : PageAddr} {k : Nat} {p q : StoredPage} {page : Page}

def nextPage (disk : Disk) : StoredPage := ⟨pageNew disk.pages.length disk.pageSize, []⟩

theorem nextPage_hasSlots (disk : Disk) :
    HasSlots disk.pageSize disk.pages.length (nextPage disk).slots (nextPage disk).page :=
  pageNew_hasSlots disk.sizeofPageHeader_le

def raisedHeader (disk : Disk) : FileHeader where
  constants := ⟨disk.signature, disk.pageSize⟩
  dynamic := ⟨toUInt32 ((sizeofFileHeader : Int) + (disk.pages.length + 1 : Nat) * disk.pageSize),
    disk.freePage, disk.pages.length + 1⟩

def grownFile (self : FileManager) (disk : Disk) : FileManager where
  file := { self.file with
    content := patch (encodeFileHeader (raisedHeader disk) ++ disk.body)
      (sizeofFileHeader + disk.pages.length * disk.pageSize) (encodePage (nextPage disk).page)
    accesses := self.file.accesses + 1 + 1 }
  header := raisedHeader disk

theorem length_grownFile (fm : FileManager) (disk : Disk) :
    (grownFile fm disk).file.content.length =
      sizeofFileHeader + (disk.pages.length + 1) * disk.pageSize := by
  have hlen : (encodePage (nextPage disk).page).length = disk.pageSize := by
    rw [Storage.length_encodePage, Nat.add_comm]
    exact (nextPage_hasSlots disk).payload
  have hbody : disk.body.length = disk.pages.length * disk.pageSize :=
    length_flatMap_blocks disk.length_encodePage_of_mem
  simp only [grownFile, length_patch, List.length_append, Disk.length_encodeFileHeader, hlen, hbody,
    Nat.succ_mul]
  omega

def withNextPage (self : PageManager) (disk : Disk) : PageManager :=
  withPage { self with fileManager := grownFile self.fileManager disk } (nextPage disk).page

theorem Coherent.pageNew_eq (h : Coherent self disk) :
    pageManagerPageNew self = .ok (.ok (), self.nextAddr) (withNextPage self disk) := by
  have hn := disk.length_pages_lt
  have hsmall := disk.small
  have hmin := disk.sizeofPageHeader_le
  have hid : toInt32 (toInt32 (toInt32 (disk.pages.length : Nat) - 1) + 1) = disk.pages.length := by
    unfold toInt32; omega
  -- the new page is allocated
  have halloc : pageManagerAllocatePage disk.pages.length self =
      .ok self.nextAddr (withPage self (nextPage disk).page) := h.readable.allocatePage_eq _
  -- the header with the new page count is written
  let fm1 : FileManager := ⟨{ self.fileManager.file with
    content := encodeFileHeader (raisedHeader disk) ++ disk.body
    accesses := self.fileManager.file.accesses + 1 }, raisedHeader disk⟩
  have hreliable : Reliable fm1.file := ⟨h.opened.reliable.isOpen, h.opened.reliable.faults⟩
  have hheader : pageManagerSetPagesCount (disk.pages.length + 1)
      (withPage self (nextPage disk).page) =
        .ok (.ok ()) (withPage { self with fileManager := fm1 } (nextPage disk).page) := by
    have hwrite := h.opened.reliable.fileWrite_eq
      (show 0 < (encodeFileHeader (raisedHeader disk)).length by simp [sizeofFileHeader])
      (show 0 < 2 ^ 63 by decide)
    rw [h.opened.content, Disk.patch_header] at hwrite
    rw [pageManagerSetPagesCount]
    simp only [run_bind, andThen_ok, run_modify]
    refine run_onFileManager ?_
    rw [fileManagerWriteHeader]
    simp only [run_bind, andThen_ok, run_modify, run_get, withPage, h.opened.header]
    exact run_onFile hwrite
  -- the page is written behind the last one
  have hpage : pageManagerWritePageOnDisk self.nextAddr
      (withPage { self with fileManager := fm1 } (nextPage disk).page) =
        .ok (.ok ()) (withNextPage self disk) := by
    have hlen : (encodePage (nextPage disk).page).length = disk.pageSize := by
      rw [Storage.length_encodePage, Nat.add_comm]
      exact (nextPage_hasSlots disk).payload
    rw [sizeofPageHeader] at hmin
    have hwrite := hreliable.fileWrite_eq (show 0 < (encodePage (nextPage disk).page).length by omega)
      (show sizeofFileHeader + disk.pages.length * disk.pageSize < 2 ^ 63 by omega)
    have hload := findPage_withPage { self with fileManager := fm1 } (nextPage disk).page
    have hoffset : toUInt32 (pageManagerGetPageOffset
        (withPage { self with fileManager := fm1 } (nextPage disk).page)
        (nextPage disk).page.pageHeader.pageId) =
          sizeofFileHeader + disk.pages.length * disk.pageSize := by
      have hmod : pageManagerGetPageOffset
          (withPage { self with fileManager := fm1 } (nextPage disk).page)
          (nextPage disk).page.pageHeader.pageId =
            sizeofFileHeader + disk.pages.length * disk.pageSize := by
        change (((sizeofFileHeader : Int) + disk.pages.length * disk.pageSize) % 2 ^ 64).toNat = _
        rw [← Nat.cast_mul, ← Nat.cast_add]
        omega
      rw [hmod, toUInt32_of_lt hsmall]
    rw [pageManagerWritePageOnDisk]
    simp only [run_bind, andThen_ok, run_loadPage hload, run_get, hoffset]
    have hrun : onFileManager (fileManagerWrite (encodePage (nextPage disk).page)
        (sizeofFileHeader + disk.pages.length * disk.pageSize))
          (withPage { self with fileManager := fm1 } (nextPage disk).page) =
            .ok (.ok ()) (withNextPage self disk) := run_onFileManager (run_onFile hwrite)
    rw [hrun]
    rfl
  rw [pageManagerPageNew]
  simp only [run_bind, andThen_ok, run_get, pageManagerGetLastPageId, h.opened.pagesCount_eq, hid, halloc]
  have hcount : pageManagerGetPagesCount (withPage self (nextPage disk).page) =
      disk.pages.length := h.opened.pagesCount_eq
  rw [hcount, toUInt32_succ (by omega), hheader]
  simp only [run_bind, andThen_ok, hpage]
  rfl

theorem Coherent.grown (h : Coherent self disk) (hroom : disk.HasRoom) :
    Coherent (withNextPage self disk) (disk.addPage (nextPage disk) (nextPage_hasSlots disk) hroom) := by
  have hold (j : Nat) (r : StoredPage) (hj : disk.pages[j]? = some r) :
      (disk.pages ++ [nextPage disk])[j]? = some r := by
    rw [List.getElem?_append_left (Disk.lt_length hj), hj]
  have hheader : raisedHeader disk =
      (disk.addPage (nextPage disk) (nextPage_hasSlots disk) hroom).header := by
    have hsize : toUInt32 ((sizeofFileHeader : Int) + (disk.pages.length + 1 : Nat) * disk.pageSize) =
        sizeofFileHeader + (disk.pages.length + 1) * disk.pageSize := by
      rw [← Nat.cast_mul, toUInt32_add hroom]
    simp only [raisedHeader, hsize, Disk.header, Disk.addPage, List.length_append, List.length_singleton]
  have hopened : Opened (grownFile self.fileManager disk)
      (disk.addPage (nextPage disk) (nextPage_hasSlots disk) hroom) := by
    refine ⟨⟨h.opened.reliable.isOpen, h.opened.reliable.faults⟩, ?_, hheader⟩
    rw [← Disk.bytes_addPage (nextPage_hasSlots disk) hroom, ← hheader]
    rfl
  have hbase : Coherent { self with fileManager := grownFile self.fileManager disk }
      (disk.addPage (nextPage disk) (nextPage_hasSlots disk) hroom) := by
    refine ⟨hopened, fun x hx => ?_, h.ids, h.addrs, h.fresh, h.count, h.current⟩
    obtain ⟨j, r, hj, hr⟩ := h.cached x hx
    exact ⟨j, r, hold j r hj, hr⟩
  refine hbase.allocated (k := disk.pages.length) (by simp) fun x hx hid => ?_
  obtain ⟨j, r, hj, hr⟩ := h.cached x hx
  have hlt := Disk.lt_length hj
  rw [← hr, Disk.pageId_eq hj] at hid
  omega

/-- `page_manager_set_current_free_page` for a page that is in the cache. -/
theorem Coherent.setCurrentFreePage (h : Coherent self disk) (ha : findPage self a = some page)
    (hid : IsInt32 page.pageHeader.pageId) :
    ∃ t, pageManagerSetCurrentFreePage a self = .ok (.ok ()) t ∧
      Coherent t (disk.setFreePage page.pageHeader.pageId hid) ∧
      t.currentFreePage = some a ∧ t.allocatedPages = self.allocatedPages := by
  have hwrite := h.opened.reliable.fileWrite_eq
    (show 0 < (encodeFileHeader (disk.setFreePage page.pageHeader.pageId hid).header).length by
      simp [sizeofFileHeader])
    (show 0 < 2 ^ 63 by decide)
  have hsize : toUInt32 ((sizeofFileHeader : Int) + disk.pages.length * disk.pageSize) =
      sizeofFileHeader + disk.pages.length * disk.pageSize := by
    rw [← Nat.cast_mul, toUInt32_add disk.small]
  rw [h.opened.content, Disk.patch_header] at hwrite
  let fm : FileManager := ⟨{ self.fileManager.file with
    content := encodeFileHeader (disk.setFreePage page.pageHeader.pageId hid).header ++ disk.body
    accesses := self.fileManager.file.accesses + 1 }, (disk.setFreePage page.pageHeader.pageId hid).header⟩
  have hopened : Opened fm (disk.setFreePage page.pageHeader.pageId hid) :=
    ⟨⟨h.opened.reliable.isOpen, h.opened.reliable.faults⟩, rfl, rfl⟩
  refine ⟨{ self with fileManager := fm, currentFreePage := some a }, ?_, ?_, rfl, rfl⟩
  · rw [pageManagerSetCurrentFreePage]
    simp only [run_bind, andThen_ok, run_loadPage ha, run_modify]
    refine run_onFileManager ?_
    rw [fileManagerWriteHeader]
    simp only [run_bind, andThen_ok, run_modify, run_get, h.opened.header, Disk.header, hsize]
    exact run_onFile hwrite
  · refine ⟨hopened, h.cached, h.ids, h.addrs, h.fresh, h.count, ?_⟩
    intro b hb
    cases hb
    exact ⟨⟨a, page⟩, findPage_mem ha, rfl, rfl⟩

end NewPages

section CurrentFreePage

variable {self t : PageManager} {disk : Disk} {a b : PageAddr} {p : StoredPage} {page : Page} {k : Nat}

/-- The current free page is the last page. -/
structure Settled (disk : Disk) : Prop where
  pages_pos : 0 < disk.pages.length
  freePage : disk.freePage = (disk.pages.length - 1 : Nat)

theorem Coherent.withCurrent (h : Coherent self disk) (ha : findPage self a = some page)
    (hfree : page.pageHeader.pageId = disk.freePage) :
    Coherent { self with currentFreePage := some a } disk := by
  refine ⟨h.opened, h.cached, h.ids, h.addrs, h.fresh, h.count, ?_⟩
  intro b hb
  cases hb
  exact ⟨⟨a, page⟩, findPage_mem ha, rfl, hfree⟩

/-- `page_manager_get_current_free_page` returns the cached page or reads it. -/
theorem Coherent.getCurrentFreePage (h : Coherent self disk) (hk : disk.pages[k]? = some p)
    (hfree : disk.freePage = k) :
    ∃ a t, pageManagerGetCurrentFreePage self = .ok a t ∧ Coherent t disk ∧
      findPage t a = some p.page ∧ KeepsCache self t := by
  have hid : p.page.pageHeader.pageId = disk.freePage := (Disk.pageId_eq hk).trans hfree.symm
  rcases Option.eq_none_or_eq_some self.currentFreePage with hc | ⟨a, hc⟩
  · obtain ⟨a, t, hread, ht, ha, hkeep, _⟩ := h.readPage hk
    have hheader : self.fileManager.header.dynamic.currentFreePage = k := by
      rw [h.opened.header]
      exact hfree
    refine ⟨a, { t with currentFreePage := some a }, ?_, ht.withCurrent ha hid, ha, hkeep⟩
    rw [pageManagerGetCurrentFreePage]
    simp only [run_bind, andThen_ok, run_get, hc]
    rw [hheader, hread]
    rfl
  · obtain ⟨x, hx, rfl, hx'⟩ := h.current a hc
    refine ⟨x.addr, self, ?_, h, ?_, KeepsCache.refl self⟩
    · rw [pageManagerGetCurrentFreePage]
      simp only [run_bind, andThen_ok, run_get, hc, run_pure]
    · rw [h.findPage_of_mem hx, h.eq_of_pageId hk hx (hx'.trans hfree)]

def Disk.grow (disk : Disk) (hroom : disk.HasRoom) : Disk :=
  (disk.addPage (nextPage disk) (nextPage_hasSlots disk) hroom).setFreePage disk.pages.length
    (isInt32_natCast (by have := disk.length_pages_lt; omega))

@[simp] theorem Disk.grow_pages (hroom : disk.HasRoom) :
    (disk.grow hroom).pages = disk.pages ++ [nextPage disk] := rfl

theorem Disk.grow_last (hroom : disk.HasRoom) :
    (disk.grow hroom).pages[disk.pages.length]? = some (nextPage disk) := by
  simp

theorem Disk.grow_settled (hroom : disk.HasRoom) : Settled (disk.grow hroom) :=
  ⟨by simp, by simp [Disk.grow, Disk.setFreePage]⟩

/-- Both callers of `page_manager_page_new` make the new page the current free
page. If the file has no room for it, it has reached `2 ^ 32` bytes. -/
theorem Coherent.pageNew (h : Coherent self disk) :
    ∃ a t, pageManagerPageNew self = .ok (.ok (), a) t ∧ findPage t a = some (nextPage disk).page ∧
      KeepsCache self t ∧
      (∀ hroom : disk.HasRoom, ∃ u, pageManagerSetCurrentFreePage a t = .ok (.ok ()) u ∧
        Coherent u (disk.grow hroom) ∧ findPage u a = some (nextPage disk).page ∧ KeepsCache self u) ∧
      (¬disk.HasRoom → 2 ^ 32 ≤ t.fileManager.file.content.length) := by
  have hfind := findPage_withPage { self with fileManager := grownFile self.fileManager disk }
    (nextPage disk).page
  have hkeep : KeepsCache self (withNextPage self disk) := fun b q hb =>
    h.findPage_withPage_of hb _
  refine ⟨self.nextAddr, withNextPage self disk, h.pageNew_eq, hfind, hkeep, fun hroom => ?_, fun hfull => ?_⟩
  · have hid : IsInt32 (nextPage disk).page.pageHeader.pageId :=
      isInt32_natCast (by have := disk.length_pages_lt; omega)
    obtain ⟨u, hset, hu, _, hpages⟩ := (h.grown hroom).setCurrentFreePage hfind hid
    have hsame : ∀ b, findPage u b = findPage (withNextPage self disk) b := fun b => by
      rw [findPage, findPage, hpages]
    exact ⟨u, hset, hu, by rw [hsame]; exact hfind, fun b q hb => by rw [hsame]; exact hkeep b q hb⟩
  · have hlen := length_grownFile self.fileManager disk
    rw [Disk.HasRoom] at hfull
    change 2 ^ 32 ≤ (grownFile self.fileManager disk).file.content.length
    omega

section Growth

variable {n : Nat}

def AtLeast (n : Nat) (self : PageManager) : Prop := n ≤ self.fileManager.file.content.length

theorem keeps_onFileManager {α : Type} {x : EStateM Fault FileManager α}
    (h : Keeps (fun fm => n ≤ fm.file.content.length) x) : Keeps (AtLeast n) (onFileManager x) :=
  Keeps.zoom (fun _ h => h) (fun _ _ _ h => h) h

theorem keeps_onFile {α : Type} {x : EStateM Fault FileState α}
    (h : Keeps (fun fs => n ≤ fs.content.length) x) :
    Keeps (fun fm : FileManager => n ≤ fm.file.content.length) (onFile x) :=
  Keeps.zoom (fun _ h => h) (fun _ _ _ h => h) h

theorem keeps_loadPage {P : PageManager → Prop} (a : PageAddr) : Keeps P (loadPage a) := by
  refine Keeps.get fun self => ?_
  cases findPage self a with
  | none => exact Keeps.throw _
  | some page => exact Keeps.pure _

theorem keeps_setCurrentFreePage (a : PageAddr) : Keeps (AtLeast n) (pageManagerSetCurrentFreePage a) :=
  Keeps.bind (keeps_loadPage a) fun _ => Keeps.bind (Keeps.modify fun _ h => h) fun _ =>
    keeps_onFileManager (Keeps.bind (Keeps.modify fun _ h => h) fun _ => Keeps.get fun _ =>
      keeps_onFile (keeps_fileWrite n _ _))

theorem keeps_writePageOnDisk (a : PageAddr) : Keeps (AtLeast n) (writePageOnDisk a) :=
  Keeps.bind (keeps_loadPage a) fun _ => Keeps.get fun _ =>
    Keeps.bind (keeps_onFileManager (keeps_onFile (keeps_fileWrite n _ _))) fun _ => Keeps.pure _

theorem keeps_pageManagerWritePageOnDisk (a : PageAddr) :
    Keeps (AtLeast n) (pageManagerWritePageOnDisk a) :=
  Keeps.bind (keeps_loadPage a) fun _ => Keeps.get fun _ =>
    Keeps.bind (keeps_onFileManager (keeps_onFile (keeps_fileWrite n _ _))) fun _ => Keeps.pure _

theorem keeps_setPagesCount (pagesCount : Nat) : Keeps (AtLeast n) (pageManagerSetPagesCount pagesCount) :=
  Keeps.bind (Keeps.modify fun _ h => h) fun _ =>
    keeps_onFileManager (Keeps.bind (Keeps.modify fun _ h => h) fun _ => Keeps.get fun _ =>
      keeps_onFile (keeps_fileWrite n _ _))

theorem keeps_allocatePage (id : Int) : Keeps (AtLeast n) (pageManagerAllocatePage id) := by
  intro self h
  rw [pageManagerAllocatePage]
  by_cases hs : pageManagerGetPageSize self < sizeofPageHeader
  · simp only [run_bind, andThen_ok, run_get, if_pos hs, run_throw]
    exact h
  · simp only [run_bind, andThen_ok, run_get, if_neg hs, run_set, run_pure]
    exact h

theorem keeps_pageNew : Keeps (AtLeast n) pageManagerPageNew := by
  refine Keeps.get fun self => Keeps.bind (keeps_allocatePage _) fun page => Keeps.get fun self =>
    Keeps.bind (keeps_setPagesCount _) fun res => ?_
  cases res with
  | error _ => exact Keeps.pure _
  | ok _ => exact Keeps.bind (keeps_pageManagerWritePageOnDisk _) fun _ => Keeps.pure _

end Growth

/-- `page_manager_get_page_for_data` returns the last page, after adding one if
the last page is full. -/
theorem Coherent.getPageForData (h : Coherent self disk) (hs : Settled disk)
    (hk : disk.pages[disk.pages.length - 1]? = some p) :
    (minimumDataPartSizeBytes ≤ available disk.pageSize p.slots →
      ∃ a t, pageManagerGetPageForData self = .ok a t ∧ Coherent t disk ∧ findPage t a = some p.page ∧
        KeepsCache self t) ∧
    (available disk.pageSize p.slots < minimumDataPartSizeBytes →
      (∀ hroom : disk.HasRoom, ∃ a t, pageManagerGetPageForData self = .ok a t ∧
        Coherent t (disk.grow hroom) ∧ findPage t a = some (nextPage disk).page ∧ KeepsCache self t) ∧
      (¬disk.HasRoom → AtLeast (2 ^ 32) (final (pageManagerGetPageForData self)))) := by
  obtain ⟨a, t, hget, ht, ha, hkeep⟩ := h.getCurrentFreePage hk hs.freePage
  have havail := (disk.layout _ p hk).available_eq disk.pageSize_lt
  rw [pageManagerGetPageForData]
  simp only [run_bind, andThen_ok, hget, run_loadPage ha, havail, Nat.cast_lt]
  constructor
  · intro hroom
    exact ⟨a, t, by simp only [if_neg hroom.not_gt, run_pure], ht, ha, hkeep⟩
  · intro hfull
    obtain ⟨b, u, hnew, hb, hkeep', hgrow, hover⟩ := ht.pageNew
    simp only [if_pos hfull, run_bind, andThen_ok, hnew]
    constructor
    · intro hroom
      obtain ⟨v, hset, hv, hvb, hvkeep⟩ := hgrow hroom
      exact ⟨b, v, by simp only [hset, andThen_ok, run_pure], hv, hvb, hkeep.trans hvkeep⟩
    · intro hroom
      exact Keeps.andThen (keeps_setCurrentFreePage b u (hover hroom)) fun _ => Keeps.pure b

end CurrentFreePage

end DocumentDb.Storage
