import DocumentDb.Storage.Guards
import DocumentDb.Storage.Writes

namespace DocumentDb.Storage

open Bytes Program

section Rejection

variable {self t : PageManager} {disk : Disk} {a : PageAddr} {k : Nat} {p : StoredPage} {payload : ItemPayload}

/-- The call ends in an error, and the file has the page count, the current free page and the
pages of before. -/
structure RejectsUnchanged (page : PageAddr) (payload : ItemPayload) (pm : PageManager) : Prop where
  rejected : ∃ e t, pageManagerPutItem page payload pm = .error e t
  pageCount : (headerOnDisk (final (pageManagerPutItem page payload pm))).dynamic.pageCount =
    (headerOnDisk pm).dynamic.pageCount
  currentFreePage : (headerOnDisk (final (pageManagerPutItem page payload pm))).dynamic.currentFreePage =
    (headerOnDisk pm).dynamic.currentFreePage
  pages : ∀ k, pageOnDisk (final (pageManagerPutItem page payload pm)) k = pageOnDisk pm k

theorem Coherent.headerOnDisk_eq (h : Coherent self disk) : headerOnDisk self = disk.header := by
  rw [headerOnDisk, h.opened.content, disk.decode_header]

/-- A new free page is counted in the file, also when the file has no room for it. -/
theorem Coherent.getNewFreePage_counted (h : Coherent self disk) :
    ∃ t, pageManagerGetNewFreePage self = .ok (.ok self.nextAddr) t ∧
      findPage t self.nextAddr = some (nextPage disk).page ∧
      (headerOnDisk t).dynamic.pageCount = (headerOnDisk self).dynamic.pageCount + 1 := by
  have hcalm : Coherent self.calm disk := h.calm_eq.symm ▸ h
  have hserved := h.opened.reliable.faults
  obtain ⟨res, hnew, hres⟩ := pageNew_outcome hcalm
  obtain rfl := hres.mpr ⟨not_reported (hserved _), not_reported (hserved _)⟩
  obtain ⟨res, hset, hres⟩ := setCurrentFreePage_withPageNew (isOpen_of_calm hcalm)
  obtain rfl := hres.mpr (not_reported (hserved _))
  refine ⟨self.withPageNew.withCurrentFreePage self.nextAddr (nextPageId self), ?_, ?_, ?_⟩
  · rw [pageManagerGetNewFreePage]
    simp only [run_bind, hnew, andThen_ok, run_abortIfFail_ok, hset, run_pure]
    rfl
  · rw [← pageNew_nextPageId hcalm]
    exact findPage_withPageNew self
  · rw [pageCount_withPageNew hcalm (hserved _), h.headerOnDisk_eq]
    rfl

/-- A payload that no page can hold is refused by the new page that was made for it. -/
theorem Coherent.putItem_oversized (h : Coherent self disk) (hk : disk.pages[k]? = some p)
    (ha : findPage self a = some p.page) (h0 : 0 < payload.length) (hn : payload.length < 2 ^ 31)
    (hbig : ¬Fits disk.pageSize [] payload.length) :
    ∃ t, pageManagerPutItem a payload self = .error noSpace t ∧
      (headerOnDisk t).dynamic.pageCount = (headerOnDisk self).dynamic.pageCount + 1 := by
  have hfull : available disk.pageSize p.slots < payload.length := by
    by_contra hroom
    have hfits := fits_of_le_available h0 (Nat.le_of_not_lt hroom)
    rw [Fits, usedSpace] at hfits hbig
    simp only [List.length_nil, Nat.mul_zero, dataSize_nil] at hbig
    omega
  have hfresh : available disk.pageSize (nextPage disk).slots < payload.length := by
    by_contra hroom
    exact hbig (fits_of_le_available h0 (Nat.le_of_not_lt hroom))
  obtain ⟨t, hnew, hfind, hcount⟩ := h.getNewFreePage_counted
  have hadd : pageAddItem (nextPage disk).page payload nullPageIndex = .error noSpace :=
    (nextPage_hasSlots disk).pageAddItem_full disk.pageSize_lt hn hfresh nullPageIndex
  refine ⟨t, ?_, hcount⟩
  rw [pageManagerPutItem_eq h0 (by omega), putTarget]
  simp only [run_bind, run_loadPage ha, andThen_ok, if_pos ((Disk.targets_iff hk h0 hn).mpr hfull), hnew,
    run_abortIfFail_ok, Storage.putWhole, pageManagerAddPartOfItem, run_loadPage hfind, hadd, run_lift_error,
    andThen_error]

end Rejection

section Result

variable {pageSize : Nat} {signature : Int} {s : Session} {a : PageAddr} {page : Page} {payload : ItemPayload}

/-- In no reachable session a payload that is too large for every page is refused before the
file has been changed. -/
theorem reachableSession_not_rejectsUnchanged (hsig : IsInt32 signature) (hmax : pageSize < 2 ^ 32)
    (h : ReachableSession pageSize signature s) (ha : findPage s.manager a = some page) (h0 : 0 < payload.length)
    (hn : payload.length < 2 ^ 31) (hbig : ¬Fits pageSize [] payload.length) :
    ¬RejectsUnchanged a payload s.manager := by
  obtain ⟨disk, hd, _, _, rfl, rfl⟩ := (h.kept pageInvariant_true hsig (h.sizeofPageHeader_le hmax) hmax).managed
  obtain ⟨k, p, hk, rfl, _⟩ := hd.cached_page ha
  obtain ⟨t, hput, hcount⟩ := hd.putItem_oversized hk ha h0 hn hbig
  intro hrejects
  have hsame := hrejects.pageCount
  rw [hput, final_error, hcount] at hsame
  omega

theorem exists_session_64 : ∃ (s : Session) (a : PageAddr) (page : Page) (disk : Disk),
    ReachableSession 64 7 s ∧ findPage s.manager a = some page ∧ Coherent s.manager disk ∧ disk.pageSize = 64 ∧
      disk.pages.length = 1 := by
  have hsig : IsInt32 7 := ⟨by decide, by decide⟩
  have hroom : sizeofFileHeader + 64 < 2 ^ 32 := by decide
  obtain ⟨t, hinit, ht⟩ := (pageManagerInit_new hsig (show sizeofPageHeader ≤ 64 by decide) (by decide)).1 hroom
  have hsettled := freshDisk_settled hsig (show sizeofPageHeader ≤ 64 by decide) hroom
  obtain ⟨p, hp⟩ := hsettled.last
  obtain ⟨a, u, hget, hu, ha, _⟩ := (ht.getPageForData hsettled hp).1 (by
    cases hp
    exact (show minimumDataPartSizeBytes ≤ available 64 [] by decide))
  exact ⟨_, a, p.page, _, .call (.init hinit ht.below) (.getPageForData hget) hu.below, ha, hu, rfl, rfl⟩

/-- Sixteen bytes for pages that hold fifteen. -/
theorem reachableSession_not_rejectsUnchanged_64 :
    ∃ s a, ReachableSession 64 7 s ∧ ¬RejectsUnchanged a (List.replicate 16 0) s.manager := by
  obtain ⟨s, a, page, _, hs, ha, _⟩ := exists_session_64
  exact ⟨s, a, hs, reachableSession_not_rejectsUnchanged ⟨by decide, by decide⟩ (by decide) hs ha (by decide)
    (by decide) (by decide)⟩

/-- The file has one page before the call and two after it has been refused. -/
theorem putItem_grows_file : ∃ (s : Session) (a : PageAddr) (page : Page) (t : PageManager),
    ReachableSession 64 7 s ∧ findPage s.manager a = some page ∧ ¬Fits 64 [] 16 ∧
      pageManagerPutItem a (List.replicate 16 0) s.manager = .error noSpace t ∧
      (headerOnDisk s.manager).dynamic.pageCount = 1 ∧ (headerOnDisk t).dynamic.pageCount = 2 := by
  obtain ⟨s, a, page, disk, hs, ha, hd, hsize, hpages⟩ := exists_session_64
  obtain ⟨k, p, hk, rfl, _⟩ := hd.cached_page ha
  have hbig : ¬Fits disk.pageSize [] (List.replicate 16 (0 : UInt8)).length := by
    rw [hsize]
    decide
  obtain ⟨t, hput, hcount⟩ := hd.putItem_oversized hk ha (by decide) (by decide) hbig
  have hone : (headerOnDisk s.manager).dynamic.pageCount = 1 := by
    rw [hd.headerOnDisk_eq]
    exact hpages
  exact ⟨s, a, p.page, t, hs, ha, by decide, hput, hone, by rw [hcount, hone]⟩

end Result

end DocumentDb.Storage
