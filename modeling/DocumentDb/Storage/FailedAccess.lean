import DocumentDb.Storage.Cache
import DocumentDb.Storage.OpenedFiles
import DocumentDb.Storage.OversizedItems

namespace DocumentDb.Storage

open Bytes Program

section Reads

variable {self t : PageManager} {k : Int}

structure SameCache (pm t : PageManager) : Prop where
  allocatedPages : t.allocatedPages = pm.allocatedPages
  allocatedPagesCount : t.allocatedPagesCount = pm.allocatedPagesCount
  currentFreePage : t.currentFreePage = pm.currentFreePage

def IsLoaded (pm : PageManager) (a : PageAddr) (k : Int) : Prop :=
  ∃ (page : Page) (j : Nat), findPage pm a = some page ∧ k = j ∧ pageOnDisk pm j = encodePage page

/-- When the page cannot be read, the cache is as before, and the same read does not return a
page that was never loaded later on. -/
def ReadUndone (pm : PageManager) (k : Int) : Prop :=
  ∀ message t, pageManagerReadPage k pm = .ok (.error message) t → SameCache pm t ∧
    ∀ faults a u, pageManagerReadPage k (t.withFaults faults) = .ok (.ok a) u → IsLoaded u a k

/-- The page does not exist, or is in the cache, or it has its place in the file and the next access
does not fail. -/
def ReadServed (pm : PageManager) (k : Int) : Prop :=
  toInt32 (pageManagerGetPagesCount pm) ≤ k ∨ (cachedPage pm k).isSome ∨ ReadableAt pm k

instance (pm : PageManager) (k : Int) : Decidable (ReadServed pm k) := inferInstanceAs (Decidable (_ ∨ _))

theorem SoundCache.readPage_failed (h : SoundCache self) (hserved : ¬ReadServed self k) :
    ∃ message t, pageManagerReadPage k self = .ok (.error message) t ∧
      t.allocatedPages.length = self.allocatedPages.length + 1 := by
  obtain ⟨hguard, hrest⟩ := not_or.mp hserved
  obtain ⟨hcached, hread⟩ := not_or.mp hrest
  have hnew : cachedPage self k = none := Option.not_isSome_iff_eq_none.mp hcached
  obtain ⟨message, bytes, hrun⟩ := h.readPage_unreadable hguard hnew hread
  exact ⟨message, _, hrun, rfl⟩

theorem SoundCache.readPage_not_failed (h : SoundCache self) (hserved : ReadServed self k) (message : String)
    (t : PageManager) : pageManagerReadPage k self ≠ .ok (.error message) t := by
  intro hrun
  have hguard := readPage_guard_passed hrun
  cases hcached : cachedPage self k with
  | some p =>
      rw [h.readPage_cached hguard hcached] at hrun
      cases hrun
  | none =>
      have hread : ReadableAt self k := by
        refine (hserved.resolve_left hguard).resolve_left ?_
        rw [hcached]
        simp
      rw [h.readPage_readable hguard hcached hread] at hrun
      cases hrun

theorem readUndone_iff (h : SoundCache self) (k : Int) : ReadUndone self k ↔ ReadServed self k := by
  constructor
  · intro hundone
    by_contra hserved
    obtain ⟨message, t, hrun, hlength⟩ := h.readPage_failed hserved
    obtain ⟨hsame, _⟩ := hundone message t hrun
    rw [hsame.allocatedPages] at hlength
    omega
  · intro hserved message t hrun
    exact absurd hrun (h.readPage_not_failed hserved message t)

end Reads

section NewPages

variable {self t : PageManager}

/-- What `page_manager_page_new` should leave alone when it fails. -/
structure NewUnchanged (pm t : PageManager) : Prop where
  pagesCount : pageManagerGetPagesCount t = pageManagerGetPagesCount pm
  pagesCountOnDisk : (headerOnDisk t).dynamic.pageCount = (headerOnDisk pm).dynamic.pageCount
  freePage : t.fileManager.header.dynamic.currentFreePage = pm.fileManager.header.dynamic.currentFreePage
  cache : SameCache pm t

/-- When the new page cannot be written, nothing has changed. -/
def NewUndone (pm : PageManager) : Prop :=
  ∀ message a t, pageManagerPageNew pm = .ok (.error message, a) t → NewUnchanged pm t

/-- Neither the write of the header nor that of the page returns an error. -/
def NewServed (pm : PageManager) : Prop :=
  ¬Reported (pm.fileManager.file.faults pm.fileManager.file.accesses) ∧
    ¬Reported (pm.fileManager.file.faults (pm.fileManager.file.accesses + 1))

instance (pm : PageManager) : Decidable (NewServed pm) := inferInstanceAs (Decidable (_ ∧ _))

theorem newUndone_iff (h : SoundCache self) : NewUndone self ↔ NewServed self := by
  obtain ⟨res, hrun, hres⟩ := h.pageNew_outcome
  constructor
  · intro hundone
    apply hres.mp
    cases res with
    | ok u => rfl
    | error message =>
        have hlength := congrArg List.length (hundone message _ _ hrun).cache.allocatedPages
        rw [length_withPageNew] at hlength
        omega
  · intro hserved message a t herror
    obtain rfl := hres.mpr hserved
    rw [hrun] at herror
    cases herror

end NewPages

section FreePages

variable {self t : PageManager} {page : Page} {n : Nat}

/-- The current free page as `page_manager_get_current_free_page` finds it, and the number of the access
that comes next: it is in memory, or it is read from the file. -/
def freePage (pm : PageManager) : Option (Page × Nat) :=
  match pm.currentFreePage with
  | some a => (findPage pm a).map fun page => (page, pm.fileManager.file.accesses)
  | none =>
    let k := pm.fileManager.header.dynamic.currentFreePage
    if toInt32 (pageManagerGetPagesCount pm) ≤ k then
      none
    else
      match cachedPage pm k with
      | some p => some (p.rawPage, pm.fileManager.file.accesses)
      | none =>
        if ReadableAt pm k then
          some (decodePage (bytesAt pm k), pm.fileManager.file.accesses + 1)
        else
          none

theorem getCurrentFreePage_read {a : PageAddr} (hcurrent : self.currentFreePage = none)
    (hread : pageManagerReadPage self.fileManager.header.dynamic.currentFreePage self = .ok (.ok a) t) :
    pageManagerGetCurrentFreePage self = .ok a { t with currentFreePage := some a } := by
  rw [pageManagerGetCurrentFreePage]
  simp only [run_bind, run_get, andThen_ok, hcurrent, hread, run_abortIfFail_ok, run_modify, run_pure]

theorem SoundCache.getCurrentFreePage_found (h : SoundCache self) (hfree : freePage self = some (page, n)) :
    ∃ a t, pageManagerGetCurrentFreePage self = .ok a t ∧ SoundCache t ∧ findPage t a = some page ∧
      t.fileManager = { self.fileManager with file.accesses := n } := by
  rw [freePage] at hfree
  cases hcurrent : self.currentFreePage with
  | some a =>
      simp only [hcurrent] at hfree
      obtain ⟨found, ha, heq⟩ := Option.map_eq_some_iff.mp hfree
      cases heq
      refine ⟨a, self, ?_, h, ha, rfl⟩
      rw [pageManagerGetCurrentFreePage]
      simp only [run_bind, run_get, andThen_ok, hcurrent, run_pure]
  | none =>
      simp only [hcurrent] at hfree
      split at hfree
      · cases hfree
      rename_i hguard
      cases hcached : cachedPage self self.fileManager.header.dynamic.currentFreePage with
      | some p =>
          simp only [hcached, Option.some.injEq, Prod.mk.injEq] at hfree
          obtain ⟨rfl, rfl⟩ := hfree
          have hp := findPage_of_mem h.addrs (cachedPage_mem hcached)
          exact ⟨p.addr, _, getCurrentFreePage_read hcurrent (h.readPage_cached hguard hcached), h.withCurrent hp,
            hp, rfl⟩
      | none =>
          simp only [hcached] at hfree
          split at hfree
          case isFalse => cases hfree
          rename_i hread
          cases hfree
          have hp : findPage (self.withRead (bytesAt self self.fileManager.header.dynamic.currentFreePage)) self.nextAddr =
              some (decodePage (bytesAt self self.fileManager.header.dynamic.currentFreePage)) :=
            findPage_withAllocated self _
          exact ⟨self.nextAddr, _, getCurrentFreePage_read hcurrent (h.readPage_readable hguard hcached hread),
            (h.withRead _).withCurrent hp, hp, rfl⟩

/-- A current free page that cannot be found ends the program. -/
theorem SoundCache.getCurrentFreePage_lost (h : SoundCache self) (hfree : freePage self = none) (a : PageAddr) :
    pageManagerGetCurrentFreePage self ≠ .ok a t := by
  intro hrun
  rw [freePage] at hfree
  rw [pageManagerGetCurrentFreePage] at hrun
  cases hcurrent : self.currentFreePage with
  | some b =>
      obtain ⟨page, hb⟩ := h.current b hcurrent
      simp [hcurrent, hb] at hfree
  | none =>
      simp only [hcurrent] at hfree
      simp only [run_bind, run_get, andThen_ok, hcurrent] at hrun
      obtain ⟨res, u, hread, hrest⟩ := bind_eq_ok.mp hrun
      obtain ⟨b, v, habort, _⟩ := bind_eq_ok.mp hrest
      obtain ⟨rfl, rfl⟩ := abortIfFail_eq_ok.mp habort
      have hguard := readPage_guard_passed hread
      rw [if_neg hguard] at hfree
      cases hcached : cachedPage self self.fileManager.header.dynamic.currentFreePage with
      | some p => simp [hcached] at hfree
      | none =>
          simp only [hcached] at hfree
          split at hfree
          · cases hfree
          rename_i hunreadable
          obtain ⟨message, bytes, hfailed⟩ := h.readPage_unreadable hguard hcached hunreadable
          rw [hfailed] at hread
          cases hread

end FreePages

section DataPages

variable {self t : PageManager} {a : PageAddr} {page : Page} {n : Nat}

/-- The file counts the page and holds its bytes. -/
def PageStored (pm : PageManager) (page : Page) : Prop :=
  0 ≤ page.pageHeader.pageId ∧ page.pageHeader.pageId.toNat < (headerOnDisk pm).dynamic.pageCount ∧
    pageOnDisk pm page.pageHeader.pageId.toNat = encodePage page

instance (pm : PageManager) (page : Page) : Decidable (PageStored pm page) := inferInstanceAs (Decidable (_ ∧ _))

def IsStored (pm : PageManager) (a : PageAddr) : Prop := ∃ page, findPage pm a = some page ∧ PageStored pm page

/-- The page that `page_manager_get_page_for_data` hands out is in the file. -/
def DataStored (pm : PageManager) : Prop :=
  ∀ a t, pageManagerGetPageForData pm = .ok a t → IsStored t a

/-- How many bytes of the new header are in the file after the two writes of it, when access `n` is the first. -/
def headerBytesMoved (faults : Nat → Option IoFault) (n : Nat) : Nat :=
  max (bytesMoved (faults n) sizeofFileHeader)
    (bytesMoved (faults (if Reported (faults n) then n + 1 else n + 2)) sizeofFileHeader)

def pageBytesMoved (faults : Nat → Option IoFault) (n pageSize : Nat) : Nat :=
  if Reported (faults n) then 0 else bytesMoved (faults (n + 1)) pageSize

/-- The page count in the file once that many bytes of the new header are in it, and the others are as before. -/
def countMoved (content : List UInt8) (pagesCount moved : Nat) : Nat :=
  decodeLE ((List.range 4).map fun i =>
    if 16 + i < moved then byteAt (encodeUInt32 pagesCount) i else byteAt content (16 + i))

/-- The accesses from number `n` on move enough bytes for the new page to be counted and to be there, next to the
bytes that were there before. -/
def NewStored (pm : PageManager) (n : Nat) : Prop :=
  let faults := pm.fileManager.file.faults
  let pagesCount := pageManagerGetPagesCount pm
  pagesCount < countMoved pm.fileManager.file.content (pagesCount + 1) (headerBytesMoved faults n) ∧
    (pageOnDisk pm pagesCount).drop (pageBytesMoved faults n (pageManagerGetPageSize pm)) =
      (encodePage (pageNew pagesCount (pageManagerGetPageSize pm))).drop
        (pageBytesMoved faults n (pageManagerGetPageSize pm))

instance (pm : PageManager) (n : Nat) : Decidable (NewStored pm n) := inferInstanceAs (Decidable (_ ∧ _))

/-- A current free page that has room is in the file, and when it has none, enough of the new page is written. When
it cannot be found, the program ends. -/
def FreePageServed (pm : PageManager) : Option (Page × Nat) → Prop
  | none => True
  | some (page, n) =>
    if minimumDataPartSizeBytes ≤ pageGetPayloadAvailableSpace page then PageStored pm page else NewStored pm n

instance (pm : PageManager) : (found : Option (Page × Nat)) → Decidable (FreePageServed pm found)
  | none => isTrue trivial
  | some (page, n) => inferInstanceAs (Decidable
    (if minimumDataPartSizeBytes ≤ pageGetPayloadAvailableSpace page then PageStored pm page else NewStored pm n))

def DataServed (pm : PageManager) : Prop := FreePageServed pm (freePage pm)

instance (pm : PageManager) : Decidable (DataServed pm) := inferInstanceAs (Decidable (FreePageServed _ _))

theorem byteAt_pageCount (h : SoundCache self) (hbelow : PagesBelow self) {i : Nat} (hi : i < 4) :
    byteAt (self.withPageNew.withCurrentFreePage a (nextPageId self)).fileManager.file.content (16 + i) =
      if 16 + i < headerBytesMoved self.fileManager.file.faults self.fileManager.file.accesses then
        byteAt (encodeUInt32 (pageManagerGetPagesCount self + 1)) i
      else
        byteAt self.fileManager.file.content (16 + i) := by
  have hoffset : sizeofFileHeader ≤ toUInt32 (pageManagerGetPageOffset self (nextPageId self)) := by
    rw [hbelow.nextOffset h.pageSize]
    exact Nat.le_add_right _ _
  have hraised : toUInt32 ((pageManagerGetPagesCount self : Int) + 1) = pageManagerGetPagesCount self + 1 :=
    hbelow.pagesCount_raised h.pageSize
  have hcount : pageManagerGetPagesCount self.withPageNew = pageManagerGetPagesCount self + 1 :=
    (pagesCount_withPageNew self).trans hraised
  have hfirst : byteAt self.raised.fileManager.file.content (16 + i) =
      if 16 + i < bytesMoved (self.fileManager.file.faults self.fileManager.file.accesses) sizeofFileHeader then
        byteAt (encodeUInt32 (toUInt32 ((pageManagerGetPagesCount self : Int) + 1))) i
      else
        byteAt self.fileManager.file.content (16 + i) := byteAt_headerWritten _ hi
  have hsecond : byteAt (self.withPageNew.withCurrentFreePage a (nextPageId self)).fileManager.file.content (16 + i) =
      if 16 + i < bytesMoved (self.withPageNew.fileManager.file.faults self.withPageNew.fileManager.file.accesses)
          sizeofFileHeader then
        byteAt (encodeUInt32 (pageManagerGetPagesCount self.withPageNew)) i
      else
        byteAt self.withPageNew.fileManager.file.content (16 + i) := byteAt_headerWritten _ hi
  rw [hsecond, byteAt_withPageNew hoffset hi, hfirst, hraised, hcount, faults_withPageNew, accesses_withPageNew,
    headerBytesMoved]
  simp only [lt_max_iff]
  grind

theorem pageCount_withNew (h : SoundCache self) (hbelow : PagesBelow self) :
    (headerOnDisk (self.withPageNew.withCurrentFreePage a (nextPageId self))).dynamic.pageCount =
      countMoved self.fileManager.file.content (pageManagerGetPagesCount self + 1)
        (headerBytesMoved self.fileManager.file.faults self.fileManager.file.accesses) := by
  rw [pageCount_headerOnDisk, decodeLE_slice, countMoved]
  congr 1
  apply List.map_congr_left
  intro i hi
  exact byteAt_pageCount h hbelow (List.mem_range.mp hi)

theorem pageOnDisk_withNew (h : SoundCache self) (hbelow : PagesBelow self) {moved : Nat}
    (hmoved : moved = pageBytesMoved self.fileManager.file.faults self.fileManager.file.accesses
      (pageManagerGetPageSize self)) :
    pageOnDisk (self.withPageNew.withCurrentFreePage a (nextPageId self)) (pageManagerGetPagesCount self) =
      (encodePage (pageNew (pageManagerGetPagesCount self) (pageManagerGetPageSize self))).take moved ++
        (pageOnDisk self (pageManagerGetPagesCount self)).drop moved := by
  have hoffset := hbelow.nextOffset h.pageSize
  have hbehind : sizeofFileHeader ≤ toUInt32 (pageManagerGetPageOffset self (nextPageId self)) := by
    rw [hoffset]
    exact Nat.le_add_right _ _
  have hbefore := slice_withPageNew hbehind h.pageSize hmoved
  have hafter : slice (self.withPageNew.withCurrentFreePage a (nextPageId self)).fileManager.file.content
      (toUInt32 (pageManagerGetPageOffset self (nextPageId self))) (pageManagerGetPageSize self) =
        slice self.withPageNew.fileManager.file.content
          (toUInt32 (pageManagerGetPageOffset self (nextPageId self))) (pageManagerGetPageSize self) :=
    slice_headerWritten_after hbehind
  have hsize : (self.withPageNew.withCurrentFreePage a (nextPageId self)).fileManager.header.constants.pageSize =
      pageManagerGetPageSize self := pageSize_withPageNew self
  rw [hbefore, hoffset, hbelow.nextPageId h.pageSize] at hafter
  rw [pageOnDisk, hsize, hbelow.nextPageId h.pageSize]
  exact hafter

theorem isStored_withNew (h : SoundCache self) (hbelow : PagesBelow self) :
    IsStored (self.withPageNew.withCurrentFreePage self.nextAddr (nextPageId self)) self.nextAddr ↔
      NewStored self self.fileManager.file.accesses := by
  have hfind : findPage (self.withPageNew.withCurrentFreePage self.nextAddr (nextPageId self)) self.nextAddr =
      some (pageNew (pageManagerGetPagesCount self) (pageManagerGetPageSize self)) := by
    rw [← hbelow.nextPageId h.pageSize]
    exact findPage_withPageNew self
  have hpage := pageOnDisk_withNew (a := self.nextAddr) h hbelow rfl
  have hstored : pageOnDisk (self.withPageNew.withCurrentFreePage self.nextAddr (nextPageId self))
      (pageManagerGetPagesCount self) =
        encodePage (pageNew (pageManagerGetPagesCount self) (pageManagerGetPageSize self)) ↔
      (pageOnDisk self (pageManagerGetPagesCount self)).drop
          (pageBytesMoved self.fileManager.file.faults self.fileManager.file.accesses (pageManagerGetPageSize self)) =
        (encodePage (pageNew (pageManagerGetPagesCount self) (pageManagerGetPageSize self))).drop
          (pageBytesMoved self.fileManager.file.faults self.fileManager.file.accesses
            (pageManagerGetPageSize self)) := by
    rw [hpage]
    conv_lhs => rhs; rw [← List.take_append_drop (pageBytesMoved self.fileManager.file.faults
      self.fileManager.file.accesses (pageManagerGetPageSize self)) (encodePage _)]
    exact List.append_right_inj _
  rw [NewStored, ← hstored, ← pageCount_withNew (a := self.nextAddr) h hbelow]
  constructor
  · rintro ⟨page, ha, _, hcount, hbytes⟩
    rw [hfind] at ha
    cases ha
    exact ⟨hcount, hbytes⟩
  · rintro ⟨hcount, hbytes⟩
    exact ⟨_, hfind, Int.natCast_nonneg _, hcount, hbytes⟩

theorem getPageForData_room (hget : pageManagerGetCurrentFreePage self = .ok a t)
    (ha : findPage t a = some page) (hroom : minimumDataPartSizeBytes ≤ pageGetPayloadAvailableSpace page) :
    pageManagerGetPageForData self = .ok a t := by
  rw [pageManagerGetPageForData]
  simp only [run_bind, hget, andThen_ok, run_loadPage ha, if_neg hroom.not_gt, run_pure]

/-- Without room on the current free page, the page that `page_manager_page_new` has made is handed out,
whatever it reports. -/
theorem getPageForData_full (ht : SoundCache t) (hget : pageManagerGetCurrentFreePage self = .ok a t)
    (ha : findPage t a = some page) (hfull : ¬minimumDataPartSizeBytes ≤ pageGetPayloadAvailableSpace page) :
    pageManagerGetPageForData self =
      .ok t.nextAddr (t.withPageNew.withCurrentFreePage t.nextAddr (nextPageId t)) := by
  obtain ⟨res, hnew, _⟩ := ht.pageNew_outcome
  obtain ⟨res', hset, _⟩ := setCurrentFreePage_withPageNew ht.isOpen
  rw [pageManagerGetPageForData]
  simp only [run_bind, hget, andThen_ok, run_loadPage ha, if_pos (lt_of_not_ge hfull), hnew, hset, run_pure]

theorem pageStored_of_accesses (ht : t.fileManager = { self.fileManager with file.accesses := n }) (page : Page) :
    PageStored t page ↔ PageStored self page := by
  simp only [PageStored, headerOnDisk, pageOnDisk, ht]

theorem newStored_of_accesses (ht : t.fileManager = { self.fileManager with file.accesses := n }) (m : Nat) :
    NewStored t m ↔ NewStored self m := by
  simp only [NewStored, pageManagerGetPagesCount, pageManagerGetPageSize, pageOnDisk, ht]

theorem pagesBelow_of_accesses (ht : t.fileManager = { self.fileManager with file.accesses := n })
    (h : PagesBelow self) : PagesBelow t := by
  rw [PagesBelow, pageManagerGetPagesCount, pageManagerGetPageSize, ht]
  exact h

theorem dataStored_iff (h : SoundCache self) (hbelow : PagesBelow self) : DataStored self ↔ DataServed self := by
  cases hfree : freePage self with
  | none =>
      refine iff_of_true (fun a t hrun => ?_) ?_
      · obtain ⟨b, u, hget, _⟩ := bind_eq_ok.mp hrun
        exact absurd hget (h.getCurrentFreePage_lost hfree b)
      · rw [DataServed, hfree]
        trivial
  | some found =>
      obtain ⟨page, n⟩ := found
      obtain ⟨a, t, hget, ht, ha, hfile⟩ := h.getCurrentFreePage_found hfree
      have hdata {b : PageAddr} {u : PageManager} (hrun : pageManagerGetPageForData self = .ok b u) :
          DataStored self ↔ IsStored u b := by
        constructor
        · intro hdata
          exact hdata b u hrun
        · intro hstored b' u' hrun'
          rw [hrun] at hrun'
          cases hrun'
          exact hstored
      rw [DataServed, hfree, FreePageServed]
      split
      case isTrue hroom =>
        rw [hdata (getPageForData_room hget ha hroom), IsStored, ← pageStored_of_accesses hfile]
        simp [ha]
      case isFalse hfull =>
        have haccesses : t.fileManager.file.accesses = n := by rw [hfile]
        rw [hdata (getPageForData_full ht hget ha hfull), isStored_withNew ht (pagesBelow_of_accesses hfile hbelow),
          haccesses, newStored_of_accesses hfile]

end DataPages

section Opening

variable {self t : PageManager} {pageSize : Nat} {signature : Int} {existing : Option (List UInt8)}
  {faults : Nat → Option IoFault}

theorem keeps_isOpen_fileManagerInit (constants : FileHeaderConstants) :
    Keeps (fun fm : FileManager => fm.file.isOpen = true) (fileManagerInit constants) := by
  have hread (buffer : List UInt8) :
      Keeps (fun fm : FileManager => fm.file.isOpen = true) (onFile (fileRead buffer 0)) :=
    Keeps.zoom (fun _ h => h) (fun _ _ _ hopen => hopen)
      (keeps_fileRead_of (P := fun fs => fs.isOpen = true) buffer 0 fun _ h => h)
  have hwrite : Keeps (fun fm : FileManager => fm.file.isOpen = true) fileManagerWriteHeader :=
    Keeps.bind (Keeps.modify fun _ h => h) fun _ => Keeps.get fun _ =>
      Keeps.zoom (fun _ h => h) (fun _ _ _ hopen => hopen)
        (keeps_fileWrite_of (P := fun fs => fs.isOpen = true) (fun _ h => h) fun _ _ h => h)
  have hreadHeader : Keeps (fun fm : FileManager => fm.file.isOpen = true) fileManagerReadHeader :=
    Keeps.get fun _ => Keeps.bind (hread _) fun _ => Keeps.bind (Keeps.modify fun _ h => h) fun _ => Keeps.pure _
  have hsigned {f : Result Unit → EStateM Fault FileManager (Result Unit)}
      (herror : ∀ message, f (.error message) = pure (.error message))
      (hok : f (.ok ()) = do
        let self ← get
        if self.header.constants.signature ≠ constants.signature then
          return .error "File signature doesn't match"
        return .ok ()) (res : Result Unit) : Keeps (fun fm : FileManager => fm.file.isOpen = true) (f res) := by
    cases res with
    | error message =>
        rw [herror]
        exact Keeps.pure _
    | ok u =>
        rw [hok]
        exact Keeps.get fun _ => Keeps.ite (Keeps.pure _) (Keeps.pure _)
  apply Keeps.get
  intro self
  apply Keeps.ite
  · refine Keeps.bind (hread [0]) fun _ => Keeps.ite ?_ ?_
    · exact Keeps.bind (Keeps.modify fun _ h => h) fun _ => Keeps.bind hwrite fun _ =>
        Keeps.bind (Keeps.pure _) (hsigned (fun _ => rfl) rfl)
    · exact Keeps.bind hreadHeader fun _ => Keeps.bind (Keeps.pure _) (hsigned (fun _ => rfl) rfl)
  · refine Keeps.ite ?_ ?_
    · exact Keeps.bind (Keeps.modify fun _ h => h) fun _ => Keeps.bind hwrite fun _ =>
        Keeps.bind (Keeps.pure _) (hsigned (fun _ => rfl) rfl)
    · exact Keeps.bind hreadHeader fun _ => Keeps.bind (Keeps.pure _) (hsigned (fun _ => rfl) rfl)

theorem allocatePage_small (hsize : ¬sizeofPageHeader ≤ pageManagerGetPageSize self) (id : Int) :
    pageManagerAllocatePage id self = .error (.undefined "page header written behind the end of the page") self := by
  rw [pageManagerAllocatePage]
  simp only [run_bind, run_get, andThen_ok, if_pos (Nat.lt_of_not_le hsize), run_throw, andThen_error]

theorem SoundCache.initPages_ok (hopen : self.fileManager.file.isOpen = true) (hpages : self.allocatedPages = [])
    (hcount : self.allocatedPagesCount = 0) (hcurrent : self.currentFreePage = none)
    (hrun : initPages self = .ok (.ok ()) t) : SoundCache t := by
  by_cases hsize : sizeofPageHeader ≤ pageManagerGetPageSize self
  · have h : SoundCache self := by
      refine ⟨hopen, hsize, ?_, ?_, ?_, ?_⟩
      · rw [hcount]
        exact Nat.zero_le _
      · rw [hpages]
        exact List.nodup_nil
      · rw [hpages]
        exact fun p hp => absurd hp List.not_mem_nil
      · rw [hcurrent]
        exact fun a ha => nomatch ha
    rw [initPages, run_get_bind] at hrun
    split at hrun
    · obtain ⟨res, hnew, _⟩ := h.pageNew_outcome
      simp only [run_bind, hnew, andThen_ok, keepFreePage, reduceCtorEq, if_false, run_modify, run_pure] at hrun
      cases hrun
      exact h.withPageNew.withCurrent (findPage_withPageNew self)
    · obtain ⟨res, u, hread, hrest⟩ := bind_eq_ok.mp hrun
      obtain ⟨hu, hfound⟩ := h.readPage_ok hread
      cases res with
      | error message => cases hrest
      | ok a =>
          obtain ⟨page, ha⟩ := hfound a rfl
          cases hrest
          exact hu.withCurrent ha
  · exfalso
    rw [initPages, run_get_bind] at hrun
    split at hrun
    · rw [pageManagerPageNew] at hrun
      simp only [run_bind, run_get, andThen_ok, allocatePage_small hsize, andThen_error, reduceCtorEq] at hrun
    · obtain ⟨res, u, hread, _⟩ := bind_eq_ok.mp hrun
      have hguard := readPage_guard_passed hread
      rw [pageManagerReadPage, pageManagerGetPageFromRam] at hread
      simp only [run_bind, run_get, andThen_ok, if_neg hguard, hcount, hpages, getPageFromRamLoop, run_lift_ok,
        allocatePage_small hsize, andThen_error, reduceCtorEq] at hread

/-- When a file has been opened, whatever it holds and whatever has failed, the cache is sound. -/
theorem SoundCache.init (hrun : pageManagerInit pageSize signature (pageManagerNew (fileOpen existing faults)) =
    .ok (.ok ()) t) : SoundCache t := by
  rw [pageManagerInit_eq] at hrun
  obtain ⟨res, u, hfile, hrest⟩ := bind_eq_ok.mp hrun
  obtain ⟨fm, hinit, rfl⟩ := zoom_eq_ok.mp hfile
  have hopen : fm.file.isOpen = true := (keeps_isOpen_fileManagerInit _).ok rfl hinit
  cases res with
  | error message => cases hrest
  | ok u => exact SoundCache.initPages_ok hopen rfl rfl rfl hrest

end Opening

section Runs

/-- A client of the page manager on a disk of which any access may fail, then and afterwards. The file may hold
anything when it is opened, so it may also be one that failures have left behind. At any time the environment may
decide anew which accesses fail from then on. -/
inductive FailingRun (signature : Int) : Session → Prop
  | init {pageSize existing faults t} :
      pageManagerInit pageSize signature (pageManagerNew (fileOpen existing faults)) = .ok (.ok ()) t →
      FailingRun signature ⟨t, [], []⟩
  | faults {s} (faults : Nat → Option IoFault) : FailingRun signature s →
      FailingRun signature { s with manager := s.manager.withFaults faults }
  | call {s s'} : FailingRun signature s → Call s s' → FailingRun signature s'
  | readPage {s k res t} : FailingRun signature s → pageManagerReadPage k s.manager = .ok res t →
      FailingRun signature { s with manager := t }
  | pageNew {s res a t} : FailingRun signature s → pageManagerPageNew s.manager = .ok (res, a) t →
      FailingRun signature { s with manager := t }

variable {signature : Int} {s : Session}

theorem FailingRun.soundCache (h : FailingRun signature s) : SoundCache s.manager := by
  induction h with
  | init hinit => exact SoundCache.init hinit
  | faults faults _ ih => exact ih.withFaults faults
  | call _ hcall ih => exact keptByWrites_soundCache.call hcall ih
  | readPage _ hread ih => exact (SoundCache.keeps_readPage _).ok ih hread
  | pageNew _ hnew ih => exact SoundCache.keeps_pageNew.ok ih hnew

/-- In every state that is reached, whatever has failed before, the functions do what they should exactly
when the accesses they make are served. -/
theorem failingRun_undone_iff (h : FailingRun signature s) :
    (∀ k, ReadUndone s.manager k ↔ ReadServed s.manager k) ∧ (NewUndone s.manager ↔ NewServed s.manager) ∧
      (PagesBelow s.manager → (DataStored s.manager ↔ DataServed s.manager)) :=
  ⟨readUndone_iff h.soundCache, newUndone_iff h.soundCache, dataStored_iff h.soundCache⟩

/-- The file of a session can also be written on a disk on which accesses fail. -/
theorem ReachableSession.failingRun {pageSize : Nat} (hsig : IsInt32 signature) (hmax : pageSize < 2 ^ 32)
    (h : ReachableSession pageSize signature s) : FailingRun signature s := by
  have hmin := h.sizeofPageHeader_le hmax
  induction h with
  | init hinit hbelow =>
      obtain ⟨hnew, hover⟩ := pageManagerInit_new hsig hmin hmax
      by_cases hroom : sizeofFileHeader + pageSize < 2 ^ 32
      · obtain ⟨u, hrun, _⟩ := hnew hroom
        rw [hrun] at hinit
        cases hinit
        exact .init hrun
      · have hbig := hover hroom
        rw [hinit] at hbig
        exact absurd hbig hbelow.not_atLeast
  | call _ hcall _ ih => exact ih.call hcall
  | reopen hreach hinit _ =>
      obtain ⟨u, hrun, _⟩ := (hreach.kept pageInvariant_true hsig hmin hmax).managed.reopen _
      rw [hrun] at hinit
      cases hinit
      exact .init hrun

/-- The flush of the header of a new file stops after three bytes. Then an item is put, the cache is dropped, no
seek succeeds, a page is asked for in vain, and so is a new one. -/
def failingCalls : PageManagerM (Result PageAddr × Result Unit) := do
  let res ← pageManagerInit 64 7
  abortIfFail res "failed to init page manager"
  let page ← pageManagerGetPageForData
  let _ ← pageManagerPutItem page [1, 2, 3]
  pageManagerFreePages
  modify fun self => self.withFaults fun _ => some .seek
  let res ← pageManagerReadPage 0
  let (res', _) ← pageManagerPageNew
  return (res, res')

/-- The page that could not be read and the one that could not be written are in the cache, and two pages are
counted. -/
theorem failingRun_undone_iff_64 : ∃ s, FailingRun 7 s ∧
    (s.manager.allocatedPages.length = 2 ∧ pageManagerGetPagesCount s.manager = 2 ∧
      (headerOnDisk s.manager).dynamic.pageCount = 1) ∧
    (∀ k, ReadUndone s.manager k ↔ ReadServed s.manager k) ∧ (NewUndone s.manager ↔ NewServed s.manager) ∧
      (PagesBelow s.manager → (DataStored s.manager ↔ DataServed s.manager)) := by
  let new : PageManager := pageManagerNew (fileOpen none fun n => if n = 0 then some (.flush 3) else none)
  obtain ⟨r, hcalls⟩ := exists_of_returned (show (returned (failingCalls new)).isOk = true by decide +kernel)
  have hfacts : (final (failingCalls new)).allocatedPages.length = 2 ∧
      pageManagerGetPagesCount (final (failingCalls new)) = 2 ∧
      (headerOnDisk (final (failingCalls new))).dynamic.pageCount = 1 := by decide +kernel
  generalize final (failingCalls new) = last at hcalls hfacts
  obtain ⟨res, s0, hinit, hcalls⟩ := bind_eq_ok.mp hcalls
  obtain ⟨_, _, habort, hcalls⟩ := bind_eq_ok.mp hcalls
  obtain ⟨rfl, rfl⟩ := abortIfFail_eq_ok.mp habort
  obtain ⟨page, s1, hpage, hcalls⟩ := bind_eq_ok.mp hcalls
  obtain ⟨added, s2, hput, hcalls⟩ := bind_eq_ok.mp hcalls
  obtain ⟨_, s3, hfree, hcalls⟩ := bind_eq_ok.mp hcalls
  obtain ⟨_, s4, hfaults, hcalls⟩ := bind_eq_ok.mp hcalls
  obtain ⟨read, s5, hread, hcalls⟩ := bind_eq_ok.mp hcalls
  obtain ⟨⟨made, a⟩, s6, hnew, hcalls⟩ := bind_eq_ok.mp hcalls
  cases hcalls
  cases hfaults
  have hclient : FailingRun 7 ⟨s3, [], []⟩ := (((FailingRun.init hinit).call (.getPageForData hpage)).call
    (.putItem (by decide) (by decide) hput)).call (.freePages hfree)
  have hrun := ((hclient.faults fun _ => some .seek).readPage hread).pageNew hnew
  exact ⟨_, hrun, hfacts, failingRun_undone_iff hrun⟩

/-- A page of 56 bytes has seven bytes for an item. The cache of a new file is dropped. -/
def droppedCalls : PageManagerM Unit := do
  let _ ← short (pageManagerInit 56 7)
  short pageManagerFreePages

/-- When the cache has been dropped, a read that fails leaves its page in the cache, a new page that cannot be
written is counted, and such a page is handed out. -/
theorem failures_not_undone : ∃ s, ReachableSession 56 7 s ∧
    ¬ReadUndone (s.manager.withFaults fun _ => some .seek) 0 ∧
    ¬NewUndone (s.manager.withFaults fun _ => some .seek) ∧
    ∃ faults, ¬DataStored (s.manager.withFaults faults) := by
  let last : PageManager := final (droppedCalls (pageManagerNew (fileOpen none noFaults)))
  obtain ⟨r, hcalls⟩ := exists_of_returned (show (returned (droppedCalls
    (pageManagerNew (fileOpen none noFaults)))).isOk = true by decide +kernel)
  obtain ⟨res, s0, hinit, hfree⟩ := bind_eq_ok.mp hcalls
  obtain ⟨hinit, hbelow⟩ := short_eq_ok hinit
  obtain ⟨hfree, hbelow'⟩ := short_eq_ok hfree
  have hreach : ReachableSession 56 7 ⟨last, [], []⟩ := .call (.init hinit hbelow) (.freePages hfree) hbelow'
  have hsound : SoundCache last := (hreach.failingRun ⟨by decide, by decide⟩ (by decide)).soundCache
  refine ⟨_, hreach, ?_, ?_, fun n => if n = last.fileManager.file.accesses then none else some .seek, ?_⟩
  · rw [readUndone_iff (hsound.withFaults _)]
    decide +kernel
  · rw [newUndone_iff (hsound.withFaults _)]
    decide +kernel
  · have hplaces (faults : Nat → Option IoFault) : PagesBelow (last.withFaults faults) :=
      show sizeofFileHeader + pageManagerGetPagesCount last * pageManagerGetPageSize last < 2 ^ 32 by decide +kernel
    rw [dataStored_iff (hsound.withFaults _) (hplaces _)]
    decide +kernel

end Runs

end DocumentDb.Storage
