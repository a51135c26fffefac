import DocumentDb.Storage.FileDevice
import DocumentDb.Storage.Store
import DocumentDb.Storage.Writes

namespace DocumentDb.Storage

open Bytes Program

section Reading

variable {P : List UInt8 → Prop} {α β : Type} {x : PageManagerM α} {f : α → PageManagerM β} {self : PageManager}

abbrev Survives (P : List UInt8 → Prop) (x : PageManagerM α) (self : PageManager) : Prop :=
  (storageDevice Longer).Survives P x self

theorem survives_reads (hx : Driven Eq x) (hP : P self.fileManager.file.content) : Survives P x self :=
  Device.Survives.of_reads (fun s => ((hx.leads s).onward).symm) hP

theorem Survives.after {s : PageManager} (h : Driven Longer x) (hx : Driven Eq x) (hf : ∀ a, Driven Longer (f a))
    (hP : P s.fileManager.file.content) (hrest : ∀ a t, x s = .ok a t → Survives P (f a) t) :
    Survives P (x >>= f) s :=
  Device.Survives.bind h hf (survives_reads hx hP) hrest

end Reading

section NewPages

variable {self t : PageManager} {disk : Disk} {a : PageAddr} {k : Nat} {p : StoredPage} {page : Page}
  {P : List UInt8 → Prop}

theorem raisedHeader_eq (hroom : disk.HasRoom) :
    raisedHeader disk = (disk.addPage (nextPage disk) (nextPage_hasSlots disk) hroom).header := by
  have hsize : toUInt32 ((sizeofFileHeader : Int) + (disk.pages.length + 1 : Nat) * disk.pageSize) =
      sizeofFileHeader + (disk.pages.length + 1) * disk.pageSize := by
    rw [← Nat.cast_mul, toUInt32_add hroom]
  simp only [raisedHeader, hsize, Disk.header, Disk.addPage, List.length_append, List.length_singleton]

/-- The file between the two writes of `page_manager_page_new`: its header counts a page that it
does not hold. -/
def Disk.countedBytes (disk : Disk) : List UInt8 := encodeFileHeader (raisedHeader disk) ++ disk.body

/-- The disk after `page_manager_page_new`. The new page is not the current free page yet. -/
def Disk.lengthened (disk : Disk) (hroom : disk.HasRoom) : Disk :=
  disk.addPage (nextPage disk) (nextPage_hasSlots disk) hroom

def Allocating (disk : Disk) (bytes : List UInt8) : Prop :=
  ∃ hroom : disk.HasRoom, bytes = disk.countedBytes ∨ bytes = (disk.lengthened hroom).bytes

def PageManager.losing (self : PageManager) (k : Nat) : PageManager := (storageDevice Longer).cut k self

theorem faults_losing (self : PageManager) (k n : Nat) :
    (self.losing k).fileManager.file.faults n =
      if n < k then self.fileManager.file.faults n else some .seek := rfl

theorem Coherent.losing (h : Coherent self disk) (k : Nat) : Coherent (self.losing k).calm disk := by
  have hcalm : (self.losing k).calm = self.calm := rfl
  rw [hcalm, h.calm_eq]
  exact h

theorem header_raised (h : Coherent self.calm disk) : self.raised.fileManager.header = raisedHeader disk := by
  have hheader : self.fileManager.header = disk.header := header_of_calm h
  have hcount := pagesCount_raised h
  have hraised : self.raised.fileManager.header =
      FileHeader.resized { self.fileManager.header with
        dynamic.pageCount := pageManagerGetPagesCount self.raised } := rfl
  rw [hraised, hcount, hheader]
  rfl

theorem content_raised (h : Coherent self.calm disk) :
    self.raised.fileManager.file.content =
      writtenContent (self.fileManager.file.faults self.fileManager.file.accesses)
        (encodeFileHeader (raisedHeader disk)) 0 disk.bytes := by
  have hcontent : self.fileManager.file.content = disk.bytes := h.opened.content
  rw [← header_raised h, ← hcontent]
  rfl

theorem content_withPageNew (h : Coherent self.calm disk)
    (hcounted : self.fileManager.file.faults self.fileManager.file.accesses = none) :
    self.withPageNew.fileManager.file.content =
      writtenContent (self.fileManager.file.faults (self.fileManager.file.accesses + 1))
        (encodePage (nextPage disk).page) (sizeofFileHeader + disk.pages.length * disk.pageSize) disk.countedBytes := by
  have hraised := content_raised h
  have hheader : 0 < (encodeFileHeader (raisedHeader disk)).length := by
    rw [Disk.length_encodeFileHeader]
    decide
  rw [hcounted, writtenContent_none hheader, Disk.patch_header] at hraised
  rw [PageManager.withPageNew, if_neg (not_reported hcounted), Disk.countedBytes, ← hraised, ← nextOffset_eq h,
    ← pageNew_nextPageId h]
  rfl

theorem Coherent.grown_lengthened (h : Coherent self disk) (hroom : disk.HasRoom) :
    Coherent (withNextPage self disk) (disk.lengthened hroom) := h.grown hroom

theorem faults_losing_of_lt (h : Coherent self disk) {k n : Nat} (hn : n < k) :
    (self.losing k).fileManager.file.faults n = none := by
  rw [faults_losing, if_pos hn, h.opened.reliable.faults]

theorem faults_losing_of_le {k n : Nat} (hn : k ≤ n) : (self.losing k).fileManager.file.faults n = some .seek := by
  rw [faults_losing, if_neg (Nat.not_lt.mpr hn)]

/-- Whenever the file goes, a new page is counted or not, and is there only when it is counted. -/
theorem Coherent.survives_pageNew (h : Coherent self disk) (hroom : disk.HasRoom) (hbefore : P disk.bytes)
    (hduring : ∀ bytes, Allocating disk bytes → P bytes) : Survives P pageManagerPageNew self := by
  constructor
  intro k hk
  have hcut := h.losing k
  obtain ⟨res, hrun, _⟩ := pageNew_outcome hcut
  change P (final (pageManagerPageNew (self.losing k))).fileManager.file.content
  rw [hrun, final_ok]
  change self.fileManager.file.accesses ≤ k at hk
  have haccesses : (self.losing k).fileManager.file.accesses = self.fileManager.file.accesses := rfl
  rcases Nat.eq_or_lt_of_le hk with heq | hcounted
  · have hfault : (self.losing k).fileManager.file.faults self.fileManager.file.accesses = some .seek :=
      faults_losing_of_le heq.ge
    have hraised := content_raised hcut
    rw [haccesses, hfault] at hraised
    rw [PageManager.withPageNew, haccesses, hfault, if_pos (show Reported (some .seek) from trivial), hraised]
    exact hbefore
  have hcontent := content_withPageNew hcut (faults_losing_of_lt h hcounted)
  rw [hcontent, haccesses]
  refine hduring _ ⟨hroom, ?_⟩
  rcases Nat.eq_or_lt_of_le (Nat.succ_le_of_lt hcounted) with heq | hadded
  · rw [faults_losing_of_le heq.ge]
    exact Or.inl rfl
  · rw [faults_losing_of_lt h hadded]
    refine Or.inr ?_
    rw [writtenContent_none (length_encodePage_pos _), Disk.countedBytes, raisedHeader_eq hroom]
    exact Disk.bytes_addPage (nextPage_hasSlots disk) hroom

theorem Coherent.survives_setCurrentFreePage (h : Coherent self disk) (ha : findPage self a = some page)
    (hid : IsInt32 page.pageHeader.pageId) (hbefore : P disk.bytes)
    (hafter : P (disk.setFreePage page.pageHeader.pageId hid).bytes) :
    Survives P (pageManagerSetCurrentFreePage a) self := by
  obtain ⟨t, hrun, ht, _⟩ := h.setCurrentFreePage ha hid
  obtain ⟨res, hrun', _⟩ := setCurrentFreePage_outcome h.opened.reliable.isOpen ha
  have hfinal : final (pageManagerSetCurrentFreePage a self) = t := by rw [hrun, final_ok]
  have hone : final (pageManagerSetCurrentFreePage a self) = self.withCurrentFreePage a page.pageHeader.pageId := by
    rw [hrun', final_ok]
  apply Device.Survives.of_access (drives_setCurrentFreePage a)
  · rw [hone]
    exact Nat.le_refl _
  · change P self.fileManager.file.content
    rw [h.opened.content]
    exact hbefore
  · rw [hfinal]
    change P t.fileManager.file.content
    rw [ht.opened.content]
    exact hafter

structure Growing (P : List UInt8 → Prop) (disk : Disk) : Prop where
  room : disk.HasRoom
  before : P disk.bytes
  during : ∀ bytes, Allocating disk bytes → P bytes
  after : P (disk.grow room).bytes

theorem Growing.survives_next (hP : Growing P disk) (h : Coherent self disk) :
    Survives P (pageManagerSetCurrentFreePage self.nextAddr) (withNextPage self disk) := by
  have hid : IsInt32 (nextPage disk).page.pageHeader.pageId :=
    isInt32_natCast (by have := disk.length_pages_lt; omega)
  apply (h.grown_lengthened hP.room).survives_setCurrentFreePage (findPage_withPage _ _) hid
  · exact hP.during _ ⟨hP.room, Or.inr rfl⟩
  · exact hP.after

theorem Coherent.setNext (h : Coherent self disk) (hroom : disk.HasRoom) :
    ∃ u, pageManagerSetCurrentFreePage self.nextAddr (withNextPage self disk) = .ok (.ok ()) u ∧
      Coherent u (disk.grow hroom) ∧ findPage u self.nextAddr = some (nextPage disk).page := by
  obtain ⟨a, t, hnew, _, _, hgrow, _⟩ := h.pageNew
  rw [h.pageNew_eq] at hnew
  cases hnew
  obtain ⟨u, hset, hu, hfind, _⟩ := hgrow hroom
  exact ⟨u, hset, hu, hfind⟩

/-- Both callers of `page_manager_page_new` go on like this. -/
theorem Growing.survives_pageNew {α : Type} {f : Result Unit × PageAddr → PageManagerM α}
    {g : Result Unit → PageManagerM α} (hP : Growing P disk) (h : Coherent self disk)
    (hf : ∀ r, Driven Longer (f r)) (hg : ∀ res, Driven Longer (g res))
    (hnext : f (.ok (), self.nextAddr) = pageManagerSetCurrentFreePage self.nextAddr >>= g)
    (hrest : ∀ u, Coherent u (disk.grow hP.room) → findPage u self.nextAddr = some (nextPage disk).page →
      Survives P (g (.ok ())) u) : Survives P (pageManagerPageNew >>= f) self := by
  apply Device.Survives.bind drives_pageNew hf (h.survives_pageNew hP.room hP.before hP.during)
  intro r t hrun
  rw [h.pageNew_eq] at hrun
  cases hrun
  rw [hnext]
  apply Device.Survives.bind (drives_setCurrentFreePage _) hg (hP.survives_next h)
  intro res u hset
  obtain ⟨u', hset', hu, hfind⟩ := h.setNext hP.room
  rw [hset] at hset'
  cases hset'
  exact hrest u hu hfind

theorem Coherent.survives_pure {α : Type} (h : Coherent self disk) (hP : P disk.bytes) (a : α) :
    Survives P (pure a : PageManagerM α) self := by
  apply survives_reads (Device.Drives.pure a)
  rw [h.opened.content]
  exact hP

theorem Growing.survives_getNewFreePage (hP : Growing P disk) (h : Coherent self disk) :
    Survives P pageManagerGetNewFreePage self := by
  apply hP.survives_pageNew (g := fun res => pure (res.map fun _ => self.nextAddr)) h
  case hf =>
    rintro ⟨res, freePage⟩
    apply drives_abortIfFail.bind
    intro _
    exact (drives_setCurrentFreePage freePage).bind fun _ => Device.Drives.pure _
  case hg => exact fun _ => Device.Drives.pure _
  case hnext => rfl
  case hrest => exact fun u hu _ => hu.survives_pure hP.after _

end NewPages

section Putting

variable {self t : PageManager} {disk : Disk} {a : PageAddr} {k : Nat} {p : StoredPage} {page : Page}
  {P : List UInt8 → Prop} {payload : ItemPayload}

theorem accesses_fileWrite (data : List UInt8) (offset : Nat) (fs : FileState) :
    (final (fileWrite data offset fs)).accesses ≤ fs.accesses + 1 := by
  rw [fileWrite, nextAccess]
  simp only [run_bind, run_get, run_set, run_pure, andThen_ok, run_ite, run_throw]
  split
  · exact Nat.le_succ _
  split
  · exact Nat.le_refl _
  split
  · exact Nat.le_refl _
  simp only [run_modify, andThen_ok]
  rcases fs.faults fs.accesses with _ | _ | _ | _ <;> exact Nat.le_refl _

theorem accesses_writePageOnDisk (ha : findPage self a = some page) :
    (final (writePageOnDisk a self)).fileManager.file.accesses ≤ self.fileManager.file.accesses + 1 := by
  rw [writePageOnDisk]
  simp only [run_bind, run_loadPage ha, run_get, andThen_ok]
  have hone := accesses_fileWrite (encodePage page) (pageManagerGetPageOffset self page.pageHeader.pageId)
    self.fileManager.file
  have hfile : (final (onFileManager (fileManagerWrite (encodePage page)
      (pageManagerGetPageOffset self page.pageHeader.pageId)) self)).fileManager.file =
        final (fileWrite (encodePage page) (pageManagerGetPageOffset self page.pageHeader.pageId)
          self.fileManager.file) := by
    rw [onFileManager, final_zoom, fileManagerWrite, onFile, final_zoom]
  rw [← hfile] at hone
  cases hrun : onFileManager (fileManagerWrite (encodePage page)
      (pageManagerGetPageOffset self page.pageHeader.pageId)) self with
  | ok res t =>
      rw [hrun] at hone
      exact hone
  | error e t =>
      rw [hrun] at hone
      exact hone

theorem Coherent.survives_write (h : Coherent self disk) (ha : findPage self a = some page)
    (hk : page.pageHeader.pageId = k) (hlt : k < disk.pages.length) (hp : HasSlots disk.pageSize k p.slots p.page)
    (hbefore : P disk.bytes) (hafter : P (disk.setPage k p hp).bytes) :
    Survives P (writePageOnDisk a) (stored self a p.page) := by
  obtain ⟨t, hwrite, ht, _⟩ := h.write ha hk hlt hp
  apply Device.Survives.of_access (drives_writePageOnDisk a)
  · exact accesses_writePageOnDisk (findPage_stored ha p.page)
  · change P self.fileManager.file.content
    rw [h.opened.content]
    exact hbefore
  · rw [hwrite]
    change P t.fileManager.file.content
    rw [ht.opened.content]
    exact hafter

theorem Coherent.survives_putWhole (h : Coherent self disk) (hk : disk.pages[k]? = some p)
    (ha : findPage self a = some p.page) (h0 : 0 < payload.length) (hn : payload.length < 2 ^ 31)
    (hroom : payload.length ≤ available disk.pageSize p.slots) (hbefore : P disk.bytes)
    (hafter : P (disk.setPage k (p.add disk.pageSize k payload)
      (StoredPage.add_hasSlots hk (fits_of_le_available h0 hroom))).bytes) :
    Survives P (Storage.putWhole a payload) self := by
  have hadd := (disk.layout k p hk).pageAddItem_eq disk.pageSize_lt h0 hn hroom
  rw [Storage.putWhole, pageManagerAddPartOfItem]
  simp only [bind_assoc]
  refine Device.Survives.silent (t := self) (fun k => run_loadPage (show findPage (self.losing k) a = _ from ha)) rfl ?_
  refine Device.Survives.silent (t := self) (fun k => lift_eq_ok.mpr ⟨hadd, rfl⟩) rfl ?_
  dsimp only
  refine Device.Survives.silent (t := stored self a (p.add disk.pageSize k payload).page) (fun k => rfl) rfl ?_
  rw [if_neg (by omega), bind_assoc]
  refine Device.Survives.bind (drives_writePageOnDisk a) ?_
    (h.survives_write ha (Disk.pageId_eq hk) (Disk.lt_length hk) _ hbefore hafter) ?_
  · intro res
    apply (Device.Drives.pure _).bind
    exact fun _ => drives_abortIfFail
  intro res u hwrite
  obtain ⟨u', hwrite', hu, _⟩ := h.write ha (Disk.pageId_eq hk) (Disk.lt_length hk)
    (StoredPage.add_hasSlots hk (fits_of_le_available h0 hroom))
  rw [hwrite] at hwrite'
  cases hwrite'
  exact hu.survives_pure hafter _

theorem drives_putWhole (a : PageAddr) (payload : ItemPayload) : Driven Longer (Storage.putWhole a payload) := by
  apply (drives_addPartOfItem _ _ _).bind
  exact fun _ => drives_abortIfFail

theorem Coherent.survives_putItem_here (h : Coherent self disk) (hk : disk.pages[k]? = some p)
    (ha : findPage self a = some p.page) (h0 : 0 < payload.length) (hn : payload.length < 2 ^ 31)
    (hroom : payload.length ≤ available disk.pageSize p.slots) (hbefore : P disk.bytes)
    (hafter : P (disk.setPage k (p.add disk.pageSize k payload)
      (StoredPage.add_hasSlots hk (fits_of_le_available h0 hroom))).bytes) :
    Survives P (pageManagerPutItem a payload) self := by
  have hcond := (Disk.targets_iff hk h0 hn).not.mpr hroom.not_gt
  rw [pageManagerPutItem_eq h0 (by omega), putTarget, bind_assoc]
  refine Device.Survives.silent (t := self) (fun j => run_loadPage (show findPage (self.losing j) a = _ from ha)) rfl ?_
  rw [if_neg hcond, pure_bind]
  exact h.survives_putWhole hk ha h0 hn hroom hbefore hafter

theorem Growing.survives_putItem_new (hP : Growing P disk) (h : Coherent self disk) (hk : disk.pages[k]? = some p)
    (ha : findPage self a = some p.page) (h0 : 0 < payload.length) (hn : payload.length < 2 ^ 31)
    (hfull : available disk.pageSize p.slots < payload.length) (hfits : payload.length ≤ available disk.pageSize [])
    (hafter : P ((disk.grow hP.room).setPage disk.pages.length
      ((nextPage disk).add disk.pageSize disk.pages.length payload)
      (StoredPage.add_hasSlots (Disk.grow_last hP.room) (fits_of_le_available h0 hfits))).bytes) :
    Survives P (pageManagerPutItem a payload) self := by
  have hcond := (Disk.targets_iff hk h0 hn).mpr hfull
  rw [pageManagerPutItem_eq h0 (by omega), putTarget, bind_assoc]
  refine Device.Survives.silent (t := self) (fun j => run_loadPage (show findPage (self.losing j) a = _ from ha)) rfl ?_
  rw [if_pos hcond, bind_assoc]
  apply Device.Survives.bind drives_getNewFreePage ?_ (hP.survives_getNewFreePage h)
  · intro res t hnew
    obtain ⟨b, t', hnew', ht, hb, _⟩ := h.getNewFreePage.1 hP.room
    rw [hnew] at hnew'
    cases hnew'
    refine Device.Survives.silent (t := t) (fun j => run_abortIfFail_ok _ _ _) rfl ?_
    exact ht.survives_putWhole (Disk.grow_last hP.room) hb h0 hn hfits hP.after hafter
  · intro res
    apply drives_abortIfFail.bind
    exact fun target => drives_putWhole target payload

theorem Coherent.survives_getCurrentFreePage {α : Type} {f : PageAddr → PageManagerM α} (h : Coherent self disk)
    (hs : Settled disk) (hk : disk.pages[disk.pages.length - 1]? = some p) (hf : ∀ b, Driven Longer (f b))
    (hbefore : P disk.bytes)
    (hrest : ∀ b t, Coherent t disk → findPage t b = some p.page → Survives P (f b) t) :
    Survives P (pageManagerGetCurrentFreePage >>= f) self := by
  apply Survives.after drives_getCurrentFreePage drives_getCurrentFreePage hf
  · rw [h.opened.content]
    exact hbefore
  intro b t hrun
  obtain ⟨b', t', hrun', ht, hb, _⟩ := h.getCurrentFreePage hk hs.freePage
  rw [hrun] at hrun'
  cases hrun'
  exact hrest b t ht hb

end Putting

section Deleting

variable {self t : PageManager} {disk : Disk} {a : PageAddr} {k i : Nat} {p : StoredPage} {slot : Slot} {item : Item}
  {P : List UInt8 → Prop}

theorem Coherent.survives_deleteItem (h : Coherent self disk) (hk : disk.pages[k]? = some p)
    (ha : findPage self a = some p.page) (hs : p.slots[i]? = some slot)
    (hcount : 0 < p.page.pageHeader.itemsCount) (hitem : item.id.itemId = i) (hfresh : item.isDeleted = false)
    (hbefore : P disk.bytes)
    (hafter : P (disk.setPage k (p.delete disk.pageSize k i slot) (StoredPage.delete_hasSlots hk hs)).bytes) :
    Survives P (pageManagerDeleteItem a item) self := by
  obtain ⟨n, hn⟩ := h.opened.partRounds_eq hk
  have hlayout := disk.layout k p hk
  have hdel := hlayout.pageDeleteItem_eq disk.pageSize_lt (Disk.isInt32_pageId hk) hs hcount hitem hfresh
  have hcont := hlayout.deletedPage_continuation disk.pageSize_lt (Disk.isInt32_pageId hk) hs
    (show ({ item with isDeleted := true } : Item).id.itemId = i from hitem)
  have hload (j : Nat) := run_loadPage (show findPage (self.losing j) a = some p.page from ha)
  rw [pageManagerDeleteItem]
  refine Device.Survives.silent (t := self) (fun j => hload j) rfl ?_
  apply Device.Survives.get
  · intro p s
    rfl
  rw [hn, deleteItemLoop, if_neg (pageId_ne_null hk), bind_assoc]
  refine Device.Survives.silent (t := self) (fun j => hload j) rfl ?_
  simp only [ne_eq, not_true, if_false, pure_bind, bind_assoc]
  refine Device.Survives.silent (t := self) (fun j => hload j) rfl ?_
  refine Device.Survives.silent (t := self) (fun j => lift_eq_ok.mpr ⟨hdel, rfl⟩) rfl ?_
  refine Device.Survives.silent (t := stored self a (p.delete disk.pageSize k i slot).page) (fun j => rfl) rfl ?_
  refine Device.Survives.bind (drives_writePageOnDisk a) ?_
    (h.survives_write ha (Disk.pageId_eq hk) (Disk.lt_length hk) _ hbefore hafter) ?_
  · intro res
    apply drives_abortIfFail.bind
    intro _
    apply (Device.Drives.lift _).bind
    intro continuation
    apply (drives_deleteItemLoop _ _ _).bind
    intro item
    apply Device.Drives.ite
    · exact Device.Drives.throw_bind _
    · exact Device.Drives.pure _
  intro res u hwrite
  obtain ⟨u', hwrite', hu, _⟩ := h.write ha (Disk.pageId_eq hk) (Disk.lt_length hk) (StoredPage.delete_hasSlots hk hs)
  rw [hwrite] at hwrite'
  cases hwrite'
  refine Device.Survives.silent (t := u) (fun j => run_abortIfFail_ok _ _ _) rfl ?_
  refine Device.Survives.silent (t := u) (fun j => lift_eq_ok.mpr ⟨hcont, rfl⟩) rfl ?_
  rw [deleteItemLoop, if_pos rfl, pure_bind, if_neg (by simp)]
  exact hu.survives_pure hafter _

end Deleting

section Stores

variable {self t : PageManager} {signature : Int} {pageSize : Nat} {store : List (List Slot)} {payload : ItemPayload}
  {bytes : List UInt8}

def Saved (signature : Int) (pageSize : Nat) (store : List (List Slot)) (bytes : List UInt8) : Prop :=
  ∃ disk, Settled disk ∧ AllCounted disk ∧ disk.pageSize = pageSize ∧ disk.signature = signature ∧
    disk.slots = store ∧ disk.bytes = bytes

/-- The file holds the slots, and a page is being added to it. -/
def Extending (signature : Int) (pageSize : Nat) (store : List (List Slot)) (bytes : List UInt8) : Prop :=
  ∃ disk, Settled disk ∧ AllCounted disk ∧ disk.pageSize = pageSize ∧ disk.signature = signature ∧
    disk.slots = store ∧ Allocating disk bytes

theorem Stores.saved (h : Stores signature pageSize store self) :
    Saved signature pageSize store self.fileManager.file.content := by
  obtain ⟨disk, hd, hs, hc, hsize, hsig, hslots⟩ := h
  exact ⟨disk, hs, hc, hsize, hsig, hslots, hd.opened.content.symm⟩

theorem saved_add {disk : Disk} {k : Nat} {p : StoredPage} (hk : disk.pages[k]? = some p)
    (hs : Settled disk) (hc : AllCounted disk)
    (hlayout : HasSlots disk.pageSize k (p.add disk.pageSize k payload).slots
      (p.add disk.pageSize k payload).page) :
    Saved disk.signature disk.pageSize (disk.slots.set k (p.slots ++ [⟨payload, false⟩]))
      (disk.setPage k (p.add disk.pageSize k payload) hlayout).bytes :=
  ⟨_, hs.setPage _, hc.setPage _
    ((disk.layout k p hk).addedPage_counted disk.pageSize_lt (hc k p hk) payload), rfl, rfl, slots_setPage _, rfl⟩

theorem Saved.reopen (h : Saved signature pageSize store bytes) (pageSize' : Nat) :
    ∃ t, pageManagerInit pageSize' signature (pageManagerNew (fileOpen (some bytes) noFaults)) = .ok (.ok ()) t ∧
      Stores signature pageSize store t := by
  obtain ⟨disk, hs, hc, hsize, hsig, hslots, rfl⟩ := h
  obtain ⟨t, a, page, hinit, ht, _⟩ := pageManagerInit_existing hs pageSize'
  rw [hsig] at hinit
  exact ⟨t, hinit, disk, ht, hs, hc, hsize, hsig, hslots⟩

/-- The current free page of the file is its last page. -/
def Consistent (bytes : List UInt8) : Prop :=
  let dynamic := (decodeFileHeader (slice bytes 0 sizeofFileHeader)).dynamic
  dynamic.currentFreePage + 1 = dynamic.pageCount

instance (bytes : List UInt8) : Decidable (Consistent bytes) := inferInstanceAs (Decidable (_ = _))

theorem Saved.consistent (h : Saved signature pageSize store bytes) : Consistent bytes := by
  obtain ⟨disk, hs, _, _, _, _, rfl⟩ := h
  have hpos := hs.pages_pos
  rw [Consistent]
  rw [disk.decode_header]
  change disk.freePage + 1 = (disk.pages.length : Int)
  rw [hs.freePage]
  omega

theorem Extending.not_consistent (h : Extending signature pageSize store bytes) : ¬Consistent bytes := by
  obtain ⟨disk, hs, _, _, _, _, hroom, hbytes⟩ := h
  have hpos := hs.pages_pos
  have hsame : slice bytes 0 sizeofFileHeader = slice (disk.lengthened hroom).bytes 0 sizeofFileHeader := by
    rcases hbytes with rfl | rfl
    · rw [Disk.countedBytes, raisedHeader_eq hroom, Disk.bytes]
      rw [slice_append_left _ _ (by simp), slice_append_left _ _ (by simp)]
      rfl
    · rfl
  rw [Consistent]
  rw [hsame, Disk.decode_header]
  change ¬disk.freePage + 1 = ((disk.pages ++ [nextPage disk]).length : Int)
  rw [hs.freePage, List.length_append, List.length_singleton]
  omega

def PutSurvivor (signature : Int) (pageSize : Nat) (store : List (List Slot)) (payload : ItemPayload)
    (bytes : List UInt8) : Prop :=
  Saved signature pageSize store bytes ∨ Extending signature pageSize store bytes ∨
    Saved signature pageSize (store ++ [[]]) bytes ∨ Saved signature pageSize (putSlots pageSize store payload) bytes

theorem growing_putSurvivor {disk : Disk} (hs : Settled disk) (hc : AllCounted disk) (hroom : disk.HasRoom) :
    Growing (PutSurvivor disk.signature disk.pageSize disk.slots payload) disk where
  room := hroom
  before := Or.inl ⟨disk, hs, hc, rfl, rfl, rfl, rfl⟩
  during _ hbytes := Or.inr (Or.inl ⟨disk, hs, hc, rfl, rfl, rfl, hbytes⟩)
  after := Or.inr (Or.inr (Or.inl
    ⟨disk.grow hroom, Disk.grow_settled hroom, hc.grow hroom, rfl, rfl, slots_grow hroom, rfl⟩))

theorem saved_add_new {disk : Disk} (hc : AllCounted disk) (hroom : disk.HasRoom)
    (hlayout : HasSlots (disk.grow hroom).pageSize disk.pages.length
      ((nextPage disk).add disk.pageSize disk.pages.length payload).slots
      ((nextPage disk).add disk.pageSize disk.pages.length payload).page) :
    Saved disk.signature disk.pageSize (disk.slots ++ [[⟨payload, false⟩]])
      ((disk.grow hroom).setPage disk.pages.length
        ((nextPage disk).add disk.pageSize disk.pages.length payload) hlayout).bytes := by
  have hslots : (disk.grow hroom).slots.set disk.pages.length
      ((nextPage disk).slots ++ [⟨payload, false⟩]) = disk.slots ++ [[⟨payload, false⟩]] := by
    rw [slots_grow, ← length_slots, List.set_append_right _ _ le_rfl]
    simp [nextPage]
  rw [← hslots]
  exact saved_add (Disk.grow_last hroom) (Disk.grow_settled hroom) (hc.grow hroom) hlayout

theorem putSurvivor_new {disk : Disk} (hc : AllCounted disk) (hroom : disk.HasRoom)
    (hplace : ¬HasPlace disk.pageSize disk.slots payload.length)
    (hlayout : HasSlots (disk.grow hroom).pageSize disk.pages.length
      ((nextPage disk).add disk.pageSize disk.pages.length payload).slots
      ((nextPage disk).add disk.pageSize disk.pages.length payload).page) :
    PutSurvivor disk.signature disk.pageSize disk.slots payload
      ((disk.grow hroom).setPage disk.pages.length
        ((nextPage disk).add disk.pageSize disk.pages.length payload) hlayout).bytes := by
  rw [PutSurvivor, putSlots, if_neg hplace]
  exact Or.inr (Or.inr (Or.inr (saved_add_new hc hroom hlayout)))

/-- A new page takes every payload that fits a page at all. -/
theorem Disk.HasRoom.available_nil {disk : Disk} (hroom : disk.HasRoom) (hpos : 0 < disk.pages.length)
    (hfit : payload.length + sizeofPageHeader + sizeofItemMetadata ≤ disk.pageSize) :
    payload.length ≤ available disk.pageSize [] := by
  rw [Disk.HasRoom] at hroom
  have htwo := Nat.mul_le_mul_right disk.pageSize (show 2 ≤ disk.pages.length + 1 by omega)
  exact Storage.available_nil hfit (by omega)

/-- A page with the minimum of space takes a payload unless it is too short for it. -/
theorem available_lt_of_no_place {slots : List Slot} (hlast : lastSlots store = slots)
    (hplace : ¬HasPlace pageSize store payload.length)
    (hmin : minimumDataPartSizeBytes ≤ available pageSize slots) : available pageSize slots < payload.length := by
  by_contra hsize
  refine hplace ⟨?_, ?_⟩
  · rwa [hlast]
  · rw [hlast]
    omega

theorem drives_choosePage (page : PageAddr) (raw : Page) :
    Driven Longer (if pageGetPayloadAvailableSpace raw < minimumDataPartSizeBytes then do
        let r ← pageManagerPageNew
        let _ ← pageManagerSetCurrentFreePage r.2
        return r.2
      else return page) := by
  apply Device.Drives.ite
  · apply drives_pageNew.bind
    intro r
    exact (drives_setCurrentFreePage r.2).bind fun _ => Device.Drives.pure _
  · exact Device.Drives.pure _

/-- Whenever the file goes while a payload is put, it holds what it held before, or the payload as
well, or a page is being added to it. -/
theorem Stores.survives_putData (h : Stores signature pageSize store self) (h0 : 0 < payload.length)
    (hfit : payload.length + sizeofPageHeader + sizeofItemMetadata ≤ pageSize) (hn : payload.length < 2 ^ 31)
    (hroom : ¬HasPlace pageSize store payload.length → sizeofFileHeader + (store.length + 1) * pageSize < 2 ^ 32) :
    Survives (PutSurvivor signature pageSize store payload) (putData payload) self := by
  obtain ⟨disk, hd, hs, hc, rfl, rfl, rfl⟩ := h
  obtain ⟨p, hp⟩ := hs.last
  have hlast := lastSlots_eq hp
  have hpos := hs.pages_pos
  have hsaved : PutSurvivor disk.signature disk.pageSize disk.slots payload disk.bytes :=
    Or.inl ⟨disk, hs, hc, rfl, rfl, rfl, rfl⟩
  have havail := (disk.layout _ p hp).available_eq disk.pageSize_lt
  rw [length_slots] at hroom
  change ¬HasPlace disk.pageSize disk.slots payload.length → disk.HasRoom at hroom
  rw [putData, pageManagerGetPageForData, bind_assoc]
  apply hd.survives_getCurrentFreePage hs hp
  · intro page
    refine Device.Drives.bind ?_ fun page => drives_putItem page payload
    apply (drives_loadPage page).bind
    exact drives_choosePage page
  · exact hsaved
  intro a t ht ha
  rw [bind_assoc]
  refine Device.Survives.silent (t := t) (fun j => run_loadPage (show findPage (t.losing j) a = _ from ha)) rfl ?_
  rw [havail]
  by_cases hplace : HasPlace disk.pageSize disk.slots payload.length
  · obtain ⟨hmin, hsize⟩ := id hplace
    rw [hlast] at hmin hsize
    rw [if_neg (by omega), pure_bind]
    apply ht.survives_putItem_here hp ha h0 hn hsize hsaved
    rw [PutSurvivor, putSlots, if_pos hplace, hlast, length_slots]
    exact Or.inr (Or.inr (Or.inr (saved_add hp hs hc _)))
  have hgrow := hroom hplace
  have hempty : payload.length ≤ available disk.pageSize [] := hgrow.available_nil hpos hfit
  have hP : Growing (PutSurvivor disk.signature disk.pageSize disk.slots payload) disk :=
    growing_putSurvivor hs hc hgrow
  rcases le_or_gt minimumDataPartSizeBytes (available disk.pageSize p.slots) with hmin | hmin
  · rw [if_neg (by omega), pure_bind]
    have hfull := available_lt_of_no_place hlast hplace hmin
    exact hP.survives_putItem_new ht hp ha h0 hn hfull hempty (putSurvivor_new hc hgrow hplace _)
  · rw [if_pos (by omega), bind_assoc]
    apply hP.survives_pageNew (g := fun _ => pageManagerPutItem t.nextAddr payload) ht
    case hf =>
      intro r
      rw [bind_assoc]
      apply (drives_setCurrentFreePage r.2).bind
      intro _
      exact drives_putItem _ _
    case hg => exact fun _ => drives_putItem _ _
    case hnext => simp only [bind_assoc, pure_bind]
    case hrest =>
      intro u hu hb
      exact hu.survives_putItem_here (Disk.grow_last hgrow) hb h0 hn hempty hP.after
        (putSurvivor_new hc hgrow hplace _)

/-- Whenever the file goes while a live item is deleted, the item is there or it is gone. -/
theorem Stores.survives_delete {k i : Nat} {a : PageAddr} {item : Item} (h : Stores signature pageSize store self)
    (ha : PointsTo self a k) (hitem : item.id = ⟨k, i⟩) (hfresh : item.isDeleted = false)
    (hlive : liveBytes store ⟨k, i⟩ = some payload) :
    Survives (fun bytes => Saved signature pageSize store bytes ∨ Saved signature pageSize (deleteAt store k i) bytes)
      (pageManagerDeleteItem a item) self := by
  obtain ⟨t, hrun, ht⟩ := h.delete ha hitem hfresh hlive
  have hbefore := h.saved
  obtain ⟨disk, hd, hs, hc, hsize, hsig, rfl⟩ := h
  obtain ⟨k', i', p, slot, hid, hp, hfind, hi, hdeleted, rfl⟩ := hd.locate ha hlive
  obtain ⟨rfl, rfl⟩ : k = k' ∧ i = i' := by simpa using hid
  have hcount : 0 < p.page.pageHeader.itemsCount := by
    rw [hc k p hp]
    exact List.countP_pos_iff.mpr ⟨slot, List.mem_of_getElem? hi, by simp [hdeleted]⟩
  have hitemId : item.id.itemId = i := by rw [hitem]
  obtain ⟨t', hrun', ht'⟩ := hd.deleteItem hp hfind hi hcount hitemId hfresh
  rw [hrun] at hrun'
  cases hrun'
  rw [hd.opened.content] at hbefore
  refine hd.survives_deleteItem hp hfind hi hcount hitemId hfresh (Or.inl hbefore) (Or.inr ?_)
  rw [← ht'.opened.content]
  exact ht.saved

end Stores

end DocumentDb.Storage
