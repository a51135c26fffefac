import DocumentDb.Storage.Iterator
import DocumentDb.Storage.Opening

namespace DocumentDb.Storage

open Bytes Program

section Environment

/-- The page manager when the environment decides anew which accesses fail from now on. -/
def PageManager.withFaults (pm : PageManager) (faults : Nat → Option IoFault) : PageManager :=
  { pm with fileManager.file.faults := faults }

def PageManager.calm (pm : PageManager) : PageManager := pm.withFaults noFaults

theorem Coherent.calm_eq {self : PageManager} {disk : Disk} (h : Coherent self disk) : self.calm = self := by
  have hfaults : self.fileManager.file.faults = noFaults := funext h.opened.reliable.faults
  rw [PageManager.calm, PageManager.withFaults, ← hfaults]

theorem readable_of_calm {self : PageManager} {disk : Disk} (h : Coherent self.calm disk) : Readable self disk :=
  ⟨h.readable.pageSize, h.readable.pagesCount, h.readable.pageOffset, h.count, h.length_allocatedPages_le⟩

theorem isOpen_of_calm {self : PageManager} {disk : Disk} (h : Coherent self.calm disk) :
    self.fileManager.file.isOpen = true := h.opened.reliable.isOpen

theorem header_of_calm {self : PageManager} {disk : Disk} (h : Coherent self.calm disk) :
    self.fileManager.header = disk.header := h.opened.header

structure Unfailing (s t : PageManager) : Prop where
  faults : t.fileManager.file.faults = s.fileManager.file.faults
  accesses : s.fileManager.file.accesses ≤ t.fileManager.file.accesses
  served : ∀ n, s.fileManager.file.accesses ≤ n → n < t.fileManager.file.accesses →
    s.fileManager.file.faults n = none

theorem Unfailing.of_file_eq {s t : PageManager} (h : t.fileManager.file = s.fileManager.file) : Unfailing s t := by
  constructor
  · rw [h]
  · rw [h]
  · intro n hle hlt
    rw [h] at hlt
    omega

instance : Std.Refl Unfailing := ⟨fun _ => .of_file_eq rfl⟩

instance : IsTrans PageManager Unfailing where
  trans s t u hst htu := by
    refine ⟨htu.faults.trans hst.faults, hst.accesses.trans htu.accesses, ?_⟩
    intro n hle hlt
    by_cases hn : n < t.fileManager.file.accesses
    · exact hst.served n hle hn
    · rw [← hst.faults]
      exact htu.served n (Nat.le_of_not_lt hn) hlt

/-- A program that returns a value with the property has met no failing access, and it
returns the same on a disk without faults. -/
abbrev Trusted {α : Type} (P : α → Prop) (x : PageManagerM α) : Prop := Tracks PageManager.calm Unfailing P x

end Environment

section Pages

variable {α β : Type} {P : α → Prop} {Q : β → Prop}

def Succeeds (res : Result α) : Prop := ∃ a, res = .ok a

theorem Trusted.abortIfFail {x : PageManagerM (Result α)} {message : String} {f : α → PageManagerM β}
    (hx : Trusted Succeeds x) (hf : ∀ a, Trusted Q (f a)) :
    Trusted Q (do
      let res ← x
      let a ← abortIfFail res message
      f a) := by
  apply hx.bind
  · rintro _ ⟨a, rfl⟩
    exact hf a
  · intro res s b t hbad hrun
    obtain ⟨a, _, habort, _⟩ := bind_eq_ok.mp hrun
    exact absurd ⟨a, (abortIfFail_eq_ok.mp habort).1⟩ hbad

theorem trusted_loadPage (a : PageAddr) {P : Page → Prop} : Trusted P (loadPage a) := by
  intro s page t hrun _
  obtain ⟨hpage, rfl⟩ := loadPage_eq_ok.mp hrun
  exact ⟨Std.Refl.refl _, loadPage_eq_ok.mpr ⟨hpage, rfl⟩⟩

theorem trusted_storePage (a : PageAddr) (page : Page) {P : Unit → Prop} : Trusted P (storePage a page) := by
  apply Tracks.modify
  · intro s
    exact .of_file_eq rfl
  · intro s
    rfl

theorem trusted_freePages {P : Unit → Prop} : Trusted P pageManagerFreePages := by
  apply Tracks.modify
  · intro s
    exact .of_file_eq rfl
  · intro s
    rfl

theorem trusted_allocatePage (id : Int) {P : PageAddr → Prop} : Trusted P (pageManagerAllocatePage id) := by
  intro s a t hrun _
  rw [pageManagerAllocatePage] at hrun ⊢
  simp only [run_bind, run_get, andThen_ok, run_set, run_ite, run_throw, run_pure] at hrun ⊢
  by_cases hsize : pageManagerGetPageSize s < sizeofPageHeader
  · rw [if_pos hsize] at hrun
    cases hrun
  · rw [if_neg hsize] at hrun
    rw [if_neg (show ¬pageManagerGetPageSize s.calm < sizeofPageHeader from hsize)]
    cases hrun
    exact ⟨.of_file_eq rfl, rfl⟩

theorem trusted_fileManagerRead (buffer : List UInt8) (offset : Nat) :
    Trusted (fun r => r.1 = .ok ()) (onFileManager (fileManagerRead buffer offset)) := by
  intro s r t hrun hr
  obtain ⟨fm, hmanager, rfl⟩ := zoom_eq_ok.mp hrun
  rw [fileManagerRead, onFile] at hmanager
  obtain ⟨fs, hread, rfl⟩ := zoom_eq_ok.mp hmanager
  have hopen := fileRead_isOpen hread
  cases hfault : s.fileManager.file.faults s.fileManager.file.accesses with
  | some fault =>
      obtain ⟨message, bytes, hfaulty⟩ := fileRead_faulty buffer offset hopen hfault
      rw [hread] at hfaulty
      cases hfaulty
      cases hr
  | none =>
      rw [fileRead_served buffer offset hopen hfault] at hread
      cases hread
      refine ⟨⟨rfl, Nat.le_succ _, fun n hle hlt => ?_⟩, ?_⟩
      · obtain rfl : n = s.fileManager.file.accesses := by
          simp only at hlt
          omega
        exact hfault
      · have hcalm : fileRead buffer offset s.calm.fileManager.file = _ :=
          fileRead_served buffer offset hopen rfl
        exact run_onFileManager (run_onFile hcalm)

theorem trusted_getPageFromRam (pageId : Int) {P : Result PageAddr → Prop} :
    Trusted P (pageManagerGetPageFromRam pageId) :=
  Tracks.get (fun _ => rfl) fun _ => Tracks.lift _

theorem trusted_readPage (id : Int) : Trusted Succeeds (pageManagerReadPage id) := by
  apply Tracks.get
  · intro s
    rfl
  intro s
  apply Tracks.ite
  · exact Tracks.throw_bind _
  apply (trusted_getPageFromRam id).seq
  rintro (message | page)
  · apply (trusted_allocatePage id).seq
    intro page
    apply (trusted_loadPage page).seq
    intro raw
    apply (trusted_fileManagerRead (encodePage raw) _).bind
    · rintro ⟨res, bytes⟩ rfl
      exact (trusted_storePage page _).seq fun _ => Tracks.pure _
    · rintro ⟨_ | _, bytes⟩ s res t hbad hrun
      · obtain ⟨_, _, _, hrest⟩ := bind_eq_ok.mp hrun
        cases hrest
        rintro ⟨_, ⟨⟩⟩
      · exact absurd rfl hbad
  · exact Tracks.pure _

theorem trusted_nextPart (page currentPage : PageAddr) (currentPageIdx : Int) (itemId : ItemIndex)
    {P : PageAddr × ItemIndex → Prop} : Trusted P (nextPart page currentPage currentPageIdx itemId) := by
  apply (trusted_loadPage page).seq
  intro head
  apply Tracks.ite
  · apply Trusted.abortIfFail (trusted_readPage currentPageIdx)
    intro currentPage
    exact (trusted_loadPage currentPage).seq fun raw => Tracks.pure _
  · exact Tracks.pure _

end Pages

section Parts

variable {page currentPage : PageAddr}

theorem trusted_calculateLargeItemSizeLoop (fuel : Nat) (currentPageIdx : Int) (itemId : ItemIndex) (size : Nat)
    {P : Nat → Prop} :
    Trusted P (calculateLargeItemSizeLoop page fuel currentPage currentPageIdx itemId size) := by
  induction fuel generalizing currentPage currentPageIdx itemId size with
  | zero => exact Tracks.throw _
  | succ fuel ih =>
      apply Tracks.ite
      · exact Tracks.pure _
      apply (trusted_nextPart page currentPage currentPageIdx itemId).seq
      rintro ⟨currentPage, itemId⟩
      apply (trusted_loadPage currentPage).seq
      intro raw
      apply Trusted.abortIfFail (Tracks.lift _)
      intro item
      apply (Tracks.lift _).seq
      intro continuation
      exact ih continuation item.id _

theorem trusted_calculateLargeItemSize (page : PageAddr) (itemId : ItemIndex) {P : Nat → Prop} :
    Trusted P (pageManagerCalculateLargeItemSize page itemId) := by
  apply (trusted_loadPage page).seq
  intro raw
  apply Tracks.get
  · intro s
    rfl
  intro s
  exact trusted_calculateLargeItemSizeLoop _ _ _ _

theorem trusted_getItemLoop (fuel : Nat) (currentPageIdx : Int) (itemId : ItemIndex) (doubleLoopGuard : Nat)
    (buffer : List UInt8) {P : List UInt8 → Prop} :
    Trusted P (getItemLoop page fuel currentPage currentPageIdx itemId doubleLoopGuard buffer) := by
  induction fuel generalizing currentPage currentPageIdx itemId doubleLoopGuard buffer with
  | zero => exact Tracks.throw _
  | succ fuel ih =>
      apply Tracks.ite
      · exact Tracks.pure _
      apply (trusted_loadPage page).seq
      intro head
      apply (trusted_nextPart page currentPage currentPageIdx itemId).seq
      rintro ⟨currentPage, itemId⟩
      apply Tracks.ite
      · exact Tracks.throw_bind _
      apply (trusted_loadPage currentPage).seq
      intro raw
      apply Trusted.abortIfFail (Tracks.lift _)
      intro item
      apply (Tracks.lift _).seq
      intro continuation
      exact ih continuation item.id _ _

theorem trusted_getItem (page : PageAddr) (itemId : ItemIndex) {P : Item → Prop} :
    Trusted P (pageManagerGetItem page itemId) := by
  apply (trusted_loadPage page).seq
  intro raw
  apply Tracks.get
  · intro s
    rfl
  intro s
  exact (trusted_getItemLoop _ _ _ _ _).seq fun _ => Tracks.pure _

end Parts

section Iterators

variable {γ : Type} (body : γ → Item → Except Fault (ForInStep γ))

theorem trusted_pageIteratorHasNext (it : PageIterator) {P : Bool → Prop} : Trusted P (pageIteratorHasNext it) := by
  apply Tracks.get
  · intro s
    rfl
  intro s
  exact Tracks.pure _

theorem trusted_pageIteratorNext (it : PageIterator) :
    Trusted (fun r => r.1 = .ok ()) (pageIteratorNext it) := by
  apply (trusted_pageIteratorHasNext it).seq
  intro hasNext
  apply Tracks.ite
  · exact Tracks.throw_bind _
  apply trusted_freePages.seq
  intro _
  apply (trusted_readPage it.nextPageId).bind
  · rintro _ ⟨page, rfl⟩
    exact Tracks.pure _
  · rintro (_ | page) s r t hbad hrun
    · cases hrun
      rintro ⟨⟩
    · exact absurd ⟨page, rfl⟩ hbad

/-- Only the first page is read without looking at the outcome. -/
theorem trusted_hasNextLoop (fuel : Nat) (it : ItemIterator) {P : Bool × ItemIterator → Prop} :
    Trusted P (hasNextLoop fuel it) := by
  induction fuel generalizing it with
  | zero => exact Tracks.throw _
  | succ fuel ih =>
      apply (trusted_pageIteratorHasNext it.pageIterator).seq
      intro hasNext
      apply Tracks.ite
      · exact Tracks.pure _
      apply (trusted_pageIteratorNext it.pageIterator).bind
      · rintro ⟨_, pageIterator⟩ rfl
        apply (Tracks.pure ()).seq
        intro _
        cases pageIterator.currentPage with
        | none => exact Tracks.throw _
        | some page =>
            apply (trusted_loadPage page).seq
            intro raw
            apply Tracks.ite
            · exact Tracks.pure _
            · exact ih _
      · rintro ⟨res, pageIterator⟩ s r t hbad hrun
        obtain ⟨_, _, habort, _⟩ := bind_eq_ok.mp hrun
        exact absurd (abortIfFail_eq_ok.mp habort).1 hbad

theorem trusted_itemIteratorHasNext (it : ItemIterator) {P : Bool × ItemIterator → Prop} :
    Trusted P (itemIteratorHasNext it) := by
  rw [itemIteratorHasNext]
  apply Tracks.ite
  · exact Tracks.throw_bind _
  cases it.pageIterator.currentPage with
  | none => exact Tracks.pure _
  | some page =>
      apply (trusted_loadPage page).seq
      intro raw
      apply Tracks.ite
      · exact Tracks.pure _
      apply Tracks.get
      · intro s
        rfl
      intro s
      exact trusted_hasNextLoop _ it

theorem trusted_itemIteratorNext (it : ItemIterator) {P : Item × ItemIterator → Prop} :
    Trusted P (itemIteratorNext it) := by
  apply (trusted_itemIteratorHasNext it).seq
  rintro ⟨hasNext, it⟩
  apply Tracks.ite
  · exact Tracks.throw_bind _
  dsimp only
  cases it.pageIterator.currentPage with
  | none => exact Tracks.throw _
  | some page =>
      apply (trusted_loadPage page).seq
      intro raw
      apply Tracks.ite
      · exact Tracks.throw_bind _
      apply (trusted_calculateLargeItemSize page _).seq
      intro payloadSize
      apply (trusted_getItem page _).seq
      intro item
      apply Tracks.ite
      · exact Tracks.throw_bind _
      · exact Tracks.pure _

theorem trusted_whileItemsLoop (fuel : Nat) (acc : γ) (it : ItemIterator) {P : γ × ItemIterator → Prop} :
    Trusted P (whileItemsLoop body fuel acc it) := by
  induction fuel generalizing acc it with
  | zero => exact Tracks.throw _
  | succ fuel ih =>
      apply (trusted_itemIteratorHasNext it).seq
      rintro ⟨hasNext, it⟩
      apply Tracks.ite
      · exact Tracks.pure _
      apply (trusted_itemIteratorNext it).seq
      rintro ⟨item, it⟩
      apply (Tracks.lift _).seq
      rintro (acc | acc)
      · exact Tracks.pure _
      · exact ih acc it

theorem trusted_whileItems (acc : γ) (it : ItemIterator) {P : γ × ItemIterator → Prop} :
    Trusted P (whileItems body acc it) := by
  apply Tracks.get
  · intro s
    rfl
  intro s
  exact trusted_whileItemsLoop body _ acc it

end Iterators

end DocumentDb.Storage
