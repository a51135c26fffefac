import DocumentDb.Storage.WriteThrough

namespace DocumentDb.Storage

open Bytes Program

section Pages

variable {pageSize : Nat} {pageId : Int} {slots : List Slot} {page : Page}

/-- A page does not count more items than it has slots. Deleting an item a second time
through an old copy of it makes the count less than the number of live items, but never
more. -/
def Bounded (slots : List Slot) (page : Page) : Prop := page.pageHeader.itemsCount ≤ slots.length

theorem pageInvariant_bounded : PageInvariant Bounded where
  fresh pageId pageSize := le_rfl
  add {pageSize pageId slots page} payload h hp hbounded := by
    have hlen := h.length_lt hp
    rw [Bounded] at hbounded ⊢
    rw [addedPage, List.length_append, List.length_singleton, toUInt32_succ (by omega)]
    exact Nat.succ_le_succ hbounded
  delete {pageSize pageId slots page i slot} hs hcount hbounded := by
    have hlen : slots.length ≤ (deleteSlot slots i).length + 1 := by
      rw [deleteSlot]
      split
      · rw [List.length_dropLast]
        omega
      · rw [List.length_modify]
        omega
    have hheader : (deletedPage pageSize pageId slots i slot page).pageHeader.itemsCount =
        page.pageHeader.itemsCount - 1 := by
      rw [deletedPage]
      split <;> rfl
    rw [Bounded] at hbounded ⊢
    omega

end Pages

section Loop

variable {self t : PageManager} {disk : Disk} {it : ItemIterator} {fuel k : Nat} {a : PageAddr} {page : Page}

theorem Coherent.hasNextLoop_end (h : Coherent self disk) (hit : it.pageIterator.nextPageId = k)
    (hk : disk.pages.length ≤ k) : hasNextLoop (fuel + 1) it self = .ok (false, it) self := by
  obtain ⟨⟨next, a⟩, index, released⟩ := it
  simp only at hit
  subst hit
  rw [hasNextLoop]
  simp only [run_bind, h.opened.pageIteratorHasNext_eq, Nat.not_lt.mpr hk, decide_false, andThen_ok, if_true, run_pure]

theorem Coherent.hasNextLoop_round (h : Coherent self disk) (hit : it.pageIterator.nextPageId = k) {p : StoredPage}
    (hk : disk.pages[k]? = some p) (fuel : Nat) :
    ∃ b t, Coherent t disk ∧ findPage t b = some p.page ∧ hasNextLoop (fuel + 1) it self =
      if 0 < p.page.pageHeader.itemsCount then
        .ok (true, { it with pageIterator := ⟨k + 1, some b⟩, currentItemIndex := -1 }) t
      else hasNextLoop fuel { it with pageIterator := ⟨k + 1, some b⟩ } t := by
  obtain ⟨⟨next, a⟩, index, released⟩ := it
  simp only at hit
  subst hit
  obtain ⟨b, t, hnext, ht, hb⟩ := h.opened.pageIteratorNext_eq hk a
  refine ⟨b, t, ht, hb, ?_⟩
  rw [hasNextLoop]
  simp only [run_bind, h.opened.pageIteratorHasNext_eq, Disk.lt_length hk, decide_true, reduceCtorEq, if_false, hnext,
    andThen_ok, run_abortIfFail_ok, run_loadPage hb, run_ite, run_pure]

structure Found (pm : PageManager) (disk : Disk) (it : ItemIterator) : Prop where
  page : ∃ (a : PageAddr) (j : Nat) (p : StoredPage), it.pageIterator.currentPage = some a ∧ disk.pages[j]? = some p ∧
    findPage pm a = some p.page ∧ 0 < p.page.pageHeader.itemsCount
  index : it.currentItemIndex = -1

theorem Coherent.hasNextLoop_found (h : Coherent self disk) (hit : it.pageIterator.nextPageId = k)
    (hfuel : disk.pages.length < fuel + k) {j : Nat} {p : StoredPage} (hkj : k ≤ j) (hp : disk.pages[j]? = some p)
    (hcount : 0 < p.page.pageHeader.itemsCount) :
    ∃ it' t, hasNextLoop fuel it self = .ok (true, it') t ∧ Coherent t disk ∧ Found t disk it' ∧
      it'.isReleased = it.isReleased := by
  have hj := Disk.lt_length hp
  induction fuel generalizing k it self with
  | zero => omega
  | succ fuel ih =>
      obtain ⟨b, t, ht, hb, hround⟩ := h.hasNextLoop_round hit
        (List.getElem?_eq_getElem (show k < disk.pages.length by omega)) fuel
      rw [hround]
      by_cases hk : 0 < disk.pages[k].page.pageHeader.itemsCount
      · rw [if_pos hk]
        exact ⟨_, t, rfl, ht, ⟨⟨b, k, _, rfl, List.getElem?_eq_getElem _, hb, hk⟩, rfl⟩, rfl⟩
      · rw [if_neg hk]
        have hne : k ≠ j := by
          rintro rfl
          rw [List.getElem?_eq_getElem hj] at hp
          cases hp
          exact hk hcount
        exact ih (k := k + 1) ht rfl (by omega) (by omega)

theorem Coherent.hasNextLoop_empty (h : Coherent self disk) (hit : it.pageIterator.nextPageId = k)
    (hfuel : disk.pages.length < fuel + k) {last : StoredPage} (hlast : disk.pages[disk.pages.length - 1]? = some last)
    (hk : k < disk.pages.length)
    (hempty : ∀ j p, k ≤ j → disk.pages[j]? = some p → p.page.pageHeader.itemsCount = 0) :
    ∃ it' b t, hasNextLoop fuel it self = .ok (false, it') t ∧ Coherent t disk ∧
      it'.pageIterator = ⟨disk.pages.length, some b⟩ ∧ findPage t b = some last.page ∧
      it'.currentItemIndex = it.currentItemIndex ∧ it'.isReleased = it.isReleased := by
  induction fuel generalizing k it self with
  | zero => omega
  | succ fuel ih =>
      have hpage := List.getElem?_eq_getElem hk
      obtain ⟨b, t, ht, hb, hround⟩ := h.hasNextLoop_round hit hpage fuel
      rw [hround, hempty k _ le_rfl hpage, if_neg (Nat.lt_irrefl 0)]
      by_cases hnext : k + 1 < disk.pages.length
      · exact ih (k := k + 1) ht rfl (by omega) hnext fun j p hj => hempty j p (by omega)
      · have hend : disk.pages.length = k + 1 := by omega
        obtain ⟨fuel, rfl⟩ : ∃ n, fuel = n + 1 := ⟨fuel - 1, by omega⟩
        rw [hend, Nat.add_sub_cancel, hpage] at hlast
        cases hlast
        exact ⟨_, b, t, ht.hasNextLoop_end rfl (show disk.pages.length ≤ k + 1 by omega), ht, by rw [hend]; rfl, hb, rfl, rfl⟩

end Loop

section HasNext

variable {self t : PageManager} {disk : Disk} {it : ItemIterator} {a : PageAddr} {page : Page}

theorem itemIteratorHasNext_here (halive : it.isReleased = false) (hpage : it.pageIterator.currentPage = some a)
    (ha : findPage self a = some page) (hlt : it.currentItemIndex + 1 < page.pageHeader.nextItemId.itemId) :
    itemIteratorHasNext it self = .ok (true, it) self := by
  rw [itemIteratorHasNext]
  simp only [halive, reduceCtorEq, if_false, hpage, run_bind, run_loadPage ha, andThen_ok, run_ite, if_pos hlt, run_pure]

theorem itemIteratorHasNext_exhausted (halive : it.isReleased = false) (hpage : it.pageIterator.currentPage = some a)
    (ha : findPage self a = some page) (hle : page.pageHeader.nextItemId.itemId ≤ it.currentItemIndex + 1) :
    itemIteratorHasNext it self = hasNextLoop (pageManagerGetPagesCount self + 1) it self := by
  rw [itemIteratorHasNext]
  simp only [halive, reduceCtorEq, if_false, hpage, run_bind, run_loadPage ha, andThen_ok, run_ite,
    if_neg (Int.not_lt.mpr hle), run_get]

/-- The iterator has been at the end of its page, and has something to do on the pages
behind it. -/
structure Exhausted (it : ItemIterator) (pm : PageManager) : Prop where
  alive : it.isReleased = false
  page : ∃ a page, it.pageIterator.currentPage = some a ∧ findPage pm a = some page ∧
    page.pageHeader.nextItemId.itemId ≤ it.currentItemIndex + 1
  behind : it.pageIterator.nextPageId < pageManagerGetPagesCount pm

theorem Coherent.hasNext_stays (h : Coherent self disk) (hit : 1 ≤ it.pageIterator.nextPageId)
    (hstays : ¬Exhausted it self) {b : Bool} {it' : ItemIterator}
    (hrun : itemIteratorHasNext it self = .ok (b, it') t) : it' = it ∧ t = self := by
  obtain ⟨k, hk⟩ := Int.eq_ofNat_of_zero_le (show 0 ≤ it.pageIterator.nextPageId by omega)
  cases hreleased : it.isReleased with
  | true =>
      rw [itemIteratorHasNext] at hrun
      simp only [hreleased, if_true, run_bind, run_throw, andThen_error, reduceCtorEq] at hrun
  | false =>
      cases hpage : it.pageIterator.currentPage with
      | none =>
          rw [itemIteratorHasNext] at hrun
          simp only [hreleased, reduceCtorEq, if_false, hpage, run_pure] at hrun
          cases hrun
          exact ⟨rfl, rfl⟩
      | some a =>
          cases ha : findPage self a with
          | none =>
              rw [itemIteratorHasNext] at hrun
              simp only [hreleased, reduceCtorEq, if_false, hpage] at hrun
              obtain ⟨page, _, hload, _⟩ := bind_eq_ok.mp hrun
              rw [(loadPage_eq_ok.mp hload).1] at ha
              cases ha
          | some page =>
              by_cases hlt : it.currentItemIndex + 1 < page.pageHeader.nextItemId.itemId
              · rw [itemIteratorHasNext_here hreleased hpage ha hlt] at hrun
                cases hrun
                exact ⟨rfl, rfl⟩
              · have hle : page.pageHeader.nextItemId.itemId ≤ it.currentItemIndex + 1 := Int.not_lt.mp hlt
                have hend : disk.pages.length ≤ k := by
                  by_contra hbehind
                  refine hstays ⟨hreleased, ⟨a, page, hpage, ha, hle⟩, ?_⟩
                  rw [hk, h.opened.pagesCount_eq]
                  omega
                rw [itemIteratorHasNext_exhausted hreleased hpage ha hle, h.hasNextLoop_end hk hend] at hrun
                cases hrun
                exact ⟨rfl, rfl⟩

theorem Found.hasNext (h : Found self disk it) (hb : EachPage Bounded disk) (halive : it.isReleased = false) :
    itemIteratorHasNext it self = .ok (true, it) self := by
  obtain ⟨a, j, p, hpage, hp, ha, hcount⟩ := h.page
  have hbounded := hb j p hp
  have hnext := (disk.layout j p hp).nextItemId
  apply itemIteratorHasNext_here halive hpage ha
  rw [Bounded] at hbounded
  rw [h.index, hnext]
  omega

def storedHeader (self : PageManager) (k : Nat) : PageHeader := (decodePage (pageOnDisk self k)).pageHeader

theorem Coherent.storedHeader_eq (h : Coherent self disk) {k : Nat} {p : StoredPage} (hk : disk.pages[k]? = some p) :
    storedHeader self k = p.page.pageHeader := by
  rw [storedHeader, h.pageOnDisk_eq hk, decodePage_encode (Disk.inRange hk)]

/-- No page behind the one of the iterator counts an item, but the last of them has more
slots than the iterator has passed on its own page. -/
structure Slips (it : ItemIterator) (pm : PageManager) : Prop where
  exhausted : Exhausted it pm
  empty : ∀ k : Nat, it.pageIterator.nextPageId ≤ k → k < pageManagerGetPagesCount pm →
    (storedHeader pm k).itemsCount = 0
  leftover : it.currentItemIndex + 1 < (storedHeader pm (pageManagerGetPagesCount pm - 1)).nextItemId.itemId

/-- Then there is no item, and the next time there is one. -/
theorem Slips.hasNext (h : Slips it self) (hd : Coherent self disk) (hit : 1 ≤ it.pageIterator.nextPageId) :
    ∃ it' t, itemIteratorHasNext it self = .ok (false, it') t ∧ itemIteratorHasNext it' t = .ok (true, it') t := by
  obtain ⟨k, hk⟩ := Int.eq_ofNat_of_zero_le (show 0 ≤ it.pageIterator.nextPageId by omega)
  obtain ⟨a, page, hpage, ha, hle⟩ := h.exhausted.page
  have hbehind := h.exhausted.behind
  have hleftover := h.leftover
  rw [hd.opened.pagesCount_eq] at hbehind hleftover
  have hlast := List.getElem?_eq_getElem (show disk.pages.length - 1 < disk.pages.length by omega)
  obtain ⟨it', b, t, hloop, ht, hpage', hb, hindex, halive⟩ := hd.hasNextLoop_empty hk
    (show disk.pages.length < disk.pages.length + 1 + k by omega) hlast (by omega) fun j p hj hp => by
      rw [← hd.storedHeader_eq hp]
      refine h.empty j (by omega) ?_
      rw [hd.opened.pagesCount_eq]
      exact Disk.lt_length hp
  refine ⟨it', t, ?_, ?_⟩
  · rw [itemIteratorHasNext_exhausted h.exhausted.alive hpage ha hle, hd.opened.pagesCount_eq]
    exact hloop
  · rw [hd.storedHeader_eq hlast, ← hindex] at hleftover
    exact itemIteratorHasNext_here (halive.trans h.exhausted.alive) (by rw [hpage']) hb hleftover

/-- In every other case asking again changes nothing. -/
theorem Coherent.hasNext_settles (h : Coherent self disk) (hb : EachPage Bounded disk)
    (hit : 1 ≤ it.pageIterator.nextPageId) (hslips : ¬Slips it self) {b : Bool} {it' : ItemIterator}
    (hrun : itemIteratorHasNext it self = .ok (b, it') t) :
    itemIteratorHasNext it' t = .ok (b, it') t ∧ t.fileManager.header = self.fileManager.header := by
  by_cases hexhausted : Exhausted it self
  swap
  · obtain ⟨rfl, rfl⟩ := h.hasNext_stays hit hexhausted hrun
    exact ⟨hrun, rfl⟩
  obtain ⟨k, hk⟩ := Int.eq_ofNat_of_zero_le (show 0 ≤ it.pageIterator.nextPageId by omega)
  obtain ⟨halive, ⟨a, page, hpage, ha, hle⟩, hbehind⟩ := hexhausted
  have hcount := h.opened.pagesCount_eq
  rw [itemIteratorHasNext_exhausted halive hpage ha hle, hcount] at hrun
  by_cases hfound : ∃ j p, k ≤ j ∧ disk.pages[j]? = some p ∧ 0 < p.page.pageHeader.itemsCount
  · obtain ⟨j, p, hkj, hp, hpos⟩ := hfound
    obtain ⟨it1, t1, hloop, ht, hit1, halive1⟩ := h.hasNextLoop_found hk
      (show disk.pages.length < disk.pages.length + 1 + k by omega) hkj hp hpos
    rw [hloop] at hrun
    cases hrun
    exact ⟨hit1.hasNext hb (halive1.trans halive), by rw [ht.opened.header, h.opened.header]⟩
  · have hempty : ∀ j p, k ≤ j → disk.pages[j]? = some p → p.page.pageHeader.itemsCount = 0 := by
      intro j p hkj hp
      by_contra hne
      exact hfound ⟨j, p, hkj, hp, Nat.pos_of_ne_zero hne⟩
    have hlt : k < disk.pages.length := by
      rw [hk, hcount] at hbehind
      omega
    have hlast := List.getElem?_eq_getElem (show disk.pages.length - 1 < disk.pages.length by omega)
    obtain ⟨it1, b1, t1, hloop, ht, hpage1, hb1, hindex, halive1⟩ := h.hasNextLoop_empty hk
      (show disk.pages.length < disk.pages.length + 1 + k by omega) hlast hlt hempty
    rw [hloop] at hrun
    cases hrun
    refine ⟨?_, by rw [ht.opened.header, h.opened.header]⟩
    have hlast' : (disk.pages[disk.pages.length - 1]).page.pageHeader.nextItemId.itemId ≤ it.currentItemIndex + 1 := by
      by_contra hlt'
      refine hslips ⟨⟨halive, ⟨a, page, hpage, ha, hle⟩, hbehind⟩, ?_, ?_⟩
      · intro j hj hjlt
        rw [hcount] at hjlt
        have hp := List.getElem?_eq_getElem hjlt
        rw [h.storedHeader_eq hp]
        exact hempty j _ (by omega) hp
      · rw [hcount, h.storedHeader_eq hlast]
        omega
    rw [itemIteratorHasNext_exhausted (halive1.trans halive) (by rw [hpage1]) hb1 (by rwa [hindex]),
      ht.opened.pagesCount_eq]
    exact ht.hasNextLoop_end (by rw [hpage1]) le_rfl

end HasNext

section Stable

variable {self t : PageManager} {disk : Disk} {it it' : ItemIterator} {b : Bool} {pageSize : Nat} {signature : Int}
  {s : Session}

def remaining (it : ItemIterator) (self : PageManager) : Except Fault (List Item) :=
  (returned (whileItems (each fun items item => .ok (items ++ [item])) [] it self)).map Prod.fst

/-- Asking for a next item any number of times gives the same answer, and leaves the same
items to come. A call that ends the program has no answer, and an iterator at which it does counts as stable. -/
structure Stable (it : ItemIterator) (pm : PageManager) : Prop where
  answer : ∀ n, (returned (again itemIteratorHasNext n it pm)).map Prod.fst =
    (returned (itemIteratorHasNext it pm)).map Prod.fst
  remaining : ∀ n b it' t, again itemIteratorHasNext n it pm = .ok (b, it') t →
    remaining it' t = Storage.remaining it pm

/-- A loop starts by asking for a next item, so it may as well have been asked for before. -/
theorem remaining_eq (hrun : itemIteratorHasNext it self = .ok (b, it') t)
    (hagain : itemIteratorHasNext it' t = .ok (b, it') t) (hheader : t.fileManager.header = self.fileManager.header) :
    remaining it' t = remaining it self := by
  have hsize : pageManagerGetPagesCount t * pageManagerGetPageSize t =
      pageManagerGetPagesCount self * pageManagerGetPageSize self := by
    rw [pageManagerGetPagesCount, pageManagerGetPageSize, hheader]
    rfl
  rw [remaining, remaining, whileItems, whileItems]
  simp only [run_bind, run_get, andThen_ok, hsize]
  simp only [whileItemsLoop, run_bind, hrun, hagain, andThen_ok]

/-- In every session an iterator is stable exactly when it does not slip. -/
theorem hasNext_stable_iff (hsig : IsInt32 signature) (hmax : pageSize < 2 ^ 32)
    (h : ReachableSession pageSize signature s) (hit : it ∈ s.itemIterators) :
    Stable it s.manager ↔ ¬Slips it s.manager := by
  have hkept := h.kept pageInvariant_bounded hsig (h.sizeofPageHeader_le hmax) hmax
  obtain ⟨disk, hd, _, hb, _⟩ := hkept.managed
  have hone := hkept.itemIterators it hit
  constructor
  · intro hstable hslips
    obtain ⟨it', t, hfirst, hsecond⟩ := hslips.hasNext hd hone
    have hanswer := hstable.answer 1
    rw [again, run_bind, hfirst, andThen_ok] at hanswer
    dsimp only at hanswer
    rw [again, hsecond] at hanswer
    cases hanswer
  · intro hslips
    have hsettles : ∀ b it' t, itemIteratorHasNext it s.manager = .ok (b, it') t →
        itemIteratorHasNext it' t = .ok (b, it') t ∧ t.fileManager.header = s.manager.fileManager.header := by
      intro b it' t hrun
      exact hd.hasNext_settles hb hone hslips hrun
    have hagain := fun n => again_eq (fun b it' t hrun => (hsettles b it' t hrun).1) n
    constructor
    · intro n
      rw [hagain]
    · intro n b it' t hrun
      rw [hagain] at hrun
      obtain ⟨hsame, hheader⟩ := hsettles b it' t hrun
      exact remaining_eq hrun hsame hheader

def standing (it : ItemIterator) (pm : PageManager) : Bool × Int × Int × Option Int × Nat × Nat :=
  (it.isReleased, it.pageIterator.nextPageId, it.currentItemIndex,
    (it.pageIterator.currentPage.bind (findPage pm)).map fun page => page.pageHeader.nextItemId.itemId,
    pageManagerGetPagesCount pm, (storedHeader pm 1).itemsCount)

/-- The item on the page of the iterator has been deleted, and there is one on the next page. -/
theorem hasNext_stable_iff_new :
    ∃ s it, ReachableSession 64 7 s ∧ it ∈ s.itemIterators ∧ Exhausted it s.manager ∧ Stable it s.manager := by
  have hanswers : returned ((do
      let it ← busyCalls
      return standing it (← get)) (pageManagerNew (fileOpen none noFaults))) = .ok (false, 1, 0, some 0, 2, 1) := by
    decide +kernel
  obtain ⟨_, hrun⟩ := returned_eq_ok hanswers
  obtain ⟨it, s, hcalls, hrun⟩ := bind_eq_ok.mp hrun
  obtain ⟨_, _, hget, hanswer⟩ := bind_eq_ok.mp hrun
  cases hget
  simp only [run_pure, EStateM.Result.ok.injEq, standing, Prod.mk.injEq, Option.map_eq_some_iff,
    Option.bind_eq_some_iff] at hanswer
  obtain ⟨⟨halive, hnext, hindex, ⟨page, ⟨a, ha, hpage⟩, hitems⟩, hcount, hbehind⟩, _⟩ := hanswer
  obtain ⟨new, hsession, _⟩ := busyCalls_session hcalls
  have hmem : it ∈ [it, new] := List.mem_cons_self
  refine ⟨_, it, hsession, hmem, ⟨halive, ⟨a, page, ha, hpage, ?_⟩, ?_⟩, ?_⟩
  · rw [hitems, hindex]
    decide
  · rw [hnext, hcount]
    decide
  · apply (hasNext_stable_iff ⟨by decide, by decide⟩ (by decide) hsession hmem).mpr
    intro hslips
    have hempty : (storedHeader s 1).itemsCount = 0 :=
      hslips.empty 1 (by rw [hnext]; decide) (by rw [hcount]; decide)
    rw [hbehind] at hempty
    cases hempty

end Stable

section Leftover

/-- The only item of the first page is deleted, and the two of the second one, of which the
slot of the first stays. -/
def leftover : PageManagerM ItemIterator := do
  let _ ← short (pageManagerInit 72 7)
  let first ← short pageManagerGetPageForData
  let a ← short (pageManagerPutItem first [1])
  let second ← short pageManagerGetPageForData
  let b ← short (pageManagerPutItem second [2])
  let c ← short (pageManagerPutItem second [3])
  let _ ← short (pageManagerDeleteItem first (createItem [1] a.metadata.itemId))
  let _ ← short (pageManagerDeleteItem second (createItem [2] b.metadata.itemId))
  let _ ← short (pageManagerDeleteItem second (createItem [3] c.metadata.itemId))
  short pageManagerGetItems

/-- The iterator says that there is no item, and then that there is one. -/
theorem hasNext_false_then_true :
    ∃ s it it1 t1 it2 t2, ReachableSession 72 7 s ∧ it ∈ s.itemIterators ∧
      itemIteratorHasNext it s.manager = .ok (false, it1) t1 ∧ itemIteratorHasNext it1 t1 = .ok (true, it2) t2 ∧
      ¬Stable it s.manager := by
  have hanswers : returned ((do
      let it ← leftover
      let first ← itemIteratorHasNext it
      let second ← itemIteratorHasNext first.2
      return (first.1, second.1)) (pageManagerNew (fileOpen none noFaults))) = .ok (false, true) := by
    decide +kernel
  obtain ⟨_, hrun⟩ := returned_eq_ok hanswers
  obtain ⟨it, t, hleftover, hrun⟩ := bind_eq_ok.mp hrun
  obtain ⟨⟨one, it1⟩, t1, hone, hrun⟩ := bind_eq_ok.mp hrun
  obtain ⟨⟨two, it2⟩, _, htwo, hanswer⟩ := bind_eq_ok.mp hrun
  cases hanswer
  obtain ⟨_, _, hstep, hleftover⟩ := bind_eq_ok.mp hleftover
  have hsession := ReachableSession.init (short_eq_ok hstep).1 (short_eq_ok hstep).2
  obtain ⟨first, _, hstep, hleftover⟩ := bind_eq_ok.mp hleftover
  replace hsession := hsession.call (.getPageForData (short_eq_ok hstep).1) (short_eq_ok hstep).2
  obtain ⟨a, _, hstep, hleftover⟩ := bind_eq_ok.mp hleftover
  replace hsession := hsession.call (.putItem (by decide) (by decide) (short_eq_ok hstep).1) (short_eq_ok hstep).2
  obtain ⟨second, _, hstep, hleftover⟩ := bind_eq_ok.mp hleftover
  replace hsession := hsession.call (.getPageForData (short_eq_ok hstep).1) (short_eq_ok hstep).2
  obtain ⟨b, _, hstep, hleftover⟩ := bind_eq_ok.mp hleftover
  replace hsession := hsession.call (.putItem (by decide) (by decide) (short_eq_ok hstep).1) (short_eq_ok hstep).2
  obtain ⟨c, _, hstep, hleftover⟩ := bind_eq_ok.mp hleftover
  replace hsession := hsession.call (.putItem (by decide) (by decide) (short_eq_ok hstep).1) (short_eq_ok hstep).2
  obtain ⟨_, _, hstep, hleftover⟩ := bind_eq_ok.mp hleftover
  replace hsession := hsession.call (.deleteItem (short_eq_ok hstep).1) (short_eq_ok hstep).2
  obtain ⟨_, _, hstep, hleftover⟩ := bind_eq_ok.mp hleftover
  replace hsession := hsession.call (.deleteItem (short_eq_ok hstep).1) (short_eq_ok hstep).2
  obtain ⟨_, _, hstep, hleftover⟩ := bind_eq_ok.mp hleftover
  replace hsession := hsession.call (.deleteItem (short_eq_ok hstep).1) (short_eq_ok hstep).2
  replace hsession := hsession.call (.itemIteratorNew (short_eq_ok hleftover).1) (short_eq_ok hleftover).2
  refine ⟨_, it, it1, t1, it2, _, hsession, List.mem_cons_self, hone, htwo, ?_⟩
  intro hstable
  have hanswer := hstable.answer 1
  rw [again, run_bind, hone, andThen_ok] at hanswer
  dsimp only at hanswer
  rw [again, htwo] at hanswer
  cases hanswer

end Leftover

end DocumentDb.Storage
