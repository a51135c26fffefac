import DocumentDb.Storage.LiveItems

namespace DocumentDb.Storage

open Program

section Visits

variable {β γ : Type} {store : List (List Slot)} {vs : List (ItemIndex × Slot)} {stop : Option ItemIndex}

def Clean (vs : List (ItemIndex × Slot)) : Prop := ∀ v ∈ vs, v.2.deleted = false

theorem filterMap_slotVisits_dead {slots : List Slot} (h : ¬0 < liveCount slots) (k i : Nat) :
    (slotVisits k i slots).filterMap liveItem = [] := by
  refine List.filterMap_eq_nil_iff.mpr fun v hv => ?_
  obtain ⟨j, slot, hj, rfl⟩ := mem_slotVisits.mp hv
  have hdead : ¬(!slot.deleted) = true := fun hlive =>
    h (List.countP_pos_iff.mpr ⟨slot, List.mem_of_getElem? hj, hlive⟩)
  simp only [Bool.not_eq_true', Bool.not_eq_false] at hdead
  rw [liveItem, if_pos hdead]

theorem filterMap_laterVisits (k : Nat) (pages : List (List Slot)) :
    (laterVisits k pages).filterMap liveItem = (pagesVisits k pages).filterMap liveItem := by
  induction pages generalizing k with
  | nil => rfl
  | cons slots pages ih =>
      rw [laterVisits, pagesVisits, List.filterMap_append, List.filterMap_append, ih]
      split
      · rfl
      · rename_i hdead
        rw [filterMap_slotVisits_dead hdead]
        rfl

theorem filterMap_visits (store : List (List Slot)) :
    (visits store).filterMap liveItem = liveItems store := by
  cases store with
  | nil => rfl
  | cons slots pages =>
      rw [visits, liveItems, pagesVisits, List.filterMap_append, List.filterMap_append,
        filterMap_laterVisits]

theorem liveItem_eq (v : ItemIndex × Slot) (h : v.2.deleted = false) :
    liveItem v = some (createItem v.2.data v.1) := by
  rw [liveItem, if_neg (by simp [h])]

theorem runVisits_cons {body : γ → Item → Except Fault (ForInStep γ)} {acc acc' : γ} {v : ItemIndex × Slot}
    (h : runVisits body acc (v :: vs) = .ok (acc', stop)) :
    v.2.deleted = false ∧ (body acc (createItem v.2.data v.1) = .ok (.done acc') ∧ stop = some v.1 ∨
      ∃ acc1, body acc (createItem v.2.data v.1) = .ok (.yield acc1) ∧ runVisits body acc1 vs = .ok (acc', stop)) := by
  rw [runVisits] at h
  by_cases hdeleted : v.2.deleted = true
  · rw [if_pos hdeleted] at h
    cases h
  rw [if_neg hdeleted] at h
  refine ⟨by simpa using hdeleted, ?_⟩
  cases hbody : body acc (createItem v.2.data v.1) with
  | error e =>
      simp only [hbody] at h
      cases h
  | ok step =>
      simp only [hbody] at h
      cases step with
      | done acc1 =>
          cases h
          exact Or.inl ⟨rfl, rfl⟩
      | yield acc1 => exact Or.inr ⟨acc1, rfl, h⟩

theorem search_eq_done {p : Item → Except Fault (Option β)} {acc found : Option β} {item : Item}
    (h : search p acc item = .ok (.done found)) : ∃ b, found = some b ∧ p item = .ok (some b) := by
  cases hp : p item with
  | error e =>
      simp only [search, hp] at h
      cases h
  | ok r =>
      simp only [search, hp] at h
      cases r with
      | none => cases h
      | some b =>
          cases h
          exact ⟨b, rfl, rfl⟩

theorem search_eq_yield {p : Item → Except Fault (Option β)} {acc found : Option β} {item : Item}
    (h : search p acc item = .ok (.yield found)) : found = none ∧ p item = .ok none := by
  cases hp : p item with
  | error e =>
      simp only [search, hp] at h
      cases h
  | ok r =>
      simp only [search, hp] at h
      cases r with
      | some b => cases h
      | none =>
          cases h
          exact ⟨rfl, rfl⟩

theorem each_eq_ok {f : γ → Item → Except Fault γ} {acc : γ} {item : Item} {step : ForInStep γ}
    (h : each f acc item = .ok step) : ∃ acc1, step = .yield acc1 ∧ f acc item = .ok acc1 := by
  cases hf : f acc item with
  | error e =>
      simp only [each, hf] at h
      cases h
  | ok acc1 =>
      simp only [each, hf] at h
      cases h
      exact ⟨acc1, rfl, rfl⟩

theorem runVisits_search_some {p : Item → Except Fault (Option β)} {acc : Option β} {b : β}
    (h : runVisits (search p) acc vs = .ok (some b, stop)) (hacc : acc = none) :
    ∃ item ∈ vs.filterMap liveItem, p item = .ok (some b) ∧ stop = some item.id := by
  induction vs generalizing acc with
  | nil =>
      subst hacc
      cases h
  | cons v vs ih =>
      obtain ⟨hlive, ⟨hdone, hstop⟩ | ⟨acc1, hyield, hrest⟩⟩ := runVisits_cons h
      · obtain ⟨b', hb, hp⟩ := search_eq_done hdone
        cases hb
        rw [List.filterMap_cons_some (liveItem_eq v hlive)]
        exact ⟨_, List.mem_cons_self, hp, hstop⟩
      · obtain ⟨item, hitem, hfound⟩ := ih hrest (search_eq_yield hyield).1
        rw [List.filterMap_cons_some (liveItem_eq v hlive)]
        exact ⟨item, List.mem_cons_of_mem _ hitem, hfound⟩

theorem runVisits_search_none {p : Item → Except Fault (Option β)} {acc : Option β}
    (h : runVisits (search p) acc vs = .ok (none, stop)) :
    Clean vs ∧ ∀ item ∈ vs.filterMap liveItem, p item = .ok none := by
  induction vs generalizing acc with
  | nil => simp [Clean]
  | cons v vs ih =>
      obtain ⟨hlive, ⟨hdone, _⟩ | ⟨acc1, hyield, hrest⟩⟩ := runVisits_cons h
      · obtain ⟨b, hb, _⟩ := search_eq_done hdone
        cases hb
      · obtain ⟨hclean, hnone⟩ := ih hrest
        rw [List.filterMap_cons_some (liveItem_eq v hlive)]
        exact ⟨List.forall_mem_cons.mpr ⟨hlive, hclean⟩,
          List.forall_mem_cons.mpr ⟨(search_eq_yield hyield).2, hnone⟩⟩

theorem runVisits_each {f : γ → Item → Except Fault γ} {acc acc' : γ}
    (h : runVisits (each f) acc vs = .ok (acc', stop)) :
    Clean vs ∧ (vs.filterMap liveItem).foldlM f acc = .ok acc' := by
  induction vs generalizing acc with
  | nil =>
      cases h
      exact ⟨by simp [Clean], rfl⟩
  | cons v vs ih =>
      obtain ⟨hlive, ⟨hdone, _⟩ | ⟨acc1, hyield, hrest⟩⟩ := runVisits_cons h
      · obtain ⟨_, hstep, _⟩ := each_eq_ok hdone
        cases hstep
      · obtain ⟨_, hstep, hf⟩ := each_eq_ok hyield
        cases hstep
        obtain ⟨hclean, hfold⟩ := ih hrest
        rw [List.filterMap_cons_some (liveItem_eq v hlive), List.foldlM_cons, hf]
        exact ⟨List.forall_mem_cons.mpr ⟨hlive, hclean⟩, hfold⟩

theorem runVisits_search_clean (hclean : Clean vs) (p : Item → Except Fault (Option β)) :
    ∃ stop, runVisits (search p) none vs =
      ((vs.filterMap liveItem).findSomeM? p).map fun r => (r, stop) := by
  induction vs with
  | nil => exact ⟨none, rfl⟩
  | cons v vs ih =>
      obtain ⟨hfalse, hclean⟩ := List.forall_mem_cons.mp hclean
      rw [runVisits, if_neg (by simp [hfalse]), List.filterMap_cons_some (liveItem_eq v hfalse),
        List.findSomeM?_cons]
      cases hp : p (createItem v.2.data v.1) with
      | error e => exact ⟨none, by simp only [search, hp]; rfl⟩
      | ok r =>
          cases r with
          | some b => exact ⟨some v.1, by simp only [search, hp]; rfl⟩
          | none =>
              obtain ⟨stop, hstop⟩ := ih hclean
              exact ⟨stop, by simp only [search, hp]; exact hstop⟩

theorem runVisits_each_clean (hclean : Clean vs) (f : γ → Item → Except Fault γ) (acc : γ) :
    runVisits (each f) acc vs = ((vs.filterMap liveItem).foldlM f acc).map fun r => (r, none) := by
  induction vs generalizing acc with
  | nil => rfl
  | cons v vs ih =>
      obtain ⟨hfalse, hclean⟩ := List.forall_mem_cons.mp hclean
      rw [runVisits, if_neg (by simp [hfalse]), List.filterMap_cons_some (liveItem_eq v hfalse),
        List.foldlM_cons]
      cases hf : f acc (createItem v.2.data v.1) with
      | error e => simp only [each, hf]; rfl
      | ok acc1 => simp only [each, hf]; exact ih hclean acc1

/-- A scan ends at a deleted slot or because its body does. -/
theorem runVisits_error {body : γ → Item → Except Fault (ForInStep γ)} {acc : γ} {e : Fault}
    (h : runVisits body acc vs = .error e) :
    e = .assertion "metadata->is_deleted == false" ∨
      ∃ acc', ∃ item ∈ vs.filterMap liveItem, body acc' item = .error e := by
  induction vs generalizing acc with
  | nil => cases h
  | cons v vs ih =>
      rw [runVisits] at h
      by_cases hdeleted : v.2.deleted = true
      · rw [if_pos hdeleted] at h
        cases h
        exact Or.inl rfl
      rw [if_neg hdeleted] at h
      rw [List.filterMap_cons_some (liveItem_eq v (by simpa using hdeleted))]
      cases hbody : body acc (createItem v.2.data v.1) with
      | error e' =>
          simp only [hbody] at h
          cases h
          exact Or.inr ⟨acc, _, List.mem_cons_self, hbody⟩
      | ok r =>
          simp only [hbody] at h
          cases r with
          | done acc' => cases h
          | yield acc' =>
              rcases ih h with hassert | ⟨acc1, item, hitem, he⟩
              · exact Or.inl hassert
              · exact Or.inr ⟨acc1, item, List.mem_cons_of_mem _ hitem, he⟩

/-- A loop over all items does not get past a deleted slot. -/
theorem runVisits_each_dirty {f : γ → Item → Except Fault γ} (hdirty : ¬Clean vs) (acc : γ) :
    ∃ e, runVisits (each f) acc vs = .error e := by
  cases h : runVisits (each f) acc vs with
  | error e => exact ⟨e, rfl⟩
  | ok r =>
      obtain ⟨acc', stop⟩ := r
      exact absurd (runVisits_each h).1 hdirty

end Visits

section Scans

variable {self t : PageManager} {signature : Int} {pageSize : Nat} {store : List (List Slot)} {γ : Type}
  {body : γ → Item → Except Fault (ForInStep γ)} {acc : γ}

theorem Coherent.scanItems_eq {disk : Disk} (hd : Coherent self disk) (hs : Settled disk) (hc : AllCounted disk)
    (body : γ → Item → Except Fault (ForInStep γ)) (acc : γ) :
    Ends disk True (runVisits body acc (visits disk.slots)) (scanItems body acc) self := by
  obtain ⟨it, s, hget, hcs, hat⟩ := hd.getItems (List.getElem?_eq_getElem hs.pages_pos)
  have hends := hat.whileItems_eq body acc hcs.opened (fun _ : True => hcs) hc
  unfold Ends scanItems at *
  simpa only [run_bind, hget, andThen_ok] using hends

/-- A scan of the page manager is a scan of the slots. -/
theorem Stores.scan (h : Stores signature pageSize store self)
    (body : γ → Item → Except Fault (ForInStep γ)) (acc : γ) :
    match runVisits body acc (visits store) with
    | .ok (acc', stop) => ∃ it t, scanItems body acc self = .ok (acc', it) t ∧
        Stores signature pageSize store t ∧ it.isReleased = false ∧
        ∀ id, stop = some id → OnPage t it id.pageId
    | .error e => ∃ t, scanItems body acc self = .error e t := by
  obtain ⟨disk, hd, hs, hc, hsize, hsig, rfl⟩ := h
  have hends := hd.scanItems_eq hs hc body acc
  unfold Ends at hends
  cases hrun : runVisits body acc (visits disk.slots) with
  | error e =>
      rw [hrun] at hends
      exact hends
  | ok r =>
      rw [hrun] at hends
      obtain ⟨it', t, hscan, ht, halive, hstop⟩ := hends
      exact ⟨it', t, hscan, ⟨disk, ht trivial, hs, hc, hsize, hsig, rfl⟩, halive, hstop⟩

theorem Stores.scan_content (h : Stores signature pageSize store self) {r : γ × ItemIterator}
    (hrun : scanItems body acc self = .ok r t) :
    t.fileManager.file.content = self.fileManager.file.content := by
  obtain ⟨disk, hd, hs, hc, _⟩ := h
  have hends := hd.scanItems_eq hs hc body acc
  unfold Ends at hends
  split at hends
  · obtain ⟨it, u, hscan, hu, _⟩ := hends
    rw [hrun] at hscan
    cases hscan
    rw [(hu trivial).opened.content, hd.opened.content]
  · obtain ⟨u, hscan⟩ := hends
    rw [hrun] at hscan
    cases hscan

theorem Stores.scan_ok (h : Stores signature pageSize store self) {r : γ × ItemIterator}
    (hrun : scanItems body acc self = .ok r t) :
    ∃ stop, runVisits body acc (visits store) = .ok (r.1, stop) ∧ Stores signature pageSize store t ∧
      r.2.isReleased = false ∧ ∀ id, stop = some id → OnPage t r.2 id.pageId := by
  have hscan := h.scan body acc
  cases hvisits : runVisits body acc (visits store) with
  | error e =>
      rw [hvisits] at hscan
      obtain ⟨u, hu⟩ := hscan
      rw [hrun] at hu
      cases hu
  | ok r' =>
      rw [hvisits] at hscan
      obtain ⟨it, u, hu, hs, halive, hstop⟩ := hscan
      rw [hrun] at hu
      cases hu
      exact ⟨r'.2, rfl, hs, halive, hstop⟩

theorem Stores.destroy (h : Stores signature pageSize store self) {it : ItemIterator}
    (halive : it.isReleased = false) :
    ∃ it' t, itemIteratorDestroy it self = .ok it' t ∧ Stores signature pageSize store t := by
  obtain ⟨t, hfree, ht⟩ := h.freePages
  refine ⟨{ it with isReleased := true }, t, ?_, ht⟩
  rw [itemIteratorDestroy, pageIteratorDestroy]
  simp only [halive, reduceCtorEq, if_false, run_bind, hfree, andThen_ok, run_pure]

/-- A released iterator is not released again, and its release writes nothing. -/
theorem itemIteratorDestroy_ok {it it' : ItemIterator} (hrun : itemIteratorDestroy it self = .ok it' t) :
    it.isReleased = false ∧ it'.isReleased = true ∧ t.fileManager = self.fileManager := by
  rw [itemIteratorDestroy] at hrun
  cases hreleased : it.isReleased with
  | true => simp only [hreleased, if_true, run_bind, run_throw, andThen_error, reduceCtorEq] at hrun
  | false =>
      simp only [hreleased, Bool.false_eq_true, if_false] at hrun
      obtain ⟨_, s1, hdestroy, hrest⟩ := bind_eq_ok.mp hrun
      simp only [run_pure] at hrest
      cases hrest
      rw [pageIteratorDestroy] at hdestroy
      cases hdestroy
      exact ⟨rfl, rfl, rfl⟩

end Scans

end DocumentDb.Storage
