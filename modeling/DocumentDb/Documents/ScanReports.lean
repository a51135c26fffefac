import DocumentDb.Storage.ReadFailure
import DocumentDb.Documents.Conditions

namespace DocumentDb.Documents

open Storage Program

section Loops

variable {γ : Type} {items : List Item}

theorem foldlM_stepNode {f : γ → Node → Except Fault γ} {acc acc' : γ}
    (h : items.foldlM (stepNode f) acc = .ok acc') : (items.map nodeOfItem).foldlM f acc = .ok acc' := by
  induction items generalizing acc with
  | nil => exact h
  | cons item items ih =>
      obtain ⟨acc1, hstep, hrest⟩ := foldlM_cons_eq_ok.mp h
      cases hnode : itemToNode item with
      | error e =>
          rw [stepNode, hnode] at hstep
          cases hstep
      | ok node =>
          rw [stepNode_of_ok hnode] at hstep
          rw [List.map_cons, ← itemToNode_eq_ok hnode]
          exact foldlM_cons_eq_ok.mpr ⟨acc1, hstep, ih hrest⟩

def passes (p : Node → Except Fault Bool) (node : Node) : Bool :=
  match p node with
  | .ok b => b
  | .error _ => false

end Loops

section Scans

variable {doc t : Document} {it : ItemIterator} {γ : Type} {node : Node} {matcher : NodeMatcher} {n : Nat}

end Scans

section Queries

variable {pageSize : Nat} {signature : Int} {m : ItemIndex → Option ItemPayload} {store : List (List Slot)}
  {α β γ : Type} {doc : Document}

/-- A state of a run from which a scan meets the pages of the file, or none at all. -/
structure Scannable (pageSize : Nat) (signature : Int) (m : ItemIndex → Option ItemPayload)
    (store : List (List Slot)) (pm : PageManager) : Prop where
  run : FaultyRun pageSize signature pm m
  saves : Saves signature pageSize store pm.calm
  faithful : FirstPageFaithful pm

/-- The first access that has failed between two states was the one with which a scan
begins, and its program has gone on. -/
def Overlooked (pageSize : Nat) (signature : Int) (m : ItemIndex → Option ItemPayload) (s t : PageManager) : Prop :=
  ∃ u, FaultyRun pageSize signature u m ∧ ¬FirstPageAvailable u ∧ Unfailing s u ∧
    u.fileManager.file.accesses < t.fileManager.file.accesses

/-- The same document over a page manager that holds the slots, whose accesses do not fail. -/
structure Matches (pageSize : Nat) (signature : Int) (store : List (List Slot)) (doc doc' : Document) : Prop where
  stores : Stores signature pageSize store doc'.pageManager
  rootNode : doc'.rootNode = doc.rootNode
  initDone : doc'.initDone = doc.initDone

/-- What a query that returns has met: no failing access, and then its answer is the one
that the file gives, or one that is overlooked. -/
def Queried (pageSize : Nat) (signature : Int) (m : ItemIndex → Option ItemPayload) (store : List (List Slot))
    (x : DocumentM α) (doc : Document) (a : α) (t : Document) : Prop :=
  Unfailing doc.pageManager t.pageManager ∧ (∀ doc', Matches pageSize signature store doc doc' →
    ∃ t', x doc' = .ok a t' ∧ Matches pageSize signature store t t') ∨
  Overlooked pageSize signature m doc.pageManager t.pageManager

def Queries (pageSize : Nat) (signature : Int) (m : ItemIndex → Option ItemPayload) (store : List (List Slot))
    (x : DocumentM α) : Prop :=
  ∀ doc a t, Scannable pageSize signature m store doc.pageManager → x doc = .ok a t →
    Scannable pageSize signature m store t.pageManager ∧ Queried pageSize signature m store x doc a t

variable {x y : DocumentM α} {f : α → DocumentM β}

theorem Queries.of_same (hsame : ∀ doc a t, x doc = .ok a t → t = doc)
    (hagree : ∀ doc doc' a, x doc = .ok a doc → doc'.rootNode = doc.rootNode → doc'.initDone = doc.initDone →
      x doc' = .ok a doc') : Queries pageSize signature m store x := by
  intro doc a t hs hrun
  obtain rfl := hsame doc a t hrun
  refine ⟨hs, Or.inl ⟨Std.Refl.refl _, fun doc' h => ⟨doc', ?_, h⟩⟩⟩
  exact hagree t doc' a hrun h.rootNode h.initDone

theorem Queries.pure (a : α) : Queries pageSize signature m store (pure a : DocumentM α) := by
  apply Queries.of_same
  · intro doc b t hrun
    cases hrun
    rfl
  · intro doc doc' b hrun _ _
    cases hrun
    rfl

theorem Queries.throw_bind (e : Fault) : Queries pageSize signature m store (throw e >>= f) := by
  intro doc b t _ hrun
  cases hrun

theorem Queries.throw (e : Fault) : Queries pageSize signature m store (throw e : DocumentM α) := by
  intro doc a t _ hrun
  cases hrun

theorem Queries.lift (r : Except Fault α) : Queries pageSize signature m store (lift r : DocumentM α) := by
  apply Queries.of_same
  · intro doc a t hrun
    rw [(lift_eq_ok.mp hrun).2]
  · intro doc doc' a hrun _ _
    exact lift_eq_ok.mpr ⟨(lift_eq_ok.mp hrun).1, rfl⟩

theorem Queries.abortIfFail (res : Result α) (message : String) :
    Queries pageSize signature m store (abortIfFail res message : DocumentM α) := by
  apply Queries.of_same
  · intro doc a t hrun
    rw [(abortIfFail_eq_ok.mp hrun).2]
  · intro doc doc' a hrun _ _
    exact abortIfFail_eq_ok.mpr ⟨(abortIfFail_eq_ok.mp hrun).1, rfl⟩

theorem Queries.ite {c : Prop} [Decidable c] (hx : Queries pageSize signature m store x)
    (hy : Queries pageSize signature m store y) : Queries pageSize signature m store (if c then x else y) := by
  split
  · exact hx
  · exact hy

theorem Queries.bind (hx : Queries pageSize signature m store x) (hf : ∀ a, Queries pageSize signature m store (f a)) :
    Queries pageSize signature m store (x >>= f) := by
  intro doc b t hs hrun
  obtain ⟨a, s1, hfirst, hrest⟩ := bind_eq_ok.mp hrun
  obtain ⟨hs1, hx⟩ := hx doc a s1 hs hfirst
  obtain ⟨ht, hf⟩ := hf a s1 b t hs1 hrest
  refine ⟨ht, ?_⟩
  rcases hx with ⟨hx, hanswer⟩ | ⟨u, hu, hblind, hbefore, hlt⟩
  · rcases hf with ⟨hf, hanswer'⟩ | ⟨u, hu, hblind, hbefore, hlt⟩
    · refine Or.inl ⟨IsTrans.trans _ _ _ hx hf, fun doc' hdoc' => ?_⟩
      obtain ⟨s1', hfirst', hs1'⟩ := hanswer doc' hdoc'
      obtain ⟨t', hrest', ht'⟩ := hanswer' s1' hs1'
      exact ⟨t', bind_eq_ok.mpr ⟨a, s1', hfirst', hrest'⟩, ht'⟩
    · exact Or.inr ⟨u, hu, hblind, IsTrans.trans _ _ _ hx hbefore, hlt⟩
  · refine Or.inr ⟨u, hu, hblind, hbefore, hlt.trans_le ?_⟩
    rcases hf with ⟨hf, _⟩ | ⟨v, _, _, hbetween, hltv⟩
    · exact hf.accesses
    · exact hbetween.accesses.trans hltv.le

def scanOnce (body : γ → Item → Except Fault (ForInStep γ)) (acc : γ) : DocumentM γ := do
  let r ← onPageManager (scanItems body acc)
  destroyIterator r.2
  return r.1

theorem scanOnce_eq_ok {body : γ → Item → Except Fault (ForInStep γ)} {acc acc' : γ} {t : Document} :
    scanOnce body acc doc = .ok acc' t ↔ ∃ it s it' pm, scanItems body acc doc.pageManager = .ok (acc', it) s ∧
      itemIteratorDestroy it s = .ok it' pm ∧ t = { doc with pageManager := pm } := by
  constructor
  · intro hrun
    obtain ⟨⟨acc1, it⟩, s1, heach, hrest⟩ := bind_eq_ok.mp hrun
    obtain ⟨s, hscan, rfl⟩ := onPageManager_eq_ok.mp heach
    obtain ⟨_, s2, hdestroy, hpure⟩ := bind_eq_ok.mp hrest
    cases hpure
    obtain ⟨it', s3, hrelease, hpure⟩ := bind_eq_ok.mp hdestroy
    cases hpure
    obtain ⟨pm, hreleased, rfl⟩ := onPageManager_eq_ok.mp hrelease
    exact ⟨it, s, it', pm, hscan, hreleased, rfl⟩
  · rintro ⟨it, s, it', pm, hscan, hdestroy, rfl⟩
    refine bind_eq_ok.mpr ⟨_, _, onPageManager_eq_ok.mpr ⟨s, hscan, rfl⟩, ?_⟩
    refine bind_eq_ok.mpr ⟨(), _, bind_eq_ok.mpr ⟨it', _, onPageManager_eq_ok.mpr ⟨pm, hdestroy, rfl⟩, rfl⟩, rfl⟩

theorem queries_scanOnce (body : γ → Item → Except Fault (ForInStep γ)) (acc : γ) :
    Queries pageSize signature m store (scanOnce body acc) := by
  intro doc acc' t hs hrun
  obtain ⟨it, s, it', pm, hscan, hdestroy, rfl⟩ := scanOnce_eq_ok.mp hrun
  have hsaved := keptByReads_saves.scanItems body acc |>.ok hs.saves hscan
  have hdestroyed := (itemIteratorDestroy_ok hdestroy).2.2
  refine ⟨⟨(hs.run.reading (.scan body acc) hscan).reading (.itemIteratorDestroy it) hdestroy,
    (keptByReads_saves.itemIteratorDestroy it).ok hsaved hdestroy, itemIteratorDestroy_faithful hdestroy⟩, ?_⟩
  by_cases havailable : FirstPageAvailable doc.pageManager
  · obtain ⟨hunfailing, stop, hvisits⟩ := hs.saves.scan_available havailable hscan
    refine Or.inl ⟨IsTrans.trans _ _ _ hunfailing (.of_file_eq (by rw [hdestroyed])), fun doc' hdoc' => ?_⟩
    have hscan' := hdoc'.stores.scan body acc
    rw [hvisits] at hscan'
    obtain ⟨it1, s', hscan', hs', halive, _⟩ := hscan'
    obtain ⟨it2, pm', hdestroy', hpm'⟩ := hs'.destroy halive
    exact ⟨_, scanOnce_eq_ok.mpr ⟨it1, s', it2, pm', hscan', hdestroy', rfl⟩, hpm', hdoc'.rootNode, hdoc'.initDone⟩
  · obtain ⟨it1, s', hblind, hfile⟩ := hs.saves.scan_blind hs.faithful havailable body acc
    rw [hscan] at hblind
    cases hblind
    refine Or.inr ⟨doc.pageManager, hs.run, havailable, Std.Refl.refl _, ?_⟩
    rw [hdestroyed, hfile]
    exact Nat.lt_succ_self _

theorem Queries.scan {body : γ → Item → Except Fault (ForInStep γ)} {acc : γ} {g : γ × ItemIterator → DocumentM β}
    {f : γ → DocumentM β} (hg : ∀ acc it, g (acc, it) = destroyIterator it >>= fun _ => f acc)
    (hf : ∀ acc, Queries pageSize signature m store (f acc)) :
    Queries pageSize signature m store (onPageManager (scanItems body acc) >>= g) := by
  have hsplit : (onPageManager (scanItems body acc) >>= g) = scanOnce body acc >>= f := by
    simp only [scanOnce, bind_assoc, pure_bind]
    exact bind_congr fun r => hg r.1 r.2
  rw [hsplit]
  exact (queries_scanOnce body acc).bind hf

end Queries

section Reports

variable {pageSize : Nat} {signature : Int} {m : ItemIndex → Option ItemPayload} {s : PageManager}

end Reports

section Overlooking

def emptyRoot : Node := { zeroNode with parentId := nullNodeId }

def oneRoot : PageManagerM Unit := do
  let _ ← short (pageManagerInit 400 fileSignature)
  let _ ← short (putData (encodeNode emptyRoot))
  pageManagerFreePages

/-- What is stored, what a scan finds of it, and what becomes of another root. -/
def answers (pm : PageManager) : List NodeId × Except Fault (List Item) × Except Fault (Result Unit) :=
  ((liveNodes ⟨none, pm, true⟩).map Node.id,
    (returned (scanItems (each fun items item => .ok (items ++ [item])) [] pm)).map Prod.fst,
    (returned (documentAddRootNode emptyRoot ⟨none, pm, true⟩)).map Prod.fst)

end Overlooking

end DocumentDb.Documents
