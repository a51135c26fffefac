import Mathlib.Data.List.Forall2
import Mathlib.Data.List.Nodup

namespace DocumentDb

inductive Trees (α : Type)
  | nil
  | node (label : α) (below rest : Trees α)

namespace Trees

variable {α β κ : Type}

section Operations

def toList : Trees α → List α
  | nil => []
  | node a below rest => a :: (below.toList ++ rest.toList)

def map (f : α → β) : Trees α → Trees β
  | nil => nil
  | node a below rest => node (f a) (below.map f) (rest.map f)

def roots : Trees α → List α
  | nil => []
  | node a _ rest => a :: rest.roots

def concat (new : α) : Trees α → Trees α
  | nil => node new nil nil
  | node a below rest => node a below (rest.concat new)

def append : Trees α → Trees α → Trees α
  | nil, u => u
  | node a below rest, u => node a below (rest.append u)

def belowFirst : Trees α → Trees α
  | nil => nil
  | node _ below _ => below

def graft : Trees α → Trees α → Trees α
  | nil, _ => nil
  | node a below rest, u => node a (below.append u) rest

/-- The nodes that a path of tests leads to. At every level but the last the first node that
passes is taken, and at the last one all are. -/
def answer : Trees α → List (α → Bool) → List α
  | nil, _ => []
  | node _ _ _, [] => []
  | node a _ rest, [test] => if test a then a :: rest.answer [test] else rest.answer [test]
  | node a below rest, test :: next :: tests =>
    if test a then below.answer (next :: tests) else rest.answer (test :: next :: tests)

/-- A node below the first one that a path leads to. -/
def insert (new : α) : Trees α → List (α → Bool) → Trees α
  | nil, [] => node new nil nil
  | node a below rest, [] => (node a below rest).concat new
  | nil, _ :: _ => nil
  | node a below rest, test :: tests =>
    if test a then node a (below.insert new tests) rest else node a below (rest.insert new (test :: tests))

def remove : Trees α → List (α → Bool) → Trees α
  | nil, _ => nil
  | node a below rest, [] => node a below rest
  | node a below rest, [test] => if test a then rest.remove [test] else node a below (rest.remove [test])
  | node a below rest, test :: next :: tests =>
    if test a then node a (below.remove (next :: tests)) rest
    else node a below (rest.remove (test :: next :: tests))

def insertAt [DecidableEq κ] (key : α → κ) (k : κ) (new : α) : Trees α → Trees α
  | nil => nil
  | node a below rest =>
    node a (if key a = k then (below.insertAt key k new).concat new else below.insertAt key k new)
      (rest.insertAt key k new)

def prune (gone : α → Bool) : Trees α → Trees α
  | nil => nil
  | node a below rest => if gone a then rest.prune gone else node a (below.prune gone) (rest.prune gone)

end Operations

section Paths

variable {t : Trees α} {new m : α} {tests : List (α → Bool)} {gone : α → Bool}

theorem answer_subset (t : Trees α) (tests : List (α → Bool)) : t.answer tests ⊆ t.toList := by
  fun_induction answer t tests with
  | case1 => exact List.nil_subset _
  | case2 => exact List.nil_subset _
  | case3 a below rest test htest ih =>
      intro b hb
      rcases List.mem_cons.mp hb with rfl | hb
      · exact List.mem_cons_self
      · exact List.mem_cons_of_mem _ (List.mem_append_right _ (ih hb))
  | case4 a below rest test htest ih =>
      intro b hb
      exact List.mem_cons_of_mem _ (List.mem_append_right _ (ih hb))
  | case5 a below rest test next tests htest ih =>
      intro b hb
      exact List.mem_cons_of_mem _ (List.mem_append_left _ (ih hb))
  | case6 a below rest test next tests htest ih =>
      intro b hb
      exact List.mem_cons_of_mem _ (List.mem_append_right _ (ih hb))

theorem insertAt_of_notMem [DecidableEq κ] {key : α → κ} {k : κ} (h : ∀ a ∈ t.toList, key a ≠ k) :
    t.insertAt key k new = t := by
  induction t with
  | nil => rfl
  | node a below rest ihBelow ihRest =>
      simp only [toList, List.forall_mem_cons, List.forall_mem_append] at h
      rw [insertAt, if_neg h.1, ihBelow h.2.1, ihRest h.2.2]

/-- No two nodes have the same key. -/
structure Distinct (key : α → κ) (a : α) (below rest : Trees α) : Prop where
  notBelow : ∀ b ∈ below.toList, key b ≠ key a
  notBeside : ∀ c ∈ rest.toList, key c ≠ key a
  apart : ∀ b ∈ below.toList, ∀ c ∈ rest.toList, key b ≠ key c
  nodupBelow : (below.toList.map key).Nodup
  nodupRest : (rest.toList.map key).Nodup

theorem distinct {key : α → κ} {a : α} {below rest : Trees α}
    (h : ((node a below rest).toList.map key).Nodup) : Distinct key a below rest := by
  rw [toList, List.map_cons, List.map_append, List.nodup_cons, List.nodup_append] at h
  obtain ⟨hnot, hbelow, hrest, happart⟩ := h
  refine ⟨fun b hb heq => ?_, fun c hc heq => ?_, fun b hb c hc => ?_, hbelow, hrest⟩
  · exact hnot (heq ▸ List.mem_append_left _ (List.mem_map_of_mem hb))
  · exact hnot (heq ▸ List.mem_append_right _ (List.mem_map_of_mem hc))
  · exact happart _ (List.mem_map_of_mem hb) _ (List.mem_map_of_mem hc)

/-- Keys that differ lead to one place, the first that the path leads to. -/
theorem insertAt_answer [DecidableEq κ] {key : α → κ} (hkeys : (t.toList.map key).Nodup)
    (hm : m ∈ (t.answer tests).head?) : t.insertAt key (key m) new = t.insert new tests := by
  fun_induction answer t tests with
  | case1 => cases hm
  | case2 => cases hm
  | case3 a below rest test htest ih =>
      obtain rfl : a = m := by simpa using hm
      have hd := distinct hkeys
      rw [insertAt, if_pos rfl, insertAt_of_notMem hd.notBelow, insertAt_of_notMem hd.notBeside, insert, if_pos htest]
      cases below <;> rfl
  | case4 a below rest test htest ih =>
      have hd := distinct hkeys
      have hmem := answer_subset _ _ (List.mem_of_mem_head? hm)
      rw [insertAt, if_neg (hd.notBeside m hmem).symm, insertAt_of_notMem fun b hb => hd.apart b hb m hmem,
        ih hd.nodupRest hm, insert, if_neg htest]
  | case5 a below rest test next tests htest ih =>
      have hd := distinct hkeys
      have hmem := answer_subset _ _ (List.mem_of_mem_head? hm)
      rw [insertAt, if_neg (hd.notBelow m hmem).symm, ih hd.nodupBelow hm,
        insertAt_of_notMem fun c hc => (hd.apart m hmem c hc).symm, insert, if_pos htest]
  | case6 a below rest test next tests htest ih =>
      have hd := distinct hkeys
      have hmem := answer_subset _ _ (List.mem_of_mem_head? hm)
      rw [insertAt, if_neg (hd.notBeside m hmem).symm, insertAt_of_notMem fun b hb => hd.apart b hb m hmem,
        ih hd.nodupRest hm, insert, if_neg htest]

theorem insert_of_answer_nil (hne : tests ≠ []) (h : t.answer tests = []) : t.insert new tests = t := by
  fun_induction answer t tests with
  | case1 tests =>
      cases tests with
      | nil => exact absurd rfl hne
      | cons test tests => rfl
  | case2 => exact absurd rfl hne
  | case3 => cases h
  | case4 a below rest test htest ih => rw [insert, if_neg htest, ih hne h]
  | case5 a below rest test next tests htest ih => rw [insert, if_pos htest, ih (List.cons_ne_nil _ _) h]
  | case6 a below rest test next tests htest ih => rw [insert, if_neg htest, ih hne h]

theorem prune_of_none (h : ∀ a ∈ t.toList, gone a = false) : t.prune gone = t := by
  induction t with
  | nil => rfl
  | node a below rest ihBelow ihRest =>
      simp only [toList, List.forall_mem_cons, List.forall_mem_append] at h
      rw [prune, h.1, ihBelow h.2.1, ihRest h.2.2]
      rfl

theorem not_gone {a : α} (h : gone a = true ↔ a ∈ t.answer tests) (hnot : a ∉ t.toList) : gone a = false := by
  rw [Bool.eq_false_iff]
  intro hgone
  exact hnot (answer_subset _ _ (h.mp hgone))

theorem prune_answer (hkeys : (t.toList.map id).Nodup) (h : ∀ a ∈ t.toList, gone a = true ↔ a ∈ t.answer tests) :
    t.prune gone = t.remove tests := by
  fun_induction answer t tests with
  | case1 tests => cases tests <;> rfl
  | case2 a below rest =>
      rw [remove]
      exact prune_of_none fun b hb => Bool.eq_false_iff.mpr fun hgone => absurd ((h b hb).mp hgone) List.not_mem_nil
  | case3 a below rest test htest ih =>
      have hd := distinct hkeys
      simp only [toList, List.forall_mem_cons, List.forall_mem_append] at h
      rw [prune, h.1.mpr List.mem_cons_self, remove, if_pos htest]
      refine ih hd.nodupRest fun c hc => ?_
      rw [h.2.2 c hc, List.mem_cons]
      exact or_iff_right fun heq => hd.notBeside c hc heq
  | case4 a below rest test htest ih =>
      have hd := distinct hkeys
      simp only [toList, List.forall_mem_cons, List.forall_mem_append] at h
      have hself := not_gone h.1 fun hmem => hd.notBeside a hmem rfl
      have hbelow := fun b hb => not_gone (h.2.1 b hb) fun hmem => hd.apart b hb b hmem rfl
      rw [prune, hself, prune_of_none hbelow, remove, if_neg htest, ih hd.nodupRest h.2.2]
      rfl
  | case5 a below rest test next tests htest ih =>
      have hd := distinct hkeys
      simp only [toList, List.forall_mem_cons, List.forall_mem_append] at h
      have hself := not_gone h.1 fun hmem => hd.notBelow a hmem rfl
      have hrest := fun c hc => not_gone (h.2.2 c hc) fun hmem => hd.apart c hmem c hc rfl
      rw [prune, hself, prune_of_none hrest, remove, if_pos htest, ih hd.nodupBelow h.2.1]
      rfl
  | case6 a below rest test next tests htest ih =>
      have hd := distinct hkeys
      simp only [toList, List.forall_mem_cons, List.forall_mem_append] at h
      have hself := not_gone h.1 fun hmem => hd.notBeside a hmem rfl
      have hbelow := fun b hb => not_gone (h.2.1 b hb) fun hmem => hd.apart b hb b hmem rfl
      rw [prune, hself, prune_of_none hbelow, remove, if_neg htest, ih hd.nodupRest h.2.2]
      rfl

theorem toList_append (t u : Trees α) : (t.append u).toList = t.toList ++ u.toList := by
  induction t with
  | nil => rfl
  | node a below rest _ ih => rw [append, toList, ih, toList, List.cons_append, List.append_assoc]

theorem concat_perm (new : α) (t : Trees α) : (t.concat new).toList.Perm (new :: t.toList) := by
  induction t with
  | nil => exact .refl _
  | node a below rest _ ih =>
      rw [concat, toList, toList]
      refine (List.Perm.cons a (ih.append_left below.toList)).trans ?_
      exact (List.Perm.cons a List.perm_middle).trans (.swap _ _ _)

theorem insertAt_perm [DecidableEq κ] {key : α → κ} (hkeys : (t.toList.map key).Nodup) (hm : m ∈ t.toList) :
    (t.insertAt key (key m) new).toList.Perm (new :: t.toList) := by
  induction t with
  | nil => cases hm
  | node a below rest ihBelow ihRest =>
      have hd := distinct hkeys
      rw [toList, List.mem_cons, List.mem_append] at hm
      rcases hm with rfl | hm | hm
      · rw [insertAt, if_pos rfl, insertAt_of_notMem hd.notBelow, insertAt_of_notMem hd.notBeside, toList, toList]
        refine (List.Perm.cons m ((concat_perm new below).append_right rest.toList)).trans ?_
        exact .swap _ _ _
      · rw [insertAt, if_neg (hd.notBelow m hm).symm, insertAt_of_notMem fun c hc => (hd.apart m hm c hc).symm, toList,
          toList]
        refine (List.Perm.cons a ((ihBelow hd.nodupBelow hm).append_right rest.toList)).trans ?_
        exact .swap _ _ _
      · rw [insertAt, if_neg (hd.notBeside m hm).symm, insertAt_of_notMem fun b hb => hd.apart b hb m hm, toList,
          toList]
        refine (List.Perm.cons a ((ihRest hd.nodupRest hm).append_left below.toList)).trans ?_
        exact (List.Perm.cons a List.perm_middle).trans (.swap _ _ _)

theorem insert_perm (h : tests ≠ [] → t.answer tests ≠ []) : (t.insert new tests).toList.Perm (new :: t.toList) := by
  fun_induction insert new t tests with
  | case1 => exact .refl _
  | case2 a below rest => exact concat_perm new _
  | case3 test tests => exact absurd rfl (h (List.cons_ne_nil _ _))
  | case4 a below rest test tests htest ih =>
      have hbelow : tests ≠ [] → below.answer tests ≠ [] := by
        intro hne
        cases tests with
        | nil => exact absurd rfl hne
        | cons next tests =>
            have ha := h (List.cons_ne_nil _ _)
            rwa [answer, if_pos htest] at ha
      refine (List.Perm.cons a ((ih hbelow).append_right rest.toList)).trans ?_
      exact .swap _ _ _
  | case5 a below rest test tests htest ih =>
      have hrest : test :: tests ≠ [] → rest.answer (test :: tests) ≠ [] := by
        intro hne
        have ha := h hne
        cases tests with
        | nil => rwa [answer, if_neg htest] at ha
        | cons next tests => rwa [answer, if_neg htest] at ha
      refine (List.Perm.cons a ((ih hrest).append_left below.toList)).trans ?_
      exact (List.Perm.cons a List.perm_middle).trans (.swap _ _ _)

theorem mem_of_insert {a : α} (h : a ∈ (t.insert new tests).toList) : a = new ∨ a ∈ t.toList := by
  by_cases hnone : tests ≠ [] ∧ t.answer tests = []
  · rw [insert_of_answer_nil hnone.1 hnone.2] at h
    exact Or.inr h
  · rw [not_and] at hnone
    exact List.mem_cons.mp ((insert_perm hnone).mem_iff.mp h)

end Paths

section Pictures

variable [DecidableEq κ] {key parent : α → κ} {nodes ns : List α} {t : Trees α} {new : α}

def children (parent : α → κ) (nodes : List α) (k : κ) : List α := nodes.filter fun n => parent n = k

/-- Nodes that name their parents, as trees: those of a list, with the nodes below them. -/
inductive Pictures (key parent : α → κ) (nodes : List α) : List α → Trees α → Prop
  | nil : Pictures key parent nodes [] nil
  | node {a ns below rest} : Pictures key parent nodes (children parent nodes (key a)) below →
      Pictures key parent nodes ns rest → Pictures key parent nodes (a :: ns) (node a below rest)

theorem Pictures.answer_last (h : Pictures key parent nodes ns t) (test : α → Bool) :
    t.answer [test] = ns.filter test := by
  induction h with
  | nil => rfl
  | @node a ns below rest _ _ _ ih =>
      rw [answer, ih, List.filter_cons]

theorem Pictures.answer_step (h : Pictures key parent nodes ns t) (test next : α → Bool) (tests : List (α → Bool)) :
    (ns.find? test = none ∧ t.answer (test :: next :: tests) = []) ∨
    ∃ a below, ns.find? test = some a ∧ Pictures key parent nodes (children parent nodes (key a)) below ∧
      t.answer (test :: next :: tests) = below.answer (next :: tests) := by
  induction h with
  | nil => exact Or.inl ⟨rfl, rfl⟩
  | @node a ns below rest hbelow _ _ ih =>
      rw [answer, List.find?_cons]
      cases htest : test a with
      | true => exact Or.inr ⟨a, below, rfl, hbelow, rfl⟩
      | false => exact ih

theorem Pictures.append {ms : List α} {u : Trees α} (h : Pictures key parent nodes ns t)
    (h' : Pictures key parent nodes ms u) : Pictures key parent nodes (ns ++ ms) (t.append u) := by
  induction h with
  | nil => exact h'
  | node hbelow _ _ ih => exact .node hbelow ih

/-- Only the children of the nodes that are seen matter. -/
theorem Pictures.among {nodes' : List α} (h : Pictures key parent nodes ns t)
    (hsame : ∀ a ∈ t.toList, children parent nodes' (key a) = children parent nodes (key a)) :
    Pictures key parent nodes' ns t := by
  induction h with
  | nil => exact .nil
  | @node a ns below rest _ _ ihb ihr =>
      rw [Trees.toList, List.forall_mem_cons, List.forall_mem_append] at hsame
      obtain ⟨hself, hbelow, hrest⟩ := hsame
      refine .node ?_ (ihr hrest)
      rw [hself]
      exact ihb hbelow

theorem Pictures.concat (h : Pictures key parent nodes ns t) (hnew : children parent nodes (key new) = []) :
    Pictures key parent nodes (ns ++ [new]) (t.concat new) := by
  induction h with
  | nil =>
      refine .node ?_ .nil
      rw [hnew]
      exact .nil
  | node hbelow _ _ ih => exact .node hbelow ih

theorem Pictures.insertAt (h : Pictures key parent nodes ns t)
    (hnew : children parent (nodes ++ [new]) (key new) = []) :
    Pictures key parent (nodes ++ [new]) ns (t.insertAt key (parent new) new) := by
  induction h with
  | nil => exact .nil
  | @node a ns below rest _ _ ihBelow ihRest =>
      rw [Trees.insertAt]
      refine .node ?_ ihRest
      by_cases ha : key a = parent new
      · have hchildren : children parent (nodes ++ [new]) (key a) = children parent nodes (key a) ++ [new] := by
          simp [children, ha]
        rw [hchildren, if_pos ha]
        exact ihBelow.concat hnew
      · have hchildren : children parent (nodes ++ [new]) (key a) = children parent nodes (key a) := by
          simp [children, Ne.symm ha]
        rw [hchildren, if_neg ha]
        exact ihBelow

theorem Pictures.prune (h : Pictures key parent nodes ns t) (gone : κ → Bool) :
    Pictures key parent (nodes.filter fun n => !gone (key n)) (ns.filter fun n => !gone (key n))
      (t.prune fun a => gone (key a)) := by
  induction h with
  | nil => exact .nil
  | @node a ns below rest _ _ ihBelow ihRest =>
      rw [Trees.prune, List.filter_cons]
      cases hgone : gone (key a) with
      | true => exact ihRest
      | false =>
          refine .node ?_ ihRest
          have hcomm : children parent (nodes.filter fun n => !gone (key n)) (key a) =
              (children parent nodes (key a)).filter fun n => !gone (key n) := by
            rw [children, children, List.filter_filter, List.filter_filter]
            exact List.filter_congr fun n _ => Bool.and_comm ..
          rw [hcomm]
          exact ihBelow

/-- Whether a whole set of nodes goes or only the topmost of them makes no difference. -/
theorem Pictures.prune_topmost (h : Pictures key parent nodes ns t) {gone topmost : α → Bool}
    (hgone : ∀ n ∈ nodes, ∀ p, gone p = false → key p = parent n → gone n = topmost n)
    (hns : ∀ n ∈ ns, gone n = topmost n) : t.prune gone = t.prune topmost := by
  induction h with
  | nil => rfl
  | @node a ns below rest _ _ ihBelow ihRest =>
      obtain ⟨ha, hrest⟩ := List.forall_mem_cons.mp hns
      rw [Trees.prune, Trees.prune, ← ha, ihRest hrest]
      cases hself : gone a with
      | true => rfl
      | false =>
          have hchildren : ∀ n ∈ children parent nodes (key a), gone n = topmost n := fun n hn => by
            obtain ⟨hmem, hparent⟩ := List.mem_filter.mp hn
            exact hgone n hmem a hself (of_decide_eq_true hparent).symm
          rw [ihBelow hchildren]

theorem Pictures.all_gone (h : Pictures key parent nodes ns t) {gone : κ → Bool}
    (hdown : ∀ n ∈ nodes, gone (parent n) = true → gone (key n) = true) (hns : ∀ n ∈ ns, gone (key n) = true) :
    ∀ a ∈ t.toList, gone (key a) = true := by
  induction h with
  | nil => exact List.forall_mem_nil _
  | @node a ns below rest _ _ ihBelow ihRest =>
      obtain ⟨ha, hrest⟩ := List.forall_mem_cons.mp hns
      rw [toList, List.forall_mem_cons, List.forall_mem_append]
      refine ⟨ha, ihBelow fun n hn => ?_, ihRest hrest⟩
      obtain ⟨hmem, hparent⟩ := List.mem_filter.mp hn
      refine hdown n hmem ?_
      rw [of_decide_eq_true hparent]
      exact ha

theorem Pictures.toList_prune (h : Pictures key parent nodes ns t) {gone : κ → Bool}
    (hdown : ∀ n ∈ nodes, gone (parent n) = true → gone (key n) = true) :
    (t.prune fun a => gone (key a)).toList = t.toList.filter fun a => !gone (key a) := by
  induction h with
  | nil => rfl
  | @node a ns below rest hbelow _ ihBelow ihRest =>
      rw [Trees.prune, toList, List.filter_cons, List.filter_append]
      cases ha : gone (key a) with
      | true =>
          have hnone : (below.toList.filter fun b => !gone (key b)) = [] := by
            refine List.filter_eq_nil_iff.mpr fun b hb => ?_
            rw [hbelow.all_gone hdown ?_ b hb]
            · decide
            · intro n hn
              obtain ⟨hmem, hparent⟩ := List.mem_filter.mp hn
              refine hdown n hmem ?_
              rw [of_decide_eq_true hparent]
              exact ha
          rw [hnone]
          exact ihRest
      | false =>
          rw [← ihBelow, ← ihRest]
          rfl

end Pictures

section Relations

inductive Rel (R : α → β → Prop) : Trees α → Trees β → Prop
  | nil : Rel R nil nil
  | node {a b below below' rest rest'} : R a b → Rel R below below' → Rel R rest rest' →
      Rel R (node a below rest) (node b below' rest')

variable {R : α → β → Prop} {t : Trees α} {u : Trees β} {a : α} {b : β} {ps : List (α → Bool)} {qs : List (β → Bool)}

def Agree (R : α → β → Prop) (p : α → Bool) (q : β → Bool) : Prop := ∀ a b, R a b → p a = q b

theorem Rel.exists_of_mem (h : Rel R t u) (ha : a ∈ t.toList) : ∃ b ∈ u.toList, R a b := by
  induction h with
  | nil => cases ha
  | node hab _ _ ihBelow ihRest =>
      rw [toList, List.mem_cons, List.mem_append] at ha
      rcases ha with rfl | ha | ha
      · exact ⟨_, List.mem_cons_self, hab⟩
      · obtain ⟨b, hb, hR⟩ := ihBelow ha
        exact ⟨b, List.mem_cons_of_mem _ (List.mem_append_left _ hb), hR⟩
      · obtain ⟨b, hb, hR⟩ := ihRest ha
        exact ⟨b, List.mem_cons_of_mem _ (List.mem_append_right _ hb), hR⟩

theorem Rel.toList (h : Rel R t u) : List.Forall₂ R t.toList u.toList := by
  induction h with
  | nil => exact .nil
  | node hab _ _ ihBelow ihRest => exact .cons hab (List.rel_append ihBelow ihRest)

theorem Rel.flip (h : Rel R t u) : Rel (fun b a => R a b) u t := by
  induction h with
  | nil => exact .nil
  | node hab _ _ ihBelow ihRest => exact .node hab ihBelow ihRest

theorem Rel.map {γ : Type} {Q : α → γ → Prop} {f : β → γ} (hQ : ∀ a b, R a b → Q a (f b)) (h : Rel R t u) :
    Rel Q t (u.map f) := by
  induction h with
  | nil => exact .nil
  | node hab _ _ ihBelow ihRest => exact .node (hQ _ _ hab) ihBelow ihRest

theorem Rel.trans {γ : Type} {P : β → γ → Prop} {Q : α → γ → Prop} {v : Trees γ}
    (hQ : ∀ a b c, R a b → P b c → Q a c) (h : Rel R t u) (hP : Rel P u v) : Rel Q t v := by
  induction h generalizing v with
  | nil =>
      cases hP
      exact .nil
  | node hab _ _ ihBelow ihRest =>
      cases hP with
      | node hbc hbelow hrest => exact .node (hQ _ _ _ hab hbc) (ihBelow hbelow) (ihRest hrest)

theorem Rel.answer (h : Rel R t u) (hps : List.Forall₂ (Agree R) ps qs) :
    List.Forall₂ R (t.answer ps) (u.answer qs) := by
  induction h generalizing ps qs with
  | nil => cases ps <;> cases qs <;> exact .nil
  | @node a b below below' rest rest' hab _ _ ihBelow ihRest =>
      cases hps with
      | nil => exact .nil
      | @cons p q ps qs hpq hrest =>
          cases hrest with
          | nil =>
              rw [Trees.answer, Trees.answer, hpq a b hab]
              cases q b with
              | true => exact .cons hab (ihRest (.cons hpq .nil))
              | false => exact ihRest (.cons hpq .nil)
          | cons hpq' hrest =>
              rw [Trees.answer, Trees.answer, hpq a b hab]
              cases q b with
              | true => exact ihBelow (.cons hpq' hrest)
              | false => exact ihRest (.cons hpq (.cons hpq' hrest))

theorem Rel.append {t' : Trees α} {u' : Trees β} (h : Rel R t u) (h' : Rel R t' u') :
    Rel R (t.append t') (u.append u') := by
  induction h with
  | nil => exact h'
  | node hab hbelow _ _ ih => exact .node hab hbelow ih

/-- The second trees have one more node, the last one below some node of the first trees. -/
inductive Beneath (new : β) : Trees β → Trees β → Prop
  | here {b below rest} : Beneath new (node b below rest) (node b (below.concat new) rest)
  | under {b below below' rest} : Beneath new below below' → Beneath new (node b below rest) (node b below' rest)
  | beside {b below rest rest'} : Beneath new rest rest' → Beneath new (node b below rest) (node b below rest')

theorem Rel.concat (h : Rel R t u) (hab : R a b) : Rel R (t.concat a) (u.concat b) := by
  induction h with
  | nil => exact .node hab .nil .nil
  | node hR hbelow _ _ ih => exact .node hR hbelow ih

theorem Rel.insertAt [DecidableEq κ] {key : α → κ} {m : α} (h : Rel R t u) (hkeys : (t.toList.map key).Nodup)
    (hm : m ∈ t.toList) (hab : R a b) : ∃ u', Beneath b u u' ∧ Rel R (t.insertAt key (key m) a) u' := by
  induction h with
  | nil => cases hm
  | @node c d below below' rest rest' hcd hbelow hrest ihBelow ihRest =>
      have hd := distinct hkeys
      rw [Trees.toList, List.mem_cons, List.mem_append] at hm
      rcases hm with rfl | hm | hm
      · rw [Trees.insertAt, if_pos rfl, insertAt_of_notMem hd.notBelow, insertAt_of_notMem hd.notBeside]
        exact ⟨_, .here, .node hcd (hbelow.concat hab) hrest⟩
      · obtain ⟨u', hbeneath, hrel⟩ := ihBelow hd.nodupBelow hm
        rw [Trees.insertAt, if_neg (hd.notBelow m hm).symm, insertAt_of_notMem fun c hc => (hd.apart m hm c hc).symm]
        exact ⟨_, .under hbeneath, .node hcd hrel hrest⟩
      · obtain ⟨u', hbeneath, hrel⟩ := ihRest hd.nodupRest hm
        rw [Trees.insertAt, if_neg (hd.notBeside m hm).symm, insertAt_of_notMem fun b hb => hd.apart b hb m hm]
        exact ⟨_, .beside hbeneath, .node hcd hbelow hrel⟩

theorem Rel.insert (h : Rel R t u) (hps : List.Forall₂ (Agree R) ps qs) (hab : R a b) :
    Rel R (t.insert a ps) (u.insert b qs) := by
  induction h generalizing ps qs with
  | nil =>
      cases hps with
      | nil => exact .node hab .nil .nil
      | cons _ _ => exact .nil
  | @node c d below below' rest rest' hcd hbelow hrest ihBelow ihRest =>
      cases hps with
      | nil => exact (Rel.node hcd hbelow hrest).concat hab
      | @cons p q ps qs hpq htests =>
          rw [Trees.insert, Trees.insert, hpq c d hcd]
          cases q d with
          | true => exact .node hcd (ihBelow htests) hrest
          | false => exact .node hcd hbelow (ihRest (.cons hpq htests))

theorem Rel.remove (h : Rel R t u) (hps : List.Forall₂ (Agree R) ps qs) : Rel R (t.remove ps) (u.remove qs) := by
  induction h generalizing ps qs with
  | nil => cases ps <;> cases qs <;> exact .nil
  | @node a b below below' rest rest' hab hbelow hrest ihBelow ihRest =>
      cases hps with
      | nil => exact .node hab hbelow hrest
      | @cons p q ps qs hpq htests =>
          cases htests with
          | nil =>
              rw [Trees.remove, Trees.remove, hpq a b hab]
              cases q b with
              | true => exact ihRest (.cons hpq .nil)
              | false => exact .node hab hbelow (ihRest (.cons hpq .nil))
          | cons hpq' htests =>
              rw [Trees.remove, Trees.remove, hpq a b hab]
              cases q b with
              | true => exact .node hab (ihBelow (.cons hpq' htests)) hrest
              | false => exact .node hab hbelow (ihRest (.cons hpq (.cons hpq' htests)))

end Relations

section Transport

variable {κ' : Type} [DecidableEq κ] [DecidableEq κ'] {S : α → β → Prop} {key parent : α → κ} {key' parent' : β → κ'}
  {nodes ns : List α} {nodes' ns' : List β} {t : Trees α}

/-- Nodes that correspond to each other, with their parents, make the same trees. -/
theorem Pictures.transport (hnodes : List.Forall₂ S nodes nodes')
    (hparent : ∀ a b c d, S a b → S c d → (parent c = key a ↔ parent' d = key' b))
    (h : Pictures key parent nodes ns t) (hns : List.Forall₂ S ns ns') :
    ∃ u, Pictures key' parent' nodes' ns' u ∧ Rel S t u := by
  induction h generalizing ns' with
  | nil =>
      cases hns
      exact ⟨Trees.nil, .nil, .nil⟩
  | @node a ns below rest _ _ ihBelow ihRest =>
      cases hns with
      | @cons _ b _ ns' hab hns =>
          have hchildren : List.Forall₂ S (children parent nodes (key a)) (children parent' nodes' (key' b)) := by
            refine List.rel_filter (fun c d hcd => ?_) hnodes
            simpa using hparent a b c d hab hcd
          obtain ⟨below', hpictures, hbelow⟩ := ihBelow hchildren
          obtain ⟨rest', hpictures', hrest⟩ := ihRest hns
          exact ⟨Trees.node b below' rest', .node hpictures hpictures', .node hab hbelow hrest⟩

end Transport

section Numbering

structure Row (α : Type) where
  id : Int
  parentId : Int
  label : α

/-- Every node has the number behind those of the nodes in front of it. -/
def number (parentId : Int) (start : Nat) : Trees α → Trees (Row α)
  | nil => nil
  | node a below rest =>
    node ⟨start, parentId, a⟩ (below.number start (start + 1)) (rest.number parentId (start + 1 + below.toList.length))

variable {t : Trees α} {parentId : Int} {start : Nat} {row : Row α}

theorem length_number (parentId : Int) (start : Nat) (t : Trees α) :
    (t.number parentId start).toList.length = t.toList.length := by
  induction t generalizing parentId start with
  | nil => rfl
  | node a below rest ihBelow ihRest =>
      rw [number, toList, toList, List.length_cons, List.length_cons, List.length_append, List.length_append, ihBelow,
        ihRest]

def Row.map {β : Type} (f : α → β) (row : Row α) : Row β := ⟨row.id, row.parentId, f row.label⟩

theorem toList_number_map {β : Type} (f : α → β) (parentId : Int) (start : Nat) (t : Trees α) :
    ((t.map f).number parentId start).toList = (t.number parentId start).toList.map (Row.map f) := by
  induction t generalizing parentId start with
  | nil => rfl
  | node a below rest ihBelow ihRest =>
      have hlength : (below.map f).toList.length = below.toList.length := by
        rw [← length_number parentId start, ihBelow, List.length_map, length_number]
      rw [map, number, toList, ihBelow, ihRest, hlength, number, toList, List.map_cons, List.map_append]
      rfl

theorem rel_number (parentId : Int) (start : Nat) (t : Trees α) :
    Rel (fun row a => row.label = a) (t.number parentId start) t := by
  induction t generalizing parentId start with
  | nil => exact .nil
  | node a below rest ihBelow ihRest => exact .node rfl (ihBelow _ _) (ihRest _ _)

theorem mem_number (hrow : row ∈ (t.number parentId start).toList) :
    (start : Int) ≤ row.id ∧ row.id < start + t.toList.length ∧
      (row.parentId = parentId ∨ (start : Int) ≤ row.parentId ∧ row.parentId < row.id) := by
  induction t generalizing parentId start with
  | nil => cases hrow
  | node a below rest ihBelow ihRest =>
      rw [number, toList, List.mem_cons, List.mem_append] at hrow
      rw [toList, List.length_cons, List.length_append]
      rcases hrow with rfl | hrow | hrow
      · exact ⟨Int.le_refl _, by push_cast; omega, Or.inl rfl⟩
      · obtain ⟨hle, hlt, hparent⟩ := ihBelow hrow
        push_cast at *
        omega
      · obtain ⟨hle, hlt, hparent⟩ := ihRest hrow
        push_cast at *
        omega

theorem id_number {i : Nat} (hrow : (t.number parentId start).toList[i]? = some row) : row.id = (start + i : Nat) := by
  induction t generalizing parentId start i with
  | nil => cases hrow
  | node a below rest ihBelow ihRest =>
      rw [number, toList] at hrow
      cases i with
      | zero =>
          cases hrow
          rfl
      | succ i =>
          rw [List.getElem?_cons_succ] at hrow
          rcases Nat.lt_or_ge i (below.number start (start + 1)).toList.length with hlt | hge
          · rw [List.getElem?_append_left hlt] at hrow
            rw [ihBelow hrow]
            omega
          · rw [List.getElem?_append_right hge] at hrow
            rw [length_number] at hrow hge
            rw [ihRest hrow]
            omega

theorem children_number (hlt : parentId < start) :
    children Row.parentId (t.number parentId start).toList parentId = (t.number parentId start).roots := by
  induction t generalizing parentId start with
  | nil => rfl
  | node a below rest _ ihRest =>
      have hbelow : children Row.parentId (below.number start (start + 1)).toList parentId = [] := by
        refine List.filter_eq_nil_iff.mpr fun row hrow => ?_
        obtain ⟨_, _, hparent⟩ := mem_number hrow
        simp only [decide_eq_true_eq]
        push_cast at *
        omega
      have hrest := @ihRest parentId (start + 1 + below.toList.length) (by push_cast; omega)
      rw [children] at hbelow hrest ⊢
      rw [number, toList, roots, List.filter_cons_of_pos (by simp), List.filter_append, hbelow, hrest, List.nil_append]

theorem pictures_among (hlt : parentId < start) {front back : List (Row α)}
    (hothers : ∀ row ∈ front ++ back, row.parentId < start ∨ (start + t.toList.length : Nat) ≤ row.parentId) :
    Pictures Row.id Row.parentId (front ++ (t.number parentId start).toList ++ back)
      (t.number parentId start).roots (t.number parentId start) := by
  induction t generalizing parentId start front back with
  | nil => exact .nil
  | node a below rest ihBelow ihRest =>
      rw [toList, List.length_cons, List.length_append, List.forall_mem_append] at hothers
      have hrest : ∀ row ∈ (rest.number parentId (start + 1 + below.toList.length)).toList,
          row.parentId < start ∨ (start + 1 + below.toList.length : Nat) ≤ row.parentId := fun row hrow => by
        obtain ⟨_, _, hparent⟩ := mem_number hrow
        omega
      have hall : (node a below rest).number parentId start = node ⟨start, parentId, a⟩ (below.number start (start + 1))
        (rest.number parentId (start + 1 + below.toList.length)) := rfl
      rw [hall, roots, toList]
      refine .node ?_ ?_
      · -- The rows below the first node have its number, and no others have.
        have hchildren : children Row.parentId (front ++ ⟨start, parentId, a⟩ :: ((below.number start (start + 1)).toList ++
            (rest.number parentId (start + 1 + below.toList.length)).toList) ++ back) start =
            (below.number start (start + 1)).roots := by
          rw [← children_number (show ((start : Nat) : Int) < (start + 1 : Nat) by omega)]
          have hnone : ∀ rows : List (Row α), (∀ row ∈ rows, row.parentId ≠ (start : Int)) →
              rows.filter (fun row => decide (row.parentId = (start : Int))) = [] := fun rows hrows =>
            List.filter_eq_nil_iff.mpr fun row hrow => by simpa using hrows row hrow
          rw [children, List.filter_append, List.filter_append,
            List.filter_cons_of_neg (by simpa using Int.ne_of_lt hlt),
            List.filter_append, hnone front fun row hrow => by have := hothers.1 row hrow; omega,
            hnone back fun row hrow => by have := hothers.2 row hrow; omega,
            hnone (rest.number parentId (start + 1 + below.toList.length)).toList fun row hrow => by
              have := hrest row hrow
              omega,
            List.append_nil, List.append_nil, List.nil_append, children]
        rw [hchildren]
        have hpictures := @ihBelow start (start + 1) (by omega) (front ++ [⟨start, parentId, a⟩])
          ((rest.number parentId (start + 1 + below.toList.length)).toList ++ back) (by
            simp only [List.forall_mem_append, List.forall_mem_singleton]
            refine ⟨⟨fun row hrow => ?_, by omega⟩, fun row hrow => ?_, fun row hrow => ?_⟩
            · have := hothers.1 row hrow
              omega
            · have := hrest row hrow
              omega
            · have := hothers.2 row hrow
              omega)
        simpa only [List.append_assoc, List.cons_append, List.nil_append] using hpictures
      · have hpictures := @ihRest parentId (start + 1 + below.toList.length) (by omega)
          (front ++ ⟨start, parentId, a⟩ :: (below.number start (start + 1)).toList) back (by
            simp only [List.forall_mem_append, List.forall_mem_cons]
            refine ⟨⟨fun row hrow => ?_, by omega, fun row hrow => ?_⟩, fun row hrow => ?_⟩
            · have := hothers.1 row hrow
              omega
            · obtain ⟨_, hid, hparent⟩ := mem_number hrow
              omega
            · have := hothers.2 row hrow
              omega)
        simpa only [List.append_assoc, List.cons_append, List.nil_append] using hpictures

theorem pictures_number (t : Trees α) :
    Pictures Row.id Row.parentId (t.number (-1) 0).toList
      (children Row.parentId (t.number (-1) 0).toList (-1)) (t.number (-1) 0) := by
  have hpictures := @pictures_among _ t (-1) 0 (by decide) [] [] (by simp)
  rw [List.nil_append, List.append_nil] at hpictures
  rw [children_number (by decide)]
  exact hpictures

end Numbering

end Trees

end DocumentDb
