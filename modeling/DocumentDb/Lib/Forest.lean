import Mathlib.Data.List.Basic
import Mathlib.Logic.Relation

namespace DocumentDb.Forest

variable {α κ : Type} {key parent : α → κ} {null : κ} {lt : κ → κ → Prop} {nodes : List α} {root : κ}

section Descendants

/-- The keys at and below `root`, in records that name their parents. -/
inductive Under (key parent : α → κ) (nodes : List α) (root : κ) : κ → Prop
  | root : Under key parent nodes root root
  | child {n : α} : n ∈ nodes → Under key parent nodes root (parent n) →
      Under key parent nodes root (key n)

theorem Under.trans {mid k : κ} (h : Under key parent nodes root mid)
    (h' : Under key parent nodes mid k) : Under key parent nodes root k := by
  induction h' with
  | root => exact h
  | child hn _ ih => exact Under.child hn ih

theorem Under.mono {nodes' : List α} {k : κ} (hsub : nodes ⊆ nodes')
    (h : Under key parent nodes root k) : Under key parent nodes' root k := by
  induction h with
  | root => exact Under.root
  | child hn _ ih => exact Under.child (hsub hn) ih

theorem Under.cases_child {k : κ} (h : Under key parent nodes root k) :
    k = root ∨ ∃ c ∈ nodes, parent c = root ∧ Under key parent nodes (key c) k := by
  induction h with
  | root => exact Or.inl rfl
  | @child n hn _ ih =>
      right
      rcases ih with hroot | ⟨c, hc, hparent, hunder⟩
      · exact ⟨n, hn, hroot, Under.root⟩
      · exact ⟨c, hc, hparent, Under.child hn hunder⟩

theorem Under.of_child {c : α} {k : κ} (hc : c ∈ nodes) (hparent : parent c = root)
    (h : Under key parent nodes (key c) k) : Under key parent nodes root k :=
  (Under.child hc (hparent ▸ Under.root)).trans h

/-- What is left when a set of keys goes that contains all keys below its own. -/
theorem under_remaining {nodes' : List α} {gone : κ → Prop}
    (hnodes : ∀ n, n ∈ nodes' ↔ n ∈ nodes ∧ ¬gone (key n))
    (hdown : ∀ n ∈ nodes, gone (parent n) → gone (key n)) {k : κ} (hk : ¬gone k) :
    Under key parent nodes' root k ↔ Under key parent nodes root k := by
  constructor
  · exact Under.mono fun n hn => ((hnodes n).mp hn).1
  · intro h
    induction h with
    | root => exact Under.root
    | @child n hn _ ih =>
        exact Under.child ((hnodes n).mpr ⟨hn, hk⟩) (ih fun hparent => hk (hdown n hn hparent))

end Descendants

section Grounded

/-- Every parent is `null` or the key of a record before its child. -/
def Grounded (key parent : α → κ) (null : κ) (lt : κ → κ → Prop) (nodes : List α) : Prop :=
  ∀ n ∈ nodes, parent n = null ∨ ∃ m ∈ nodes, key m = parent n ∧ lt (key m) (key n)

theorem grounded_nil : Grounded key parent null lt [] := by
  intro n hn
  cases hn

theorem Grounded.append {new : α} (h : Grounded key parent null lt nodes)
    (hparent : parent new = null ∨ ∃ m ∈ nodes, key m = parent new)
    (hnew : ∀ m ∈ nodes, lt (key m) (key new)) : Grounded key parent null lt (nodes ++ [new]) := by
  intro n hn
  rcases List.mem_append.mp hn with hn | hn
  · rcases h n hn with hnull | ⟨m, hm, hrest⟩
    · exact Or.inl hnull
    · exact Or.inr ⟨m, List.mem_append_left _ hm, hrest⟩
  · obtain rfl := List.mem_singleton.mp hn
    rcases hparent with hnull | ⟨m, hm, hkey⟩
    · exact Or.inl hnull
    · exact Or.inr ⟨m, List.mem_append_left _ hm, hkey, hnew m hm⟩

theorem Grounded.remaining {nodes' : List α} (h : Grounded key parent null lt nodes) (gone : κ → Prop)
    (hnodes : ∀ n, n ∈ nodes' ↔ n ∈ nodes ∧ ¬gone (key n))
    (hdown : ∀ n ∈ nodes, gone (parent n) → gone (key n)) : Grounded key parent null lt nodes' := by
  intro n hn
  obtain ⟨hn, hkept⟩ := (hnodes n).mp hn
  rcases h n hn with hnull | ⟨m, hm, hkey, hlt⟩
  · exact Or.inl hnull
  · exact Or.inr ⟨m, (hnodes m).mpr ⟨hm, fun hgone => hkept (hdown n hn (hkey ▸ hgone))⟩, hkey, hlt⟩

def ChildOf (key parent : α → κ) (nodes : List α) (a b : κ) : Prop :=
  ∃ n ∈ nodes, key n = a ∧ parent n = b ∧ ∃ m ∈ nodes, key m = b

/-- Going up from a record never leads back to it. -/
theorem Grounded.acyclic (h : Grounded key parent null lt nodes) (htrans : ∀ a b c, lt a b → lt b c → lt a c)
    (hirrefl : ∀ a, ¬lt a a) (hnull : ∀ m ∈ nodes, key m ≠ null) (a : κ) :
    ¬Relation.TransGen (ChildOf key parent nodes) a a := by
  have hstep : ∀ a b, ChildOf key parent nodes a b → lt b a := by
    rintro a b ⟨n, hn, rfl, rfl, m, hm, hkey⟩
    rcases h n hn with hpar | ⟨m', _, hkey', hlt⟩
    · exact absurd (hkey.trans hpar) (hnull m hm)
    · rwa [hkey'] at hlt
  have hup : ∀ a b, Relation.TransGen (ChildOf key parent nodes) a b → lt b a := by
    intro a b hab
    induction hab with
    | single hab => exact hstep _ _ hab
    | tail _ hbc ih => exact htrans _ _ _ (hstep _ _ hbc) ih
  exact fun hcycle => hirrefl a (hup a a hcycle)

end Grounded

section Pruning

variable {tops tops' : κ → Prop} {nodes' nodes'' : List α}

/-- Records have gone, with each of them all below it, and only ones at or below the tops. -/
def Pruned (key parent : α → κ) (tops : κ → Prop) (nodes nodes' : List α) : Prop :=
  ∃ gone : κ → Prop, (∀ n, n ∈ nodes' ↔ n ∈ nodes ∧ ¬gone (key n)) ∧
    (∀ n ∈ nodes, gone (parent n) → gone (key n)) ∧
    ∀ n ∈ nodes, gone (key n) → ∃ top, tops top ∧ Under key parent nodes top (key n)

theorem pruned_refl (tops : κ → Prop) (nodes : List α) : Pruned key parent tops nodes nodes :=
  ⟨fun _ => False, fun n => by simp, fun _ _ => False.elim, fun _ _ => False.elim⟩

theorem Pruned.lift (h : Pruned key parent tops nodes nodes')
    (hle : ∀ k, tops k → ∃ top, tops' top ∧ Under key parent nodes top k) : Pruned key parent tops' nodes nodes' := by
  obtain ⟨gone, hnodes, hdown, htops⟩ := h
  refine ⟨gone, hnodes, hdown, fun n hn hgone => ?_⟩
  obtain ⟨k, hk, hunder⟩ := htops n hn hgone
  obtain ⟨top, htop, habove⟩ := hle k hk
  exact ⟨top, htop, habove.trans hunder⟩

theorem Pruned.mono (h : Pruned key parent tops nodes nodes') (hle : ∀ k, tops k → tops' k) :
    Pruned key parent tops' nodes nodes' :=
  h.lift fun k hk => ⟨k, hle k hk, .root⟩

theorem Pruned.trans (h : Pruned key parent tops nodes nodes') (h' : Pruned key parent tops nodes' nodes'') :
    Pruned key parent tops nodes nodes'' := by
  obtain ⟨gone, hnodes, hdown, htops⟩ := h
  obtain ⟨gone', hnodes', hdown', htops'⟩ := h'
  refine ⟨fun k => gone k ∨ gone' k, fun n => ?_, fun n hn hparent => ?_, fun n hn hgone => ?_⟩
  · rw [hnodes', hnodes, not_or, and_assoc]
  · by_cases hfirst : gone (key n)
    · exact Or.inl hfirst
    · rcases hparent with hparent | hparent
      · exact absurd (hdown n hn hparent) hfirst
      · exact Or.inr (hdown' n ((hnodes n).mpr ⟨hn, hfirst⟩) hparent)
  · by_cases hfirst : gone (key n)
    · exact htops n hn hfirst
    · obtain ⟨top, htop, hunder⟩ := htops' n ((hnodes n).mpr ⟨hn, hfirst⟩) (hgone.resolve_left hfirst)
      exact ⟨top, htop, hunder.mono fun m hm => ((hnodes m).mp hm).1⟩

theorem pruned_under (hnodes : ∀ n, n ∈ nodes' ↔ n ∈ nodes ∧ ¬Under key parent nodes root (key n)) :
    Pruned key parent (· = root) nodes nodes' :=
  ⟨Under key parent nodes root, hnodes, fun _ hn hparent => .child hn hparent, fun _ _ hgone => ⟨root, rfl, hgone⟩⟩

theorem pruned_trees {cs : List α}
    (hnodes : ∀ n, n ∈ nodes' ↔ n ∈ nodes ∧ ¬∃ c ∈ cs, Under key parent nodes (key c) (key n)) :
    Pruned key parent (fun k => ∃ c ∈ cs, key c = k) nodes nodes' := by
  refine ⟨fun k => ∃ c ∈ cs, Under key parent nodes (key c) k, hnodes, ?_, ?_⟩
  · rintro n hn ⟨c, hc, hunder⟩
    exact ⟨c, hc, .child hn hunder⟩
  · rintro n _ ⟨c, hc, hunder⟩
    exact ⟨key c, ⟨c, hc, rfl⟩, hunder⟩

theorem pruned_leaf (hnodes : ∀ n, n ∈ nodes' ↔ n ∈ nodes ∧ key n ≠ root) (hleaf : ∀ n ∈ nodes, parent n ≠ root) :
    Pruned key parent (· = root) nodes nodes' := by
  refine ⟨(· = root), hnodes, fun n hn hparent => absurd hparent (hleaf n hn), fun n _ hgone => ⟨root, rfl, ?_⟩⟩
  rw [hgone]
  exact .root

theorem Pruned.grounded (h : Pruned key parent tops nodes nodes') (hgrounded : Grounded key parent null lt nodes) :
    Grounded key parent null lt nodes' := by
  obtain ⟨gone, hnodes, hdown, _⟩ := h
  exact hgrounded.remaining gone hnodes hdown

end Pruning

end DocumentDb.Forest
