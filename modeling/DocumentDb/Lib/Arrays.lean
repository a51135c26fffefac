import Mathlib.Data.List.Basic

namespace DocumentDb.Arrays

variable {α : Type}

/-- An array with room for some number of elements, and what has been stored to it, in
order. -/
structure Block (α : Type) where
  size : Nat
  writes : List (Nat × α)

def Block.new (size : Nat) : Block α := ⟨size, []⟩

def Block.write (self : Block α) (i : Nat) (a : α) : Block α :=
  { self with writes := self.writes ++ [(i, a)] }

def Block.get? (self : Block α) (i : Nat) : Option α :=
  (self.writes.reverse.find? fun w => w.1 == i).map Prod.snd

def Block.Within (self : Block α) : Prop := ∀ w ∈ self.writes, w.1 < self.size

def Block.fill (self : Block α) (i : Nat) : List α → Block α
  | [] => self
  | a :: as => (self.write i a).fill (i + 1) as

section Writes

variable (b : Block α) (i : Nat) (a : α) (as : List α)

@[simp] theorem size_write : (b.write i a).size = b.size := rfl

@[simp] theorem writes_write : (b.write i a).writes = b.writes ++ [(i, a)] := rfl

@[simp] theorem writes_new (size : Nat) : (Block.new size : Block α).writes = [] := rfl

@[simp] theorem size_new (size : Nat) : (Block.new size : Block α).size = size := rfl

theorem within_new (size : Nat) : (Block.new size : Block α).Within := by
  intro w hw
  cases hw

theorem within_write_iff : (b.write i a).Within ↔ b.Within ∧ i < b.size := by
  simp only [Block.Within, writes_write, size_write, List.forall_mem_append, List.forall_mem_singleton]

@[simp] theorem size_fill : (b.fill i as).size = b.size := by
  induction as generalizing b i with
  | nil => rfl
  | cons a as ih => rw [Block.fill, ih, size_write]

theorem length_writes_fill : (b.fill i as).writes.length = b.writes.length + as.length := by
  induction as generalizing b i with
  | nil => rfl
  | cons a as ih =>
      rw [Block.fill, ih, writes_write, List.length_append, List.length_singleton, List.length_cons]
      omega

theorem entries_fill : (b.fill i as).writes.map Prod.snd = b.writes.map Prod.snd ++ as := by
  induction as generalizing b i with
  | nil => rw [Block.fill, List.append_nil]
  | cons a as ih =>
      rw [Block.fill, ih, writes_write, List.map_append, List.append_assoc]
      rfl

theorem within_fill_iff : (b.fill i as).Within ↔ b.Within ∧ (as ≠ [] → i + as.length ≤ b.size) := by
  induction as generalizing b i with
  | nil => simp [Block.fill]
  | cons a as ih =>
      rw [Block.fill, ih, within_write_iff, size_write, List.length_cons]
      constructor
      · rintro ⟨⟨hb, hi⟩, hrest⟩
        refine ⟨hb, fun _ => ?_⟩
        cases as with
        | nil => exact hi
        | cons a' as =>
            have hle := hrest (List.cons_ne_nil _ _)
            omega
      · rintro ⟨hb, hrest⟩
        have hle := hrest (List.cons_ne_nil _ _)
        exact ⟨⟨hb, by omega⟩, fun _ => by omega⟩

theorem get?_write (j : Nat) : (b.write i a).get? j = if i = j then some a else b.get? j := by
  rw [Block.get?, writes_write, List.reverse_append, List.reverse_singleton, List.singleton_append,
    List.find?_cons]
  by_cases hij : i = j
  · subst hij
    simp
  · rw [if_neg hij]
    simp only [beq_eq_false_iff_ne.mpr hij]
    rfl

theorem get?_fill (j : Nat) : (b.fill i as).get? j =
    if i ≤ j ∧ j < i + as.length then as[j - i]? else b.get? j := by
  induction as generalizing b i with
  | nil =>
      rw [Block.fill, if_neg]
      simp only [List.length_nil]
      omega
  | cons a as ih =>
      rw [Block.fill, ih, get?_write, List.length_cons]
      by_cases hij : i = j
      · subst hij
        rw [if_neg (by omega), if_pos rfl, if_pos (by omega), Nat.sub_self]
        rfl
      · rw [if_neg hij]
        by_cases hin : i + 1 ≤ j ∧ j < i + 1 + as.length
        · rw [if_pos hin, if_pos (by omega), show j - i = (j - (i + 1)) + 1 by omega, List.getElem?_cons_succ]
        · rw [if_neg hin, if_neg (by omega)]

theorem get?_fill_new (size j : Nat) : ((Block.new size).fill 0 as).get? j = as[j]? := by
  rw [get?_fill, Nat.zero_add, Nat.sub_zero]
  split
  · rfl
  · rw [List.getElem?_eq_none (by omega)]
    rfl

end Writes

end DocumentDb.Arrays
