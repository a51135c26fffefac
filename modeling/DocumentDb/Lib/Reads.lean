import Mathlib.Data.List.Basic

namespace DocumentDb.Reads

variable {ι ε α β : Type} {P : ι → Prop}

/-- A partial computation, and the fields that it reads on its way. -/
structure Reading (ι ε α : Type) where
  reads : List ι
  outcome : Except ε α

namespace Reading

def andThen (x : Reading ι ε α) (f : α → Reading ι ε β) : Reading ι ε β :=
  match x.outcome with
  | .ok a => ⟨x.reads ++ (f a).reads, (f a).outcome⟩
  | .error e => ⟨x.reads, .error e⟩

instance : Monad (Reading ι ε) where
  pure a := ⟨[], .ok a⟩
  bind := andThen

/-- Read a field. What is read of a field that is not set may end the computation, and
has been read all the same. -/
def read (field : ι) (value : Except ε α) : Reading ι ε α := ⟨[field], value⟩

def lift (x : Except ε α) : Reading ι ε α := ⟨[], x⟩

def OnlyReads (P : ι → Prop) (x : Reading ι ε α) : Prop := ∀ field ∈ x.reads, P field

section Outcome

@[simp] theorem outcome_pure (a : α) : (pure a : Reading ι ε α).outcome = .ok a := rfl

@[simp] theorem outcome_read (field : ι) (value : Except ε α) : (read field value).outcome = value := rfl

@[simp] theorem outcome_lift (x : Except ε α) : (lift x : Reading ι ε α).outcome = x := rfl

@[simp] theorem outcome_bind (x : Reading ι ε α) (f : α → Reading ι ε β) :
    (x >>= f).outcome = x.outcome >>= fun a => (f a).outcome := by
  change (x.andThen f).outcome = _
  rw [andThen]
  cases x.outcome <;> rfl

theorem outcome_bind_eq {x : Reading ι ε α} {f : α → Reading ι ε β} {y : Except ε α} {g : α → Except ε β}
    (hx : x.outcome = y) (hf : ∀ a, (f a).outcome = g a) : (x >>= f).outcome = y >>= g := by
  rw [outcome_bind, hx]
  exact congrArg (y >>= ·) (funext hf)

theorem outcome_mapM' (f : α → Reading ι ε β) (xs : List α) :
    (xs.mapM' f).outcome = xs.mapM fun x => (f x).outcome := by
  rw [← List.mapM'_eq_mapM]
  induction xs with
  | nil => rfl
  | cons x xs ih => simp only [List.mapM'_cons, outcome_bind, outcome_pure, ih]; rfl

end Outcome

section Fields

theorem onlyReads_pure (a : α) : OnlyReads P (pure a : Reading ι ε α) := by
  intro field hfield
  cases hfield

theorem onlyReads_lift (x : Except ε α) : OnlyReads P (lift x : Reading ι ε α) := by
  intro field hfield
  cases hfield

theorem onlyReads_read {field : ι} {value : Except ε α} : OnlyReads P (read field value) ↔ P field := by
  simp [OnlyReads, read]

theorem onlyReads_bind {x : Reading ι ε α} {f : α → Reading ι ε β} :
    OnlyReads P (x >>= f) ↔ OnlyReads P x ∧ ∀ a, x.outcome = .ok a → OnlyReads P (f a) := by
  change OnlyReads P (x.andThen f) ↔ _
  cases h : x.outcome with
  | ok a => simp [andThen, h, OnlyReads, or_imp, forall_and]
  | error e => simp [andThen, h, OnlyReads]

theorem onlyReads_mapM' {f : α → Reading ι ε β} {xs : List α} :
    OnlyReads P (xs.mapM' f) ↔ ∀ k x, xs[k]? = some x →
      (∀ earlier ∈ xs.take k, ∃ y, (f earlier).outcome = .ok y) → OnlyReads P (f x) := by
  induction xs with
  | nil => simp [onlyReads_pure]
  | cons x xs ih =>
      rw [List.mapM'_cons, onlyReads_bind]
      constructor
      · rintro ⟨hx, hxs⟩ k x' hk hearlier
        cases k with
        | zero =>
            cases hk
            exact hx
        | succ k =>
            rw [List.take_succ_cons, List.forall_mem_cons] at hearlier
            obtain ⟨⟨y, hy⟩, hearlier⟩ := hearlier
            exact ih.mp (onlyReads_bind.mp (hxs y hy)).1 k x' hk hearlier
      · intro h
        refine ⟨h 0 x rfl (by simp), ?_⟩
        intro y hy
        refine onlyReads_bind.mpr ⟨ih.mpr ?_, fun _ _ => onlyReads_pure _⟩
        intro k x' hk hearlier
        apply h (k + 1) x' hk
        rw [List.take_succ_cons, List.forall_mem_cons]
        exact ⟨⟨y, hy⟩, hearlier⟩

/-- What is asked of every round that is reached may be supposed of the rounds before. -/
theorem forall_reached_iff {A C : α → Prop} (xs : List α) :
    (∀ k x, xs[k]? = some x → (∀ earlier ∈ xs.take k, A earlier) → C x) ↔
      ∀ k x, xs[k]? = some x → (∀ earlier ∈ xs.take k, A earlier ∧ C earlier) → C x := by
  constructor
  · intro h k x hk hearlier
    exact h k x hk fun earlier hmem => (hearlier earlier hmem).1
  · intro h k
    induction k using Nat.strongRecOn with
    | ind k ih =>
        intro x hk hearlier
        refine h k x hk fun earlier hmem => ⟨hearlier earlier hmem, ?_⟩
        obtain ⟨j, hj⟩ := List.getElem?_of_mem hmem
        rw [List.getElem?_take] at hj
        split at hj
        case isTrue hlt =>
          refine ih j hlt earlier hj fun first hfirst => hearlier first ?_
          exact List.take_subset_take_left xs (Nat.le_of_lt hlt) hfirst
        case isFalse => cases hj

end Fields

end Reading

end DocumentDb.Reads
