import Mathlib.Data.List.Forall2
import Mathlib.Order.Defs.Unbundled

namespace DocumentDb.Program

variable {ε σ τ α β : Type}

section Evaluation

-- The parentheses keep `simp` from using these equations without leaving a proof: the kernel would
-- evaluate whole programs to check such a step.

@[simp] theorem run_pure (a : α) (s : σ) : (pure a : EStateM ε σ α) s = .ok a s := (rfl)

@[simp] theorem run_throw (e : ε) (s : σ) : (throw e : EStateM ε σ α) s = .error e s := (rfl)

@[simp] theorem run_get (s : σ) : (get : EStateM ε σ σ) s = .ok s s := (rfl)

@[simp] theorem run_set (s t : σ) : (set t : EStateM ε σ PUnit) s = .ok ⟨⟩ t := (rfl)

@[simp] theorem run_modify (f : σ → σ) (s : σ) :
    (modify f : EStateM ε σ PUnit) s = .ok ⟨⟩ (f s) := (rfl)

def andThen (r : EStateM.Result ε σ α) (f : α → EStateM ε σ β) : EStateM.Result ε σ β :=
  match r with
  | .ok a t => f a t
  | .error e t => .error e t

@[simp] theorem andThen_ok (a : α) (t : σ) (f : α → EStateM ε σ β) :
    andThen (.ok a t) f = f a t := (rfl)

@[simp] theorem andThen_error (e : ε) (t : σ) (f : α → EStateM ε σ β) :
    andThen (.error e t) f = .error e t := (rfl)

theorem run_bind (x : EStateM ε σ α) (f : α → EStateM ε σ β) (s : σ) :
    (x >>= f) s = andThen (x s) f := by
  change EStateM.bind x f s = _
  rw [EStateM.bind]
  cases x s <;> rfl

theorem bind_eq_ok {x : EStateM ε σ α} {f : α → EStateM ε σ β} {s u : σ} {b : β} :
    (x >>= f) s = .ok b u ↔ ∃ a t, x s = .ok a t ∧ f a t = .ok b u := by
  rw [run_bind]
  cases x s with
  | ok a t =>
      refine ⟨fun h => ⟨a, t, rfl, h⟩, ?_⟩
      rintro ⟨a', t', he, h⟩
      cases he
      exact h
  | error e t => simp

theorem run_bind_congr {x : EStateM ε σ α} {f g : α → EStateM ε σ β} {s : σ}
    (h : ∀ a t, x s = .ok a t → f a t = g a t) : (x >>= f) s = (x >>= g) s := by
  rw [run_bind, run_bind]
  cases hx : x s with
  | ok a t => exact h a t hx
  | error e t => rfl

theorem run_ite (c : Prop) [Decidable c] (x y : EStateM ε σ α) (s : σ) :
    (if c then x else y) s = if c then x s else y s := by
  split <;> rfl

end Evaluation

section Lifting

def lift (x : Except ε α) : EStateM ε σ α := fun s =>
  match x with
  | .ok a => .ok a s
  | .error e => .error e s

@[simp] theorem run_lift_ok (a : α) (s : σ) : (lift (.ok a) : EStateM ε σ α) s = .ok a s := (rfl)

@[simp] theorem run_lift_error (e : ε) (s : σ) :
    (lift (.error e) : EStateM ε σ α) s = .error e s := (rfl)

theorem partial_bind_eq_ok {x : Except ε α} {f : α → Except ε β} {b : β} :
    (x >>= f) = .ok b ↔ ∃ a, x = .ok a ∧ f a = .ok b := by
  cases x with
  | ok a =>
      refine ⟨fun h => ⟨a, rfl, h⟩, ?_⟩
      rintro ⟨a', he, h⟩
      cases he
      exact h
  | error e =>
      constructor
      · rintro ⟨⟩
      · rintro ⟨a, he, _⟩
        cases he

theorem partial_map_eq_ok {x : Except ε α} {f : α → β} {b : β} (h : x.map f = .ok b) : ∃ a, x = .ok a ∧ f a = b := by
  cases x with
  | ok a =>
      cases h
      exact ⟨a, rfl, rfl⟩
  | error e => cases h

theorem partial_bind_eq_error {x : Except ε α} {f : α → Except ε β} {e : ε} :
    (x >>= f) = .error e ↔ x = .error e ∨ ∃ a, x = .ok a ∧ f a = .error e := by
  cases x with
  | ok a =>
      refine ⟨fun h => .inr ⟨a, rfl, h⟩, ?_⟩
      rintro (he | ⟨a', he, h⟩)
      · cases he
      · cases he
        exact h
  | error e' =>
      constructor
      · intro h
        cases h
        exact .inl rfl
      · rintro (he | ⟨a, he, _⟩)
        · cases he
          rfl
        · cases he

theorem lift_eq_ok {x : Except ε α} {a : α} {s t : σ} :
    (lift x : EStateM ε σ α) s = .ok a t ↔ x = .ok a ∧ s = t := by
  cases x <;> simp [lift]

/-- Run a program of a component inside the state that contains it. The
component's changes are kept when the program stops with a fault. -/
def zoom (get : τ → σ) (set : σ → τ → τ) (x : EStateM ε σ α) : EStateM ε τ α := fun t =>
  match x (get t) with
  | .ok a s => .ok a (set s t)
  | .error e s => .error e (set s t)

theorem zoom_ok {get : τ → σ} {set : σ → τ → τ} {x : EStateM ε σ α} {t : τ} {s : σ} {a : α}
    (h : x (get t) = .ok a s) : zoom get set x t = .ok a (set s t) := by
  simp only [zoom, h]

theorem zoom_error {get : τ → σ} {set : σ → τ → τ} {x : EStateM ε σ α} {t : τ} {s : σ} {e : ε}
    (h : x (get t) = .error e s) : zoom get set x t = .error e (set s t) := by
  simp only [zoom, h]

theorem zoom_eq_ok {get : τ → σ} {set : σ → τ → τ} {x : EStateM ε σ α} {t u : τ} {a : α} :
    zoom get set x t = .ok a u ↔ ∃ s, x (get t) = .ok a s ∧ u = set s t := by
  rw [zoom]
  cases x (get t) with
  | ok b s =>
      refine ⟨fun h => ?_, ?_⟩
      · cases h
        exact ⟨s, rfl, rfl⟩
      · rintro ⟨s', he, rfl⟩
        cases he
        rfl
  | error e s => simp

end Lifting

section Lists

theorem forall₂_exists {R : α → β → Prop} {xs : List α} {ys : List β} (h : List.Forall₂ R xs ys) :
    ∀ x ∈ xs, ∃ y ∈ ys, R x y := by
  induction h with
  | nil => exact List.forall_mem_nil _
  | cons hxy _ ih =>
      rw [List.forall_mem_cons]
      refine ⟨⟨_, List.mem_cons_self, hxy⟩, fun x hx => ?_⟩
      obtain ⟨y, hy, hR⟩ := ih x hx
      exact ⟨y, List.mem_cons_of_mem _ hy, hR⟩

theorem forall₂_along {γ : Type} {P : α → γ → Prop} {Q : β → γ → Prop} {R : α → β → Prop} {xs : List α} {ys : List β}
    {zs : List γ} (hR : ∀ x y z, P x z → Q y z → R x y) (hP : List.Forall₂ P xs zs) (hQ : List.Forall₂ Q ys zs) :
    List.Forall₂ R xs ys := by
  induction hP generalizing ys with
  | nil =>
      cases hQ
      exact .nil
  | cons hxz _ ih =>
      cases hQ with
      | cons hyz hQ => exact .cons (hR _ _ _ hxz hyz) (ih hQ)

theorem forall₂_iff_forall {P : α → β → Prop} {Q : α → Prop} {R : α → β → Prop} {xs : List α} {ys : List β}
    (h : List.Forall₂ R xs ys) (hPQ : ∀ x y, R x y → (P x y ↔ Q x)) : List.Forall₂ P xs ys ↔ ∀ x ∈ xs, Q x := by
  induction h with
  | nil => simp
  | cons hxy _ ih => rw [List.forall₂_cons, hPQ _ _ hxy, ih, List.forall_mem_cons]

theorem mapM_eq_ok {f : α → Except ε β} {xs : List α} {ys : List β} :
    xs.mapM f = .ok ys ↔ List.Forall₂ (fun x y => f x = .ok y) xs ys := by
  induction xs generalizing ys with
  | nil =>
      rw [List.mapM_nil, List.forall₂_nil_left_iff]
      constructor
      · rintro ⟨⟩
        rfl
      · rintro rfl
        rfl
  | cons x xs ih =>
      rw [List.mapM_cons, List.forall₂_cons_left_iff]
      cases hx : f x with
      | error e =>
          constructor
          · rintro ⟨⟩
          · rintro ⟨y, ys', hy, _⟩
            cases hy
      | ok y =>
          change (xs.mapM f >>= fun ys => pure (y :: ys)) = .ok ys ↔ _
          cases hxs : xs.mapM f with
          | error e =>
              constructor
              · rintro ⟨⟩
              · rintro ⟨y', ys', _, hys, _⟩
                rw [← ih, hxs] at hys
                cases hys
          | ok ys' =>
              constructor
              · rintro ⟨⟩
                exact ⟨y, ys', rfl, ih.mp hxs, rfl⟩
              · rintro ⟨y', ys'', hy, hys, rfl⟩
                cases hy
                rw [← ih, hxs] at hys
                cases hys
                rfl

theorem foldlM_cons_eq_ok {f : β → α → Except ε β} {x : α} {xs : List α} {acc r : β} :
    (x :: xs).foldlM f acc = .ok r ↔ ∃ acc1, f acc x = .ok acc1 ∧ xs.foldlM f acc1 = .ok r := by
  rw [List.foldlM_cons]
  cases f acc x with
  | error e =>
      constructor
      · rintro ⟨⟩
      · rintro ⟨_, ⟨⟩, _⟩
  | ok acc1 =>
      refine ⟨fun h => ⟨acc1, rfl, h⟩, ?_⟩
      rintro ⟨_, ⟨⟩, h⟩
      exact h

theorem mapM_exists {f : α → Except ε β} {R : α → β → Prop} {xs : List α}
    (h : ∀ x ∈ xs, ∃ y, f x = .ok y ∧ R x y) : ∃ ys, xs.mapM f = .ok ys ∧ List.Forall₂ R xs ys := by
  induction xs with
  | nil => exact ⟨[], rfl, .nil⟩
  | cons x xs ih =>
      obtain ⟨hx, hxs⟩ := List.forall_mem_cons.mp h
      obtain ⟨y, hy, hxy⟩ := hx
      obtain ⟨ys, hys, hall⟩ := ih hxs
      exact ⟨y :: ys, mapM_eq_ok.mpr (.cons hy (mapM_eq_ok.mp hys)), .cons hxy hall⟩

end Lists

section Faults

/-- If the program stops with a fault, the fault has a property. -/
def FailsWith (P : ε → Prop) (x : EStateM ε σ α) (s : σ) : Prop := ∀ e t, x s = .error e t → P e

variable {P : ε → Prop} {s : σ}

theorem FailsWith.pure (a : α) : FailsWith P (pure a : EStateM ε σ α) s := by
  intro e t h
  simp at h

theorem FailsWith.throw {e : ε} (he : P e) : FailsWith P (throw e : EStateM ε σ α) s := by
  intro e' t h
  simp only [run_throw, EStateM.Result.error.injEq] at h
  exact h.1 ▸ he

theorem FailsWith.bind {x : EStateM ε σ α} {f : α → EStateM ε σ β} (hx : FailsWith P x s)
    (hf : ∀ a t, x s = .ok a t → FailsWith P (f a) t) : FailsWith P (x >>= f) s := by
  intro e u h
  rw [run_bind] at h
  cases hr : x s with
  | ok a t =>
      rw [hr] at h
      exact hf a t hr e u h
  | error e' t =>
      rw [hr] at h
      simp only [andThen_error, EStateM.Result.error.injEq] at h
      exact h.1 ▸ hx e' t hr

theorem FailsWith.get {f : σ → EStateM ε σ β} (hf : FailsWith P (f s) s) : FailsWith P (get >>= f) s :=
  FailsWith.bind (fun e t h => by cases h) fun a t h => by
    cases h
    exact hf

theorem FailsWith.modify (f : σ → σ) : FailsWith P (modify f : EStateM ε σ PUnit) s := by
  intro e t h
  cases h

theorem FailsWith.lift {x : Except ε α} (hx : ∀ e, x = .error e → P e) : FailsWith P (lift x) s := by
  intro e t h
  cases x with
  | ok a => cases h
  | error e' =>
      cases h
      exact hx e rfl

theorem FailsWith.ite {c : Prop} [Decidable c] {x y : EStateM ε σ α} (hx : c → FailsWith P x s)
    (hy : ¬c → FailsWith P y s) : FailsWith P (if c then x else y) s := by
  split
  · exact hx ‹_›
  · exact hy ‹_›

theorem FailsWith.zoom {get : τ → σ} {set : σ → τ → τ} {x : EStateM ε σ α} {t : τ}
    (hx : FailsWith P x (get t)) : FailsWith P (zoom get set x) t := by
  intro e u h
  rw [Program.zoom] at h
  cases hr : x (get t) with
  | ok a s' =>
      rw [hr] at h
      cases h
  | error e' s' =>
      rw [hr] at h
      cases h
      exact hx e s' hr

theorem FailsWith.of_ok {x : EStateM ε σ α} {a : α} {t : σ} (h : x s = .ok a t) : FailsWith P x s := by
  intro e u he
  rw [h] at he
  cases he

end Faults

section Outcomes

def final : EStateM.Result ε σ α → σ
  | .ok _ s => s
  | .error _ s => s

@[simp] theorem final_ok (a : α) (s : σ) : final (.ok a s : EStateM.Result ε σ α) = s := rfl

@[simp] theorem final_error (e : ε) (s : σ) : final (.error e s : EStateM.Result ε σ α) = s := rfl

/-- The program keeps a property of the state, also when it stops with a fault. -/
def Keeps (P : σ → Prop) (x : EStateM ε σ α) : Prop := ∀ s, P s → P (final (x s))

variable {P : σ → Prop} {x : EStateM ε σ α}

theorem Keeps.ok {s t : σ} {a : α} (h : Keeps P x) (hs : P s) (hrun : x s = .ok a t) : P t := by
  have hfinal := h s hs
  rw [hrun] at hfinal
  exact hfinal

theorem Keeps.pure (a : α) : Keeps P (pure a : EStateM ε σ α) := fun _ h => h

theorem Keeps.throw (e : ε) : Keeps P (throw e : EStateM ε σ α) := fun _ h => h

theorem Keeps.throw_bind (e : ε) {f : α → EStateM ε σ β} : Keeps P (MonadExcept.throw e >>= f) := fun _ h => h

theorem Keeps.lift (x : Except ε α) : Keeps P (lift x : EStateM ε σ α) := by
  intro s h
  cases x <;> exact h

theorem Keeps.modify {f : σ → σ} (h : ∀ s, P s → P (f s)) :
    Keeps P (modify f : EStateM ε σ PUnit) := h

theorem Keeps.andThen {r : EStateM.Result ε σ α} {f : α → EStateM ε σ β} (hr : P (final r))
    (hf : ∀ a, Keeps P (f a)) : P (final (andThen r f)) := by
  cases r with
  | ok a t => exact hf a t hr
  | error e t => exact hr

theorem Keeps.bind {f : α → EStateM ε σ β} (hx : Keeps P x) (hf : ∀ a, Keeps P (f a)) :
    Keeps P (x >>= f) := by
  intro s h
  rw [run_bind]
  exact Keeps.andThen (hx s h) hf

theorem Keeps.get {f : σ → EStateM ε σ β} (hf : ∀ a, Keeps P (f a)) :
    Keeps P (get >>= f : EStateM ε σ β) :=
  Keeps.bind (fun _ h => h) hf

theorem Keeps.ite {c : Prop} [Decidable c] {y : EStateM ε σ α} (hx : Keeps P x) (hy : Keeps P y) :
    Keeps P (if c then x else y) := by
  split
  · exact hx
  · exact hy

theorem Keeps.zoom {Q : τ → Prop} {get : τ → σ} {set : σ → τ → τ}
    (hget : ∀ t, Q t → P (get t)) (hset : ∀ t s, Q t → P s → Q (set s t)) (hx : Keeps P x) :
    Keeps Q (zoom get set x) := by
  intro t h
  have hs := hx (get t) (hget t h)
  rw [Program.zoom]
  cases hr : x (get t) with
  | ok a s =>
      rw [hr] at hs
      exact hset t s h hs
  | error e s =>
      rw [hr] at hs
      exact hset t s h hs

end Outcomes

section Tracking

/-- When the program returns a value with a property, its states are related, and in the
view `ρ` of its first state it returns the same. -/
def Tracks (ρ : σ → σ) (R : σ → σ → Prop) (P : α → Prop) (x : EStateM ε σ α) : Prop :=
  ∀ s a t, x s = .ok a t → P a → R s t ∧ x (ρ s) = .ok a (ρ t)

variable {ρ : σ → σ} {R : σ → σ → Prop} {P : α → Prop} {Q : β → Prop} {x : EStateM ε σ α}
  {f : α → EStateM ε σ β}

theorem Tracks.throw_bind (e : ε) : Tracks ρ R Q (throw e >>= f) := by
  intro s b t hrun
  rw [run_bind, run_throw, andThen_error] at hrun
  cases hrun

theorem Tracks.pure [Std.Refl R] (a : α) : Tracks ρ R P (pure a : EStateM ε σ α) := by
  intro s b t hrun _
  cases hrun
  exact ⟨Std.Refl.refl s, rfl⟩

theorem Tracks.throw (e : ε) : Tracks ρ R P (throw e : EStateM ε σ α) := by
  intro s a t hrun
  cases hrun

theorem Tracks.lift [Std.Refl R] (r : Except ε α) : Tracks ρ R P (lift r : EStateM ε σ α) := by
  intro s a t hrun _
  obtain ⟨rfl, rfl⟩ := lift_eq_ok.mp hrun
  exact ⟨Std.Refl.refl s, rfl⟩

theorem Tracks.modify {g : σ → σ} (hR : ∀ s, R s (g s)) (hg : ∀ s, g (ρ s) = ρ (g s)) {P : PUnit → Prop} :
    Tracks ρ R P (modify g : EStateM ε σ PUnit) := by
  intro s a t hrun _
  cases hrun
  exact ⟨hR s, by rw [run_modify, hg]⟩

/-- What the program reads of its state is the same in the view. -/
theorem Tracks.get {g : σ → EStateM ε σ β} (hg : ∀ s, g (ρ s) = g s) (h : ∀ s, Tracks ρ R Q (g s)) :
    Tracks ρ R Q (get >>= g) := by
  intro s b t hrun hb
  rw [run_bind, run_get, andThen_ok] at hrun
  rw [run_bind, run_get, andThen_ok, hg]
  exact h s s b t hrun hb

/-- A first half that returns something else has to keep the second half from returning a
value with the property. -/
theorem Tracks.bind [IsTrans σ R] (hx : Tracks ρ R P x) (hf : ∀ a, P a → Tracks ρ R Q (f a))
    (hbad : ∀ a s b t, ¬P a → f a s = .ok b t → ¬Q b) : Tracks ρ R Q (x >>= f) := by
  intro s b u hrun hb
  obtain ⟨a, t, hfirst, hrest⟩ := bind_eq_ok.mp hrun
  have ha : P a := by
    by_contra hnot
    exact hbad a t b u hnot hrest hb
  obtain ⟨hst, hfirst'⟩ := hx s a t hfirst ha
  obtain ⟨htu, hrest'⟩ := hf a ha t b u hrest hb
  exact ⟨IsTrans.trans s t u hst htu, bind_eq_ok.mpr ⟨a, ρ t, hfirst', hrest'⟩⟩

theorem Tracks.seq [IsTrans σ R] (hx : Tracks ρ R (fun _ => True) x) (hf : ∀ a, Tracks ρ R Q (f a)) :
    Tracks ρ R Q (x >>= f) :=
  hx.bind (fun a _ => hf a) fun _ _ _ _ hnot => absurd trivial hnot

theorem Tracks.ite {c : Prop} [Decidable c] {y : EStateM ε σ α} (hx : Tracks ρ R P x) (hy : Tracks ρ R P y) :
    Tracks ρ R P (if c then x else y) := by
  split
  · exact hx
  · exact hy

end Tracking

section Repetition

variable {f : α → EStateM ε σ (β × α)} {a : α} {s : σ}

def returned : EStateM.Result ε σ α → Except ε α
  | .ok a _ => .ok a
  | .error e _ => .error e

theorem returned_eq_ok {r : EStateM.Result ε σ α} (h : returned r = .ok a) : ∃ t, r = .ok a t := by
  cases r with
  | ok b t =>
      cases h
      exact ⟨t, rfl⟩
  | error e t => cases h

theorem exists_of_returned {r : EStateM.Result ε σ α} (h : (returned r).isOk = true) : ∃ a, r = .ok a (final r) := by
  cases r with
  | ok a t => exact ⟨a, rfl⟩
  | error e t => cases h

/-- A call that is made once and then some more times, each time with what it gave back. -/
def again (f : α → EStateM ε σ (β × α)) : Nat → α → EStateM ε σ (β × α)
  | 0, a => f a
  | n + 1, a => do
    let (_, a) ← f a
    again f n a

theorem again_eq (h : ∀ b a' t, f a s = .ok (b, a') t → f a' t = .ok (b, a') t) (n : Nat) :
    again f n a s = f a s := by
  induction n generalizing a s with
  | zero => rfl
  | succ n ih =>
      rw [again, run_bind]
      cases hf : f a s with
      | error e t => rfl
      | ok r t =>
          obtain ⟨b, a'⟩ := r
          have hsame := h b a' t hf
          rw [andThen_ok]
          dsimp only
          rw [ih, hsame]
          intro b' a'' t' hf'
          rw [hsame] at hf'
          cases hf'
          exact hsame

end Repetition

end DocumentDb.Program
