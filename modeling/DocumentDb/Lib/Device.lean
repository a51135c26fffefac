import DocumentDb.Lib.Program

namespace DocumentDb.Program

variable {ε σ τ α β φ ρ : Type}

/-- What programs reach by numbered accesses only. The environment has a plan of how each of them
goes, and may also take the device away. -/
structure Device (σ φ ρ : Type) where
  accesses : σ → Nat
  plan : σ → Nat → φ
  withPlan : (Nat → φ) → σ → σ
  content : σ → ρ
  Onward : ρ → ρ → Prop
  gone : φ
  accesses_withPlan : ∀ p s, accesses (withPlan p s) = accesses s
  plan_withPlan : ∀ p s, plan (withPlan p s) = p
  content_withPlan : ∀ p s, content (withPlan p s) = content s
  withPlan_plan : ∀ s, withPlan (plan s) s = s
  withPlan_withPlan : ∀ p q s, withPlan p (withPlan q s) = withPlan p s
  refl : ∀ c, Onward c c
  trans : ∀ a b c, Onward a b → Onward b c → Onward a c

def mapState (f : σ → σ) : EStateM.Result ε σ α → EStateM.Result ε σ α
  | .ok a s => .ok a (f s)
  | .error e s => .error e (f s)

theorem final_mapState (f : σ → σ) (r : EStateM.Result ε σ α) : final (mapState f r) = f (final r) := by
  cases r <;> rfl

section Driving

variable {d : Device σ φ ρ}

/-- From one state to the other some accesses have been made, and without the device its content
has stayed as it was. -/
structure Device.Leads (d : Device σ φ ρ) (s t : σ) : Prop where
  plan : d.plan t = d.plan s
  accesses : d.accesses s ≤ d.accesses t
  onward : d.Onward (d.content s) (d.content t)
  gone : (∀ n, d.accesses s ≤ n → d.plan s n = d.gone) → d.content t = d.content s

theorem Device.leads_of_eq {s t : σ} (hplan : d.plan t = d.plan s) (haccesses : d.accesses t = d.accesses s)
    (hcontent : d.content t = d.content s) : d.Leads s t :=
  ⟨hplan, Nat.le_of_eq haccesses.symm, by rw [hcontent]; exact d.refl _, fun _ => hcontent⟩

theorem Device.Leads.trans {s t u : σ} (h : d.Leads s t) (h' : d.Leads t u) : d.Leads s u := by
  refine ⟨h'.plan.trans h.plan, Nat.le_trans h.accesses h'.accesses, d.trans _ _ _ h.onward h'.onward, fun hgone => ?_⟩
  have hlater : ∀ n, d.accesses t ≤ n → d.plan t n = d.gone := by
    intro n hn
    rw [h.plan]
    exact hgone n (Nat.le_trans h.accesses hn)
  rw [h'.gone hlater, h.gone hgone]

/-- The program reaches the device by accesses only, and goes by the plan for these alone. -/
structure Device.Drives (d : Device σ φ ρ) (x : EStateM ε σ α) : Prop where
  leads : ∀ s, d.Leads s (final (x s))
  replan : ∀ s p, (∀ n, d.accesses s ≤ n → n < d.accesses (final (x s)) → p n = d.plan s n) →
    x (d.withPlan p s) = mapState (d.withPlan p) (x s)

variable {x y : EStateM ε σ α} {f : α → EStateM ε σ β}

theorem Device.Drives.pure (a : α) : d.Drives (pure a : EStateM ε σ α) :=
  ⟨fun _ => leads_of_eq rfl rfl rfl, fun _ _ _ => rfl⟩

theorem Device.Drives.throw (e : ε) : d.Drives (throw e : EStateM ε σ α) :=
  ⟨fun _ => leads_of_eq rfl rfl rfl, fun _ _ _ => rfl⟩

theorem Device.Drives.lift (r : Except ε α) : d.Drives (lift r : EStateM ε σ α) := by
  cases r with
  | ok a => exact Device.Drives.pure a
  | error e => exact Device.Drives.throw e

theorem Device.Drives.modify {g : σ → σ} (hleads : ∀ s, d.Leads s (g s))
    (hg : ∀ p s, g (d.withPlan p s) = d.withPlan p (g s)) : d.Drives (modify g : EStateM ε σ PUnit) := by
  refine ⟨hleads, fun s p _ => ?_⟩
  rw [run_modify, run_modify, hg]
  rfl

theorem run_get_bind (g : σ → EStateM ε σ β) (s : σ) : (get >>= g) s = g s s := (rfl)

theorem Device.Drives.get {g : σ → EStateM ε σ β} (hg : ∀ p s, g (d.withPlan p s) = g s) (h : ∀ s, d.Drives (g s)) :
    d.Drives (get >>= g) := by
  refine ⟨fun s => ?_, fun s p hp => ?_⟩
  · rw [run_get_bind]
    exact (h s).leads s
  · rw [run_get_bind] at hp ⊢
    rw [run_get_bind, hg]
    exact (h s).replan s p hp

theorem Device.Drives.bind (hx : d.Drives x) (hf : ∀ a, d.Drives (f a)) : d.Drives (x >>= f) := by
  refine ⟨fun s => ?_, fun s p hp => ?_⟩
  · have hleads := hx.leads s
    rw [run_bind]
    cases hrun : x s with
    | error e t =>
        rw [hrun] at hleads
        exact hleads
    | ok a t =>
        rw [hrun] at hleads
        exact hleads.trans ((hf a).leads t)
  · have hleads := hx.leads s
    have hreplan := hx.replan s p
    rw [run_bind] at hp ⊢
    rw [run_bind]
    cases hrun : x s with
    | error e t =>
        rw [hrun] at hp hreplan
        rw [hreplan hp]
        rfl
    | ok a t =>
        rw [hrun] at hp hreplan hleads
        have honward := ((hf a).leads t).accesses
        rw [hreplan fun n hle hlt => hp n hle (Nat.lt_of_lt_of_le hlt honward)]
        refine (hf a).replan t p fun n hle hlt => ?_
        have hplan : d.plan t = d.plan s := hleads.plan
        rw [hplan]
        exact hp n (Nat.le_trans hleads.accesses hle) hlt

theorem Device.Drives.ite {c : Prop} [Decidable c] (hx : d.Drives x) (hy : d.Drives y) :
    d.Drives (if c then x else y) := by
  split
  · exact hx
  · exact hy

theorem Device.Drives.access {g : φ → EStateM ε σ β} {z : EStateM ε σ β}
    (hz : ∀ s, z s = g (d.plan s (d.accesses s)) s)
    (haccesses : ∀ a s, d.accesses (final (g a s)) = d.accesses s + 1)
    (hplan : ∀ a s, d.plan (final (g a s)) = d.plan s)
    (honward : ∀ a s, d.Onward (d.content s) (d.content (final (g a s))))
    (hgone : ∀ s, d.content (final (g d.gone s)) = d.content s)
    (hreplan : ∀ a p s, g a (d.withPlan p s) = mapState (d.withPlan p) (g a s)) : d.Drives z := by
  constructor
  case leads =>
    intro s
    rw [hz]
    refine ⟨hplan _ s, by rw [haccesses]; exact Nat.le_succ _, honward _ s, fun h => ?_⟩
    rw [h _ (Nat.le_refl _), hgone]
  case replan =>
    intro s p hp
    rw [hz] at hp ⊢
    rw [hz, d.plan_withPlan, d.accesses_withPlan, hreplan]
    rw [hp _ (Nat.le_refl _) (by rw [haccesses]; exact Nat.lt_succ_self _)]

theorem Device.Drives.throw_bind (e : ε) : d.Drives (MonadExcept.throw e >>= f : EStateM ε σ β) :=
  ⟨fun _ => leads_of_eq rfl rfl rfl, fun _ _ _ => rfl⟩

theorem Device.Drives.onward_bind (hf : ∀ a, d.Drives (f a)) (s : σ) :
    d.Onward (d.content (final (x s))) (d.content (final ((x >>= f) s))) := by
  rw [run_bind]
  cases x s with
  | ok a t => exact ((hf a).leads t).onward
  | error e t => exact d.refl _

end Driving

section Components

def Device.component (d : Device σ φ ρ) (get : τ → σ) (set : σ → τ → τ) (hgetset : ∀ s t, get (set s t) = s)
    (hsetget : ∀ t, set (get t) t = t) (hsetset : ∀ s s' t, set s (set s' t) = set s t) : Device τ φ ρ where
  accesses t := d.accesses (get t)
  plan t := d.plan (get t)
  withPlan p t := set (d.withPlan p (get t)) t
  content t := d.content (get t)
  Onward := d.Onward
  gone := d.gone
  accesses_withPlan p t := by rw [hgetset, d.accesses_withPlan]
  plan_withPlan p t := by rw [hgetset, d.plan_withPlan]
  content_withPlan p t := by rw [hgetset, d.content_withPlan]
  withPlan_plan t := by rw [d.withPlan_plan, hsetget]
  withPlan_withPlan p q t := by rw [hgetset, d.withPlan_withPlan, hsetset]
  refl := d.refl
  trans := d.trans

variable {d : Device σ φ ρ} {get : τ → σ} {set : σ → τ → τ} {hgetset : ∀ s t, get (set s t) = s}
  {hsetget : ∀ t, set (get t) t = t} {hsetset : ∀ s s' t, set s (set s' t) = set s t} {x : EStateM ε σ α}

theorem final_zoom (t : τ) : final (zoom get set x t) = set (final (x (get t))) t := by
  rw [zoom]
  cases x (get t) <;> rfl

theorem Device.Drives.zoom (hx : d.Drives x) :
    (d.component get set hgetset hsetget hsetset).Drives (zoom get set x) := by
  have hfinal : ∀ t, get (final (Program.zoom get set x t)) = final (x (get t)) := fun t => by rw [final_zoom, hgetset]
  refine ⟨fun t => ?_, fun t p hp => ?_⟩
  · obtain ⟨hplan, haccesses, honward, hgone⟩ := hx.leads (get t)
    exact ⟨(congrArg d.plan (hfinal t)).trans hplan,
      Nat.le_trans haccesses (Nat.le_of_eq (congrArg d.accesses (hfinal t)).symm),
      by simpa only [component, hfinal] using honward, fun h => (congrArg d.content (hfinal t)).trans (hgone h)⟩
  · have hreplan := hx.replan (get t) p
    rw [← hfinal] at hreplan
    rw [Program.zoom, Program.zoom]
    have hget : get ((d.component get set hgetset hsetget hsetset).withPlan p t) = d.withPlan p (get t) := hgetset _ _
    have hset : ∀ s, set (d.withPlan p s) ((d.component get set hgetset hsetget hsetset).withPlan p t) =
        (d.component get set hgetset hsetget hsetset).withPlan p (set s t) := by
      intro s
      simp only [component, hsetset, hgetset]
    rw [hget, hreplan hp]
    cases x (get t) with
    | ok a s => exact congrArg (EStateM.Result.ok a) (hset s)
    | error e s => exact congrArg (EStateM.Result.error e) (hset s)

end Components

section Interruption

variable {d : Device σ φ ρ} {x : EStateM ε σ α} {f : α → EStateM ε σ β} {s t : σ} {P : ρ → Prop}

def Device.cut (d : Device σ φ ρ) (k : Nat) (s : σ) : σ :=
  d.withPlan (fun n => if n < k then d.plan s n else d.gone) s

theorem Device.Leads.cut (h : d.Leads s t) (k : Nat) :
    d.withPlan (fun n => if n < k then d.plan s n else d.gone) t = d.cut k t := by
  rw [Device.cut, h.plan]

theorem Device.content_cut (k : Nat) (s : σ) : d.content (d.cut k s) = d.content s := d.content_withPlan _ _

/-- Either the program has stopped before the device goes, and has done what it does anyway, or it
finds that the device is gone. -/
theorem Device.Drives.cut_cases (h : d.Drives x) (k : Nat) (s : σ) :
    (d.accesses (final (x s)) ≤ k ∧ x (d.cut k s) = mapState (d.cut k) (x s)) ∨
      k < d.accesses (final (x (d.cut k s))) := by
  have hrestore : d.withPlan (d.plan s) (d.cut k s) = s := by
    rw [Device.cut, d.withPlan_withPlan, d.withPlan_plan]
  rcases Nat.lt_or_ge k (d.accesses (final (x (d.cut k s)))) with hgone | hle
  · exact Or.inr hgone
  · have hsame : x s = mapState (d.withPlan (d.plan s)) (x (d.cut k s)) := by
      have hreplan := h.replan (d.cut k s) (d.plan s) fun n _ hlt => by
        rw [Device.cut, d.plan_withPlan, if_pos (Nat.lt_of_lt_of_le hlt hle)]
      rwa [hrestore] at hreplan
    have haccesses : d.accesses (final (x s)) ≤ k := by
      rw [hsame, final_mapState, d.accesses_withPlan]
      exact hle
    refine Or.inl ⟨haccesses, ?_⟩
    have hcut := h.replan s (fun n => if n < k then d.plan s n else d.gone) fun n _ hlt => by
      rw [if_pos (Nat.lt_of_lt_of_le hlt haccesses)]
    rw [Device.cut, hcut]
    have hleads := h.leads s
    cases hrun : x s with
    | ok a t =>
        rw [hrun] at hleads
        exact congrArg (EStateM.Result.ok a) (hleads.cut k)
    | error e t =>
        rw [hrun] at hleads
        exact congrArg (EStateM.Result.error e) (hleads.cut k)

/-- Whenever the device goes, it is left with a content that has the property. -/
structure Device.Survives (d : Device σ φ ρ) (P : ρ → Prop) (x : EStateM ε σ α) (s : σ) : Prop where
  holds : ∀ k, d.accesses s ≤ k → P (d.content (final (x (d.cut k s))))

theorem Device.Survives.bind (hx : d.Drives x) (hf : ∀ a, d.Drives (f a)) (h : d.Survives P x s)
    (hrest : ∀ a t, x s = .ok a t → d.Survives P (f a) t) : d.Survives P (x >>= f) s := by
  constructor
  intro k hk
  have hP := h.holds k hk
  rw [run_bind]
  rcases hx.cut_cases k s with ⟨hle, hcut⟩ | hgone
  · cases hrun : x s with
    | error e t =>
        rw [hcut, hrun] at hP ⊢
        exact hP
    | ok a t =>
        rw [hrun] at hle
        rw [hcut, hrun]
        exact (hrest a t hrun).holds k hle
  · cases hrun : x (d.cut k s) with
    | error e t =>
        rw [hrun] at hP
        exact hP
    | ok a t =>
        rw [hrun] at hP hgone
        have hleads := hx.leads (d.cut k s)
        rw [hrun] at hleads
        have hplan : d.plan t = d.plan (d.cut k s) := hleads.plan
        have hafter := ((hf a).leads t).gone fun n hn => by
          rw [hplan, Device.cut, d.plan_withPlan, if_neg (Nat.not_lt.mpr (Nat.le_trans (Nat.le_of_lt hgone) hn))]
        change P (d.content (final (f a t)))
        rw [hafter]
        exact hP

theorem Device.Survives.silent {a : α} (hrun : ∀ k, x (d.cut k s) = .ok a (d.cut k t))
    (haccesses : d.accesses t = d.accesses s) (h : d.Survives P (f a) t) : d.Survives P (x >>= f) s := by
  constructor
  intro k hk
  rw [run_bind, hrun, andThen_ok]
  exact h.holds k (by rwa [haccesses])

theorem Device.Survives.get {g : σ → EStateM ε σ β} (hg : ∀ p s, g (d.withPlan p s) = g s)
    (h : d.Survives P (g s) s) : d.Survives P (get >>= g) s := by
  constructor
  intro k hk
  rw [run_get_bind, Device.cut, hg]
  exact h.holds k hk

/-- A program that makes at most one access has done nothing or everything. -/
theorem Device.Survives.of_access (hx : d.Drives x) (hone : d.accesses (final (x s)) ≤ d.accesses s + 1)
    (hbefore : P (d.content s)) (hafter : P (d.content (final (x s)))) : d.Survives P x s := by
  constructor
  intro k hk
  rcases Nat.eq_or_lt_of_le hk with heq | hlt
  · have hleads := hx.leads (d.cut k s)
    have hgone := hleads.gone fun n hn => by
      rw [Device.cut, d.accesses_withPlan] at hn
      rw [Device.cut, d.plan_withPlan, if_neg (Nat.not_lt.mpr (heq ▸ hn))]
    rw [hgone, d.content_cut]
    exact hbefore
  · have hsame := hx.replan s (fun n => if n < k then d.plan s n else d.gone) fun n _ hn =>
      if_pos (Nat.lt_of_lt_of_le hn (Nat.le_trans hone hlt))
    rw [Device.cut, hsame, final_mapState, d.content_withPlan]
    exact hafter

theorem Device.Survives.of_reads (hreads : ∀ s, d.content (final (x s)) = d.content s) (h : P (d.content s)) :
    d.Survives P x s := by
  constructor
  intro k _
  rw [hreads, d.content_cut]
  exact h

theorem Device.Survives.mono {Q : ρ → Prop} (hPQ : ∀ c, P c → Q c) (h : d.Survives P x s) : d.Survives Q x s :=
  ⟨fun k hk => hPQ _ (h.holds k hk)⟩

theorem Device.Survives.final (hx : d.Drives x) (h : d.Survives P x s) : P (d.content (final (x s))) := by
  have hleads := hx.leads s
  have hP := h.holds (d.accesses (Program.final (x s))) hleads.accesses
  rcases hx.cut_cases (d.accesses (Program.final (x s))) s with ⟨_, hcut⟩ | hgone
  · rwa [hcut, final_mapState, d.content_cut] at hP
  · have hsame := hx.replan s (fun n => if n < d.accesses (Program.final (x s)) then d.plan s n else d.gone)
      fun n _ hlt => if_pos hlt
    change x (d.cut (d.accesses (Program.final (x s))) s) = _ at hsame
    rw [hsame, final_mapState, d.content_withPlan] at hP
    exact hP

theorem Device.Survives.zoom {get : τ → σ} {set : σ → τ → τ} {hgetset : ∀ s t, get (set s t) = s}
    {hsetget : ∀ t, set (get t) t = t} {hsetset : ∀ s s' t, set s (set s' t) = set s t} {u : τ}
    (h : d.Survives P x (get u)) :
    (d.component get set hgetset hsetget hsetset).Survives P (Program.zoom get set x) u := by
  constructor
  intro k hk
  have hcut : get ((d.component get set hgetset hsetget hsetset).cut k u) = d.cut k (get u) := hgetset _ _
  rw [final_zoom, hcut]
  change P (d.content (get (set _ _)))
  rw [hgetset]
  exact h.holds k hk

end Interruption

end DocumentDb.Program
