import Mathlib.Tactic.Common

/-!
# Programs with state and errors

A Hoare logic and a simulation logic for `EStateM`. An error keeps the state it was raised in,
so both postconditions speak about a state. The rules follow the program constructs; loops are
handled by induction on their fuel at the place where they are defined.
-/

namespace Rmbtd.Effect

variable {ε σ τ α β γ δ : Type}

theorem bind_apply (m : EStateM ε σ α) (f : α → EStateM ε σ β) (s : σ) :
    (m >>= f) s = match m s with
      | .ok a t => f a t
      | .error e t => .error e t := rfl

theorem pure_apply (a : α) (s : σ) : (pure a : EStateM ε σ α) s = .ok a s := rfl

theorem bind_ok {m : EStateM ε σ α} {f : α → EStateM ε σ β} {s t : σ} {a : α}
    (h : m s = .ok a t) : (m >>= f) s = f a t := by
  rw [bind_apply,h]

theorem bind_error {m : EStateM ε σ α} {f : α → EStateM ε σ β} {s t : σ} {e : ε}
    (h : m s = .error e t) : (m >>= f) s = .error e t := by
  rw [bind_apply,h]

theorem bind_eq_ok {m : EStateM ε σ α} {f : α → EStateM ε σ β} {s t : σ} {b : β}
    (h : (m >>= f) s = .ok b t) : ∃ a u, m s = .ok a u ∧ f a u = .ok b t := by
  rw [bind_apply] at h
  cases hm : m s with
  | ok a u =>
    rw [hm] at h
    exact ⟨a,u,rfl,h⟩
  | error e u =>
    rw [hm] at h
    cases h

/-- The state a run ends in, whether it returns or fails. -/
def final : EStateM.Result ε σ α → σ
  | .ok _ s => s
  | .error _ s => s

@[simp] theorem final_ok (a : α) (s : σ) : final (.ok a s : EStateM.Result ε σ α) = s := rfl

@[simp] theorem final_error (e : ε) (s : σ) : final (.error e s : EStateM.Result ε σ α) = s := rfl

/-! ## Triples -/

/-- From a state in `P`, `m` returns a value and a state in `Q` or fails in `E`. -/
def Triple (P : σ → Prop) (m : EStateM ε σ α) (Q : α → σ → Prop) (E : ε → σ → Prop) : Prop :=
  ∀ s, P s → match m s with
    | .ok a t => Q a t
    | .error e t => E e t

section Triple
variable {P : σ → Prop} {Q : α → σ → Prop} {E : ε → σ → Prop}

theorem Triple.pure {a : α} (h : ∀ s, P s → Q a s) :
    Triple P (Pure.pure a : EStateM ε σ α) Q E := h

theorem Triple.throw {e : ε} (h : ∀ s, P s → E e s) :
    Triple P (MonadExcept.throw e : EStateM ε σ α) Q E := h

theorem Triple.bind {m : EStateM ε σ β} {f : β → EStateM ε σ α} {R : β → σ → Prop}
    (hm : Triple P m R E) (hf : ∀ b, Triple (R b) (f b) Q E) : Triple P (m >>= f) Q E := by
  intro s hs
  have h := hm s hs
  rw [bind_apply]
  cases hms : m s with
  | ok a t => rw [hms] at h; exact hf a t h
  | error e t => rw [hms] at h; exact h

theorem Triple.get {f : σ → EStateM ε σ α} (h : ∀ s, P s → Triple (· = s) (f s) Q E) :
    Triple P (MonadState.get >>= f) Q E :=
  fun s hs => h s hs s rfl

theorem Triple.modify {g : σ → σ} {Q : Unit → σ → Prop} (h : ∀ s, P s → Q () (g s)) :
    Triple P (modify g : EStateM ε σ Unit) Q E := h

theorem Triple.mono {m : EStateM ε σ α} {P' : σ → Prop} {Q' : α → σ → Prop} {E' : ε → σ → Prop}
    (h : Triple P' m Q' E') (hP : ∀ s, P s → P' s) (hQ : ∀ a s, Q' a s → Q a s)
    (hE : ∀ e s, E' e s → E e s) : Triple P m Q E := by
  intro s hs
  have h := h s (hP s hs)
  cases hms : m s with
  | ok a t => rw [hms] at h; exact hQ a t h
  | error e t => rw [hms] at h; exact hE e t h

end Triple

/-! ## Invariants -/

/-- `m` keeps `I`, whether it returns or fails. -/
def Keeps (I : σ → Prop) (m : EStateM ε σ α) : Prop :=
  Triple I m (fun _ => I) (fun _ => I)

section Keeps
variable {I : σ → Prop}

theorem Keeps.final {m : EStateM ε σ α} (h : Keeps I m) {s : σ} (hs : I s) :
    I (Effect.final (m s)) := by
  have h := h s hs
  cases hms : m s with
  | ok a t => rw [hms] at h; exact h
  | error e t => rw [hms] at h; exact h

theorem Keeps.pure (a : α) : Keeps I (Pure.pure a : EStateM ε σ α) := fun _ hs => hs

theorem Keeps.throw (e : ε) : Keeps I (MonadExcept.throw e : EStateM ε σ α) := fun _ hs => hs

theorem Keeps.bind {m : EStateM ε σ β} {f : β → EStateM ε σ α} (hm : Keeps I m)
    (hf : ∀ b, Keeps I (f b)) : Keeps I (m >>= f) := Triple.bind hm hf

theorem Keeps.ite {c : Prop} [Decidable c] {m n : EStateM ε σ α} (hm : Keeps I m)
    (hn : Keeps I n) : Keeps I (if c then m else n) := by
  split
  · exact hm
  · exact hn

end Keeps

/-! ## Simulation -/

/-- Every run of `m` from a state related by `R` is matched by `n`: values related by `V`, equal
errors, related final states. Nothing is asked of a run of `m` that fails in `stuck`. -/
def Simulates (R : σ → τ → Prop) (stuck : ε → Prop) (V : α → β → Prop)
    (m : EStateM ε σ α) (n : EStateM ε τ β) : Prop :=
  ∀ s t, R s t → match m s with
    | .ok a s' => ∃ b t', n t = .ok b t' ∧ V a b ∧ R s' t'
    | .error e s' => stuck e ∨ ∃ t', n t = .error e t' ∧ R s' t'

section Simulates
variable {R : σ → τ → Prop} {stuck : ε → Prop}

theorem Simulates.pure {V : α → β → Prop} {a : α} {b : β} (h : V a b) :
    Simulates R stuck V (Pure.pure a) (Pure.pure b) :=
  fun _ t hst => ⟨b,t,rfl,h,hst⟩

theorem Simulates.throw {V : α → β → Prop} (e : ε) :
    Simulates R stuck V (MonadExcept.throw e) (MonadExcept.throw e) :=
  fun _ t hst => Or.inr ⟨t,rfl,hst⟩

theorem Simulates.bind {V : α → β → Prop} {W : γ → δ → Prop}
    {m : EStateM ε σ α} {n : EStateM ε τ β} {f : α → EStateM ε σ γ} {g : β → EStateM ε τ δ}
    (hm : Simulates R stuck V m n) (hf : ∀ a b, V a b → Simulates R stuck W (f a) (g b)) :
    Simulates R stuck W (m >>= f) (n >>= g) := by
  intro s t hst
  have h := hm s t hst
  cases hms : m s with
  | ok a s' =>
    rw [hms] at h
    obtain ⟨b,t',hn,hv,hr⟩ := h
    rw [bind_ok hms,bind_ok hn]
    exact hf a b hv s' t' hr
  | error e s' =>
    rw [hms] at h
    rw [bind_error hms]
    rcases h with hs | ⟨t',hn,hr⟩
    · exact Or.inl hs
    · exact Or.inr ⟨t',bind_error hn,hr⟩

theorem Simulates.mono {V W : α → β → Prop} {m : EStateM ε σ α} {n : EStateM ε τ β}
    (h : Simulates R stuck V m n) (hv : ∀ a b, V a b → W a b) : Simulates R stuck W m n := by
  intro s t hst
  have h := h s t hst
  cases hms : m s with
  | ok a s' =>
    rw [hms] at h
    obtain ⟨b,t',hn,hab,hr⟩ := h
    exact ⟨b,t',hn,hv a b hab,hr⟩
  | error e s' =>
    rw [hms] at h
    exact h

theorem Simulates.ite {V : α → β → Prop} {c : Prop} [Decidable c]
    {m m' : EStateM ε σ α} {n n' : EStateM ε τ β} (hm : Simulates R stuck V m n)
    (hn : Simulates R stuck V m' n') :
    Simulates R stuck V (if c then m else m') (if c then n else n') := by
  split
  · exact hm
  · exact hn

/-- A simulation that is never stuck carries results back. -/
theorem Simulates.eq_ok {m : EStateM ε σ α} {n : EStateM ε τ α}
    (h : Simulates R (fun _ => False) Eq m n) {s : σ} {t t' : τ} {a : α} (hst : R s t)
    (hn : n t = .ok a t') : ∃ s', m s = .ok a s' ∧ R s' t' := by
  have h := h s t hst
  rw [hn] at h
  cases hm : m s with
  | ok b s' =>
    rw [hm] at h
    simp only [EStateM.Result.ok.injEq] at h
    obtain ⟨_,_,⟨rfl,rfl⟩,rfl,hr⟩ := h
    exact ⟨s',rfl,hr⟩
  | error e s' => simp [hm] at h

theorem Simulates.eq_error {V : α → β → Prop} {m : EStateM ε σ α} {n : EStateM ε τ β}
    (h : Simulates R (fun _ => False) V m n) {s : σ} {t t' : τ} {e : ε} (hst : R s t)
    (hn : n t = .error e t') : ∃ s', m s = .error e s' ∧ R s' t' := by
  have h := h s t hst
  rw [hn] at h
  cases hm : m s with
  | ok b s' => simp [hm] at h
  | error e' s' =>
    rw [hm] at h
    simp only [false_or,EStateM.Result.error.injEq] at h
    obtain ⟨_,⟨rfl,rfl⟩,hr⟩ := h
    exact ⟨s',rfl,hr⟩

theorem Keeps.simulates {I : σ → Prop} {m : EStateM ε σ α} (h : Keeps I m) :
    Simulates (fun s t => s = t ∧ I s) stuck Eq m m := by
  rintro s _ ⟨rfl,hs⟩
  have h := h s hs
  cases hms : m s with
  | ok a t => rw [hms] at h; exact ⟨a,t,rfl,rfl,rfl,h⟩
  | error e t => rw [hms] at h; exact Or.inr ⟨t,rfl,rfl,h⟩

theorem Simulates.keeps {I : σ → Prop} {m : EStateM ε σ α}
    (h : Simulates (fun s t => s = t ∧ I s) (fun _ => False) Eq m m) : Keeps I m := by
  intro s hs
  have h := h s s ⟨rfl,hs⟩
  cases hms : m s with
  | ok a t =>
    rw [hms] at h
    obtain ⟨_,_,-,-,-,ht⟩ := h
    exact ht
  | error e t =>
    rw [hms] at h
    rcases h with h | ⟨_,-,-,ht⟩
    · exact h.elim
    · exact ht

end Simulates

end Rmbtd.Effect
