import Rmbtd.Library.Effect

/-!
# Two runs side by side

How the results of two runs from given states compare. A simulation says it of every pair of related
states; here a hypothesis may speak of the one pair the runs start from.
-/

namespace Rmbtd.Effect

variable {ε σ τ α β γ δ : Type}

/-- Both runs return, or both fail with one error, and the states they end in are related. -/
inductive Matched (R : σ → τ → Prop) (V : α → β → Prop) :
    EStateM.Result ε σ α → EStateM.Result ε τ β → Prop
  | ok {a : α} {b : β} {s : σ} {t : τ} : V a b → R s t → Matched R V (.ok a s) (.ok b t)
  | error {e : ε} {s : σ} {t : τ} : R s t → Matched R V (.error e s) (.error e t)

section
variable {R S : σ → τ → Prop} {V : α → β → Prop}

/-- A simulation that is never stuck. -/
theorem Simulates.matched {stuck : ε → Prop} {m : EStateM ε σ α} {n : EStateM ε τ β} {s : σ} {t : τ}
    (h : Simulates R stuck V m n) (hstuck : ∀ e, ¬stuck e) (hst : R s t) :
    Matched R V (m s) (n t) := by
  have h := h s t hst
  cases hm : m s with
  | ok a s' =>
    rw [hm] at h
    obtain ⟨b,t',hn,hv,hr⟩ := h
    rw [hn]
    exact .ok hv hr
  | error e s' =>
    rw [hm] at h
    obtain ⟨t',hn,hr⟩ := h.resolve_left (hstuck e)
    rw [hn]
    exact .error hr

theorem Simulates.of_matched {stuck : ε → Prop} {m : EStateM ε σ α} {n : EStateM ε τ β}
    (h : ∀ s t, R s t → Matched R V (m s) (n t)) : Simulates R stuck V m n := by
  intro s t hst
  have h := h s t hst
  cases hm : m s with
  | ok a s' =>
    rw [hm] at h
    cases hn : n t with
    | ok b t' =>
      rw [hn] at h
      cases h with
      | ok hv hr => exact ⟨b,t',rfl,hv,hr⟩
    | error e t' =>
      rw [hn] at h
      cases h
  | error e s' =>
    rw [hm] at h
    cases hn : n t with
    | ok b t' =>
      rw [hn] at h
      cases h
    | error e' t' =>
      rw [hn] at h
      cases h with
      | error hr => exact Or.inr ⟨t',rfl,hr⟩

namespace Matched

theorem mono {W : α → β → Prop} {r : EStateM.Result ε σ α} {r' : EStateM.Result ε τ β}
    (h : Matched R V r r') (hv : ∀ a b, V a b → W a b) (hr : ∀ s t, R s t → S s t) :
    Matched S W r r' := by
  cases h with
  | ok h hst => exact .ok (hv _ _ h) (hr _ _ hst)
  | error hst => exact .error (hr _ _ hst)

theorem bind {W : γ → δ → Prop} {m : EStateM ε σ α} {n : EStateM ε τ β} {f : α → EStateM ε σ γ}
    {g : β → EStateM ε τ δ} {s : σ} {t : τ} (h : Matched R V (m s) (n t)) (hr : ∀ s t, R s t → S s t)
    (hf : ∀ a b s' t', m s = .ok a s' → n t = .ok b t' → V a b → R s' t' →
      Matched S W (f a s') (g b t')) : Matched S W ((m >>= f) s) ((n >>= g) t) := by
  rw [bind_apply,bind_apply]
  cases hm : m s with
  | ok a s' =>
    rw [hm] at h
    cases hn : n t with
    | ok b t' =>
      rw [hn] at h
      cases h with
      | ok hv hst => exact hf a b s' t' hm hn hv hst
    | error e t' =>
      rw [hn] at h
      cases h
  | error e s' =>
    rw [hm] at h
    cases hn : n t with
    | ok b t' =>
      rw [hn] at h
      cases h
    | error e' t' =>
      rw [hn] at h
      cases h with
      | error hst => exact .error (hr _ _ hst)

end Matched

end

end Rmbtd.Effect
