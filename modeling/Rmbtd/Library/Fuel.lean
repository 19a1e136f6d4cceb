import Rmbtd.Library.Effect

/-!
# Programs with fuel

Total correctness of programs whose loops are bounded by fuel: some fuel is enough, and more of it
changes nothing. The result is then the one the loops without fuel give.
-/

namespace Rmbtd.Effect

variable {ε σ α β : Type}

/-- What a run ends in: a value and a state in `Q`, or an error in `E`. -/
def EndsIn (Q : α → σ → Prop) (E : ε → Prop) : EStateM.Result ε σ α → Prop
  | .ok a t => Q a t
  | .error e _ => E e

/-- From `s` the program ends, with every fuel that is enough, in one and the same result. -/
def Ends (m : Nat → EStateM ε σ α) (s : σ) (Q : α → σ → Prop) (E : ε → Prop) : Prop :=
  ∃ r enough, EndsIn Q E r ∧ ∀ fuel, enough ≤ fuel → m fuel s = r

namespace Ends

variable {m : Nat → EStateM ε σ α} {s : σ} {Q : α → σ → Prop} {E : ε → Prop}

theorem const {m : EStateM ε σ α} (h : EndsIn Q E (m s)) : Ends (fun _ => m) s Q E :=
  ⟨m s,0,h,fun _ _ => rfl⟩

theorem pure {a : α} (h : Q a s) : Ends (fun _ => Pure.pure a : Nat → EStateM ε σ α) s Q E := const h

theorem throw {e : ε} (h : E e) : Ends (fun _ => MonadExcept.throw e : Nat → EStateM ε σ α) s Q E :=
  const h

theorem bind {f : Nat → α → EStateM ε σ β} {Q' : β → σ → Prop} (hm : Ends m s Q E)
    (hf : ∀ a t, Q a t → Ends (fun fuel => f fuel a) t Q' E) :
    Ends (fun fuel => m fuel >>= f fuel) s Q' E := by
  obtain ⟨r,enough,hr,hrun⟩ := hm
  cases r with
  | ok a t =>
    obtain ⟨r',enough',hr',hrun'⟩ := hf a t hr
    refine ⟨r',max enough enough',hr',?_⟩
    intro fuel hfuel
    have hm := hrun fuel (Nat.le_trans (Nat.le_max_left _ _) hfuel)
    exact (bind_ok hm).trans (hrun' fuel (Nat.le_trans (Nat.le_max_right _ _) hfuel))
  | error e t =>
    refine ⟨.error e t,enough,hr,?_⟩
    intro fuel hfuel
    exact bind_error (hrun fuel hfuel)

theorem succ {n : Nat → EStateM ε σ α} (h : ∀ fuel, m (fuel+1) = n fuel) (hn : Ends n s Q E) :
    Ends m s Q E := by
  obtain ⟨r,enough,hr,hrun⟩ := hn
  refine ⟨r,enough+1,hr,?_⟩
  intro fuel hfuel
  obtain ⟨left,rfl⟩ := Nat.exists_eq_add_of_le' hfuel
  rw [← Nat.add_assoc,h]
  exact hrun _ (Nat.le_add_left _ _)

theorem through {ε' τ : Type} {n : Nat → EStateM ε' τ β} {t : τ} {Q' : β → τ → Prop}
    {E' : ε' → Prop} (h : Ends m s Q E) (k : EStateM.Result ε σ α → EStateM.Result ε' τ β)
    (hn : ∀ fuel, n fuel t = k (m fuel s)) (hk : ∀ r, EndsIn Q E r → EndsIn Q' E' (k r)) :
    Ends n t Q' E' := by
  obtain ⟨r,enough,hr,hrun⟩ := h
  refine ⟨k r,enough,hk r hr,?_⟩
  intro fuel hfuel
  rw [hn,hrun fuel hfuel]

theorem mono {Q' : α → σ → Prop} (h : Ends m s Q E) (hQ : ∀ a t, Q a t → Q' a t) :
    Ends m s Q' E := by
  apply h.through id fun _ => rfl
  intro r hr
  cases r with
  | ok a t => exact hQ a t hr
  | error e t => exact hr

theorem ite {c : Prop} [Decidable c] {n : Nat → EStateM ε σ α} (hm : c → Ends m s Q E)
    (hn : ¬c → Ends n s Q E) : Ends (fun fuel => if c then m fuel else n fuel) s Q E := by
  by_cases hc : c
  · simpa only [if_pos hc] using hm hc
  · simpa only [if_neg hc] using hn hc

end Ends

end Rmbtd.Effect
