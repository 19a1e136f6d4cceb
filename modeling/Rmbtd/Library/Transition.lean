import Mathlib.Algebra.GroupWithZero.Nat
import Mathlib.Tactic.Common

/-!
# Runs of a transition system

A step function on labelled transitions, runs all of whose steps meet a side condition, and the
induction that carries an invariant along a run.
-/

namespace Rmbtd.Transition

variable {σ ℓ : Type}

/-- A run from `s` under the labels `ls`, every step of which meets `C`. -/
inductive Run (step : σ → ℓ → Option σ) (C : σ → ℓ → Prop) (s : σ) : List ℓ → σ → Prop
  | nil : Run step C s [] s
  | snoc {ls : List ℓ} {l : ℓ} {t u : σ} (run : Run step C s ls t) (cond : C t l)
      (step_eq : step t l = some u) : Run step C s (ls ++ [l]) u

section Run
variable {step : σ → ℓ → Option σ} {C : σ → ℓ → Prop} {s t : σ} {ls : List ℓ}

theorem Run.mono {D : σ → ℓ → Prop} (h : ∀ u l, C u l → D u l) (r : Run step C s ls t) :
    Run step D s ls t := by
  induction r with
  | nil => exact .nil
  | snoc _ hc hs ih => exact ih.snoc (h _ _ hc) hs

/-- An invariant that every step meeting the side condition keeps holds at the end of a run. -/
theorem Run.invariant {I : σ → Prop} (r : Run step C s ls t) (h0 : I s)
    (hstep : ∀ u l v, C u l → I u → step u l = some v → I v) : I t := by
  induction r with
  | nil => exact h0
  | snoc _ hc hs ih => exact hstep _ _ _ hc ih hs

theorem Run.trans {u : σ} {ms : List ℓ} (r : Run step C s ls t) (q : Run step C t ms u) :
    Run step C s (ls ++ ms) u := by
  induction q with
  | nil => simpa using r
  | snoc _ hc hs ih =>
    rw [← List.append_assoc]
    exact ih.snoc hc hs

end Run

/-- Execute the labels in order, stopping at the first one that is not enabled. -/
def exec (step : σ → ℓ → Option σ) : σ → List ℓ → Option σ
  | s, [] => some s
  | s, l::ls => (step s l).bind fun t => exec step t ls

theorem run_of_exec {step : σ → ℓ → Option σ} {s t : σ} {ls : List ℓ} (h : exec step s ls = some t) :
    Run step (fun _ _ => True) s ls t := by
  induction ls generalizing s with
  | nil =>
    cases h
    exact .nil
  | cons l ls ih =>
    obtain ⟨u,hu,ht⟩ := Option.bind_eq_some_iff.mp h
    have hone : Run step (fun _ _ => True) s ([] ++ [l]) u := Run.nil.snoc trivial hu
    exact hone.trans (ih ht)

theorem exec_append {step : σ → ℓ → Option σ} {s : σ} {ls ms : List ℓ} :
    exec step s (ls ++ ms) = (exec step s ls).bind fun t => exec step t ms := by
  induction ls generalizing s with
  | nil => rfl
  | cons l ls ih =>
    rw [List.cons_append,exec,exec]
    cases step s l with
    | none => rfl
    | some t => exact ih

theorem exec_snoc {step : σ → ℓ → Option σ} {s t u : σ} {ls : List ℓ} {l : ℓ}
    (h : exec step s ls = some t) (hl : step t l = some u) : exec step s (ls ++ [l]) = some u := by
  rw [exec_append,h,Option.bind_some,exec,hl]
  rfl

theorem exec_split {step : σ → ℓ → Option σ} {s u : σ} {ls ms : List ℓ} {l : ℓ}
    (h : exec step s (ls ++ l::ms) = some u) :
    ∃ t t', exec step s ls = some t ∧ step t l = some t' ∧ exec step t' ms = some u := by
  rw [exec_append] at h
  obtain ⟨t,ht,h⟩ := Option.bind_eq_some_iff.mp h
  obtain ⟨t',ht',h⟩ := Option.bind_eq_some_iff.mp h
  exact ⟨t,t',ht,ht',h⟩

theorem Run.exec_eq {step : σ → ℓ → Option σ} {C : σ → ℓ → Prop} {s t : σ} {ls : List ℓ}
    (r : Run step C s ls t) : exec step s ls = some t := by
  induction r with
  | nil => rfl
  | snoc _ _ hs ih => exact exec_snoc ih hs

/-- Execute the labels in order, stopping at the first step that is not enabled or not allowed. -/
def execIf (step : σ → ℓ → Option σ) (C : σ → ℓ → Prop) [∀ s l, Decidable (C s l)] : σ → List ℓ → Option σ
  | s, [] => some s
  | s, l::ls => if C s l then (step s l).bind fun t => execIf step C t ls else none

theorem run_of_execIf {step : σ → ℓ → Option σ} {C : σ → ℓ → Prop} [∀ s l, Decidable (C s l)] {s t : σ}
    {ls : List ℓ} (h : execIf step C s ls = some t) : Run step C s ls t := by
  induction ls generalizing s with
  | nil =>
    cases h
    exact .nil
  | cons l ls ih =>
    rw [execIf] at h
    split at h
    · next hc =>
      obtain ⟨u,hu,ht⟩ := Option.bind_eq_some_iff.mp h
      have hone : Run step C s ([] ++ [l]) u := Run.nil.snoc hc hu
      exact hone.trans (ih ht)
    · cases h

/-! ## What a run shows -/

section Shown
variable {ω : Type} {step : σ → ℓ → Option σ} {shows : σ → ℓ → List ω} {C : σ → ℓ → Prop} {s t : σ}
  {ls : List ℓ} {l : ℓ}

/-- What the steps of an execution show, one after the other. -/
def shown (step : σ → ℓ → Option σ) (shows : σ → ℓ → List ω) : σ → List ℓ → List ω
  | _, [] => []
  | s, l::ls => shows s l ++ match step s l with
    | some t => shown step shows t ls
    | none => []

theorem shown_append {ms : List ℓ} (h : exec step s ls = some t) :
    shown step shows s (ls ++ ms) = shown step shows s ls ++ shown step shows t ms := by
  induction ls generalizing s with
  | nil =>
    cases h
    rfl
  | cons m ls ih =>
    obtain ⟨u,hu,ht⟩ := Option.bind_eq_some_iff.mp h
    rw [List.cons_append,shown,shown,hu]
    simp only [ih ht,List.append_assoc]

theorem shown_snoc (h : exec step s ls = some t) :
    shown step shows s (ls ++ [l]) = shown step shows s ls ++ shows t l := by
  rw [shown_append h]
  cases hstep : step t l <;> simp [shown,hstep]

theorem Run.invariant_shown {I : List ω → σ → Prop} (r : Run step C s ls t) (h0 : I [] s)
    (hstep : ∀ os u l v, C u l → I os u → step u l = some v → I (os ++ shows u l) v) :
    I (shown step shows s ls) t := by
  induction r with
  | nil => exact h0
  | snoc r hc hs ih =>
    rw [shown_snoc r.exec_eq]
    exact hstep _ _ _ _ hc ih hs

/-- The steps of a run are matched by executions of another system. -/
theorem Run.simulates {τ κ : Type} {step' : τ → κ → Option τ} {labels : σ → ℓ → List κ} {f : σ → τ}
    (r : Run step C s ls t)
    (hstep : ∀ u l v, step u l = some v → exec step' (f u) (labels u l) = some (f v)) :
    exec step' (f s) (shown step labels s ls) = some (f t) := by
  apply r.invariant_shown (I := fun ks t => exec step' (f s) ks = some (f t))
  · rfl
  · intro ks u l v _ hu hv
    rw [exec_append,hu,Option.bind_some]
    exact hstep u l v hv

/-- Backward simulation: states related to the end of a run of another system are reached by runs that
show it, if they are at its start and every step can be taken back. -/
theorem Run.realised {τ κ : Type} {step' : τ → κ → Option τ} {C' : τ → κ → Prop} {labels : σ → ℓ → List κ}
    {R : List κ → τ → σ → Prop} {a b : τ} {ks : List κ} (r : Run step' C' a ks b)
    (hstart : ∀ u, R [] a u → ∃ ls, exec step s ls = some u ∧ shown step labels s ls = [])
    (hstep : ∀ ks b k c v, Run step' C' a ks b → step' b k = some c → R (ks ++ [k]) c v →
      ∃ u ls, R ks b u ∧ exec step u ls = some v ∧ shown step labels u ls = [k]) :
    ∀ u, R ks b u → ∃ ls, exec step s ls = some u ∧ shown step labels s ls = ks := by
  induction r with
  | nil => exact hstart
  | snoc r _ hs ih =>
    intro v hv
    obtain ⟨u,ms,hu,hexec,hshown⟩ := hstep _ _ _ _ v r hs hv
    obtain ⟨ls,hls,hshown'⟩ := ih u hu
    refine ⟨ls ++ ms,?_,?_⟩
    · rw [exec_append,hls]
      exact hexec
    · rw [shown_append hls,hshown',hshown]

end Shown

/-- Steps that cost something use up a measure, which other steps may add to. -/
theorem Run.cost_le_gain {step : σ → ℓ → Option σ} {C : σ → ℓ → Prop} {s t : σ} {ls : List ℓ} {I : σ → Prop}
    {m : σ → Nat} {cost gain : ℓ → Nat} (r : Run step C s ls t) (h0 : I s)
    (hstep : ∀ u l v, C u l → I u → step u l = some v → I v ∧ cost l + m v ≤ m u + gain l) :
    I t ∧ (ls.map cost).sum + m t ≤ m s + (ls.map gain).sum := by
  induction r with
  | nil => exact ⟨h0,by simp⟩
  | snoc _ hc hs ih =>
    obtain ⟨hI,hle⟩ := ih
    obtain ⟨hI',hle'⟩ := hstep _ _ _ hc hI hs
    refine ⟨hI',?_⟩
    rw [List.map_append,List.sum_append,List.map_cons,List.map_nil,List.sum_singleton]
    rw [List.map_append,List.sum_append,List.map_cons,List.map_nil,List.sum_singleton]
    omega

theorem Run.cost_le {step : σ → ℓ → Option σ} {C : σ → ℓ → Prop} {s t : σ} {ls : List ℓ} {I : σ → Prop}
    {m : σ → Nat} {cost : ℓ → Nat} (r : Run step C s ls t) (h0 : I s)
    (hstep : ∀ u l v, C u l → I u → step u l = some v → I v ∧ cost l + m v ≤ m u) :
    I t ∧ (ls.map cost).sum + m t ≤ m s := by
  obtain ⟨hI,hle⟩ := @Run.cost_le_gain _ _ step C s t ls I m cost (fun _ => 0) r h0 hstep
  have hgain : (ls.map fun _ => (0 : Nat)).sum = 0 := by
    rw [List.map_const',List.sum_replicate_nat,Nat.mul_zero]
  rw [hgain] at hle
  exact ⟨hI,hle⟩

end Rmbtd.Transition
