import Rmbtd.Library.Effect

/-!
# Transcripts

What a program performs as a word of operations. A run that returns performs a whole word of the
program's language; a run that stops has performed the part of a word before the operation it
stopped at. The rule for a sequence asks of the rest of the program what is left of the word.
-/

namespace Rmbtd.Effect

/-- How states record operations: `Done` from one state to another, `Broken` for the operation a
run stops at. The context is what the words of a program depend on. -/
structure Recorder (ε σ κ ω : Type) where
  context : σ → κ
  Done : σ → List ω → σ → Prop
  Broken : ε → σ → ω → σ → Prop
  context_surjective : ∀ n, ∃ s, context s = n
  done_nil : ∀ s, Done s [] s
  done_append : ∀ {s t u ops ops'}, Done s ops t → Done t ops' u → Done s (ops ++ ops') u

variable {ε σ κ ω α β : Type}

/-- The result of a run from `s`: a whole word of `L`, which also tells the value returned and the
context after it, or a part of one. -/
def Performed (R : Recorder ε σ κ ω) (s : σ) (r : EStateM.Result ε σ α)
    (L : α → List ω → κ → Prop) : Prop :=
  match r with
  | .ok a t => ∃ ops, L a ops (R.context t) ∧ R.Done s ops t
  | .error e t => ∃ done op rest a n u,
      L a (done ++ op::rest) n ∧ R.Done s done u ∧ R.Broken e u op t

/-- From the context `n` the program performs the words of `L`. -/
def Performs (R : Recorder ε σ κ ω) (n : κ) (m : EStateM ε σ α) (L : α → List ω → κ → Prop) :
    Prop :=
  ∀ s, R.context s = n → Performed R s (m s) L

variable {R : Recorder ε σ κ ω} {n : κ}

theorem Performed.after {s t : σ} {ops : List ω} (h : R.Done s ops t)
    {r : EStateM.Result ε σ β} {K : β → List ω → κ → Prop}
    (hr : Performed R t r fun b ops' => K b (ops ++ ops')) : Performed R s r K := by
  cases r with
  | ok b u =>
    obtain ⟨ops',hK,hdone⟩ := hr
    exact ⟨ops ++ ops',hK,R.done_append h hdone⟩
  | error e u =>
    obtain ⟨done,op,rest,b,n',v,hK,hdone,hbroken⟩ := hr
    rw [← List.append_assoc] at hK
    exact ⟨ops ++ done,op,rest,b,n',v,hK,R.done_append h hdone,hbroken⟩

namespace Performs

theorem inhabited {m : EStateM ε σ α} {L : α → List ω → κ → Prop} (h : Performs R n m L) :
    ∃ a ops n', L a ops n' := by
  obtain ⟨s,hs⟩ := R.context_surjective n
  have h := h s hs
  cases hm : m s with
  | ok a t =>
    rw [hm] at h
    obtain ⟨ops,hL,-⟩ := h
    exact ⟨a,ops,_,hL⟩
  | error e t =>
    rw [hm] at h
    obtain ⟨done,op,rest,a,n',u,hL,-⟩ := h
    exact ⟨a,_,n',hL⟩

theorem pure {a : α} {L : α → List ω → κ → Prop} (h : L a [] n) :
    Performs R n (Pure.pure a) L := by
  intro s hs
  subst hs
  exact ⟨[],h,R.done_nil s⟩

theorem throw {e : ε} {L : α → List ω → κ → Prop} {a : α} {op : ω} {rest : List ω} {n' : κ}
    (hL : L a (op::rest) n') (hbroken : ∀ s, R.Broken e s op s) :
    Performs R n (MonadExcept.throw e) L :=
  fun s _ => ⟨[],op,rest,a,n',s,hL,R.done_nil s,hbroken s⟩

theorem mono {m : EStateM ε σ α} {L K : α → List ω → κ → Prop} (h : Performs R n m L)
    (hLK : ∀ a ops n', L a ops n' → K a ops n') : Performs R n m K := by
  intro s hs
  have h := h s hs
  cases hm : m s with
  | ok a t =>
    rw [hm] at h
    obtain ⟨ops,hL,hdone⟩ := h
    exact ⟨ops,hLK _ _ _ hL,hdone⟩
  | error e t =>
    rw [hm] at h
    obtain ⟨done,op,rest,a,n',u,hL,hdone,hbroken⟩ := h
    exact ⟨done,op,rest,a,n',u,hLK _ _ _ hL,hdone,hbroken⟩

/-- After a word of the first program the second one performs what is left of a word of `K`. -/
theorem bind {m : EStateM ε σ α} {f : α → EStateM ε σ β} {L : α → List ω → κ → Prop}
    {K : β → List ω → κ → Prop} (hm : Performs R n m L)
    (hf : ∀ a ops n', L a ops n' → Performs R n' (f a) fun b ops' => K b (ops ++ ops')) :
    Performs R n (m >>= f) K := by
  intro s hs
  have h := hm s hs
  cases hms : m s with
  | ok a t =>
    rw [hms] at h
    obtain ⟨ops,hL,hdone⟩ := h
    rw [bind_ok hms]
    exact .after hdone (hf a ops _ hL t rfl)
  | error e t =>
    rw [hms] at h
    rw [bind_error hms]
    obtain ⟨done,op,rest,a,n',u,hL,hdone,hbroken⟩ := h
    -- some word of the second program completes the one that broke
    obtain ⟨b,ops',n'',hK⟩ := (hf a _ n' hL).inhabited
    rw [List.append_assoc,List.cons_append] at hK
    exact ⟨done,op,rest ++ ops',b,n'',u,hK,hdone,hbroken⟩

end Performs

end Rmbtd.Effect
