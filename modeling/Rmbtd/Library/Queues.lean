import Rmbtd.Library.Transition

/-!
# Banks of queues

A family of unbounded first-in-first-out queues as a transition system. Whatever is put into a queue
comes out of it in the same order, is thrown away with all that is left, or is still there.
-/

namespace Rmbtd.Queues

open Transition

variable {ι α : Type}

/-- An operation on one of the queues. `take` says what comes out, and `discard` what is thrown away. -/
inductive Op (ι α : Type)
  | put (i : ι) (a : α)
  | take (i : ι) (a : α)
  | discard (i : ι) (as : List α)

/-- The contents of each queue. -/
abbrev Bank (ι α : Type) := ι → List α

def Bank.empty : Bank ι α := fun _ => []

section
variable [DecidableEq ι]

def Bank.set (q : Bank ι α) (i : ι) (as : List α) : Bank ι α := fun j => if j = i then as else q j

variable [DecidableEq α]

def step (q : Bank ι α) : Op ι α → Option (Bank ι α)
  | .put i a => some (q.set i (q i ++ [a]))
  | .take i a => if (q i).head? = some a then some (q.set i (q i).tail) else none
  | .discard i as => if q i = as then some (q.set i []) else none

def Op.into (i : ι) : Op ι α → List α
  | .put j a => if j = i then [a] else []
  | .take _ _ => []
  | .discard _ _ => []

def Op.outOf (i : ι) : Op ι α → List α
  | .put _ _ => []
  | .take j a => if j = i then [a] else []
  | .discard j as => if j = i then as else []

omit [DecidableEq α] in
@[simp] theorem Bank.set_self (q : Bank ι α) (i : ι) (as : List α) : q.set i as i = as := if_pos rfl

omit [DecidableEq α] in
theorem Bank.set_of_ne {q : Bank ι α} {i j : ι} (h : j ≠ i) (as : List α) : q.set i as j = q j := if_neg h

omit [DecidableEq α] in
theorem Bank.set_eq {q q' : Bank ι α} {i : ι} {as : List α} (hi : q' i = as)
    (hother : ∀ j ≠ i, q' j = q j) : q.set i as = q' := by
  funext j
  by_cases hj : j = i
  · subst hj
    rw [set_self,hi]
  · rw [set_of_ne hj,hother j hj]

theorem step_take {q : Bank ι α} {i : ι} {a : α} {as : List α} (h : q i = a::as) :
    step q (.take i a) = some (q.set i as) := by
  rw [step,h,if_pos List.head?_cons,List.tail_cons]

theorem step_discard (q : Bank ι α) (i : ι) : step q (.discard i (q i)) = some (q.set i []) := if_pos rfl

theorem step_conserves {q q' : Bank ι α} {op : Op ι α} (h : step q op = some q') (i : ι) :
    q i ++ op.into i = op.outOf i ++ q' i := by
  cases op with
  | put j a =>
    cases h
    by_cases hj : j = i
    · subst hj
      simp [Op.into,Op.outOf]
    · simp [Op.into,Op.outOf,hj,Bank.set_of_ne (Ne.symm hj)]
  | take j a =>
    simp only [step] at h
    split at h
    · next hhead =>
      cases h
      by_cases hj : j = i
      · subst hj
        obtain ⟨as,has⟩ : ∃ as, q j = a::as := by
          cases hq : q j with
          | nil =>
            rw [hq] at hhead
            cases hhead
          | cons b as =>
            rw [hq] at hhead
            cases hhead
            exact ⟨as,rfl⟩
        simp [Op.into,Op.outOf,has]
      · simp [Op.into,Op.outOf,hj,Bank.set_of_ne (Ne.symm hj)]
    · cases h
  | discard j as =>
    simp only [step] at h
    split at h
    · next heq =>
      cases h
      by_cases hj : j = i
      · subst hj
        simp [Op.into,Op.outOf,heq]
      · simp [Op.into,Op.outOf,hj,Bank.set_of_ne (Ne.symm hj)]
    · cases h

/-- What is put into a queue that was empty is what came out of it and what is left, in order. -/
theorem exec_conserves {q q' : Bank ι α} {ops : List (Op ι α)} (h : exec step q ops = some q') (i : ι) :
    q i ++ ops.flatMap (Op.into i) = ops.flatMap (Op.outOf i) ++ q' i := by
  induction ops generalizing q with
  | nil =>
    cases h
    simp
  | cons op ops ih =>
    obtain ⟨r,hr,hrest⟩ := Option.bind_eq_some_iff.mp h
    rw [List.flatMap_cons,List.flatMap_cons,← List.append_assoc,step_conserves hr,List.append_assoc,
      ih hrest,List.append_assoc]

end

end Rmbtd.Queues
