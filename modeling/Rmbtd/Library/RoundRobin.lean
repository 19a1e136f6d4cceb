import Mathlib.Data.Int.CardIntervalMod

/-!
# Taking turns

Participants that take turns in order: the turn with number `n` falls to the participant `n % size`.
-/

namespace Rmbtd.RoundRobin

variable {size n k : Nat}

/-- How many of the first `n` turns fall to a participant. -/
def turns (size n k : Nat) : Nat := n.count (· ≡ k [MOD size])

theorem turns_zero : turns size 0 k = 0 := Nat.count_zero _

theorem turns_mono {m : Nat} (h : m ≤ n) : turns size m k ≤ turns size n k := Nat.count_monotone _ h

theorem turns_succ_self (n : Nat) : turns size (n + 1) (n % size) = turns size n (n % size) + 1 := by
  have hself : n ≡ n % size [MOD size] := (Nat.mod_modEq n size).symm
  rw [turns,Nat.count_succ,if_pos hself]
  rfl

theorem turns_succ_other (hk : k < size) (hne : k ≠ n % size) :
    turns size (n + 1) k = turns size n k := by
  have hother : ¬n ≡ k [MOD size] := by
    intro h
    rw [Nat.ModEq,Nat.mod_eq_of_lt hk] at h
    exact hne h.symm
  rw [turns,Nat.count_succ,if_neg hother]
  rfl

section
variable (hsize : 0 < size)
include hsize

theorem le_turns (n k : Nat) : n / size ≤ turns size n k := by
  rw [turns,Nat.count_modEq_card n hsize]
  exact Nat.le_add_right _ _

theorem turns_current (n : Nat) : turns size n (n % size) = n / size := by
  rw [turns,Nat.count_modEq_card n hsize,Nat.mod_mod,if_neg (Nat.lt_irrefl _),Nat.add_zero]

/-- In `c` rounds each participant has `c` turns. -/
theorem turns_add_mul (n c k : Nat) : turns size (n + c * size) k = turns size n k + c := by
  rw [turns,turns,Nat.count_modEq_card _ hsize,Nat.count_modEq_card _ hsize,Nat.add_mul_mod_self_right,
    Nat.add_mul_div_right _ _ hsize]
  omega

end

/-! ## Counts that differ by one -/

/-- Counts that grow in turn: in the order of the turns to come they do not decrease, and they differ by at
most one. -/
structure Ordered (size n : Nat) (count : Nat → Nat) : Prop where
  mono : ∀ a b, a ≤ b → b < size → count ((n + a) % size) ≤ count ((n + b) % size)
  spread : ∀ a, a < size → count ((n + a) % size) ≤ count (n % size) + 1

theorem exists_turn (n : Nat) (hk : k < size) : ∃ a < size, (n + a) % size = k := by
  have hn := Nat.div_add_mod n size
  have hlt : n % size < size := Nat.mod_lt _ (by omega)
  by_cases hle : n % size ≤ k
  · refine ⟨k - n % size,by omega,?_⟩
    have hsum : n + (k - n % size) = size * (n / size) + k := by omega
    rw [hsum,Nat.mul_add_mod,Nat.mod_eq_of_lt hk]
  · refine ⟨k + size - n % size,by omega,?_⟩
    have hsum : n + (k + size - n % size) = size * (n / size) + (k + size) := by omega
    rw [hsum,Nat.mul_add_mod,Nat.add_mod_right,Nat.mod_eq_of_lt hk]

private theorem turn_ne {a : Nat} (ha : 0 < a) (hlt : a < size) : (n + a) % size ≠ n % size := by
  intro h
  have hzero : a ≡ 0 [MOD size] := Nat.ModEq.add_left_cancel' n h
  rw [Nat.ModEq,Nat.mod_eq_of_lt hlt,Nat.zero_mod] at hzero
  omega

namespace Ordered
variable {count : Nat → Nat}

theorem least (h : Ordered size n count) (hk : k < size) : count (n % size) ≤ count k := by
  obtain ⟨a,ha,rfl⟩ := exists_turn n hk
  exact h.mono 0 a (Nat.zero_le a) ha

theorem take (hsize : 0 < size) (h : Ordered size n count) :
    Ordered size (n + 1) fun k => count k + if k = n % size then 1 else 0 := by
  have hleast := h.least (Nat.mod_lt (n + 1) hsize)
  have hlast {a : Nat} (ha : a + 1 = size) : (n + 1 + a) % size = n % size := by
    rw [Nat.add_assoc,Nat.add_comm 1,ha,Nat.add_mod_right]
  have hother {a : Nat} (ha : a + 1 < size) : (n + 1 + a) % size ≠ n % size := by
    rw [Nat.add_assoc,Nat.add_comm 1]
    exact turn_ne (Nat.succ_pos a) ha
  have hbelow {a : Nat} (ha : a + 1 < size) : count ((n + 1 + a) % size) ≤ count (n % size) + 1 := by
    rw [Nat.add_assoc,Nat.add_comm 1]
    exact h.spread (a + 1) ha
  constructor
  · intro a b hab hb
    rcases Nat.lt_or_eq_of_le (Nat.succ_le_of_lt hb) with hb | hb
    · rw [if_neg (hother (by omega)),if_neg (hother hb),Nat.add_assoc n,Nat.add_comm 1,Nat.add_assoc n,Nat.add_comm 1]
      exact h.mono (a + 1) (b + 1) (by omega) hb
    · rw [hlast hb,if_pos rfl]
      rcases Nat.lt_or_eq_of_le hab with hlt | rfl
      · rw [if_neg (hother (by omega))]
        exact hbelow (by omega)
      · rw [hlast hb,if_pos rfl]
  · intro a ha
    rcases Nat.lt_or_eq_of_le (Nat.succ_le_of_lt ha) with ha | ha
    · rw [if_neg (hother ha)]
      have hle := hbelow ha
      omega
    · rw [hlast ha,if_pos rfl]
      omega

theorem of_eq {c : Nat} (hsize : 0 < size) (h : ∀ k < size, count k = c) : Ordered size n count := by
  have hturn (a : Nat) : count ((n + a) % size) = c := h _ (Nat.mod_lt _ hsize)
  constructor
  · intro a b _ _
    rw [hturn,hturn]
  · intro a _
    rw [hturn,h _ (Nat.mod_lt _ hsize)]
    exact Nat.le_succ c

end Ordered

end Rmbtd.RoundRobin
