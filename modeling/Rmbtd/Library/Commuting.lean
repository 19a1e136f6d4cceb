import Mathlib.Data.List.Basic
import Mathlib.Tactic.Common

/-!
# Commuting actions

Actions with different keys commute. Then the order of a sequence of actions matters only between actions
with one key.
-/

namespace Rmbtd.Commuting

variable {σ α κ : Type} [DecidableEq κ] {f : σ → α → σ} {key : α → κ}

/-- The order of actions with different keys does not matter. -/
def Commutes (f : σ → α → σ) (key : α → κ) : Prop :=
  ∀ s a b, key a ≠ key b → f (f s a) b = f (f s b) a

/-- The actions with one key, in order. -/
def withKey (key : α → κ) (k : κ) (l : List α) : List α := l.filter fun a => key a = k

@[simp] theorem withKey_cons_self {k : κ} {a : α} {l : List α} (h : key a = k) :
    withKey key k (a::l) = a::withKey key k l := by
  simp [withKey,h]

@[simp] theorem withKey_cons_ne {k : κ} {a : α} {l : List α} (h : key a ≠ k) :
    withKey key k (a::l) = withKey key k l := by
  simp [withKey,h]

theorem withKey_append (k : κ) (l l' : List α) :
    withKey key k (l ++ l') = withKey key k l ++ withKey key k l' := List.filter_append ..

theorem withKey_eq_nil {k : κ} {l : List α} : withKey key k l = [] ↔ ∀ a ∈ l, key a ≠ k := by
  simp [withKey]

omit [DecidableEq κ] in
private theorem foldl_cons_comm (h : Commutes f key) {a : α} {l : List α} (hl : ∀ b ∈ l, key b ≠ key a) (s : σ) :
    f (l.foldl f s) a = l.foldl f (f s a) := by
  induction l generalizing s with
  | nil => rfl
  | cons b l ih =>
    rw [List.foldl_cons,List.foldl_cons,ih fun c hc => hl c (List.mem_cons_of_mem b hc)]
    rw [h s b a (hl b List.mem_cons_self)]

private theorem split_withKey {a : α} {rest l : List α} (h : withKey key (key a) l = a::rest) :
    ∃ front back, l = front ++ a::back ∧ ∀ b ∈ front, key b ≠ key a := by
  induction l with
  | nil => cases h
  | cons b l ih =>
    by_cases hb : key b = key a
    · rw [withKey_cons_self hb] at h
      cases h
      exact ⟨[],l,rfl,by simp⟩
    · rw [withKey_cons_ne hb] at h
      obtain ⟨front,back,rfl,hfront⟩ := ih h
      refine ⟨b::front,back,rfl,?_⟩
      rintro c (_ | ⟨_,hc⟩)
      · exact hb
      · exact hfront c hc

/-- Sequences that agree on the actions with each key have the same effect. -/
theorem foldl_eq (h : Commutes f key) {l l' : List α} (hkeys : ∀ k, withKey key k l = withKey key k l') (s : σ) :
    l.foldl f s = l'.foldl f s := by
  induction l generalizing l' s with
  | nil =>
    cases l' with
    | nil => rfl
    | cons b l' =>
      have hb := hkeys (key b)
      rw [withKey_cons_self rfl] at hb
      cases hb
  | cons a l ih =>
    have ha := hkeys (key a)
    rw [withKey_cons_self rfl] at ha
    obtain ⟨front,back,rfl,hfront⟩ := split_withKey ha.symm
    rw [List.foldl_cons,List.foldl_append,List.foldl_cons,foldl_cons_comm h hfront,← List.foldl_append]
    apply ih
    intro k
    have hk := hkeys k
    rw [withKey_append] at hk ⊢
    by_cases hak : key a = k
    · rw [← hak] at hk ⊢
      rw [withKey_cons_self rfl,withKey_cons_self rfl,withKey_eq_nil.mpr hfront] at hk
      rw [withKey_eq_nil.mpr hfront]
      exact (List.cons.inj hk).2
    · rwa [withKey_cons_ne hak,withKey_cons_ne hak] at hk

end Rmbtd.Commuting
