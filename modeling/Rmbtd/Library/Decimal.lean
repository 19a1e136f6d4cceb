import Rmbtd.Library.Text

/-!
# Number literals

Rendering and parsing of integers as Rust's `Display`, `LowerHex` and `FromStr` do it: an
optional sign, at least one digit and nothing else.
-/

namespace Rmbtd

def natText (n : Nat) : Text := Nat.toDigits 10 n

def intText : Int → Text
  | .ofNat n => natText n
  | .negSucc n => '-' :: natText (n+1)

def hexText (n : Nat) : Text := Nat.toDigits 16 n

def hexBytes (bs : Bytes) : Text :=
  bs.flatMap fun b => [Nat.digitChar (b.toNat / 16),Nat.digitChar (b.toNat % 16)]

def parseDigits (t : Text) : Option Nat :=
  if t ≠ [] ∧ t.all Char.isDigit then some (Nat.ofDigitChars 10 t 0) else none

private def dropPlus : Text → Text
  | '+'::ds => ds
  | ds => ds

/-- `from_str` of an unsigned type with `bound` values. -/
def parseUnsigned (bound : Nat) (t : Text) : Option Nat :=
  (parseDigits (dropPlus t)).filter fun n => n < bound

/-- The text of the error `parseUnsigned` fails with: digits are read up to the first one that does
not fit, or that is none. -/
def parseUnsignedError (bound : Nat) (t : Text) : Text :=
  if t = [] then "cannot parse integer from empty string"
  else if bound ≤ Nat.ofDigitChars 10 ((dropPlus t).takeWhile Char.isDigit) 0 then
    "number too large to fit in target type"
  else "invalid digit found in string"

/-- `i64::from_str`. -/
def parseInt64 : Text → Option Int64
  | '-'::ds => ((parseDigits ds).filter fun n => n ≤ 2^63).map fun n : Nat => Int64.ofInt (-(n : Int))
  | t => ((parseDigits (dropPlus t)).filter fun n => n < 2^63).map fun n : Nat => Int64.ofInt (n : Int)

theorem natText_isDigit {n : Nat} {c : Char} (hc : c ∈ natText n) : c.isDigit :=
  Nat.isDigit_of_mem_toDigits (by decide) (by decide) hc

theorem hexText_digit {n : Nat} {c : Char} (hc : c ∈ hexText n) : ∃ d < 16, c = Nat.digitChar d := by
  induction n using Nat.strongRecOn with
  | ind n ih =>
    rw [hexText,Nat.toDigits_eq_if (by decide)] at hc
    split at hc
    · next h => exact ⟨n,h,List.mem_singleton.mp hc⟩
    · next h =>
      rcases List.mem_append.mp hc with hc | hc
      · exact ih (n / 16) (by omega) hc
      · exact ⟨n % 16,by omega,List.mem_singleton.mp hc⟩

theorem hexText_injective {m n : Nat} (h : hexText m = hexText n) : m = n := by
  have hdigit : ∀ i < 16, ∀ j < 16, Nat.digitChar i = Nat.digitChar j → i = j := by decide
  have hshort {k : Nat} {c : Char} {d : Nat} : [c] ≠ Nat.toDigits 16 k ++ [d.digitChar] := by
    intro h
    rcases List.append_eq_singleton_iff.mp h.symm with ⟨hnil,-⟩ | ⟨-,hnil⟩
    · exact Nat.toDigits_ne_nil hnil
    · cases hnil
  induction m using Nat.strongRecOn generalizing n with
  | ind m ih =>
    rw [hexText,hexText,Nat.toDigits_eq_if (by decide),Nat.toDigits_eq_if (n := n) (by decide)] at h
    by_cases hm : m < 16
    · by_cases hn : n < 16
      · rw [if_pos hm,if_pos hn] at h
        exact hdigit m hm n hn (List.singleton_inj.mp h)
      · rw [if_pos hm,if_neg hn] at h
        exact absurd h hshort
    · by_cases hn : n < 16
      · rw [if_neg hm,if_pos hn] at h
        exact absurd h.symm hshort
      · rw [if_neg hm,if_neg hn] at h
        obtain ⟨hhigh,hlow⟩ := List.append_inj' h rfl
        have hhigh := ih (m / 16) (by omega) hhigh
        have hlow := hdigit _ (by omega) _ (by omega) (List.singleton_inj.mp hlow)
        omega

/-- The digits of a number in a radix, the most significant first and none of them superfluous. -/
structure DigitsOf (radix n : Nat) (ds : List Nat) : Prop where
  text : Nat.toDigits radix n = ds.map Nat.digitChar
  small : ∀ d ∈ ds, d < radix
  value : ds.foldl (fun n d => n * radix + d) 0 = n
  lead : 0 < n → ds.head? ≠ some 0
  single : n < radix → ds = [n]
  length_le : ∀ k, 0 < k → n < radix^k → ds.length ≤ k

theorem exists_digitsOf {radix : Nat} (hradix : 1 < radix) (n : Nat) : ∃ ds, DigitsOf radix n ds := by
  induction n using Nat.strongRecOn with
  | ind n ih =>
    by_cases hlt : n < radix
    · refine ⟨[n],?_,by simpa using hlt,by simp,?_,fun _ => rfl,fun k hk _ => hk⟩
      · rw [Nat.toDigits_eq_if hradix,if_pos hlt]
        rfl
      · intro hpos hhead
        cases hhead
        exact absurd hpos (lt_irrefl 0)
    · have hpos : 0 < n / radix := Nat.div_pos (by omega) (by omega)
      have hsmaller : n / radix < n := Nat.div_lt_self (by omega) hradix
      obtain ⟨ds,htext,hsmall,hvalue,hlead,-,hlength⟩ := ih (n / radix) hsmaller
      have hmod : n % radix < radix := Nat.mod_lt _ (by omega)
      refine ⟨ds ++ [n % radix],?_,?_,?_,?_,fun h => absurd h hlt,?_⟩
      · rw [Nat.toDigits_eq_if hradix,if_neg hlt,htext,List.map_append]
        rfl
      · intro d hd
        rcases List.mem_append.mp hd with hd | hd
        · exact hsmall d hd
        · rw [List.mem_singleton.mp hd]
          exact hmod
      · rw [List.foldl_append,hvalue,List.foldl_cons,List.foldl_nil,Nat.div_add_mod']
      · intro _
        cases ds with
        | nil =>
          rw [← hvalue] at hpos
          exact absurd hpos (lt_irrefl 0)
        | cons d ds => exact hlead hpos
      · intro k hk hn
        cases k with
        | zero => exact absurd hk (lt_irrefl 0)
        | succ k =>
          have hk : 0 < k := by
            by_contra hzero
            have hzero : k = 0 := by omega
            rw [hzero,zero_add,pow_one] at hn
            exact hlt hn
          have hdiv : n / radix < radix^k := by
            rw [Nat.div_lt_iff_lt_mul (by omega),← pow_succ]
            exact hn
          have hle := hlength k hk hdiv
          rw [List.length_append,List.length_singleton]
          omega

theorem natText_ne_nil (n : Nat) : natText n ≠ [] := Nat.toDigits_ne_nil

theorem parseDigits_natText (n : Nat) : parseDigits (natText n) = some n := by
  have hall : (natText n).all Char.isDigit := List.all_eq_true.mpr fun c hc => natText_isDigit hc
  rw [parseDigits,if_pos ⟨natText_ne_nil n,hall⟩,natText,Nat.ofDigitChars_ten_toDigits]

theorem natText_injective {m n : Nat} (h : natText m = natText n) : m = n := by
  have hm := parseDigits_natText m
  rw [h,parseDigits_natText] at hm
  exact (Option.some.inj hm).symm

theorem parseDigits_isDigit {t : Text} {n : Nat} (h : parseDigits t = some n) :
    t ≠ [] ∧ ∀ c ∈ t, c.isDigit := by
  simp only [parseDigits] at h
  split at h
  · next hc => exact ⟨hc.1,List.all_eq_true.mp hc.2⟩
  · cases h

private theorem ofDigitChars_lt (t : Text) (ht : ∀ c ∈ t, c.isDigit) (init : Nat) :
    Nat.ofDigitChars 10 t init < 10^t.length * (init + 1) := by
  induction t generalizing init with
  | nil => simp
  | cons c t ih =>
    have hc : c.toNat - '0'.toNat ≤ 9 := by
      have h := Char.isDigit_iff_toNat.mp (ht c (by simp))
      simp only [Char.reduceToNat] at h ⊢
      omega
    rw [Nat.ofDigitChars_cons,List.length_cons,Nat.pow_succ]
    calc Nat.ofDigitChars 10 t (10 * init + (c.toNat - '0'.toNat))
        < 10^t.length * (10 * init + (c.toNat - '0'.toNat) + 1) :=
          ih (fun d hd => ht d (by simp [hd])) _
      _ ≤ 10^t.length * (10 * (init + 1)) := Nat.mul_le_mul_left _ (by omega)
      _ = 10^t.length * 10 * (init + 1) := by rw [Nat.mul_assoc]

theorem parseDigits_lt {t : Text} {n : Nat} (h : parseDigits t = some n) : n < 10^t.length := by
  have hd := parseDigits_isDigit h
  simp only [parseDigits] at h
  split at h
  · cases h
    simpa using ofDigitChars_lt t hd.2 0
  · cases h

private theorem parseDigits_dropPlus_lt {t : Text} {n : Nat} (h : parseDigits (dropPlus t) = some n) :
    n < 10^t.length := by
  have hlt := parseDigits_lt h
  refine hlt.trans_le (Nat.pow_le_pow_right (by decide) ?_)
  unfold dropPlus
  split <;> simp

theorem parseInt64_bounds {t : Text} {s : Int64} (h : parseInt64 t = some s) (ht : t.length ≤ 12) :
    -(10^12 : Int) < s.toInt ∧ s.toInt < 10^12 := by
  have hpow : 10^t.length ≤ 10^12 := Nat.pow_le_pow_right (by decide) ht
  unfold parseInt64 at h
  split at h
  · next ds =>
    obtain ⟨n,hn,rfl⟩ := Option.map_eq_some_iff.mp h
    obtain ⟨hn,-⟩ := Option.filter_eq_some_iff.mp hn
    have hlt : n < 10^12 := by
      have hd := parseDigits_lt hn
      rw [List.length_cons,Nat.pow_succ] at hpow
      omega
    rw [Int64.toInt_ofInt_of_le (by omega) (by omega)]
    omega
  · obtain ⟨n,hn,rfl⟩ := Option.map_eq_some_iff.mp h
    obtain ⟨hn,-⟩ := Option.filter_eq_some_iff.mp hn
    have hlt := (parseDigits_dropPlus_lt hn).trans_le hpow
    rw [Int64.toInt_ofInt_of_le (by omega) (by omega)]
    omega

theorem parseInt64_chars {t : Text} {s : Int64} (h : parseInt64 t = some s) :
    ∀ c ∈ t, c.isDigit ∨ c = '-' ∨ c = '+' := by
  unfold parseInt64 at h
  split at h
  · next ds =>
    obtain ⟨n,hn,-⟩ := Option.map_eq_some_iff.mp h
    have hd := parseDigits_isDigit (Option.filter_eq_some_iff.mp hn).1
    intro c hc
    rcases List.mem_cons.mp hc with rfl | hc
    · simp
    · exact Or.inl (hd.2 c hc)
  · obtain ⟨n,hn,-⟩ := Option.map_eq_some_iff.mp h
    have hd := parseDigits_isDigit (Option.filter_eq_some_iff.mp hn).1
    intro c hc
    unfold dropPlus at hd
    split at hd
    · rcases List.mem_cons.mp hc with rfl | hc
      · simp
      · exact Or.inl (hd.2 c hc)
    · exact Or.inl (hd.2 c hc)

private theorem natText_dropPlus (n : Nat) : dropPlus (natText n) = natText n := by
  unfold dropPlus
  split
  · next ds h =>
    have hp := natText_isDigit (n := n) (c := '+') (by simp [h])
    exact absurd hp (by decide)
  · rfl

theorem parseUnsigned_natText {bound n : Nat} (h : n < bound) : parseUnsigned bound (natText n) = some n := by
  rw [parseUnsigned,natText_dropPlus,parseDigits_natText,Option.filter_some,if_pos (decide_eq_true h)]

theorem parseUnsigned_lt {bound n : Nat} {t : Text} (h : parseUnsigned bound t = some n) : n < bound :=
  of_decide_eq_true (Option.filter_eq_some_iff.mp h).2

theorem intText_chars {i : Int} {c : Char} (hc : c ∈ intText i) : c.isDigit ∨ c = '-' := by
  cases i with
  | ofNat n => exact Or.inl (natText_isDigit hc)
  | negSucc n =>
    rcases List.mem_cons.mp hc with rfl | hc
    · simp
    · exact Or.inl (natText_isDigit hc)

theorem parseInt64_intText (s : Int64) : parseInt64 (intText s.toInt) = some s := by
  have hlo := Int64.le_toInt s
  have hhi := Int64.toInt_lt s
  cases hs : s.toInt with
  | ofNat n =>
    simp only [intText]
    have hn : n < 2^63 := by rw [hs,Int.ofNat_eq_natCast] at hhi; exact_mod_cast hhi
    have hback : Int64.ofInt (n : Int) = s := by
      rw [← Int64.ofInt_toInt s,hs]
      rfl
    unfold parseInt64
    split
    · next ds h =>
      have hm := natText_isDigit (n := n) (c := '-') (by simp [h])
      exact absurd hm (by decide)
    · rw [natText_dropPlus,parseDigits_natText,Option.filter_some,if_pos (by simpa using hn)]
      simp [hback]
  | negSucc n =>
    have hn : n + 1 ≤ 2^63 := by rw [hs] at hlo; omega
    have hback : Int64.ofInt (-((n+1 : Nat) : Int)) = s := by
      rw [← Int64.ofInt_toInt s,hs]
      congr 1
    simp only [intText,parseInt64,parseDigits_natText,Option.filter_some]
    rw [if_pos (by simpa using hn)]
    simp only [Option.map_some,hback]

end Rmbtd
