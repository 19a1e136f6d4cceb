import Mathlib.Algebra.Group.Int.Defs
import Mathlib.Algebra.Group.Nat.Defs
import Mathlib.Data.List.DropRight
import Mathlib.Data.List.Infix
import Mathlib.Data.Int.Order.Basic
import Mathlib.Tactic.Common

/-!
# Text and bytes

A text is the list of its scalar values, and bytes are what travels on a wire. The functions
follow the documented behaviour of the corresponding string methods of Rust's `str`.
-/

namespace Rmbtd

abbrev Text := List Char
abbrev Bytes := List UInt8

instance : Coe String Text := ⟨String.toList⟩

def boolText (b : Bool) : Text := if b then "true" else "false"

/-! ## Whitespace -/

/-- The Unicode `White_Space` property. -/
def isWhitespace (c : Char) : Bool :=
  let n := c.toNat
  (9 ≤ n && n ≤ 13) || n == 0x20 || n == 0x85 || n == 0xA0 || n == 0x1680 ||
    (0x2000 ≤ n && n ≤ 0x200A) || n == 0x2028 || n == 0x2029 || n == 0x202F ||
    n == 0x205F || n == 0x3000

def trimStart (t : Text) : Text := t.dropWhile isWhitespace

def trimEnd (t : Text) : Text := t.rdropWhile isWhitespace

def trim (t : Text) : Text := trimEnd (trimStart t)

theorem trimStart_append {s : Text} (r : Text) (h : ∃ c ∈ s, ¬isWhitespace c) :
    trimStart (s ++ r) = trimStart s ++ r := by
  obtain ⟨c,hc,hp⟩ := h
  have hne : s.dropWhile isWhitespace ≠ [] := by
    rw [ne_eq,List.dropWhile_eq_nil_iff]
    exact fun h => hp (h c hc)
  rw [trimStart,List.dropWhile_append]
  simp [trimStart,hne]

theorem trimStart_eq_nil {s : Text} (h : ∀ c ∈ s, isWhitespace c) : trimStart s = [] :=
  List.dropWhile_eq_nil_iff.mpr h

theorem trim_append_whitespace (s r : Text) (hr : ∀ c ∈ r, isWhitespace c) :
    trim (s ++ r) = trim s := by
  have hend : r.rdropWhile isWhitespace = [] := List.rdropWhile_eq_nil_iff.mpr hr
  by_cases h : ∃ c ∈ s, ¬isWhitespace c
  · rw [trim,trimEnd,trimStart_append r h,trim,trimEnd]
    simp only [List.rdropWhile,List.reverse_append] at hend ⊢
    rw [List.dropWhile_append]
    have hz : List.dropWhile isWhitespace r.reverse = [] := by simpa using hend
    simp [hz]
  · have hs : ∀ c ∈ s, isWhitespace c := by simpa using h
    have h1 : (s ++ r).dropWhile isWhitespace = [] := by
      rw [List.dropWhile_eq_nil_iff]
      intro c hc
      rcases List.mem_append.mp hc with hc | hc
      · exact hs c hc
      · exact hr c hc
    have h2 : s.dropWhile isWhitespace = [] := List.dropWhile_eq_nil_iff.mpr hs
    simp [trim,trimEnd,trimStart,h1,h2]

theorem trim_eq_nil {s : Text} : trim s = [] ↔ ∀ c ∈ s, isWhitespace c := by
  constructor
  · intro h
    rw [trim,trimEnd,List.rdropWhile_eq_nil_iff] at h
    by_cases hs : trimStart s = []
    · exact List.dropWhile_eq_nil_iff.mp hs
    · have hhead := List.head_dropWhile_not isWhitespace hs
      have hspace := h _ (List.head_mem hs)
      simp only [trimStart] at hspace
      rw [hspace] at hhead
      cases hhead
  · intro h
    rw [trim,trimStart_eq_nil h]
    rfl

theorem trim_whitespace_append {r : Text} (s : Text) (hr : ∀ c ∈ r, isWhitespace c) :
    trim (r ++ s) = trim s := by
  rw [trim,trimStart,List.dropWhile_append_of_pos hr]
  rfl

def Trimmed (t : Text) : Prop :=
  (∀ c ∈ t.head?, ¬isWhitespace c) ∧ ∀ c ∈ t.getLast?, ¬isWhitespace c

theorem Trimmed.trim_eq {t : Text} (h : Trimmed t) : trim t = t := by
  have hstart : trimStart t = t := by
    refine List.dropWhile_eq_self_iff.mpr fun hl => h.1 _ ?_
    rw [List.head?_eq_getElem?,List.getElem?_eq_getElem hl]
    rfl
  rw [trim,hstart]
  exact List.rdropWhile_eq_self_iff.mpr fun hne => h.2 _ (List.getLast?_eq_some_getLast hne)

theorem Trimmed.of_forall {t : Text} (h : ∀ c ∈ t, ¬isWhitespace c) : Trimmed t :=
  ⟨fun c hc => h c (List.mem_of_head? hc),fun c hc => h c (List.mem_of_getLast? hc)⟩

theorem trimmed_trim (t : Text) : Trimmed (trim t) := by
  constructor
  · intro c hc
    obtain ⟨rest,hrest⟩ := List.rdropWhile_prefix isWhitespace (l := trimStart t)
    have hhead : (trimStart t).head? = some c := by
      rw [← hrest,← trimEnd,← trim,List.head?_append_of_ne_nil _ (List.ne_nil_of_mem (List.mem_of_head? hc))]
      exact hc
    have hnot := List.head?_dropWhile_not isWhitespace t
    rw [← trimStart,hhead] at hnot
    simpa using hnot
  · intro c hc
    have hne : trim t ≠ [] := by
      intro h
      rw [h] at hc
      cases hc
    rw [List.getLast?_eq_some_getLast hne] at hc
    cases hc
    exact List.rdropWhile_last_not isWhitespace (trimStart t) hne

/-! ## Splitting -/

/-- `str::split_once`: the texts before and after the first occurrence of `pat`. -/
def splitOnce (pat : Text) : Text → Option (Text × Text)
  | [] => if pat = [] then some ([],[]) else none
  | c::cs =>
    if pat.isPrefixOf (c::cs) then some ([],(c::cs).drop pat.length)
    else (splitOnce pat cs).map fun p => (c::p.1,p.2)

/-- `str::splitn`: at most `n` fields, the last one unsplit. -/
def splitn : Nat → Text → Text → List Text
  | 0, _, _ => []
  | 1, _, s => [s]
  | n+2, pat, s =>
    match splitOnce pat s with
    | none => [s]
    | some (a,b) => a :: splitn (n+1) pat b

/-- `post` is what follows the first occurrence of `pat` in `s`. -/
def AfterFirst (pat s post : Text) : Prop :=
  ∃ pre, s = pre ++ pat ++ post ∧ ∀ pre' post', s = pre' ++ pat ++ post' → pre.length ≤ pre'.length

theorem splitOnce_eq (pat s a b : Text) (h : splitOnce pat s = some (a,b)) : s = a ++ pat ++ b := by
  induction s generalizing a with
  | nil =>
    simp only [splitOnce] at h
    split at h
    · cases h; simp_all
    · cases h
  | cons c cs ih =>
    simp only [splitOnce] at h
    split at h
    · next hp =>
      cases h
      obtain ⟨r,hr⟩ := List.isPrefixOf_iff_prefix.mp hp
      rw [← hr,List.drop_left]
      simp
    · obtain ⟨⟨x,y⟩,hxy,he⟩ := Option.map_eq_some_iff.mp h
      cases he
      simpa using ih x hxy

theorem splitOnce_minimal (pat s a b : Text) (h : splitOnce pat s = some (a,b)) (pre post : Text)
    (hs : s = pre ++ pat ++ post) : a.length ≤ pre.length := by
  induction s generalizing a pre with
  | nil =>
    have := splitOnce_eq pat [] a b h
    simp_all
  | cons c cs ih =>
    simp only [splitOnce] at h
    split at h
    · cases h; simp
    · next hp =>
      obtain ⟨⟨x,y⟩,hxy,he⟩ := Option.map_eq_some_iff.mp h
      cases he
      cases pre with
      | nil =>
        refine absurd (List.isPrefixOf_iff_prefix.mpr ⟨post,?_⟩) hp
        simpa using hs.symm
      | cons d pre =>
        simp only [List.cons_append,List.cons.injEq] at hs
        simpa using ih x hxy pre hs.2

theorem splitOnce_eq_none {pat s : Text} : splitOnce pat s = none ↔ ¬pat <:+: s := by
  induction s with
  | nil =>
    simp only [splitOnce,List.infix_nil]
    split <;> simp_all
  | cons c cs ih =>
    simp only [splitOnce,List.infix_cons_iff,not_or]
    rw [← ih]
    split
    · next hp => simp [List.isPrefixOf_iff_prefix.mp hp]
    · next hp =>
      have : ¬pat <+: c::cs := fun h => hp (List.isPrefixOf_iff_prefix.mpr h)
      simp [this]

theorem splitOnce_exists {pat s : Text} (h : pat <:+: s) : ∃ a b, splitOnce pat s = some (a,b) := by
  cases hs : splitOnce pat s with
  | none => exact absurd h (splitOnce_eq_none.mp hs)
  | some p => exact ⟨p.1,p.2,rfl⟩

/-- The split is determined by being the leftmost one. -/
theorem splitOnce_eq_some {pat s a b : Text} : splitOnce pat s = some (a,b) ↔
    s = a ++ pat ++ b ∧ ∀ pre post, s = pre ++ pat ++ post → a.length ≤ pre.length := by
  constructor
  · exact fun h => ⟨splitOnce_eq pat s a b h,splitOnce_minimal pat s a b h⟩
  · rintro ⟨hs,hmin⟩
    obtain ⟨x,y,hxy⟩ := @splitOnce_exists pat s ⟨a,b,hs.symm⟩
    have hsx := splitOnce_eq pat s x y hxy
    have hle := splitOnce_minimal pat s x y hxy a b hs
    have hge := hmin x y hsx
    have hlen : a.length = x.length := le_antisymm hge hle
    have happ : a ++ (pat ++ b) = x ++ (pat ++ y) := by simpa using hs.symm.trans hsx
    obtain ⟨hax,hby⟩ := List.append_inj happ hlen
    have hy : b = y := List.append_cancel_left hby
    rw [hxy,hax,hy]

theorem afterFirst_iff {pat s post : Text} :
    AfterFirst pat s post ↔ (splitOnce pat s).map Prod.snd = some post := by
  constructor
  · rintro ⟨pre,hs,hmin⟩
    rw [splitOnce_eq_some.mpr ⟨hs,hmin⟩]
    rfl
  · intro h
    obtain ⟨⟨a,b⟩,hab,rfl⟩ := Option.map_eq_some_iff.mp h
    exact ⟨a,splitOnce_eq_some.mp hab⟩

theorem splitOnce_singleton {c : Char} {s a b : Text} :
    splitOnce [c] s = some (a,b) ↔ s = a ++ c::b ∧ c ∉ a := by
  induction s generalizing a with
  | nil => simp [splitOnce]
  | cons d cs ih =>
    simp only [splitOnce,List.isPrefixOf,Bool.and_true,beq_iff_eq,List.length_singleton]
    by_cases hd : c = d
    · subst d
      simp only [if_true,List.drop_succ_cons,List.drop_zero,Option.some.injEq,Prod.mk.injEq]
      constructor
      · rintro ⟨rfl,rfl⟩; simp
      · rintro ⟨hs,hc⟩
        cases a with
        | nil => simpa using hs
        | cons x a =>
          simp only [List.cons_append,List.cons.injEq] at hs
          exact absurd hs.1 (fun h => hc (by simp [h]))
    · rw [if_neg hd]
      simp only [Option.map_eq_some_iff,Prod.exists,Prod.mk.injEq]
      constructor
      · rintro ⟨x,y,hxy,rfl,rfl⟩
        obtain ⟨hs,hc⟩ := ih.mp hxy
        simp [hs,hc,hd]
      · rintro ⟨hs,hc⟩
        cases a with
        | nil => simp only [List.nil_append,List.cons.injEq] at hs; exact absurd hs.1.symm hd
        | cons x a =>
          simp only [List.cons_append,List.cons.injEq] at hs
          simp only [List.mem_cons,not_or] at hc
          exact ⟨a,b,ih.mpr ⟨hs.2,hc.2⟩,by simp [hs.1],rfl⟩

theorem splitOnce_of_not_mem {c : Char} {pat a : Text} (ha : c ∉ a) (b : Text) :
    splitOnce (c::pat) (a ++ (c::pat) ++ b) = some (a,b) := by
  induction a with
  | nil => simp [splitOnce]
  | cons x a ih =>
    simp only [List.mem_cons,not_or] at ha
    have hno : (c::pat).isPrefixOf (x::(a ++ (c::pat) ++ b)) = false := by
      simp [List.isPrefixOf,ha.1]
    simp only [List.cons_append] at ih hno ⊢
    rw [splitOnce,hno,ih ha.2]
    rfl

theorem splitOnce_of_snd_not_mem {c d : Char} {pat a : Text} (hcd : c ≠ d) (ha : c ∉ a) (b : Text) :
    splitOnce (d::c::pat) (a ++ (d::c::pat) ++ b) = some (a,b) := by
  induction a with
  | nil => simp [splitOnce]
  | cons x a ih =>
    simp only [List.mem_cons,not_or] at ha
    have hno : (d::c::pat).isPrefixOf (x::(a ++ (d::c::pat) ++ b)) = false := by
      cases a with
      | nil => simp [List.isPrefixOf,hcd]
      | cons y a =>
        simp only [List.mem_cons,not_or] at ha
        simp [List.isPrefixOf,ha.2.1]
    simp only [List.cons_append] at ih hno ⊢
    rw [splitOnce,hno,ih ha.2]
    rfl

/-- Three fields of `splitn 3`: only the last one may contain the separator. -/
theorem splitn_three {c : Char} {s x y z : Text} :
    splitn 3 [c] s = [x,y,z] ↔ s = x ++ c::(y ++ c::z) ∧ c ∉ x ∧ c ∉ y := by
  have htwo (r : Text) : splitn 2 [c] r = [y,z] ↔ r = y ++ c::z ∧ c ∉ y := by
    simp only [splitn]
    cases hr : splitOnce [c] r with
    | none =>
      simp only [List.cons.injEq,reduceCtorEq,and_false,false_iff]
      intro h
      rw [splitOnce_singleton.mpr h] at hr
      cases hr
    | some p =>
      rw [← splitOnce_singleton,hr]
      simp [Prod.ext_iff]
  rw [splitn]
  cases hs : splitOnce [c] s with
  | none =>
    simp only [List.cons.injEq,reduceCtorEq,and_false,false_iff]
    rintro ⟨h,hx,-⟩
    rw [splitOnce_singleton.mpr ⟨h,hx⟩] at hs
    cases hs
  | some p =>
    obtain ⟨a,b⟩ := p
    simp only [List.cons.injEq,htwo]
    obtain ⟨hab,ha⟩ := splitOnce_singleton.mp hs
    constructor
    · rintro ⟨rfl,rfl,hy⟩
      exact ⟨hab,ha,hy⟩
    · rintro ⟨h,hx,hy⟩
      rw [splitOnce_singleton.mpr ⟨h,hx⟩] at hs
      cases hs
      exact ⟨rfl,rfl,hy⟩

/-- `str::strip_prefix`. -/
def stripPrefix (pre s : Text) : Option Text :=
  if pre.isPrefixOf s then some (s.drop pre.length) else none

theorem stripPrefix_eq_some {pre s r : Text} : stripPrefix pre s = some r ↔ s = pre ++ r := by
  simp only [stripPrefix]
  split
  · next h =>
    obtain ⟨q,rfl⟩ := List.isPrefixOf_iff_prefix.mp h
    simp
  · next h =>
    simp only [reduceCtorEq,false_iff]
    rintro rfl
    exact h (List.isPrefixOf_iff_prefix.mpr (List.prefix_append _ _))

/-! ## Lines up to carriage returns at their end -/

/-- The lines differ at most in carriage returns at their end. -/
def SameLine (a b : Text) : Prop :=
  ∃ core ra rb, a = core ++ ra ∧ b = core ++ rb ∧ (∀ c ∈ ra, c = '\r') ∧ ∀ c ∈ rb, c = '\r'

theorem SameLine.refl (a : Text) : SameLine a a := ⟨a,[],[],by simp,by simp,by simp,by simp⟩

private theorem carriageReturn_whitespace {r : Text} (h : ∀ c ∈ r, c = '\r') :
    ∀ c ∈ r, isWhitespace c := by
  intro c hc
  rw [h c hc]
  decide

theorem SameLine.trim_eq {a b : Text} (h : SameLine a b) : trim a = trim b := by
  obtain ⟨core,ra,rb,rfl,rfl,ha,hb⟩ := h
  rw [trim_append_whitespace _ _ (carriageReturn_whitespace ha),
    trim_append_whitespace _ _ (carriageReturn_whitespace hb)]

private theorem prefix_core {p core r : Text} (hp : '\r' ∉ p) (hr : ∀ c ∈ r, c = '\r')
    (h : p <+: core ++ r) : p <+: core := by
  induction p generalizing core with
  | nil => exact List.nil_prefix
  | cons x p ih =>
    simp only [List.mem_cons,not_or] at hp
    cases core with
    | nil =>
      have hx : x ∈ r := h.subset (by simp)
      exact absurd (hr x hx).symm hp.1
    | cons y core =>
      rw [List.cons_append,List.cons_prefix_cons] at h
      rw [List.cons_prefix_cons]
      exact ⟨h.1,ih hp.2 h.2⟩

theorem SameLine.isPrefixOf_eq {a b p : Text} (h : SameLine a b) (hp : '\r' ∉ p) :
    p.isPrefixOf a = p.isPrefixOf b := by
  obtain ⟨core,ra,rb,rfl,rfl,ha,hb⟩ := h
  rw [Bool.eq_iff_iff,List.isPrefixOf_iff_prefix,List.isPrefixOf_iff_prefix]
  constructor
  · intro h
    exact (prefix_core hp ha h).trans (List.prefix_append _ _)
  · intro h
    exact (prefix_core hp hb h).trans (List.prefix_append _ _)

theorem SameLine.trimStart {a b : Text} (h : SameLine a b) :
    SameLine (trimStart a) (trimStart b) := by
  obtain ⟨core,ra,rb,rfl,rfl,ha,hb⟩ := h
  by_cases hc : ∃ c ∈ core, ¬isWhitespace c
  · rw [trimStart_append ra hc,trimStart_append rb hc]
    exact ⟨Rmbtd.trimStart core,ra,rb,rfl,rfl,ha,hb⟩
  · have hcore : ∀ c ∈ core, isWhitespace c := by simpa using hc
    have hall {r : Text} (hr : ∀ c ∈ r, c = '\r') : ∀ c ∈ core ++ r, isWhitespace c := by
      intro c h
      rcases List.mem_append.mp h with h | h
      · exact hcore c h
      · exact carriageReturn_whitespace hr c h
    rw [trimStart_eq_nil (hall ha),trimStart_eq_nil (hall hb)]
    exact .refl []

theorem SameLine.stripPrefix {a b p : Text} (h : SameLine a b) (hp : '\r' ∉ p) :
    stripPrefix p a = none ∧ stripPrefix p b = none ∨
      ∃ x y, stripPrefix p a = some x ∧ stripPrefix p b = some y ∧ SameLine x y := by
  have hsame := h.isPrefixOf_eq hp
  obtain ⟨core,ra,rb,rfl,rfl,ha,hb⟩ := h
  by_cases hpre : p <+: core ++ ra
  · obtain ⟨rest,rfl⟩ := prefix_core hp ha hpre
    refine Or.inr ⟨rest ++ ra,rest ++ rb,?_,?_,rest,ra,rb,rfl,rfl,ha,hb⟩
    · rw [stripPrefix_eq_some,List.append_assoc]
    · rw [stripPrefix_eq_some,List.append_assoc]
  · have hno : p.isPrefixOf (core ++ ra) = false := by
      rw [← Bool.not_eq_true,List.isPrefixOf_iff_prefix]
      exact hpre
    left
    simp only [Rmbtd.stripPrefix,← hsame,hno,Bool.false_eq_true,if_false,and_self]

end Rmbtd
