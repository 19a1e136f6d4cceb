import Rmbtd.Library.Decimal
import Rmbtd.Library.Utf8

/-!
# Canonical UUIDs

`parse_uuid` of `ip_check.rs` and the form it accepts: groups of 8, 4, 4, 4 and 12 hexadecimal
digits in either case, joined by hyphens.
-/

namespace Rmbtd

private def hyphen : UInt8 := 0x2D

def isAsciiHexdigit (c : UInt8) : Bool :=
  (48 ≤ c.toNat && c.toNat ≤ 57) || (65 ≤ c.toNat && c.toNat ≤ 70) ||
    (97 ≤ c.toNat && c.toNat ≤ 102)

private def hexValue (c : UInt8) : Nat :=
  if c.toNat ≤ 57 then c.toNat - 48 else if c.toNat ≤ 70 then c.toNat - 55 else c.toNat - 87

private def hexPairs : Bytes → Bytes
  | a::b::rest => UInt8.ofNat (hexValue a * 16 + hexValue b) :: hexPairs rest
  | _ => []

/-- Parse a UUID in canonical form into its 16 bytes. -/
def parseUuid (s : Text) : Option Bytes :=
  let b := utf8 s
  if b.length ≠ 36 ∨ [8,13,18,23].any (fun i => b.getD i 0 ≠ hyphen) then none
  else
    let hex := b.filter fun c => c ≠ hyphen
    if hex.length ≠ 32 ∨ !hex.all isAsciiHexdigit then none
    else some (hexPairs hex)

def uuidText (b : Bytes) : Text :=
  hexBytes (b.take 4) ++ '-'::(hexBytes ((b.drop 4).take 2) ++ '-'::(hexBytes ((b.drop 6).take 2) ++
    '-'::(hexBytes ((b.drop 8).take 2) ++ '-'::hexBytes (b.drop 10))))

/-- `u` is a canonical text of the UUID with the bytes `b`. -/
structure CanonicalUuid (u : Text) (b : Bytes) : Prop where
  length : b.length = 16
  text : u.map Char.toLower = uuidText b

private def asciiLower (c : UInt8) : Char := (Char.ofNat c.toNat).toLower

private theorem digit_spec (c : UInt8) (h : isAsciiHexdigit c) :
    hexValue c < 16 ∧ Nat.digitChar (hexValue c) = asciiLower c ∧ c.toNat < 128 := by
  have hall : ∀ n < 256, isAsciiHexdigit (UInt8.ofNat n) → hexValue (UInt8.ofNat n) < 16 ∧
      Nat.digitChar (hexValue (UInt8.ofNat n)) = asciiLower (UInt8.ofNat n) ∧
      (UInt8.ofNat n).toNat < 128 := by decide +kernel
  have hc := hall c.toNat c.toNat_lt
  rw [UInt8.ofNat_toNat] at hc
  exact hc h

private theorem hexPairs_append (a b : Bytes) (n : Nat) (h : a.length = 2 * n) :
    hexPairs (a ++ b) = hexPairs a ++ hexPairs b := by
  induction n generalizing a with
  | zero => rw [List.length_eq_zero_iff.mp h]; rfl
  | succ n ih =>
    match a, h with
    | x::y::a, h =>
      simp only [List.length_cons] at h
      simp only [List.cons_append,hexPairs,ih a (by omega)]

private theorem hexPairs_spec (a : Bytes) (n : Nat) (h : a.length = 2 * n)
    (hd : ∀ c ∈ a, isAsciiHexdigit c) :
    (hexPairs a).length = n ∧ hexBytes (hexPairs a) = a.map asciiLower := by
  induction n generalizing a with
  | zero => rw [List.length_eq_zero_iff.mp h]; exact ⟨rfl,rfl⟩
  | succ n ih =>
    match a, h with
    | x::y::a, h =>
      simp only [List.length_cons] at h
      obtain ⟨hlen,htext⟩ := ih a (by omega) fun c hc => hd c (by simp [hc])
      obtain ⟨hx,hxd,-⟩ := digit_spec x (hd x (by simp))
      obtain ⟨hy,hyd,-⟩ := digit_spec y (hd y (by simp))
      have hn : (UInt8.ofNat (hexValue x * 16 + hexValue y)).toNat = hexValue x * 16 + hexValue y := by
        simp only [UInt8.toNat_ofNat']
        omega
      simp only [hexBytes] at htext
      simp only [hexPairs,List.length_cons,hlen,hexBytes,List.flatMap_cons,hn,htext,List.map_cons,
        List.cons_append,List.nil_append,true_and]
      rw [show (hexValue x * 16 + hexValue y) / 16 = hexValue x by omega,
        show (hexValue x * 16 + hexValue y) % 16 = hexValue y by omega,hxd,hyd]

private theorem isUpper_iff {c : Char} : c.isUpper ↔ 'A'.val ≤ c.val ∧ c.val ≤ 'Z'.val :=
  decide_eq_true_iff

private theorem isAlphanum_ascii {c : Char} (h : c.isAlphanum) : c.toNat < 128 := by
  have hval : c.isAlphanum = ((decide ('A'.val ≤ c.val ∧ c.val ≤ 'Z'.val) ||
      (decide ('a'.val ≤ c.val) && decide (c.val ≤ 'z'.val))) ||
        (decide ('0'.val ≤ c.val) && decide (c.val ≤ '9'.val))) := rfl
  have hnat : c.val.toNat = c.toNat := rfl
  simp only [hval,Bool.or_eq_true,Bool.and_eq_true,decide_eq_true_eq,UInt32.le_iff_toNat_le,
    Char.reduceVal,UInt32.reduceToNat,hnat] at h
  omega

theorem CanonicalUuid.chars {u : Text} {b : Bytes} (h : CanonicalUuid u b) {c : Char} (hc : c ∈ u) :
    c.isAlphanum ∨ c = '-' := by
  have hlow : c.toLower ∈ uuidText b := by
    rw [← h.text]
    exact List.mem_map_of_mem hc
  have hhex (bs : Bytes) (h : c.toLower ∈ hexBytes bs) : c.toLower.isAlphanum := by
    obtain ⟨x,-,hx⟩ := List.mem_flatMap.mp h
    have hdigit : ∀ n < 16, (Nat.digitChar n).isAlphanum := by decide
    have := x.toNat_lt
    simp only [List.mem_cons,List.not_mem_nil,or_false] at hx
    rcases hx with hx | hx
    · rw [hx]; exact hdigit _ (by omega)
    · rw [hx]; exact hdigit _ (by omega)
  have hmem : c.toLower.isAlphanum ∨ c.toLower = '-' := by
    simp only [uuidText,List.mem_append,List.mem_cons] at hlow
    rcases hlow with h | h | h | h | h | h | h | h | h
    · exact Or.inl (hhex _ h)
    · exact Or.inr h
    · exact Or.inl (hhex _ h)
    · exact Or.inr h
    · exact Or.inl (hhex _ h)
    · exact Or.inr h
    · exact Or.inl (hhex _ h)
    · exact Or.inr h
    · exact Or.inl (hhex _ h)
  by_cases hup : c.isUpper
  · left
    have halnum : c.isAlphanum = (c.isUpper || c.isLower || c.isDigit) := rfl
    simp [halnum,hup]
  · have hsame : c.toLower = c := by
      rw [isUpper_iff] at hup
      exact dif_neg hup
    rwa [hsame] at hmem

theorem CanonicalUuid.byteLen {u : Text} {b : Bytes} (h : CanonicalUuid u b) : byteLen u = 36 := by
  have hascii : ∀ c ∈ u, c.toNat < 128 := by
    intro c hc
    rcases h.chars hc with hc | rfl
    · exact isAlphanum_ascii hc
    · decide
  have hhex (bs : Bytes) : (hexBytes bs).length = 2 * bs.length := by
    simp [hexBytes,List.length_flatMap,Nat.mul_comm]
  have hlen := congrArg List.length h.text
  rw [List.length_map] at hlen
  rw [byteLen_of_ascii hascii,hlen]
  simp [uuidText,hhex,h.length]

private theorem cut {l : Bytes} {i : Nat} {c : UInt8} (hi : i < l.length) (h : l.getD i 0 = c) :
    l = l.take i ++ c::l.drop (i+1) := by
  have hc : l[i] = c := by simpa [List.getD,hi] using h
  rw [← hc,← List.drop_eq_getElem_cons hi,List.take_append_drop]

private theorem uuidText_groups {p1 p2 p3 p4 : Bytes} (n1 : p1.length = 4) (n2 : p2.length = 2)
    (n3 : p3.length = 2) (n4 : p4.length = 2) (p5 : Bytes) :
    uuidText (p1 ++ (p2 ++ (p3 ++ (p4 ++ p5)))) = hexBytes p1 ++ '-'::(hexBytes p2 ++
      '-'::(hexBytes p3 ++ '-'::(hexBytes p4 ++ '-'::hexBytes p5))) := by
  have d4 : (p1 ++ (p2 ++ (p3 ++ (p4 ++ p5)))).drop 4 = p2 ++ (p3 ++ (p4 ++ p5)) :=
    List.drop_left' n1
  have d6 : (p1 ++ (p2 ++ (p3 ++ (p4 ++ p5)))).drop 6 = p3 ++ (p4 ++ p5) := by
    rw [← List.append_assoc]
    exact List.drop_left' (by simp [n1,n2])
  have d8 : (p1 ++ (p2 ++ (p3 ++ (p4 ++ p5)))).drop 8 = p4 ++ p5 := by
    rw [← List.append_assoc,← List.append_assoc]
    exact List.drop_left' (by simp [n1,n2,n3])
  have d10 : (p1 ++ (p2 ++ (p3 ++ (p4 ++ p5)))).drop 10 = p5 := by
    rw [← List.append_assoc,← List.append_assoc,← List.append_assoc]
    exact List.drop_left' (by simp [n1,n2,n3,n4])
  rw [uuidText,d4,d6,d8,d10,List.take_left' n1,List.take_left' n2,List.take_left' n3,
    List.take_left' n4]

theorem parseUuid_canonical {u : Text} {b : Bytes} (h : parseUuid u = some b) :
    CanonicalUuid u b := by
  simp only [parseUuid] at h
  split at h
  · cases h
  next hshape =>
  split at h
  · cases h
  next hhex =>
  cases h
  simp only [ne_eq,not_or,not_not,List.any_cons,List.any_nil,Bool.or_false,Bool.or_eq_true,
    decide_eq_true_eq] at hshape
  obtain ⟨hlen,h8,h13,h18,h23⟩ := hshape
  generalize hs : utf8 u = s at *
  have hcut : ∃ s1 s2 s3 s4 s5, s = s1 ++ hyphen::(s2 ++ hyphen::(s3 ++ hyphen::(s4 ++ hyphen::s5))) ∧
      s1.length = 8 ∧ s2.length = 4 ∧ s3.length = 4 ∧ s4.length = 4 ∧ s5.length = 12 := by
    refine ⟨s.take 8,(s.drop 9).take 4,(s.drop 14).take 4,(s.drop 19).take 4,s.drop 24,?_,?_⟩
    · have e1 := cut (l := s) (i := 8) (by omega) h8
      have e2 := cut (l := s.drop 9) (i := 4) (by simp; omega) (by simpa using h13)
      have e3 := cut (l := s.drop 14) (i := 4) (by simp; omega) (by simpa using h18)
      have e4 := cut (l := s.drop 19) (i := 4) (by simp; omega) (by simpa using h23)
      simp only [List.drop_drop,Nat.reduceAdd] at e1 e2 e3 e4
      rw [← e4,← e3,← e2,← e1]
    · simp only [List.length_take,List.length_drop]
      omega
  obtain ⟨s1,s2,s3,s4,s5,rfl,l1,l2,l3,l4,l5⟩ := hcut
  have hfilter : (s1 ++ hyphen::(s2 ++ hyphen::(s3 ++ hyphen::(s4 ++ hyphen::s5)))).filter
      (fun c => c ≠ hyphen) = s1.filter (· ≠ hyphen) ++ (s2.filter (· ≠ hyphen) ++
        (s3.filter (· ≠ hyphen) ++ (s4.filter (· ≠ hyphen) ++ s5.filter (· ≠ hyphen)))) := by simp
  rw [hfilter] at hhex ⊢
  obtain ⟨hsum,hdigit⟩ := not_or.mp hhex
  rw [not_not] at hsum
  simp only [List.length_append] at hsum
  rw [Bool.not_eq_true',Bool.not_eq_false,List.all_eq_true] at hdigit
  -- 32 of the 36 bytes are left, so no group holds another hyphen
  have hle (s : Bytes) : (s.filter (· ≠ hyphen)).length ≤ s.length := List.length_filter_le ..
  have hfull (s : Bytes) (h : (s.filter (· ≠ hyphen)).length = s.length) :
      s.filter (· ≠ hyphen) = s := List.filter_eq_self.mpr (List.length_filter_eq_length_iff.mp h)
  have g1 := hle s1
  have g2 := hle s2
  have g3 := hle s3
  have g4 := hle s4
  have g5 := hle s5
  rw [hfull s1 (by omega),hfull s2 (by omega),hfull s3 (by omega),hfull s4 (by omega),
    hfull s5 (by omega)] at hdigit ⊢
  simp only [List.mem_append] at hdigit
  obtain ⟨n1,t1⟩ := hexPairs_spec s1 4 (by omega) fun c hc => hdigit c (by simp [hc])
  obtain ⟨n2,t2⟩ := hexPairs_spec s2 2 (by omega) fun c hc => hdigit c (by simp [hc])
  obtain ⟨n3,t3⟩ := hexPairs_spec s3 2 (by omega) fun c hc => hdigit c (by simp [hc])
  obtain ⟨n4,t4⟩ := hexPairs_spec s4 2 (by omega) fun c hc => hdigit c (by simp [hc])
  obtain ⟨n5,t5⟩ := hexPairs_spec s5 6 (by omega) fun c hc => hdigit c (by simp [hc])
  have hascii : ∀ c ∈ utf8 u, c.toNat < 128 := by
    intro c hc
    rw [hs] at hc
    simp only [List.mem_append,List.mem_cons] at hc
    by_cases hh : c = hyphen
    · rw [hh]; decide
    · exact (digit_spec c (hdigit c (by tauto))).2.2
  rw [hexPairs_append s1 _ 4 l1,hexPairs_append s2 _ 2 l2,hexPairs_append s3 _ 2 l3,
    hexPairs_append s4 _ 2 l4]
  constructor
  · simp only [List.length_append]
    omega
  · have htext : u.map Char.toLower = (utf8 u).map asciiLower := by
      conv_lhs => rw [eq_map_utf8_of_ascii hascii]
      rw [List.map_map]
      rfl
    have hhyphen : asciiLower hyphen = '-' := by decide
    rw [htext,hs]
    rw [uuidText_groups n1 n2 n3 n4]
    simp only [List.map_append,List.map_cons,hhyphen,← t1,← t2,← t3,← t4,← t5]

/-! ## The accepted texts -/

def isHexDigit (c : Char) : Bool :=
  (48 ≤ c.toNat && c.toNat ≤ 57) || (65 ≤ c.toNat && c.toNat ≤ 70) || (97 ≤ c.toNat && c.toNat ≤ 102)

/-- Groups of 8, 4, 4, 4 and 12 hexadecimal digits in either case, joined by hyphens. -/
def UuidForm (s : Text) : Prop :=
  ∃ g1 g2 g3 g4 g5 : Text, s = g1 ++ '-'::(g2 ++ '-'::(g3 ++ '-'::(g4 ++ '-'::g5))) ∧
    g1.length = 8 ∧ g2.length = 4 ∧ g3.length = 4 ∧ g4.length = 4 ∧ g5.length = 12 ∧
    ∀ c ∈ g1 ++ (g2 ++ (g3 ++ (g4 ++ g5))), isHexDigit c

private theorem isHexDigit_ascii {c : Char} (h : isHexDigit c) : c.toNat < 128 := by
  simp only [isHexDigit,Bool.or_eq_true,Bool.and_eq_true,decide_eq_true_eq] at h
  omega

private theorem isHexDigit_byte {c : Char} (h : isHexDigit c) :
    isAsciiHexdigit (UInt8.ofNat c.toNat) ∧ UInt8.ofNat c.toNat ≠ hyphen := by
  have hall : ∀ n < 128, isHexDigit (Char.ofNat n) →
      isAsciiHexdigit (UInt8.ofNat n) ∧ UInt8.ofNat n ≠ hyphen := by decide +kernel
  exact hall c.toNat (isHexDigit_ascii h) (by rwa [Char.ofNat_toNat])

private theorem getD_middle (a : Bytes) (c : UInt8) (b : Bytes) : (a ++ c::b).getD a.length 0 = c := by
  simp [List.getD]

theorem parseUuid_of_form {s : Text} (h : UuidForm s) : ∃ b, parseUuid s = some b := by
  obtain ⟨g1,g2,g3,g4,g5,rfl,l1,l2,l3,l4,l5,hdigits⟩ := h
  simp only [List.mem_append] at hdigits
  let bytes (g : Text) : Bytes := g.map fun c => UInt8.ofNat c.toNat
  have hutf8 (g : Text) (hg : ∀ c ∈ g, isHexDigit c) : utf8 g = bytes g :=
    utf8_of_ascii fun c hc => isHexDigit_ascii (hg c hc)
  have hlen (g : Text) : (bytes g).length = g.length := List.length_map _
  have hfilter (g : Text) (hg : ∀ c ∈ g, isHexDigit c) : (bytes g).filter (· ≠ hyphen) = bytes g := by
    rw [List.filter_eq_self]
    intro b hb
    obtain ⟨c,hc,rfl⟩ := List.mem_map.mp hb
    exact decide_eq_true (isHexDigit_byte (hg c hc)).2
  have d1 : ∀ c ∈ g1, isHexDigit c := fun c hc => hdigits c (by simp [hc])
  have d2 : ∀ c ∈ g2, isHexDigit c := fun c hc => hdigits c (by simp [hc])
  have d3 : ∀ c ∈ g3, isHexDigit c := fun c hc => hdigits c (by simp [hc])
  have d4 : ∀ c ∈ g4, isHexDigit c := fun c hc => hdigits c (by simp [hc])
  have d5 : ∀ c ∈ g5, isHexDigit c := fun c hc => hdigits c (by simp [hc])
  have hhyphen : String.utf8EncodeChar '-' = [hyphen] := by decide
  have hbytes : utf8 (g1 ++ '-'::(g2 ++ '-'::(g3 ++ '-'::(g4 ++ '-'::g5)))) = bytes g1 ++
      hyphen::(bytes g2 ++ hyphen::(bytes g3 ++ hyphen::(bytes g4 ++ hyphen::bytes g5))) := by
    simp only [utf8_append,utf8_cons,hhyphen,hutf8 g1 d1,hutf8 g2 d2,hutf8 g3 d3,hutf8 g4 d4,
      hutf8 g5 d5,List.singleton_append]
  have h8 := getD_middle (bytes g1) hyphen
    (bytes g2 ++ hyphen::(bytes g3 ++ hyphen::(bytes g4 ++ hyphen::bytes g5)))
  have h13 := getD_middle (bytes g1 ++ hyphen::bytes g2) hyphen
    (bytes g3 ++ hyphen::(bytes g4 ++ hyphen::bytes g5))
  have h18 := getD_middle (bytes g1 ++ hyphen::(bytes g2 ++ hyphen::bytes g3)) hyphen
    (bytes g4 ++ hyphen::bytes g5)
  have h23 := getD_middle (bytes g1 ++ hyphen::(bytes g2 ++ hyphen::(bytes g3 ++ hyphen::bytes g4)))
    hyphen (bytes g5)
  simp only [List.append_assoc,List.cons_append,List.length_append,List.length_cons,hlen,l1,l2,l3,l4,
    Nat.reduceAdd] at h8 h13 h18 h23
  have hshape : ¬((utf8 (g1 ++ '-'::(g2 ++ '-'::(g3 ++ '-'::(g4 ++ '-'::g5))))).length ≠ 36 ∨
      [8,13,18,23].any fun i =>
        (utf8 (g1 ++ '-'::(g2 ++ '-'::(g3 ++ '-'::(g4 ++ '-'::g5))))).getD i 0 ≠ hyphen) := by
    rw [hbytes]
    simp only [List.any_cons,List.any_nil,h8,h13,h18,h23,List.length_append,List.length_cons,hlen,
      l1,l2,l3,l4,l5]
    decide
  have hhex : (utf8 (g1 ++ '-'::(g2 ++ '-'::(g3 ++ '-'::(g4 ++ '-'::g5))))).filter (· ≠ hyphen) =
      bytes (g1 ++ (g2 ++ (g3 ++ (g4 ++ g5)))) := by
    rw [hbytes]
    have hcons (r : Bytes) : (hyphen::r).filter (· ≠ hyphen) = r.filter (· ≠ hyphen) :=
      List.filter_cons_of_neg (by simp)
    simp only [List.filter_append,hcons,hfilter g1 d1,hfilter g2 d2,hfilter g3 d3,hfilter g4 d4,
      hfilter g5 d5,bytes,List.map_append]
  have hall : ¬((bytes (g1 ++ (g2 ++ (g3 ++ (g4 ++ g5))))).length ≠ 32 ∨
      !(bytes (g1 ++ (g2 ++ (g3 ++ (g4 ++ g5))))).all isAsciiHexdigit) := by
    rw [not_or,not_not,hlen,Bool.not_eq_true',Bool.not_eq_false,List.all_eq_true]
    refine ⟨by simp only [List.length_append,l1,l2,l3,l4,l5],?_⟩
    intro b hb
    obtain ⟨c,hc,rfl⟩ := List.mem_map.mp hb
    refine (isHexDigit_byte (hdigits c ?_)).1
    simpa only [List.mem_append] using hc
  refine ⟨hexPairs (bytes (g1 ++ (g2 ++ (g3 ++ (g4 ++ g5))))),?_⟩
  simp only [parseUuid,if_neg hshape,hhex,if_neg hall]

private theorem of_toLower {c : Char} (h : isHexDigit c.toLower ∨ c.toLower = '-') :
    isHexDigit c ∧ c.toLower ≠ '-' ∨ c = '-' := by
  by_cases hup : c.isUpper
  · have hlt : c.toNat < 128 := by
      have halnum : c.isAlphanum = (c.isUpper || c.isLower || c.isDigit) := rfl
      exact isAlphanum_ascii (by simp [halnum,hup])
    have hall : ∀ n < 128, isHexDigit (Char.ofNat n).toLower ∨ (Char.ofNat n).toLower = '-' →
        isHexDigit (Char.ofNat n) ∧ (Char.ofNat n).toLower ≠ '-' ∨ Char.ofNat n = '-' := by
      decide +kernel
    have hc := hall c.toNat hlt
    rw [Char.ofNat_toNat] at hc
    exact hc h
  · have hsame : c.toLower = c := by
      rw [isUpper_iff] at hup
      exact dif_neg hup
    rw [hsame] at h ⊢
    rcases h with h | h
    · left
      refine ⟨h,?_⟩
      rintro rfl
      exact absurd h (by decide)
    · exact Or.inr h

private theorem hexBytes_digit {bs : Bytes} {c : Char} (hc : c ∈ hexBytes bs) : isHexDigit c := by
  have hdigit : ∀ n < 16, isHexDigit (Nat.digitChar n) := by decide
  obtain ⟨x,-,hx⟩ := List.mem_flatMap.mp hc
  have hlt := x.toNat_lt
  simp only [List.mem_cons,List.not_mem_nil,or_false] at hx
  rcases hx with rfl | rfl
  · exact hdigit _ (by omega)
  · exact hdigit _ (by omega)

private theorem hexBytes_length (bs : Bytes) : (hexBytes bs).length = 2 * bs.length := by
  simp [hexBytes,List.length_flatMap,Nat.mul_comm]

theorem CanonicalUuid.form {u : Text} {b : Bytes} (h : CanonicalUuid u b) : UuidForm u := by
  have hdigits {g : Text} {bs : Bytes} (hg : g.map Char.toLower = hexBytes bs) :
      ∀ c ∈ g, isHexDigit c := by
    intro c hc
    have hlow : isHexDigit c.toLower := hexBytes_digit (hg ▸ List.mem_map_of_mem hc)
    rcases of_toLower (Or.inl hlow) with hc' | rfl
    · exact hc'.1
    · exact absurd hlow (by decide)
  have hlen {g : Text} {bs : Bytes} (hg : g.map Char.toLower = hexBytes bs) :
      g.length = 2 * bs.length := by
    rw [← hexBytes_length,← hg,List.length_map]
  have hhyphen {c : Char} (hc : c.toLower = '-') : c = '-' := by
    rcases of_toLower (Or.inr hc) with hc' | hc'
    · exact absurd hc hc'.2
    · exact hc'
  have htext := h.text
  unfold uuidText at htext
  obtain ⟨g1,r1,rfl,t1,htext⟩ := List.map_eq_append_iff.mp htext
  obtain ⟨c1,r1,rfl,k1,htext⟩ := List.map_eq_cons_iff.mp htext
  obtain ⟨g2,r2,rfl,t2,htext⟩ := List.map_eq_append_iff.mp htext
  obtain ⟨c2,r2,rfl,k2,htext⟩ := List.map_eq_cons_iff.mp htext
  obtain ⟨g3,r3,rfl,t3,htext⟩ := List.map_eq_append_iff.mp htext
  obtain ⟨c3,r3,rfl,k3,htext⟩ := List.map_eq_cons_iff.mp htext
  obtain ⟨g4,r4,rfl,t4,htext⟩ := List.map_eq_append_iff.mp htext
  obtain ⟨c4,g5,rfl,k4,t5⟩ := List.map_eq_cons_iff.mp htext
  rw [hhyphen k1,hhyphen k2,hhyphen k3,hhyphen k4]
  have hb := h.length
  refine ⟨g1,g2,g3,g4,g5,rfl,?_,?_,?_,?_,?_,?_⟩
  · simp [hlen t1,hb]
  · simp [hlen t2,hb]
  · simp [hlen t3,hb]
  · simp [hlen t4,hb]
  · simp [hlen t5,hb]
  · intro c hc
    simp only [List.mem_append] at hc
    rcases hc with hc | hc | hc | hc | hc
    · exact hdigits t1 c hc
    · exact hdigits t2 c hc
    · exact hdigits t3 c hc
    · exact hdigits t4 c hc
    · exact hdigits t5 c hc

/-- The accepted texts are exactly those of the form. -/
theorem parseUuid_accepts_iff {s : Text} : (∃ b, parseUuid s = some b) ↔ UuidForm s := by
  constructor
  · rintro ⟨b,hb⟩
    exact (parseUuid_canonical hb).form
  · exact parseUuid_of_form

private theorem hexBytes_injective {a b : Bytes} (h : hexBytes a = hexBytes b) : a = b := by
  have hdigit : ∀ m < 16, ∀ n < 16, Nat.digitChar m = Nat.digitChar n → m = n := by decide
  induction a generalizing b with
  | nil =>
    have hlen := congrArg List.length h
    rw [hexBytes_length,hexBytes_length,List.length_nil] at hlen
    exact (List.length_eq_zero_iff.mp (by omega)).symm
  | cons x a ih =>
    cases b with
    | nil => cases h
    | cons y b =>
      have h : Nat.digitChar (x.toNat / 16)::Nat.digitChar (x.toNat % 16)::hexBytes a =
          Nat.digitChar (y.toNat / 16)::Nat.digitChar (y.toNat % 16)::hexBytes b := h
      simp only [List.cons.injEq] at h
      obtain ⟨hhigh,hlow,hrest⟩ := h
      have hx := x.toNat_lt
      have hy := y.toNat_lt
      have hhigh := hdigit _ (by omega) _ (by omega) hhigh
      have hlow := hdigit _ (by omega) _ (by omega) hlow
      have hxy : x = y := UInt8.toNat_inj.mp (by omega)
      rw [hxy,ih hrest]

theorem uuidText_injective {a b : Bytes} (ha : a.length = 16) (hb : b.length = 16)
    (h : uuidText a = uuidText b) : a = b := by
  have hcut {x y : Bytes} {r s : Text} (hlen : x.length = y.length)
      (h : hexBytes x ++ r = hexBytes y ++ s) : x = y ∧ r = s := by
    have hsame := List.append_inj h (by rw [hexBytes_length,hexBytes_length,hlen])
    exact ⟨hexBytes_injective hsame.1,hsame.2⟩
  unfold uuidText at h
  obtain ⟨h1,h⟩ := hcut (by simp [ha,hb]) h
  obtain ⟨h2,h⟩ := hcut (by simp [ha,hb]) (List.cons.inj h).2
  obtain ⟨h3,h⟩ := hcut (by simp [ha,hb]) (List.cons.inj h).2
  obtain ⟨h4,h⟩ := hcut (by simp [ha,hb]) (List.cons.inj h).2
  have h5 := hexBytes_injective (List.cons.inj h).2
  have hjoin (b : Bytes) : b.take 4 ++ ((b.drop 4).take 2 ++ ((b.drop 6).take 2 ++
      ((b.drop 8).take 2 ++ b.drop 10))) = b := by
    have hnext (i j : Nat) : (b.drop i).take j ++ b.drop (i+j) = b.drop i := by
      rw [← List.drop_drop,List.take_append_drop]
    rw [hnext 8 2,hnext 6 2,hnext 4 2,List.take_append_drop]
  rw [← hjoin a,← hjoin b,h1,h2,h3,h4,h5]

theorem parseUuid_uuidText {b : Bytes} (h : b.length = 16) : parseUuid (uuidText b) = some b := by
  have hlower (bs : Bytes) : (hexBytes bs).map Char.toLower = hexBytes bs := by
    have hdigit : ∀ n < 16, (Nat.digitChar n).toLower = Nat.digitChar n := by decide
    induction bs with
    | nil => rfl
    | cons x bs ih =>
      have hx := x.toNat_lt
      have hcons : hexBytes (x::bs) =
          Nat.digitChar (x.toNat / 16)::Nat.digitChar (x.toNat % 16)::hexBytes bs := rfl
      rw [hcons,List.map_cons,List.map_cons,ih,hdigit _ (by omega),hdigit _ (by omega)]
  have hself : (uuidText b).map Char.toLower = uuidText b := by
    have hhyphen : '-'.toLower = '-' := by decide
    simp only [uuidText,List.map_append,List.map_cons,hlower,hhyphen]
  have hcanon : CanonicalUuid (uuidText b) b := ⟨h,hself⟩
  obtain ⟨b',hb'⟩ := parseUuid_of_form hcanon.form
  have hcanon' := parseUuid_canonical hb'
  have hsame : uuidText b = uuidText b' := hself.symm.trans hcanon'.text
  rw [hb',uuidText_injective h hcanon'.length hsame]

end Rmbtd
