import Rmbtd.Library.Text

/-!
# UTF-8

The encoder is Lean's own. The decoder splits a byte string into scalar values and maximal
ill-formed sequences, as Rust's `Utf8Chunks` does; `from_utf8` rejects the latter and
`from_utf8_lossy` replaces each of them by U+FFFD.
-/

namespace Rmbtd

/-- `str::as_bytes`. -/
def utf8 (t : Text) : Bytes := t.flatMap String.utf8EncodeChar

/-- `str::len`, in bytes. -/
def byteLen (t : Text) : Nat := (utf8 t).length

@[simp] theorem utf8_nil : utf8 [] = [] := rfl

@[simp] theorem utf8_cons (c : Char) (t : Text) : utf8 (c::t) = String.utf8EncodeChar c ++ utf8 t := by
  simp [utf8]

@[simp] theorem utf8_append (s t : Text) : utf8 (s ++ t) = utf8 s ++ utf8 t := by
  simp [utf8]

private def within (lo hi : Nat) (b : UInt8) : Bool := lo ≤ b.toNat && b.toNat ≤ hi

private def second3 (a : Nat) : Nat × Nat :=
  if a = 0xE0 then (0xA0,0xBF) else if a = 0xED then (0x80,0x9F) else (0x80,0xBF)

private def second4 (a : Nat) : Nat × Nat :=
  if a = 0xF0 then (0x90,0xBF) else if a = 0xF4 then (0x80,0x8F) else (0x80,0xBF)

/-- Decode the sequence that starts with `a`: its scalar value, or `none` for an ill-formed
sequence, and the bytes after it. -/
def nextChar (a : UInt8) (rest : Bytes) : Option Char × Bytes :=
  let n := a.toNat
  if n < 0x80 then (some (Char.ofNat n),rest)
  else if 0xC2 ≤ n ∧ n ≤ 0xDF then
    match rest with
    | b::r1 =>
      if within 0x80 0xBF b then (some (Char.ofNat ((n - 0xC0) * 64 + (b.toNat - 0x80))),r1)
      else (none,rest)
    | [] => (none,[])
  else if 0xE0 ≤ n ∧ n ≤ 0xEF then
    match rest with
    | b::r1 =>
      if within (second3 n).1 (second3 n).2 b then
        match r1 with
        | c::r2 =>
          if within 0x80 0xBF c then
            (some (Char.ofNat ((n - 0xE0) * 4096 + (b.toNat - 0x80) * 64 + (c.toNat - 0x80))),r2)
          else (none,r1)
        | [] => (none,[])
      else (none,rest)
    | [] => (none,[])
  else if 0xF0 ≤ n ∧ n ≤ 0xF4 then
    match rest with
    | b::r1 =>
      if within (second4 n).1 (second4 n).2 b then
        match r1 with
        | c::r2 =>
          if within 0x80 0xBF c then
            match r2 with
            | d::r3 =>
              if within 0x80 0xBF d then
                (some (Char.ofNat ((n - 0xF0) * 262144 + (b.toNat - 0x80) * 4096 +
                  (c.toNat - 0x80) * 64 + (d.toNat - 0x80))),r3)
              else (none,r2)
            | [] => (none,[])
          else (none,r1)
        | [] => (none,[])
      else (none,rest)
    | [] => (none,[])
  else (none,rest)

private def chunks : Nat → Bytes → List (Option Char)
  | 0, _ => []
  | _+1, [] => []
  | n+1, b::bs => (nextChar b bs).1 :: chunks n (nextChar b bs).2

/-- The scalar values of a byte string in order, `none` for each ill-formed sequence. -/
def utf8Chunks (bs : Bytes) : List (Option Char) := chunks bs.length bs

/-- `String::from_utf8`. -/
def fromUtf8 (bs : Bytes) : Option Text :=
  if (utf8Chunks bs).all Option.isSome then some ((utf8Chunks bs).filterMap id) else none

/-- `String::from_utf8_lossy`. -/
def fromUtf8Lossy (bs : Bytes) : Text := (utf8Chunks bs).map fun c => c.getD (Char.ofNat 0xFFFD)

private theorem ofNat_toNat_mod (n : Nat) (h : n < 256) : (UInt8.ofNat n).toNat = n := by
  simp only [UInt8.toNat_ofNat']
  omega

private theorem char_range (c : Char) : c.toNat < 0xD800 ∨ 0xDFFF < c.toNat ∧ c.toNat < 0x110000 := by
  have h := c.valid
  exact h

theorem nextChar_encode (c : Char) (r : Bytes) :
    ∃ b bs, String.utf8EncodeChar c ++ r = b::bs ∧ nextChar b bs = (some c,r) := by
  have hv := char_range c
  have hc : Char.ofNat c.toNat = c := Char.ofNat_toNat c
  generalize hn : c.toNat = n at hv hc
  have henc : String.utf8EncodeChar c = String.utf8EncodeChar (Char.ofNat n) := by rw [hc]
  have hval : c.val.toNat = n := hn
  by_cases h1 : n ≤ 127
  · refine ⟨UInt8.ofNat n,r,by simp [String.utf8EncodeChar,hval,h1],?_⟩
    have ha := ofNat_toNat_mod n (by omega)
    simp only [nextChar,ha,if_pos (show n < 0x80 by omega),hc]
  by_cases h2 : n ≤ 2047
  · refine ⟨UInt8.ofNat (n / 64 % 32 + 192),UInt8.ofNat (n % 64 + 128)::r,
      by simp [String.utf8EncodeChar,hval,h1,h2],?_⟩
    have ha := ofNat_toNat_mod (n / 64 % 32 + 192) (by omega)
    have hb := ofNat_toNat_mod (n % 64 + 128) (by omega)
    have e : (n / 64 % 32 + 192 - 0xC0) * 64 + (n % 64 + 128 - 0x80) = n := by omega
    have w : 128 ≤ n % 64 + 128 ∧ n % 64 + 128 ≤ 191 := by omega
    simp only [nextChar,ha,within,hb,if_neg (show ¬n / 64 % 32 + 192 < 0x80 by omega),
      if_pos (show 0xC2 ≤ n / 64 % 32 + 192 ∧ n / 64 % 32 + 192 ≤ 0xDF by omega),w,
      decide_true,Bool.and_true,if_true,e,hc]
  by_cases h3 : n ≤ 65535
  · refine ⟨UInt8.ofNat (n / 4096 % 16 + 224),UInt8.ofNat (n / 64 % 64 + 128)::
      UInt8.ofNat (n % 64 + 128)::r,by simp [String.utf8EncodeChar,hval,h1,h2,h3],?_⟩
    have ha := ofNat_toNat_mod (n / 4096 % 16 + 224) (by omega)
    have hb := ofNat_toNat_mod (n / 64 % 64 + 128) (by omega)
    have hd := ofNat_toNat_mod (n % 64 + 128) (by omega)
    have e : (n / 4096 % 16 + 224 - 0xE0) * 4096 + (n / 64 % 64 + 128 - 0x80) * 64 +
        (n % 64 + 128 - 0x80) = n := by omega
    have w : 128 ≤ n % 64 + 128 ∧ n % 64 + 128 ≤ 191 := by omega
    have w2 : (second3 (n / 4096 % 16 + 224)).1 ≤ n / 64 % 64 + 128 ∧
        n / 64 % 64 + 128 ≤ (second3 (n / 4096 % 16 + 224)).2 := by
      simp only [second3]
      split
      · constructor <;> simp only <;> omega
      · split <;> constructor <;> simp only <;> omega
    simp only [nextChar,ha,within,hb,hd,if_neg (show ¬n / 4096 % 16 + 224 < 0x80 by omega),
      if_neg (show ¬(0xC2 ≤ n / 4096 % 16 + 224 ∧ n / 4096 % 16 + 224 ≤ 0xDF) by omega),
      if_pos (show 0xE0 ≤ n / 4096 % 16 + 224 ∧ n / 4096 % 16 + 224 ≤ 0xEF by omega),w,w2,
      decide_true,Bool.and_true,if_true,e,hc]
  · refine ⟨UInt8.ofNat (n / 262144 % 8 + 240),UInt8.ofNat (n / 4096 % 64 + 128)::
      UInt8.ofNat (n / 64 % 64 + 128)::UInt8.ofNat (n % 64 + 128)::r,
      by simp [String.utf8EncodeChar,hval,h1,h2,h3],?_⟩
    have ha := ofNat_toNat_mod (n / 262144 % 8 + 240) (by omega)
    have hb := ofNat_toNat_mod (n / 4096 % 64 + 128) (by omega)
    have hd := ofNat_toNat_mod (n / 64 % 64 + 128) (by omega)
    have he := ofNat_toNat_mod (n % 64 + 128) (by omega)
    have e : (n / 262144 % 8 + 240 - 0xF0) * 262144 + (n / 4096 % 64 + 128 - 0x80) * 4096 +
        (n / 64 % 64 + 128 - 0x80) * 64 + (n % 64 + 128 - 0x80) = n := by omega
    have w : 128 ≤ n % 64 + 128 ∧ n % 64 + 128 ≤ 191 := by omega
    have w1 : 128 ≤ n / 64 % 64 + 128 ∧ n / 64 % 64 + 128 ≤ 191 := by omega
    have w2 : (second4 (n / 262144 % 8 + 240)).1 ≤ n / 4096 % 64 + 128 ∧
        n / 4096 % 64 + 128 ≤ (second4 (n / 262144 % 8 + 240)).2 := by
      simp only [second4]
      split
      · constructor <;> simp only <;> omega
      · split <;> constructor <;> simp only <;> omega
    simp only [nextChar,ha,within,hb,hd,he,if_neg (show ¬n / 262144 % 8 + 240 < 0x80 by omega),
      if_neg (show ¬(0xC2 ≤ n / 262144 % 8 + 240 ∧ n / 262144 % 8 + 240 ≤ 0xDF) by omega),
      if_neg (show ¬(0xE0 ≤ n / 262144 % 8 + 240 ∧ n / 262144 % 8 + 240 ≤ 0xEF) by omega),
      if_pos (show 0xF0 ≤ n / 262144 % 8 + 240 ∧ n / 262144 % 8 + 240 ≤ 0xF4 by omega),w,w1,w2,
      decide_true,Bool.and_true,if_true,e,hc]

/-! ## Soundness of the decoder -/

private theorem encode_ofNat {n : Nat} (h : n < 0xD800 ∨ 0xDFFF < n ∧ n < 0x110000) :
    (Char.ofNat n).val.toNat = n := by
  have hvalid : n.isValidChar := h
  rw [Char.ofNat,dif_pos hvalid]
  rfl

private theorem eq_ofNat {a : UInt8} {n : Nat} (h : n = a.toNat) : UInt8.ofNat n = a := by
  rw [h,UInt8.ofNat_toNat]

private theorem encode1 {a : UInt8} (ha : a.toNat < 0x80) :
    String.utf8EncodeChar (Char.ofNat a.toNat) = [a] := by
  have hval := encode_ofNat (n := a.toNat) (by omega)
  simp [String.utf8EncodeChar,hval,show a.toNat ≤ 127 by omega]

private theorem encode2 {a b : UInt8} (ha : 0xC2 ≤ a.toNat ∧ a.toNat ≤ 0xDF)
    (hb : within 0x80 0xBF b) :
    String.utf8EncodeChar (Char.ofNat ((a.toNat - 0xC0) * 64 + (b.toNat - 0x80))) = [a,b] := by
  simp only [within,Bool.and_eq_true,decide_eq_true_eq] at hb
  generalize hn : (a.toNat - 0xC0) * 64 + (b.toNat - 0x80) = n
  have hval := encode_ofNat (n := n) (by omega)
  have h1 : UInt8.ofNat (n / 64 % 32 + 192) = a := eq_ofNat (by omega)
  have h2 : UInt8.ofNat (n % 64 + 128) = b := eq_ofNat (by omega)
  rw [← h1,← h2]
  simp [String.utf8EncodeChar,hval,show ¬n ≤ 127 by omega,show n ≤ 2047 by omega]

private theorem encode3 {a b c : UInt8} (ha : 0xE0 ≤ a.toNat ∧ a.toNat ≤ 0xEF)
    (hb : within (second3 a.toNat).1 (second3 a.toNat).2 b) (hc : within 0x80 0xBF c) :
    String.utf8EncodeChar (Char.ofNat ((a.toNat - 0xE0) * 4096 + (b.toNat - 0x80) * 64 +
      (c.toNat - 0x80))) = [a,b,c] := by
  simp only [within,Bool.and_eq_true,decide_eq_true_eq] at hb hc
  -- the bounds of the second byte exclude short encodings and surrogates
  have hb' : 0x80 ≤ b.toNat ∧ b.toNat ≤ 0xBF ∧ (a.toNat = 0xE0 → 0xA0 ≤ b.toNat) ∧
      (a.toNat = 0xED → b.toNat ≤ 0x9F) := by
    unfold second3 at hb
    split at hb
    · exact ⟨by omega,hb.2,fun _ => hb.1,by omega⟩
    · split at hb
      · exact ⟨hb.1,by omega,by omega,fun _ => hb.2⟩
      · exact ⟨hb.1,hb.2,by omega,by omega⟩
  clear hb
  generalize hn : (a.toNat - 0xE0) * 4096 + (b.toNat - 0x80) * 64 + (c.toNat - 0x80) = n
  have hval := encode_ofNat (n := n) (by omega)
  have h1 : UInt8.ofNat (n / 4096 % 16 + 224) = a := eq_ofNat (by omega)
  have h2 : UInt8.ofNat (n / 64 % 64 + 128) = b := eq_ofNat (by omega)
  have h3 : UInt8.ofNat (n % 64 + 128) = c := eq_ofNat (by omega)
  rw [← h1,← h2,← h3]
  simp [String.utf8EncodeChar,hval,show ¬n ≤ 127 by omega,show ¬n ≤ 2047 by omega,
    show n ≤ 65535 by omega]

private theorem encode4 {a b c d : UInt8} (ha : 0xF0 ≤ a.toNat ∧ a.toNat ≤ 0xF4)
    (hb : within (second4 a.toNat).1 (second4 a.toNat).2 b) (hc : within 0x80 0xBF c)
    (hd : within 0x80 0xBF d) :
    String.utf8EncodeChar (Char.ofNat ((a.toNat - 0xF0) * 262144 + (b.toNat - 0x80) * 4096 +
      (c.toNat - 0x80) * 64 + (d.toNat - 0x80))) = [a,b,c,d] := by
  simp only [within,Bool.and_eq_true,decide_eq_true_eq] at hb hc hd
  -- the bounds of the second byte exclude short encodings and what is past the last plane
  have hb' : 0x80 ≤ b.toNat ∧ b.toNat ≤ 0xBF ∧ (a.toNat = 0xF0 → 0x90 ≤ b.toNat) ∧
      (a.toNat = 0xF4 → b.toNat ≤ 0x8F) := by
    unfold second4 at hb
    split at hb
    · exact ⟨by omega,hb.2,fun _ => hb.1,by omega⟩
    · split at hb
      · exact ⟨hb.1,by omega,by omega,fun _ => hb.2⟩
      · exact ⟨hb.1,hb.2,by omega,by omega⟩
  clear hb
  generalize hn : (a.toNat - 0xF0) * 262144 + (b.toNat - 0x80) * 4096 + (c.toNat - 0x80) * 64 +
    (d.toNat - 0x80) = n
  have hval := encode_ofNat (n := n) (by omega)
  have h1 : UInt8.ofNat (n / 262144 % 8 + 240) = a := eq_ofNat (by omega)
  have h2 : UInt8.ofNat (n / 4096 % 64 + 128) = b := eq_ofNat (by omega)
  have h3 : UInt8.ofNat (n / 64 % 64 + 128) = c := eq_ofNat (by omega)
  have h4 : UInt8.ofNat (n % 64 + 128) = d := eq_ofNat (by omega)
  rw [← h1,← h2,← h3,← h4]
  simp [String.utf8EncodeChar,hval,show ¬n ≤ 127 by omega,show ¬n ≤ 2047 by omega,
    show ¬n ≤ 65535 by omega]

theorem encode_nextChar {a : UInt8} {rest r : Bytes} {c : Char} (h : nextChar a rest = (some c,r)) :
    String.utf8EncodeChar c ++ r = a::rest := by
  unfold nextChar at h
  dsimp only at h
  split at h
  · next ha =>
    simp only [Prod.mk.injEq,Option.some.injEq] at h
    rw [← h.1,← h.2,encode1 ha]
    rfl
  split at h
  · next ha =>
    split at h
    · split at h
      · next hb =>
        simp only [Prod.mk.injEq,Option.some.injEq] at h
        rw [← h.1,← h.2,encode2 ha hb]
        rfl
      · cases h
    · cases h
  split at h
  · next ha =>
    split at h
    · split at h
      · next hb =>
        split at h
        · split at h
          · next hc =>
            simp only [Prod.mk.injEq,Option.some.injEq] at h
            rw [← h.1,← h.2,encode3 ha hb hc]
            rfl
          · cases h
        · cases h
      · cases h
    · cases h
  split at h
  · next ha =>
    split at h
    · split at h
      · next hb =>
        split at h
        · split at h
          · next hc =>
            split at h
            · split at h
              · next hd =>
                simp only [Prod.mk.injEq,Option.some.injEq] at h
                rw [← h.1,← h.2,encode4 ha hb hc hd]
                rfl
              · cases h
            · cases h
          · cases h
        · cases h
      · cases h
    · cases h
  · cases h

private theorem chunks_utf8 (n : Nat) (t : Text) (h : (utf8 t).length ≤ n) :
    chunks n (utf8 t) = t.map some := by
  induction t generalizing n with
  | nil => cases n <;> rfl
  | cons c t ih =>
    obtain ⟨b,bs,he,hn⟩ := nextChar_encode c (utf8 t)
    have hpos : 0 < (String.utf8EncodeChar c).length := by
      rw [String.length_utf8EncodeChar]
      exact Char.utf8Size_pos c
    rw [utf8_cons,List.length_append] at h
    cases n with
    | zero => omega
    | succ n =>
      rw [utf8_cons,he,chunks,hn]
      simp only [List.map_cons,ih n (by omega)]

@[simp] theorem utf8Chunks_utf8 (t : Text) : utf8Chunks (utf8 t) = t.map some :=
  chunks_utf8 _ t le_rfl

@[simp] theorem fromUtf8_utf8 (t : Text) : fromUtf8 (utf8 t) = some t := by
  simp [fromUtf8,List.filterMap_map]

@[simp] theorem fromUtf8Lossy_utf8 (t : Text) : fromUtf8Lossy (utf8 t) = t := by
  simp [fromUtf8Lossy,Function.comp_def]

private theorem utf8_chunks {n : Nat} {bs : Bytes} (hn : bs.length ≤ n)
    (h : (chunks n bs).all Option.isSome) : utf8 ((chunks n bs).filterMap id) = bs := by
  induction n generalizing bs with
  | zero =>
    rw [List.length_eq_zero_iff.mp (Nat.le_zero.mp hn)]
    rfl
  | succ n ih =>
    cases bs with
    | nil => rfl
    | cons b bs =>
      rw [chunks,List.all_cons,Bool.and_eq_true] at h
      obtain ⟨c,hc⟩ := Option.isSome_iff_exists.mp h.1
      have hnext : nextChar b bs = (some c,(nextChar b bs).2) := by rw [← hc]
      have henc := encode_nextChar hnext
      have hlen : (nextChar b bs).2.length ≤ n := by
        have hsize := congrArg List.length henc
        have hpos : 0 < (String.utf8EncodeChar c).length := by
          rw [String.length_utf8EncodeChar]
          exact Char.utf8Size_pos c
        rw [List.length_append,List.length_cons] at hsize
        rw [List.length_cons] at hn
        omega
      rw [chunks,hc]
      change utf8 (c::(chunks n (nextChar b bs).2).filterMap id) = b::bs
      rw [utf8_cons,ih hlen h.2,henc]

/-- What is decoded is what was encoded. -/
theorem utf8_of_fromUtf8 {bs : Bytes} {t : Text} (h : fromUtf8 bs = some t) : utf8 t = bs := by
  unfold fromUtf8 at h
  split at h
  · next hall =>
    cases h
    exact utf8_chunks le_rfl hall
  · cases h

theorem utf8_injective {s t : Text} (h : utf8 s = utf8 t) : s = t := by
  have hs := fromUtf8_utf8 s
  rw [h,fromUtf8_utf8] at hs
  exact (Option.some.inj hs).symm

theorem encodeChar_of_ascii {c : Char} {b : UInt8} (hb : b ∈ String.utf8EncodeChar c)
    (hascii : b.toNat < 128) : String.utf8EncodeChar c = [b] ∧ c = Char.ofNat b.toNat := by
  have hval : c.val.toNat = c.toNat := rfl
  have hlarge (n : Nat) (h : 128 ≤ n % 256) : b ≠ UInt8.ofNat n := by
    intro heq
    rw [heq,UInt8.toNat_ofNat'] at hascii
    omega
  unfold String.utf8EncodeChar at hb ⊢
  simp only [hval] at hb ⊢
  split at hb
  · next hle =>
    have heq := List.mem_singleton.mp hb
    have hc : b.toNat = c.toNat := by
      rw [heq,ofNat_toNat_mod _ (by omega)]
    rw [if_pos hle,← heq,hc,Char.ofNat_toNat]
    exact ⟨rfl,rfl⟩
  · exfalso
    split at hb
    · simp only [List.mem_cons,List.not_mem_nil,or_false] at hb
      rcases hb with hb | hb <;> exact hlarge _ (by omega) hb
    · split at hb
      · simp only [List.mem_cons,List.not_mem_nil,or_false] at hb
        rcases hb with hb | hb | hb <;> exact hlarge _ (by omega) hb
      · simp only [List.mem_cons,List.not_mem_nil,or_false] at hb
        rcases hb with hb | hb | hb | hb <;> exact hlarge _ (by omega) hb

theorem mem_of_mem_utf8_ascii {t : Text} {b : UInt8} (hb : b ∈ utf8 t) (hascii : b.toNat < 128) :
    Char.ofNat b.toNat ∈ t := by
  obtain ⟨c,hc,hb⟩ := List.mem_flatMap.mp hb
  rw [← (encodeChar_of_ascii hb hascii).2]
  exact hc

theorem utf8_getLast?_ascii {t : Text} {b : UInt8} (hb : (utf8 t).getLast? = some b)
    (hascii : b.toNat < 128) :
    ∃ s, t = s ++ [Char.ofNat b.toNat] ∧ utf8 t = utf8 s ++ [b] := by
  cases ht : t.reverse with
  | nil =>
    rw [List.reverse_eq_nil_iff.mp ht] at hb
    cases hb
  | cons c s =>
    obtain rfl := List.reverse_eq_cons_iff.mp ht
    have hne : String.utf8EncodeChar c ≠ [] := by
      intro hnil
      have hpos := Char.utf8Size_pos c
      rw [← String.length_utf8EncodeChar,hnil] at hpos
      exact absurd hpos (by simp)
    have hlast : (String.utf8EncodeChar c).getLast? = some b := by
      rw [utf8_append,utf8_cons,utf8_nil,List.append_nil,List.getLast?_append_of_ne_nil _ hne] at hb
      exact hb
    obtain ⟨henc,hc⟩ := encodeChar_of_ascii (List.mem_of_getLast? hlast) hascii
    exact ⟨s.reverse,by rw [hc],by simp [henc]⟩

theorem eq_map_utf8_of_ascii {t : Text} (h : ∀ b ∈ utf8 t, b.toNat < 128) :
    t = (utf8 t).map fun b => Char.ofNat b.toNat := by
  induction t with
  | nil => rfl
  | cons c t ih =>
    rw [utf8_cons] at h
    obtain ⟨b,bs,hb⟩ : ∃ b bs, String.utf8EncodeChar c = b::bs := by
      apply List.exists_cons_of_length_pos
      rw [String.length_utf8EncodeChar]
      exact Char.utf8Size_pos c
    have hmem : b ∈ String.utf8EncodeChar c := by simp [hb]
    obtain ⟨henc,hc⟩ := encodeChar_of_ascii hmem (h b (List.mem_append_left _ hmem))
    rw [utf8_cons,henc,List.map_append,← ih fun b hb => h b (List.mem_append_right _ hb),
      List.map_singleton,← hc]
    rfl

theorem utf8_of_ascii {t : Text} (h : ∀ c ∈ t, c.toNat < 128) :
    utf8 t = t.map fun c => UInt8.ofNat c.toNat := by
  induction t with
  | nil => rfl
  | cons c t ih =>
    have hval : c.val.toNat = c.toNat := rfl
    have hlt := h c List.mem_cons_self
    have hc : String.utf8EncodeChar c = [UInt8.ofNat c.toNat] := by
      unfold String.utf8EncodeChar
      simp only [hval]
      rw [if_pos (by omega)]
    rw [utf8_cons,hc,ih fun d hd => h d (List.mem_cons_of_mem c hd)]
    rfl

theorem byteLen_of_ascii {t : Text} (h : ∀ c ∈ t, c.toNat < 128) : byteLen t = t.length := by
  rw [byteLen,utf8_of_ascii h,List.length_map]

theorem map_utf8_of_ascii {t : Text} (h : ∀ c ∈ t, c.toNat < 128) :
    ((utf8 t).map fun b => Char.ofNat b.toNat) = t := by
  rw [utf8_of_ascii h,List.map_map]
  calc t.map ((fun b : UInt8 => Char.ofNat b.toNat) ∘ fun c => UInt8.ofNat c.toNat)
      = t.map id := by
        apply List.map_congr_left
        intro c hc
        have hlt := h c hc
        simp only [Function.comp_apply,UInt8.toNat_ofNat']
        rw [Nat.mod_eq_of_lt (by omega),Char.ofNat_toNat]
        rfl
    _ = t := List.map_id t

end Rmbtd
