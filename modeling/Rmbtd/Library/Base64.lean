import Rmbtd.Library.Text

/-!
# Base64

`Base64` is what a caller may rely on: a codec whose decoder accepts exactly the encoder's
outputs, over the standard alphabet. `Base64.standard` is the padded encoding of RFC 4648
with a strict decoder, and shows that such a codec exists.
-/

namespace Rmbtd

structure Base64 where
  encode : Bytes → Text
  decode : Text → Option Bytes
  decode_eq_some : ∀ t b, decode t = some b ↔ t = encode b
  encode_alphabet : ∀ b, ∀ c ∈ encode b, c.isAlphanum ∨ c = '+' ∨ c = '/' ∨ c = '='

namespace Base64

theorem decode_encode (e : Base64) (b : Bytes) : e.decode (e.encode b) = some b :=
  (e.decode_eq_some _ _).mpr rfl

theorem encode_injective (e : Base64) {a b : Bytes} (h : e.encode a = e.encode b) : a = b := by
  have ha := e.decode_encode a
  rw [h,e.decode_encode] at ha
  exact (Option.some.inj ha).symm

theorem not_mem_encode (e : Base64) {c : Char}
    (hc : ¬(c.isAlphanum ∨ c = '+' ∨ c = '/' ∨ c = '=')) (b : Bytes) : c ∉ e.encode b :=
  fun h => hc (e.encode_alphabet b c h)

/-! ## The standard codec -/

def alphabet : Text := "ABCDEFGHIJKLMNOPQRSTUVWXYZabcdefghijklmnopqrstuvwxyz0123456789+/"

private def digit (n : Nat) : Char := alphabet.getD n '='

private def value (c : Char) : Nat := alphabet.idxOf c

private def encodeStandard : Bytes → Text
  | [] => []
  | [a] => [digit (a.toNat / 4),digit (a.toNat % 4 * 16),'=','=']
  | [a,b] => [digit (a.toNat / 4),digit (a.toNat % 4 * 16 + b.toNat / 16),
      digit (b.toNat % 16 * 4),'=']
  | a::b::c::rest => digit (a.toNat / 4) :: digit (a.toNat % 4 * 16 + b.toNat / 16) ::
      digit (b.toNat % 16 * 4 + c.toNat / 64) :: digit (c.toNat % 64) :: encodeStandard rest

private def byte (n : Nat) : UInt8 := UInt8.ofNat n

private def decodeGroups : Text → Bytes
  | w::x::y::z::rest =>
    let first := byte (value w * 4 + value x / 16)
    let second := byte (value x % 16 * 16 + value y / 4)
    if z = '=' then (if y = '=' then [first] else [first,second])
    else first :: second :: byte (value y % 4 * 64 + value z) :: decodeGroups rest
  | _ => []

private theorem digit_spec : ∀ n < 64, value (digit n) = n ∧ digit n ≠ '=' ∧
    ((digit n).isAlphanum ∨ digit n = '+' ∨ digit n = '/') := by decide

private theorem byte_eq {n : Nat} {a : UInt8} (h : n = a.toNat) : byte n = a := by
  subst n
  simp [byte]

private theorem decodeGroups_encode (bs : Bytes) : decodeGroups (encodeStandard bs) = bs := by
  induction bs using encodeStandard.induct with
  | case1 => rfl
  | case2 a =>
    have ha := a.toNat_lt
    have h1 := (digit_spec (a.toNat / 4) (by omega)).1
    have h2 := (digit_spec (a.toNat % 4 * 16) (by omega)).1
    simp only [encodeStandard,decodeGroups,if_true,h1,h2]
    rw [byte_eq (a := a) (by omega)]
  | case3 a b =>
    have ha := a.toNat_lt
    have hb := b.toNat_lt
    have h1 := (digit_spec (a.toNat / 4) (by omega)).1
    have h2 := (digit_spec (a.toNat % 4 * 16 + b.toNat / 16) (by omega)).1
    have h3 := digit_spec (b.toNat % 16 * 4) (by omega)
    simp only [encodeStandard,decodeGroups,if_true,h1,h2,h3.1,if_neg h3.2.1]
    rw [byte_eq (a := a) (by omega),byte_eq (a := b) (by omega)]
  | case4 a b c rest ih =>
    have ha := a.toNat_lt
    have hb := b.toNat_lt
    have hc := c.toNat_lt
    have h1 := (digit_spec (a.toNat / 4) (by omega)).1
    have h2 := (digit_spec (a.toNat % 4 * 16 + b.toNat / 16) (by omega)).1
    have h3 := (digit_spec (b.toNat % 16 * 4 + c.toNat / 64) (by omega)).1
    have h4 := digit_spec (c.toNat % 64) (by omega)
    simp only [encodeStandard,decodeGroups,h1,h2,h3,h4.1,if_neg h4.2.1,ih]
    rw [byte_eq (a := a) (by omega),byte_eq (a := b) (by omega),byte_eq (a := c) (by omega)]

private theorem encodeStandard_alphabet (bs : Bytes) (c : Char) (hc : c ∈ encodeStandard bs) :
    c.isAlphanum ∨ c = '+' ∨ c = '/' ∨ c = '=' := by
  have hd (n : Nat) (hn : n < 64) (h : c = digit n) :
      c.isAlphanum ∨ c = '+' ∨ c = '/' ∨ c = '=' := by
    subst c
    rcases (digit_spec n hn).2.2 with h | h | h <;> simp [h]
  induction bs using encodeStandard.induct with
  | case1 => simp [encodeStandard] at hc
  | case2 a =>
    have ha := a.toNat_lt
    simp only [encodeStandard,List.mem_cons,List.not_mem_nil,or_false] at hc
    rcases hc with h | h | h | h
    · exact hd _ (by omega) h
    · exact hd _ (by omega) h
    · simp [h]
    · simp [h]
  | case3 a b =>
    have ha := a.toNat_lt
    have hb := b.toNat_lt
    simp only [encodeStandard,List.mem_cons,List.not_mem_nil,or_false] at hc
    rcases hc with h | h | h | h
    · exact hd _ (by omega) h
    · exact hd _ (by omega) h
    · exact hd _ (by omega) h
    · simp [h]
  | case4 a b c rest ih =>
    have ha := a.toNat_lt
    have hb := b.toNat_lt
    have hc' := c.toNat_lt
    simp only [encodeStandard,List.mem_cons] at hc
    rcases hc with h | h | h | h | h
    · exact hd _ (by omega) h
    · exact hd _ (by omega) h
    · exact hd _ (by omega) h
    · exact hd _ (by omega) h
    · exact ih h

def standard : Base64 where
  encode := encodeStandard
  decode t := if encodeStandard (decodeGroups t) = t then some (decodeGroups t) else none
  decode_eq_some t b := by
    constructor
    · intro h
      split at h
      · next ht => rw [← Option.some.inj h,ht]
      · cases h
    · rintro rfl
      rw [decodeGroups_encode,if_pos rfl]
  encode_alphabet := encodeStandard_alphabet

example : standard.encode [0x66,0x6f,0x6f,0x62,0x61] = "Zm9vYmE=" := by decide

end Base64

end Rmbtd
