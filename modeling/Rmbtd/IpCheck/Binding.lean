import Rmbtd.IpCheck.Response
import Rmbtd.Protocol.Agreement

/-!
# What the signature of an `/ip` answer binds

The message that is signed is the address as IPv6 and the bytes of the test UUID. Both have a fixed
width, so the message determines the address and the UUID up to the case of its digits.
-/

namespace Rmbtd

/-- The message of `ip_signature`. -/
def signedMessage (ip : IpAddr) (openTestUuid : Bytes) : Bytes := ip.octets16 ++ openTestUuid

theorem ipSignature_eq (cr : Crypto) (key : Bytes) (ip : IpAddr) (openTestUuid : Bytes) :
    ipSignature cr key ip openTestUuid = cr.hmacSha256 key (signedMessage ip openTestUuid) := by
  cases ip <;> rfl

private theorem octets16_canonical {i j : IpAddr} (hi : i.toCanonical = i) (hj : j.toCanonical = j) :
    i.octets16 = j.octets16 ↔ i = j := by
  rw [IpAddr.octets16_eq_iff,hi,hj]

/-- Accepted texts stand for the same bytes when they differ at most in the case of their digits. -/
theorem parseUuid_eq_iff {s t : Text} {b c : Bytes} (hs : parseUuid s = some b)
    (ht : parseUuid t = some c) : b = c ↔ s.map Char.toLower = t.map Char.toLower := by
  have hb := parseUuid_canonical hs
  have hc := parseUuid_canonical ht
  rw [hb.text,hc.text]
  constructor
  · rintro rfl
    rfl
  · exact uuidText_injective hb.length hc.length

theorem signedMessage_eq_iff {i j : IpAddr} (hi : i.toCanonical = i) (hj : j.toCanonical = j)
    {s t : Text} {b c : Bytes} (hs : parseUuid s = some b) (ht : parseUuid t = some c) :
    signedMessage i b = signedMessage j c ↔ i = j ∧ s.map Char.toLower = t.map Char.toLower := by
  rw [← octets16_canonical hi hj,← parseUuid_eq_iff hs ht]
  have hlen : i.octets16.length = j.octets16.length := by
    rw [IpAddr.octets16_length,IpAddr.octets16_length]
  constructor
  · intro h
    exact List.append_inj h hlen
  · rintro ⟨hip,rfl⟩
    rw [signedMessage,signedMessage,hip]

/-- A UUID is accepted exactly in the form 8-4-4-4-12, whose digits its bytes render up to their
case, and the message that is signed binds one address and one test. -/
theorem ipSignature_binds (cr : Crypto) (key : Bytes) :
    (∀ s, (∃ b, parseUuid s = some b) ↔ UuidForm s) ∧
    (∀ b, b.length = 16 → parseUuid (uuidText b) = some b) ∧
    (∀ s b, parseUuid s = some b → b.length = 16 ∧ uuidText b = s.map Char.toLower) ∧
    ∀ i j : IpAddr, i.toCanonical = i → j.toCanonical = j →
      ∀ s t b c, parseUuid s = some b → parseUuid t = some c →
        ipSignature cr key i b = cr.hmacSha256 key (signedMessage i b) ∧
        (signedMessage i b).length = 32 ∧
        (signedMessage i b = signedMessage j c ↔
          i = j ∧ s.map Char.toLower = t.map Char.toLower) := by
  refine ⟨fun _ => parseUuid_accepts_iff,fun _ => parseUuid_uuidText,?_,?_⟩
  · intro s b hs
    have h := parseUuid_canonical hs
    exact ⟨h.length,h.text.symm⟩
  · intro i j hi hj s t b c hs ht
    refine ⟨ipSignature_eq cr key i b,?_,signedMessage_eq_iff hi hj hs ht⟩
    have hlen := (parseUuid_canonical hs).length
    rw [signedMessage,List.length_append,IpAddr.octets16_length,hlen]

theorem ipSignature_binds_golden :
    ∃ b c, parseUuid goldenUuid = some b ∧ parseUuid (goldenUuid.map Char.toUpper) = some c ∧
      signedMessage goldenIp b = signedMessage goldenIp c ∧
      signedMessage goldenIp b ≠ signedMessage (.v6 .unspecified) c := by
  obtain ⟨haccepts,-,-,hbinds⟩ := ipSignature_binds goldenCrypto []
  have hlower : UuidForm goldenUuid :=
    ⟨"8723358c","2037","4029","a70c","91e5d9d35cf3",by decide,rfl,rfl,rfl,rfl,rfl,List.all_eq_true.mp (by decide)⟩
  have hupper : UuidForm (goldenUuid.map Char.toUpper) :=
    ⟨"8723358C","2037","4029","A70C","91E5D9D35CF3",by decide,rfl,rfl,rfl,rfl,rfl,List.all_eq_true.mp (by decide)⟩
  obtain ⟨b,hb⟩ := (haccepts _).mpr hlower
  obtain ⟨c,hc⟩ := (haccepts _).mpr hupper
  refine ⟨b,c,hb,hc,?_,?_⟩
  · exact (hbinds _ _ rfl rfl _ _ b c hb hc).2.2.mpr ⟨rfl,by decide +kernel⟩
  · intro h
    have hip := ((hbinds _ _ rfl (by decide) _ _ b c hb hc).2.2.mp h).1
    cases hip

end Rmbtd
