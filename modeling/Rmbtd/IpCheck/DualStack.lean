import Rmbtd.IpCheck.Signing

/-!
# IPv4 clients on a dual-stack listener

An IPv4 client of a dual-stack listener appears under its IPv4-mapped IPv6 address. The token
check, the NAT classification and the signature treat both forms alike.
-/

namespace Rmbtd

section
variable (cr : Crypto) {ip ip' : IpAddr} (h : ip.toCanonical = ip'.toCanonical)
  (keys : List SecretKey) (connId : Nat)
include h

/-- A verdict depends on the source address only through its sixteen bytes. -/
theorem validateToken_sameHost (raw : Text) (v2Only : Bool) (clock : ClockReadings) :
    (validateToken cr raw keys connId (some ip) v2Only clock).val =
      (validateToken cr raw keys connId (some ip') v2Only clock).val := by
  have hoctets := IpAddr.octets16_eq_iff.mpr h
  unfold validateToken
  cases extractV2 raw with
  | none => rfl
  | some v2 =>
    dsimp only
    by_cases hw : ∃ bytes, V2Fields cr v2 bytes
    · obtain ⟨bytes,hf⟩ := hw
      have hip (k : SecretKey) : IpHash cr bytes ip k ↔ IpHash cr bytes ip' k := by
        rw [IpHash,hoctets,IpHash]
      rw [validateV2_val hf,validateV2_val hf]
      simp only [hip]
    · rw [validateV2_malformed (not_exists.mp hw),validateV2_malformed (not_exists.mp hw)]

/-- An answer depends on the peer address only through its canonical form. -/
theorem ipResponse_sameHost (fromSlice : JsonParser) (body : Bytes) (now : Int64) :
    ipResponse cr fromSlice body ip keys connId now =
      ipResponse cr fromSlice body ip' keys connId now := by
  simp only [ipResponse,h]

end

theorem localAddr_string {members : List (Text × Json)} {s : Text} {ip : IpAddr}
    (hm : member "client_ip_local" members = some (.string s)) (hs : parseIpAddr s = some ip) :
    localAddr members = .ok (some ip.toCanonical) := by
  have hblank : trim s ≠ [] := by
    intro hblank
    rw [parseIpAddr_blank (trim_eq_nil.mp hblank)] at hs
    cases hs
  simp only [localAddr,localText,hm,if_neg hblank,hs]

theorem ipResponse_sameLocal (cr : Crypto) {fromSlice : JsonParser} {body body' : Bytes}
    {members members' : List (Text × Json)} {s s' : Text} {l l' : IpAddr} (hbody : body ≠ [])
    (hbody' : body' ≠ []) (hparse : fromSlice body = .ok (.object members))
    (hparse' : fromSlice body' = .ok (.object members'))
    (htoken : member "token" members' = member "token" members)
    (hm : member "client_ip_local" members = some (.string s))
    (hm' : member "client_ip_local" members' = some (.string s')) (hs : parseIpAddr s = some l)
    (hs' : parseIpAddr s' = some l') (hl : l'.toCanonical = l.toCanonical) (peer : IpAddr)
    (keys : List SecretKey) (connId : Nat) (now : Int64) :
    ipResponse cr fromSlice body' peer keys connId now =
      ipResponse cr fromSlice body peer keys connId now := by
  have ht : tokenText members' = tokenText members := by simp only [tokenText,htoken]
  simp only [ipResponse,if_neg hbody,if_neg hbody',hparse,hparse',localAddr_string hm hs,
    localAddr_string hm' hs',hl,ht]

/-- Replacing the peer address of an IPv4 client by its IPv4-mapped form changes neither the
verdict on a token nor the answer to an `/ip` request, and the form of the local address in a
request does not matter either. The sixteen bytes hashed into a v2 token are those signed in an
answer, and two addresses share them when their canonical forms are equal. -/
theorem dualStack_invariant (cr : Crypto) (fromSlice : JsonParser) (a : Ipv4Addr) (raw : Text)
    (body : Bytes) (keys : List SecretKey) (connId : Nat) (v2Only : Bool) (clock : ClockReadings)
    (now : Int64) :
    let verdict := fun ip => (validateToken cr raw keys connId (some ip) v2Only clock).val
    let respond := fun body ip => (ipResponse cr fromSlice body ip keys connId now).val
    verdict (.v6 a.toIpv6Mapped) = verdict (.v4 a) ∧
    respond body (.v6 a.toIpv6Mapped) = respond body (.v4 a) ∧
    (∀ body' members members' s s' l l', body ≠ [] → body' ≠ [] →
      fromSlice body = .ok (.object members) → fromSlice body' = .ok (.object members') →
      member "token" members' = member "token" members →
      member "client_ip_local" members = some (.string s) →
      member "client_ip_local" members' = some (.string s') →
      parseIpAddr s = some l → parseIpAddr s' = some l' →
      (l' = l.toCanonical ∨ ∃ b, l.toCanonical = .v4 b ∧ l' = .v6 b.toIpv6Mapped) →
      ∀ peer, respond body' peer = respond body peer) ∧
    ∀ ip : IpAddr, (∀ key uuid, ipSignature cr key ip uuid =
        cr.hmacSha256 key (mappedIpv6 ip ++ uuid)) ∧
      ∀ ip', mappedIpv6 ip = mappedIpv6 ip' ↔ ip.toCanonical = ip'.toCanonical := by
  intro verdict respond
  have hmapped := IpAddr.toCanonical_mapped a
  refine ⟨validateToken_sameHost cr hmapped keys connId raw v2Only clock,
    congrArg Logged.val (ipResponse_sameHost cr hmapped keys connId fromSlice body now),?_,?_⟩
  · intro body' members members' s s' l l' hbody hbody' hparse hparse' htoken hm hm' hs hs' hform peer
    have hl : l'.toCanonical = l.toCanonical := by
      rcases hform with hform | ⟨b,hb,hform⟩
      · rw [hform,IpAddr.toCanonical_toCanonical]
      · rw [hform,hb,IpAddr.toCanonical_mapped]
    exact congrArg Logged.val (ipResponse_sameLocal cr hbody hbody' hparse hparse' htoken hm hm' hs
      hs' hl peer keys connId now)
  · intro ip
    constructor
    · intro key uuid
      rw [mappedIpv6_eq]
      cases ip with
      | v4 b => rfl
      | v6 b => rfl
    · intro ip'
      rw [mappedIpv6_eq,mappedIpv6_eq]
      exact IpAddr.octets16_eq_iff

theorem dualStack_invariant_golden :
    (ipResponse goldenCrypto goldenParser (utf8 (goldenText "client_ip_local" "::ffff:62.1.2.3")) goldenIp [] 0
      0).val = .ok ⟨answerText "4" "62.1.2.3" "no_nat_ipv4" none,"no_nat_ipv4, no token, unsigned"⟩ := by
  have hplain := goldenParser_text (show JsonText.Verbatim "client_ip_local" by decide)
    (show JsonText.Verbatim "62.1.2.3" by decide)
  have hmapped := goldenParser_text (show JsonText.Verbatim "client_ip_local" by decide)
    (show JsonText.Verbatim "::ffff:62.1.2.3" by decide)
  have h := (dualStack_invariant goldenCrypto goldenParser ⟨#v[62,1,2,3]⟩ []
    (utf8 (goldenText "client_ip_local" "62.1.2.3")) [] 0 false (.constant 0) 0).2.2.1 _ _ _ "62.1.2.3"
    "::ffff:62.1.2.3" goldenIp (.v6 (Ipv4Addr.toIpv6Mapped ⟨#v[62,1,2,3]⟩)) (by decide +kernel)
    (by decide +kernel) hplain hmapped rfl rfl rfl (by decide) (by decide) (Or.inr ⟨_,rfl,rfl⟩) goldenIp
  exact h.trans (by decide +kernel)

end Rmbtd
