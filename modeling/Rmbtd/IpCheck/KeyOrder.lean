import Rmbtd.IpCheck.Signing

/-!
# Order and rotation of the keys

The three key searches commit to the first key that matches. As long as different secrets do not
match the same token, neither the order of the list nor keys added for a rotation change what
they find.
-/

namespace Rmbtd

/-! ## The first match in a list -/

section
variable {α β : Type} {p : α → Prop} [DecidablePred p] {f : α → β} {l l' : List α}

theorem find?_of_subset (hsub : l ⊆ l') (hf : ∀ a ∈ l', ∀ b ∈ l', p a → p b → f a = f b) {a : α}
    (ha : l.find? (fun a => p a) = some a) : ∃ b, l'.find? (fun a => p a) = some b ∧ f b = f a := by
  have hmem := hsub (List.mem_of_find?_eq_some ha)
  have hpa : p a := by simpa using List.find?_some ha
  cases hb : l'.find? (fun a => p a) with
  | none => exact absurd hpa (by simpa using List.find?_eq_none.mp hb a hmem)
  | some b =>
    have hpb : p b := by simpa using List.find?_some hb
    exact ⟨b,rfl,hf b (List.mem_of_find?_eq_some hb) a hmem hpb hpa⟩

theorem not_mem_of_find?_eq_none (hnone : l.find? (fun a => p a) = none) {b : α}
    (hb : l'.find? (fun a => p a) = some b) : b ∈ l' ∧ b ∉ l ∧ p b := by
  have hpb : p b := by simpa using List.find?_some hb
  refine ⟨List.mem_of_find?_eq_some hb,?_,hpb⟩
  intro hmem
  exact absurd hpb (by simpa using List.find?_eq_none.mp hnone b hmem)

end

/-! ## The keys that match a token -/

/-- On the messages of the token different secrets of the list give different v1 signatures and
different v2 time hashes. -/
structure KeysSeparated (cr : Crypto) (raw : Text) (keys : List SecretKey) : Prop where
  mac : ∀ u t mac s, V1Fields (splitIpToken raw).1 u t mac s → ∀ k ∈ keys, ∀ k' ∈ keys,
    v1Mac cr k u t = v1Mac cr k' u t → k.key = k'.key
  timeHash : ∀ v2 bytes, extractV2 raw = some v2 → V2Fields cr v2 bytes → ∀ k ∈ keys, ∀ k' ∈ keys,
    (cr.hmacSha256 (utf8 k.key) (bytes.take 4)).take 8 =
      (cr.hmacSha256 (utf8 k'.key) (bytes.take 4)).take 8 → k.key = k'.key

/-- The key signed the v1 part of the token. -/
def SignedV1 (cr : Crypto) (raw : Text) (k : SecretKey) : Prop :=
  ∃ s, V1Token cr (splitIpToken raw).1 s k

/-- The key matches the part of the token that decides about the test. -/
def MatchesToken (cr : Crypto) (raw : Text) (k : SecretKey) : Prop :=
  match extractV2 raw with
  | some v2 => ∃ bytes, V2Fields cr v2 bytes ∧ TimeHash cr bytes k
  | none => SignedV1 cr raw k

/-- A verdict up to the label of the key that was found. -/
def TokenResult.withoutLabel : TokenResult → TokenResult
  | .accepted sleep _ => .accepted sleep []
  | rejected => rejected

/-- The secret, the UUID and the IP match of a token that passed the `/ip` check. -/
def IpToken.core (token : IpToken) : Text × Text × Bool :=
  (token.key.key,token.openTestUuid,token.matchingIp)

def RequestToken (fromSlice : JsonParser) (body : Bytes) (token : Text) : Prop :=
  ∃ members, fromSlice body = .ok (.object members) ∧ member "token" members = some (.string token)

private theorem splitIpToken_of_no_v2 {raw : Text} (h : extractV2 raw = none) :
    splitIpToken raw = (raw,none) := by
  have hno : ¬v2Marker <:+: raw := by
    rw [← splitOnce_eq_none]
    simpa [extractV2] using h
  have hlong : ¬"_#v2#".toList <:+: raw :=
    fun hlong => hno (List.IsInfix.trans ⟨['_'],[],by decide⟩ hlong)
  rw [splitIpToken,splitOnce_eq_none.mpr hlong]

private theorem timeWindow_withoutLabel (s : Int64) (connId : Nat) (label label' : Text)
    (now : Int64) : (timeWindow s connId label now).val.withoutLabel =
      (timeWindow s connId label' now).val.withoutLabel := by
  simp only [timeWindow,Logged.val_bind]
  cases (windowCheck s connId now).val with
  | error rejected => rfl
  | ok early =>
    simp only [Logged.val_ite,Logged.val_bind,Logged.val_pure]
    split <;> rfl

/-! ## Each search under a larger list -/

section
variable {cr : Crypto} {raw : Text} {keys keys' : List SecretKey} {connId : Nat}

private theorem validateV1_subset (hno : extractV2 raw = none) (hsub : keys ⊆ keys')
    (hsep : KeysSeparated cr raw keys') (clock : ClockReadings) :
    (validateV1 cr raw keys' connId clock).val.withoutLabel =
        (validateV1 cr raw keys connId clock).val.withoutLabel ∨
      (validateV1 cr raw keys connId clock).val = .invalidHmac ∧
        ∃ k ∈ keys', k ∉ keys ∧ SignedV1 cr raw k := by
  have hraw : (splitIpToken raw).1 = raw := by rw [splitIpToken_of_no_v2 hno]
  simp only [validateV1,Logged.val_bind]
  by_cases hw : ∃ u t mac s, V1Fields raw u t mac s
  · obtain ⟨u,t,mac,s,hf⟩ := hw
    simp only [matchV1_val hf]
    cases hk : keys.find? fun k => decide (v1Mac cr k u t = mac) with
    | some k =>
      have hsame : ∀ a ∈ keys', ∀ b ∈ keys', v1Mac cr a u t = mac → v1Mac cr b u t = mac →
          a.key = b.key := by
        intro a ha b hb hma hmb
        exact hsep.mac u t mac s (hraw.symm ▸ hf) a ha b hb (hma.trans hmb.symm)
      obtain ⟨k',hk',-⟩ := find?_of_subset hsub hsame hk
      rw [hk']
      exact Or.inl (timeWindow_withoutLabel s connId _ _ _)
    | none =>
      cases hk' : keys'.find? fun k => decide (v1Mac cr k u t = mac) with
      | none => exact Or.inl rfl
      | some k' =>
        obtain ⟨hmem,hnew,hmac⟩ := not_mem_of_find?_eq_none hk hk'
        refine Or.inr ⟨rfl,k',hmem,hnew,s,?_⟩
        rw [hraw]
        exact (v1Token_iff hf k').mpr hmac
  · simp only [matchV1_malformed fun u t mac s hf => hw ⟨u,t,mac,s,hf⟩]
    exact Or.inl trivial

private theorem validateV2_subset {v2 : Text} (hv2 : extractV2 raw = some v2) (hsub : keys ⊆ keys')
    (hsep : KeysSeparated cr raw keys') (ip : Option IpAddr) (clock : ClockReadings) :
    (validateV2 cr v2 keys' connId ip clock).val.withoutLabel =
        (validateV2 cr v2 keys connId ip clock).val.withoutLabel ∨
      (validateV2 cr v2 keys connId ip clock).val = .invalidHmac ∧
        ∃ k ∈ keys', k ∉ keys ∧ ∃ bytes, V2Fields cr v2 bytes ∧ TimeHash cr bytes k := by
  by_cases hw : ∃ bytes, V2Fields cr v2 bytes
  · obtain ⟨bytes,hf⟩ := hw
    simp only [validateV2_val hf]
    cases ip with
    | none => exact Or.inl rfl
    | some ip =>
      simp only
      cases hk : keys.find? fun k => decide (TimeHash cr bytes k) with
      | some k =>
        have hsame : ∀ a ∈ keys', ∀ b ∈ keys', TimeHash cr bytes a → TimeHash cr bytes b →
            a.key = b.key := by
          intro a ha b hb hta htb
          exact hsep.timeHash v2 bytes hv2 hf a ha b hb (hta.trans htb.symm)
        obtain ⟨k',hk',hkey⟩ := find?_of_subset hsub hsame hk
        have hip : IpHash cr bytes ip k' ↔ IpHash cr bytes ip k := by rw [IpHash,hkey,IpHash]
        rw [hk']
        simp only [hip]
        by_cases hi : IpHash cr bytes ip k
        · simp only [if_pos hi]
          exact Or.inl (timeWindow_withoutLabel _ connId _ _ _)
        · simp only [if_neg hi]
          exact Or.inl trivial
      | none =>
        cases hk' : keys'.find? fun k => decide (TimeHash cr bytes k) with
        | none => exact Or.inl rfl
        | some k' =>
          obtain ⟨hmem,hnew,ht⟩ := not_mem_of_find?_eq_none hk hk'
          exact Or.inr ⟨rfl,k',hmem,hnew,bytes,hf,ht⟩
  · simp only [validateV2_malformed (not_exists.mp hw)]
    exact Or.inl trivial

/-- A larger key list gives the same verdict, or a key that was added issued the token. -/
theorem validateToken_subset (hsub : keys ⊆ keys') (hsep : KeysSeparated cr raw keys')
    (ip : Option IpAddr) (v2Only : Bool) (clock : ClockReadings) :
    (validateToken cr raw keys' connId ip v2Only clock).val.withoutLabel =
        (validateToken cr raw keys connId ip v2Only clock).val.withoutLabel ∨
      (validateToken cr raw keys connId ip v2Only clock).val = .invalidHmac ∧
        ∃ k ∈ keys', k ∉ keys ∧ MatchesToken cr raw k := by
  unfold validateToken MatchesToken
  cases hv2 : extractV2 raw with
  | some v2 => exact validateV2_subset hv2 hsub hsep ip clock
  | none =>
    cases v2Only with
    | true => exact Or.inl rfl
    | false => exact validateV1_subset hv2 hsub hsep clock

private theorem matchingIp_key {v2 : Option Text} {k k' : SecretKey} (h : k.key = k'.key)
    (ip : IpAddr) :
    (matchingIp cr v2 k ip connId).val = (matchingIp cr v2 k' ip connId).val := by
  have hiff : (matchingIp cr v2 k ip connId).val = true ↔
      (matchingIp cr v2 k' ip connId).val = true := by
    simp only [matchingIp_val,TimeHash,IpHash,h]
  exact Bool.eq_iff_iff.mpr hiff

theorem checkIpToken_subset (hsub : keys ⊆ keys') (hsep : KeysSeparated cr raw keys') (ip : IpAddr)
    (now : Int64) :
    (checkIpToken cr raw keys' connId ip now).val.map IpToken.core =
        (checkIpToken cr raw keys connId ip now).val.map IpToken.core ∨
      (checkIpToken cr raw keys connId ip now).val = .error .invalidHmac ∧
        ∃ k ∈ keys', k ∉ keys ∧ SignedV1 cr raw k := by
  have hmac := hsep.mac
  unfold checkIpToken SignedV1
  generalize splitIpToken raw = parts at hmac
  obtain ⟨v1,v2⟩ := parts
  simp only [Logged.val_bind]
  by_cases hw : ∃ u t mac s, V1Fields v1 u t mac s
  · obtain ⟨u,t,mac,s,hf⟩ := hw
    simp only [matchV1_val hf]
    cases hk : keys.find? fun k => decide (v1Mac cr k u t = mac) with
    | some k =>
      have hsame : ∀ a ∈ keys', ∀ b ∈ keys', v1Mac cr a u t = mac → v1Mac cr b u t = mac →
          a.key = b.key := by
        intro a ha b hb hma hmb
        exact hmac u t mac s hf a ha b hb (hma.trans hmb.symm)
      obtain ⟨k',hk',hkey⟩ := find?_of_subset hsub hsame hk
      simp only [hk',Logged.val_bind]
      cases (windowCheck s connId now).val with
      | error rejected => exact Or.inl rfl
      | ok early =>
        left
        simp only [Logged.val_bind,Logged.val_pure,Except.map,IpToken.core,hkey,
          matchingIp_key hkey ip]
    | none =>
      cases hk' : keys'.find? fun k => decide (v1Mac cr k u t = mac) with
      | none => exact Or.inl rfl
      | some k' =>
        obtain ⟨hmem,hnew,hm⟩ := not_mem_of_find?_eq_none hk hk'
        exact Or.inr ⟨rfl,k',hmem,hnew,s,(v1Token_iff hf k').mpr hm⟩
  · simp only [matchV1_malformed fun u t mac s hf => hw ⟨u,t,mac,s,hf⟩]
    exact Or.inl trivial

private theorem signedMembers_fst (token : Text) (ip : IpAddr) (now : Int64) :
    (signedMembers cr token keys connId ip now).val.map Prod.fst =
      match (checkIpToken cr token keys connId ip now).val.map IpToken.core with
      | .error rejected => .error ⟨"403 Forbidden",tokenError rejected⟩
      | .ok (key,openTestUuid,matching) =>
        match parseUuid openTestUuid with
        | none => .error ⟨"403 Forbidden","invalid token: malformed open test UUID"⟩
        | some uuid => .ok (",\"matching_ip\":" ++ boolText matching ++ ",\"signature\":\"" ++
            cr.base64.encode (ipSignature cr (utf8 key) ip uuid) ++ "\"") := by
  simp only [signedMembers,Logged.val_bind]
  cases (checkIpToken cr token keys connId ip now).val with
  | error rejected => rfl
  | ok checked =>
    simp only [Except.map,IpToken.core]
    cases parseUuid checked.openTestUuid with
    | none => rfl
    | some uuid => rfl

private theorem signedMembers_subset {token : Text} (hsub : keys ⊆ keys')
    (hsep : KeysSeparated cr token keys') (ip : IpAddr) (now : Int64) :
    (signedMembers cr token keys' connId ip now).val.map Prod.fst =
        (signedMembers cr token keys connId ip now).val.map Prod.fst ∨
      (signedMembers cr token keys connId ip now).val = .error ⟨"403 Forbidden","invalid token"⟩ ∧
        ∃ k ∈ keys', k ∉ keys ∧ SignedV1 cr token k := by
  have h : _ ∨ (checkIpToken cr token keys connId ip now).val = .error .invalidHmac ∧ _ :=
    checkIpToken_subset hsub hsep ip now
  rcases h with h | ⟨h,hnew⟩
  · left
    rw [signedMembers_fst,signedMembers_fst,h]
  · right
    refine ⟨?_,hnew⟩
    simp only [signedMembers,Logged.val_bind,h]
    rfl

/-- A larger key list gives the same answer to a request, or a key that was added signed the token
of the request. -/
theorem ipResponse_subset {fromSlice : JsonParser} {body : Bytes} (hsub : keys ⊆ keys')
    (hsep : ∀ token, RequestToken fromSlice body token → KeysSeparated cr token keys')
    (ip : IpAddr) (now : Int64) :
    (ipResponse cr fromSlice body ip keys' connId now).val.map IpAnswer.json =
        (ipResponse cr fromSlice body ip keys connId now).val.map IpAnswer.json ∨
      (ipResponse cr fromSlice body ip keys connId now).val.map IpAnswer.json =
          .error ⟨"403 Forbidden","invalid token"⟩ ∧
        ∃ token, RequestToken fromSlice body token ∧
          ∃ k ∈ keys', k ∉ keys ∧ SignedV1 cr token k := by
  by_cases hbody : body = []
  · simp only [ipResponse,if_pos hbody]
    exact Or.inl trivial
  cases hparse : fromSlice body with
  | error e =>
    simp only [ipResponse,if_neg hbody,hparse]
    exact Or.inl trivial
  | ok value =>
    cases value with
    | object members =>
      rw [ipResponse_object cr ip keys connId now hbody hparse,
        ipResponse_object cr ip keys' connId now hbody hparse]
      cases localAddr members with
      | error e => exact Or.inl rfl
      | ok localIp =>
        cases ht : tokenText members with
        | error e => exact Or.inl rfl
        | ok token =>
          cases token with
          | none => exact Or.inl rfl
          | some token =>
            have hrequest : RequestToken fromSlice body token := by
              rcases tokenText_ok.mp ht with ⟨h,-⟩ | ⟨s,h,hm,-⟩
              · cases h
              · cases h
                exact ⟨members,hparse,hm⟩
            have h : (signedMembers cr token keys' connId ip.toCanonical now).val.map Prod.fst = _ ∨
                _ := signedMembers_subset hsub (hsep token hrequest) ip.toCanonical now
            rcases h with h | ⟨h,hnew⟩
            · left
              cases hs' : (signedMembers cr token keys' connId ip.toCanonical now).val with
              | error e' =>
                cases hs : (signedMembers cr token keys connId ip.toCanonical now).val with
                | error e =>
                  rw [hs,hs'] at h
                  simp only [hs,hs',Except.error.inj h]
                | ok p =>
                  rw [hs,hs'] at h
                  cases h
              | ok p' =>
                cases hs : (signedMembers cr token keys connId ip.toCanonical now).val with
                | error e =>
                  rw [hs,hs'] at h
                  cases h
                | ok p =>
                  rw [hs,hs'] at h
                  have hfst : p'.1 = p.1 := Except.ok.inj h
                  simp only [hs,hs',hfst]
            · right
              simp only [h]
              exact ⟨trivial,token,hrequest,hnew⟩
    | _ =>
      simp only [ipResponse,if_neg hbody,hparse]
      exact Or.inl trivial

end

/-- The order of the keys is irrelevant: a permutation of the list gives the same verdict and
sleep, the same answer of the `/ip` check, and the same JSON. Adding keys at any positions changes
no result but that of a signature nobody listed made, and that one only through an added key that
matches. -/
theorem keys_order_and_rotation (cr : Crypto) (fromSlice : JsonParser) (raw : Text) (body : Bytes)
    (keys keys' : List SecretKey) (connId : Nat) (sourceIp : Option IpAddr) (ip : IpAddr)
    (v2Only : Bool) (clock : ClockReadings) (now : Int64) (hsep : KeysSeparated cr raw keys')
    (hbody : ∀ token, RequestToken fromSlice body token → token = raw) :
    let verdict := fun keys => (validateToken cr raw keys connId sourceIp v2Only clock).val
    let check := fun keys => (checkIpToken cr raw keys connId ip now).val
    let respond := fun keys => (ipResponse cr fromSlice body ip keys connId now).val
    (keys.Perm keys' →
      (verdict keys').withoutLabel = (verdict keys).withoutLabel ∧
      (check keys').map IpToken.core = (check keys).map IpToken.core ∧
      (respond keys').map IpAnswer.json = (respond keys).map IpAnswer.json) ∧
    (keys.Sublist keys' →
      ((verdict keys').withoutLabel = (verdict keys).withoutLabel ∨
        verdict keys = .invalidHmac ∧ ∃ k ∈ keys', k ∉ keys ∧ MatchesToken cr raw k) ∧
      ((check keys').map IpToken.core = (check keys).map IpToken.core ∨
        check keys = .error .invalidHmac ∧ ∃ k ∈ keys', k ∉ keys ∧ SignedV1 cr raw k) ∧
      ((respond keys').map IpAnswer.json = (respond keys).map IpAnswer.json ∨
        (respond keys).map IpAnswer.json = .error ⟨"403 Forbidden","invalid token"⟩ ∧
          ∃ k ∈ keys', k ∉ keys ∧ SignedV1 cr raw k)) := by
  intro verdict check respond
  have hadds (hsub : keys ⊆ keys') :
      ((verdict keys').withoutLabel = (verdict keys).withoutLabel ∨
        verdict keys = .invalidHmac ∧ ∃ k ∈ keys', k ∉ keys ∧ MatchesToken cr raw k) ∧
      ((check keys').map IpToken.core = (check keys).map IpToken.core ∨
        check keys = .error .invalidHmac ∧ ∃ k ∈ keys', k ∉ keys ∧ SignedV1 cr raw k) ∧
      ((respond keys').map IpAnswer.json = (respond keys).map IpAnswer.json ∨
        (respond keys).map IpAnswer.json = .error ⟨"403 Forbidden","invalid token"⟩ ∧
          ∃ k ∈ keys', k ∉ keys ∧ SignedV1 cr raw k) := by
    refine ⟨validateToken_subset hsub hsep sourceIp v2Only clock,
      checkIpToken_subset hsub hsep ip now,?_⟩
    have h : (respond keys').map IpAnswer.json = _ ∨ _ :=
      ipResponse_subset hsub (fun token ht => hbody token ht ▸ hsep) ip now
    rcases h with h | ⟨h,token,ht,hnew⟩
    · exact Or.inl h
    · exact Or.inr ⟨h,hbody token ht ▸ hnew⟩
  constructor
  · intro hperm
    have hsame : ∀ k ∈ keys', k ∈ keys := fun k hk => hperm.mem_iff.mpr hk
    obtain ⟨hv,hc,hr⟩ := hadds hperm.subset
    refine ⟨hv.resolve_right ?_,hc.resolve_right ?_,hr.resolve_right ?_⟩
    all_goals
      rintro ⟨-,k,hk,hnew,-⟩
      exact hnew (hsame k hk)
  · exact fun hsub => hadds hsub.subset

/-- The digests under the key `nextsecret` besides those of the sample token. -/
def rotationCrypto : Crypto where
  hmacSha1 key msg :=
    if key = utf8 "nextsecret" then
      [237,149,146,124,93,69,177,228,236,185,159,126,165,122,44,185,186,177,247,63]
    else goldenCrypto.hmacSha1 key msg
  hmacSha256 key msg :=
    if key = utf8 "nextsecret" then
      if msg.length = 4 then
        [190,125,73,140,190,56,228,124,205,72,81,166,38,122,47,76,38,97,255,182,250,46,37,52,5,189,
          56,230,209,75,183,21]
      else if msg.length = 20 then
        [226,0,212,243,78,41,67,249,0,86,202,111,49,10,211,159,65,208,122,4,82,58,140,95,120,160,
          212,240,234,158,95,169]
      else
        [161,70,50,57,164,209,176,50,112,249,102,207,126,124,249,150,23,168,182,151,242,1,11,161,
          51,202,44,213,46,61,254,175]
    else goldenCrypto.hmacSha256 key msg
  hmacSha1_length key msg := by
    split
    · rfl
    · exact goldenCrypto.hmacSha1_length key msg
  hmacSha256_length key msg := by
    split
    · split
      · rfl
      · split <;> rfl
    · exact goldenCrypto.hmacSha256_length key msg
  base64 := .standard

def nextKey : SecretKey := ⟨"nextsecret","next"⟩

private theorem keysSeparated_rotation :
    KeysSeparated rotationCrypto combinedToken [nextKey,goldenKey] := by
  have hkeys : utf8 goldenKey.key ≠ utf8 "nextsecret" := by decide
  have hnext : utf8 nextKey.key = utf8 "nextsecret" := rfl
  have hmacs (msg : Bytes) : rotationCrypto.hmacSha1 (utf8 nextKey.key) msg ≠
      rotationCrypto.hmacSha1 (utf8 goldenKey.key) msg := by
    dsimp only [rotationCrypto,goldenCrypto]
    rw [if_pos hnext,if_neg hkeys]
    decide
  have htimes (msg : Bytes) (h : msg.length = 4) :
      (rotationCrypto.hmacSha256 (utf8 nextKey.key) msg).take 8 ≠
        (rotationCrypto.hmacSha256 (utf8 goldenKey.key) msg).take 8 := by
    dsimp only [rotationCrypto,goldenCrypto]
    rw [if_pos hnext,if_neg hkeys,if_pos h,if_pos h]
    decide
  constructor
  · intro u t mac s hf k hk k' hk' heq
    have heq := rotationCrypto.base64.encode_injective heq
    simp only [List.mem_cons,List.not_mem_nil,or_false] at hk hk'
    rcases hk with rfl | rfl <;> rcases hk' with rfl | rfl
    · rfl
    · exact absurd heq (hmacs _)
    · exact absurd heq.symm (hmacs _)
    · rfl
  · intro v2 bytes hv2 hf k hk k' hk' heq
    have hlength : (bytes.take 4).length = 4 := by simp [hf.length]
    simp only [List.mem_cons,List.not_mem_nil,or_false] at hk hk'
    rcases hk with rfl | rfl <;> rcases hk' with rfl | rfl
    · rfl
    · exact absurd heq (htimes _ hlength)
    · exact absurd heq.symm (htimes _ hlength)
    · rfl

theorem keys_order_and_rotation_golden :
    (validateToken rotationCrypto combinedToken [nextKey,goldenKey] 0 (some goldenIp) false
      (.constant 1699999990)).val.withoutLabel = .accepted 10 [] ∧
    (ipResponse rotationCrypto goldenParser (utf8 (goldenText "token" combinedToken)) goldenIp [nextKey,goldenKey] 0
      1699999990).val.map IpAnswer.json = .ok (answerText "4" "62.1.2.3" "is_ipv4" (some (true,
        signatureText rotationCrypto goldenKey goldenIp
          [0x87,0x23,0x35,0x8c,0x20,0x37,0x40,0x29,0xa7,0x0c,0x91,0xe5,0xd9,0xd3,0x5c,0xf3]))) := by
  have h := (keys_order_and_rotation rotationCrypto goldenParser combinedToken
    (utf8 (goldenText "token" combinedToken)) [goldenKey,nextKey] [nextKey,goldenKey] 0 (some goldenIp) goldenIp
    false (.constant 1699999990) 1699999990 keysSeparated_rotation (by
      intro token htoken
      obtain ⟨members,hparse,hm⟩ := htoken
      rw [goldenParser_text (by decide) (by decide +kernel)] at hparse
      cases hparse
      cases hm
      rfl)).1 (List.Perm.swap _ _ _)
  constructor
  · rw [h.1]
    decide +kernel
  · rw [h.2.2]
    decide +kernel

end Rmbtd
