import Rmbtd.Protocol.TokenFormat

/-!
# Soundness and completeness of token validation

A token is accepted exactly when it has one of the two documented formats under a listed key and
the clock is inside its window. The clock gives one reading during the validation.
-/

namespace Rmbtd

/-- `raw` is the v1 token of the key `k` for the start time `s`. -/
def V1Token (cr : Crypto) (raw : Text) (s : Int64) (k : SecretKey) : Prop :=
  ∃ u t, V1Fields raw u t (v1Mac cr k u t) s

/-- `raw` is a v2 token for the source address `ip` and a start time congruent to `s`, and `k` is
the first key of the list that issued it. -/
def V2Token (cr : Crypto) (keys : List SecretKey) (ip : IpAddr) (raw : Text) (s : Int)
    (k : SecretKey) : Prop :=
  ∃ bytes, V2Fields cr raw bytes ∧ FirstKey (TimeHash cr bytes) keys k ∧ IpHash cr bytes ip k ∧
    s % 2^32 = bigEndian (bytes.take 4)

theorem FirstKey.exists_of_mem {p : SecretKey → Prop} {keys : List SecretKey} {k : SecretKey}
    (hk : k ∈ keys) (hp : p k) : ∃ k', FirstKey p keys k' := by
  classical
  cases hf : keys.find? fun k => decide (p k) with
  | none =>
    have hno := List.find?_eq_none.mp hf k hk
    simp [hp] at hno
  | some k' => exact ⟨k',(find?_eq_some_iff_firstKey p keys k').mp hf⟩

theorem v1Token_iff {cr : Crypto} {raw u t mac : Text} {s : Int64}
    (h : V1Fields raw u t mac s) (k : SecretKey) : V1Token cr raw s k ↔ v1Mac cr k u t = mac := by
  constructor
  · rintro ⟨u',t',h'⟩
    obtain ⟨rfl,rfl,hmac,-⟩ := h.unique h'
    exact hmac.symm
  · intro hk
    exact ⟨u,t,hk ▸ h⟩

theorem firstKey_v1Token {cr : Crypto} {raw u t mac : Text} {s : Int64} (h : V1Fields raw u t mac s)
    (keys : List SecretKey) (k : SecretKey) :
    FirstKey (fun k => v1Mac cr k u t = mac) keys k ↔ FirstKey (V1Token cr raw s) keys k := by
  have hsame : V1Token cr raw s = fun k => v1Mac cr k u t = mac :=
    funext fun k => propext (v1Token_iff h k)
  rw [hsame]

theorem validateV1_val {cr : Crypto} {raw : Text} {keys : List SecretKey} {s : Int64} {k : SecretKey}
    (h : FirstKey (V1Token cr raw s) keys k) (connId : Nat) (clock : ClockReadings) :
    (validateV1 cr raw keys connId clock).val = (timeWindow s connId k.label clock.window).val := by
  obtain ⟨u,t,hf⟩ := h.1
  have hmatch : (matchV1 cr raw keys connId).val = .ok (u,s,k) :=
    matchV1_ok.mpr ⟨t,_,hf,(firstKey_v1Token hf keys k).mpr h⟩
  simp only [validateV1,Logged.val_bind,hmatch]

private theorem extractV2_eq_none {raw : Text} (h : ¬v2Marker <:+: raw) : extractV2 raw = none := by
  rw [extractV2,splitOnce_eq_none.mpr h]
  rfl

theorem validateV1_accepted {cr : Crypto} {raw : Text} {keys : List SecretKey} {connId : Nat}
    {now : Int64} (h0 : 0 ≤ now.toInt) (hmax : now.toInt < 2^62) {sleep : UInt64} {label : Text} :
    (validateV1 cr raw keys connId (.constant now)).val = .accepted sleep label ↔
      ∃ k s, FirstKey (V1Token cr raw s) keys k ∧ InWindow s.toInt now.toInt ∧ label = k.label ∧
        sleep.toNat = (s.toInt - now.toInt).toNat := by
  simp only [validateV1,Logged.val_bind]
  cases hm : (matchV1 cr raw keys connId).val with
  | error rejected =>
    have hrej := matchV1_error hm
    simp only [Logged.val_pure]
    constructor
    · rintro rfl
      rcases hrej with h | h <;> cases h
    · rintro ⟨k,s,hk,-⟩
      obtain ⟨u,t,hf⟩ := hk.1
      rw [matchV1_ok.mpr ⟨t,_,hf,(firstKey_v1Token hf keys k).mpr hk⟩] at hm
      cases hm
  | ok found =>
    obtain ⟨u,s,k⟩ := found
    obtain ⟨t,mac,hf,hk⟩ := matchV1_ok.mp hm
    have hk := (firstKey_v1Token hf keys k).mp hk
    simp only [Logged.val_bind,ClockReadings.constant]
    rw [timeWindow_accepted (hf.near h0 hmax)]
    constructor
    · exact fun h => ⟨k,s,hk,h⟩
    · rintro ⟨k',s',hk',h⟩
      obtain ⟨u',t',hf'⟩ := hk'.1
      obtain ⟨-,-,-,rfl⟩ := hf.unique hf'
      have hsame : k = k' := by
        classical
        have h1 := (find?_eq_some_iff_firstKey _ _ _).mpr hk
        rw [(find?_eq_some_iff_firstKey _ _ _).mpr hk'] at h1
        exact (Option.some.inj h1).symm
      subst k'
      exact h

theorem timeField_toNat (bytes : Bytes) :
    (timeField bytes).toNat = bigEndian (bytes.take 4) := by
  have hbound (bs : Bytes) : bigEndian bs < 256^bs.length := by
    induction bs using List.reverseRecOn with
    | nil => simp [bigEndian]
    | append_singleton bs b ih =>
      simp only [bigEndian,List.foldl_append,List.foldl_cons,List.foldl_nil,List.length_append,
        List.length_singleton,Nat.pow_succ] at ih ⊢
      have := b.toNat_lt
      omega
  have hlt := hbound (bytes.take 4)
  have hpow : 256^(bytes.take 4).length ≤ 256^4 :=
    Nat.pow_le_pow_right (by decide) (by simp)
  simp only [timeField,timeBytes,UInt32.toNat_ofNat']
  omega

theorem validateV2_accepted {cr : Crypto} {raw : Text} {keys : List SecretKey} {connId : Nat}
    {ip : Option IpAddr} {now : Int64} (h0 : 0 ≤ now.toInt) (hmax : now.toInt < 2^62)
    {sleep : UInt64} {label : Text} :
    (validateV2 cr raw keys connId ip (.constant now)).val = .accepted sleep label ↔
      ∃ a k s, ip = some a ∧ V2Token cr keys a raw s k ∧ InWindow s now.toInt ∧ label = k.label ∧
        sleep.toNat = (s - now.toInt).toNat := by
  by_cases hw : ∃ bytes, V2Fields cr raw bytes
  · obtain ⟨bytes,hf⟩ := hw
    have hsame {bytes'} (h : V2Fields cr raw bytes') : bytes' = bytes := h.unique hf
    rw [validateV2_val hf]
    cases ip with
    | none => simp
    | some a =>
      simp only
      cases hk : keys.find? fun k => decide (TimeHash cr bytes k) with
      | none =>
        simp only [reduceCtorEq,false_iff]
        rintro ⟨_,k,s,-,⟨bytes',hf',hfirst,-⟩,-⟩
        rw [hsame hf'] at hfirst
        rw [(find?_eq_some_iff_firstKey _ _ _).mpr hfirst] at hk
        cases hk
      | some k =>
        have hfirst := (find?_eq_some_iff_firstKey _ _ _).mp hk
        have hunique {k'} (h : FirstKey (TimeHash cr bytes) keys k') : k' = k := by
          rw [(find?_eq_some_iff_firstKey _ _ _).mpr h] at hk
          exact Option.some.inj hk
        simp only
        split
        · next hi =>
          obtain ⟨hlow,-,-⟩ := reconstructTime_spec (timeField bytes) now h0 hmax
          rw [ClockReadings.constant,timeWindow_accepted (reconstructTime_near _ now h0 hmax)]
          constructor
          · rintro ⟨hin,rfl,hsleep⟩
            exact ⟨a,k,_,rfl,⟨bytes,hf,hfirst,hi,by rw [hlow,timeField_toNat]⟩,hin,rfl,hsleep⟩
          · rintro ⟨_,k',s,-,⟨bytes',hf',hfirst',-,hs⟩,hin,rfl,hsleep⟩
            cases hsame hf'
            rw [← timeField_toNat] at hs
            rw [inWindow_reconstructTime _ now h0 hmax s hs hin,hunique hfirst']
            exact ⟨hin,rfl,hsleep⟩
        · next hi =>
          simp only [reduceCtorEq,false_iff]
          rintro ⟨_,k',s,ha,⟨bytes',hf',hfirst',hi',-⟩,-⟩
          cases ha
          cases hsame hf'
          rw [hunique hfirst'] at hi'
          exact hi hi'
  · have hw : ∀ bytes, ¬V2Fields cr raw bytes := not_exists.mp hw
    rw [validateV2_malformed hw]
    simp only [reduceCtorEq,false_iff]
    rintro ⟨_,k,s,-,⟨bytes,hf,-⟩,-⟩
    exact hw bytes hf

/-- A text without the v2 marker is accepted exactly as a v1 token of a listed key inside its
window, and not at all in v2-only mode. A text with the marker is accepted exactly when what
follows the first marker is a v2 token for the source address inside its window. The verdict
names the key and the seconds left until the start. -/
theorem validateToken_accepted_iff (cr : Crypto) (raw : Text) (keys : List SecretKey) (connId : Nat)
    (ip : Option IpAddr) (v2Only : Bool) (now : Int64) (h0 : 0 ≤ now.toInt)
    (hmax : now.toInt < 2^62) :
    let verdict := (validateToken cr raw keys connId ip v2Only (.constant now)).val
    (¬v2Marker <:+: raw →
      ((∃ sleep label, verdict = .accepted sleep label) ↔
        v2Only = false ∧ ∃ k ∈ keys, ∃ s, V1Token cr raw s k ∧ InWindow s.toInt now.toInt) ∧
      ∀ sleep label, verdict = .accepted sleep label → ∃ k s, FirstKey (V1Token cr raw s) keys k ∧
        InWindow s.toInt now.toInt ∧ label = k.label ∧
        sleep.toNat = (s.toInt - now.toInt).toNat) ∧
    ∀ v2, AfterFirst v2Marker raw v2 →
      ((∃ sleep label, verdict = .accepted sleep label) ↔
        ∃ a k s, ip = some a ∧ V2Token cr keys a v2 s k ∧ InWindow s now.toInt) ∧
      ∀ sleep label, verdict = .accepted sleep label → ∃ a k s, ip = some a ∧
        V2Token cr keys a v2 s k ∧ InWindow s now.toInt ∧ label = k.label ∧
        sleep.toNat = (s - now.toInt).toNat := by
  intro verdict
  constructor
  · intro hno
    have hv : verdict = if v2Only then .v2Required
        else (validateV1 cr raw keys connId (.constant now)).val := by
      simp only [verdict,validateToken,extractV2_eq_none hno,Logged.val_ite]
      rfl
    have haccepted {sleep label} : verdict = .accepted sleep label ↔ v2Only = false ∧
        ∃ k s, FirstKey (V1Token cr raw s) keys k ∧ InWindow s.toInt now.toInt ∧
          label = k.label ∧ sleep.toNat = (s.toInt - now.toInt).toNat := by
      rw [hv]
      cases v2Only with
      | true => simp
      | false => simpa using validateV1_accepted h0 hmax
    constructor
    · constructor
      · rintro ⟨sleep,label,h⟩
        obtain ⟨hmode,k,s,hk,hin,-⟩ := haccepted.mp h
        exact ⟨hmode,k,hk.mem,s,hk.1,hin⟩
      · rintro ⟨hmode,k,hk,s,htoken,hin⟩
        obtain ⟨k',hk'⟩ := FirstKey.exists_of_mem hk htoken
        have hsmall : (s.toInt - now.toInt).toNat < 2^64 := by
          rw [inWindow_iff] at hin
          omega
        exact ⟨UInt64.ofNat (s.toInt - now.toInt).toNat,k'.label,
          haccepted.mpr ⟨hmode,k',s,hk',hin,rfl,by simpa using hsmall⟩⟩
    · exact fun sleep label h => (haccepted.mp h).2
  · intro v2 hv2
    have hv : verdict = (validateV2 cr v2 keys connId ip (.constant now)).val := by
      simp only [verdict,validateToken,extractV2,afterFirst_iff.mp hv2]
    have haccepted {sleep label} : verdict = .accepted sleep label ↔ ∃ a k s, ip = some a ∧
        V2Token cr keys a v2 s k ∧ InWindow s now.toInt ∧ label = k.label ∧
        sleep.toNat = (s - now.toInt).toNat := by
      rw [hv]
      exact validateV2_accepted h0 hmax
    constructor
    · constructor
      · rintro ⟨sleep,label,h⟩
        obtain ⟨a,k,s,ha,htoken,hin,-⟩ := haccepted.mp h
        exact ⟨a,k,s,ha,htoken,hin⟩
      · rintro ⟨a,k,s,ha,htoken,hin⟩
        have hsmall : (s - now.toInt).toNat < 2^64 := by
          rw [inWindow_iff] at hin
          omega
        exact ⟨UInt64.ofNat (s - now.toInt).toNat,k.label,
          haccepted.mpr ⟨a,k,s,ha,htoken,hin,rfl,by simpa using hsmall⟩⟩
    · exact fun sleep label h => haccepted.mp h

/-! ## The start time -/

/-- The start time a token carries; that of a v2 token is the one nearest to the clock. -/
def startTime (cr : Crypto) (raw : Text) (clock : ClockReadings) : Option Int64 :=
  match extractV2 raw with
  | some v2 => (cr.base64.decode v2).map fun bytes =>
      reconstructTime (timeField bytes) clock.reconstruct
  | none => match splitn 3 "_" raw with
    | [_,tsStr,_] => parseInt64 tsStr
    | _ => none

/-- The readings were made after 1970, by a clock that is not absurdly far ahead. -/
def ClockReadings.Plausible (clock : ClockReadings) : Prop :=
  (0 ≤ clock.reconstruct.toInt ∧ clock.reconstruct.toInt < 2^62) ∧
    0 ≤ clock.window.toInt ∧ clock.window.toInt < 2^62

theorem validateToken_sleep {cr : Crypto} {raw : Text} {keys : List SecretKey} {connId : Nat}
    {ip : Option IpAddr} {v2Only : Bool} {clock : ClockReadings} (hclock : clock.Plausible)
    {sleep : UInt64} {label : Text}
    (h : (validateToken cr raw keys connId ip v2Only clock).val = .accepted sleep label) :
    ∃ s, startTime cr raw clock = some s ∧
      sleep.toNat = (s.toInt - clock.window.toInt).toNat := by
  obtain ⟨⟨hr0,hrmax⟩,hw0,hwmax⟩ := hclock
  unfold validateToken at h
  unfold startTime
  cases hv : extractV2 raw with
  | some v2 =>
    rw [hv] at h
    dsimp only at h ⊢
    by_cases hw : ∃ bytes, V2Fields cr v2 bytes
    · obtain ⟨bytes,hf⟩ := hw
      have hnear : Near (reconstructTime (timeField bytes) clock.reconstruct) clock.window := by
        obtain ⟨-,hge,hle⟩ := reconstructTime_spec (timeField bytes) clock.reconstruct hr0 hrmax
        exact ⟨by omega,by omega⟩
      rw [hf.decode]
      refine ⟨_,rfl,?_⟩
      rw [validateV2_val hf] at h
      cases ip with
      | none => cases h
      | some a =>
        dsimp only at h
        split at h
        · cases h
        · split at h
          · exact ((timeWindow_accepted hnear connId _ sleep label).mp h).2.2
          · cases h
    · rw [validateV2_malformed (not_exists.mp hw)] at h
      cases h
  | none =>
    rw [hv] at h
    dsimp only at h ⊢
    rw [Logged.val_ite] at h
    split at h
    · cases h
    · simp only [validateV1,Logged.val_bind] at h
      cases hm : (matchV1 cr raw keys connId).val with
      | error rejected =>
        rw [hm] at h
        simp only [Logged.val_pure] at h
        subst h
        rcases matchV1_error hm with h | h <;> cases h
      | ok found =>
        obtain ⟨u,s,k⟩ := found
        obtain ⟨t,mac,hf,-⟩ := matchV1_ok.mp hm
        rw [hm] at h
        rw [show splitn 3 "_" raw = [u,t,mac] from
          splitn_three.mpr ⟨hf.raw_eq,hf.uuid_sep,hf.time_sep⟩]
        exact ⟨s,hf.time_value,((timeWindow_accepted (hf.near hw0 hwmax) connId _ _ _).mp h).2.2⟩

/-! ## A token of the control server -/

/-- The digests under the key `topsecret` for the token that starts at 1700000000 and is bound
to 62.1.2.3, and for the `/ip` signature of that address and the UUID of the token. -/
def goldenCrypto : Crypto where
  hmacSha1 _ _ := [67,238,121,165,159,201,57,8,35,49,238,61,22,87,165,198,199,194,198,160]
  hmacSha256 _ msg :=
    if msg.length = 4 then
      [76,196,172,206,190,84,25,55,127,233,195,89,228,164,209,164,215,175,66,117,28,255,254,78,
        201,185,135,43,77,222,208,222]
    else if msg.length = 20 then
      [30,100,243,63,11,81,174,99,110,159,216,103,123,132,245,195,232,121,14,102,186,194,107,171,
        15,127,18,246,44,50,224,82]
    else
      [117,253,78,55,20,181,81,194,123,161,149,157,251,153,40,91,109,205,31,119,241,229,
        99,151,92,217,66,169,3,144,206,136]
  hmacSha1_length _ _ := rfl
  hmacSha256_length _ _ := by
    split
    · rfl
    · split <;> rfl
  base64 := .standard

def goldenKey : SecretKey := ⟨"topsecret","default"⟩

def goldenIp : IpAddr := .v4 ⟨#v[62,1,2,3]⟩

def goldenToken : Text :=
  "8723358c-2037-4029-a70c-91e5d9d35cf3_1700000000_Q+55pZ/JOQgjMe49FlelxsfCxqA="

theorem validateToken_accepted_iff_golden :
    (∃ k ∈ [goldenKey], ∃ s, V1Token goldenCrypto goldenToken s k ∧ InWindow s.toInt 1699999990) ∧
      ∃ a k s, some goldenIp = some a ∧
        V2Token goldenCrypto [goldenKey] a "ZVPxAEzErM6+VBk3HmTzPw==" s k ∧
        InWindow s 1700000090 := by
  have hv2 : AfterFirst v2Marker (goldenToken ++ "_#v2#ZVPxAEzErM6+VBk3HmTzPw==")
      "ZVPxAEzErM6+VBk3HmTzPw==" := afterFirst_iff.mpr (by decide +kernel)
  have h1 := (validateToken_accepted_iff goldenCrypto goldenToken [goldenKey] 0 none false
    1699999990 (by decide) (by decide)).1 (by rw [← splitOnce_eq_none]; decide +kernel)
  have h2 := (validateToken_accepted_iff goldenCrypto
    (goldenToken ++ "_#v2#ZVPxAEzErM6+VBk3HmTzPw==") [goldenKey] 0 (some goldenIp) true
    1700000090 (by decide) (by decide)).2 _ hv2
  exact ⟨(h1.1.mp ⟨10,"default",by decide +kernel⟩).2,h2.1.mp ⟨0,"default",by decide +kernel⟩⟩

end Rmbtd
