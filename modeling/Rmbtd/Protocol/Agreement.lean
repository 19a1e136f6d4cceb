import Rmbtd.IpCheck.Uuid
import Rmbtd.Protocol.Validation

/-!
# Agreement of the two token checks

The check of `/ip` and the check of the speed test cut the same text at different markers, find
the key by different hashes and read the start time from different fields. They agree on the v2
part they see, and on the verdict for the tokens a control server issues.
-/

namespace Rmbtd

/-- Keys of the list with equal hashes of the messages in `raw` have the same secret. -/
structure CollisionFree (cr : Crypto) (keys : List SecretKey) (raw : Text) : Prop where
  v1 : ∀ u t mac s, V1Fields (splitIpToken raw).1 u t mac s → ∀ k ∈ keys, ∀ k' ∈ keys,
    v1Mac cr k u t = v1Mac cr k' u t → k.key = k'.key
  v2 : ∀ part bytes, (splitIpToken raw).2 = some part → V2Fields cr part bytes →
    ∀ k ∈ keys, ∀ k' ∈ keys, (cr.hmacSha256 (utf8 k.key) (bytes.take 4)).take 8 =
      (cr.hmacSha256 (utf8 k'.key) (bytes.take 4)).take 8 → k.key = k'.key

private theorem not_digit_hash : ¬('#'.isDigit ∨ '#' = '-' ∨ '#' = '+') := by decide

/-! ## The v2 part -/

theorem hash_not_mem_v1 {cr : Crypto} {v1 u t : Text} {b : Bytes} {s : Int64} {k : SecretKey}
    (hf : V1Fields v1 u t (v1Mac cr k u t) s) (hu : CanonicalUuid u b) : '#' ∉ v1 := by
  rw [hf.raw_eq]
  simp only [List.mem_append,List.mem_cons,not_or]
  refine ⟨fun h => ?_,by decide,fun h => ?_,by decide,fun h => ?_⟩
  · have := hu.chars h
    revert this
    decide
  · exact not_digit_hash (parseInt64_chars hf.time_value _ h)
  · exact cr.base64.not_mem_encode (by decide) _ h

theorem extractV2_eq_splitIpToken {raw : Text} (h : '#' ∉ (splitIpToken raw).1) :
    (splitIpToken raw).2 = extractV2 raw := by
  cases hs : splitOnce "_#v2#" raw with
  | none =>
    simp only [splitIpToken,hs] at h ⊢
    rw [extractV2,splitOnce_eq_none.mpr]
    · rfl
    · rintro ⟨pre,post,hraw⟩
      exact h (by rw [← hraw]; simp [v2Marker])
  | some p =>
    obtain ⟨v1,v2⟩ := p
    simp only [splitIpToken,hs] at h ⊢
    have hraw := splitOnce_eq _ _ _ _ hs
    have hcut : splitOnce v2Marker ((v1 ++ ['_']) ++ v2Marker ++ v2) = some (v1 ++ ['_'],v2) :=
      @splitOnce_of_not_mem '#' ['v','2','#'] (v1 ++ ['_']) (by simp [h]) v2
    have hsame : (v1 ++ ['_']) ++ v2Marker ++ v2 = raw := by rw [hraw]; simp [v2Marker]
    rw [extractV2,← hsame,hcut]
    rfl

/-- A token accepted by `/ip` with a canonical UUID shows both checks the same v2 part. -/
theorem checkIpToken_v2 {cr : Crypto} {raw : Text} {keys : List SecretKey} {connId : Nat}
    {ip : IpAddr} {now : Int64} {token : IpToken} {b : Bytes}
    (hok : (checkIpToken cr raw keys connId ip now).val = .ok token)
    (hu : parseUuid token.openTestUuid = some b) : (splitIpToken raw).2 = extractV2 raw := by
  obtain ⟨s,early,hm,-,-⟩ := checkIpToken_ok.mp hok
  obtain ⟨t,mac,hf,hk⟩ := matchV1_ok.mp hm
  have hmac : v1Mac cr token.key token.openTestUuid t = mac := hk.1
  rw [← hmac] at hf
  exact extractV2_eq_splitIpToken (hash_not_mem_v1 hf (parseUuid_canonical hu))

/-! ## Tokens without a v2 part -/

private theorem splitIpToken_of_no_marker {raw : Text} (h : ¬v2Marker <:+: raw) :
    splitIpToken raw = (raw,none) := by
  have hno : splitOnce "_#v2#" raw = none := by
    rw [splitOnce_eq_none]
    rintro ⟨pre,post,hraw⟩
    exact h ⟨pre ++ ['_'],post,by rw [← hraw]; simp [v2Marker]⟩
  rw [splitIpToken,hno]

theorem validateToken_v1 {cr : Crypto} {raw : Text} {keys : List SecretKey} {connId : Nat}
    {ip : Option IpAddr} {clock : ClockReadings} (h : ¬v2Marker <:+: raw) :
    (validateToken cr raw keys connId ip false clock).val =
      match (matchV1 cr raw keys connId).val with
      | .ok (_,s,k) => (timeWindow s connId k.label clock.window).val
      | .error rejected => rejected := by
  have hnone : extractV2 raw = none := by
    rw [extractV2,splitOnce_eq_none.mpr h]
    rfl
  simp only [validateToken,hnone,Bool.false_eq_true,if_false,validateV1,Logged.val_bind]
  cases (matchV1 cr raw keys connId).val with
  | error rejected => rfl
  | ok found => rfl

theorem timeWindow_of_windowCheck (s now : Int64) (connId : Nat) (label : Text) :
    match (windowCheck s connId now).val with
    | .ok _ => ∃ sleep, (timeWindow s connId label now).val = .accepted sleep label
    | .error rejected => (timeWindow s connId label now).val = rejected := by
  simp only [timeWindow,Logged.val_bind]
  cases (windowCheck s connId now).val with
  | error rejected => rfl
  | ok early =>
    simp only [Logged.val_ite,Logged.val_bind,Logged.val_pure]
    split
    · exact ⟨_,rfl⟩
    · exact ⟨_,rfl⟩

/-! ## Tokens whose v2 part matches -/

/-- Where the v2 part was issued for the source address by a key of the list, and hashes do not
collide, the speed test finds a key with the same secret and only looks at the clock. -/
theorem validateV2_matching {cr : Crypto} {raw : Text} {bytes : Bytes} {keys : List SecretKey}
    (hf : V2Fields cr raw bytes) {k : SecretKey} (hk : k ∈ keys) (ht : TimeHash cr bytes k)
    {ip : IpAddr} (hi : IpHash cr bytes ip k)
    (hfree : ∀ k' ∈ keys, TimeHash cr bytes k' → k'.key = k.key) (connId : Nat)
    (clock : ClockReadings) :
    ∃ k' ∈ keys, k'.key = k.key ∧ (validateV2 cr raw keys connId (some ip) clock).val =
      (timeWindow (reconstructTime (timeField bytes) clock.reconstruct) connId k'.label
        clock.window).val := by
  obtain ⟨k',hk'⟩ := FirstKey.exists_of_mem hk ht
  have hsame := hfree k' hk'.mem hk'.1
  have hi' : IpHash cr bytes ip k' := by
    unfold IpHash
    rw [hsame]
    exact hi
  refine ⟨k',hk'.mem,hsame,?_⟩
  rw [validateV2_val hf]
  simp only [(find?_eq_some_iff_firstKey _ _ _).mpr hk',if_pos hi']

private theorem validateToken_v2 {cr : Crypto} {raw v2 : Text} {keys : List SecretKey} {connId : Nat}
    {ip : Option IpAddr} {v2Only : Bool} {clock : ClockReadings} (h : extractV2 raw = some v2) :
    validateToken cr raw keys connId ip v2Only clock = validateV2 cr v2 keys connId ip clock := by
  simp only [validateToken,h]

private theorem timeHash_collision {cr : Crypto} {raw part : Text} {bytes : Bytes}
    {keys : List SecretKey} (hfree : CollisionFree cr keys raw)
    (hv2 : (splitIpToken raw).2 = some part) (hf : V2Fields cr part bytes) {k : SecretKey}
    (hk : k ∈ keys) (ht : TimeHash cr bytes k) :
    ∀ k' ∈ keys, TimeHash cr bytes k' → k'.key = k.key := by
  intro k' hk' ht'
  exact hfree.v2 part bytes hv2 hf k' hk' k hk (by rw [ht,ht'])

/-! ## Issued tokens -/

theorem bigEndian_bytes (n : UInt32) : bigEndian (bigEndianBytes n) = n.toNat := by
  have hn := n.toNat_lt
  have hbyte (i : Nat) : (UInt8.ofNat i).toNat = i % 256 := UInt8.toNat_ofNat'
  simp only [bigEndian,bigEndianBytes,List.map_cons,List.map_nil,List.foldl_cons,List.foldl_nil,hbyte]
  omega

private theorem low32_toNat (s : Int64) : (s.toUInt64.toUInt32.toNat : Int) = s.toInt % 2^32 := by
  have h1 : s.toUInt64.toUInt32.toNat = s.toUInt64.toNat % 2^32 := UInt64.toNat_toUInt32 _
  have h2 : (s.toUInt64.toNat : Int) = s.toInt % 2^64 := by
    have hlt := s.toBitVec.isLt
    have hb : s.toUInt64.toNat = s.toBitVec.toNat := rfl
    rw [← Int64.toInt_toBitVec,BitVec.toInt_eq_toNat_cond,hb]
    split
    · omega
    · omega
  omega

private def issuedBytes (cr : Crypto) (k : SecretKey) (start : Int64) (ip : IpAddr) : Bytes :=
  let tb := bigEndianBytes start.toUInt64.toUInt32
  tb ++ (hmacSha256Parts cr (utf8 k.key) [tb]).take 8 ++
    (hmacSha256Parts cr (utf8 k.key) [tb,mappedIpv6 ip]).take 4

private theorem issuedBytes_fields (cr : Crypto) (k : SecretKey) (start : Int64) (ip : IpAddr) :
    (issuedBytes cr k start ip).length = 16 ∧
      (issuedBytes cr k start ip).take 4 = bigEndianBytes start.toUInt64.toUInt32 ∧
      TimeHash cr (issuedBytes cr k start ip) k ∧ IpHash cr (issuedBytes cr k start ip) ip k := by
  have hlen (n : UInt32) : (bigEndianBytes n).length = 4 := rfl
  have h8 (msg : Bytes) : ((cr.hmacSha256 (utf8 k.key) msg).take 8).length = 8 := by
    simp [cr.hmacSha256_length]
  have h4 (msg : Bytes) : ((cr.hmacSha256 (utf8 k.key) msg).take 4).length = 4 := by
    simp [cr.hmacSha256_length]
  have htb := hlen start.toUInt64.toUInt32
  simp only [issuedBytes,hmacSha256Parts,List.flatten_cons,List.flatten_nil,List.append_nil,
    mappedIpv6_eq]
  generalize bigEndianBytes start.toUInt64.toUInt32 = tb at htb ⊢
  have t4 (p q : Bytes) : (tb ++ p ++ q).take 4 = tb := by
    rw [List.append_assoc,List.take_left' htb]
  have d4 (p q : Bytes) : (tb ++ p ++ q).drop 4 = p ++ q := by
    rw [List.append_assoc,List.drop_left' htb]
  have d12 (p q : Bytes) (h : p.length = 8) : (tb ++ p ++ q).drop 12 = q :=
    List.drop_left' (by simp [htb,h])
  refine ⟨?_,t4 _ _,?_,?_⟩
  · simp only [List.length_append,htb,h8,h4]
  · rw [TimeHash,t4,d4,List.take_left' (h8 _)]
  · rw [IpHash,t4,d12 _ _ (h8 _),List.take_of_length_le (l := List.take 4 _) (by rw [h4])]

/-- What both checks see of an issued token. -/
structure Issued (cr : Crypto) (raw u : Text) (start : Int64) (ip : IpAddr) (k : SecretKey)
    (v1 v2 : Text) (bytes : Bytes) : Prop where
  split : splitIpToken raw = (v1,some v2)
  extract : extractV2 raw = some v2
  v1_fields : V1Fields v1 u (intText start.toInt) (v1Mac cr k u (intText start.toInt)) start
  v2_fields : V2Fields cr v2 bytes
  time : timeField bytes = start.toUInt64.toUInt32
  time_hash : TimeHash cr bytes k
  ip_hash : IpHash cr bytes ip k

theorem makeTestToken_issued (cr : Crypto) (k : SecretKey) {u : Text} {b : Bytes}
    (hu : CanonicalUuid u b) {start : Int64} (hstart : (intText start.toInt).length ≤ 12)
    (ip : IpAddr) : ∃ v1 v2 bytes,
      Issued cr (makeTestToken cr k.key u start ip) u start ip k v1 v2 bytes := by
  have htchars {c : Char} (hc : c ∈ intText start.toInt) : c.isDigit ∨ c = '-' := intText_chars hc
  have htascii : ∀ c ∈ intText start.toInt, c.toNat < 128 := by
    intro c hc
    rcases htchars hc with h | rfl
    · have := Char.isDigit_iff_toNat.mp h
      simp only [Char.reduceToNat] at this
      omega
    · decide
  have hf : V1Fields (u ++ '_'::(intText start.toInt ++ '_'::v1Mac cr k u (intText start.toInt)))
      u (intText start.toInt) (v1Mac cr k u (intText start.toInt)) start := by
    refine ⟨rfl,fun h => ?_,hu.byteLen,fun h => ?_,fun h => ?_,?_,parseInt64_intText start⟩
    · have := hu.chars h
      revert this
      decide
    · have := htchars h
      revert this
      decide
    · have := parseInt64_intText start
      rw [h,show parseInt64 [] = none from rfl] at this
      cases this
    · rwa [byteLen_of_ascii htascii]
  have hhash := hash_not_mem_v1 hf hu
  obtain ⟨hlen,htime,hth,hih⟩ := issuedBytes_fields cr k start ip
  generalize hv1 : u ++ '_'::(intText start.toInt ++ '_'::v1Mac cr k u (intText start.toInt)) = v1
    at hf hhash
  have hraw : makeTestToken cr k.key u start ip =
      v1 ++ "_#v2#" ++ cr.base64.encode (issuedBytes cr k start ip) := by
    simp [makeTestToken,issuedBytes,← hv1,v1Mac]
  refine ⟨v1,_,_,?_,?_,hf,⟨rfl,hlen⟩,?_,hth,hih⟩
  · have hcut := @splitOnce_of_snd_not_mem '#' '_' ['v','2','#'] v1 (by decide) hhash
      (cr.base64.encode (issuedBytes cr k start ip))
    have hcut : splitOnce "_#v2#" (makeTestToken cr k.key u start ip) =
        some (v1,cr.base64.encode (issuedBytes cr k start ip)) := by
      rw [hraw]
      exact hcut
    rw [splitIpToken,hcut]
  · have hcut := @splitOnce_of_not_mem '#' ['v','2','#'] (v1 ++ ['_']) (by simp [hhash])
      (cr.base64.encode (issuedBytes cr k start ip))
    have hcut : splitOnce v2Marker (makeTestToken cr k.key u start ip) =
        some (v1 ++ ['_'],cr.base64.encode (issuedBytes cr k start ip)) := by
      rw [hraw,← hcut]
      simp [v2Marker]
    rw [extractV2,hcut]
    rfl
  · rw [timeField,timeBytes,htime,bigEndian_bytes]
    exact UInt32.ofNat_toNat

private theorem windowCheck_ok_close {s now early : Int64} {connId : Nat}
    (hs : -(10^12) < s.toInt) (hs' : s.toInt < 10^12) (h0 : 0 ≤ now.toInt)
    (h : (windowCheck s connId now).val = .ok early) :
    now.toInt < 2^62 ∧ InWindow s.toInt now.toInt ∨ s.toInt - now.toInt = -2^63 := by
  by_cases hmax : now.toInt < 2^62
  · exact Or.inl ⟨hmax,((windowCheck_ok ⟨by omega,by omega⟩ connId early).mp h).1⟩
  · right
    have hnow := Int64.toInt_lt now
    have hsub : -2^63 ≤ s.toInt - now.toInt ∧ (s - now).toInt = s.toInt - now.toInt ∨
        2^62 < (s - now).toInt := by
      rw [Int64.toInt_sub,Int.bmod_def]
      split
      · omega
      · omega
    have hsub' : (now - s).toInt = now.toInt - s.toInt ∨ 2^63 ≤ now.toInt - s.toInt := by
      rw [Int64.toInt_sub,Int.bmod_def]
      split
      · omega
      · omega
    have h20 : maxAcceptEarly.toInt = 20 := rfl
    have h90 : maxAcceptLate.toInt = 90 := rfl
    simp only [windowCheck,Logged.val_ite,Logged.val_bind,Logged.val_pure,gt_iff_lt,
      Int64.lt_iff_toInt_lt] at h
    split at h
    · cases h
    · split at h
      · cases h
      · omega

private theorem reconstructTime_of_close {s now : Int64} (h0 : 0 ≤ now.toInt)
    (hmax : now.toInt < 2^62) (hlo : -2^31 < s.toInt - now.toInt)
    (hhi : s.toInt - now.toInt < 2^31) :
    reconstructTime s.toUInt64.toUInt32 now = s := by
  obtain ⟨hmod,hge,hle⟩ := reconstructTime_spec s.toUInt64.toUInt32 now h0 hmax
  have hlow := low32_toNat s
  apply Int64.toInt_inj.mp
  omega

private theorem reconstructTime_of_wrap {s now : Int64} (h0 : 0 ≤ now.toInt)
    (h : s.toInt - now.toInt = -2^63) : reconstructTime s.toUInt64.toUInt32 now = now := by
  have hlow := low32_toNat s
  have ht := lowHalf_toInt s.toUInt64.toUInt32 now h0
  have hself : (now &&& ~~~0xFFFFFFFF) ||| s.toUInt64.toUInt32.toUInt64.toInt64 = now := by
    apply Int64.toInt_inj.mp
    omega
  simp only [reconstructTime,hself]
  have hhalf : ¬now - now > (4294967296 : Int64) / 2 := by
    rw [Int64.sub_self]
    decide
  rw [if_neg hhalf,if_neg hhalf]

section Issued
variable {cr : Crypto} {raw u v1 v2 : Text} {start : Int64} {ip : IpAddr} {k : SecretKey}
  {bytes : Bytes} {keys : List SecretKey}

private theorem Issued.check (h : Issued cr raw u start ip k v1 v2 bytes) (hk : k ∈ keys)
    (hfree : CollisionFree cr keys raw) (connId : Nat) (now : Int64) :
    ∃ k', k'.key = k.key ∧ (checkIpToken cr raw keys connId ip now).val =
      match (windowCheck start connId now).val with
      | .ok _ => .ok ⟨k',u,true⟩
      | .error rejected => .error rejected := by
  obtain ⟨k',hk'⟩ := FirstKey.exists_of_mem
    (p := fun k' => v1Mac cr k' u (intText start.toInt) = v1Mac cr k u (intText start.toInt)) hk rfl
  have hsame : k'.key = k.key :=
    hfree.v1 _ _ _ _ (by rw [h.split]; exact h.v1_fields) k' hk'.mem k hk hk'.1
  have hm : (matchV1 cr v1 keys connId).val = .ok (u,start,k') :=
    matchV1_ok.mpr ⟨_,_,h.v1_fields,hk'⟩
  have hip : (matchingIp cr (some v2) k' ip connId).val = true := by
    refine matchingIp_val.mpr ⟨v2,bytes,rfl,h.v2_fields,?_,?_⟩
    · rw [TimeHash,hsame]
      exact h.time_hash
    · rw [IpHash,hsame]
      exact h.ip_hash
  refine ⟨k',hsame,?_⟩
  simp only [checkIpToken,h.split,Logged.val_bind,hm]
  cases (windowCheck start connId now).val with
  | error rejected => rfl
  | ok early => simp only [Logged.val_bind,Logged.val_pure,hip]

private theorem Issued.verdict (h : Issued cr raw u start ip k v1 v2 bytes) (hk : k ∈ keys)
    (hfree : CollisionFree cr keys raw) (connId : Nat) (now : Int64) :
    ∃ k' ∈ keys, k'.key = k.key ∧ ∀ v2Only,
      (validateToken cr raw keys connId (some ip) v2Only (.constant now)).val =
        (timeWindow (reconstructTime start.toUInt64.toUInt32 now) connId k'.label now).val := by
  have hv2 : (splitIpToken raw).2 = some v2 := by rw [h.split]
  obtain ⟨k',hk',hsame,hval⟩ := validateV2_matching h.v2_fields hk h.time_hash h.ip_hash
    (timeHash_collision hfree hv2 h.v2_fields hk h.time_hash) connId (.constant now)
  refine ⟨k',hk',hsame,fun v2Only => ?_⟩
  rw [validateToken_v2 h.extract,hval,h.time]
  rfl

end Issued

/-! ## The two checks -/

section
variable {cr : Crypto} {raw : Text} {keys : List SecretKey} {connId : Nat} {ip : IpAddr}
  {now : Int64} {token : IpToken}

private theorem check_iff_accepted (hno : ¬v2Marker <:+: raw) :
    (∃ token, (checkIpToken cr raw keys connId ip now).val = .ok token) ↔ ∃ sleep label,
      (validateToken cr raw keys connId (some ip) false (.constant now)).val =
        .accepted sleep label := by
  rw [validateToken_v1 hno]
  simp only [checkIpToken_ok,splitIpToken_of_no_marker hno]
  cases hm : (matchV1 cr raw keys connId).val with
  | error rejected =>
    constructor
    · rintro ⟨token,s,early,h,-⟩
      cases h
    · rintro ⟨sleep,label,rfl⟩
      rcases matchV1_error hm with h | h <;> cases h
  | ok found =>
    obtain ⟨u,s,k⟩ := found
    have htime := timeWindow_of_windowCheck s now connId k.label
    cases hw : (windowCheck s connId now).val with
    | error rejected =>
      rw [hw] at htime
      have hun := windowCheck_error hw
      simp only [ClockReadings.constant,htime]
      constructor
      · rintro ⟨token,s',early,h,hw',-⟩
        cases h
        rw [hw] at hw'
        cases hw'
      · rintro ⟨sleep,label,rfl⟩
        exact hun.elim
    | ok early =>
      rw [hw] at htime
      obtain ⟨sleep,htime⟩ := htime
      exact ⟨fun _ => ⟨sleep,k.label,htime⟩,
        fun _ => ⟨⟨k,u,(matchingIp cr none k ip connId).val⟩,s,early,rfl,hw,rfl⟩⟩

private theorem check_same_key (hno : ¬v2Marker <:+: raw)
    (hok : (checkIpToken cr raw keys connId ip now).val = .ok token) :
    ∃ s sleep, FirstKey (V1Token cr raw s) keys token.key ∧
      (validateToken cr raw keys connId (some ip) false (.constant now)).val =
        .accepted sleep token.key.label := by
  obtain ⟨s,early,hm,hw,-⟩ := checkIpToken_ok.mp hok
  rw [splitIpToken_of_no_marker hno] at hm
  obtain ⟨t,mac,hf,hk⟩ := matchV1_ok.mp hm
  have htime := timeWindow_of_windowCheck s now connId token.key.label
  rw [hw] at htime
  obtain ⟨sleep,htime⟩ := htime
  refine ⟨s,sleep,?_,?_⟩
  · rw [show V1Token cr raw s = fun k => v1Mac cr k token.openTestUuid t = mac from
      funext fun k => propext (v1Token_iff hf k)]
    exact hk
  · rw [validateToken_v1 hno,hm]
    exact htime

private theorem verdict_of_matching (hfree : CollisionFree cr keys raw)
    (hok : (checkIpToken cr raw keys connId ip now).val = .ok token) {b : Bytes}
    (hu : parseUuid token.openTestUuid = some b) (hip : token.matchingIp = true) (v2Only : Bool) :
    (∃ sleep label, (validateToken cr raw keys connId (some ip) v2Only (.constant now)).val =
      .accepted sleep label) ∨
      (validateToken cr raw keys connId (some ip) v2Only (.constant now)).val.IsUntimely := by
  have hv2 := checkIpToken_v2 hok hu
  obtain ⟨s,early,hm,-,hmatch⟩ := checkIpToken_ok.mp hok
  obtain ⟨t,mac,-,hk⟩ := matchV1_ok.mp hm
  rw [hip] at hmatch
  obtain ⟨part,bytes,hpart,hf,ht,hi⟩ := matchingIp_val.mp hmatch.symm
  obtain ⟨k',-,-,hval⟩ := validateV2_matching hf hk.mem ht hi
    (timeHash_collision hfree hpart hf hk.mem ht) connId (.constant now)
  rw [validateToken_v2 (hv2.symm.trans hpart),hval]
  rcases timeWindow_cases (reconstructTime (timeField bytes) now) now connId k'.label with h | h
  · obtain ⟨sleep,h⟩ := h
    exact Or.inl ⟨sleep,k'.label,h⟩
  · exact Or.inr h

end

/-- The two token checks at one clock reading. A token that `/ip` accepts with a canonical UUID
shows both the same v2 part. Without a marker both accept the same tokens under the same key.
A token whose v2 part `/ip` found matching is at most untimely for the speed test. On an issued
token, presented from the address it was issued for, an accepted `/ip` check implies an accepted
speed test, and both verdicts are the same when the clock is less than 2^31 seconds away. -/
theorem checkIpToken_agrees (cr : Crypto) (raw : Text) (keys : List SecretKey) (connId : Nat)
    (ip : IpAddr) (now : Int64) :
    let check := (checkIpToken cr raw keys connId ip now).val
    let verdict := fun v2Only =>
      (validateToken cr raw keys connId (some ip) v2Only (.constant now)).val
    (∀ token b, check = .ok token → parseUuid token.openTestUuid = some b →
      (splitIpToken raw).2 = extractV2 raw) ∧
    (¬v2Marker <:+: raw →
      ((∃ token, check = .ok token) ↔ ∃ sleep label, verdict false = .accepted sleep label) ∧
      ∀ token, check = .ok token → ∃ s sleep, FirstKey (V1Token cr raw s) keys token.key ∧
        verdict false = .accepted sleep token.key.label) ∧
    (CollisionFree cr keys raw → ∀ token b v2Only, check = .ok token →
      parseUuid token.openTestUuid = some b → token.matchingIp = true →
      verdict v2Only ≠ .parseError ∧ verdict v2Only ≠ .invalidHmac ∧
        verdict v2Only ≠ .invalidIp ∧ verdict v2Only ≠ .v2Required) ∧
    (CollisionFree cr keys raw → ∀ k ∈ keys, ∀ u b start, CanonicalUuid u b →
      (intText start.toInt).length ≤ 12 → raw = makeTestToken cr k.key u start ip →
      0 ≤ now.toInt →
      (∀ token, check = .ok token → token.key.key = k.key ∧ token.matchingIp = true ∧
        ∀ v2Only, ∃ sleep k', k' ∈ keys ∧ k'.key = k.key ∧
          verdict v2Only = .accepted sleep k'.label) ∧
      (-2^31 < start.toInt - now.toInt → start.toInt - now.toInt < 2^31 → ∀ v2Only,
        ((∃ token, check = .ok token) ↔ ∃ sleep label, verdict v2Only = .accepted sleep label) ∧
        ∀ rejected, check = .error rejected → verdict v2Only = rejected)) := by
  intro check verdict
  refine ⟨fun token b hok hu => checkIpToken_v2 hok hu,fun hno => ?_,?_,?_⟩
  · exact ⟨check_iff_accepted hno,fun token hok => check_same_key hno hok⟩
  · intro hfree token b v2Only hok hu hip
    have hv : (∃ sleep label, verdict v2Only = .accepted sleep label) ∨ (verdict v2Only).IsUntimely :=
      verdict_of_matching hfree hok hu hip v2Only
    rcases hv with ⟨sleep,label,hv⟩ | hv
    · simp [hv]
    · refine ⟨?_,?_,?_,?_⟩ <;> intro h <;> rw [h] at hv <;> exact hv
  · rintro hfree k hk u b start hu hstart rfl h0
    obtain ⟨v1,v2,bytes,hissued⟩ := makeTestToken_issued cr k hu hstart ip
    obtain ⟨k1,hk1,hcheck⟩ := hissued.check hk hfree connId now
    obtain ⟨k2,hk2,hsame,hverdict⟩ := hissued.verdict hk hfree connId now
    have hsmall := parseInt64_bounds (parseInt64_intText start) hstart
    constructor
    · intro token hok
      simp only [check,hcheck] at hok
      cases hw : (windowCheck start connId now).val with
      | error rejected => rw [hw] at hok; cases hok
      | ok early =>
        rw [hw] at hok
        cases hok
        refine ⟨hk1,rfl,fun v2Only => ?_⟩
        simp only [verdict,hverdict]
        rcases windowCheck_ok_close hsmall.1 hsmall.2 h0 hw with ⟨hmax,hin⟩ | hwrap
        · rw [inWindow_iff] at hin
          rw [reconstructTime_of_close h0 hmax (by omega) (by omega)]
          have htime := timeWindow_of_windowCheck start now connId k2.label
          rw [hw] at htime
          obtain ⟨sleep,htime⟩ := htime
          exact ⟨sleep,k2,hk2,hsame,htime⟩
        · rw [reconstructTime_of_wrap h0 hwrap]
          have hnear : Near now now := ⟨by omega,by omega⟩
          exact ⟨0,k2,hk2,hsame,(timeWindow_accepted hnear connId k2.label 0 k2.label).mpr
            ⟨by rw [inWindow_iff]; omega,rfl,by simp⟩⟩
    · intro hlo hhi v2Only
      have hrec := reconstructTime_of_close (s := start) h0 (by omega) hlo hhi
      have htime := timeWindow_of_windowCheck start now connId k2.label
      simp only [check,verdict,hcheck,hverdict,hrec]
      cases hw : (windowCheck start connId now).val with
      | error rejected =>
        rw [hw] at htime
        have hun := windowCheck_error hw
        simp only [htime]
        constructor
        · constructor
          · rintro ⟨token,h⟩
            cases h
          · rintro ⟨sleep,label,rfl⟩
            exact hun.elim
        · intro r h
          exact Except.error.inj h
      | ok early =>
        rw [hw] at htime
        obtain ⟨sleep,htime⟩ := htime
        simp only [htime]
        exact ⟨⟨fun _ => ⟨sleep,k2.label,rfl⟩,fun _ => ⟨_,rfl⟩⟩,fun r h => by cases h⟩

def goldenUuid : Text := "8723358c-2037-4029-a70c-91e5d9d35cf3"

theorem checkIpToken_agrees_golden :
    ∀ v2Only, ∃ sleep k', k' ∈ [goldenKey] ∧ k'.key = goldenKey.key ∧
      (validateToken goldenCrypto (makeTestToken goldenCrypto "topsecret" goldenUuid 1700000000
        goldenIp) [goldenKey] 0 (some goldenIp) v2Only (.constant 1700000005)).val =
        .accepted sleep k'.label := by
  have hfree (raw : Text) : CollisionFree goldenCrypto [goldenKey] raw := by
    constructor
    · intro _ _ _ _ _ k hk k' hk' _
      rw [List.mem_singleton.mp hk,List.mem_singleton.mp hk']
    · intro _ _ _ _ k hk k' hk' _
      rw [List.mem_singleton.mp hk,List.mem_singleton.mp hk']
  have hagree := (checkIpToken_agrees goldenCrypto (makeTestToken goldenCrypto "topsecret" goldenUuid
    1700000000 goldenIp) [goldenKey] 0 goldenIp 1700000005).2.2.2 (hfree _) goldenKey (by simp)
    goldenUuid [0x87,0x23,0x35,0x8c,0x20,0x37,0x40,0x29,0xa7,0x0c,0x91,0xe5,0xd9,0xd3,0x5c,0xf3]
    1700000000 ⟨rfl,by decide +kernel⟩ (by decide +kernel) rfl (by decide)
  exact (hagree.1 ⟨goldenKey,goldenUuid,true⟩ (by decide +kernel)).2.2

end Rmbtd
