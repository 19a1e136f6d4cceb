import Rmbtd.Protocol.Token
import Mathlib.Data.BitVec

/-!
# Token formats

What the documented token formats ask of a text, stated without the parser, and one lemma for
each function of the validator that relates it to the format.
-/

namespace Rmbtd

/-! ## The accept window -/

/-- The start time is at most 20 seconds ahead of the clock and at most 90 seconds behind it. -/
def InWindow (start now : Int) : Prop :=
  now - maxAcceptLate.toInt ≤ start ∧ start ≤ now + maxAcceptEarly.toInt

theorem inWindow_iff {start now : Int} : InWindow start now ↔ now - 90 ≤ start ∧ start ≤ now + 20 :=
  Iff.rfl

def Near (start now : Int64) : Prop :=
  -(2^63 : Int) < start.toInt - now.toInt ∧ start.toInt - now.toInt < 2^63

theorem toInt_sub_of_near {s t : Int64} (h : Near s t) :
    (s - t).toInt = s.toInt - t.toInt ∧ (t - s).toInt = t.toInt - s.toInt := by
  have hs := And.intro h.1 h.2
  constructor
  · rw [Int64.toInt_sub]
    exact Int.bmod_eq_of_le (by omega) (by omega)
  · rw [Int64.toInt_sub]
    exact Int.bmod_eq_of_le (by omega) (by omega)

theorem windowCheck_ok {s now : Int64} (h : Near s now) (connId : Nat) (early : Int64) :
    (windowCheck s connId now).val = .ok early ↔ InWindow s.toInt now.toInt ∧ early = s - now := by
  obtain ⟨hearly,hlate⟩ := toInt_sub_of_near h
  have h20 : maxAcceptEarly.toInt = 20 := rfl
  have h90 : maxAcceptLate.toInt = 90 := rfl
  simp only [windowCheck,Logged.val_ite,Logged.val_bind,Logged.val_pure,gt_iff_lt,Int64.lt_iff_toInt_lt,
    hearly,hlate,inWindow_iff]
  split
  · simp only [reduceCtorEq,false_iff]
    omega
  · split
    · simp only [reduceCtorEq,false_iff]
      omega
    · simp only [Except.ok.injEq]
      constructor
      · rintro rfl
        exact ⟨by omega,rfl⟩
      · exact fun h => h.2.symm

/-- The two verdicts on a token that is genuine but presented at the wrong time. -/
def TokenResult.IsUntimely : TokenResult → Prop
  | .tooEarly _ => True
  | .tooLate _ => True
  | _ => False

theorem windowCheck_error {s now : Int64} {connId : Nat} {rejected : TokenResult}
    (h : (windowCheck s connId now).val = .error rejected) : rejected.IsUntimely := by
  simp only [windowCheck,Logged.val_ite,Logged.val_bind,Logged.val_pure] at h
  split at h
  · cases h; trivial
  · split at h
    · cases h; trivial
    · cases h

theorem timeWindow_accepted {s now : Int64} (h : Near s now) (connId : Nat) (label : Text)
    (sleep : UInt64) (label' : Text) :
    (timeWindow s connId label now).val = .accepted sleep label' ↔
      InWindow s.toInt now.toInt ∧ label' = label ∧
        sleep.toNat = (s.toInt - now.toInt).toNat := by
  simp only [timeWindow,Logged.val_bind]
  cases hw : (windowCheck s connId now).val with
  | error rejected =>
    have hu := windowCheck_error hw
    have hno : ¬InWindow s.toInt now.toInt := fun hin => by
      rw [(windowCheck_ok h connId (s - now)).mpr ⟨hin,rfl⟩] at hw
      cases hw
    simp only [Logged.val_pure,hno,false_and,iff_false]
    rintro rfl
    exact hu
  | ok early =>
    obtain ⟨hin,rfl⟩ := (windowCheck_ok h connId early).mp hw
    have hsub := (toInt_sub_of_near h).1
    simp only [hin,true_and,Logged.val_ite,Logged.val_bind,Logged.val_pure,gt_iff_lt,
      Int64.lt_iff_toInt_lt,hsub,Int64.toInt_zero]
    split
    · next hpos =>
      simp only [TokenResult.accepted.injEq]
      have hn : (s - now).toUInt64.toNat = (s.toInt - now.toInt).toNat := by
        have hnat := Int64.toNat_toUInt64_of_le (x := s - now)
          (Int64.le_iff_toInt_le.mpr (by rw [hsub,Int64.toInt_zero]; omega))
        rw [hnat,Int64.toNatClampNeg,hsub]
      rw [← hn,UInt64.toNat_inj]
      exact ⟨fun h => ⟨h.2.symm,h.1.symm⟩,fun h => ⟨h.2.symm,h.1.symm⟩⟩
    · next hpos =>
      simp only [TokenResult.accepted.injEq]
      have hz : (s.toInt - now.toInt).toNat = (0 : UInt64).toNat := by
        rw [UInt64.toNat_zero]
        omega
      rw [hz,UInt64.toNat_inj]
      exact ⟨fun h => ⟨h.2.symm,h.1.symm⟩,fun h => ⟨h.2.symm,h.1.symm⟩⟩

theorem timeWindow_cases (s now : Int64) (connId : Nat) (label : Text) :
    (∃ sleep, (timeWindow s connId label now).val = .accepted sleep label) ∨
      ((timeWindow s connId label now).val).IsUntimely := by
  simp only [timeWindow,Logged.val_bind]
  cases hw : (windowCheck s connId now).val with
  | error rejected => exact Or.inr (windowCheck_error hw)
  | ok early =>
    simp only [Logged.val_ite,Logged.val_bind,Logged.val_pure]
    split
    · exact Or.inl ⟨_,rfl⟩
    · exact Or.inl ⟨_,rfl⟩

/-! ## The time field -/

private theorem splice (x : BitVec 64) (u : BitVec 32) :
    (x &&& ~~~0xFFFFFFFF#64) ||| u.setWidth 64 = x.extractLsb' 32 32 ++ u := by
  apply BitVec.eq_of_getLsbD_eq
  intro i hi
  have hmask : (0xFFFFFFFF#64).getLsbD i = decide (i < 32) := by
    rw [show 0xFFFFFFFF#64 = BitVec.setWidth 64 (BitVec.allOnes 32) by decide,
      BitVec.getLsbD_setWidth,BitVec.getLsbD_allOnes]
    simp [hi]
  simp only [BitVec.getLsbD_or,BitVec.getLsbD_and,BitVec.getLsbD_not,BitVec.getLsbD_setWidth,
    BitVec.getLsbD_append,BitVec.getLsbD_extractLsb',hmask]
  by_cases h : i < 32
  · simp [h,hi]
  · have hu := BitVec.getLsbD_of_ge u i (by omega)
    have hx : 32 + (i - 32) = i := by omega
    simp [h,hi,hu,hx]
    omega

private theorem splice_toNat (x : BitVec 64) (u : BitVec 32) :
    ((x &&& ~~~0xFFFFFFFF#64) ||| u.setWidth 64).toNat = x.toNat / 2^32 * 2^32 + u.toNat := by
  have happ : (x.extractLsb' 32 32 ++ u).toNat = x.toNat / 2^32 * 2^32 + u.toNat := by
    rw [BitVec.toNat_append,← Nat.shiftLeft_add_eq_or_of_lt u.isLt,Nat.shiftLeft_eq,
      BitVec.extractLsb'_toNat,Nat.shiftRight_eq_div_pow]
    have := x.isLt
    omega
  rw [splice]
  exact happ

theorem lowHalf_toInt (u : UInt32) (now : Int64) (h0 : 0 ≤ now.toInt) :
    ((now &&& ~~~0xFFFFFFFF) ||| u.toUInt64.toInt64).toInt =
      now.toInt - now.toInt % 2^32 + u.toNat := by
  have hbits : ((now &&& ~~~0xFFFFFFFF) ||| u.toUInt64.toInt64).toBitVec =
      ((now.toBitVec &&& ~~~0xFFFFFFFF#64) ||| u.toBitVec.setWidth 64) := by simp
  have hnow : now.toInt = now.toBitVec.toNat := by
    rw [← Int64.toInt_toBitVec] at h0 ⊢
    rw [BitVec.toInt_eq_toNat_cond] at h0 ⊢
    have := now.toBitVec.isLt
    split at h0
    · next h => rw [if_pos h]
    · omega
  rw [← Int64.toInt_toBitVec,hbits,BitVec.toInt_eq_toNat_cond,splice_toNat]
  have hlt := u.toNat_lt
  have hu : u.toBitVec.toNat = u.toNat := rfl
  have hmax := Int64.toInt_lt now
  rw [hu,if_pos (by omega)]
  omega

/-- The reconstructed time has the given low half and is the one nearest to the clock. -/
theorem reconstructTime_spec (u : UInt32) (now : Int64) (h0 : 0 ≤ now.toInt)
    (hmax : now.toInt < 2^62) :
    (reconstructTime u now).toInt % 2^32 = u.toNat ∧
      -(2^31) ≤ (reconstructTime u now).toInt - now.toInt ∧
      (reconstructTime u now).toInt - now.toInt ≤ 2^31 := by
  have hlow := lowHalf_toInt u now h0
  have hlt := u.toNat_lt
  simp only [reconstructTime]
  generalize ((now &&& ~~~0xFFFFFFFF) ||| u.toUInt64.toInt64) = t at hlow
  have hnear : Near t now := ⟨by omega,by omega⟩
  obtain ⟨hsub,hsub'⟩ := toInt_sub_of_near hnear
  have hperiod : Int64.toInt 4294967296 = 2^32 := rfl
  have hhalf : Int64.toInt (4294967296 / 2) = 2^31 := rfl
  simp only [gt_iff_lt,Int64.lt_iff_toInt_lt,hsub,hsub',hhalf]
  split
  · have hdown : (t - 4294967296).toInt = t.toInt - 2^32 := by
      rw [Int64.toInt_sub,hperiod]
      exact Int.bmod_eq_of_le (by omega) (by omega)
    rw [hdown]
    omega
  · split
    · have hup : (t + 4294967296).toInt = t.toInt + 2^32 := by
        rw [Int64.toInt_add,hperiod]
        exact Int.bmod_eq_of_le (by omega) (by omega)
      rw [hup]
      omega
    · omega

theorem inWindow_reconstructTime (u : UInt32) (now : Int64) (h0 : 0 ≤ now.toInt)
    (hmax : now.toInt < 2^62) (s : Int) (hs : s % 2^32 = u.toNat) (hin : InWindow s now.toInt) :
    (reconstructTime u now).toInt = s := by
  obtain ⟨hlow,hge,hle⟩ := reconstructTime_spec u now h0 hmax
  rw [inWindow_iff] at hin
  omega

theorem reconstructTime_near (u : UInt32) (now : Int64) (h0 : 0 ≤ now.toInt)
    (hmax : now.toInt < 2^62) : Near (reconstructTime u now) now := by
  obtain ⟨-,hge,hle⟩ := reconstructTime_spec u now h0 hmax
  exact ⟨by omega,by omega⟩

/-! ## The first matching key -/

/-- `k` is the first key of the list with the property. -/
def FirstKey (p : SecretKey → Prop) (keys : List SecretKey) (k : SecretKey) : Prop :=
  p k ∧ ∃ before after, keys = before ++ k::after ∧ ∀ k' ∈ before, ¬p k'

theorem FirstKey.mem {p : SecretKey → Prop} {keys : List SecretKey} {k : SecretKey}
    (h : FirstKey p keys k) : k ∈ keys := by
  obtain ⟨-,before,after,rfl,-⟩ := h
  simp

theorem find?_eq_some_iff_firstKey (p : SecretKey → Prop) [DecidablePred p] (keys : List SecretKey)
    (k : SecretKey) : keys.find? (fun k => decide (p k)) = some k ↔ FirstKey p keys k := by
  rw [List.find?_eq_some_iff_append]
  simp [FirstKey]

/-! ## Format v1 -/

/-- `raw` reads `u_t_mac` with a 36 byte field `u` and a timestamp `t` of the value `s`. -/
structure V1Fields (raw u t mac : Text) (s : Int64) : Prop where
  raw_eq : raw = u ++ '_'::(t ++ '_'::mac)
  uuid_sep : '_' ∉ u
  uuid_length : byteLen u = 36
  time_sep : '_' ∉ t
  time_ne_nil : t ≠ []
  time_length : byteLen t ≤ 12
  time_value : parseInt64 t = some s

def v1Mac (cr : Crypto) (k : SecretKey) (u t : Text) : Text :=
  hmacSha1B64 cr (utf8 k.key) (utf8 (u ++ '_'::t))

theorem V1Fields.unique {raw u t mac u' t' mac' : Text} {s s' : Int64}
    (h : V1Fields raw u t mac s) (h' : V1Fields raw u' t' mac' s') :
    u = u' ∧ t = t' ∧ mac = mac' ∧ s = s' := by
  have hs := splitn_three.mpr ⟨h.raw_eq,h.uuid_sep,h.time_sep⟩
  rw [splitn_three.mpr ⟨h'.raw_eq,h'.uuid_sep,h'.time_sep⟩] at hs
  simp only [List.cons.injEq,and_true] at hs
  obtain ⟨rfl,rfl,rfl⟩ := hs
  have ht := h.time_value
  rw [h'.time_value] at ht
  exact ⟨rfl,rfl,rfl,(Option.some.inj ht).symm⟩

theorem matchV1_val {cr : Crypto} {raw u t mac : Text} {s : Int64} (h : V1Fields raw u t mac s)
    (keys : List SecretKey) (connId : Nat) :
    (matchV1 cr raw keys connId).val =
      match keys.find? fun k => v1Mac cr k u t = mac with
      | some k => .ok (u,s,k)
      | none => .error .invalidHmac := by
  have hparts : splitn 3 "_" raw = [u,t,mac] :=
    splitn_three.mpr ⟨h.raw_eq,h.uuid_sep,h.time_sep⟩
  have hfind : (keys.find? fun k => hmacSha1B64 cr (utf8 k.key) (utf8 (u ++ "_" ++ t)) = mac) =
      keys.find? fun k => v1Mac cr k u t = mac := by simp [v1Mac]
  have hfields : ¬(byteLen u ≠ 36 ∨ t = [] ∨ 12 < byteLen t) := by
    have := h.uuid_length
    have := h.time_length
    have := h.time_ne_nil
    simp only [not_or,not_lt,not_not]
    tauto
  simp only [matchV1,hparts,h.time_value]
  rw [if_neg hfields,hfind]
  cases keys.find? fun k => decide (v1Mac cr k u t = mac) with
  | none => rfl
  | some k => rfl

theorem matchV1_malformed {cr : Crypto} {raw : Text} (h : ∀ u t mac s, ¬V1Fields raw u t mac s)
    (keys : List SecretKey) (connId : Nat) :
    (matchV1 cr raw keys connId).val = .error .parseError := by
  simp only [matchV1]
  split
  · next u t mac hparts =>
    obtain ⟨hraw,hu,ht⟩ := splitn_three.mp hparts
    by_cases hfields : byteLen u ≠ 36 ∨ t = [] ∨ 12 < byteLen t
    · rw [if_pos hfields]
      rfl
    · rw [if_neg hfields]
      simp only [not_or,not_lt,not_not] at hfields
      cases hp : parseInt64 t with
      | none => rfl
      | some s => exact absurd ⟨hraw,hu,hfields.1,ht,hfields.2.1,hfields.2.2,hp⟩ (h u t mac s)
  · rfl

theorem matchV1_ok {cr : Crypto} {raw : Text} {keys : List SecretKey} {connId : Nat} {u : Text}
    {s : Int64} {k : SecretKey} :
    (matchV1 cr raw keys connId).val = .ok (u,s,k) ↔
      ∃ t mac, V1Fields raw u t mac s ∧ FirstKey (fun k => v1Mac cr k u t = mac) keys k := by
  simp only [← find?_eq_some_iff_firstKey]
  constructor
  · intro h
    by_cases hw : ∃ u' t mac s', V1Fields raw u' t mac s'
    · obtain ⟨u',t,mac,s',hf⟩ := hw
      rw [matchV1_val hf] at h
      cases hk : keys.find? fun k => decide (v1Mac cr k u' t = mac) with
      | none =>
        rw [hk] at h
        cases h
      | some k' =>
        rw [hk] at h
        cases h
        exact ⟨t,mac,hf,hk⟩
    · rw [matchV1_malformed fun u' t mac s' hf => hw ⟨u',t,mac,s',hf⟩] at h
      cases h
  · rintro ⟨t,mac,hf,hk⟩
    rw [matchV1_val hf,hk]

theorem matchV1_error {cr : Crypto} {raw : Text} {keys : List SecretKey} {connId : Nat}
    {rejected : TokenResult} (h : (matchV1 cr raw keys connId).val = .error rejected) :
    rejected = .parseError ∨ rejected = .invalidHmac := by
  by_cases hw : ∃ u t mac s, V1Fields raw u t mac s
  · obtain ⟨u,t,mac,s,hf⟩ := hw
    rw [matchV1_val hf] at h
    split at h
    · cases h
    · cases h; exact Or.inr rfl
  · rw [matchV1_malformed fun u t mac s hf => hw ⟨u,t,mac,s,hf⟩] at h
    cases h
    exact Or.inl rfl

theorem V1Fields.near {raw u t mac : Text} {s now : Int64} (h : V1Fields raw u t mac s)
    (h0 : 0 ≤ now.toInt) (hmax : now.toInt < 2^62) : Near s now := by
  have hlen : t.length ≤ 12 := by
    refine le_trans ?_ h.time_length
    have hone (c : Char) : 1 ≤ (String.utf8EncodeChar c).length := by
      rw [String.length_utf8EncodeChar]
      exact Char.utf8Size_pos c
    clear h
    induction t with
    | nil => simp
    | cons c t ih =>
      have := hone c
      simp only [byteLen,utf8_cons,List.length_append,List.length_cons] at ih ⊢
      omega
  have hb := parseInt64_bounds h.time_value hlen
  exact ⟨by omega,by omega⟩

/-! ## Format v2 -/

/-- The key issued the token: its hash of the time field is the packet hash. -/
def TimeHash (cr : Crypto) (bytes : Bytes) (k : SecretKey) : Prop :=
  (cr.hmacSha256 (utf8 k.key) (bytes.take 4)).take 8 = (bytes.drop 4).take 8

/-- The key issued the token for the source address `ip`. -/
def IpHash (cr : Crypto) (bytes : Bytes) (ip : IpAddr) (k : SecretKey) : Prop :=
  (cr.hmacSha256 (utf8 k.key) (bytes.take 4 ++ ip.octets16)).take 4 = (bytes.drop 12).take 4

instance (cr : Crypto) (bytes : Bytes) : DecidablePred (TimeHash cr bytes) :=
  fun _ => inferInstanceAs (Decidable (_ = _))

instance (cr : Crypto) (bytes : Bytes) (ip : IpAddr) : DecidablePred (IpHash cr bytes ip) :=
  fun _ => inferInstanceAs (Decidable (_ = _))

theorem mappedIpv6_eq (ip : IpAddr) : mappedIpv6 ip = ip.octets16 := by
  cases ip with
  | v4 a => exact (Ipv4Addr.toIpv6Mapped_octets a).symm
  | v6 a => rfl

theorem matchV2_val (cr : Crypto) (bytes : Bytes) (k : SecretKey) (ip : IpAddr) (connId : Nat) :
    (matchV2 cr bytes k (mappedIpv6 ip) connId).val =
      if TimeHash cr bytes k then (if IpHash cr bytes ip k then .ok else .ipMismatch)
      else .timeMismatch := by
  have htime : hmacSha256Parts cr (utf8 k.key) [timeBytes bytes] =
      cr.hmacSha256 (utf8 k.key) (bytes.take 4) := by simp [hmacSha256Parts,timeBytes]
  have hip : hmacSha256Parts cr (utf8 k.key) [timeBytes bytes,mappedIpv6 ip] =
      cr.hmacSha256 (utf8 k.key) (bytes.take 4 ++ ip.octets16) := by
    simp [hmacSha256Parts,timeBytes,mappedIpv6_eq]
  simp only [matchV2,htime,hip,Logged.val_ite,Logged.val_bind,Logged.val_pure,TimeHash,IpHash,
    packetHash,ipHash,ne_eq,ite_not]
  rfl

theorem searchV2_val (cr : Crypto) (bytes : Bytes) (ip : IpAddr) (connId : Nat)
    (keys : List SecretKey) :
    (searchV2 cr bytes (mappedIpv6 ip) connId keys).val =
      match keys.find? fun k => TimeHash cr bytes k with
      | none => (none,false)
      | some k => if IpHash cr bytes ip k then (some k.label,false) else (none,true) := by
  induction keys with
  | nil => rfl
  | cons k keys ih =>
    simp only [searchV2,Logged.val_bind,matchV2_val]
    by_cases ht : TimeHash cr bytes k
    · by_cases hi : IpHash cr bytes ip k
      · simp [ht,hi]
      · simp [ht,hi]
    · simp only [ht,if_false,ih,List.find?_cons,decide_false]

/-- `raw` is the text form of a token of 16 bytes. -/
structure V2Fields (cr : Crypto) (raw : Text) (bytes : Bytes) : Prop where
  raw_eq : raw = cr.base64.encode bytes
  length : bytes.length = 16

theorem V2Fields.unique {cr : Crypto} {raw : Text} {b b' : Bytes} (h : V2Fields cr raw b)
    (h' : V2Fields cr raw b') : b = b' :=
  cr.base64.encode_injective (h.raw_eq.symm.trans h'.raw_eq)

theorem V2Fields.decode {cr : Crypto} {raw : Text} {b : Bytes} (h : V2Fields cr raw b) :
    cr.base64.decode raw = some b :=
  (cr.base64.decode_eq_some _ _).mpr h.raw_eq

theorem validateV2_malformed {cr : Crypto} {raw : Text} (h : ∀ b, ¬V2Fields cr raw b)
    (keys : List SecretKey) (connId : Nat) (ip : Option IpAddr) (clock : ClockReadings) :
    (validateV2 cr raw keys connId ip clock).val = .parseError := by
  simp only [validateV2]
  split
  · rfl
  · next bytes hd =>
    have hne : bytes.length ≠ 16 := fun hl => h bytes ⟨(cr.base64.decode_eq_some _ _).mp hd,hl⟩
    rw [if_pos hne]
    rfl

/-- The verdict on a well-formed token is decided by the first key that issued it. -/
theorem validateV2_val {cr : Crypto} {raw : Text} {bytes : Bytes} (h : V2Fields cr raw bytes)
    (keys : List SecretKey) (connId : Nat) (ip : Option IpAddr) (clock : ClockReadings) :
    (validateV2 cr raw keys connId ip clock).val =
      match ip with
      | none => .invalidIp
      | some ip =>
        match keys.find? fun k => TimeHash cr bytes k with
        | none => .invalidHmac
        | some k =>
          if IpHash cr bytes ip k then
            (timeWindow (reconstructTime (timeField bytes) clock.reconstruct) connId k.label
              clock.window).val
          else .invalidIp := by
  simp only [validateV2,h.decode]
  rw [if_neg (not_not.mpr h.length)]
  cases ip with
  | none => rfl
  | some ip =>
    simp only [Logged.val_bind,searchV2_val]
    cases keys.find? fun k => decide (TimeHash cr bytes k) with
    | none => rfl
    | some k =>
      by_cases hi : IpHash cr bytes ip k
      · simp only [hi,if_true]
        rfl
      · simp only [hi,if_false]
        rfl

/-! ## The `/ip` check -/

theorem matchingIp_val {cr : Crypto} {v2 : Option Text} {k : SecretKey} {ip : IpAddr}
    {connId : Nat} : (matchingIp cr v2 k ip connId).val = true ↔
      ∃ raw bytes, v2 = some raw ∧ V2Fields cr raw bytes ∧ TimeHash cr bytes k ∧
        IpHash cr bytes ip k := by
  simp only [matchingIp]
  cases hd : v2.bind cr.base64.decode with
  | none =>
    simp only [Logged.val_pure,Bool.false_eq_true,false_iff]
    rintro ⟨raw,bytes,rfl,hf,-⟩
    simp [hf.decode] at hd
  | some bytes =>
    obtain ⟨raw,rfl,hraw⟩ := Option.bind_eq_some_iff.mp hd
    have hraw := (cr.base64.decode_eq_some _ _).mp hraw
    simp only [Logged.val_ite,Logged.val_bind,Logged.val_pure,matchV2_val]
    constructor
    · intro h
      split at h
      · next hlen =>
        refine ⟨raw,bytes,rfl,⟨hraw,hlen⟩,?_⟩
        split at h
        · next ht =>
          split at h
          · next hi => exact ⟨ht,hi⟩
          · cases h
        · cases h
      · cases h
    · rintro ⟨raw',bytes',hsome,hf,ht,hi⟩
      cases hsome
      obtain rfl : bytes' = bytes := cr.base64.encode_injective (hf.raw_eq.symm.trans hraw)
      simp [hf.length,ht,hi]

theorem checkIpToken_ok {cr : Crypto} {raw : Text} {keys : List SecretKey} {connId : Nat}
    {ip : IpAddr} {now : Int64} {token : IpToken} :
    (checkIpToken cr raw keys connId ip now).val = .ok token ↔
      ∃ s early, (matchV1 cr (splitIpToken raw).1 keys connId).val =
          .ok (token.openTestUuid,s,token.key) ∧
        (windowCheck s connId now).val = .ok early ∧
        token.matchingIp = (matchingIp cr (splitIpToken raw).2 token.key ip connId).val := by
  simp only [checkIpToken]
  obtain ⟨v1,v2⟩ := splitIpToken raw
  simp only [Logged.val_bind]
  cases hm : (matchV1 cr v1 keys connId).val with
  | error rejected => simp
  | ok found =>
    obtain ⟨u,s,k⟩ := found
    simp only [Logged.val_bind]
    cases hw : (windowCheck s connId now).val with
    | error rejected =>
      simp only [Logged.val_pure,reduceCtorEq,false_iff]
      rintro ⟨s',early,h,hw',-⟩
      cases h
      rw [hw] at hw'
      cases hw'
    | ok early =>
      simp only [Logged.val_bind,Logged.val_pure,Except.ok.injEq]
      constructor
      · rintro rfl
        exact ⟨s,early,rfl,hw,rfl⟩
      · rintro ⟨s',early',h,-,hip⟩
        simp only [Prod.mk.injEq] at h
        obtain ⟨hu,-,hk⟩ := h
        cases token
        simp_all

end Rmbtd
