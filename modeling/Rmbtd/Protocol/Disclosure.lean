import Rmbtd.LogText
import Rmbtd.Protocol.TokenFormat

/-!
# What token checks disclose

The records at info or above that the checks of a token log. If two addresses get the same verdict
and it is not that the token was issued for another address, these records are the same for both.
-/

namespace Rmbtd

namespace Logged

variable {α β : Type}

def severe (m : Logged α) : List LogRecord := m.records.filter (·.level.isSevere)

@[simp] theorem severe_pure (a : α) : (pure a : Logged α).severe = [] := rfl

@[simp] theorem severe_bind (m : Logged α) (f : α → Logged β) :
    (m >>= f).severe = m.severe ++ (f m.val).severe := List.filter_append ..

@[simp] theorem severe_debug (text : Text) : (log .debug text).severe = [] := rfl

@[simp] theorem severe_ite (c : Prop) [Decidable c] (m n : Logged α) :
    (if c then m else n).severe = if c then m.severe else n.severe := by
  split
  · rfl
  · rfl

end Logged

section
variable {cr : Crypto} {keys : List SecretKey} {connId : Nat} {a b : IpAddr}

@[simp] theorem matchV2_severe (bytes : Bytes) (key : SecretKey) (ip16 : Bytes) :
    (matchV2 cr bytes key ip16 connId).severe = [] := by
  simp [matchV2]

@[simp] theorem searchV2_severe (bytes ip16 : Bytes) :
    (searchV2 cr bytes ip16 connId keys).severe = [] := by
  induction keys with
  | nil => rfl
  | cons key keys ih =>
    rw [searchV2,Logged.severe_bind,matchV2_severe,List.nil_append]
    split
    · exact ih
    · rfl
    · rfl

@[simp] theorem matchingIp_severe (v2 : Option Text) (key : SecretKey) (ip : IpAddr) :
    (matchingIp cr v2 key ip connId).severe = [] := by
  unfold matchingIp
  split
  · simp
  · rfl

private theorem searchV2_same {raw : Text} {bytes : Bytes} (hraw : V2Fields cr raw bytes)
    {clock : ClockReadings} (hsame : (validateV2 cr raw keys connId (some a) clock).val =
      (validateV2 cr raw keys connId (some b) clock).val)
    (hip : (validateV2 cr raw keys connId (some a) clock).val ≠ .invalidIp) :
    (searchV2 cr bytes (mappedIpv6 a) connId keys).val =
      (searchV2 cr bytes (mappedIpv6 b) connId keys).val := by
  rw [validateV2_val hraw,validateV2_val hraw] at hsame
  rw [validateV2_val hraw] at hip
  rw [searchV2_val,searchV2_val]
  cases hfind : keys.find? fun k => decide (TimeHash cr bytes k) with
  | none => rfl
  | some k =>
    simp only [hfind] at hsame hip ⊢
    by_cases ha : IpHash cr bytes a k
    · by_cases hb : IpHash cr bytes b k
      · rw [if_pos ha,if_pos hb]
      · rw [if_neg hb] at hsame
        exact absurd hsame hip
    · rw [if_neg ha] at hip
      exact absurd rfl hip

private theorem validateV2_same {raw : Text} {clock : ClockReadings}
    (hsame : (validateV2 cr raw keys connId (some a) clock).val =
      (validateV2 cr raw keys connId (some b) clock).val)
    (hip : (validateV2 cr raw keys connId (some a) clock).val ≠ .invalidIp) (clock' : ClockReadings) :
    (validateV2 cr raw keys connId (some a) clock').val =
        (validateV2 cr raw keys connId (some b) clock').val ∧
      (validateV2 cr raw keys connId (some a) clock').severe =
        (validateV2 cr raw keys connId (some b) clock').severe := by
  cases hdecode : cr.base64.decode raw with
  | none => simp [validateV2,hdecode]
  | some bytes =>
    by_cases hlen : bytes.length = 16
    · have hsearch := searchV2_same ⟨(cr.base64.decode_eq_some _ _).mp hdecode,hlen⟩ hsame hip
      cases hfound : (searchV2 cr bytes (mappedIpv6 b) connId keys).val with
      | mk label mismatch =>
        rw [hfound] at hsearch
        have hna : (validateV2 cr raw keys connId (some a) clock).val ≠ .invalidIp := hip
        simp only [validateV2,hdecode,hlen,ne_eq,not_true_eq_false,if_false,Logged.val_bind,
          Logged.severe_bind,Logged.severe_debug,searchV2_severe,hsearch,hfound,List.nil_append]
          at hna ⊢
        cases label with
        | some label => exact ⟨rfl,rfl⟩
        | none =>
          cases mismatch with
          | true => exact absurd rfl hna
          | false => exact ⟨rfl,rfl⟩
    · simp [validateV2,hdecode,hlen]

/-- The verdict on a token that two addresses share leaves no trace of which it was. -/
theorem validateToken_same {token : Text} {v2Only : Bool} {clock : ClockReadings}
    (hsame : (validateToken cr token keys connId (some a) v2Only clock).val =
      (validateToken cr token keys connId (some b) v2Only clock).val)
    (hip : (validateToken cr token keys connId (some a) v2Only clock).val ≠ .invalidIp)
    (clock' : ClockReadings) :
    (validateToken cr token keys connId (some a) v2Only clock').val =
        (validateToken cr token keys connId (some b) v2Only clock').val ∧
      (validateToken cr token keys connId (some a) v2Only clock').severe =
        (validateToken cr token keys connId (some b) v2Only clock').severe := by
  unfold validateToken at hsame hip ⊢
  cases hraw : extractV2 token with
  | none => exact ⟨rfl,rfl⟩
  | some raw =>
    simp only [hraw] at hsame hip ⊢
    exact validateV2_same hsame hip clock'

theorem checkIpToken_same {token : Text} {now : Int64}
    (hsame : (checkIpToken cr token keys connId a now).val = (checkIpToken cr token keys connId b now).val) :
    (checkIpToken cr token keys connId a now).severe = (checkIpToken cr token keys connId b now).severe := by
  unfold checkIpToken at hsame ⊢
  simp only [Logged.val_bind,Logged.severe_bind] at hsame ⊢
  cases hmatch : (matchV1 cr (splitIpToken token).1 keys connId).val with
  | error rejected => rfl
  | ok fields =>
    obtain ⟨uuid,startTime,key⟩ := fields
    simp only [hmatch,Logged.val_bind,Logged.severe_bind] at hsame ⊢
    cases hwindow : (windowCheck startTime connId now).val with
    | error rejected => rfl
    | ok secondsEarly =>
      simp only [hwindow,Logged.val_bind,Logged.severe_bind,matchingIp_severe,Logged.val_pure,
        Logged.severe_pure,List.nil_append,List.append_nil] at hsame ⊢
      have hmatching := congrArg IpToken.matchingIp (Except.ok.inj hsame)
      dsimp only at hmatching
      rw [hmatching]

end

/-! ## The answer to `/ip` -/

/-- The answers show the same: both are refused alike, or both have the same detail for the log. -/
inductive SameNote : Except IpError IpAnswer → Except IpError IpAnswer → Prop
  | answered {x y : IpAnswer} : x.note = y.note → SameNote (.ok x) (.ok y)
  | refused (e : IpError) : SameNote (.error e) (.error e)

/-- A request body tells nothing of two addresses apart: an answer names the same NAT type, and the
token, if there is one, has the same verdict. -/
structure SameAnswer (cr : Crypto) (fromSlice : JsonParser) (keys : List SecretKey) (connId : Nat)
    (now : Int64) (a b : IpAddr) (body : Bytes) : Prop where
  natType : ∀ members localIp answer, fromSlice body = .ok (.object members) →
    localAddr members = .ok localIp → (ipResponse cr fromSlice body a keys connId now).val = .ok answer →
    natType localIp a.toCanonical = natType localIp b.toCanonical
  verdict : ∀ members token, fromSlice body = .ok (.object members) →
    tokenText members = .ok (some token) →
    (checkIpToken cr token keys connId a.toCanonical now).val =
      (checkIpToken cr token keys connId b.toCanonical now).val

section
variable {cr : Crypto} {fromSlice : JsonParser} {keys : List SecretKey} {connId : Nat} {a b : IpAddr}
  {now : Int64}

private theorem signedMembers_same {token : Text}
    (hsame : (checkIpToken cr token keys connId a now).val = (checkIpToken cr token keys connId b now).val) :
    (signedMembers cr token keys connId a now).severe = (signedMembers cr token keys connId b now).severe ∧
      ((∃ e, (signedMembers cr token keys connId a now).val = .error e ∧
          (signedMembers cr token keys connId b now).val = .error e) ∨
        ∃ signed signed' note, (signedMembers cr token keys connId a now).val = .ok (signed,note) ∧
          (signedMembers cr token keys connId b now).val = .ok (signed',note)) := by
  unfold signedMembers
  simp only [Logged.val_bind,Logged.severe_bind,checkIpToken_same hsame,hsame]
  cases (checkIpToken cr token keys connId b now).val with
  | error rejected => exact ⟨rfl,Or.inl ⟨_,rfl,rfl⟩⟩
  | ok checked =>
    dsimp only
    cases parseUuid checked.openTestUuid with
    | none => exact ⟨rfl,Or.inl ⟨_,rfl,rfl⟩⟩
    | some uuid => exact ⟨rfl,Or.inr ⟨_,_,_,rfl,rfl⟩⟩

theorem ipResponse_same_note {body : Bytes} (h : SameAnswer cr fromSlice keys connId now a b body) :
    (ipResponse cr fromSlice body a keys connId now).severe =
        (ipResponse cr fromSlice body b keys connId now).severe ∧
      SameNote (ipResponse cr fromSlice body a keys connId now).val
        (ipResponse cr fromSlice body b keys connId now).val := by
  obtain ⟨hnat,hverdict⟩ := h
  unfold ipResponse at hnat ⊢
  by_cases hbody : body = []
  · rw [if_pos hbody,if_pos hbody]
    exact ⟨rfl,.refused _⟩
  rw [if_neg hbody] at hnat ⊢
  rw [if_neg hbody]
  cases hjson : fromSlice body with
  | error e => exact ⟨rfl,.refused _⟩
  | ok json =>
    rw [hjson] at hnat hverdict
    cases json with
    | object members =>
      dsimp only at hnat ⊢
      cases hlocal : localAddr members with
      | error e => exact ⟨rfl,.refused _⟩
      | ok localIp =>
        dsimp only
        cases htoken : tokenText members with
        | error e => exact ⟨rfl,.refused _⟩
        | ok token =>
          cases token with
          | none =>
            have hnat := hnat members localIp _ rfl hlocal (by rw [hlocal,htoken]; rfl)
            refine ⟨rfl,.answered ?_⟩
            change natType localIp a.toCanonical ++ _ = natType localIp b.toCanonical ++ _
            rw [hnat]
          | some token =>
            obtain ⟨hsevere,hval⟩ := signedMembers_same (hverdict members token rfl htoken)
            simp only [hlocal,htoken,Logged.val_bind,Logged.severe_bind,hsevere] at hnat ⊢
            rcases hval with ⟨e,ha,hb⟩ | ⟨signed,signed',note,ha,hb⟩
            · rw [ha,hb]
              exact ⟨rfl,.refused _⟩
            · rw [ha] at hnat
              rw [ha,hb]
              refine ⟨rfl,.answered ?_⟩
              change natType localIp a.toCanonical ++ note = natType localIp b.toCanonical ++ note
              rw [hnat members localIp _ rfl hlocal rfl]
    | _ => exact ⟨rfl,.refused _⟩

end

end Rmbtd
