import Rmbtd.IpCheck.Response
import Rmbtd.Protocol.Validation

/-!
# Soundness of signed answers

The control server trusts the signature in an `/ip` answer. It is given only for a token that
passes the check, with the key that passed it, and for the address the server sees.
-/

namespace Rmbtd

def answerText (v ip natType : Text) (signed : Option (Bool × Text)) : Text :=
  "\x7b\"v\":\"" ++ v ++ "\",\"ip\":\"" ++ ip ++ "\",\"nat_type\":\"" ++ natType ++ "\"" ++
    (match signed with
    | none => []
    | some (matching,signature) => ",\"matching_ip\":" ++ boolText matching ++
        ",\"signature\":\"" ++ signature ++ "\"") ++ "\x7d"

def publicText (peer : IpAddr) : Text := peer.toCanonical.toText

def publicVersion (peer : IpAddr) : Text := if peer.toCanonical.isIpv4 then "4" else "6"

/-- The text has a member of the given name. -/
def HasMember (name json : Text) : Prop := '"'::(name ++ ['"']) <:+: json

/-- The request has no token: none at all, null, or a blank text. -/
def NoToken (members : List (Text × Json)) : Prop :=
  member "token" members = none ∨ member "token" members = some .null ∨
    ∃ s, member "token" members = some (.string s) ∧ trim s = []

/-- The token passes the check under the key `k`, the first one that signed its v1 part, and
carries the UUID with the given bytes. -/
def Authorises (cr : Crypto) (keys : List SecretKey) (now : Int64) (token : Text) (k : SecretKey)
    (uuid : Bytes) : Prop :=
  ∃ u t mac s, V1Fields (splitIpToken token).1 u t mac s ∧
    FirstKey (fun k => v1Mac cr k u t = mac) keys k ∧ CanonicalUuid u uuid ∧
    (0 ≤ now.toInt → now.toInt < 2^62 → InWindow s.toInt now.toInt)

/-- The token has a v2 part that was issued with the key for the address. -/
def IssuedFor (cr : Crypto) (token : Text) (k : SecretKey) (peer : IpAddr) : Prop :=
  ∃ part bytes, (splitIpToken token).2 = some part ∧ V2Fields cr part bytes ∧ TimeHash cr bytes k ∧
    IpHash cr bytes peer k

def signatureText (cr : Crypto) (k : SecretKey) (peer : IpAddr) (uuid : Bytes) : Text :=
  cr.base64.encode (cr.hmacSha256 (utf8 k.key) (peer.octets16 ++ uuid))

/-! ## The members an answer can have -/

private theorem g_not_mem_natType (localIp : Option IpAddr) (publicIp : IpAddr) :
    'g' ∉ natType localIp publicIp := by
  have hversion (ip : IpAddr) : 'g' ∉ (if ip.isIpv4 then "ipv4".toList else "ipv6".toList) := by
    split <;> decide
  have hscope (ip : IpAddr) : 'g' ∉ (if isIpLocal ip then "local".toList else "public".toList) := by
    split <;> decide
  have hfixed : 'g' ∉ "is_".toList ∧ 'g' ∉ "no_nat_".toList ∧ 'g' ∉ "nat_".toList ∧
      'g' ∉ "_to_".toList ∧ 'g' ∉ "_".toList := by decide
  obtain ⟨h1,h2,h3,h4,h5⟩ := hfixed
  cases localIp with
  | none =>
    simp only [natType,List.mem_append,not_or]
    exact ⟨h1,hversion _⟩
  | some localIp =>
    simp only [natType]
    split
    · simp only [List.mem_append,not_or]
      exact ⟨h2,hversion _⟩
    · split
      · simp only [List.mem_append,not_or]
        exact ⟨⟨⟨⟨⟨h3,hscope _⟩,h4⟩,hscope _⟩,h5⟩,hversion _⟩
      · simp only [List.mem_append,not_or]
        exact ⟨⟨⟨⟨⟨h3,hversion _⟩,h4⟩,hscope _⟩,h5⟩,hversion _⟩

private theorem g_not_mem_answerText {v ip natType : Text} (hv : 'g' ∉ v) (hip : 'g' ∉ ip)
    (hnat : 'g' ∉ natType) : 'g' ∉ answerText v ip natType none := by
  have hfixed : 'g' ∉ "\x7b\"v\":\"".toList ∧ 'g' ∉ "\",\"ip\":\"".toList ∧
      'g' ∉ "\",\"nat_type\":\"".toList ∧ 'g' ∉ "\"".toList ∧ 'g' ∉ "\x7d".toList := by
    decide +kernel
  obtain ⟨h1,h2,h3,h4,h5⟩ := hfixed
  unfold answerText
  simp only [List.mem_append,not_or]
  exact ⟨⟨⟨⟨⟨⟨⟨⟨h1,hv⟩,h2⟩,hip⟩,h3⟩,hnat⟩,h4⟩,List.not_mem_nil⟩,h5⟩

private theorem g_not_mem_public (peer : IpAddr) :
    'g' ∉ publicVersion peer ∧ 'g' ∉ publicText peer := by
  constructor
  · unfold publicVersion
    split <;> decide
  · intro h
    have h : 'g' ∈ peer.toCanonical.toText := h
    have hdigit : ∀ d < 16, 'g' ≠ Nat.digitChar d := by decide
    rcases IpAddr.toText_chars h with ⟨d,hd,h⟩ | h | h
    · exact hdigit d hd h
    · revert h; decide
    · revert h; decide

private theorem not_hasMember_unsigned {name : Text} (hname : 'g' ∈ name) (peer : IpAddr)
    (localIp : Option IpAddr) : ¬HasMember name (answerText (publicVersion peer) (publicText peer)
      (natType localIp peer.toCanonical) none) := by
  intro h
  obtain ⟨hv,hip⟩ := g_not_mem_public peer
  exact g_not_mem_answerText hv hip (g_not_mem_natType _ _) (h.subset (by simp [hname]))

private theorem hasMember_signed (v ip natType : Text) (matching : Bool) (signature : Text) :
    HasMember "signature" (answerText v ip natType (some (matching,signature))) := by
  have hliteral : ",\"signature\":\"".toList = "," ++ '"'::("signature" ++ ['"']) ++ ":\"" := by
    decide +kernel
  unfold HasMember answerText
  rw [hliteral]
  generalize '"'::("signature".toList ++ ['"']) = name
  refine ⟨"\x7b\"v\":\"" ++ v ++ "\",\"ip\":\"" ++ ip ++ "\",\"nat_type\":\"" ++ natType ++ "\"" ++
    (",\"matching_ip\":" ++ boolText matching ++ ","),":\"" ++ signature ++ "\"" ++ "\x7d",?_⟩
  simp only [List.append_assoc]

/-! ## The cases of `ipResponse` -/

section
variable {cr : Crypto} {fromSlice : JsonParser} {body : Bytes} {peer : IpAddr}
  {keys : List SecretKey} {connId : Nat} {now : Int64}

private theorem signedMembers_ok {token signed note : Text} (h : (signedMembers cr token keys connId
      peer.toCanonical now).val = .ok (signed,note)) :
    ∃ k uuid matching, Authorises cr keys now token k uuid ∧ (matching = true ↔ IssuedFor cr token k peer) ∧
      signed = ",\"matching_ip\":" ++ boolText matching ++
        ",\"signature\":\"" ++ signatureText cr k peer uuid ++ "\"" := by
  simp only [signedMembers,Logged.val_bind] at h
  cases hc : (checkIpToken cr token keys connId peer.toCanonical now).val with
  | error rejected =>
    rw [hc] at h
    cases h
  | ok checked =>
    rw [hc] at h
    simp only at h
    cases hu : parseUuid checked.openTestUuid with
    | none =>
      rw [hu] at h
      cases h
    | some uuid =>
      rw [hu] at h
      cases h
      obtain ⟨s,early,hm,hw,hmatching⟩ := checkIpToken_ok.mp hc
      obtain ⟨t,mac,hf,hk⟩ := matchV1_ok.mp hm
      refine ⟨checked.key,uuid,checked.matchingIp,⟨_,t,mac,s,hf,hk,parseUuid_canonical hu,?_⟩,?_,?_⟩
      · intro h0 hmax
        exact ((windowCheck_ok (hf.near h0 hmax) connId early).mp hw).1
      · rw [hmatching,matchingIp_val]
        simp only [IssuedFor,IpHash,IpAddr.octets16_toCanonical]
      · have hip : ipSignature cr (utf8 checked.key.key) peer.toCanonical uuid =
            cr.hmacSha256 (utf8 checked.key.key) (peer.octets16 ++ uuid) := by
          rw [← IpAddr.octets16_toCanonical]
          cases peer.toCanonical with
          | v4 a => rfl
          | v6 a => rfl
        rw [hip]
        rfl

private theorem signedMembers_error {token : Text} {e : IpError} (h : (signedMembers cr token keys
      connId peer now).val = .error e) : e.status = "403 Forbidden" := by
  simp only [signedMembers,Logged.val_bind] at h
  split at h
  · cases h; rfl
  · split at h
    · cases h; rfl
    · cases h

theorem tokenText_ok {members : List (Text × Json)} {token : Option Text} :
    tokenText members = .ok token ↔ token = none ∧ NoToken members ∨
      ∃ s, token = some s ∧ member "token" members = some (.string s) ∧ trim s ≠ [] := by
  simp only [tokenText,NoToken]
  cases hm : member "token" members with
  | none => cases token <;> simp
  | some value =>
    cases value with
    | null => cases token <;> simp
    | string s =>
      by_cases hs : trim s = []
      · cases token with
        | none => simp [hs]
        | some token => simp only [hs,ne_eq,not_true,if_false]; grind
      · cases token with
        | none => simp [hs]
        | some token => simp only [hs,ne_eq,not_false_eq_true,if_true]; grind
    | _ => simp

def unsignedText (peer : IpAddr) (localIp : Option IpAddr) : Text :=
  answerText (publicVersion peer) (publicText peer) (natType localIp peer.toCanonical) none

theorem ipResponse_object (cr : Crypto) (peer : IpAddr) (keys : List SecretKey)
    (connId : Nat) (now : Int64) {members : List (Text × Json)} (hbody : body ≠ [])
    (hparse : fromSlice body = .ok (.object members)) :
    ((ipResponse cr fromSlice body peer keys connId now).val.map IpAnswer.json) =
      match localAddr members with
      | .error e => .error e
      | .ok localIp =>
        match tokenText members with
        | .error e => .error e
        | .ok none => .ok (unsignedText peer localIp)
        | .ok (some token) =>
          match (signedMembers cr token keys connId peer.toCanonical now).val with
          | .error e => .error e
          | .ok (signed,_) => .ok ("\x7b\"v\":\"" ++ publicVersion peer ++ "\",\"ip\":\"" ++
              publicText peer ++ "\",\"nat_type\":\"" ++ natType localIp peer.toCanonical ++ "\"" ++
              signed ++ "\x7d") := by
  simp only [ipResponse,if_neg hbody,hparse]
  cases localAddr members with
  | error e => rfl
  | ok localIp =>
    cases tokenText members with
    | error e => rfl
    | ok token =>
      cases token with
      | none =>
        simp only [Logged.val_pure,Except.map]
        unfold unsignedText answerText publicVersion publicText
        dsimp only
        rw [List.append_nil]
      | some token =>
        simp only [Logged.val_bind]
        cases (signedMembers cr token keys connId peer.toCanonical now).val with
        | error e => rfl
        | ok signed => simp only [Logged.val_pure,Except.map,publicVersion,publicText]

/-- What a successful answer says and what was checked for it. -/
theorem ipResponse_says {answer : IpAnswer}
    (h : (ipResponse cr fromSlice body peer keys connId now).val = .ok answer) :
    ∃ members localIp, fromSlice body = .ok (.object members) ∧ localAddr members = .ok localIp ∧
      (NoToken members ∧ answer.json = unsignedText peer localIp ∨
        ∃ token k uuid matching, member "token" members = some (.string token) ∧ trim token ≠ [] ∧
          Authorises cr keys now token k uuid ∧ (matching = true ↔ IssuedFor cr token k peer) ∧
          answer.json = answerText (publicVersion peer) (publicText peer) (natType localIp peer.toCanonical)
            (some (matching,signatureText cr k peer uuid))) := by
  have hbody : body ≠ [] := by
    rintro rfl
    simp only [ipResponse,if_true] at h
    cases h
  cases hparse : fromSlice body with
  | error e =>
    simp only [ipResponse,if_neg hbody,hparse] at h
    cases h
  | ok value =>
    cases value with
    | object members =>
      have hobject := ipResponse_object cr peer keys connId now hbody hparse
      rw [h] at hobject
      cases hl : localAddr members with
      | error e =>
        rw [hl] at hobject
        cases hobject
      | ok localIp =>
        refine ⟨members,localIp,rfl,hl,?_⟩
        rw [hl] at hobject
        cases ht : tokenText members with
        | error e =>
          rw [ht] at hobject
          cases hobject
        | ok token =>
          rw [ht] at hobject
          rcases tokenText_ok.mp ht with ⟨rfl,hno⟩ | ⟨s,rfl,hm,hs⟩
          · exact Or.inl ⟨hno,Except.ok.inj hobject⟩
          · cases hsigned : (signedMembers cr s keys connId peer.toCanonical now).val with
            | error e =>
              simp only [hsigned] at hobject
              cases hobject
            | ok p =>
              obtain ⟨signed,note⟩ := p
              simp only [hsigned] at hobject
              obtain ⟨k,uuid,matching,hauth,hmatching,htext⟩ := signedMembers_ok hsigned
              refine Or.inr ⟨s,k,uuid,matching,hm,hs,hauth,hmatching,?_⟩
              rw [Except.ok.inj hobject,htext]
              rfl
    | _ =>
      simp only [ipResponse,if_neg hbody,hparse] at h
      cases h

theorem ipResponse_error {e : IpError}
    (h : (ipResponse cr fromSlice body peer keys connId now).val = .error e) :
    e.status = "400 Bad Request" ∨ e.status = "403 Forbidden" := by
  have hlocal {members e} (h : localAddr members = .error e) : e.status = "400 Bad Request" := by
    have htext {e} (h : localText members = .error e) : e.status = "400 Bad Request" := by
      unfold localText at h
      split at h <;> cases h
      rfl
    unfold localAddr at h
    split at h
    · next ht => cases h; exact htext ht
    · cases h
    · split at h
      · cases h
      · cases h; rfl
  have htoken {members e} (h : tokenText members = .error e) : e.status = "400 Bad Request" := by
    unfold tokenText at h
    split at h <;> cases h
    rfl
  simp only [ipResponse] at h
  split at h
  · cases h; exact Or.inl rfl
  · split at h
    · cases h; exact Or.inl rfl
    · split at h
      · next hl => cases h; exact Or.inl (hlocal hl)
      · split at h
        · next ht => cases h; exact Or.inl (htoken ht)
        · split at h
          · cases h
          · simp only [Logged.val_bind] at h
            split at h
            · next hs => cases h; exact Or.inr (signedMembers_error hs)
            · cases h
    · cases h; exact Or.inl rfl

private theorem ipResponse_same {body' : Bytes} {members members' : List (Text × Json)}
    (hbody : body ≠ []) (hbody' : body' ≠ []) (hparse : fromSlice body = .ok (.object members))
    (hparse' : fromSlice body' = .ok (.object members'))
    (htoken : member "token" members = member "token" members') {l l' : Option IpAddr}
    (hl : localAddr members = .ok l) (hl' : localAddr members' = .ok l') :
    (∃ e, (ipResponse cr fromSlice body peer keys connId now).val = .error e ∧
      (ipResponse cr fromSlice body' peer keys connId now).val = .error e) ∨
    ∃ answer answer' signed, (ipResponse cr fromSlice body peer keys connId now).val = .ok answer ∧
      (ipResponse cr fromSlice body' peer keys connId now).val = .ok answer' ∧
      answer.json = answerText (publicVersion peer) (publicText peer)
        (natType l peer.toCanonical) signed ∧
      answer'.json = answerText (publicVersion peer) (publicText peer)
        (natType l' peer.toCanonical) signed := by
  have hmap {ε α β : Type} {f : α → β} {x : Except ε α} : (∀ e, x.map f = .error e → x = .error e) ∧
      ∀ b, x.map f = .ok b → ∃ a, x = .ok a ∧ f a = b := by
    cases x with
    | error e => exact ⟨fun e' h => congrArg _ (Except.error.inj h),fun b h => nomatch h⟩
    | ok a => exact ⟨fun e h => (nomatch h),fun b h => ⟨a,rfl,Except.ok.inj h⟩⟩
  have htoken' : tokenText members' = tokenText members := by simp only [tokenText,htoken]
  have h := ipResponse_object cr peer keys connId now hbody hparse
  have h' := ipResponse_object cr peer keys connId now hbody' hparse'
  rw [hl] at h
  rw [hl',htoken'] at h'
  cases ht : tokenText members with
  | error e =>
    rw [ht] at h h'
    exact Or.inl ⟨e,hmap.1 e h,hmap.1 e h'⟩
  | ok token =>
    rw [ht] at h h'
    cases token with
    | none =>
      obtain ⟨a,ha,hja⟩ := hmap.2 _ h
      obtain ⟨a',ha',hja'⟩ := hmap.2 _ h'
      exact Or.inr ⟨a,a',none,ha,ha',hja,hja'⟩
    | some token =>
      cases hs : (signedMembers cr token keys connId peer.toCanonical now).val with
      | error e =>
        simp only [hs] at h h'
        exact Or.inl ⟨e,hmap.1 e h,hmap.1 e h'⟩
      | ok p =>
        obtain ⟨signed,note⟩ := p
        simp only [hs] at h h'
        obtain ⟨k,uuid,matching,-,-,hsigned⟩ := signedMembers_ok hs
        obtain ⟨a,ha,hja⟩ := hmap.2 _ h
        obtain ⟨a',ha',hja'⟩ := hmap.2 _ h'
        refine Or.inr ⟨a,a',some (matching,signatureText cr k peer uuid),ha,ha',?_,?_⟩
        · rw [hja,hsigned]
          rfl
        · rw [hja',hsigned]
          rfl

end

/-- An answer is signed only for a request object with a non-blank token that passes the check,
with the key that passed it and for the address the server sees. An answer without a signature
has no `matching_ip` and is given only for a request without a token, and a token that does not
pass the check is refused. Besides the token nothing in a request has an influence on what the
answer says about the address and the token. -/
theorem ipResponse_sound (cr : Crypto) (fromSlice : JsonParser) (body : Bytes) (peer : IpAddr)
    (keys : List SecretKey) (connId : Nat) (now : Int64) :
    let respond := fun body => (ipResponse cr fromSlice body peer keys connId now).val
    let answerText := answerText (publicVersion peer) (publicText peer)
    (∀ answer, respond body = .ok answer → HasMember "signature" answer.json →
      ∃ members token k uuid natType matching, fromSlice body = .ok (.object members) ∧
        member "token" members = some (.string token) ∧ trim token ≠ [] ∧
        Authorises cr keys now token k uuid ∧
        answer.json = answerText natType (some (matching,signatureText cr k peer uuid))) ∧
    (∀ answer, respond body = .ok answer → ¬HasMember "signature" answer.json →
      ¬HasMember "matching_ip" answer.json ∧
        ∃ members natType, fromSlice body = .ok (.object members) ∧ NoToken members ∧
          answer.json = answerText natType none) ∧
    (∀ members token, fromSlice body = .ok (.object members) →
      member "token" members = some (.string token) → trim token ≠ [] →
      (¬∃ k uuid, Authorises cr keys now token k uuid) →
      ∃ e, respond body = .error e ∧
        (e.status = "400 Bad Request" ∨ e.status = "403 Forbidden")) ∧
    ∀ body' members members', body ≠ [] → body' ≠ [] → fromSlice body = .ok (.object members) →
      fromSlice body' = .ok (.object members') →
      member "token" members = member "token" members' →
      (∃ l, localAddr members = .ok l) → (∃ l, localAddr members' = .ok l) →
      (∃ e, respond body = .error e ∧ respond body' = .error e) ∨
        ∃ answer answer' natType natType' signed, respond body = .ok answer ∧
          respond body' = .ok answer' ∧ answer.json = answerText natType signed ∧
          answer'.json = answerText natType' signed := by
  intro respond text
  refine ⟨?_,?_,?_,?_⟩
  · intro answer hok hsig
    obtain ⟨members,localIp,hparse,-,hcase⟩ := ipResponse_says hok
    rcases hcase with ⟨-,htext⟩ | ⟨token,k,uuid,matching,hm,hs,hauth,-,htext⟩
    · rw [htext] at hsig
      exact absurd hsig (not_hasMember_unsigned (by decide) peer localIp)
    · exact ⟨members,token,k,uuid,_,matching,hparse,hm,hs,hauth,htext⟩
  · intro answer hok hsig
    obtain ⟨members,localIp,hparse,-,hcase⟩ := ipResponse_says hok
    rcases hcase with ⟨hno,htext⟩ | ⟨token,k,uuid,matching,-,-,-,-,htext⟩
    · refine ⟨?_,members,_,hparse,hno,htext⟩
      rw [htext]
      exact not_hasMember_unsigned (by decide) peer localIp
    · rw [htext] at hsig
      exact absurd (hasMember_signed _ _ _ matching _) hsig
  · intro members token hparse hm hs hauth
    cases hr : respond body with
    | error e => exact ⟨e,rfl,ipResponse_error hr⟩
    | ok answer =>
      obtain ⟨members',localIp,hparse',-,hcase⟩ := ipResponse_says hr
      rw [hparse] at hparse'
      cases hparse'
      rcases hcase with ⟨hno,-⟩ | ⟨token',k,uuid,matching,hm',-,hauth',-,-⟩
      · rcases hno with h | h | ⟨s,h,hs'⟩
        · rw [hm] at h; cases h
        · rw [hm] at h; cases h
        · rw [hm] at h; cases h; exact absurd hs' hs
      · rw [hm] at hm'
        cases hm'
        exact absurd ⟨k,uuid,hauth'⟩ hauth
  · intro body' members members' hbody hbody' hparse hparse' htoken ⟨l,hl⟩ ⟨l',hl'⟩
    rcases ipResponse_same hbody hbody' hparse hparse' htoken hl hl' with h | h
    · exact Or.inl h
    · obtain ⟨a,a',signed,ha,ha',hja,hja'⟩ := h
      exact Or.inr ⟨a,a',_,_,signed,ha,ha',hja,hja'⟩

/-! ## A request of a client -/

/-- A parser that reads bodies, and finds the same fault with all it cannot read. -/
def goldenParser : JsonParser := fun bytes =>
  match (fromUtf8 bytes).bind JsonText.parseJson with
  | some json => .ok json
  | none => .error "expected value at line 1 column 1"

def combinedToken : Text := goldenToken ++ "_#v2#ZVPxAEzErM6+VBk3HmTzPw=="

def goldenText (name value : Text) : Text := "\x7b\"" ++ name ++ "\":\"" ++ value ++ "\"\x7d"

theorem goldenParser_text {name value : Text} (hname : JsonText.Verbatim name)
    (hvalue : JsonText.Verbatim value) :
    goldenParser (utf8 (goldenText name value)) = .ok (.object [(name,.string value)]) := by
  have hopen : "\x7b\"".toList = ['\x7b','"'] := by decide
  have hcolon : "\":\"".toList = ['"',':','"'] := by decide
  have hclose : "\"\x7d".toList = ['"','\x7d'] := by decide
  have hread : JsonText.parseJson
      ('\x7b'::((JsonText.WrittenMember.string hname hvalue).text ++ ([] ++ ['\x7d']))) =
      some (.object [(name,.string value)]) := JsonText.parseJson_object (.string hname hvalue) []
  have htext : goldenText name value =
      '\x7b'::((JsonText.WrittenMember.string hname hvalue).text ++ ([] ++ ['\x7d'])) := by
    unfold goldenText
    rw [hopen,hcolon,hclose]
    simp [JsonText.WrittenMember.text,JsonText.WrittenMember.string]
  unfold goldenParser
  rw [fromUtf8_utf8,Option.bind_some,htext,hread]

theorem ipResponse_sound_golden : ∃ k uuid, k ∈ [goldenKey] ∧
    Authorises goldenCrypto [goldenKey] 1700000000 goldenToken k uuid := by
  have hok : (ipResponse goldenCrypto goldenParser (utf8 (goldenText "token" goldenToken)) goldenIp [goldenKey] 0
      1700000000).val = .ok ⟨answerText "4" "62.1.2.3" "is_ipv4" (some (false,
        signatureText goldenCrypto goldenKey goldenIp
          [0x87,0x23,0x35,0x8c,0x20,0x37,0x40,0x29,0xa7,0x0c,0x91,0xe5,0xd9,0xd3,0x5c,0xf3])),
        "is_ipv4, key 'default', matching_ip=false, signed"⟩ := by decide +kernel
  obtain ⟨members,token,k,uuid,_,_,hparse,hm,-,hauth,-⟩ :=
    (ipResponse_sound goldenCrypto goldenParser (utf8 (goldenText "token" goldenToken)) goldenIp [goldenKey] 0
      1700000000).1 _ hok (hasMember_signed _ _ _ _ _)
  rw [goldenParser_text (by decide) (by decide +kernel)] at hparse
  cases hparse
  cases hm
  obtain ⟨u,t,mac,s,hf,hk,hu⟩ := hauth
  exact ⟨k,uuid,hk.mem,u,t,mac,s,hf,hk,hu⟩

end Rmbtd
