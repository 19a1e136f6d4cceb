import Rmbtd.IpCheck.ResponseSplitting

/-!
# What a client reads in an answer

An answer to `/ip` is read back here as a client reads it: one response, whose body is one JSON
object, whose address and NAT type say what the server saw. A client may post the address it was
told, and the NAT type then tells whether it still comes from there.
-/

namespace Rmbtd

open JsonText Session Effect HttpTransport

/-! ## The NAT type -/

/-- What a NAT type says besides the IP version of the public address. -/
inductive NatClass
  | unknown
  | noNat
  | sameVersion (localIsLocal publicIsLocal : Bool)
  | otherVersion (publicIsLocal : Bool)
deriving DecidableEq

def natClass (localIp : Option IpAddr) (publicIp : IpAddr) : NatClass :=
  match localIp with
  | none => .unknown
  | some localIp =>
    if localIp = publicIp then .noNat
    else if localIp.isIpv4 = publicIp.isIpv4 then .sameVersion (isIpLocal localIp) (isIpLocal publicIp)
    else .otherVersion (isIpLocal publicIp)

private def versionText (ipv4 : Bool) : Text := if ipv4 then "ipv4" else "ipv6"

private def scopeText (isLocal : Bool) : Text := if isLocal then "local" else "public"

def NatClass.text (ipv4 : Bool) : NatClass → Text
  | .unknown => "is_".toList ++ versionText ipv4
  | .noNat => "no_nat_".toList ++ versionText ipv4
  | .sameVersion l p =>
    "nat_".toList ++ scopeText l ++ "_to_".toList ++ scopeText p ++ "_".toList ++ versionText ipv4
  | .otherVersion p =>
    "nat_".toList ++ versionText (!ipv4) ++ "_to_".toList ++ scopeText p ++ "_".toList ++ versionText ipv4

private theorem NatClass.text_sameVersion (ipv4 l p : Bool) : NatClass.text ipv4 (.sameVersion l p) =
    "nat_".toList ++ scopeText l ++ "_to_".toList ++ scopeText p ++ "_".toList ++ versionText ipv4 := rfl

private theorem NatClass.text_otherVersion (ipv4 p : Bool) : NatClass.text ipv4 (.otherVersion p) =
    "nat_".toList ++ versionText (!ipv4) ++ "_to_".toList ++ scopeText p ++ "_".toList ++
      versionText ipv4 := rfl

theorem natType_text (localIp : Option IpAddr) (publicIp : IpAddr) :
    natType localIp publicIp = (natClass localIp publicIp).text publicIp.isIpv4 := by
  cases localIp with
  | none => rfl
  | some localIp =>
    unfold natType natClass
    dsimp only
    by_cases heq : localIp = publicIp
    · rw [if_pos heq,if_pos heq]
      rfl
    · rw [if_neg heq,if_neg heq]
      by_cases hversion : localIp.isIpv4 = publicIp.isIpv4
      · rw [if_pos hversion,if_pos hversion,NatClass.text_sameVersion]
        rfl
      · have hnot : (!publicIp.isIpv4) = localIp.isIpv4 := by
          cases hl : localIp.isIpv4 <;> cases hp : publicIp.isIpv4 <;> simp_all
        rw [if_neg hversion,if_neg hversion,NatClass.text_otherVersion,hnot]
        rfl

private def natClasses : List NatClass :=
  [.unknown,.noNat,.sameVersion false false,.sameVersion false true,.sameVersion true false,
    .sameVersion true true,.otherVersion false,.otherVersion true]

private theorem mem_natClasses (c : NatClass) : c ∈ natClasses := by
  rcases c with _ | _ | ⟨_ | _,_ | _⟩ | ⟨_ | _⟩ <;> decide

theorem NatClass.text_injective {ipv4 ipv4' : Bool} {c c' : NatClass}
    (h : c.text ipv4 = c'.text ipv4') : ipv4 = ipv4' ∧ c = c' := by
  have hall : ∀ b b' : Bool, ∀ c ∈ natClasses, ∀ c' ∈ natClasses,
      NatClass.text b c = NatClass.text b' c' → b = b' ∧ c = c' := by decide +kernel
  exact hall _ _ c (mem_natClasses c) c' (mem_natClasses c') h

private theorem NatClass.verbatim_text (ipv4 : Bool) (c : NatClass) : Verbatim (c.text ipv4) := by
  have hall : ∀ b : Bool, ∀ c ∈ natClasses, Verbatim (NatClass.text b c) := by decide +kernel
  exact hall ipv4 c (mem_natClasses c)

theorem natType_noNat {localIp : Option IpAddr} {publicIp : IpAddr} :
    natType localIp publicIp = NatClass.noNat.text publicIp.isIpv4 ↔ localIp = some publicIp := by
  have hclass : natClass localIp publicIp = .noNat ↔ localIp = some publicIp := by
    unfold natClass
    split
    · simp
    · split
      · next h => simp [h]
      · next h => split <;> simp [h]
  rw [natType_text,← hclass]
  constructor
  · intro h
    exact (NatClass.text_injective h).2
  · intro h
    rw [h]

/-! ## The object of an answer -/

def answerMembers (peer : IpAddr) (localIp : Option IpAddr) (signed : Option (Bool × Text)) :
    List (Text × Json) :=
  ("v",.string (publicVersion peer))::("ip",.string (publicText peer))::
    ("nat_type",.string (natType localIp peer.toCanonical))::
    match signed with
    | none => []
    | some (matching,signature) => [("matching_ip",.bool matching),("signature",.string signature)]

private theorem verbatim_publicText (peer : IpAddr) : Verbatim (publicText peer) := by
  have hdigit : ∀ d < 16, isVerbatim (Nat.digitChar d) := by decide
  intro c hc
  rcases IpAddr.toText_chars hc with ⟨d,hd,rfl⟩ | rfl | rfl
  · exact hdigit d hd
  · rfl
  · rfl

private theorem verbatim_version (peer : IpAddr) : Verbatim (publicVersion peer) := by
  unfold publicVersion
  split <;> decide

private theorem verbatim_encode (e : Base64) (b : Bytes) : Verbatim (e.encode b) := by
  intro c hc
  have hprintable : ∀ d : Char, d.isAlphanum → isVerbatim d := by
    intro d hd
    have hquote : d ≠ '"' := by
      rintro rfl
      revert hd
      decide
    have hslash : d ≠ '\\' := by
      rintro rfl
      revert hd
      decide
    have hcontrol : 0x20 ≤ d.toNat := by
      by_contra hlt
      have hall : ∀ n < 0x20, (Char.ofNat n).isAlphanum = false := by decide
      have hfalse := hall d.toNat (by omega)
      rw [Char.ofNat_toNat] at hfalse
      rw [hfalse] at hd
      cases hd
    simp [isVerbatim,hquote,hslash,hcontrol]
  rcases e.encode_alphabet b c hc with h | rfl | rfl | rfl
  · exact hprintable c h
  · rfl
  · rfl
  · rfl

private def signedWritten : (signed : Option (Bool × Text)) → (∀ p, signed = some p → Verbatim p.2) →
    List WrittenMember
  | none, _ => []
  | some (matching,_), h =>
    [.bool (show Verbatim "matching_ip" by decide) matching,
      .string (show Verbatim "signature" by decide) (h _ rfl)]

/-- The text of an answer is one JSON object with its members. -/
theorem parseJson_answerText (peer : IpAddr) (localIp : Option IpAddr) (signed : Option (Bool × Text))
    (hsigned : ∀ p, signed = some p → Verbatim p.2) :
    parseJson (answerText (publicVersion peer) (publicText peer) (natType localIp peer.toCanonical) signed) =
      some (.object (answerMembers peer localIp signed)) := by
  have hnat : Verbatim (natType localIp peer.toCanonical) := by
    rw [natType_text]
    exact NatClass.verbatim_text _ _
  have hread := parseJson_object (.string (show Verbatim "v" by decide) (verbatim_version peer))
    (.string (show Verbatim "ip" by decide) (verbatim_publicText peer)::
      .string (show Verbatim "nat_type" by decide) hnat::signedWritten signed hsigned)
  have hfirst : "\x7b\"v\":\"".toList = ['\x7b','"','v','"',':','"'] := by decide
  have hip : "\",\"ip\":\"".toList = ['"',',','"','i','p','"',':','"'] := by decide
  have htype : "\",\"nat_type\":\"".toList = '"':: ',':: '"'::("nat_type".toList ++ ['"',':','"']) := by decide
  have hmatching : ",\"matching_ip\":".toList = ',':: '"'::("matching_ip".toList ++ ['"',':']) := by decide
  have hsignature : ",\"signature\":\"".toList = ',':: '"'::("signature".toList ++ ['"',':','"']) := by decide
  have htext : answerText (publicVersion peer) (publicText peer) (natType localIp peer.toCanonical) signed =
      '\x7b'::(WrittenMember.text (.string (show Verbatim "v" by decide) (verbatim_version peer)) ++
        (((.string (show Verbatim "ip" by decide) (verbatim_publicText peer)::
          .string (show Verbatim "nat_type" by decide) hnat::signedWritten signed hsigned :
            List WrittenMember).flatMap fun m => ','::m.text) ++ ['\x7d'])) := by
    unfold answerText
    rw [hfirst,hip,htype]
    cases signed with
    | none => simp [WrittenMember.text,WrittenMember.string,signedWritten]
    | some p =>
      dsimp only
      rw [hmatching,hsignature]
      simp [WrittenMember.text,WrittenMember.string,WrittenMember.bool,signedWritten]
  rw [htext,hread]
  cases signed with
  | none => rfl
  | some p => rfl

/-! ## The answer a client reads -/

/-- The members of a 200 answer, as a client reads them in the bytes of a response. -/
def readAnswer (bytes : Bytes) : Option (List (Text × Json)) := do
  let (response,rest) ← Http.readResponse bytes
  let text ← fromUtf8 response.body
  match parseJson text with
  | some (.object members) =>
    if response.startLine = statusLine "200 OK" ∧ rest = [] then some members else none
  | _ => none

def sent (w w' : World RawConn) : Bytes := w'.stream.output.drop w.stream.output.length

/-- The members an answer has because of the token of a request from an address, if there is one. -/
inductive SignedFor (cr : Crypto) (keys : List SecretKey) (now : Int64) (members : List (Text × Json))
    (peer : IpAddr) : Option (Bool × Text) → Prop
  | unsigned (tokenless : NoToken members) : SignedFor cr keys now members peer none
  | signed {token : Text} {k : SecretKey} {uuid : Bytes} {matching : Bool}
      (token_eq : member "token" members = some (.string token)) (visible : trim token ≠ [])
      (authorises : Authorises cr keys now token k uuid) (matches_iff : matching = true ↔ IssuedFor cr token k peer) :
    SignedFor cr keys now members peer (some (matching,signatureText cr k peer uuid))

/-- What an answer tells: the address the server sees, how the address in the request relates to
it, and the signature if there was a token. -/
def Tells (http : HttpEnv) (keys : List SecretKey) (now : Int64) (body : Bytes) (peer : IpAddr)
    (told : List (Text × Json)) : Prop :=
  ∃ members localIp signed, http.fromSlice body = .ok (.object members) ∧
    localAddr members = .ok localIp ∧ SignedFor http.env.crypto keys now members peer signed ∧
    told = answerMembers peer localIp signed

private theorem ipResponse_tells {http : HttpEnv} {body : Bytes} {peer : IpAddr} {keys : List SecretKey}
    {connId : Nat} {now : Int64} {answer : IpAnswer} (h : (ipResponse http.env.crypto http.fromSlice body
      peer keys connId now).val = .ok answer) :
    ∃ told, Tells http keys now body peer told ∧ parseJson answer.json = some (.object told) := by
  obtain ⟨members,localIp,hparse,hlocal,hcase⟩ := ipResponse_says h
  rcases hcase with ⟨hno,htext⟩ | ⟨token,k,uuid,matching,hm,hs,hauth,hmatching,htext⟩
  · refine ⟨_,⟨members,localIp,none,hparse,hlocal,.unsigned hno,rfl⟩,?_⟩
    rw [htext,unsignedText]
    exact parseJson_answerText peer localIp none (fun p h => nomatch h)
  · refine ⟨_,⟨members,localIp,_,hparse,hlocal,.signed hm hs hauth hmatching,rfl⟩,?_⟩
    rw [htext]
    refine parseJson_answerText peer localIp _ ?_
    rintro p ⟨⟩
    exact verbatim_encode _ _

private theorem postReply_answer {http : HttpEnv} {keys : List SecretKey} {connId : Nat}
    {req : RequestHead} {w w' : World RawConn} {r : IpReply}
    (h : postReply http keys connId req w = .ok r w') (hstatus : r.status = "200 OK") :
    ∃ peer told, w.stream.peer = some peer ∧
      Tells http keys (w.wall 0) (w.stream.input.take req.contentLength) peer.ip told ∧
      parseJson r.body = some (.object told) := by
  have hnot : ∀ status ∈ ["400 Bad Request".toList,"403 Forbidden".toList,"411 Length Required".toList,
      "413 Content Too Large".toList,"415 Unsupported Media Type".toList], status ≠ "200 OK" := by decide
  unfold postReply at h
  split at h
  · cases h
    exact absurd hstatus (hnot _ (by simp))
  split at h
  · obtain ⟨bytes,w₁,hread,h⟩ := bind_eq_ok h
    cases h
    exact absurd hstatus (hnot _ (by simp))
  obtain ⟨body,w₁,hread,h⟩ := bind_eq_ok h
  obtain ⟨conn,hconn,rfl⟩ := onStream_eq_ok hread
  obtain ⟨hbody,hrest⟩ := RawConn.readUpTo_ok hconn
  have hpeer : conn.peer = w.stream.peer := by rw [hrest]
  split at h
  · cases h
  cases hp : conn.peer with
  | none =>
    rw [peerReply_none http keys connId req body hp] at h
    cases h
  | some peer =>
    rw [peerReply_some http keys connId req body hp] at h
    unfold bodyReply at h
    split at h
    · cases h
      exact absurd hstatus (hnot _ (by simp))
    · obtain ⟨now,w₃,hnow,h⟩ := bind_eq_ok h
      cases hnow
      rw [bind_ok (logged_eq _ _)] at h
      cases he : (ipResponse http.env.crypto http.fromSlice body peer.ip keys connId (w.wall 0)).val with
      | ok answer =>
        rw [he] at h
        cases h
        obtain ⟨told,htells,hjson⟩ := ipResponse_tells he
        rw [hbody] at htells
        exact ⟨peer,told,hpeer ▸ hp,htells,hjson⟩
      | error e =>
        rw [he] at h
        cases h
        rcases ipResponse_error he with hs | hs
        · exact absurd hstatus (hnot _ (by simp [hs]))
        · exact absurd hstatus (hnot _ (by simp [hs]))

theorem statusLine_injective {s t : Text} (h : statusLine s = statusLine t) : s = t :=
  List.append_cancel_left (utf8_injective h)

private theorem summary_code {r : IpReply} (hmem : r.status ∈ ipStatuses) :
    "POST /ip -> 200".toList <+: r.summary "POST" ↔ r.status = "200 OK" := by
  have hcode : ∀ status ∈ ipStatuses, (status.take 3).length = 3 ∧
      (status.take 3 = "200".toList ↔ status = "200 OK") := by decide
  have hsplit : "POST /ip -> 200".toList = "POST".toList ++ " /ip -> ".toList ++ "200".toList := by decide
  obtain ⟨hlen,hiff⟩ := hcode r.status hmem
  have hsummary : ∃ note, r.summary "POST" = "POST".toList ++ " /ip -> ".toList ++ (r.status.take 3 ++ note) := by
    unfold IpReply.summary
    cases r.note with
    | none => exact ⟨[],by rw [List.append_nil]⟩
    | some note => exact ⟨" (".toList ++ note ++ ")".toList,by simp only [List.append_assoc]⟩
  obtain ⟨note,hsummary⟩ := hsummary
  rw [hsummary,hsplit,List.prefix_append_right_inj,← hiff]
  constructor
  · rintro ⟨rest,hrest⟩
    exact (List.append_inj_left hrest (by rw [hlen]; rfl)).symm
  · intro h
    rw [h]
    exact List.prefix_append _ _

section
variable {http : HttpEnv} {keys : List SecretKey} {connId : Nat} {head : Text} {addHsts : Bool}
  {w w' : World RawConn} {summary : Text} {req : RequestHead}

private theorem handle_readAnswer (h : handle http keys connId head addHsts w = .ok summary w')
    (hparse : parseHead head = .ok req) (hpost : req.method = "POST") :
    ("POST /ip -> 200".toList <+: summary ∧ ∃ peer told, w.stream.peer = some peer ∧
        Tells http keys (w.wall 0) (w.stream.input.take req.contentLength) peer.ip told ∧
        readAnswer (sent w w') = some told) ∨
      (¬"POST /ip -> 200".toList <+: summary ∧ readAnswer (sent w w') = none) := by
  obtain ⟨r,w₁,fields,bytes,hreply,hmem,hsummary,houtput,hread⟩ := handle_post_read h hparse hpost
  have hsent : sent w w' = bytes := by rw [sent,houtput,List.drop_left]
  rw [hsummary,hpost,summary_code hmem,hsent]
  unfold readAnswer
  rw [hread]
  simp only [Option.bind_eq_bind,Option.bind_some,fromUtf8_utf8]
  by_cases hstatus : r.status = "200 OK"
  · obtain ⟨peer,told,hpeer,htells,hjson⟩ := postReply_answer hreply hstatus
    refine Or.inl ⟨hstatus,peer,told,hpeer,htells,?_⟩
    simp only [hjson,hstatus,and_self,if_true]
  · refine Or.inr ⟨hstatus,?_⟩
    have hline : statusLine r.status ≠ statusLine "200 OK" := mt statusLine_injective hstatus
    split
    · rw [if_neg fun hcond => hline hcond.1]
    · rfl

private theorem member_ip {peer : IpAddr} {localIp : Option IpAddr} {signed : Option (Bool × Text)} :
    member "ip" (answerMembers peer localIp signed) = some (.string (publicText peer)) := rfl

private theorem member_natType {peer : IpAddr} {localIp : Option IpAddr} {signed : Option (Bool × Text)} :
    member "nat_type" (answerMembers peer localIp signed) =
      some (.string (natType localIp peer.toCanonical)) := rfl

/-- A client that posts reads an answer in the bytes it is sent if and only if the log says 200.
It reads there what the server made of its request and its address. -/
theorem handle_answer_read (h : handle http keys connId head addHsts w = .ok summary w')
    (hparse : parseHead head = .ok req) (hpost : req.method = "POST") :
    ((∃ told, readAnswer (sent w w') = some told) ↔ "POST /ip -> 200".toList <+: summary) ∧
    ∀ told, readAnswer (sent w w') = some told → ∃ peer ip, w.stream.peer = some peer ∧
      Tells http keys (w.wall 0) (w.stream.input.take req.contentLength) peer.ip told ∧
      member "ip" told = some (.string ip) ∧ parseIpAddr ip = some peer.ip.toCanonical := by
  rcases handle_readAnswer h hparse hpost with ⟨hlog,peer,told,hpeer,htells,hread⟩ | ⟨hlog,hread⟩
  · refine ⟨iff_of_true ⟨told,hread⟩ hlog,?_⟩
    intro told' hread'
    rw [hread] at hread'
    cases hread'
    have hip : member "ip" told = some (.string (publicText peer.ip)) := by
      obtain ⟨members,localIp,signed,-,-,-,rfl⟩ := htells
      exact member_ip
    exact ⟨peer,_,hpeer,htells,hip,parseIpAddr_toText _⟩
  · rw [hread]
    refine ⟨iff_of_false (fun ⟨told,h⟩ => nomatch h) hlog,?_⟩
    intro told h
    cases h

end

private def postHead (body : Text) : Text :=
  "POST /ip HTTP/1.1\r\nContent-Type: application/json\r\nContent-Length: ".toList ++
    natText (byteLen body) ++ "\r\n\r\n".toList

private def goldenWorld (body : Text) : World RawConn :=
  World.start { goldenConn with input := utf8 body } id fun _ => 1700000090

private def goldenHandle (body : Text) : EStateM.Result Stop (World RawConn) Text :=
  handle goldenHttp [goldenKey] 1 (postHead body) false (goldenWorld body)

private def goldenShows (body : Text) (p : List (Text × Json) → Bool) : Bool :=
  match goldenHandle body with
  | .ok _ w' => (readAnswer (sent (goldenWorld body) w')).any p
  | .error _ _ => false

private theorem goldenShows_run {body : Text} {p : List (Text × Json) → Bool} (h : goldenShows body p = true) :
    ∃ summary w' told, goldenHandle body = .ok summary w' ∧
      readAnswer (sent (goldenWorld body) w') = some told ∧ p told = true := by
  unfold goldenShows at h
  split at h
  · next summary w' hrun =>
    obtain ⟨told,hread,hp⟩ := (Option.any_eq_true _ _).mp h
    exact ⟨summary,w',told,hrun,hread,hp⟩
  · cases h

private def saysIp (ip : Text) (told : List (Text × Json)) : Bool :=
  match member "ip" told with
  | some (.string ip') => ip' = ip
  | _ => false

private theorem member_of_saysIp {ip : Text} {told : List (Text × Json)} (h : saysIp ip told = true) :
    member "ip" told = some (.string ip) := by
  unfold saysIp at h
  split at h
  · next hip => rw [hip,of_decide_eq_true h]
  · cases h

private def saysMatching (told : List (Text × Json)) : Bool :=
  match member "matching_ip" told with
  | some (.bool matching) => matching
  | _ => false

private def goldenTokenBody : Text := goldenText "token" combinedToken

private def goldenLocalBody : Text := goldenText "client_ip_local" "62.1.2.3"

private theorem goldenHead_parsed {body : Text} (hbody : body = goldenTokenBody ∨ body = goldenLocalBody) :
    ∃ req, parseHead (postHead body) = .ok req ∧ req.method = "POST" ∧
      (goldenWorld body).stream.input.take req.contentLength = utf8 body := by
  have hall : ∀ body ∈ [goldenTokenBody,goldenLocalBody], (parseHead (postHead body)).toOption.any (fun req =>
      decide (req.method = "POST".toList) && req.contentLength == byteLen body) = true := by decide +kernel
  have hsome := hall body (by rcases hbody with rfl | rfl <;> simp)
  cases hparse : parseHead (postHead body) with
  | error e =>
    rw [hparse] at hsome
    cases hsome
  | ok req =>
    rw [hparse] at hsome
    have hreq : (decide (req.method = "POST".toList) && req.contentLength == byteLen body) = true := hsome
    simp only [Bool.and_eq_true,decide_eq_true_eq,beq_iff_eq] at hreq
    exact ⟨req,rfl,hreq.1,List.take_of_length_le (by rw [hreq.2]; exact Nat.le_refl _)⟩

private theorem goldenHttp_fromSlice : goldenHttp.fromSlice = goldenParser := rfl

theorem handle_answer_read_golden : ∃ summary w' told, goldenHandle goldenTokenBody = .ok summary w' ∧
    readAnswer (sent (goldenWorld goldenTokenBody) w') = some told ∧
    (∃ ip, member "ip" told = some (.string ip) ∧ parseIpAddr ip = some goldenIp) ∧
    ∃ k uuid, Authorises goldenCrypto [goldenKey] 1700000090 combinedToken k uuid ∧
      IssuedFor goldenCrypto combinedToken k goldenIp ∧
      member "signature" told = some (.string (signatureText goldenCrypto k goldenIp uuid)) := by
  have hshows : goldenShows goldenTokenBody saysMatching = true := by decide +kernel
  obtain ⟨summary,w',told,hrun,hread,hmatching⟩ := goldenShows_run hshows
  obtain ⟨req,hparse,hpost,hbody⟩ := goldenHead_parsed (Or.inl rfl)
  obtain ⟨peer,ip,hpeer,htells,hip,haddr⟩ := (handle_answer_read hrun hparse hpost).2 told hread
  cases hpeer
  obtain ⟨members,localIp,signed,hmembers,-,hsigned,rfl⟩ := htells
  rw [hbody,goldenTokenBody,goldenHttp_fromSlice,goldenParser_text (by decide) (by decide +kernel)] at hmembers
  cases hmembers
  refine ⟨summary,w',_,hrun,hread,⟨ip,hip,haddr⟩,?_⟩
  cases hsigned with
  | unsigned => cases hmatching
  | signed htoken _ hauth hiff =>
    cases htoken
    exact ⟨_,_,hauth,hiff.mp hmatching,rfl⟩

private theorem localAddr_publicText {members : List (Text × Json)} {peer : IpAddr}
    (h : member "client_ip_local" members = some (.string (publicText peer))) :
    localAddr members = .ok (some peer.toCanonical) := by
  have hparse : parseIpAddr (publicText peer) = some peer.toCanonical := parseIpAddr_toText _
  have hblank : trim (publicText peer) ≠ [] := by
    intro hnil
    rw [parseIpAddr_blank (trim_eq_nil.mp hnil)] at hparse
    cases hparse
  have htext : localText members = .ok (some (publicText peer)) := by
    rw [localText,h]
    exact congrArg Except.ok (if_neg hblank)
  rw [localAddr,htext]
  simp only [hparse,IpAddr.toCanonical_toCanonical]

/-- A client that posts back the address it was told learns whether it still has that address: the
second answer says that there is no NAT if and only if both requests came from one address. -/
theorem handle_told_address {http : HttpEnv} {keys : List SecretKey} {connId connId' : Nat}
    {head head' : Text} {addHsts : Bool} {w₁ w₁' w₂ w₂' : World RawConn} {summary summary' : Text}
    {req req' : RequestHead} {told told' : List (Text × Json)}
    (h₁ : handle http keys connId head addHsts w₁ = .ok summary w₁')
    (hreq : parseHead head = .ok req ∧ req.method = "POST")
    (hread₁ : readAnswer (sent w₁ w₁') = some told)
    (h₂ : handle http keys connId' head' addHsts w₂ = .ok summary' w₂')
    (hreq' : parseHead head' = .ok req' ∧ req'.method = "POST")
    (hread₂ : readAnswer (sent w₂ w₂') = some told')
    (hback : ∀ members, http.fromSlice (w₂.stream.input.take req'.contentLength) = .ok (.object members) →
      member "client_ip_local" members = member "ip" told) :
    ∃ peer peer', w₁.stream.peer = some peer ∧ w₂.stream.peer = some peer' ∧
      (member "nat_type" told' = some (.string (NatClass.noNat.text peer'.ip.toCanonical.isIpv4)) ↔
        peer'.ip.toCanonical = peer.ip.toCanonical) := by
  have htells {connId head w w' summary req told}
      (h : handle http keys connId head addHsts w = .ok summary w')
      (hreq : parseHead head = .ok req ∧ req.method = "POST") (hread : readAnswer (sent w w') = some told) :
      ∃ peer, w.stream.peer = some peer ∧
        Tells http keys (w.wall 0) (w.stream.input.take req.contentLength) peer.ip told := by
    rcases handle_readAnswer h hreq.1 hreq.2 with ⟨-,peer,told',hpeer,htells,hread'⟩ | ⟨-,hread'⟩
    · rw [hread] at hread'
      cases hread'
      exact ⟨peer,hpeer,htells⟩
    · rw [hread] at hread'
      cases hread'
  obtain ⟨peer,hpeer,members,localIp,signed,-,-,-,rfl⟩ := htells h₁ hreq hread₁
  obtain ⟨peer',hpeer',members',localIp',signed',hparse',hlocal',-,rfl⟩ := htells h₂ hreq' hread₂
  refine ⟨peer,peer',hpeer,hpeer',?_⟩
  rw [localAddr_publicText ((hback members' hparse').trans member_ip)] at hlocal'
  cases hlocal'
  rw [member_natType,Option.some_inj,Json.string.injEq,natType_noNat,Option.some_inj]
  exact eq_comm

theorem handle_told_address_golden : ∃ summary w' told,
    goldenHandle goldenLocalBody = .ok summary w' ∧
      readAnswer (sent (goldenWorld goldenLocalBody) w') = some told ∧
      member "nat_type" told = some (.string "no_nat_ipv4") := by
  have hshows : goldenShows goldenTokenBody (saysIp "62.1.2.3") = true := by decide +kernel
  have hshows' : goldenShows goldenLocalBody (saysIp "62.1.2.3") = true := by decide +kernel
  obtain ⟨summary,w',told,hrun,hread,hip⟩ := goldenShows_run hshows
  obtain ⟨summary',w'',told',hrun',hread',-⟩ := goldenShows_run hshows'
  obtain ⟨req,hparse,hpost,-⟩ := goldenHead_parsed (Or.inl rfl)
  obtain ⟨req',hparse',hpost',hbody⟩ := goldenHead_parsed (Or.inr rfl)
  refine ⟨summary',w'',told',hrun',hread',?_⟩
  have hback : ∀ members, goldenHttp.fromSlice ((goldenWorld goldenLocalBody).stream.input.take
      req'.contentLength) = .ok (.object members) → member "client_ip_local" members = member "ip" told := by
    intro members hmembers
    rw [hbody,goldenLocalBody,goldenHttp_fromSlice,goldenParser_text (by decide) (by decide)] at hmembers
    cases hmembers
    exact (member_of_saysIp hip).symm
  obtain ⟨peer,peer',hpeer,hpeer',hiff⟩ := handle_told_address hrun ⟨hparse,hpost⟩ hread hrun'
    ⟨hparse',hpost'⟩ hread' hback
  cases hpeer
  cases hpeer'
  exact hiff.mpr rfl

end Rmbtd
