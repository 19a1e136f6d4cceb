import Rmbtd.IpCheck.ResponseSplitting
import Rmbtd.Protocol.LogRules

/-!
# Log lines

Whether what a client sends can break a log record into lines. The texts of the server's own are
the labels of its keys and the messages of errors that come from the operating system and from the
TLS and WebSocket libraries.
-/

namespace Rmbtd

open Effect Session HttpTransport

variable {own : Text → Prop}

/-! ## The request -/

def requestMethod (req : Text) : Text := ((splitAll "\r\n" req).headD []).takeWhile (· ≠ ' ')

/-- The next two writes reach the client. -/
def RawConn.Accepts (conn : RawConn) : Prop := ∀ fault ∈ conn.faults.take 2, fault = none

/-- The request posts JSON with a token. -/
structure PostsToken (http : HttpEnv) (head : RequestHead) (conn : RawConn) (token : Text) : Prop where
  method : head.method = "POST"
  chunked : head.chunked = false
  small : head.contentLength ≤ maxBody
  whole : head.contentLength ≤ conn.input.length
  peer : conn.peer ≠ none
  json : isJson head.contentType = true
  token : requestToken http.fromSlice (conn.input.take head.contentLength) = some token

/-- The client text an answer to a request puts into the log as it is. `conn` is the connection
after the request head. -/
inductive RequestShown (http : HttpEnv) (keys : List SecretKey) (connId : Nat) (req : Text)
    (conn : RawConn) : Text → Prop
  | ipMethod {head : RequestHead} : ipCheckMatches (requestTarget req) = true →
      parseHead req = .ok head → conn.Accepts →
      RequestShown http keys connId req conn (requestMethod req)
  | ipUuid {head : RequestHead} {token : Text} : ipCheckMatches (requestTarget req) = true →
      parseHead req = .ok head → PostsToken http head conn token →
      (matchV1 http.env.crypto (splitIpToken token).1 keys connId).val = .error .invalidHmac →
      RequestShown http keys connId req conn (uuidOf (splitIpToken token).1)
  | versionMethod : ipCheckMatches (requestTarget req) = false →
      versionMatches (requestTarget req) = true → conn.Accepts →
      RequestShown http keys connId req conn (requestMethod req)

theorem RawConn.accepts_iff {conn : RawConn} (data : Bytes) : conn.Accepts ↔
    ∃ conn' conn'', RawConn.writeAll data conn = .ok () conn' ∧ RawConn.flush conn' = .ok () conn'' := by
  obtain ⟨input,inputEnd,output,faults,peer⟩ := conn
  match faults with
  | [] => simp [Accepts,RawConn.writeAll,RawConn.flush]
  | some fault::faults => simp [Accepts,RawConn.writeAll]
  | [none] => simp [Accepts,RawConn.writeAll,RawConn.flush]
  | none::none::faults => simp [Accepts,RawConn.writeAll,RawConn.flush]
  | none::some fault::faults => simp [Accepts,RawConn.writeAll,RawConn.flush]

private theorem addLine_ok {r r' : RequestHead} {line : Text} (h : r.addLine line = .ok r') :
    r'.method = r.method := by
  unfold RequestHead.addLine at h
  dsimp only at h
  repeat' split at h
  all_goals cases h
  all_goals rfl

private theorem addLine_error {r : RequestHead} {line : Text} {e : IoError}
    (h : r.addLine line = .error e) : e = badContentLength := by
  unfold RequestHead.addLine at h
  dsimp only at h
  repeat' split at h
  all_goals cases h
  all_goals rfl

private theorem headerLoop (lines : List Text) (r : RequestHead) :
    match lines.foldlM RequestHead.addLine r with
    | .ok r' => r'.method = r.method
    | .error e => e = badContentLength := by
  induction lines generalizing r with
  | nil => rfl
  | cons line lines ih =>
    rw [List.foldlM_cons]
    cases hline : r.addLine line with
    | error e => exact addLine_error hline
    | ok r' =>
      have h := ih r'
      change match lines.foldlM RequestHead.addLine r' with
        | .ok r'' => r''.method = r.method
        | .error e => e = badContentLength
      rw [addLine_ok hline] at h
      exact h

theorem parseHead_method {req : Text} {head : RequestHead} (h : parseHead req = .ok head) :
    head.method = requestMethod req := by
  have hloop := headerLoop (splitAll "\r\n" req).tail ⟨requestMethod req,0,[],false,false,[]⟩
  unfold parseHead at h
  dsimp only at h
  unfold requestMethod at hloop ⊢
  rw [h] at hloop
  exact hloop

theorem parseHead_error {req : Text} {e : IoError} (h : parseHead req = .error e) :
    e = badContentLength := by
  have hloop := headerLoop (splitAll "\r\n" req).tail ⟨requestMethod req,0,[],false,false,[]⟩
  unfold parseHead at h
  dsimp only at h
  unfold requestMethod at hloop
  rw [h] at hloop
  exact hloop

/-! ## The HTTP phase -/

def Upgrade.Tidy (own : Text → Prop) : Upgrade → Prop
  | .ipCheck summary => OneLine own summary
  | .version summary => OneLine own summary
  | _ => True

namespace RawConn

theorem sound_readHead (room : Nat) (buf : Bytes) :
    Sound errors own (Rmbtd.readHead room buf : EStateM IoError RawConn Bytes) := by
  induction room generalizing buf with
  | zero =>
    rw [Rmbtd.readHead]
    apply (sound_readExact 1).bind
    intro bytes
    dsimp only
    split
    · exact fun _ hs => hs
    · exact fun _ hs => ⟨.of_unbroken (by simp [requestTooLarge]),hs⟩
  | succ room ih =>
    rw [Rmbtd.readHead]
    apply (sound_readExact 1).bind
    intro bytes
    dsimp only
    split
    · exact fun _ hs => hs
    · exact ih _

end RawConn

namespace Tidies

section
variable {http : HttpEnv} {keys : List SecretKey} {connId : Nat} {req : Text} {addHsts : Bool}
  {head : RequestHead} {w : World RawConn}

/-- The parts of a reply that are logged. -/
def Replies (own : Text → Prop) (reply : IpReply) : Prop :=
  Unbroken reply.status ∧ ∀ note, reply.note = some note → OneLine own note

variable (hkeys : ∀ key ∈ keys, own key.label)
include hkeys

private theorem answer_gives {body : Bytes} {ip : IpAddr} {now : Int64}
    (h : ∀ token, requestToken http.fromSlice body = some token →
      (matchV1 http.env.crypto (splitIpToken token).1 keys connId).val = .error .invalidHmac →
        Unbroken (uuidOf (splitIpToken token).1)) :
    (ipResponse http.env.crypto http.fromSlice body ip keys connId now).Gives own fun r => match r with
      | .ok answer => OneLine own answer.note
      | .error e => Unbroken e.status := by
  have hgives : (ipResponse http.env.crypto http.fromSlice body ip keys connId now).Gives own
      fun r => ∀ answer, r = .ok answer → OneLine own answer.note := ipResponse_gives hkeys h
  refine ⟨?_,hgives.records⟩
  cases hval : (ipResponse http.env.crypto http.fromSlice body ip keys connId now).val with
  | ok answer => exact hgives.val answer hval
  | error e =>
    have hstatus : Unbroken e.status := by
      rcases ipResponse_error hval with hs | hs
      · rw [hs]
        decide
      · rw [hs]
        decide
    exact hstatus

private theorem bodyReply {body : Bytes} {peer : SocketAddr}
    (h : isJson head.contentType = true → ∀ token, requestToken http.fromSlice body = some token →
      (matchV1 http.env.crypto (splitIpToken token).1 keys connId).val = .error .invalidHmac →
        Unbroken (uuidOf (splitIpToken token).1)) :
    Tidies RawConn.errors own (Replies own) (HttpTransport.bodyReply http keys connId head body peer) w := by
  unfold HttpTransport.bodyReply
  split
  · exact pure ⟨by simp,by simp⟩
  · next hjson =>
    have hnow : Tidies RawConn.errors own (fun _ => True) nowSecs w := silent rfl rfl rfl trivial
    apply hnow.bind
    intro now w' _ _
    apply (logged (answer_gives hkeys (h (by simpa using hjson)))).bind
    intro r _ hr _
    cases r with
    | error e => exact pure ⟨hr,by simp⟩
    | ok answer =>
      apply pure
      refine ⟨by simp,?_⟩
      intro note hnote
      cases hnote
      exact hr

private theorem postReply (hmethod : head.method = "POST")
    (h : ∀ token, PostsToken http head w.stream token →
      (matchV1 http.env.crypto (splitIpToken token).1 keys connId).val = .error .invalidHmac →
        Unbroken (uuidOf (splitIpToken token).1)) :
    Tidies RawConn.errors own (Replies own) (HttpTransport.postReply http keys connId head) w := by
  unfold HttpTransport.postReply
  split
  · exact pure ⟨by simp,by simp⟩
  next hchunked =>
  split
  · apply (onStream (RawConn.sound_readUpTo _)).bind
    intro _ _ _ _
    exact pure ⟨by simp,by simp⟩
  next hsmall =>
  apply (onStream (RawConn.sound_readUpTo _)).bind
  intro body w' _ hbody
  obtain ⟨conn,hread,rfl⟩ := onStream_eq_ok hbody
  obtain ⟨rfl,rfl⟩ := RawConn.readUpTo_ok hread
  split
  · exact throwIo (by simp [truncatedBody])
  next hwhole =>
  apply (silent rfl rfl rfl trivial : Tidies RawConn.errors own (fun _ => True) get _).bind
  rintro _ _ _ hsame
  cases hsame
  dsimp only
  split
  · exact throwIo (by simp [noPeerAddress])
  next peer hpeer =>
  apply bodyReply hkeys
  intro hjson token htoken
  apply h token
  have hlen : head.contentLength ≤ w.stream.input.length := by
    rw [List.length_take] at hwhole
    omega
  have hknown : w.stream.peer ≠ none := fun hnone => Option.some_ne_none peer (hpeer.symm.trans hnone)
  exact ⟨hmethod,by simpa using hchunked,Nat.le_of_not_lt hsmall,hlen,hknown,hjson,htoken⟩

omit hkeys in
private theorem send {reply : IpReply} (hreply : Replies own reply)
    (hmethod : w.stream.Accepts → Unbroken head.method) :
    Tidies RawConn.errors own (OneLine own) (HttpTransport.send head reply addHsts) w := by
  apply (onStream (RawConn.sound_writeAll _)).bind
  intro _ w₁ _ hwrite
  apply (onStream RawConn.sound_flush).bind
  intro _ w₂ _ hflush
  obtain ⟨conn₁,hwritten,rfl⟩ := onStream_eq_ok hwrite
  obtain ⟨conn₂,hflushed,rfl⟩ := onStream_eq_ok hflush
  have hmethod := hmethod ((RawConn.accepts_iff _).mpr ⟨conn₁,conn₂,hwritten,hflushed⟩)
  have hcode : Unbroken (reply.status.take 3) :=
    hreply.1.of_mem fun _ => List.mem_of_mem_take
  apply pure
  unfold IpReply.summary
  cases hnote : reply.note with
  | none => exact .of_unbroken (by simp [hmethod,hcode])
  | some note =>
    apply ((OneLine.of_unbroken _).append (hreply.2 note hnote)).append (.of_unbroken (by decide))
    simp [hmethod,hcode]

private theorem ipHandle (hip : ipCheckMatches (requestTarget req) = true)
    (h : ∀ t, RequestShown http keys connId req w.stream t → Unbroken t) :
    Tidies RawConn.errors own (OneLine own) (HttpTransport.handle http keys connId req addHsts) w := by
  unfold HttpTransport.handle
  cases hparse : parseHead req with
  | error e =>
    apply bind (V := fun _ => True) (throwIo _) fun _ _ _ hok => by cases hok
    rw [parseHead_error hparse]
    simp [badContentLength]
  | ok head =>
    have hmethod : w.stream.Accepts → Unbroken head.method := by
      intro haccepts
      rw [parseHead_method hparse]
      exact h _ (.ipMethod hip hparse haccepts)
    apply bind (V := (head = ·)) (pure rfl)
    rintro _ _ rfl hsame
    cases hsame
    unfold HttpTransport.ipReply
    split
    · next hoptions =>
      have hreply : Replies own (optionsReply head) := ⟨by simp [optionsReply],nofun⟩
      exact bind (V := Replies own) (pure hreply) fun _ _ hr hsame => by
        cases hsame
        exact send hr hmethod
    split
    · next hpost =>
      apply (postReply hkeys hpost fun token htoken hmatch => h _ (.ipUuid hip hparse htoken hmatch)).bind
      intro reply _ hreply _
      apply send hreply
      intro _
      rw [hpost]
      decide
    · exact bind (V := Replies own) (pure ⟨by simp,nofun⟩) fun _ _ hr hsame => by
        cases hsame
        exact send hr hmethod

omit hkeys in
private theorem versionHandle (hmethod : w.stream.Accepts → Unbroken (requestMethod req)) :
    Tidies RawConn.errors own (OneLine own) (Version.handle http req addHsts) w := by
  have hstatus : Unbroken (Version.reply http (requestMethod req)).1 := by
    unfold Version.reply
    split
    · simp
    · simp
  have hcode : Unbroken ((Version.reply http (requestMethod req)).1.take 3) :=
    hstatus.of_mem fun _ => List.mem_of_mem_take
  apply (onStream (RawConn.sound_writeAll _)).bind
  intro _ w₁ _ hwrite
  apply (onStream RawConn.sound_flush).bind
  intro _ w₂ _ hflush
  obtain ⟨conn₁,hwritten,rfl⟩ := onStream_eq_ok hwrite
  obtain ⟨conn₂,hflushed,rfl⟩ := onStream_eq_ok hflush
  have hmethod := hmethod ((RawConn.accepts_iff _).mpr ⟨conn₁,conn₂,hwritten,hflushed⟩)
  have hsummary : Unbroken (requestMethod req ++ " /version -> ".toList ++
      (Version.reply http (requestMethod req)).1.take 3) := by simp [hmethod,hcode]
  exact pure (.of_unbroken hsummary)

omit hkeys in
private theorem ignored {m : EStateM IoError RawConn Unit} (hm : Sound RawConn.errors own m) :
    Tidies RawConn.errors own (fun _ => True) (Rmbtd.ignored m) w := by
  intro hw
  have h := hm w.stream hw.owned
  refine ⟨trivial,?_,hw.records⟩
  cases hms : m w.stream with
  | ok a s =>
    rw [hms] at h
    exact h
  | error e s =>
    rw [hms] at h
    exact h.2

omit hkeys in
private theorem refuse {text : Text} {response : Bytes} {e : IoError} (he : Unbroken e.message) :
    Tidies RawConn.errors own (Upgrade.Tidy own) (do
      Session.log .debug text
      Rmbtd.ignored (HttpTransport.writeAll response)
      Rmbtd.ignored HttpTransport.flush
      MonadExcept.throw (.io e)) w := by
  apply bind debug
  intro _ _ _ _
  apply (ignored (RawConn.sound_writeAll response)).bind
  intro _ _ _ _
  apply (ignored RawConn.sound_flush).bind
  intro _ _ _ _
  exact throwIo he

omit hkeys in
private theorem handshake (request : Text) :
    Tidies RawConn.errors own (Upgrade.Tidy own) (webSocketHandshake http request addHsts) w := by
  unfold webSocketHandshake
  split
  · exact throwIo (by simp [missingKey])
  · apply (onStream (RawConn.sound_writeAll _)).bind
    intro _ _ _ _
    apply (onStream RawConn.sound_flush).bind
    intro _ _ _ _
    exact pure trivial

theorem answer (h : ∀ t, RequestShown http keys connId req w.stream t → Unbroken t) :
    Tidies RawConn.errors own (Upgrade.Tidy own) (Rmbtd.answer http keys connId req addHsts) w := by
  unfold Rmbtd.answer
  split
  · next hip => exact (ipHandle hkeys hip h).bind fun summary _ hsummary _ => pure hsummary
  next hip =>
  split
  · next hversion =>
    have hmethod : w.stream.Accepts → Unbroken (requestMethod req) :=
      fun haccepts => h _ (.versionMethod (by simpa using hip) hversion haccepts)
    exact (versionHandle hmethod).bind fun summary _ hsummary _ => pure hsummary
  split
  · exact refuse (by simp [expectedGet])
  dsimp only
  split
  · exact handshake req
  split
  · exact (onStream (RawConn.sound_writeAll _)).bind fun _ _ _ _ => pure trivial
  · exact refuse (by simp [noUpgradeHeader])

theorem detectAndUpgrade (h : ∀ buf conn, readHead maxHead [] w.stream = .ok buf conn →
      ∀ t, RequestShown http keys connId (fromUtf8Lossy buf) conn t → Unbroken t) :
    Tidies RawConn.errors own (Upgrade.Tidy own)
      (Rmbtd.detectAndUpgrade http keys connId addHsts) w := by
  apply (onStream (RawConn.sound_readHead maxHead [])).bind
  intro buf w' _ hread
  obtain ⟨conn,hhead,rfl⟩ := onStream_eq_ok hread
  exact answer hkeys (h buf conn hhead)

end

end Tidies

/-! ## The token line -/

inductive FirstLine : Stream → Text → Prop
  | here {stream next : Stream} {line : Text} : LineStream.readLine stream = .ok line next →
      trim line ≠ [] → FirstLine stream line
  | skip {stream next : Stream} {blank line : Text} : LineStream.readLine stream = .ok blank next →
      trim blank = [] → FirstLine next line → FirstLine stream line

/-- The client takes the greeting and answers it with a token. -/
def SendsToken (env : Env) (stream : Stream) (token : Text) : Prop :=
  ∃ greeted prompted line rest,
    LineStream.writeAll (utf8 (greetingLine env.version)) stream = .ok () greeted ∧
    LineStream.writeAll (utf8 acceptTokenLine) greeted = .ok () prompted ∧
    FirstLine prompted line ∧ stripPrefix "TOKEN " line = some rest ∧ token = trim rest

private def SameClient (w₀ w : World Stream) : Prop :=
  w.stream.sourceIp = w₀.stream.sourceIp ∧ w.wall = w₀.wall

section
variable {env : Env} {connId : Nat} {w w' : World Stream}

private theorem SameClient.trans {w₀ : World Stream} (h : SameClient w₀ w) (h' : SameClient w w') :
    SameClient w₀ w' := ⟨h'.1.trans h.1,h'.2.trans h.2⟩

private theorem sourceIp_final {α : Type} {m : EStateM IoError Stream α} {a : α} {s s' : Stream}
    (hkeeps : ∀ addr, Keeps (fun s : Stream => LineStream.peerAddr s = addr) m)
    (h : m s = .ok a s') : s'.sourceIp = s.sourceIp := by
  have hfinal := (hkeeps _).final (s := s) rfl
  rw [h] at hfinal
  unfold Stream.sourceIp
  rw [show LineStream.peerAddr s' = LineStream.peerAddr s from hfinal]

private theorem writeLine_eq_ok {line : Text} (h : writeLine line w = .ok () w') :
    LineStream.writeAll (utf8 line) w.stream = .ok () w'.stream ∧ SameClient w w' := by
  obtain ⟨s,hs,rfl⟩ := onStream_eq_ok (w := { w with trace := w.trace ++ [.sentLine line] }) h
  exact ⟨hs,sourceIp_final (fun addr => Stream.keeps_peerAddr_writeAll addr _) hs,rfl⟩

private theorem readLine_eq_ok {line : Text} (h : Session.readLine w = .ok line w') :
    LineStream.readLine w.stream = .ok line w'.stream ∧ SameClient w w' := by
  obtain ⟨text,w₁,hread,h⟩ := bind_eq_ok h
  obtain ⟨s,hs,rfl⟩ := onStream_eq_ok hread
  cases h
  exact ⟨hs,sourceIp_final Stream.keeps_peerAddr_readLine hs,rfl⟩

private theorem readToken_eq_ok {fuel : Nat} {line : Text} (h : readToken fuel w = .ok line w') :
    FirstLine w.stream line ∧ SameClient w w' := by
  induction fuel generalizing w with
  | zero => cases h
  | succ fuel ih =>
    obtain ⟨text,w₁,hread,h⟩ := bind_eq_ok h
    obtain ⟨hs,hsame⟩ := readLine_eq_ok hread
    split at h
    · next hblank =>
      obtain ⟨hfirst,hsame'⟩ := ih h
      exact ⟨.skip hs hblank hfirst,hsame.trans hsame'⟩
    · next hblank =>
      cases h
      exact ⟨.here hs hblank,hsame⟩

private theorem readToken_of_firstLine {stream : Stream} {line : Text} (h : FirstLine stream line) :
    ∃ fuel, ∀ w : World Stream, w.stream = stream → ∃ w', readToken fuel w = .ok line w' := by
  induction h with
  | here hread hblank =>
    refine ⟨1,?_⟩
    rintro w rfl
    rw [readToken,bind_ok (readLine_ok hread),if_neg hblank]
    exact ⟨_,rfl⟩
  | skip hread hblank _ ih =>
    obtain ⟨fuel,ih⟩ := ih
    refine ⟨fuel+1,?_⟩
    rintro w rfl
    rw [readToken,bind_ok (readLine_ok hread),if_pos hblank]
    exact ih _ rfl

private theorem tokenValue_eq_ok {line token : Text} (h : tokenValue connId line w = .ok token w') :
    (∃ rest, stripPrefix "TOKEN " line = some rest ∧ token = trim rest) ∧ w' = w := by
  cases hrest : stripPrefix "TOKEN " line with
  | some rest =>
    rw [tokenValue,hrest] at h
    cases h
    exact ⟨⟨rest,rfl,rfl⟩,rfl⟩
  | none =>
    rw [tokenValue,hrest] at h
    dsimp only at h
    split at h
    · obtain ⟨_,_,_,h⟩ := bind_eq_ok h
      cases h
    · obtain ⟨_,_,_,h⟩ := bind_eq_ok h
      obtain ⟨_,_,_,h⟩ := bind_eq_ok h
      cases h

theorem receiveToken_eq_ok {fuel : Nat} {token : Text}
    (h : receiveToken env connId fuel w = .ok token w') :
    SendsToken env w.stream token ∧ SameClient w w' := by
  obtain ⟨_,w₁,hgreeting,h⟩ := bind_eq_ok h
  obtain ⟨_,w₂,hprompt,h⟩ := bind_eq_ok h
  obtain ⟨line,w₃,hline,h⟩ := bind_eq_ok h
  obtain ⟨hwrite₁,hsame₁⟩ := writeLine_eq_ok hgreeting
  obtain ⟨hwrite₂,hsame₂⟩ := writeLine_eq_ok hprompt
  obtain ⟨hfirst,hsame₃⟩ := readToken_eq_ok hline
  obtain ⟨⟨rest,hrest,rfl⟩,rfl⟩ := tokenValue_eq_ok h
  exact ⟨⟨_,_,line,rest,hwrite₁,hwrite₂,hfirst,hrest,rfl⟩,(hsame₁.trans hsame₂).trans hsame₃⟩

theorem receiveToken_of_sends {stream : Stream} {token : Text} (h : SendsToken env stream token) :
    ∃ fuel, ∀ w : World Stream, w.stream = stream →
      ∃ w', receiveToken env connId fuel w = .ok token w' := by
  obtain ⟨greeted,prompted,line,rest,hwrite₁,hwrite₂,hfirst,hrest,rfl⟩ := h
  obtain ⟨fuel,hfuel⟩ := readToken_of_firstLine hfirst
  refine ⟨fuel,?_⟩
  rintro w rfl
  rw [receiveToken,bind_ok (writeLine_ok hwrite₁),bind_ok (writeLine_ok hwrite₂)]
  obtain ⟨w',hw'⟩ := hfuel { w with
    stream := prompted
    trace := w.trace ++ [.sentLine (greetingLine env.version)] ++ [.sentLine acceptTokenLine] } rfl
  rw [bind_ok hw',tokenValue,hrest]
  exact ⟨w',rfl⟩

end

/-! ## What is shown -/

/-- The transport can be made. -/
def Setup.Opens (setup : Setup) (isTls : Bool) : Prop :=
  setup.timeoutError = none ∧ (isTls = true → setup.tls = some none)

/-- The request upgrades the connection to the stream. -/
def Upgrades (http : HttpEnv) (keys : List SecretKey) (connId : Nat) (req : Text) (addHsts : Bool)
    (conn : RawConn) (stream : Stream) : Prop :=
  ∃ upgrade w w', w.stream = conn ∧ answer http keys connId req addHsts w = .ok upgrade w' ∧
    (upgrade = .raw ∨ upgrade = .webSocket) ∧ stream = upgrade.stream http w'.stream

section
variable (http : HttpEnv) (setup : Setup) (connId : Nat) (config : Config) (keys : List SecretKey)
  (isTls : Bool) (conn : RawConn) (wall : Nat → Int64)

/-- The client text that goes into a record as it is. -/
inductive Exposed : Text → Prop
  | request {buf : Bytes} {next : RawConn} {t : Text} : setup.Opens isTls →
      readHead maxHead [] conn = .ok buf next →
      RequestShown http keys connId (fromUtf8Lossy buf) next t → Exposed t
  | uuid {buf : Bytes} {next : RawConn} {stream : Stream} {token : Text} : setup.Opens isTls →
      readHead maxHead [] conn = .ok buf next →
      Upgrades http keys connId (fromUtf8Lossy buf) (isTls && config.hsts) next stream →
      SendsToken http.env stream token →
      ShowsUuid http.env.crypto connId config keys stream.sourceIp ⟨wall 0,wall 1⟩ token →
      Exposed (uuidOf token)

/-- The labels of the keys and the messages of errors from outside. -/
inductive ServerText : Text → Prop
  | label {key : SecretKey} : key ∈ keys → ServerText key.label
  | timeout {e : IoError} : setup.timeoutError = some e → ServerText e.message
  | tls {e : IoError} : setup.tls = some (some e) → ServerText e.message
  | transport {e : IoError} : e ∈ conn.errors → ServerText e.message
  | webSocket {next : RawConn} {e : IoError} : e ∈ (http.fromRawSocket next).errors →
      ServerText e.message

end

/-! ## Upgraded connections -/

private def OnlyStream {σ α : Type} (m : Session σ α) : Prop :=
  ∀ w w' a, m w = .ok a w' → ∀ v : World σ, v.stream = w.stream → m v = .ok a { v with stream := w'.stream }

private theorem OnlyStream.onStream {σ α : Type} (m : EStateM IoError σ α) :
    OnlyStream (Session.onStream m) := by
  intro w w' a h v hv
  obtain ⟨s,hs,rfl⟩ := onStream_eq_ok h
  rw [← hv] at hs
  exact onStream_ok hs

private theorem OnlyStream.bind {σ α β : Type} {m : Session σ α} {f : α → Session σ β}
    (hm : OnlyStream m) (hf : ∀ a, OnlyStream (f a)) : OnlyStream (m >>= f) := by
  intro w w'' b h v hv
  obtain ⟨a,w',hmw,hfw⟩ := bind_eq_ok h
  rw [bind_ok (hm w w' a hmw v hv)]
  exact hf a w' w'' b hfw _ rfl

section
variable {http : HttpEnv} {keys : List SecretKey} {connId : Nat} {req : Text} {addHsts : Bool}

theorem answer_upgrade {upgrade : Upgrade} {w w' : World RawConn}
    (h : answer http keys connId req addHsts w = .ok upgrade w')
    (hup : upgrade = .raw ∨ upgrade = .webSocket) {v : World RawConn} (hv : v.stream = w.stream) :
    answer http keys connId req addHsts v = .ok upgrade { v with stream := w'.stream } := by
  have hpure (upgrade : Upgrade) : OnlyStream (pure upgrade : Session RawConn Upgrade) := by
    intro w w' a h v hv
    cases h
    rw [← hv]
    rfl
  unfold answer at h ⊢
  split at h
  · obtain ⟨_,_,_,h⟩ := bind_eq_ok h
    cases h
    rcases hup with hup | hup
    · cases hup
    · cases hup
  next hip =>
  rw [if_neg hip]
  split at h
  · obtain ⟨_,_,_,h⟩ := bind_eq_ok h
    cases h
    rcases hup with hup | hup
    · cases hup
    · cases hup
  next hversion =>
  rw [if_neg hversion]
  split at h
  · obtain ⟨_,_,_,h⟩ := bind_eq_ok h
    obtain ⟨_,_,_,h⟩ := bind_eq_ok h
    obtain ⟨_,_,_,h⟩ := bind_eq_ok h
    cases h
  next hget =>
  rw [if_neg hget]
  dsimp only at h ⊢
  split at h
  · next hws =>
    rw [if_pos hws]
    unfold webSocketHandshake at h ⊢
    cases hkey : webSocketKey req with
    | none =>
      rw [hkey] at h
      cases h
    | some key =>
      rw [hkey] at h
      have honly (data : Bytes) := (OnlyStream.onStream (σ := RawConn) (writeAll data)).bind fun _ =>
        (OnlyStream.onStream flush).bind fun _ => hpure .webSocket
      exact honly _ _ _ _ h v hv
  next hws =>
  rw [if_neg hws]
  split at h
  · next hraw =>
    rw [if_pos hraw]
    have honly (data : Bytes) :=
      (OnlyStream.onStream (σ := RawConn) (writeAll data)).bind fun _ => hpure .raw
    exact honly _ _ _ _ h v hv
  · obtain ⟨_,_,_,h⟩ := bind_eq_ok h
    obtain ⟨_,_,_,h⟩ := bind_eq_ok h
    obtain ⟨_,_,_,h⟩ := bind_eq_ok h
    cases h

theorem attempt_eq_ok {α : Type} {m : Session Stream α} {a : α} {w w' : World Stream}
    (h : attempt m w = .ok (.ok a) w') : m w = .ok a w' := by
  unfold attempt at h
  cases hm : m w with
  | ok b w₁ =>
    rw [hm] at h
    cases h
    rfl
  | error stop w₁ =>
    rw [hm] at h
    cases stop with
    | io e => cases h
    | panic => cases h
    | outOfFuel => cases h

theorem onTransport_eq_ok {m : Session RawConn Upgrade} {upgrade : Upgrade} {conn : RawConn}
    {w w' : World Stream} (hw : w.stream = .raw conn) (h : onTransport http m w = .ok upgrade w') :
    ∃ v, m { w with stream := conn } = .ok upgrade v ∧
      w' = { v with stream := upgrade.stream http v.stream } := by
  unfold onTransport at h
  rw [hw] at h
  dsimp only at h
  cases hm : m { w with stream := conn } with
  | ok a v =>
    rw [hm] at h
    cases h
    exact ⟨v,rfl,rfl⟩
  | error stop v =>
    rw [hm] at h
    cases h

theorem upgraded {upgrade : Upgrade} {conn : RawConn} {w w' : World Stream}
    (hw : w.stream = .raw conn) (hup : upgrade = .raw ∨ upgrade = .webSocket)
    (h : onTransport http (detectAndUpgrade http keys connId addHsts) w = .ok upgrade w') :
    ∃ buf next, readHead maxHead [] conn = .ok buf next ∧
      Upgrades http keys connId (fromUtf8Lossy buf) addHsts next w'.stream ∧ w'.wall = w.wall := by
  obtain ⟨v,hv,rfl⟩ := onTransport_eq_ok hw h
  obtain ⟨buf,w₁,hread,hanswer⟩ := bind_eq_ok hv
  obtain ⟨next,hnext,rfl⟩ := onStream_eq_ok hread
  refine ⟨buf,next,hnext,⟨upgrade,_,v,rfl,hanswer,hup,rfl⟩,?_⟩
  have hself := answer_upgrade hanswer hup rfl
  rw [hanswer] at hself
  have hwall := congrArg World.wall (EStateM.Result.ok.inj hself).2
  exact hwall

theorem Upgrades.run {buf : Bytes} {conn next : RawConn} {stream : Stream}
    (h : Upgrades http keys connId (fromUtf8Lossy buf) addHsts next stream)
    (hread : readHead maxHead [] conn = .ok buf next) :
    ∃ upgrade, (upgrade = .raw ∨ upgrade = .webSocket) ∧ ∀ w : World Stream, w.stream = .raw conn →
      onTransport http (detectAndUpgrade http keys connId addHsts) w =
        .ok upgrade { w with stream := stream } := by
  obtain ⟨upgrade,v,v',rfl,hanswer,hup,rfl⟩ := h
  refine ⟨upgrade,hup,?_⟩
  intro w hw
  have hhead : Session.onStream (readHead maxHead []) { w with stream := conn } =
      .ok buf { w with stream := v.stream } := onStream_ok hread
  have hrun : detectAndUpgrade http keys connId addHsts { w with stream := conn } =
      .ok upgrade { w with stream := v'.stream } := by
    rw [detectAndUpgrade,bind_ok hhead]
    exact answer_upgrade hanswer hup rfl
  unfold onTransport
  rw [hw]
  dsimp only
  rw [hrun]

end

/-! ## Whole connections -/

namespace Tidies

section
variable {http : HttpEnv} {setup : Setup} {connId : Nat} {config : Config} {keys : List SecretKey}
  {addr : SocketAddr} {isTls : Bool} {conn : RawConn} {w : World Stream}

private theorem onTransport {V : Upgrade → Prop} {m : Session RawConn Upgrade}
    (hsocket : ∀ next, Owned own (http.fromRawSocket next).errors) (hw : w.stream = .raw conn)
    (hm : Tidies RawConn.errors own V m { w with stream := conn }) :
    Tidies Stream.errors own V (Rmbtd.onTransport http m) w := by
  intro htidy
  have howned : Owned own conn.errors := by
    have h := htidy.owned
    rw [hw] at h
    exact h
  have h := hm ⟨howned,htidy.records⟩
  unfold Rmbtd.onTransport
  rw [hw]
  dsimp only
  cases hmw : m { w with stream := conn } with
  | ok upgrade w' =>
    rw [hmw] at h
    refine ⟨h.1,?_,h.2.records⟩
    cases upgrade with
    | webSocket => exact hsocket _
    | raw => exact h.2.owned
    | ipCheck _ => exact h.2.owned
    | version _ => exact h.2.owned
  | error stop w' =>
    rw [hmw] at h
    exact ⟨h.1,h.2.owned,h.2.records⟩

private def Greeted (r : Finish × Option Greeting) : Prop :=
  ∀ greeting, r.2 = some greeting → Unbroken greeting.uuid

private theorem Greeted.none (finish : Finish) : Greeted (finish,none) := by
  intro greeting h
  cases h

private theorem served {upgrade : Upgrade} {w₁ : World Stream} (hkeys : ∀ key ∈ keys, own key.label)
    (hopen : setup.Opens isTls) (hw : w.stream = .raw conn)
    (h : ∀ t, Exposed http setup connId config keys isTls conn w.wall t → Unbroken t)
    (hup : upgrade = .raw ∨ upgrade = .webSocket)
    (hrun : Rmbtd.onTransport http (Rmbtd.detectAndUpgrade http keys connId (isTls && config.hsts)) w =
      .ok upgrade w₁) (sink : Sink) (fuel : Nat) :
    Tidies Stream.errors own Greeted (do
      Session.log .debug (connTag connId ++ "upgraded to " ++ (← get).stream.kindName)
      let (reason,greeting) ← Rmbtd.serveStream http.env connId config keys sink fuel
      return (.served reason,greeting)) w₁ := by
  obtain ⟨buf,next,hread,hupgrades,hwall⟩ := upgraded hw hup hrun
  apply (silent rfl rfl rfl trivial : Tidies Stream.errors own (fun _ => True) get w₁).bind
  rintro _ _ _ hsame
  cases hsame
  apply debug.bind
  intro _ w₂ _ hlog
  cases hlog
  apply (serveStream hkeys sink fuel _).bind
  · intro r _ hr _
    exact pure hr
  · intro token w₃ htoken hshows
    obtain ⟨hsends,hip,hclock⟩ := receiveToken_eq_ok htoken
    apply h
    apply Exposed.uuid hopen hread hupgrades hsends
    have hsame : w₃.clock = ⟨w.wall 0,w.wall 1⟩ := by
      unfold World.clock
      rw [hclock,← hwall]
    rw [hip,hsame] at hshows
    exact hshows

private theorem serveTransport (hkeys : ∀ key ∈ keys, own key.label)
    (hsocket : ∀ next, Owned own (http.fromRawSocket next).errors) (hopen : setup.Opens isTls)
    (hw : w.stream = .raw conn)
    (h : ∀ t, Exposed http setup connId config keys isTls conn w.wall t → Unbroken t) (sink : Sink)
    (fuel : Nat) :
    Tidies Stream.errors own Greeted
      (Rmbtd.serveTransport http connId config keys isTls sink fuel) w := by
  have hrequest : Tidies RawConn.errors own (Upgrade.Tidy own)
      (Rmbtd.detectAndUpgrade http keys connId (isTls && config.hsts)) { w with stream := conn } :=
    detectAndUpgrade hkeys fun buf next hread t ht => h t (.request hopen hread ht)
  apply (attempt (onTransport hsocket hw hrequest)).bind
  intro outcome w₁ houtcome hrun
  cases outcome with
  | error e =>
    dsimp only
    split
    · exact bind debug fun _ _ _ _ => pure (.none _)
    · apply bind (log fun _ => (OneLine.of_unbroken (by simp)).append houtcome)
      exact fun _ _ _ _ => pure (.none _)
  | ok upgrade =>
    have hserve (hup : upgrade = .raw ∨ upgrade = .webSocket) :=
      served hkeys hopen hw h hup (attempt_eq_ok hrun) sink fuel
    cases upgrade with
    | ipCheck summary =>
      exact bind (log fun _ => (OneLine.of_unbroken (by simp)).append houtcome) fun _ _ _ _ => pure (.none _)
    | version summary =>
      exact bind (log fun _ => (OneLine.of_unbroken (by simp)).append houtcome) fun _ _ _ _ => pure (.none _)
    | raw => exact hserve (Or.inl rfl)
    | webSocket => exact hserve (Or.inr rfl)

private theorem openTransport (htimeout : ∀ e, setup.timeoutError = some e → own e.message)
    (htls : ∀ e, setup.tls = some (some e) → own e.message) :
    Tidies Stream.errors own (fun r => r = none → setup.Opens isTls)
      (Rmbtd.openTransport setup connId isTls) w := by
  unfold Rmbtd.openTransport
  split
  · next e he =>
    apply bind (log fun _ => (OneLine.of_unbroken (by simp)).append (.of_own (htimeout e he)))
    exact fun _ _ _ _ => pure nofun
  next htimeout =>
  split
  · split
    · apply bind (log fun _ => .of_unbroken (by simp))
      exact fun _ _ _ _ => pure nofun
    · next e he =>
      apply bind (log fun _ => (OneLine.of_unbroken (by simp)).append (.of_own (htls e he)))
      exact fun _ _ _ _ => pure nofun
    · next hsome => exact pure fun _ => ⟨htimeout,fun _ => hsome⟩
  · next hplain => exact pure fun _ => ⟨htimeout,fun htrue => absurd htrue hplain⟩

private theorem openTransport_eq_ok {w' : World Stream} {finish : Option Finish}
    (h : Rmbtd.openTransport setup connId isTls w = .ok finish w') :
    w'.stream = w.stream ∧ w'.wall = w.wall := by
  cases htimeout : setup.timeoutError with
  | some e =>
    rw [Rmbtd.openTransport,htimeout] at h
    cases h
    exact ⟨rfl,rfl⟩
  | none =>
    rw [Rmbtd.openTransport,htimeout] at h
    by_cases htls : isTls = true
    · match hconfig : setup.tls with
      | none =>
        simp only [htls,hconfig,if_true] at h
        cases h
        exact ⟨rfl,rfl⟩
      | some (some e) =>
        simp only [htls,hconfig,if_true] at h
        cases h
        exact ⟨rfl,rfl⟩
      | some none =>
        simp only [htls,hconfig,if_true] at h
        cases h
        exact ⟨rfl,rfl⟩
    · simp only [htls] at h
      cases h
      exact ⟨rfl,rfl⟩

private theorem unbroken_clientLabel : Unbroken (clientLabel config addr) := by
  unfold clientLabel anonymiseAddr
  split
  · simp
  · split
    · simp
    · simp

private theorem unbroken_finish (finish : Finish) : Unbroken finish.toText := by
  cases finish with
  | served reason =>
    cases reason
    all_goals decide
  | _ => decide

private theorem logClosing {finish : Finish} {greeting : Option Greeting}
    (h : Greeted (finish,greeting)) :
    Tidies Stream.errors own (fun _ => True) (Rmbtd.logClosing connId finish greeting) w := by
  unfold Rmbtd.logClosing
  split
  · next g => exact log fun _ => .of_unbroken (by simp [h g rfl])
  · exact log fun _ => .of_unbroken (by simp [unbroken_finish])

theorem handleConnection (hkeys : ∀ key ∈ keys, own key.label)
    (hsocket : ∀ next, Owned own (http.fromRawSocket next).errors)
    (htimeout : ∀ e, setup.timeoutError = some e → own e.message)
    (htls : ∀ e, setup.tls = some (some e) → own e.message) (hw : w.stream = .raw conn)
    (h : ∀ t, Exposed http setup connId config keys isTls conn w.wall t → Unbroken t)
    (sinkEnabled : Bool) (fuel : Nat) :
    Tidies Stream.errors own (fun _ => True)
      (Rmbtd.handleConnection http setup connId config keys addr isTls sinkEnabled fuel) w := by
  unfold Rmbtd.handleConnection
  apply bind (log fun _ => .of_unbroken (by simp [unbroken_clientLabel]))
  intro _ w₁ _ hlog
  cases hlog
  apply bind (V := Greeted)
  · apply (openTransport htimeout htls).bind
    intro finish w₂ hopen hrun
    cases finish with
    | some finish => exact pure (.none finish)
    | none =>
      obtain ⟨hstream,hwall⟩ := openTransport_eq_ok hrun
      apply serveTransport hkeys hsocket (hopen rfl) (hstream.trans hw)
      rw [hwall]
      exact h
  · intro r _ hr _
    exact (logClosing hr).bind fun _ _ _ _ => pure trivial

end

end Tidies

end Rmbtd
