import Rmbtd.Server.LogLines

/-!
# Forged log lines

A record of a connection is one line if and only if the client text that goes into it as it is has
no line break. The method of a request to `/ip` or `/version` and the uuid of a token can have one:
request lines end at CRLF alone, a raw line may hold a carriage return and a WebSocket message
anything.
-/

namespace Rmbtd

open Effect Session

/-! ## What a run logs -/

/-- Run from `w`, the program ends with the record in its trace. -/
def Logs {σ α : Type} (m : Session σ α) (w : World σ) (record : LogRecord) : Prop :=
  .logged record ∈ (final (m w)).trace

namespace Logs

variable {σ α β : Type} {m : Session σ α} {f : α → Session σ β} {w w' : World σ}
  {record : LogRecord}

theorem kept (hm : Appends (fun _ => True) m) (h : .logged record ∈ w.trace) : Logs m w record := by
  obtain ⟨tr,htr,-⟩ := hm w
  unfold Logs
  rw [htr]
  exact List.mem_append_left _ h

theorem left (h : Logs m w record) (hf : ∀ a, Appends (fun _ => True) (f a)) :
    Logs (m >>= f) w record := by
  unfold Logs at h ⊢
  rw [bind_apply]
  cases hm : m w with
  | ok a w' =>
    rw [hm] at h
    exact kept (hf a) h
  | error stop w' =>
    rw [hm] at h
    exact h

theorem right {a : α} (hm : m w = .ok a w') (h : Logs (f a) w' record) : Logs (m >>= f) w record := by
  unfold Logs at h ⊢
  rw [bind_ok hm]
  exact h

theorem log (level : Level) (text : Text) (quoted : Option Text) :
    Logs (Session.log level text quoted) w ⟨level,text,quoted⟩ :=
  List.mem_append_right _ (List.mem_singleton_self _)

theorem logAll {records : List LogRecord} (h : record ∈ records) :
    Logs (Session.logAll records) w record := by
  unfold Logs
  rw [logAll_eq]
  exact List.mem_append_right _ (List.mem_map_of_mem h)

theorem logged {n : Logged α} (h : record ∈ n.records) : Logs (Session.logged n) w record := by
  unfold Logs
  rw [logged_eq]
  exact List.mem_append_right _ (List.mem_map_of_mem h)

theorem attempt (h : Logs m w record) : Logs (Rmbtd.attempt m) w record := by
  unfold Logs Rmbtd.attempt at *
  cases hm : m w with
  | ok a w' =>
    rw [hm] at h
    exact h
  | error stop w' =>
    rw [hm] at h
    cases stop with
    | io e => exact h
    | panic => exact h
    | outOfFuel => exact h

end Logs

/-! ## Nothing logged is lost -/

namespace Appends

variable {σ : Type}

private theorem logAll (records : List LogRecord) :
    Appends (fun _ => True) (Session.logAll records : Session σ Unit) := by
  intro w
  rw [logAll_eq]
  exact ⟨_,rfl,fun _ _ => trivial⟩

private theorem log (level : Level) (text : Text) (quoted : Option Text) :
    Appends (fun _ => True) (Session.log level text quoted : Session σ Unit) := emit trivial

private theorem attempt {α : Type} {m : Session σ α} (hm : Appends (fun _ => True) m) :
    Appends (fun _ => True) (Rmbtd.attempt m) := by
  intro w
  obtain ⟨tr,htr,h⟩ := hm w
  refine ⟨tr,?_,h⟩
  unfold Rmbtd.attempt
  cases hmw : m w with
  | ok a w' =>
    rw [hmw] at htr
    exact htr
  | error stop w' =>
    rw [hmw] at htr
    cases stop with
    | io e => exact htr
    | panic => exact htr
    | outOfFuel => exact htr

section
variable [LineStream σ] (env : Env) (connId : Nat) (config : Config) (keys : List SecretKey)
  (sink : Sink)

private theorem writeLine (line : Text) :
    Appends (fun _ => True) (Session.writeLine line : Session σ Unit) :=
  (emit trivial).bind fun _ => onStream _

private theorem readLine : Appends (fun _ => True) (Session.readLine : Session σ Text) :=
  (onStream _).bind fun _ => (emit trivial).bind fun _ => silent fun _ => rfl

private theorem loopRules (uuid : Text) :
    LoopRules (σ := σ) connId uuid (Appends fun _ => True) where
  toHandlerRules := handlerRules (fun _ => trivial) (fun _ => trivial) (fun _ => trivial) fun _ => trivial
  stats := silent fun _ => rfl
  command _ _ _ := emit trivial
  logCommand _ := emit trivial
  logQuit := emit trivial
  logUnknown _ := emit trivial

private theorem runCommands (uuid : Text) (fuel : Nat) :
    Appends (fun _ => True) (Rmbtd.runCommands env connId uuid fuel : Session σ Unit) :=
  (emit trivial).bind fun _ => (silent fun _ => rfl).bind fun _ =>
    (loopRules connId uuid).commandLoop env fuel

omit [LineStream σ] in
private theorem authEvent (token result : Text) (label reason : Option Text) :
    Appends (fun _ => True) (auth sink connId token result label reason : Session σ Unit) := by
  unfold auth
  split
  · exact emit trivial
  · exact silent fun _ => rfl

private theorem readToken (fuel : Nat) :
    Appends (fun _ => True) (Rmbtd.readToken fuel : Session σ Text) := by
  induction fuel with
  | zero => exact silent fun _ => rfl
  | succ fuel ih =>
    apply readLine.bind
    intro line
    split
    · exact ih
    · exact silent fun _ => rfl

private theorem tokenValue (line : Text) :
    Appends (fun _ => True) (Rmbtd.tokenValue connId line : Session σ Text) := by
  unfold Rmbtd.tokenValue
  split
  · exact silent fun _ => rfl
  split
  · exact (writeLine _).bind fun _ => silent fun _ => rfl
  · exact (log _ _ _).bind fun _ => (writeLine _).bind fun _ => silent fun _ => rfl

private theorem checkToken (token : Text) :
    Appends (fun _ => True) (Rmbtd.checkToken env connId config keys token : Session σ TokenResult) :=
  (silent fun _ => rfl).bind fun _ => (silent fun _ => rfl).bind fun _ =>
    (logAll _).bind fun _ => (emit trivial).bind fun _ => silent fun _ => rfl

private theorem verdict (token : Text) (result : TokenResult) : Appends (fun _ => True) (match result with
    | .accepted sleepSecs label => do
      Session.log .info (connTag connId ++ "valid token; uuid=" ++ uuidOf token ++ " key='" ++ label ++ "'")
      auth sink connId token "accepted" (some label) none
      if 0 < sleepSecs then sleep sleepSecs else pure ()
      return label
    | rejected => do
      auth sink connId token "rejected" none (some (rejectReason rejected))
      Session.writeLine "ERR\n"
      throw (.io tokenRejected) : Session σ Text) := by
  cases result with
  | accepted secs label =>
    apply (log _ _ _).bind
    intro _
    apply (authEvent connId sink _ _ _ _).bind
    intro _
    split
    · exact (emit trivial).bind fun _ => silent fun _ => rfl
    · exact silent fun _ => rfl
  | _ =>
    exact (authEvent connId sink _ _ _ _).bind fun _ => (writeLine _).bind fun _ =>
      silent fun _ => rfl

private theorem authenticate (token : Text) :
    Appends (fun _ => True) (Rmbtd.authenticate env connId config keys sink token : Session σ Text) := by
  unfold Rmbtd.authenticate
  split
  · exact (checkToken env connId config keys token).bind fun result =>
      verdict connId sink token result
  · exact (log _ _ _).bind fun _ => (authEvent connId sink _ _ _ _).bind fun _ => silent fun _ => rfl

private theorem endGreeting (token label : Text) : Appends (fun _ => True) (do
    Session.writeLine "OK\n"
    Session.writeLine chunkSizeLine
    return ⟨uuidOf token,tokenTypeOf token,label⟩ : Session σ Greeting) :=
  (writeLine _).bind fun _ => (writeLine _).bind fun _ => silent fun _ => rfl

private theorem runGreeting (fuel : Nat) :
    Appends (fun _ => True) (Rmbtd.runGreeting env connId config keys sink fuel : Session σ Greeting) :=
  (writeLine _).bind fun _ => (writeLine _).bind fun _ => (readToken fuel).bind fun line =>
    (tokenValue connId line).bind fun token => (authenticate env connId config keys sink token).bind
      fun label => endGreeting token label

private theorem greeted (result : Except IoError Greeting) (fuel : Nat) :
    Appends (fun _ => True) (match result with
      | .error e => do
        Session.log .info (connTag connId ++ "greeting failed: " ++ e.message)
        return (.authFailed,none)
      | .ok greeting => do
        match ← Rmbtd.attempt (Rmbtd.runCommands env connId greeting.uuid fuel) with
        | .ok () => return (.quit,some greeting)
        | .error e => do
          if endReason e = .error then
            Session.log .debug (connTag connId ++ "command loop ended: " ++ e.message)
          return (endReason e,some greeting) : Session σ (EndReason × Option Greeting)) := by
  cases result with
  | error e => exact (log _ _ _).bind fun _ => silent fun _ => rfl
  | ok greeting =>
    apply (attempt (runCommands env connId greeting.uuid fuel)).bind
    intro ended
    cases ended with
    | ok _ => exact silent fun _ => rfl
    | error e =>
      dsimp only
      split
      · exact (log _ _ _).bind fun _ => silent fun _ => rfl
      · exact silent fun _ => rfl

private theorem serveStream (fuel : Nat) : Appends (fun _ => True)
    (Rmbtd.serveStream env connId config keys sink fuel : Session σ (EndReason × Option Greeting)) :=
  (attempt (runGreeting env connId config keys sink fuel)).bind fun result =>
    greeted env connId result fuel

end

end Appends

/-! ## The uuid of a session -/

/-- A record at info or more severe that has no line break only if the text has none. -/
def Carries (record : LogRecord) (t : Text) : Prop :=
  record.level.isSevere ∧ (Unbroken record.text → Unbroken t)

section
variable {env : Env} {connId : Nat} {config : Config} {keys : List SecretKey} {sink : Sink}
  {w w' : World Stream} {token : Text} {record : LogRecord}

private theorem checkToken_eq : ∃ w', checkToken env connId config keys token w =
    .ok (validateToken env.crypto token keys connId w.stream.sourceIp config.v2Only w.clock).val w' := by
  unfold checkToken
  have hpeer : peerAddr w = .ok (LineStream.peerAddr w.stream) w := rfl
  rw [bind_ok hpeer]
  have hclock : validationClock w = .ok w.clock { w with wall := fun i => w.wall (i+2) } := rfl
  rw [bind_ok hclock,bind_ok (logAll_eq _ _)]
  exact ⟨_,rfl⟩

private theorem checkToken_logs (h : record ∈
      (validateToken env.crypto token keys connId w.stream.sourceIp config.v2Only w.clock).records) :
    Logs (checkToken env connId config keys token) w record := by
  unfold checkToken
  have hpeer : peerAddr w = .ok (LineStream.peerAddr w.stream) w := rfl
  have hclock : validationClock w = .ok w.clock { w with wall := fun i => w.wall (i+2) } := rfl
  apply Logs.right hpeer
  apply Logs.right hclock
  apply Logs.left (Logs.logAll h)
  exact fun _ => (Appends.emit trivial).bind fun _ => .silent fun _ => rfl

private theorem authenticate_logs (h : ShowsUuid env.crypto connId config keys w.stream.sourceIp
      w.clock token) :
    ∃ record, Logs (authenticate env connId config keys sink token) w record ∧
      Carries record (uuidOf token) := by
  unfold authenticate
  cases hcheck : config.checkToken with
  | false =>
    refine ⟨_,Logs.left (Logs.log _ _ _) fun _ => ?_,rfl,fun hrecord => by simp_all⟩
    exact (Appends.authEvent connId sink _ _ _ _).bind fun _ => .silent fun _ => rfl
  | true =>
    simp only [if_true]
    rcases h with h | ⟨secs,label,h⟩ | ⟨hraw,h⟩
    · rw [hcheck] at h
      cases h
    · obtain ⟨v,hrun⟩ : ∃ v, checkToken env connId config keys token w = .ok _ v := checkToken_eq
      rw [h] at hrun
      refine ⟨_,Logs.right hrun (Logs.left (Logs.log _ _ _) fun _ => ?_),rfl,fun hrecord => by simp_all⟩
      apply (Appends.authEvent connId sink _ _ _ _).bind
      intro _
      split
      · exact (Appends.emit trivial).bind fun _ => .silent fun _ => rfl
      · exact .silent fun _ => rfl
    · exact ⟨_,Logs.left (checkToken_logs (validateToken_mismatch hraw h))
        fun result => Appends.verdict connId sink token result,rfl,fun hrecord => by simp_all [mismatchRecord]⟩

end

/-! ## The method and the uuid of a request -/

section
variable {http : HttpEnv} {keys : List SecretKey} {connId : Nat} {req t : Text} {addHsts : Bool}
  {head : RequestHead} {w : World RawConn}

private theorem send_appends (reply : IpReply) :
    Appends (fun _ => True) (HttpTransport.send head reply addHsts : Session RawConn Text) :=
  (Appends.onStream _).bind fun _ => (Appends.onStream _).bind fun _ => .silent fun _ => rfl

private theorem ipReply_logs {token : Text} (hposts : PostsToken http head w.stream token)
    (hmatch : (matchV1 http.env.crypto (splitIpToken token).1 keys connId).val = .error .invalidHmac) :
    Logs (HttpTransport.ipReply http keys connId head) w
      (mismatchRecord connId (uuidOf (splitIpToken token).1)) := by
  have hoptions : head.method ≠ "OPTIONS" := by
    rw [hposts.method]
    decide
  have hsmall : ¬maxBody < head.contentLength := Nat.not_lt.mpr hposts.small
  have hwhole : ¬(w.stream.input.take head.contentLength).length < head.contentLength := by
    rw [List.length_take]
    have := hposts.whole
    omega
  obtain ⟨peer,hpeer⟩ := Option.ne_none_iff_exists'.mp hposts.peer
  have hread : RawConn.readUpTo head.contentLength w.stream = .ok (w.stream.input.take head.contentLength)
      { w.stream with input := w.stream.input.drop head.contentLength } :=
    RawConn.readUpTo_of_end fun hlt => absurd hlt (Nat.not_lt.mpr hposts.whole)
  rw [HttpTransport.ipReply,if_neg hoptions,if_pos hposts.method,HttpTransport.postReply,
    hposts.chunked]
  simp only [Bool.false_eq_true,if_false,if_neg hsmall]
  apply Logs.right (onStream_ok hread)
  rw [if_neg hwhole]
  refine Logs.right rfl ?_
  simp only [HttpTransport.peerAddr,hpeer]
  rw [HttpTransport.bodyReply,if_neg (by simp [hposts.json])]
  refine Logs.right rfl ?_
  apply Logs.left (Logs.logged (ipResponse_mismatch hposts.token hmatch))
  intro r
  cases r with
  | ok answer => exact .silent fun _ => rfl
  | error e => exact .silent fun _ => rfl

private theorem handle_parsed (hparse : parseHead req = .ok head) :
    HttpTransport.handle http keys connId req addHsts w = (do
      HttpTransport.send head (← HttpTransport.ipReply http keys connId head) addHsts :
        Session RawConn Text) w := by
  unfold HttpTransport.handle
  rw [hparse]
  rfl

private theorem writes_ok (response : Bytes) (summary : Text) (h : w.stream.Accepts) : ∃ w', (do
    onStream (HttpTransport.writeAll response)
    onStream HttpTransport.flush
    return summary : Session RawConn Text) w = .ok summary w' := by
  obtain ⟨conn₁,conn₂,hwrite,hflush⟩ := (RawConn.accepts_iff response).mp h
  have hwritten : onStream (HttpTransport.writeAll response) w = .ok () { w with stream := conn₁ } :=
    onStream_ok hwrite
  have hflushed : onStream HttpTransport.flush { w with stream := conn₁ } =
      .ok () { w with stream := conn₂ } := onStream_ok hflush
  rw [bind_ok hwritten,bind_ok hflushed]
  exact ⟨_,rfl⟩

private theorem send_ok (reply : IpReply) (h : w.stream.Accepts) : ∃ w',
    HttpTransport.send head reply addHsts w = .ok (reply.summary head.method) w' := writes_ok _ _ h

private theorem version_ok (h : w.stream.Accepts) : ∃ code w', Version.handle http req addHsts w =
    .ok (requestMethod req ++ " /version -> ".toList ++ code) w' := ⟨_,writes_ok _ _ h⟩

private def Told (t : Text) (m : Session RawConn Upgrade) (w : World RawConn) : Prop :=
  Unbroken t ∨ (∃ record, Logs m w record ∧ Carries record t) ∨
    ∃ summary w', (m w = .ok (.ipCheck summary) w' ∨ m w = .ok (.version summary) w') ∧
      (Unbroken summary → Unbroken t)

private theorem answer_told (h : RequestShown http keys connId req w.stream t) :
    Told t (answer http keys connId req addHsts) w := by
  cases h with
  | ipMethod hip hparse haccepts =>
    next head =>
    by_cases hoptions : head.method = "OPTIONS"
    · left
      rw [← parseHead_method hparse,hoptions]
      decide
    by_cases hpost : head.method = "POST"
    · left
      rw [← parseHead_method hparse,hpost]
      decide
    right; right
    obtain ⟨reply,hreply⟩ : ∃ reply, HttpTransport.ipReply http keys connId head =
        (pure reply : Session RawConn IpReply) ∧ reply.note = none := by
      rw [HttpTransport.ipReply,if_neg hoptions,if_neg hpost]
      exact ⟨_,rfl,rfl⟩
    obtain ⟨v,hsend⟩ : ∃ v, HttpTransport.send head reply addHsts w = .ok _ v := send_ok reply haccepts
    have hrun : HttpTransport.handle http keys connId req addHsts w =
        .ok (reply.summary head.method) v := by
      rw [handle_parsed hparse,hreply.1]
      exact hsend
    refine ⟨reply.summary head.method,v,Or.inl ?_,?_⟩
    · rw [answer,if_pos hip,bind_ok hrun]
      rfl
    · rw [← parseHead_method hparse]
      intro hsummary
      simp only [IpReply.summary,hreply.2,Unbroken.append_iff] at hsummary
      exact hsummary.1.1
  | ipUuid hip hparse hposts hmatch =>
    right; left
    next head token =>
    have hlogs : Logs (HttpTransport.handle http keys connId req addHsts) w
        (mismatchRecord connId (uuidOf (splitIpToken token).1)) := by
      unfold Logs
      rw [handle_parsed hparse]
      exact Logs.left (ipReply_logs hposts hmatch) send_appends
    rw [answer,if_pos hip]
    refine ⟨_,Logs.left hlogs fun _ => .silent fun _ => rfl,rfl,?_⟩
    intro hrecord
    simp_all [mismatchRecord]
  | versionMethod hip hversion haccepts =>
    right; right
    obtain ⟨code,v,hrun⟩ : ∃ code v, Version.handle http req addHsts w = .ok _ v := version_ok haccepts
    refine ⟨requestMethod req ++ " /version -> ".toList ++ code,v,Or.inr ?_,?_⟩
    · rw [answer,if_neg (by simp [hip]),if_pos hversion,bind_ok hrun]
      rfl
    · intro hsummary
      simp only [Unbroken.append_iff] at hsummary
      exact hsummary.1.1

private theorem detectAndUpgrade_told {buf : Bytes} {next : RawConn}
    (hread : readHead maxHead [] w.stream = .ok buf next)
    (h : RequestShown http keys connId (fromUtf8Lossy buf) next t) :
    Told t (detectAndUpgrade http keys connId addHsts) w := by
  have hrun : detectAndUpgrade http keys connId addHsts w =
      answer http keys connId (fromUtf8Lossy buf) addHsts { w with stream := next } := by
    rw [detectAndUpgrade,bind_ok (onStream_ok hread)]
  have htold : Told t (answer http keys connId (fromUtf8Lossy buf) addHsts) { w with stream := next } :=
    answer_told h
  unfold Told Logs at htold ⊢
  rw [hrun]
  exact htold

end

/-! ## Whole connections -/

namespace Appends

variable (connId : Nat)

private theorem logClosing (finish : Finish) (greeting : Option Greeting) :
    Appends (fun _ => True) (Rmbtd.logClosing connId finish greeting) := by
  unfold Rmbtd.logClosing
  split
  · exact log _ _ _
  · exact log _ _ _

end Appends

section
variable {http : HttpEnv} {setup : Setup} {connId : Nat} {config : Config} {keys : List SecretKey}
  {addr : SocketAddr} {isTls sinkEnabled : Bool} {conn : RawConn} {w : World Stream} {sink : Sink}
  {record : LogRecord}

private theorem openTransport_opens (h : setup.Opens isTls) :
    openTransport setup connId isTls w = .ok none w := by
  cases isTls with
  | false =>
    rw [openTransport,h.1]
    rfl
  | true =>
    rw [openTransport,h.1,h.2 rfl]
    rfl

private theorem onTransport_ok {m : Session RawConn Upgrade} {upgrade : Upgrade} {v : World RawConn}
    (hw : w.stream = .raw conn) (h : m { w with stream := conn } = .ok upgrade v) :
    onTransport http m w = .ok upgrade { v with stream := upgrade.stream http v.stream } := by
  unfold onTransport
  rw [hw]
  dsimp only
  rw [h]

private theorem onTransport_logs {m : Session RawConn Upgrade} (hw : w.stream = .raw conn)
    (h : Logs m { w with stream := conn } record) : Logs (onTransport http m) w record := by
  unfold Logs onTransport at *
  rw [hw]
  dsimp only
  cases hm : m { w with stream := conn } with
  | ok upgrade v =>
    rw [hm] at h
    exact h
  | error stop v =>
    rw [hm] at h
    exact h

private theorem attempt_ok {α : Type} {m : Session Stream α} {a : α} {w' : World Stream}
    (h : m w = .ok a w') : attempt m w = .ok (.ok a) w' := by
  unfold attempt
  rw [h]

private theorem afterUpgrade (outcome : Except IoError Upgrade) (fuel : Nat) :
    Appends (fun _ => True) (match outcome with
      | .error e =>
        if isClientDisconnect e then do
          log .debug (connTag connId ++ "client disconnected before upgrade: " ++ e.message)
          return (.upgradeDisconnect,none)
        else do
          log .info (connTag connId ++ "upgrade failed: " ++ e.message)
          return (.upgradeFailed,none)
      | .ok (.ipCheck summary) => do
        log .info (connTag connId ++ "ip check " ++ summary)
        return (.ipCheck,none)
      | .ok (.version summary) => do
        log .info (connTag connId ++ "version " ++ summary)
        return (.version,none)
      | .ok _ => do
        log .debug (connTag connId ++ "upgraded to " ++ (← get).stream.kindName)
        let (reason,greeting) ← serveStream http.env connId config keys sink fuel
        return (.served reason,greeting) : Session Stream (Finish × Option Greeting)) := by
  have hrecord (level : Level) (text : Text) (finish : Finish) : Appends (fun _ => True) (do
      log level text
      return (finish,none) : Session Stream (Finish × Option Greeting)) :=
    (Appends.log _ _ _).bind fun _ => .silent fun _ => rfl
  cases outcome with
  | error e =>
    dsimp only
    split
    · exact hrecord _ _ _
    · exact hrecord _ _ _
  | ok upgrade =>
    have hserve : Appends (fun _ => True) (do
        log .debug (connTag connId ++ "upgraded to " ++ (← get).stream.kindName)
        let (reason,greeting) ← serveStream http.env connId config keys sink fuel
        return (.served reason,greeting) : Session Stream (Finish × Option Greeting)) :=
      (Appends.silent fun _ => rfl).bind fun _ => (Appends.log _ _ _).bind fun _ =>
        (Appends.serveStream http.env connId config keys sink fuel).bind fun _ => .silent fun _ => rfl
    cases upgrade with
    | ipCheck summary => exact hrecord _ _ _
    | version summary => exact hrecord _ _ _
    | raw => exact hserve
    | webSocket => exact hserve

private theorem runSession_logs {fuel : Nat} (hopen : setup.Opens isTls)
    (h : Logs (serveTransport http connId config keys isTls sink fuel) w record) :
    Logs (runSession http setup connId config keys isTls sink fuel) w record :=
  Logs.right (openTransport_opens hopen) h

private theorem request_shown {buf : Bytes} {next : RawConn} {t : Text} (hw : w.stream = .raw conn)
    (hread : readHead maxHead [] conn = .ok buf next)
    (h : RequestShown http keys connId (fromUtf8Lossy buf) next t) (fuel : Nat) :
    Unbroken t ∨ ∃ record, Logs (serveTransport http connId config keys isTls sink fuel) w record ∧
      Carries record t := by
  have htold : Told t (detectAndUpgrade http keys connId (isTls && config.hsts))
      { w with stream := conn } := detectAndUpgrade_told hread h
  rcases htold with ht | ⟨record,hlogs,hcarries⟩ | ⟨summary,v,hrun | hrun,hcarries⟩
  · exact Or.inl ht
  · exact Or.inr ⟨record,Logs.left (onTransport_logs hw hlogs).attempt fun outcome =>
      afterUpgrade outcome fuel,hcarries⟩
  · refine Or.inr ⟨_,Logs.right (attempt_ok (onTransport_ok hw hrun)) (Logs.left (Logs.log _ _ _)
      fun _ => .silent fun _ => rfl),rfl,?_⟩
    intro hrecord
    exact hcarries (by simp_all)
  · refine Or.inr ⟨_,Logs.right (attempt_ok (onTransport_ok hw hrun)) (Logs.left (Logs.log _ _ _)
      fun _ => .silent fun _ => rfl),rfl,?_⟩
    intro hrecord
    exact hcarries (by simp_all)

private theorem uuid_shown {buf : Bytes} {next : RawConn} {stream : Stream} {token : Text}
    (hw : w.stream = .raw conn) (hread : readHead maxHead [] conn = .ok buf next)
    (hupgrades : Upgrades http keys connId (fromUtf8Lossy buf) (isTls && config.hsts) next stream)
    (hsends : SendsToken http.env stream token)
    (hshows : ShowsUuid http.env.crypto connId config keys stream.sourceIp w.clock token) :
    ∃ fuel record, Logs (serveTransport http connId config keys isTls sink fuel) w record ∧
      Carries record (uuidOf token) := by
  obtain ⟨upgrade,v,v',rfl,hanswer,hup,rfl⟩ := hupgrades
  obtain ⟨fuel,hreceive⟩ : ∃ fuel, ∀ w : World Stream, w.stream = upgrade.stream http v'.stream →
      ∃ u, receiveToken http.env connId fuel w = .ok token u := receiveToken_of_sends hsends
  have hrun : detectAndUpgrade http keys connId (isTls && config.hsts) { w with stream := conn } =
      .ok upgrade { w with stream := v'.stream } := by
    have hread : onStream (readHead maxHead []) { w with stream := conn } =
        .ok buf { w with stream := v.stream } := onStream_ok hread
    rw [detectAndUpgrade,bind_ok hread]
    exact answer_upgrade hanswer hup rfl
  have hupgraded : attempt (onTransport http (detectAndUpgrade http keys connId
      (isTls && config.hsts))) w = .ok (.ok upgrade) { w with stream := upgrade.stream http v'.stream } :=
    attempt_ok (onTransport_ok hw hrun)
  obtain ⟨w₁,hw₁⟩ : ∃ w₁ : World Stream, w₁ = { w with
    stream := upgrade.stream http v'.stream
    trace := w.trace ++ [.logged ⟨.debug,connTag connId ++ "upgraded to " ++
      (upgrade.stream http v'.stream).kindName,none⟩] } := ⟨_,rfl⟩
  obtain ⟨w',htoken⟩ := hreceive w₁ (by rw [hw₁])
  obtain ⟨-,hip,hclock⟩ := receiveToken_eq_ok htoken
  have hshows' : ShowsUuid http.env.crypto connId config keys w'.stream.sourceIp w'.clock token := by
    have hsame : w'.clock = w.clock := by
      unfold World.clock
      rw [hclock,hw₁]
    rw [hip,hsame,hw₁]
    exact hshows
  obtain ⟨record,hlogs,hcarries⟩ : ∃ record, Logs (authenticate http.env connId config keys sink token)
      w' record ∧ Carries record (uuidOf token) := authenticate_logs hshows'
  refine ⟨fuel,record,?_,hcarries⟩
  have hgreeting : Logs (runGreeting http.env connId config keys sink fuel) w₁ record := by
    rw [Tidies.runGreeting_eq]
    exact Logs.right htoken (Logs.left hlogs fun label => Appends.endGreeting token label)
  have hstream : Logs (serveStream http.env connId config keys sink fuel) w₁ record :=
    Logs.left hgreeting.attempt fun result => Appends.greeted http.env connId result fuel
  have hserve : Logs (do
      log .debug (connTag connId ++ "upgraded to " ++ (← get).stream.kindName)
      let (reason,greeting) ← serveStream http.env connId config keys sink fuel
      return (.served reason,greeting) : Session Stream (Finish × Option Greeting))
      { w with stream := upgrade.stream http v'.stream } record := by
    refine Logs.right rfl ?_
    refine Logs.right rfl ?_
    rw [hw₁] at hstream
    exact Logs.left hstream fun _ => .silent fun _ => rfl
  apply Logs.right hupgraded
  rcases hup with rfl | rfl
  · exact hserve
  · exact hserve

end

/-! ## Lines of the log -/

private def announced (connId : Nat) (config : Config) (addr : SocketAddr) (w : World Stream) :
    World Stream :=
  { w with trace := w.trace ++ [.logged ⟨.info,connTag connId ++ "connection from " ++
    clientLabel config addr,none⟩] }

private theorem handleConnection_logs {http : HttpEnv} {setup : Setup} {connId : Nat}
    {config : Config} {keys : List SecretKey} {addr : SocketAddr} {isTls sinkEnabled : Bool}
    {fuel : Nat} {w : World Stream} {record : LogRecord}
    (h : Logs (runSession http setup connId config keys isTls ⟨sinkEnabled,clientLabel config addr⟩ fuel)
      (announced connId config addr w) record) :
    Logs (handleConnection http setup connId config keys addr isTls sinkEnabled fuel) w record := by
  have hopening : log .info (connTag connId ++ "connection from " ++ clientLabel config addr) none w =
      .ok () (announced connId config addr w) := rfl
  apply Logs.right hopening
  apply Logs.left h
  intro r
  exact (Appends.logClosing connId r.1 r.2).bind fun _ => .silent fun _ => rfl

/-- Every record at info or a more severe level is one line but for the server's own texts. -/
def OneLineLog (own : Text → Prop) (printable : Char → Bool) (tr : List Event) : Prop :=
  ∀ record, .logged record ∈ tr → record.level.isSevere → OneLine own (record.render printable)

/-- Then every such record is one line of the log, if the server's own texts have no line breaks. -/
theorem OneLineLog.logLine_eq {own : Text → Prop} {printable : Char → Bool} {tr : List Event}
    (h : OneLineLog own printable tr) (hown : ∀ t, own t → Unbroken t) {record : LogRecord}
    (hrecord : .logged record ∈ tr) (hsevere : record.level.isSevere) {timestamp : Text}
    (htimestamp : Unbroken timestamp) :
    ∃ line, Unbroken line ∧ logLine printable timestamp record = line ++ "\n" :=
  record.logLine_eq printable htimestamp ((h record hrecord hsevere).unbroken hown)

/-- If no client text that goes into a record as it is has a line break, the records of every run of
the connection are lines. Where the server's own texts have no line breaks, this is the only way. -/
theorem handleConnection_oneLine_iff (printable : Char → Bool) (http : HttpEnv) (setup : Setup)
    (connId : Nat) (config : Config) (keys : List SecretKey) (addr : SocketAddr)
    (isTls sinkEnabled : Bool) (conn : RawConn) (instants : Nat → Nat) (wall : Nat → Int64) :
    let own := ServerText http setup keys conn
    let exposed := Exposed http setup connId config keys isTls conn wall
    let tr (fuel : Nat) := (final (handleConnection http setup connId config keys addr isTls
      sinkEnabled fuel (World.start (.raw conn) instants wall))).trace
    ((∀ t, exposed t → Unbroken t) → ∀ fuel, OneLineLog own printable (tr fuel)) ∧
      ((∀ t, own t → Unbroken t) → (∀ fuel, OneLineLog own printable (tr fuel)) →
        ∀ t, exposed t → Unbroken t) := by
  intro own exposed tr
  constructor
  · intro hexposed fuel record hrecord hsevere
    have hstart : Tidy Stream.errors own (World.start (.raw conn) instants wall) :=
      ⟨fun e he => .of_own (.transport he),fun _ h => absurd h List.not_mem_nil⟩
    have hrun : Tidies Stream.errors own (fun _ => True) (handleConnection http setup connId config keys
        addr isTls sinkEnabled fuel) (World.start (.raw conn) instants wall) :=
      Tidies.handleConnection (fun key hkey => .label hkey) (fun next e he => .of_own (.webSocket he))
        (fun e he => .timeout he) (fun e he => .tls he) rfl hexposed sinkEnabled fuel
    exact ((hrun.final hstart).records record hrecord).render printable hsevere
  · intro hown hlines t ht
    have hshown (fuel : Nat) (record : LogRecord)
        (hlogs : Logs (runSession http setup connId config keys isTls
          ⟨sinkEnabled,clientLabel config addr⟩ fuel) (announced connId config addr
            (World.start (.raw conn) instants wall)) record)
        (hcarries : Carries record t) : Unbroken t := by
      have hline := hlines fuel record (handleConnection_logs hlogs) hcarries.1
      exact hcarries.2 (LogRecord.unbroken_of_render printable (hline.unbroken hown))
    cases ht with
    | request hopen hread hrequest =>
      rcases request_shown (w := announced connId config addr (World.start (.raw conn) instants wall))
        rfl hread hrequest 0 with ht | ⟨record,hlogs,hcarries⟩
      · exact ht
      · exact hshown 0 record (runSession_logs hopen hlogs) hcarries
    | uuid hopen hread hupgrades hsends hshows =>
      obtain ⟨fuel,record,hlogs,hcarries⟩ := uuid_shown
        (w := announced connId config addr (World.start (.raw conn) instants wall)) rfl hread hupgrades
        hsends hshows
      exact hshown fuel record (runSession_logs hopen hlogs) hcarries

/-! ## Examples of runs -/

def versionConn : RawConn := { goldenConn with input := utf8 "GET /version HTTP/1.1\r\n\r\n" }

/-- A request whose method holds a line feed. -/
def forgingConn : RawConn := { goldenConn with input := utf8 "A\nB /ip HTTP/1.1\r\n\r\n" }

/-- A token that no key matches, with a carriage return in its uuid. -/
def forgingTokenConn : RawConn := { goldenConn with
  input := utf8 ("GET / HTTP/1.1\r\nUpgrade: rmbt\r\n\r\n".toList ++
    "TOKEN f71d53f4-c67c-4b99-b319-979f714cd40\r_1700000090_x\n".toList) }

def goldenTrace (conn : RawConn) : List Event :=
  (final (handleConnection goldenHttp ⟨none,none⟩ 1 .default [goldenKey] (.new goldenIp 40000) false true 3
    (World.start (.raw conn) id fun _ => 1700000090))).trace

private theorem version_exposed {t : Text}
    (h : Exposed goldenHttp ⟨none,none⟩ 1 .default [goldenKey] false versionConn
      (fun _ => 1700000090) t) : Unbroken t := by
  have hread : (match readHead maxHead [] versionConn with
      | .ok buf _ => fromUtf8Lossy buf
      | .error _ _ => []) = "GET /version HTTP/1.1\r\n\r\n".toList := by decide +kernel
  have hip : ipCheckMatches (requestTarget "GET /version HTTP/1.1\r\n\r\n") = false := by decide +kernel
  have hversion : versionMatches (requestTarget "GET /version HTTP/1.1\r\n\r\n") = true := by
    decide +kernel
  have hmethod : Unbroken (requestMethod "GET /version HTTP/1.1\r\n\r\n") := by decide +kernel
  cases h with
  | request _ hhead hshown =>
    rw [hhead] at hread
    dsimp only at hread
    rw [hread] at hshown
    cases hshown with
    | ipMethod hmatches => cases hip.symm.trans hmatches
    | ipUuid hmatches => cases hip.symm.trans hmatches
    | versionMethod => exact hmethod
  | uuid _ hhead hupgrades =>
    rw [hhead] at hread
    dsimp only at hread
    rw [hread] at hupgrades
    obtain ⟨upgrade,w,w',-,hanswer,hup,-⟩ := hupgrades
    rw [answer,if_neg (Bool.not_eq_true _ ▸ hip),if_pos hversion] at hanswer
    obtain ⟨summary,w₁,-,hanswer⟩ := bind_eq_ok hanswer
    cases hanswer
    rcases hup with hup | hup
    · cases hup
    · cases hup

theorem handleConnection_oneLine_iff_golden :
    OneLineLog (ServerText goldenHttp ⟨none,none⟩ [goldenKey] versionConn) (fun _ => true)
      (goldenTrace versionConn) :=
  (handleConnection_oneLine_iff (fun _ => true) goldenHttp ⟨none,none⟩ 1 .default [goldenKey]
    (.new goldenIp 40000) false true versionConn id fun _ => 1700000090).1 (fun _ => version_exposed) 3

private theorem golden_server {conn : RawConn} (hconn : conn.errors = []) {t : Text}
    (h : ServerText goldenHttp ⟨none,none⟩ [goldenKey] conn t) : Unbroken t := by
  cases h with
  | label hkey =>
    rw [List.mem_singleton.mp hkey]
    decide
  | timeout he => cases he
  | tls he => cases he
  | transport he =>
    rw [hconn] at he
    cases he
  | webSocket he =>
    have hmessage : Unbroken "Connection closed normally" := by decide
    rw [List.mem_singleton.mp he]
    exact hmessage

private theorem golden_breaks {conn : RawConn} (hconn : conn.errors = []) {record : LogRecord}
    (hrecord : .logged record ∈ goldenTrace conn) (hsevere : record.level.isSevere)
    (hbroken : ¬Unbroken record.text) :
    ¬OneLineLog (ServerText goldenHttp ⟨none,none⟩ [goldenKey] conn) (fun _ => true)
      (goldenTrace conn) := by
  intro hlines
  have hline := (hlines record hrecord hsevere).unbroken fun t ht => golden_server hconn ht
  exact hbroken (LogRecord.unbroken_of_render _ hline)

theorem handleConnection_forges_line :
    ¬OneLineLog (ServerText goldenHttp ⟨none,none⟩ [goldenKey] forgingConn) (fun _ => true)
        (goldenTrace forgingConn) ∧
      ¬OneLineLog (ServerText goldenHttp ⟨none,none⟩ [goldenKey] forgingTokenConn) (fun _ => true)
        (goldenTrace forgingTokenConn) := by
  constructor
  · have hrecord : .logged ⟨.info,"[conn 1] ip check A\nB /ip -> 405",none⟩ ∈ goldenTrace forgingConn := by
      decide +kernel
    exact golden_breaks rfl hrecord rfl (by decide)
  · have hrecord : .logged ⟨.error,"[conn 1] token rejected: HMAC mismatch for uuid=f71d53f4-c67c-4b99-b319-979f714cd40\r",none⟩ ∈
        goldenTrace forgingTokenConn := by
      decide +kernel
    exact golden_breaks rfl hrecord rfl (by decide)

end Rmbtd
