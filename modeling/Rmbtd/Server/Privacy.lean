import Rmbtd.Server.Alike
import Rmbtd.Server.EventTrail

/-!
# Privacy

Without full addresses in the log, two clients of one network that do the same cannot be told apart
by the log at info or above and the events, if the checks of their tokens and the NAT types they are
told are the same. The one verdict that would show an address is that a token was issued for another
one.
-/

namespace Rmbtd

open Effect Session Watching

/-- `tungstenite` reads messages from what the client sends and gives access to the connection. -/
def KeepsWire (http : HttpEnv) : Prop :=
  ∀ a b conn conn', SameWire a b conn conn' →
    SameFrames a b (http.fromRawSocket conn) (http.fromRawSocket conn')

namespace Alike

section
variable {http : HttpEnv} {setup : Setup} {connId : Nat} {config : Config} {keys : List SecretKey}
  {isTls : Bool} {conn : RawConn} {a b : Option SocketAddr} {pre : List Event} {w w' : World Stream}

private theorem onTransport (hraw : KeepsWire http) (hpeers : a.isSome = b.isSome)
    (hw : Alike (SameStream a b) pre w w') (hconn : w.stream = .raw conn)
    (hanswer : ∀ body p p', Posts conn body → a = some p → b = some p' →
      SameAnswer http.env.crypto http.fromSlice keys connId (w.wall 0) p.ip p'.ip body) (addHsts : Bool) :
    Matched (Alike (SameStream a b) pre) Eq
      (onTransport http (Rmbtd.detectAndUpgrade http keys connId addHsts) w)
      (onTransport http (Rmbtd.detectAndUpgrade http keys connId addHsts) w') := by
  have hstream := hw.stream
  rw [hconn] at hstream
  cases hconn' : w'.stream with
  | webSocket ws =>
    rw [hconn'] at hstream
    cases hstream
  | raw conn' =>
    rw [hconn'] at hstream
    cases hstream with
    | raw hwire =>
      have hsame : Alike (SameWire a b) pre { w with stream := conn } { w' with stream := conn' } :=
        { hw with stream := hwire }
      have h := detectAndUpgrade http keys connId addHsts hpeers hsame hanswer
      unfold Rmbtd.onTransport
      rw [hconn,hconn']
      dsimp only
      generalize Rmbtd.detectAndUpgrade http keys connId addHsts { w with stream := conn } = r at h ⊢
      generalize Rmbtd.detectAndUpgrade http keys connId addHsts { w' with stream := conn' } = r' at h ⊢
      cases h with
      | error hr => exact .error { hr with stream := .raw hr.stream }
      | @ok upgrade _ v v' hv hr =>
        cases hv
        refine .ok rfl { hr with stream := ?_ }
        cases upgrade with
        | webSocket => exact .webSocket (hraw a b _ _ hr.stream)
        | raw => exact .raw hr.stream
        | ipCheck summary => exact .raw hr.stream
        | version summary => exact .raw hr.stream

private theorem afterUpgrade (hw : Alike (SameStream a b) pre w w') (sink : Sink) (fuel : Nat)
    (htoken : ∀ token next, Presents http.env w.stream token next → config.checkToken = true →
      SameCheck http.env connId config keys a b token) :
    let session : Session Stream (Finish × Option Greeting) := do
      log .debug (connTag connId ++ "upgraded to " ++ (← get).stream.kindName)
      let (reason,greeting) ← Rmbtd.serveStream http.env connId config keys sink fuel
      return (.served reason,greeting)
    Matched (Alike (SameStream a b) pre) Eq (session w) (session w') := by
  intro session
  have hlogged : Alike (SameStream a b) pre
      { w with trace := w.trace ++ [.logged ⟨.debug,connTag connId ++ "upgraded to " ++ w.stream.kindName,none⟩] }
      { w' with trace := w'.trace ++
        [.logged ⟨.debug,connTag connId ++ "upgraded to " ++ w'.stream.kindName,none⟩] } := hw.adds rfl
  apply (Alike.serveStream sink fuel hlogged htoken).bind fun _ _ hw => hw
  rintro r _ w₁ w₁' - - rfl hw₁
  exact .ok rfl hw₁

theorem serveTransport (hraw : KeepsWire http) (hpeers : a.isSome = b.isSome)
    (hw : Alike (SameStream a b) pre w w') (hconn : w.stream = .raw conn) (hopen : setup.Opens isTls)
    (htoken : ∀ token next, Reaches http setup connId config keys isTls conn token next →
      config.checkToken = true → SameCheck http.env connId config keys a b token)
    (hanswer : ∀ body p p', Posts conn body → a = some p → b = some p' →
      SameAnswer http.env.crypto http.fromSlice keys connId (w.wall 0) p.ip p'.ip body)
    (sink : Sink) (fuel : Nat) :
    Matched (Alike (SameStream a b) pre) Eq (serveTransport http connId config keys isTls sink fuel w)
      (serveTransport http connId config keys isTls sink fuel w') := by
  have hrecord (level : Level) (text : Text) (r : Finish × Option Greeting) {w w' : World Stream}
      (hw : Alike (SameStream a b) pre w w') : Matched (Alike (SameStream a b) pre) Eq
        ((do log level text; return r : Session Stream (Finish × Option Greeting)) w)
        ((do log level text; return r : Session Stream (Finish × Option Greeting)) w') := by
    apply Simulates.matched ?_ never hw
    exact (emit _).bind fun _ _ _ => .pure rfl
  unfold Rmbtd.serveTransport
  apply (attempt (onTransport hraw hpeers hw hconn hanswer (isTls && config.hsts))).bind fun _ _ hw => hw
  rintro outcome _ w₁ w₁' hrun - rfl hw₁
  have hreaches {upgrade : Upgrade} (hup : upgrade = .raw ∨ upgrade = .webSocket)
      (houtcome : outcome = .ok upgrade) (token : Text) (next : Stream)
      (h : Presents http.env w₁.stream token next) :
      Reaches http setup connId config keys isTls conn token next := by
    rw [houtcome] at hrun
    obtain ⟨buf,rest,hread,hupgrades,-⟩ := upgraded hconn hup (attempt_eq_ok hrun)
    exact ⟨hopen,buf,rest,w₁.stream,hread,hupgrades,h⟩
  cases outcome with
  | error e =>
    dsimp only
    cases isClientDisconnect e with
    | true => exact hrecord _ _ _ hw₁
    | false => exact hrecord _ _ _ hw₁
  | ok upgrade =>
    cases upgrade with
    | ipCheck summary => exact hrecord _ _ _ hw₁
    | version summary => exact hrecord _ _ _ hw₁
    | raw =>
      apply afterUpgrade hw₁ sink fuel
      exact fun token next h => htoken token next (hreaches (Or.inl rfl) rfl token next h)
    | webSocket =>
      apply afterUpgrade hw₁ sink fuel
      exact fun token next h => htoken token next (hreaches (Or.inr rfl) rfl token next h)

theorem runSession (hraw : KeepsWire http) (hpeers : a.isSome = b.isSome)
    (hw : Alike (SameStream a b) pre w w') (hconn : w.stream = .raw conn)
    (htoken : ∀ token next, Reaches http setup connId config keys isTls conn token next →
      config.checkToken = true → SameCheck http.env connId config keys a b token)
    (hanswer : setup.Opens isTls → ∀ body p p', Posts conn body → a = some p → b = some p' →
      SameAnswer http.env.crypto http.fromSlice keys connId (w.wall 0) p.ip p'.ip body)
    (sink : Sink) (fuel : Nat) :
    Matched (Alike (SameStream a b) pre) Eq (runSession http setup connId config keys isTls sink fuel w)
      (runSession http setup connId config keys isTls sink fuel w') := by
  have hopening : Simulates (Alike (SameStream a b) pre) Never Eq (openTransport setup connId isTls)
      (openTransport setup connId isTls) := by
    have hrecord (level : Level) (text : Text) (finish : Finish) :
        Simulates (Alike (SameStream a b) pre) Never Eq
          (do log level text; return some finish : Session Stream (Option Finish))
          (do log level text; return some finish : Session Stream (Option Finish)) :=
      (emit _).bind fun _ _ _ => .pure rfl
    unfold openTransport
    cases setup.timeoutError with
    | some e => exact hrecord _ _ _
    | none =>
      cases isTls with
      | false => exact .pure rfl
      | true =>
        simp only [if_true]
        cases setup.tls with
        | none => exact hrecord _ _ _
        | some error =>
          cases error with
          | some e => exact hrecord _ _ _
          | none => exact .pure rfl
  unfold Rmbtd.runSession
  apply (hopening.matched never hw).bind fun _ _ hw => hw
  rintro finish _ w₁ w₁' hrun - rfl hw₁
  obtain ⟨_,-,hstream,hwall,-,-,hopen⟩ := openTransport_course.returns hrun
  cases finish with
  | some finish => exact .ok rfl hw₁
  | none =>
    have hopen := hopen.mp rfl
    apply serveTransport hraw hpeers hw₁ (hstream.trans hconn) hopen htoken ?_ sink fuel
    rw [hwall]
    exact hanswer hopen

end

end Alike

/-! ## The connection -/

def RawConn.withClient (conn : RawConn) (addr : SocketAddr) : RawConn :=
  { conn with peer := conn.peer.map fun _ => addr }

/-- Nothing the client sends tells the addresses apart: the check of its token gives the same for
both, and not that the token was issued for another address, and so does the answer to `/ip`. -/
structure Indistinct (http : HttpEnv) (setup : Setup) (connId : Nat) (config : Config)
    (keys : List SecretKey) (isTls : Bool) (conn : RawConn) (wall : Nat → Int64) (a b : SocketAddr) :
    Prop where
  token : conn.peer.isSome → config.checkToken = true → ∀ token next,
    Reaches http setup connId config keys isTls (conn.withClient a) token next →
    let verdict (addr : SocketAddr) := (validateToken http.env.crypto token keys connId (some addr.ip)
      config.v2Only ⟨wall 0,wall 1⟩).val
    verdict a = verdict b ∧ verdict a ≠ .invalidIp
  answer : conn.peer.isSome → setup.Opens isTls → ∀ body, Posts (conn.withClient a) body →
    SameAnswer http.env.crypto http.fromSlice keys connId (wall 0) a.ip b.ip body

/-- The sessions are alike and have sent the same. -/
structure SameSession (a b : Option SocketAddr) (s s' : Watched) : Prop where
  world : Alike (SameStream a b) [] s.world s'.world
  sent : s.sent = s'.sent

namespace SameSession

variable {a b : Option SocketAddr} {α : Type}

theorem part {m : Session Stream α} {s s' : Watched} (htrace : s'.world.trace = s.world.trace)
    (hsent : s.sent = s'.sent)
    (h : Matched (Alike (SameStream a b) s.world.trace) Eq (m s.world) (m s'.world)) :
    Matched (SameSession a b) Eq (inSession m s) (inSession m s') := by
  have hworld {w w' : World Stream} (hw : Alike (SameStream a b) s.world.trace w w') :
      Alike (SameStream a b) [] w w' := by
    obtain ⟨tr,tr',htr,htr',hshown⟩ := hw.trace
    refine { hw with trace := ⟨s.world.trace ++ tr,s.world.trace ++ tr',htr,htr',?_⟩ }
    rw [shown_append,shown_append,hshown]
  have hsame {w w' : World Stream} {tr tr' : List Event} (hw : Alike (SameStream a b) s.world.trace w w')
      (hshown : shown tr = shown tr') : SameSession a b ⟨w,s.sent ++ (authEvents tr).map .auth⟩
        ⟨w',s'.sent ++ (authEvents tr').map .auth⟩ := by
    refine ⟨hworld hw,?_⟩
    rw [← authEvents_shown tr,hshown,authEvents_shown,hsent]
  cases hm : m s.world with
  | ok x w =>
    cases hm' : m s'.world with
    | ok x' w' =>
      rw [hm,hm'] at h
      cases h with
      | ok hx hw =>
        obtain ⟨tr,tr',htr,htr',hshown⟩ := hw.trace
        rw [inSession_ok hm htr,inSession_ok hm' (htr'.trans (by rw [htrace]))]
        exact .ok hx (hsame hw hshown)
    | error stop' w' =>
      rw [hm,hm'] at h
      cases h
  | error stop w =>
    cases hm' : m s'.world with
    | ok x' w' =>
      rw [hm,hm'] at h
      cases h
    | error stop' w' =>
      rw [hm,hm'] at h
      cases h with
      | error hw =>
        obtain ⟨tr,tr',htr,htr',hshown⟩ := hw.trace
        rw [inSession_error hm htr,inSession_error hm' (htr'.trans (by rw [htrace]))]
        exact .error (hsame hw hshown)

theorem step {m : Session Stream α} (h : ∀ w w', Alike (SameStream a b) [] w w' → ∃ x v v' tr,
      m w = .ok x v ∧ m w' = .ok x v' ∧ v.trace = w.trace ++ tr ∧ v'.trace = w'.trace ++ tr ∧
        authEvents tr = [] ∧ Alike (SameStream a b) [] v v') :
    Simulates (SameSession a b) Never Eq (inSession m) (inSession m) := by
  apply Simulates.of_matched
  intro s s' hs
  obtain ⟨x,v,v',tr,hm,hm',htr,htr',hquiet,hv⟩ := h _ _ hs.world
  rw [inSession_ok hm htr,inSession_ok hm' htr']
  refine .ok rfl ⟨hv,?_⟩
  rw [hquiet,hs.sent]

theorem send (event : SinkEvent) :
    Simulates (SameSession a b) Never Eq (Watching.send event) (Watching.send event) :=
  fun _ _ hs => ⟨(),_,rfl,rfl,hs.world,congrArg (· ++ [event]) hs.sent⟩

theorem log (level : Level) (text : Text) : Simulates (SameSession a b) Never Eq
    (inSession (Session.log level text)) (inSession (Session.log level text)) :=
  step fun _ _ hw => ⟨(),_,_,_,rfl,rfl,rfl,rfl,rfl,hw.adds rfl⟩

theorem elapsed (start : Nat) : Simulates (SameSession a b) Never Eq
    (inSession (Session.elapsed start)) (inSession (Session.elapsed start)) := by
  apply step
  intro w w' hw
  refine ⟨w.instants 0 - start,_,{ w' with instants := fun i => w'.instants (i+1) },[],rfl,?_,
    (List.append_nil _).symm,(List.append_nil _).symm,rfl,
    { hw with instants := congrArg (fun f i => f (i+1)) hw.instants }⟩
  rw [hw.instants]
  rfl

theorem stats : Simulates (SameSession a b) Never Eq (inSession Session.stats) (inSession Session.stats) := by
  apply step
  intro w w' hw
  refine ⟨w.stats,w,w',[],rfl,?_,(List.append_nil _).symm,(List.append_nil _).symm,rfl,hw⟩
  rw [hw.stats]
  rfl

theorem logClosing (connId : Nat) (finish : Finish) (greeting : Option Greeting) :
    Simulates (SameSession a b) Never Eq (inSession (Rmbtd.logClosing connId finish greeting))
      (inSession (Rmbtd.logClosing connId finish greeting)) := by
  cases greeting with
  | none => exact log _ _
  | some greeting => exact log _ _

section
variable {http : HttpEnv} {setup : Setup} {connId : Nat} {config : Config} {keys : List SecretKey}
  {isTls : Bool} {conn : RawConn}

private theorem watchedSession {s s' : Watched} (hraw : KeepsWire http) (hpeers : a.isSome = b.isSome)
    (htrace : s'.world.trace = s.world.trace) (hsent : s.sent = s'.sent)
    (hworld : Alike (SameStream a b) s.world.trace s.world s'.world) (hconn : s.world.stream = .raw conn)
    (htoken : ∀ token next, Reaches http setup connId config keys isTls conn token next →
      config.checkToken = true → Alike.SameCheck http.env connId config keys a b token)
    (hanswer : setup.Opens isTls → ∀ body p p', Posts conn body → a = some p → b = some p' →
      SameAnswer http.env.crypto http.fromSlice keys connId (s.world.wall 0) p.ip p'.ip body)
    (sink : Sink) (start fuel : Nat) :
    Matched (SameSession a b) Eq
      (watchedSession http setup connId config keys isTls sink start fuel s)
      (watchedSession http setup connId config keys isTls sink start fuel s') := by
  unfold Rmbtd.watchedSession
  have hsession := Alike.runSession hraw hpeers hworld hconn htoken hanswer sink fuel
  apply (part htrace hsent hsession).bind fun _ _ hs => hs
  rintro ⟨finish,greeting⟩ _ s₁ s₁' - - rfl hs₁
  have hclosing : Simulates (SameSession a b) Never Eq
      (do inSession (Rmbtd.logClosing connId finish greeting); return finish : Watching Finish)
      (do inSession (Rmbtd.logClosing connId finish greeting); return finish : Watching Finish) :=
    (logClosing connId finish greeting).bind fun _ _ _ => .pure rfl
  apply Simulates.matched ?_ Alike.never hs₁
  cases sink.enabled with
  | false => exact hclosing
  | true =>
    apply (elapsed start).bind
    rintro duration _ rfl
    apply stats.bind
    rintro stats _ rfl
    exact (send _).bind fun _ _ _ => hclosing

end

end SameSession

section
variable {http : HttpEnv} {setup : Setup} {connId : Nat} {config : Config} {keys : List SecretKey}
  {isTls : Bool} {conn : RawConn} {wall : Nat → Int64} {a b : SocketAddr}

private theorem Indistinct.sameCheck
    (h : Indistinct http setup connId config keys isTls conn wall a b) {token : Text} {next : Stream}
    (hreaches : Reaches http setup connId config keys isTls (conn.withClient a) token next)
    (hcheck : config.checkToken = true) : Alike.SameCheck http.env connId config keys
      (conn.peer.map fun _ => a) (conn.peer.map fun _ => b) token := by
  intro clock
  cases hpeer : conn.peer with
  | none => exact ⟨rfl,rfl⟩
  | some peer =>
    obtain ⟨hsame,hip⟩ := h.token (by rw [hpeer]; rfl) hcheck token next hreaches
    exact validateToken_same hsame hip clock

end

/-- Without full addresses in the log, the log at info or above and the events are the same for two
addresses of one network that nothing the client sends tells apart. -/
theorem handleWithSink_private (http : HttpEnv) (hraw : KeepsWire http) (setup : Setup) (connId : Nat)
    (config : Config) (keys : List SecretKey) (hlog : config.logFullIp = false) (a b : SocketAddr)
    (hnetwork : a.ip.writtenNetwork = b.ip.writtenNetwork) (isTls sinkEnabled : Bool) (conn : RawConn)
    (instants : Nat → Nat) (wall : Nat → Int64)
    (hsame : Indistinct http setup connId config keys isTls conn wall a b) (fuel : Nat) :
    let run (addr : SocketAddr) := handleWithSink http setup connId config keys addr isTls sinkEnabled fuel
      ⟨World.start (.raw (conn.withClient addr)) instants wall,[]⟩
    outcome (run a) = outcome (run b) ∧
      shown (final (run a)).world.trace = shown (final (run b)).world.trace ∧
      (final (run a)).sent = (final (run b)).sent := by
  intro run
  have hclient : clientLabel config a = clientLabel config b := by
    unfold clientLabel
    rw [hlog]
    exact (anonymiseAddr_eq_iff a b).mpr hnetwork
  have hmatched : Matched (SameSession (conn.peer.map fun _ => a) (conn.peer.map fun _ => b)) Eq
      (run a) (run b) := by
    unfold run
    rw [handleWithSink_eq,handleWithSink_eq,hclient]
    apply SameSession.watchedSession hraw
    · rw [Option.isSome_map,Option.isSome_map]
    · rfl
    · rfl
    · exact ⟨.raw ⟨rfl,rfl,rfl,rfl,rfl⟩,rfl,rfl,rfl,rfl,Nat.le_refl minChunkSize,[],[],rfl,rfl,rfl⟩
    · rfl
    · exact fun token next hreaches hcheck => hsame.sameCheck hreaches hcheck
    · intro hopen body p p' hposts hp hp'
      cases hpeer : conn.peer with
      | none =>
        rw [hpeer] at hp
        cases hp
      | some peer =>
        rw [hpeer] at hp hp'
        cases hp
        cases hp'
        exact hsame.answer (by rw [hpeer]; rfl) hopen body hposts
  generalize run a = r at hmatched ⊢
  generalize run b = r' at hmatched ⊢
  have hshown {s s' : Watched}
      (h : SameSession (conn.peer.map fun _ => a) (conn.peer.map fun _ => b) s s') :
      shown s.world.trace = shown s'.world.trace ∧ s.sent = s'.sent := by
    obtain ⟨tr,tr',htr,htr',hshown⟩ := h.world.trace
    rw [htr,htr']
    exact ⟨hshown,h.sent⟩
  cases hmatched with
  | @ok finish _ s s' hfinish hs =>
    cases hfinish
    exact ⟨rfl,hshown hs⟩
  | error hs => exact ⟨rfl,hshown hs⟩

/-! ## Examples of runs -/

def neighbourIp : IpAddr := .v4 ⟨#v[62,1,2,4]⟩

/-- A client whose token was issued for another address. -/
def strayConn : RawConn := { goldenConn with
  input := utf8 ("GET / HTTP/1.1\r\nUpgrade: rmbt\r\n\r\n".toList ++
    "TOKEN a_#v2#ZVPxAEzErM6+VBk3AAAAAA==\n".toList) }

def localConn : RawConn := { goldenConn with
  input := utf8 ("POST /ip HTTP/1.1\r\nContent-Type: application/json\r\nContent-Length: 30\r\n\r\n".toList ++
    "\x7b\"client_ip_local\":\"62.1.2.3\"\x7d".toList) }

def runFrom (conn : RawConn) (fuel : Nat) (ip : IpAddr) : EStateM.Result Stop Watched Finish :=
  handleWithSink goldenHttp ⟨none,none⟩ 1 .default [goldenKey] (.new ip 40000) false true fuel
    ⟨World.start (.raw (conn.withClient (.new ip 40000))) id fun _ => 1699999990,[]⟩

def checkResults (tr : List Event) : List TokenResult :=
  tr.filterMap fun e => match e with
    | .tokenChecked _ _ _ _ result => some result
    | _ => none

private theorem reaches_token {conn : RawConn} {ip : IpAddr} {token : Text} {next : Stream}
    (token' : Text) (fuel : Nat) (hlines : (match runFrom conn fuel ip with
      | .ok _ s => s.world.trace.all fun e => match e with
        | .received line => (stripPrefix "TOKEN " line).all fun rest => decide (trim rest = token')
        | _ => true
      | .error _ _ => false) = true)
    (h : Reaches goldenHttp ⟨none,none⟩ 1 .default [goldenKey] false (conn.withClient (.new ip 40000)) token
      next) : token = token' := by
  have hcourse := handleWithSink_course goldenHttp ⟨none,none⟩ 1 .default [goldenKey] false
    (w := World.start (.raw (conn.withClient (.new ip 40000))) id fun _ => 1699999990) (.new ip 40000) rfl fuel
  unfold runFrom at hlines
  generalize handleWithSink goldenHttp ⟨none,none⟩ 1 .default [goldenKey] (.new ip 40000) false true fuel
      ⟨World.start (.raw (conn.withClient (.new ip 40000))) id fun _ => 1699999990,[]⟩ = r at hlines hcourse
  cases r with
  | error stop s => cases hlines
  | ok finish s =>
    obtain ⟨tr,greeting,-,-,htr,hfinished,-⟩ := hcourse
    have htrace : s.world.trace = tr := htr
    dsimp only at hlines
    rw [htrace] at hlines
    have hshows {token₁ : Text} {result : Option TokenResult} {client : Text}
        (hshown : Shown 1 client .default token₁ result tr) : token₁ = token' := by
      obtain ⟨line,rest,hline,hrest,rfl⟩ := hshown.read
      have h := List.all_eq_true.mp hlines _ hline
      dsimp only at h
      rw [hrest] at h
      exact of_decide_eq_true h
    cases hfinished.course with
    | silent absent => exact absurd h (absent token next)
    | dismissed presented _ shown =>
      rw [(h.unique presented).1]
      exact hshows shown
    | greeted presented _ _ shown =>
      rw [(h.unique presented).1]
      exact hshows shown

theorem handleWithSink_private_golden :
    shown (final (runFrom tokenConn 5 goldenIp)).world.trace =
      shown (final (runFrom tokenConn 5 neighbourIp)).world.trace := by
  have hraw : KeepsWire goldenHttp := fun _ _ _ _ h => ⟨rfl,rfl,rfl,h.left,h.right⟩
  have hverdict :
      let verdict (ip : IpAddr) :=
        (validateToken goldenCrypto goldenToken [goldenKey] 1 (some ip) false ⟨1699999990,1699999990⟩).val
      verdict goldenIp = verdict neighbourIp ∧ verdict goldenIp ≠ .invalidIp := by decide +kernel
  have htarget : (match readHead maxHead [] (tokenConn.withClient (.new goldenIp 40000)) with
      | .ok buf _ => ipCheckMatches (requestTarget (fromUtf8Lossy buf))
      | .error _ _ => true) = false := by decide +kernel
  have hsame : Indistinct goldenHttp ⟨none,none⟩ 1 .default [goldenKey] false tokenConn
      (fun _ => 1699999990) (.new goldenIp 40000) (.new neighbourIp 40000) := by
    constructor
    · rintro - - token next hreaches
      rw [reaches_token goldenToken 5 (by decide +kernel) hreaches]
      exact hverdict
    · rintro - - body ⟨buf,next,head,hread,hmatches,-⟩
      rw [hread] at htarget
      cases hmatches.symm.trans htarget
  have hnetwork : goldenIp.writtenNetwork = neighbourIp.writtenNetwork := by decide
  obtain ⟨-,hshown,-⟩ := handleWithSink_private goldenHttp hraw ⟨none,none⟩ 1 .default [goldenKey] rfl
    (.new goldenIp 40000) (.new neighbourIp 40000) hnetwork false true tokenConn id (fun _ => 1699999990) hsame 5
  beta_reduce at hshown
  unfold runFrom
  exact hshown

theorem handleWithSink_shows_address :
    Config.default.logFullIp = false ∧ goldenIp.writtenNetwork = neighbourIp.writtenNetwork ∧
      ∀ conn ∈ [localConn,strayConn],
        let trace (ip : IpAddr) := (final (runFrom conn 5 ip)).world.trace
        checkResults (trace goldenIp) = checkResults (trace neighbourIp) ∧
          shown (trace goldenIp) ≠ shown (trace neighbourIp) := by
  decide +kernel

end Rmbtd
