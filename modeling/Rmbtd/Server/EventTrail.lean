import Rmbtd.Protocol.Termination
import Rmbtd.Server.GreetingCourse

/-!
# The event trail of a connection

Every connection that ends has sent the sink one `connect` event, at most one `auth` event and one
`close` event, in this order. The `close` event repeats what an `auth` event said about an admitted
token if and only if the two lines after the token reached the client.
-/

namespace Rmbtd

open Effect Session Watching HttpTransport

/-! ## The HTTP phase -/

/-- The program only logs, does not look at the clock and stops at I/O errors alone. -/
def OnlyLogs {α : Type} (m : Session RawConn α) : Prop :=
  ∀ w, (∃ records : List LogRecord, (final (m w)).trace = w.trace ++ records.map .logged) ∧
    (final (m w)).instants = w.instants ∧ ∀ stop w', m w = .error stop w' → ∃ e, stop = .io e

namespace OnlyLogs

variable {α β : Type}

theorem of_ok {m : Session RawConn α} (h : ∀ w, ∃ a w', m w = .ok a w' ∧ w'.instants = w.instants ∧
    ∃ records : List LogRecord, w'.trace = w.trace ++ records.map .logged) : OnlyLogs m := by
  intro w
  obtain ⟨a,w',hw,hinstants,htr⟩ := h w
  rw [hw]
  refine ⟨htr,hinstants,?_⟩
  rintro _ _ ⟨⟩

theorem pure (a : α) : OnlyLogs (Pure.pure a) := of_ok fun w => ⟨a,w,rfl,rfl,[],by simp⟩

theorem throwIo (e : IoError) : OnlyLogs (throw (.io e) : Session RawConn α) := by
  intro w
  refine ⟨⟨[],(List.append_nil _).symm⟩,rfl,?_⟩
  rintro _ _ ⟨⟩
  exact ⟨e,rfl⟩

theorem bind {m : Session RawConn α} {f : α → Session RawConn β} (hm : OnlyLogs m)
    (hf : ∀ a, OnlyLogs (f a)) : OnlyLogs (m >>= f) := by
  intro w
  obtain ⟨⟨records,htr⟩,hinstants,hstop⟩ := hm w
  cases hw : m w with
  | error stop w' =>
    rw [hw] at htr hinstants
    rw [bind_error hw]
    refine ⟨⟨records,htr⟩,hinstants,?_⟩
    rintro _ _ ⟨⟩
    exact hstop _ _ hw
  | ok a w' =>
    rw [hw] at htr hinstants
    rw [bind_ok hw]
    obtain ⟨⟨records',htr'⟩,hinstants',hstop'⟩ := hf a w'
    refine ⟨⟨records ++ records',?_⟩,hinstants'.trans hinstants,hstop'⟩
    rw [htr',show w'.trace = w.trace ++ records.map .logged from htr,List.map_append,List.append_assoc]

theorem onStream (m : EStateM IoError RawConn α) : OnlyLogs (Session.onStream m) := by
  intro w
  cases hm : m w.stream with
  | ok a s =>
    rw [onStream_ok hm]
    refine ⟨⟨[],by simp⟩,rfl,?_⟩
    rintro _ _ ⟨⟩
  | error e s =>
    rw [onStream_error hm]
    refine ⟨⟨[],by simp⟩,rfl,?_⟩
    rintro _ _ ⟨⟩
    exact ⟨e,rfl⟩

theorem log (level : Level) (text : Text) : OnlyLogs (Session.log level text) :=
  of_ok fun _ => ⟨(),_,rfl,rfl,[⟨level,text,none⟩],rfl⟩

theorem logged (m : Logged α) : OnlyLogs (Session.logged m) :=
  of_ok fun w => ⟨_,_,logged_eq m w,rfl,m.records,rfl⟩

theorem ignored (m : EStateM IoError RawConn Unit) : OnlyLogs (Rmbtd.ignored m) :=
  of_ok fun w => ⟨(),_,rfl,rfl,[],by simp⟩

section
variable (http : HttpEnv) (keys : List SecretKey) (connId : Nat) (req : Text) (addHsts : Bool)
  (head : RequestHead)

private theorem bodyReply (body : Bytes) (peer : SocketAddr) :
    OnlyLogs (HttpTransport.bodyReply http keys connId head body peer) := by
  unfold HttpTransport.bodyReply
  split
  · exact pure _
  · apply (of_ok fun w => ⟨_,_,rfl,rfl,[],by simp⟩ : OnlyLogs (nowSecs : Session RawConn Int64)).bind
    intro now
    apply (logged _).bind
    intro r
    cases r with
    | ok answer => exact pure _
    | error e => exact pure _

private theorem ipReply : OnlyLogs (HttpTransport.ipReply http keys connId head : Session RawConn IpReply) := by
  unfold HttpTransport.ipReply
  split
  · exact pure _
  split
  · unfold HttpTransport.postReply
    split
    · exact pure _
    split
    · exact (onStream _).bind fun _ => pure _
    · apply (onStream _).bind
      intro body
      split
      · exact throwIo _
      · apply (of_ok fun w => ⟨_,_,rfl,rfl,[],by simp⟩ : OnlyLogs (get : Session RawConn _)).bind
        intro w
        split
        · exact throwIo _
        · exact bodyReply http keys connId head body _
  · exact pure _

theorem handle : OnlyLogs (HttpTransport.handle http keys connId req addHsts : Session RawConn Text) := by
  have hanswer (head : RequestHead) : OnlyLogs (do
      HttpTransport.send head (← HttpTransport.ipReply http keys connId head) addHsts) :=
    (ipReply http keys connId head).bind fun _ =>
      (onStream _).bind fun _ => (onStream _).bind fun _ => pure _
  unfold HttpTransport.handle
  cases parseHead req with
  | error e => exact (throwIo e).bind hanswer
  | ok head => exact (pure head).bind hanswer

private theorem refuse (text : Text) (response : Bytes) (e : IoError) : OnlyLogs (do
    Session.log .debug text
    Rmbtd.ignored (HttpTransport.writeAll response)
    Rmbtd.ignored HttpTransport.flush
    throw (.io e) : Session RawConn Upgrade) :=
  (log _ _).bind fun _ => (ignored _).bind fun _ => (ignored _).bind fun _ => throwIo e

theorem answer : OnlyLogs (Rmbtd.answer http keys connId req addHsts : Session RawConn Upgrade) := by
  unfold Rmbtd.answer
  split
  · exact (handle http keys connId req addHsts).bind fun _ => pure _
  split
  · exact ((onStream _).bind fun _ => (onStream _).bind fun _ => pure _).bind fun _ => pure _
  split
  · exact refuse _ _ _
  dsimp only
  split
  · unfold webSocketHandshake
    split
    · exact throwIo _
    · exact (onStream _).bind fun _ => (onStream _).bind fun _ => pure _
  split
  · exact (onStream _).bind fun _ => pure _
  · exact refuse _ _ _

theorem detectAndUpgrade :
    OnlyLogs (Rmbtd.detectAndUpgrade http keys connId addHsts : Session RawConn Upgrade) :=
  (onStream _).bind fun buf => answer http keys connId (fromUtf8Lossy buf) addHsts

end

end OnlyLogs

/-! ## The session -/

private theorem tokenless_logged (records : List LogRecord) : Tokenless (records.map .logged) := by
  induction records with
  | nil => exact ⟨rfl,by simp⟩
  | cons record records ih => exact ⟨ih.auths,by simp⟩

section
variable {http : HttpEnv} {setup : Setup} {connId : Nat} {config : Config} {keys : List SecretKey}
  {isTls : Bool} {conn : RawConn} {sink : Sink} {w : World Stream}

variable (http setup connId config keys isTls conn) in
/-- The connection is upgraded to a stream on which the client presents the token. -/
def Reaches (token : Text) (next : Stream) : Prop :=
  setup.Opens isTls ∧ ∃ buf rest stream, readHead maxHead [] conn = .ok buf rest ∧
    Upgrades http keys connId (fromUtf8Lossy buf) (isTls && config.hsts) rest stream ∧
    Presents http.env stream token next

private theorem upgrades_unique {addHsts : Bool} {buf : Bytes} {rest : RawConn} {stream stream' : Stream}
    (hread : readHead maxHead [] conn = .ok buf rest)
    (h : Upgrades http keys connId (fromUtf8Lossy buf) addHsts rest stream)
    (h' : Upgrades http keys connId (fromUtf8Lossy buf) addHsts rest stream') : stream = stream' := by
  obtain ⟨_,-,hrun⟩ := h.run hread
  obtain ⟨_,-,hrun'⟩ := h'.run hread
  have hstart := (hrun (World.start (.raw conn) id fun _ => 0) rfl).symm.trans (hrun' _ rfl)
  exact congrArg World.stream (EStateM.Result.ok.inj hstart).2

theorem Reaches.unique {token token' : Text} {next next' : Stream}
    (h : Reaches http setup connId config keys isTls conn token next)
    (h' : Reaches http setup connId config keys isTls conn token' next') :
    token = token' ∧ next = next' := by
  obtain ⟨-,buf,rest,stream,hread,hupgrades,hpresents⟩ := h
  obtain ⟨-,buf',rest',stream',hread',hupgrades',hpresents'⟩ := h'
  rw [hread] at hread'
  cases hread'
  cases upgrades_unique hread hupgrades hupgrades'
  exact hpresents.unique hpresents'

/-- The session went its course, and its end is a failed authentication where its greeting failed
after a token. -/
structure Finished (reaches : Text → Stream → Prop) (verdict : Stream → Text → Option TokenResult)
    (connId : Nat) (client : Text) (config : Config) (tr : List Event)
    (r : Finish × Option Greeting) : Prop where
  course : Course reaches verdict connId client config tr r.2
  failed : (∃ token next, reaches token next) → r.2 = none → r.1 = .served .authFailed
  served : r.2 ≠ none → r.1.toText ≠ "auth_failed"

theorem openTransport_course : Adds (openTransport setup connId isTls) w
    (fun r w' tr => w'.stream = w.stream ∧ w'.wall = w.wall ∧ w'.instants = w.instants ∧ Tokenless tr ∧
      (r = none ↔ setup.Opens isTls)) fun _ _ => False := by
  have hrecord (level : Level) (text : Text) (finish : Finish) (hopen : ¬setup.Opens isTls) : Adds (do
      log level text
      return some finish : Session Stream (Option Finish)) w
      (fun r w' tr => w'.stream = w.stream ∧ w'.wall = w.wall ∧ w'.instants = w.instants ∧
        Tokenless tr ∧ (r = none ↔ setup.Opens isTls)) fun _ _ => False :=
    .log ⟨rfl,rfl,rfl,⟨rfl,by simp⟩,by simp [hopen]⟩
  unfold openTransport
  cases htimeout : setup.timeoutError with
  | some e => exact hrecord _ _ _ fun h => by simp [Setup.Opens,htimeout] at h
  | none =>
    cases isTls with
    | false => exact .pure ⟨rfl,rfl,rfl,⟨rfl,by simp⟩,by simp [Setup.Opens,htimeout]⟩
    | true =>
      simp only [if_true]
      cases htls : setup.tls with
      | none => exact hrecord _ _ _ fun h => by simp [Setup.Opens,htls] at h
      | some error =>
        cases error with
        | none => exact .pure ⟨rfl,rfl,rfl,⟨rfl,by simp⟩,by simp [Setup.Opens,htimeout,htls]⟩
        | some e => exact hrecord _ _ _ fun h => by simp [Setup.Opens,htls] at h

private theorem onTransport_course (hw : w.stream = .raw conn)
    (hno : ∀ buf rest stream, readHead maxHead [] conn = .ok buf rest →
      ¬Upgrades http keys connId (fromUtf8Lossy buf) (isTls && config.hsts) rest stream) :
    Adds (onTransport http (detectAndUpgrade http keys connId (isTls && config.hsts))) w
      (fun upgrade _ tr => Tokenless tr ∧ upgrade ≠ .raw ∧ upgrade ≠ .webSocket)
      (fun stop tr => Tokenless tr ∧ ∃ e, stop = .io e) := by
  obtain ⟨⟨records,htr⟩,-,hstop⟩ := OnlyLogs.detectAndUpgrade http keys connId (isTls && config.hsts)
    { w with stream := conn }
  have hhow (upgrade : Upgrade) (w' : World Stream) (hup : upgrade = .raw ∨ upgrade = .webSocket)
      (hrun : onTransport http (detectAndUpgrade http keys connId (isTls && config.hsts)) w =
        .ok upgrade w') : False := by
    obtain ⟨buf,rest,hread,hupgrades,-⟩ := upgraded hw hup hrun
    exact hno buf rest _ hread hupgrades
  unfold Adds
  unfold onTransport at hhow ⊢
  rw [hw] at hhow ⊢
  dsimp only at hhow ⊢
  cases hrun : detectAndUpgrade http keys connId (isTls && config.hsts) { w with stream := conn } with
  | error stop w' =>
    rw [hrun] at htr
    exact ⟨_,htr,tokenless_logged records,hstop stop w' hrun⟩
  | ok upgrade w' =>
    rw [hrun] at htr hhow
    refine ⟨_,htr,tokenless_logged records,?_,?_⟩
    · exact fun heq => hhow upgrade _ (Or.inl heq) rfl
    · exact fun heq => hhow upgrade _ (Or.inr heq) rfl

private theorem served_course (hsink : sink.enabled = true) (fuel : Nat) : Adds (do
      log .debug (connTag connId ++ "upgraded to " ++ (← get).stream.kindName)
      let (reason,greeting) ← serveStream http.env connId config keys sink fuel
      return (.served reason,greeting) : Session Stream (Finish × Option Greeting)) w
    (fun r _ tr => Finished (Presents http.env w.stream) (verdictOn http.env connId config keys w.clock)
      connId sink.client config tr r)
    (fun stop tr => stop = .outOfFuel ∧ (authEvents tr).length ≤ 1) := by
  have hget : (get : Session Stream (World Stream)) w = .ok w w := rfl
  apply Adds.bind (R := fun a w' tr => w = a ∧ w = w' ∧ tr = []) (F := fun _ _ => False)
  · exact .of_ok hget (by simp) ⟨rfl,rfl,rfl⟩
  · exact fun _ _ h => h.elim
  rintro _ _ _ ⟨rfl,rfl,rfl⟩
  apply Adds.bind (R := fun _ w' tr => w'.stream = w.stream ∧ w'.clock = w.clock ∧ Tokenless tr)
    (F := fun _ _ => False)
  · exact .emit ⟨rfl,rfl,rfl,by simp⟩
  · exact fun _ _ h => h.elim
  rintro _ w₁ tr₁ ⟨hstream,hclock,htr₁⟩
  apply (serveStream_course hsink fuel).bind
  · rintro stop tr ⟨rfl,hle⟩
    refine ⟨rfl,?_⟩
    rw [List.nil_append,authEvents_append,htr₁.auths]
    exact hle
  rintro ⟨reason,greeting⟩ w₂ tr₂ ⟨hcourse,hreason⟩
  rw [hstream,hclock] at hcourse
  refine .pure ⟨?_,?_,?_⟩
  · rw [List.nil_append,List.append_nil]
    exact hcourse.before htr₁
  · intro _ hnone
    exact congrArg Finish.served (hreason.mpr hnone)
  · intro hsome
    have hne : reason ≠ .authFailed := fun h => hsome (hreason.mp h)
    change reason.toText ≠ "auth_failed"
    cases reason with
    | authFailed => exact absurd rfl hne
    | quit => decide
    | disconnect => decide
    | error => decide

private theorem serveTransport_course (hsink : sink.enabled = true) (hopen : setup.Opens isTls)
    (hw : w.stream = .raw conn) (fuel : Nat) :
    Adds (serveTransport http connId config keys isTls sink fuel) w
      (fun r _ tr => Finished (Reaches http setup connId config keys isTls conn)
        (verdictOn http.env connId config keys w.clock) connId sink.client config tr r)
      (fun stop tr => stop = .outOfFuel ∧ (authEvents tr).length ≤ 1) := by
  by_cases hup : ∃ buf rest stream, readHead maxHead [] conn = .ok buf rest ∧
      Upgrades http keys connId (fromUtf8Lossy buf) (isTls && config.hsts) rest stream
  · obtain ⟨buf,rest,stream,hread,hupgrades⟩ := hup
    obtain ⟨upgrade,hkind,hrun⟩ := hupgrades.run hread
    have hattempt : attempt (onTransport http (detectAndUpgrade http keys connId
        (isTls && config.hsts))) w = .ok (.ok upgrade) { w with stream := stream } := by
      unfold attempt
      rw [hrun w hw]
    have hreaches (token : Text) (next : Stream) : Presents http.env stream token next ↔
        Reaches http setup connId config keys isTls conn token next := by
      constructor
      · exact fun h => ⟨hopen,buf,rest,stream,hread,hupgrades,h⟩
      · rintro ⟨-,buf',rest',stream',hread',hupgrades',h⟩
        rw [hread] at hread'
        cases hread'
        cases upgrades_unique hread hupgrades hupgrades'
        exact h
    have hafter : Adds (do
        log .debug (connTag connId ++ "upgraded to " ++ (← get).stream.kindName)
        let (reason,greeting) ← serveStream http.env connId config keys sink fuel
        return (.served reason,greeting) : Session Stream (Finish × Option Greeting))
        { w with stream := stream }
        (fun r _ tr => Finished (Reaches http setup connId config keys isTls conn)
          (verdictOn http.env connId config keys w.clock) connId sink.client config ([] ++ tr) r)
        (fun stop tr => stop = .outOfFuel ∧ (authEvents ([] ++ tr)).length ≤ 1) := by
      apply (served_course hsink fuel).mono
      · intro r _ tr h
        refine ⟨h.course.congr hreaches,?_,h.served⟩
        rintro ⟨token,next,hreach⟩
        exact h.failed ⟨token,next,(hreaches token next).mpr hreach⟩
      · exact fun _ _ h => h
    unfold serveTransport
    apply Adds.bind (R := fun outcome w' tr => outcome = .ok upgrade ∧ w' = { w with stream := stream } ∧
      tr = []) (F := fun _ _ => False)
    · exact .of_ok hattempt (by simp) ⟨rfl,rfl,rfl⟩
    · exact fun _ _ h => h.elim
    rintro _ _ _ ⟨rfl,rfl,rfl⟩
    rcases hkind with rfl | rfl
    · exact hafter
    · exact hafter
  · have hsilent (token : Text) (next : Stream) :
        ¬Reaches http setup connId config keys isTls conn token next := by
      rintro ⟨-,buf,rest,stream,hread,hupgrades,-⟩
      exact hup ⟨buf,rest,stream,hread,hupgrades⟩
    have hno (buf : Bytes) (rest : RawConn) (stream : Stream) (hread : readHead maxHead [] conn = .ok buf rest) :
        ¬Upgrades http keys connId (fromUtf8Lossy buf) (isTls && config.hsts) rest stream :=
      fun hupgrades => hup ⟨buf,rest,stream,hread,hupgrades⟩
    have hrecord {tr : List Event} (htr : Tokenless tr) (level : Level) (text : Text) (finish : Finish)
        (w' : World Stream) : Adds (do
          log level text
          return (finish,none) : Session Stream (Finish × Option Greeting)) w'
        (fun r _ tr' => Finished (Reaches http setup connId config keys isTls conn)
          (verdictOn http.env connId config keys w.clock) connId sink.client config (tr ++ tr') r)
        (fun stop tr' => stop = .outOfFuel ∧ (authEvents (tr ++ tr')).length ≤ 1) := by
      refine .log ⟨.silent hsilent (htr.append ⟨rfl,by simp⟩),?_,fun h => absurd rfl h⟩
      rintro ⟨token,next,hreach⟩
      exact absurd hreach (hsilent token next)
    unfold serveTransport
    apply (onTransport_course hw hno).attempt.bind
    · rintro stop tr ⟨hio,-,e,rfl⟩
      exact absurd rfl (hio e)
    intro outcome w₁ tr₁ houtcome
    cases outcome with
    | error e =>
      dsimp only
      split
      · exact hrecord houtcome.1 _ _ _ w₁
      · exact hrecord houtcome.1 _ _ _ w₁
    | ok upgrade =>
      obtain ⟨htr₁,hraw,hwebSocket⟩ := houtcome
      cases upgrade with
      | raw => exact absurd rfl hraw
      | webSocket => exact absurd rfl hwebSocket
      | ipCheck summary => exact hrecord htr₁ _ _ _ w₁
      | version summary => exact hrecord htr₁ _ _ _ w₁

theorem runSession_course (hsink : sink.enabled = true) (hw : w.stream = .raw conn) (fuel : Nat) :
    Adds (runSession http setup connId config keys isTls sink fuel) w
      (fun r _ tr => Finished (Reaches http setup connId config keys isTls conn)
        (verdictOn http.env connId config keys w.clock) connId sink.client config tr r)
      (fun stop tr => stop = .outOfFuel ∧ (authEvents tr).length ≤ 1) := by
  unfold runSession
  apply openTransport_course.bind
  · exact fun _ _ h => h.elim
  rintro finish w₁ tr₁ ⟨hstream,hwall,-,htr₁,hopen⟩
  cases finish with
  | some finish =>
    have hsilent (token : Text) (next : Stream) :
        ¬Reaches http setup connId config keys isTls conn token next :=
      fun hreach => Option.some_ne_none finish (hopen.mpr hreach.1)
    refine .pure ⟨.silent hsilent ?_,?_,fun h => absurd rfl h⟩
    · rw [List.append_nil]
      exact htr₁
    · rintro ⟨token,next,hreach⟩
      exact absurd hreach (hsilent token next)
  | none =>
    have hclock : w₁.clock = w.clock := by
      unfold World.clock
      rw [hwall]
    apply (serveTransport_course hsink (hopen.mp rfl) (hstream.trans hw) fuel).mono
    · rintro r _ tr ⟨hcourse,hfailed,hserved⟩
      rw [hclock] at hcourse
      exact ⟨hcourse.before htr₁,hfailed,hserved⟩
    · rintro stop tr ⟨rfl,hle⟩
      refine ⟨rfl,?_⟩
      rw [authEvents_append,htr₁.auths]
      exact hle

/-! ## The connection -/

variable (http setup connId config keys isTls) in
/-- What was sent of a connection, and the session it was sent about. -/
theorem handleWithSink_course (addr : SocketAddr) (hw : w.stream = .raw conn) (fuel : Nat) :
    match handleWithSink http setup connId config keys addr isTls true fuel ⟨w,[]⟩ with
    | .ok finish s => ∃ tr greeting duration stats, s.world.trace = w.trace ++ tr ∧
        Finished (Reaches http setup connId config keys isTls conn)
          (verdictOn http.env connId config keys w.clock) connId (clientLabel config addr) config tr
          (finish,greeting) ∧
        s.sent = .connect ⟨connId,clientLabel config addr,isTls⟩::((authEvents tr).map .auth ++
          [.close (closeEvent connId isTls greeting duration stats finish)])
    | .error stop s => stop = .outOfFuel ∧ ∃ tr, (authEvents tr).length ≤ 1 ∧
        s.sent = .connect ⟨connId,clientLabel config addr,isTls⟩::(authEvents tr).map .auth := by
  rw [handleWithSink_eq]
  obtain ⟨client,hclient⟩ : ∃ client, client = clientLabel config addr := ⟨_,rfl⟩
  rw [← hclient]
  obtain ⟨opening,hopening⟩ : ∃ opening : LogRecord,
      opening = ⟨.info,connTag connId ++ "connection from " ++ client,none⟩ := ⟨_,rfl⟩
  obtain ⟨w₁,hw₁⟩ : ∃ w₁ : World Stream, w₁ = { w with
    instants := fun i => w.instants (i+1)
    trace := w.trace ++ [.logged opening] } := ⟨_,rfl⟩
  rw [← hopening,← hw₁]
  unfold watchedSession
  simp only [if_true,List.nil_append]
  have hcourse : Adds (runSession http setup connId config keys isTls ⟨true,client⟩ fuel) w₁
      (fun r _ tr => Finished (Reaches http setup connId config keys isTls conn)
        (verdictOn http.env connId config keys w₁.clock) connId client config tr r)
      (fun stop tr => stop = .outOfFuel ∧ (authEvents tr).length ≤ 1) :=
    runSession_course rfl (hw₁ ▸ hw) fuel
  have hclock : w₁.clock = w.clock := by
    rw [hw₁]
    rfl
  rw [hclock] at hcourse
  unfold Adds at hcourse
  cases hrun : runSession http setup connId config keys isTls ⟨true,client⟩ fuel w₁ with
  | error stop w₂ =>
    rw [hrun] at hcourse
    obtain ⟨tr,htr,rfl,hle⟩ := hcourse
    rw [bind_error (inSession_error hrun htr)]
    exact ⟨rfl,tr,hle,rfl⟩
  | ok r w₂ =>
    rw [hrun] at hcourse
    obtain ⟨tr,htr,hfinished⟩ := hcourse
    obtain ⟨finish,greeting⟩ := r
    obtain ⟨closing,hclosing⟩ : ∃ closing, logClosing connId finish greeting { w₂ with
        instants := fun i => w₂.instants (i+1) } = .ok () { w₂ with
        instants := fun i => w₂.instants (i+1)
        trace := w₂.trace ++ [.logged closing] } := by
      cases greeting with
      | none => exact ⟨_,rfl⟩
      | some greeting => exact ⟨_,rfl⟩
    have helapsed (sent : List SinkEvent) : inSession (elapsed (w.instants 0)) ⟨w₂,sent⟩ =
        .ok (w₂.instants 0 - w.instants 0) ⟨{ w₂ with instants := fun i => w₂.instants (i+1) },sent⟩ :=
      silent_step rfl rfl
    have hstats (sent : List SinkEvent) : inSession stats
        ⟨{ w₂ with instants := fun i => w₂.instants (i+1) },sent⟩ =
        .ok w₂.stats ⟨{ w₂ with instants := fun i => w₂.instants (i+1) },sent⟩ := silent_step rfl rfl
    have hclose (event : SinkEvent) (s : Watched) : send event s =
        .ok () { s with sent := s.sent ++ [event] } := rfl
    rw [bind_ok (inSession_ok hrun htr)]
    dsimp only
    rw [bind_ok (helapsed _),bind_ok (hstats _),bind_ok (hclose _ _),
      bind_ok (quiet_step hclosing rfl rfl)]
    have hrecord (record : LogRecord) : Tokenless [.logged record] := ⟨rfl,by simp⟩
    refine ⟨[.logged opening] ++ (tr ++ [.logged closing]),greeting,w₂.instants 0 - w.instants 0,
      w₂.stats,?_,
      ⟨(hfinished.course.after rfl fun _ => hrecord closing).before (hrecord opening),
        hfinished.failed,hfinished.served⟩,?_⟩
    · change w₂.trace ++ [.logged closing] = _
      rw [htr,hw₁]
      simp
    · have hauths : authEvents ([.logged opening] ++ (tr ++ [.logged closing])) = authEvents tr := by
        rw [authEvents_append,authEvents_append,(hrecord opening).auths,(hrecord closing).auths,
          List.nil_append,List.append_nil]
      rw [hauths]
      simp

end

/-! ## The trail -/

/-- The event is about the token that was read, and says what the check of it gave. -/
def AuthEvent.IsFor (reaches : Text → Stream → Prop) (verdict : Stream → Text → Option TokenResult)
    (connId : Nat) (client : Text) (config : Config) (tr : List Event) (event : AuthEvent) : Prop :=
  ∃ token next, reaches token next ∧ Shown connId client config token (verdict next token) tr ∧
    event = authEventOn connId client token (verdict next token)

/-- The `close` event repeats what the `auth` event said of the token, and does not end in a failed
authentication. -/
structure CloseEvent.Repeats (close : CloseEvent) (event : AuthEvent) : Prop where
  uuid : close.uuid = event.uuid
  tokenType : close.tokenType = event.tokenType
  secret : close.secret = event.label.getD []
  ending : close.ending ≠ "auth_failed"

/-- The sink was sent one `connect` event, the `auth` event if a `TOKEN` line was read and one `close`
event. -/
structure Sends (reaches : Text → Stream → Prop) (verdict : Stream → Text → Option TokenResult)
    (connId : Nat) (client : Text) (config : Config) (isTls : Bool) (tr : List Event)
    (sent : List SinkEvent) (auth : Option AuthEvent) (close : CloseEvent) : Prop where
  sent : sent = .connect ⟨connId,client,isTls⟩::(auth.toList.map .auth ++ [.close close])
  shown : auth.isSome ↔ ∃ line, .received line ∈ tr ∧ IsTokenLine line
  isFor : ∀ event ∈ auth, event.IsFor reaches verdict connId client config tr
  connId : close.connId = connId

/-- The events of a connection, of which the last repeats that a token was admitted. -/
def Trail (reaches : Text → Stream → Prop) (verdict : Stream → Text → Option TokenResult)
    (connId : Nat) (client : Text) (config : Config) (isTls : Bool) (tr : List Event)
    (sent : List SinkEvent) : Prop :=
  ∃ auth close, Sends reaches verdict connId client config isTls tr sent auth close ∧
    ∀ event ∈ auth, event.result = "accepted" ∨ event.result = "not_checked" → close.Repeats event

/-- Whenever a token is admitted, the two lines after it can be written. -/
def Acknowledged (reaches : Text → Stream → Prop) (verdict : Stream → Text → Option TokenResult) :
    Prop :=
  ∀ token next, reaches token next → Admits (verdict next token) → Acknowledges next

theorem authEventOn_admitted {connId : Nat} {client token : Text} (verdict : Option TokenResult) :
    ((authEventOn connId client token verdict).result = "accepted" ∨
      (authEventOn connId client token verdict).result = "not_checked") ↔ Admits verdict := by
  cases verdict with
  | none => simp [authEventOn,Admits]
  | some result => cases result <;> simp [authEventOn,Admits]

theorem authEventOn_label {connId : Nat} {client token : Text} (verdict : Option TokenResult) :
    (authEventOn connId client token verdict).label.getD [] = admittedLabel verdict := by
  cases verdict with
  | none => rfl
  | some result => cases result <;> rfl

theorem authEventOn_token (connId : Nat) (client token : Text) (verdict : Option TokenResult) :
    (authEventOn connId client token verdict).uuid = uuidOf token ∧
      (authEventOn connId client token verdict).tokenType = tokenTypeOf token := by
  cases verdict with
  | none => exact ⟨rfl,rfl⟩
  | some result => cases result <;> exact ⟨rfl,rfl⟩

section
variable {reaches : Text → Stream → Prop} {verdict : Stream → Text → Option TokenResult} {connId : Nat}
  {client : Text} {config : Config} {isTls : Bool} {tr : List Event} {sent : List SinkEvent}

theorem Sends.unique {auth auth' : Option AuthEvent} {close close' : CloseEvent}
    (h : Sends reaches verdict connId client config isTls tr sent auth close)
    (h' : Sends reaches verdict connId client config isTls tr sent auth' close') :
    auth = auth' ∧ close = close' := by
  have hsent := h.sent.symm.trans h'.sent
  obtain ⟨hauth,hclose⟩ := List.append_inj' (List.cons.inj hsent).2 rfl
  refine ⟨?_,SinkEvent.close.inj (List.cons.inj hclose).1⟩
  have hinj : Function.Injective SinkEvent.auth := fun a b h => SinkEvent.auth.inj h
  have hlists := hinj.list_map hauth
  cases auth with
  | none =>
    cases auth' with
    | none => rfl
    | some event' => cases hlists
  | some event =>
    cases auth' with
    | none => cases hlists
    | some event' => rw [(List.cons.inj hlists).1]

theorem Shown.tokenLine {token : Text} {result : Option TokenResult}
    (h : Shown connId client config token result tr) : ∃ line, .received line ∈ tr ∧ IsTokenLine line := by
  obtain ⟨line,rest,hline,hrest,-⟩ := h.read
  exact ⟨line,hline,by rw [IsTokenLine,hrest]; rfl⟩

/-- A session that went its course leaves its trail if and only if an admitted token was
acknowledged. -/
theorem Finished.trail {finish : Finish} {greeting : Option Greeting} (duration : Nat) (stats : ConnStats)
    (h : Finished reaches verdict connId client config tr (finish,greeting))
    (hunique : ∀ token token' next next', reaches token next → reaches token' next' →
      token = token' ∧ next = next') :
    let sent := .connect ⟨connId,client,isTls⟩::((authEvents tr).map .auth ++
      [.close (closeEvent connId isTls greeting duration stats finish)])
    (∃ auth close, Sends reaches verdict connId client config isTls tr sent auth close) ∧
      (Trail reaches verdict connId client config isTls tr sent ↔ Acknowledged reaches verdict) := by
  intro sent
  obtain ⟨hcourse,hfailed,hserved⟩ := h
  obtain ⟨close,hclose⟩ : ∃ close, close = closeEvent connId isTls greeting duration stats finish :=
    ⟨_,rfl⟩
  have hid : close.connId = connId := by
    rw [hclose]
    rfl
  have hending : close.ending = finish.toText := by
    rw [hclose]
    rfl
  have hsends (auth : Option AuthEvent) (hauths : authEvents tr = auth.toList)
      (hshown : auth.isSome ↔ ∃ line, .received line ∈ tr ∧ IsTokenLine line)
      (hfor : ∀ event ∈ auth, event.IsFor reaches verdict connId client config tr) :
      Sends reaches verdict connId client config isTls tr sent auth close :=
    ⟨by rw [← hauths,hclose],hshown,hfor,hid⟩
  have htrail {auth : Option AuthEvent}
      (h : Sends reaches verdict connId client config isTls tr sent auth close) :
      Trail reaches verdict connId client config isTls tr sent ↔ ∀ event ∈ auth,
        event.result = "accepted" ∨ event.result = "not_checked" → close.Repeats event := by
    constructor
    · rintro ⟨auth',close',h',hrepeats⟩
      obtain ⟨rfl,rfl⟩ := h.unique h'
      exact hrepeats
    · exact fun hrepeats => ⟨auth,close,h,hrepeats⟩
  have htoken {token : Text} {next : Stream} (hreach : reaches token next)
      (hshown : Shown connId client config token (verdict next token) tr) :
      Sends reaches verdict connId client config isTls tr sent
        (some (authEventOn connId client token (verdict next token))) close := by
    apply hsends (some _) hshown.auths
    · simpa using hshown.tokenLine
    · rintro _ ⟨⟩
      exact ⟨token,next,hreach,hshown,rfl⟩
  have hacknowledged {token : Text} {next : Stream} (hreach : reaches token next) :
      Acknowledged reaches verdict ↔ (Admits (verdict next token) → Acknowledges next) := by
    constructor
    · exact fun h => h token next hreach
    · intro h token' next' hreach'
      obtain ⟨rfl,rfl⟩ := hunique _ _ _ _ hreach hreach'
      exact h
  cases hcourse with
  | silent absent tokenless =>
    have hsilent : Sends reaches verdict connId client config isTls tr sent none close := by
      apply hsends none tokenless.auths
      · simpa using tokenless.lines
      · exact fun event hevent => by cases hevent
    refine ⟨⟨none,close,hsilent⟩,?_⟩
    rw [htrail hsilent]
    constructor
    · exact fun _ token next hreach => absurd hreach (absent token next)
    · exact fun _ event hevent => by cases hevent
  | @dismissed token next presented ends shown =>
    have hdismissed := htoken presented shown
    refine ⟨⟨_,close,hdismissed⟩,?_⟩
    rw [htrail hdismissed,hacknowledged presented]
    constructor
    · intro hrepeats hadmits
      have hauthFailed : finish = .served .authFailed := hfailed ⟨token,next,presented⟩ rfl
      have hne := (hrepeats _ rfl ((authEventOn_admitted _).mpr hadmits)).ending
      rw [hending,hauthFailed] at hne
      exact absurd rfl hne
    · rintro hwrites _ ⟨⟩ hresult
      have hadmits := (authEventOn_admitted _).mp hresult
      exact absurd ⟨hadmits,hwrites hadmits⟩ ends
  | @greeted token next presented admits acknowledges shown =>
    have hgreeted := htoken presented shown
    refine ⟨⟨_,close,hgreeted⟩,?_⟩
    rw [htrail hgreeted,hacknowledged presented]
    constructor
    · exact fun _ _ => acknowledges
    · rintro - _ ⟨⟩ -
      obtain ⟨huuid,htype⟩ := authEventOn_token connId client token (verdict next token)
      rw [hclose]
      exact ⟨huuid.symm,htype.symm,(authEventOn_label _).symm,hserved nofun⟩

end

/-! ## The end of a connection -/

section
variable {http : HttpEnv} {setup : Setup} {connId : Nat} {config : Config} {keys : List SecretKey}
  {isTls : Bool} {conn : RawConn} {w : World Stream}

variable (http connId config keys isTls) in
private theorem upgrade_ends (hw : w.stream = .raw conn) : ∃ outcome w',
    attempt (onTransport http (detectAndUpgrade http keys connId (isTls && config.hsts))) w =
      .ok outcome w' ∧ w'.instants = w.instants := by
  obtain ⟨-,hinstants,hstop⟩ := OnlyLogs.detectAndUpgrade http keys connId (isTls && config.hsts)
    { w with stream := conn }
  unfold attempt onTransport
  rw [hw]
  dsimp only
  cases hrun : detectAndUpgrade http keys connId (isTls && config.hsts) { w with stream := conn } with
  | ok upgrade w' =>
    rw [hrun] at hinstants
    exact ⟨_,_,rfl,hinstants⟩
  | error stop w' =>
    obtain ⟨e,rfl⟩ := hstop stop w' hrun
    rw [hrun] at hinstants
    exact ⟨_,_,rfl,hinstants⟩

theorem runSession_ends (sink : Sink) (hw : w.stream = .raw conn) (hclock : Advancing w.instants) :
    Ends (fun fuel => runSession http setup connId config keys isTls sink fuel) w (fun _ _ => True)
      (· ≠ .outOfFuel) := by
  have hrecord (level : Level) (text : Text) (r : Finish × Option Greeting) (w : World Stream) :
      Ends (fun _ => (do log level text; return r) : Nat → Session Stream _) w (fun _ _ => True)
        (· ≠ .outOfFuel) := .const trivial
  have hserve {w : World Stream} (hclock : Advancing w.instants) : Ends (fun fuel => (do
      log .debug (connTag connId ++ "upgraded to " ++ (← get).stream.kindName)
      let (reason,greeting) ← serveStream http.env connId config keys sink fuel
      return (.served reason,greeting) : Session Stream (Finish × Option Greeting))) w
      (fun _ _ => True) (· ≠ .outOfFuel) := by
    apply Ends.bind (Q := fun _ w' => w'.instants = w.instants)
    · exact .const rfl
    intro _ w₁ hw₁
    apply Ends.bind (Q := fun _ w' => w'.instants = w.instants)
    · exact .const hw₁
    intro _ w₂ hw₂
    apply (serveStream_ends http.env connId config keys sink (hw₂ ▸ hclock)).bind
    exact fun _ _ _ => .pure trivial
  unfold runSession
  apply Ends.bind (Q := fun _ w' => w'.stream = w.stream ∧ w'.instants = w.instants)
  · apply Ends.const
    exact openTransport_course.endsIn (fun _ _ _ h => ⟨h.1,h.2.2.1⟩) fun _ _ h => h.elim
  rintro finish w₁ ⟨hstream,hinstants⟩
  cases finish with
  | some finish => exact .pure trivial
  | none =>
    obtain ⟨outcome,w₂,hrun,hw₂⟩ := upgrade_ends http connId config keys isTls (hstream.trans hw)
    dsimp only
    unfold serveTransport
    apply Ends.bind (Q := fun _ w' => w'.instants = w.instants)
    · apply Ends.const
      rw [hrun]
      exact hw₂.trans hinstants
    intro outcome w₃ hw₃
    cases outcome with
    | error e => exact .ite (fun _ => hrecord _ _ _ w₃) fun _ => hrecord _ _ _ w₃
    | ok upgrade =>
      cases upgrade with
      | ipCheck summary => exact hrecord _ _ _ w₃
      | version summary => exact hrecord _ _ _ w₃
      | raw => exact hserve (hw₃ ▸ hclock)
      | webSocket => exact hserve (hw₃ ▸ hclock)

variable (http setup connId config keys isTls) in
/-- A connection ends if the clock goes on. -/
theorem handleWithSink_ends (addr : SocketAddr) (sinkEnabled : Bool) (hw : w.stream = .raw conn)
    (hclock : Advancing w.instants) :
    Ends (fun fuel => handleWithSink http setup connId config keys addr isTls sinkEnabled fuel) ⟨w,[]⟩
      (fun _ _ => True) (· ≠ .outOfFuel) := by
  have hpart {α : Type} {m : Nat → Session Stream α} {s : Watched} {Q : α → World Stream → Prop}
      (hm : Ends m s.world Q (· ≠ .outOfFuel)) :
      Ends (fun fuel => inSession (m fuel)) s (fun a s' => Q a s'.world) (· ≠ .outOfFuel) := by
    apply hm.through (resultAfter s)
    · exact fun _ => rfl
    · intro r hr
      cases r with
      | ok a w' => exact hr
      | error stop w' => exact hr
  let start (w : World Stream) : Prop := w.stream = .raw conn ∧ Advancing w.instants
  have hsession {sink : Sink} {rest : Nat → Finish × Option Greeting → Watching Finish}
      (hrest : ∀ ns r s, EndsIn (fun _ _ => True) (· ≠ .outOfFuel) (rest ns r s)) {s : Watched}
      (hs : start s.world) : Ends (fun fuel => do
        let ns ← inSession instant
        let r ← inSession (runSession http setup connId config keys isTls sink fuel)
        rest ns r) s (fun _ _ => True) (· ≠ .outOfFuel) := by
    apply Ends.bind (Q := fun _ s => start s.world)
    · exact hpart (.const ⟨hs.1,hs.2.tail⟩)
    intro ns s₁ hs₁
    apply (hpart (runSession_ends sink hs₁.1 hs₁.2)).bind
    exact fun r s₂ _ => .const (hrest ns r s₂)
  unfold handleWithSink
  apply Ends.bind (Q := fun _ s => start s.world)
  · exact hpart (.const ⟨hw,hclock⟩)
  rintro _ s₁ hs₁
  cases sinkEnabled with
  | true =>
    simp only [if_true]
    apply Ends.bind (Q := fun _ s => start s.world)
    · exact .const hs₁
    rintro _ s₂ hs₂
    apply hsession ?_ hs₂
    rintro ns ⟨finish,greeting⟩ s
    cases greeting with
    | none => exact trivial
    | some greeting => exact trivial
  | false =>
    simp only [Bool.false_eq_true,if_false]
    apply hsession ?_ hs₁
    rintro ns ⟨finish,greeting⟩ s
    cases greeting with
    | none => exact trivial
    | some greeting => exact trivial

end

/-! ## Every connection -/

section
variable (http : HttpEnv) (setup : Setup) (connId : Nat) (config : Config) (keys : List SecretKey)

/-- A connection that ends has sent its events; they are its trail if and only if every admitted token
was acknowledged. It ends if the clock goes on, and until then only the `close` event is missing. -/
theorem handleWithSink_trail_iff (addr : SocketAddr) (isTls : Bool) (conn : RawConn)
    (instants : Nat → Nat) (wall : Nat → Int64) :
    let reaches := Reaches http setup connId config keys isTls conn
    let verdict := verdictOn http.env connId config keys ⟨wall 0,wall 1⟩
    let client := clientLabel config addr
    let run fuel := handleWithSink http setup connId config keys addr isTls true fuel
      ⟨World.start (.raw conn) instants wall,[]⟩
    (∀ fuel, match run fuel with
      | .ok _ s =>
        (∃ auth close, Sends reaches verdict connId client config isTls s.world.trace s.sent auth close) ∧
          (Trail reaches verdict connId client config isTls s.world.trace s.sent ↔
            Acknowledged reaches verdict)
      | .error stop s => stop = .outOfFuel ∧ ∃ auth : Option AuthEvent,
          s.sent = .connect ⟨connId,client,isTls⟩::auth.toList.map .auth) ∧
      (Advancing instants → ∃ finish s enough, ∀ fuel, enough ≤ fuel → run fuel = .ok finish s) := by
  intro reaches verdict client run
  have hstart : (World.start (.raw conn) instants wall : World Stream).stream = .raw conn := rfl
  have hcourse (fuel : Nat) := handleWithSink_course http setup connId config keys isTls addr hstart fuel
  constructor
  · intro fuel
    have h := hcourse fuel
    dsimp only [run]
    cases hrun : handleWithSink http setup connId config keys addr isTls true fuel
        ⟨World.start (.raw conn) instants wall,[]⟩ with
    | ok finish s =>
      rw [hrun] at h
      obtain ⟨tr,greeting,duration,stats,htr,hfinished,hsent⟩ := h
      have htrace : s.world.trace = tr := htr
      dsimp only
      rw [htrace,hsent]
      exact hfinished.trail duration stats fun _ _ _ _ hreach hreach' => hreach.unique hreach'
    | error stop s =>
      rw [hrun] at h
      obtain ⟨hstop,tr,hle,hsent⟩ := h
      refine ⟨hstop,(authEvents tr).head?,?_⟩
      rw [hsent]
      cases hevents : authEvents tr with
      | nil => rfl
      | cons event events =>
        rw [hevents] at hle
        cases events with
        | nil => rfl
        | cons event' events =>
          simp at hle
  · intro hclock
    obtain ⟨r,enough,hr,hrun⟩ := handleWithSink_ends http setup connId config keys isTls addr true hstart
      hclock
    have h := hcourse enough
    dsimp only at hrun
    rw [hrun enough (Nat.le_refl _)] at h
    cases r with
    | ok finish s => exact ⟨finish,s,enough,hrun⟩
    | error stop s => exact absurd h.1 hr

private theorem acknowledged_of_close {addr : SocketAddr} {isTls : Bool} {conn : RawConn} {instants : Nat → Nat}
    {wall : Nat → Int64} {fuel : Nat} {finish : Finish} {s : Watched} {close : CloseEvent}
    (hrun : handleWithSink http setup connId config keys addr isTls true fuel
      ⟨World.start (.raw conn) instants wall,[]⟩ = .ok finish s)
    (hclose : s.sent.getLast? = some (.close close)) (huuid : close.uuid ≠ []) :
    Acknowledged (Reaches http setup connId config keys isTls conn)
      (verdictOn http.env connId config keys ⟨wall 0,wall 1⟩) := by
  have hstart : (World.start (.raw conn) instants wall : World Stream).stream = .raw conn := rfl
  have hcourse := handleWithSink_course http setup connId config keys isTls addr hstart fuel
  rw [hrun] at hcourse
  obtain ⟨tr,greeting,duration,stats,-,hfinished,hsent⟩ := hcourse
  rw [hsent,← List.cons_append,List.getLast?_concat] at hclose
  obtain rfl := SinkEvent.close.inj (Option.some.inj hclose)
  cases hfinished.course with
  | silent => exact absurd rfl huuid
  | dismissed => exact absurd rfl huuid
  | greeted presented _ acknowledges _ =>
    intro token next hreaches _
    obtain ⟨-,rfl⟩ := presented.unique hreaches
    exact acknowledges

end

def tokenConn : RawConn := { goldenConn with
  input := utf8 ("GET / HTTP/1.1\r\nUpgrade: rmbt\r\n\r\nTOKEN ".toList ++ goldenToken ++ "\nQUIT\n".toList) }

def tokenRun (fuel : Nat) : EStateM.Result Stop Watched Finish :=
  handleWithSink goldenHttp ⟨none,none⟩ 1 .default [goldenKey] (.new goldenIp 40000) false true fuel
    ⟨World.start (.raw tokenConn) id fun _ => 1699999990,[]⟩

private theorem token_closed : (match tokenRun 5 with
    | .ok _ s => s.sent.getLast?
    | .error _ _ => none) =
      some (.close ⟨1,uuidOf goldenToken,"v1","default",false,1,.new,"quit"⟩) := by decide +kernel

theorem handleWithSink_trail_iff_golden : ∃ finish s, tokenRun 5 = .ok finish s ∧
    Trail (Reaches goldenHttp ⟨none,none⟩ 1 .default [goldenKey] false tokenConn)
      (verdictOn goldenEnv 1 .default [goldenKey] ⟨1699999990,1699999990⟩) 1 "62.1.2.*" .default false
      s.world.trace s.sent := by
  have hclosed := token_closed
  unfold tokenRun at hclosed ⊢
  generalize tokenConn = conn at hclosed ⊢
  have htrail := (handleWithSink_trail_iff goldenHttp ⟨none,none⟩ 1 .default [goldenKey] (.new goldenIp 40000) false
    conn id fun _ => 1699999990).1 5
  beta_reduce at htrail
  cases hrun : handleWithSink goldenHttp ⟨none,none⟩ 1 .default [goldenKey] (.new goldenIp 40000) false true 5
    ⟨World.start (.raw conn) id fun _ => 1699999990,[]⟩ with
  | error stop s =>
    rw [hrun] at hclosed
    cases hclosed
  | ok finish s =>
    rw [hrun] at hclosed htrail
    have huuid : uuidOf goldenToken ≠ [] := by decide
    have hacknowledged := acknowledged_of_close goldenHttp ⟨none,none⟩ 1 .default [goldenKey] hrun hclosed huuid
    exact ⟨finish,s,rfl,htrail.2.mpr hacknowledged⟩

/-- A client that is gone when its early token is acknowledged. -/
def earlyGoneConn : RawConn := { goldenConn with
  input := utf8 ("GET / HTTP/1.1\r\nUpgrade: rmbt\r\n\r\nTOKEN ".toList ++ goldenToken ++ ['\n'])
  faults := [none,none,none,some (0,⟨.brokenPipe,"broken pipe"⟩)] }

def goneRun (fuel : Nat) : EStateM.Result Stop Watched Finish :=
  handleWithSink goldenHttp ⟨none,none⟩ 1 .default [goldenKey] (.new goldenIp 40000) false true fuel
    ⟨World.start (.raw earlyGoneConn) id fun _ => 1699999990,[]⟩

private theorem gone_sent : (match goneRun 5 with
    | .ok _ s => s.sent
    | .error _ _ => []) = [.connect ⟨1,"62.1.2.*",false⟩,
      .auth ⟨1,"62.1.2.*",uuidOf goldenToken,"v1","accepted",some "default",none⟩,
      .close ⟨1,[],[],[],false,1,.new,"auth_failed"⟩] := by decide +kernel

theorem handleWithSink_trail_lost : ∃ finish s, goneRun 5 = .ok finish s ∧
    ¬Trail (Reaches goldenHttp ⟨none,none⟩ 1 .default [goldenKey] false earlyGoneConn)
      (verdictOn goldenEnv 1 .default [goldenKey] ⟨1699999990,1699999990⟩) 1 "62.1.2.*" .default false
      s.world.trace s.sent := by
  have hsent := gone_sent
  cases hrun : goneRun 5 with
  | error stop s =>
    rw [hrun] at hsent
    cases hsent
  | ok finish s =>
    rw [hrun] at hsent
    dsimp only at hsent
    refine ⟨finish,s,rfl,?_⟩
    rintro ⟨auth,close,hsends,hrepeats⟩
    have hevents := hsends.sent.symm.trans hsent
    cases auth with
    | none => cases hevents
    | some event =>
      obtain ⟨hevent,hclose⟩ := List.cons.inj (List.cons.inj hevents).2
      cases hevent
      cases hclose
      exact (hrepeats _ rfl (Or.inl rfl)).ending rfl

end Rmbtd
