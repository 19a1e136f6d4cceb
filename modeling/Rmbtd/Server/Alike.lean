import Rmbtd.Protocol.Disclosure
import Rmbtd.Server.GreetingCourse
import Rmbtd.Stream.UpgradeSimulation

/-!
# Sessions from two addresses

Two sessions whose clients send the same from different addresses. They are alike if they stand at
the same point and have shown the same: records at info or above and `auth` events. The address may
be in what was written to the client and in the other records.
-/

namespace Rmbtd

open Effect Session

/-! ## What is shown -/

/-- The event goes to the log at info or above, or to the sink. -/
def Event.isShown : Event → Bool
  | .logged record => record.level.isSevere
  | .auth _ => true
  | _ => false

def shown (tr : List Event) : List Event := tr.filter Event.isShown

@[simp] theorem shown_nil : shown [] = [] := rfl

@[simp] theorem shown_append (tr tr' : List Event) : shown (tr ++ tr') = shown tr ++ shown tr' :=
  List.filter_append ..

theorem shown_logged (records : List LogRecord) :
    shown (records.map .logged) = (records.filter (·.level.isSevere)).map .logged := by
  induction records with
  | nil => rfl
  | cons record records ih =>
    rw [List.map_cons,← List.singleton_append,shown_append,ih]
    by_cases h : record.level.isSevere
    · simp [shown,Event.isShown,h]
    · simp [shown,Event.isShown,h]

theorem authEvents_shown (tr : List Event) : authEvents (shown tr) = authEvents tr := by
  unfold authEvents shown
  rw [List.filterMap_filter]
  apply List.filterMap_congr
  intro e _
  cases e with
  | logged record =>
    change (if record.level.isSevere then none else none) = none
    split
    · rfl
    · rfl
  | _ => rfl

/-! ## Streams -/

/-- The clients do the same on both connections. What was written to them may differ. -/
structure SameWire (a b : Option SocketAddr) (conn conn' : RawConn) : Prop where
  input : conn.input = conn'.input
  inputEnd : conn.inputEnd = conn'.inputEnd
  faults : conn.faults = conn'.faults
  left : conn.peer = a
  right : conn'.peer = b

structure SameFrames (a b : Option SocketAddr) (ws ws' : WebSocket) : Prop where
  incoming : ws.incoming = ws'.incoming
  incomingEnd : ws.incomingEnd = ws'.incomingEnd
  faults : ws.faults = ws'.faults
  left : ws.peer = a
  right : ws'.peer = b

inductive SameStream (a b : Option SocketAddr) : Stream → Stream → Prop
  | raw {conn conn' : RawConn} : SameWire a b conn conn' → SameStream a b (.raw conn) (.raw conn')
  | webSocket {ws ws' : WebSocket} : SameFrames a b ws ws' →
      SameStream a b (.webSocket ws) (.webSocket ws')

section
variable {a b : Option SocketAddr}

theorem SameStream.peerAddr {s s' : Stream} (h : SameStream a b s s') :
    LineStream.peerAddr s = a ∧ LineStream.peerAddr s' = b := by
  cases h with
  | raw h => exact ⟨h.left,h.right⟩
  | webSocket h => exact ⟨h.left,h.right⟩

private theorem wire_simulates {α : Type} {m n : EStateM IoError RawConn α}
    (h : ∀ input inputEnd faults output output', Matched (SameWire a b) Eq
      (m ⟨input,inputEnd,output,faults,a⟩) (n ⟨input,inputEnd,output',faults,b⟩)) :
    Simulates (SameWire a b) (fun _ => False) Eq m n := by
  apply Simulates.of_matched
  rintro ⟨input,inputEnd,output,faults,_⟩ ⟨_,_,output',_,_⟩ ⟨rfl,rfl,rfl,rfl,rfl⟩
  exact h input inputEnd faults output output'

namespace SameWire

theorem readLine : Simulates (SameWire a b) (fun _ => False) Eq RawConn.readLine RawConn.readLine := by
  apply wire_simulates
  intro input inputEnd faults output output'
  unfold RawConn.readLine RawConn.lineFault
  cases RawConn.readUntil (maxLineLength + 1) input with
  | mk line rest =>
    dsimp only
    cases (if line.length = maxLineLength + 1 ∨ line.getLast? = some RawConn.newline then none
        else inputEnd) with
    | some e => exact .error ⟨rfl,rfl,rfl,rfl,rfl⟩
    | none =>
      dsimp only
      by_cases hempty : line = []
      · rw [if_pos hempty,if_pos hempty]
        exact .error ⟨rfl,rfl,rfl,rfl,rfl⟩
      rw [if_neg hempty,if_neg hempty]
      by_cases hlong : maxLineLength < line.length
      · rw [if_pos hlong,if_pos hlong]
        exact .error ⟨rfl,rfl,rfl,rfl,rfl⟩
      rw [if_neg hlong,if_neg hlong]
      cases fromUtf8 (RawConn.popLast RawConn.carriageReturn (RawConn.popLast RawConn.newline line)) with
      | none => exact .error ⟨rfl,rfl,rfl,rfl,rfl⟩
      | some text => exact .ok rfl ⟨rfl,rfl,rfl,rfl,rfl⟩

theorem readExact (n : Nat) :
    Simulates (SameWire a b) (fun _ => False) Eq (RawConn.readExact n) (RawConn.readExact n) := by
  apply wire_simulates
  intro input inputEnd faults output output'
  unfold RawConn.readExact
  dsimp only
  split
  · exact .ok rfl ⟨rfl,rfl,rfl,rfl,rfl⟩
  · cases inputEnd with
    | none => exact .error ⟨rfl,rfl,rfl,rfl,rfl⟩
    | some e => exact .error ⟨rfl,rfl,rfl,rfl,rfl⟩

theorem readUpTo (n : Nat) :
    Simulates (SameWire a b) (fun _ => False) Eq (RawConn.readUpTo n) (RawConn.readUpTo n) := by
  apply wire_simulates
  intro input inputEnd faults output output'
  unfold RawConn.readUpTo
  dsimp only
  split
  · exact .ok rfl ⟨rfl,rfl,rfl,rfl,rfl⟩
  · cases inputEnd with
    | none => exact .ok rfl ⟨rfl,rfl,rfl,rfl,rfl⟩
    | some e => exact .error ⟨rfl,rfl,rfl,rfl,rfl⟩

theorem writeAll (data data' : Bytes) :
    Simulates (SameWire a b) (fun _ => False) Eq (RawConn.writeAll data) (RawConn.writeAll data') := by
  apply wire_simulates
  intro input inputEnd faults output output'
  cases faults with
  | nil => exact .ok rfl ⟨rfl,rfl,rfl,rfl,rfl⟩
  | cons fault faults =>
    cases fault with
    | none => exact .ok rfl ⟨rfl,rfl,rfl,rfl,rfl⟩
    | some fault => exact .error ⟨rfl,rfl,rfl,rfl,rfl⟩

theorem flush : Simulates (SameWire a b) (fun _ => False) Eq RawConn.flush RawConn.flush := by
  apply wire_simulates
  intro input inputEnd faults output output'
  cases faults with
  | nil => exact .ok rfl ⟨rfl,rfl,rfl,rfl,rfl⟩
  | cons fault faults =>
    cases fault with
    | none => exact .ok rfl ⟨rfl,rfl,rfl,rfl,rfl⟩
    | some fault => exact .error ⟨rfl,rfl,rfl,rfl,rfl⟩

end SameWire

private theorem frames_simulates {α : Type} {m : EStateM IoError WebSocket α}
    (h : ∀ incoming incomingEnd faults sent sent', Matched (SameFrames a b) Eq
      (m ⟨incoming,incomingEnd,sent,faults,a⟩) (m ⟨incoming,incomingEnd,sent',faults,b⟩)) :
    Simulates (SameFrames a b) (fun _ => False) Eq m m := by
  apply Simulates.of_matched
  rintro ⟨incoming,incomingEnd,sent,faults,_⟩ ⟨_,_,sent',_,_⟩ ⟨rfl,rfl,rfl,rfl,rfl⟩
  exact h incoming incomingEnd faults sent sent'

namespace SameFrames

theorem readLine :
    Simulates (SameFrames a b) (fun _ => False) Eq WebSocket.readLine WebSocket.readLine := by
  apply frames_simulates
  intro incoming incomingEnd faults sent sent'
  unfold WebSocket.readLine
  dsimp only
  cases WebSocket.nextLine incomingEnd incoming with
  | mk result rest =>
    cases result with
    | ok line => exact .ok rfl ⟨rfl,rfl,rfl,rfl,rfl⟩
    | error e => exact .error ⟨rfl,rfl,rfl,rfl,rfl⟩

theorem readExact (n : Nat) :
    Simulates (SameFrames a b) (fun _ => False) Eq (WebSocket.readExact n) (WebSocket.readExact n) := by
  apply frames_simulates
  intro incoming incomingEnd faults sent sent'
  unfold WebSocket.readExact
  dsimp only
  cases WebSocket.fill incomingEnd n incoming with
  | mk result rest =>
    cases result with
    | ok bytes => exact .ok rfl ⟨rfl,rfl,rfl,rfl,rfl⟩
    | error e => exact .error ⟨rfl,rfl,rfl,rfl,rfl⟩

theorem writeAll (data : Bytes) :
    Simulates (SameFrames a b) (fun _ => False) Eq (WebSocket.writeAll data) (WebSocket.writeAll data) := by
  apply frames_simulates
  intro incoming incomingEnd faults sent sent'
  cases faults with
  | nil => exact .ok rfl ⟨rfl,rfl,rfl,rfl,rfl⟩
  | cons fault faults =>
    cases fault with
    | none => exact .ok rfl ⟨rfl,rfl,rfl,rfl,rfl⟩
    | some fault => exact .error ⟨rfl,rfl,rfl,rfl,rfl⟩

end SameFrames

private theorem lift_simulates {α : Type} {m : EStateM IoError RawConn α}
    {n : EStateM IoError WebSocket α} (hm : Simulates (SameWire a b) (fun _ => False) Eq m m)
    (hn : Simulates (SameFrames a b) (fun _ => False) Eq n n) :
    Simulates (SameStream a b) (fun _ => False) Eq (Stream.lift m n) (Stream.lift m n) := by
  apply Simulates.of_matched
  intro s s' hs
  unfold Stream.lift
  cases hs with
  | raw hconn =>
    have h := hm.matched (fun _ h => h) hconn
    dsimp only
    generalize m _ = r at h ⊢
    generalize m _ = r' at h ⊢
    cases h with
    | ok hv hr => exact .ok hv (.raw hr)
    | error hr => exact .error (.raw hr)
  | webSocket hws =>
    have h := hn.matched (fun _ h => h) hws
    dsimp only
    generalize n _ = r at h ⊢
    generalize n _ = r' at h ⊢
    cases h with
    | ok hv hr => exact .ok hv (.webSocket hr)
    | error hr => exact .error (.webSocket hr)

theorem SameStream.readLine : Simulates (SameStream a b) (fun _ => False) Eq
    (LineStream.readLine : EStateM IoError Stream Text) LineStream.readLine :=
  lift_simulates SameWire.readLine SameFrames.readLine

theorem SameStream.readExact (n : Nat) : Simulates (SameStream a b) (fun _ => False) Eq
    (LineStream.readExact n : EStateM IoError Stream Bytes) (LineStream.readExact n) :=
  lift_simulates (SameWire.readExact n) (SameFrames.readExact n)

theorem SameStream.writeAll (data : Bytes) : Simulates (SameStream a b) (fun _ => False) Eq
    (LineStream.writeAll data : EStateM IoError Stream Unit) (LineStream.writeAll data) :=
  lift_simulates (SameWire.writeAll data data) (SameFrames.writeAll data)

end

/-! ## Requests -/

/-- The body of a request to `/ip` that is looked at. -/
structure BodyPosted (head : RequestHead) (conn : RawConn) (body : Bytes) : Prop where
  chunked : head.chunked = false
  length : head.contentLength ≤ maxBody
  json : isJson head.contentType
  taken : ∃ rest, RawConn.readUpTo head.contentLength conn = .ok body rest
  whole : head.contentLength ≤ body.length

/-- The client posts the body to `/ip`. -/
def Posts (conn : RawConn) (body : Bytes) : Prop :=
  ∃ buf next head, readHead maxHead [] conn = .ok buf next ∧
    ipCheckMatches (requestTarget (fromUtf8Lossy buf)) ∧ parseHead (fromUtf8Lossy buf) = .ok head ∧
    head.method = "POST" ∧ BodyPosted head next body

/-! ## Sessions -/

/-- The sessions stand at the same point, and since `pre` they have shown the same. -/
structure Alike {σ τ : Type} (R : σ → τ → Prop) (pre : List Event) (w : World σ) (w' : World τ) :
    Prop where
  stream : R w.stream w'.stream
  instants : w.instants = w'.instants
  wall : w.wall = w'.wall
  stats : w.stats = w'.stats
  chunkSize : w.chunkSize = w'.chunkSize
  size : minChunkSize ≤ w.chunkSize
  trace : ∃ tr tr', w.trace = pre ++ tr ∧ w'.trace = pre ++ tr' ∧ shown tr = shown tr'

namespace Alike

variable {σ τ α : Type} {R : σ → τ → Prop} {pre : List Event}

theorem never {ε : Type} (e : ε) : ¬Never e := id

theorem adds {w : World σ} {w' : World τ} (h : Alike R pre w w') {tr tr' : List Event}
    (htr : shown tr = shown tr') :
    Alike R pre { w with trace := w.trace ++ tr } { w' with trace := w'.trace ++ tr' } := by
  obtain ⟨t,t',ht,ht',hshown⟩ := h.trace
  refine { h with trace := ⟨t ++ tr,t' ++ tr',?_,?_,?_⟩ }
  · rw [ht,List.append_assoc]
  · rw [ht',List.append_assoc]
  · rw [shown_append,shown_append,hshown,htr]

theorem emit (e : Event) : Simulates (Alike R pre) Never Eq (Session.emit e : Session σ Unit)
    (Session.emit e : Session τ Unit) :=
  fun _ _ h => ⟨(),_,rfl,rfl,h.adds rfl⟩

theorem unseen {e e' : Event} (h : shown [e] = shown [e']) : Simulates (Alike R pre) Never Eq
    (Session.emit e : Session σ Unit) (Session.emit e' : Session τ Unit) :=
  fun _ _ hw => ⟨(),_,rfl,rfl,hw.adds h⟩

theorem logAll {records records' : List LogRecord}
    (h : records.filter (·.level.isSevere) = records'.filter (·.level.isSevere)) :
    Simulates (Alike R pre) Never Eq (Session.logAll records : Session σ Unit)
      (Session.logAll records' : Session τ Unit) := by
  intro w w' hw
  rw [logAll_eq,logAll_eq]
  refine ⟨(),_,rfl,rfl,hw.adds ?_⟩
  rw [shown_logged,shown_logged,h]

theorem logged {β : Type} {V : α → β → Prop} {m : Logged α} {n : Logged β} (hv : V m.val n.val)
    (h : m.severe = n.severe) :
    Simulates (Alike R pre) Never V (Session.logged m : Session σ α) (Session.logged n : Session τ β) :=
  (logAll h).bind fun _ _ _ => .pure hv

theorem onStream {m : EStateM IoError σ α} {n : EStateM IoError τ α}
    (h : Simulates R (fun _ => False) Eq m n) :
    Simulates (Alike R pre) Never Eq (Session.onStream m) (Session.onStream n) := by
  apply Simulates.of_matched
  intro w w' hw
  have h := h.matched (fun _ h => h) hw.stream
  unfold Session.onStream
  generalize m w.stream = r at h ⊢
  generalize n w'.stream = r' at h ⊢
  cases h with
  | ok hv hr => exact .ok hv { hw with stream := hr }
  | error hr => exact .error { hw with stream := hr }

theorem ignored {m : EStateM IoError σ Unit} {n : EStateM IoError τ Unit}
    (h : Simulates R (fun _ => False) Eq m n) :
    Simulates (Alike R pre) Never Eq (Rmbtd.ignored m) (Rmbtd.ignored n) := by
  apply Simulates.of_matched
  intro w w' hw
  have h := h.matched (fun _ h => h) hw.stream
  unfold Rmbtd.ignored
  generalize m w.stream = r at h ⊢
  generalize n w'.stream = r' at h ⊢
  cases h with
  | ok hv hr => exact .ok rfl { hw with stream := hr }
  | error hr => exact .ok rfl { hw with stream := hr }

theorem attempt {W : World σ → World τ → Prop} {m : Session σ α} {n : Session τ α} {w : World σ}
    {w' : World τ} (h : Matched W Eq (m w) (n w')) :
    Matched W Eq (Rmbtd.attempt m w) (Rmbtd.attempt n w') := by
  unfold Rmbtd.attempt
  generalize m w = r at h ⊢
  generalize n w' = r' at h ⊢
  cases h with
  | ok hv hr => exact .ok (congrArg Except.ok hv) hr
  | @error e _ _ hr =>
    cases e with
    | io e => exact .ok rfl hr
    | panic => exact .error hr
    | outOfFuel => exact .error hr

variable {a b : Option SocketAddr}

theorem rules : GreetingRules (Alike (SameStream a b) pre) Never Eq where
  sameLine := by
    rintro line _ rfl
    exact .refl line
  readLine := by
    apply (onStream SameStream.readLine).bind
    rintro line _ rfl
    exact (emit _).bind fun _ _ _ => .pure rfl
  readExact n _ := by
    apply (onStream (SameStream.readExact n)).bind
    rintro bytes _ rfl
    exact (emit _).bind fun _ _ _ => .pure rfl
  writeLine line := (emit _).bind fun _ _ _ => onStream (SameStream.writeAll _)
  writeChunk bytes _ := (emit _).bind fun _ _ _ => onStream (SameStream.writeAll _)
  instant := fun _ _ h => ⟨_,_,rfl,congrFun h.instants 0,
    { h with instants := congrArg (fun f i => f (i+1)) h.instants }⟩
  chunkSize := fun _ _ h => ⟨_,_,rfl,⟨h.chunkSize,h.size⟩,h⟩
  setChunkSize n hn := fun _ _ h => ⟨_,_,rfl,rfl,{ h with chunkSize := rfl, size := hn }⟩
  stats := fun _ _ h => ⟨_,_,rfl,h.stats,h⟩
  updateStats f := fun _ _ h => ⟨_,_,rfl,rfl,{ h with stats := congrArg f h.stats }⟩
  log _ := emit _
  started := emit _
  command _ _ _ := emit _
  sleep _ := emit _
  auth _ := emit _
  logLine level text line line' hline := by
    subst hline
    exact emit _

theorem http : HttpRelation (Alike (SameWire a b) pre) where
  readHead := onStream (readHead_simulates SameWire.readExact maxHead [])
  writeAll data := onStream (SameWire.writeAll data data)
  flush := onStream SameWire.flush
  ignoredWrite data := ignored (SameWire.writeAll data data)
  ignoredFlush := ignored SameWire.flush
  log _ := emit _

/-! ### Greeting and commands -/

section
variable {env : Env} {connId : Nat} {config : Config} {keys : List SecretKey}

/-- The checks of a token show the same for both addresses, whenever they are made. -/
def SameCheck (env : Env) (connId : Nat) (config : Config) (keys : List SecretKey)
    (a b : Option SocketAddr) (token : Text) : Prop :=
  ∀ clock,
    let check (peer : Option SocketAddr) :=
      validateToken env.crypto token keys connId (peer.map SocketAddr.ip) config.v2Only clock
    (check a).val = (check b).val ∧ (check a).severe = (check b).severe

theorem checkToken {token : Text} (h : SameCheck env connId config keys a b token) :
    Simulates (Alike (SameStream a b) pre) Never Eq (checkToken env connId config keys token)
      (checkToken env connId config keys token) := by
  have hpeer : Simulates (Alike (SameStream a b) pre) Never (fun p p' => p = a ∧ p' = b)
      Session.peerAddr Session.peerAddr :=
    fun w w' hw => ⟨_,w',rfl,hw.stream.peerAddr,hw⟩
  have hclock : Simulates (Alike (SameStream a b) pre) Never Eq validationClock validationClock :=
    fun w w' hw => ⟨_,_,rfl,by rw [hw.wall],
      { hw with wall := congrArg (fun f i => f (i+2)) hw.wall }⟩
  apply hpeer.bind
  rintro _ _ ⟨rfl,rfl⟩
  apply hclock.bind
  rintro clock _ rfl
  obtain ⟨hval,hsevere⟩ := h clock
  apply (logAll hsevere).bind
  intro _ _ _
  apply Simulates.bind (V := Eq)
  · exact unseen rfl
  · exact fun _ _ _ => .pure hval

/-- The greeting, if the check of the token that is presented shows the same for both addresses. -/
theorem runGreeting (sink : Sink) (fuel : Nat) {w w' : World Stream}
    (hw : Alike (SameStream a b) pre w w') (htoken : ∀ token next, Presents env w.stream token next →
      config.checkToken = true → SameCheck env connId config keys a b token) :
    Matched (Alike (SameStream a b) pre) Eq (runGreeting env connId config keys sink fuel w)
      (runGreeting env connId config keys sink fuel w') := by
  have hreceive : Simulates (Alike (SameStream a b) pre) Never Eq (receiveToken env connId fuel)
      (receiveToken env connId fuel) := by
    apply (rules.writeLine _).bind
    intro _ _ _
    apply (rules.writeLine _).bind
    intro _ _ _
    apply (rules.readToken fuel).bind
    rintro line _ rfl
    exact rules.tokenValue connId rfl
  rw [Tidies.runGreeting_eq]
  apply (hreceive.matched never hw).bind fun _ _ hw => hw
  rintro token _ w₁ w₁' hrun - rfl hw₁
  obtain ⟨_,-,hpresents,-⟩ := (receiveToken_course fuel).returns hrun
  apply Simulates.matched ?_ never hw₁
  apply (rules.authenticate sink fun hcheck => checkToken (htoken token _ hpresents hcheck)).bind
  rintro label _ rfl
  apply (rules.writeLine _).bind
  intro _ _ _
  exact (rules.writeLine _).bind fun _ _ _ => .pure rfl

theorem serveStream (sink : Sink) (fuel : Nat) {w w' : World Stream}
    (hw : Alike (SameStream a b) pre w w') (htoken : ∀ token next, Presents env w.stream token next →
      config.checkToken = true → SameCheck env connId config keys a b token) :
    Matched (Alike (SameStream a b) pre) Eq (serveStream env connId config keys sink fuel w)
      (serveStream env connId config keys sink fuel w') := by
  apply (attempt (runGreeting sink fuel hw htoken)).bind fun _ _ hw => hw
  rintro result _ w₁ w₁' - - rfl hw₁
  cases result with
  | error e =>
    apply Simulates.matched ?_ never hw₁
    exact (emit _).bind fun _ _ _ => .pure rfl
  | ok greeting =>
    have hcommands := (rules.runCommands env connId greeting.uuid fuel).matched never hw₁
    apply (attempt hcommands).bind fun _ _ hw => hw
    rintro ended _ w₂ w₂' - - rfl hw₂
    apply Simulates.matched ?_ never hw₂
    cases ended with
    | ok _ => exact .pure rfl
    | error e =>
      apply Simulates.ite
      · exact (emit _).bind fun _ _ _ => .pure rfl
      · exact .pure rfl

end

/-! ### The HTTP phase -/

/-- Replies with the same summary. -/
def SameReply (r r' : IpReply) : Prop := r.status = r'.status ∧ r.note = r'.note

section
variable (http : HttpEnv) (keys : List SecretKey) (connId : Nat) (addHsts : Bool)

theorem send (head : RequestHead) {r r' : IpReply} (h : SameReply r r') :
    Simulates (Alike (SameWire a b) pre) Never Eq (HttpTransport.send head r addHsts)
      (HttpTransport.send head r' addHsts) := by
  apply (onStream (SameWire.writeAll _ _)).bind
  intro _ _ _
  apply (onStream SameWire.flush).bind
  intro _ _ _
  apply Simulates.pure
  unfold IpReply.summary
  rw [h.1,h.2]

theorem bodyReply (head : RequestHead) (body : Bytes) {p p' : SocketAddr} {w w' : World RawConn}
    (hw : Alike (SameWire a b) pre w w') (hsame : isJson head.contentType →
      SameAnswer http.env.crypto http.fromSlice keys connId (w.wall 0) p.ip p'.ip body) :
    Matched (Alike (SameWire a b) pre) SameReply (HttpTransport.bodyReply http keys connId head body p w)
      (HttpTransport.bodyReply http keys connId head body p' w') := by
  have hnow : Simulates (Alike (SameWire a b) pre) Never Eq nowSecs nowSecs :=
    fun _ _ hw => ⟨_,_,rfl,congrFun hw.wall 0,
      { hw with wall := congrArg (fun f i => f (i+1)) hw.wall }⟩
  unfold HttpTransport.bodyReply
  by_cases hjson : isJson head.contentType
  · rw [if_neg (not_not.mpr hjson),if_neg (not_not.mpr hjson)]
    obtain ⟨hsevere,hnote⟩ := ipResponse_same_note (hsame hjson)
    apply (hnow.matched never hw).bind fun _ _ hw => hw
    rintro now _ w₁ w₁' hrun - rfl hw₁
    cases hrun
    apply Simulates.matched ?_ never hw₁
    apply (logged hnote hsevere).bind
    intro _ _ hnote
    cases hnote with
    | answered h => exact .pure ⟨rfl,congrArg some h⟩
    | refused e => exact .pure ⟨rfl,rfl⟩
  · rw [if_pos hjson,if_pos hjson]
    exact .ok ⟨rfl,rfl⟩ hw

theorem postReply (head : RequestHead) (hpeers : a.isSome = b.isSome) {w w' : World RawConn}
    (hw : Alike (SameWire a b) pre w w') (hsame : ∀ body p p', BodyPosted head w.stream body →
      a = some p → b = some p' →
      SameAnswer http.env.crypto http.fromSlice keys connId (w.wall 0) p.ip p'.ip body) :
    Matched (Alike (SameWire a b) pre) SameReply (HttpTransport.postReply http keys connId head w)
      (HttpTransport.postReply http keys connId head w') := by
  have hread (n : Nat) : Matched (Alike (SameWire a b) pre) Eq (Session.onStream (RawConn.readUpTo n) w)
      (Session.onStream (RawConn.readUpTo n) w') := (onStream (SameWire.readUpTo n)).matched never hw
  unfold HttpTransport.postReply
  cases hchunked : head.chunked with
  | true => exact .ok ⟨rfl,rfl⟩ hw
  | false =>
    simp only [Bool.false_eq_true,if_false]
    by_cases hlarge : maxBody < head.contentLength
    · rw [if_pos hlarge]
      apply (hread _).bind fun _ _ hw => hw
      exact fun _ _ _ _ _ _ _ hw => .ok ⟨rfl,rfl⟩ hw
    rw [if_neg hlarge]
    apply (hread _).bind fun _ _ hw => hw
    rintro body _ w₁ w₁' hrun - rfl hw₁
    obtain ⟨rest,htaken,rfl⟩ := onStream_eq_ok hrun
    by_cases hshort : body.length < head.contentLength
    · rw [if_pos hshort]
      exact .error hw₁
    rw [if_neg hshort]
    cases a with
    | none =>
      cases b with
      | none =>
        rw [HttpTransport.peerReply_none http keys connId head body hw₁.stream.left,
          HttpTransport.peerReply_none http keys connId head body hw₁.stream.right]
        exact .error hw₁
      | some p' => cases hpeers
    | some p =>
      cases b with
      | none => cases hpeers
      | some p' =>
        rw [HttpTransport.peerReply_some http keys connId head body hw₁.stream.left,
          HttpTransport.peerReply_some http keys connId head body hw₁.stream.right]
        apply bodyReply http keys connId head body hw₁
        intro hjson
        exact hsame body p p' ⟨hchunked,Nat.not_lt.mp hlarge,hjson,⟨rest,htaken⟩,Nat.not_lt.mp hshort⟩
          rfl rfl

theorem handle (req : Text) (hpeers : a.isSome = b.isSome) {w w' : World RawConn}
    (hw : Alike (SameWire a b) pre w w') (hsame : ∀ head body p p', parseHead req = .ok head →
      head.method = "POST" → BodyPosted head w.stream body → a = some p → b = some p' →
      SameAnswer http.env.crypto http.fromSlice keys connId (w.wall 0) p.ip p'.ip body) :
    Matched (Alike (SameWire a b) pre) Eq (HttpTransport.handle http keys connId req addHsts w)
      (HttpTransport.handle http keys connId req addHsts w') := by
  unfold HttpTransport.handle
  cases hparse : parseHead req with
  | error e => exact .error hw
  | ok head =>
    have hreply : Matched (Alike (SameWire a b) pre) SameReply
        (HttpTransport.ipReply http keys connId head w)
        (HttpTransport.ipReply http keys connId head w') := by
      unfold HttpTransport.ipReply
      by_cases hoptions : head.method = "OPTIONS"
      · rw [if_pos hoptions]
        exact .ok ⟨rfl,rfl⟩ hw
      rw [if_neg hoptions]
      by_cases hpost : head.method = "POST"
      · rw [if_pos hpost]
        apply postReply http keys connId head hpeers hw
        exact fun body p p' => hsame head body p p' hparse hpost
      · rw [if_neg hpost]
        exact .ok ⟨rfl,rfl⟩ hw
    have hlift (w : World RawConn) : liftExcept (.ok head) w = .ok head w := rfl
    rw [bind_ok (hlift w),bind_ok (hlift w')]
    apply hreply.bind fun _ _ hw => hw
    intro r r' w₁ w₁' _ _ hr hw₁
    exact (send addHsts head hr).matched never hw₁

theorem detectAndUpgrade (hpeers : a.isSome = b.isSome) {w w' : World RawConn}
    (hw : Alike (SameWire a b) pre w w') (hsame : ∀ body p p', Posts w.stream body → a = some p →
      b = some p' → SameAnswer http.env.crypto http.fromSlice keys connId (w.wall 0) p.ip p'.ip body) :
    Matched (Alike (SameWire a b) pre) Eq (detectAndUpgrade http keys connId addHsts w)
      (detectAndUpgrade http keys connId addHsts w') := by
  apply (Alike.http.readHead.matched never hw).bind fun _ _ hw => hw
  rintro buf _ w₁ w₁' hrun - rfl hw₁
  obtain ⟨next,hread,rfl⟩ := onStream_eq_ok hrun
  apply Alike.http.answer http keys connId addHsts hw₁
  intro htarget
  apply handle http keys connId addHsts _ hpeers hw₁
  intro head body p p' hparse hpost hposted
  exact hsame body p p' ⟨buf,next,head,hread,htarget,hparse,hpost,hposted⟩

end

end Alike

end Rmbtd
