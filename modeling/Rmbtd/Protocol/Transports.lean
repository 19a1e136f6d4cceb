import Rmbtd.Protocol.Gate
import Rmbtd.Stream.Script

/-!
# Both transports

A session with a client that sends what the server asks for does not depend on the transport. Each
transport mirrors the script of the client, and the handlers cannot tell a stream from the script
it mirrors.
-/

namespace Rmbtd

open Effect Session

def serve {σ : Type} [LineStream σ] (env : Env) (connId : Nat) (config : Config)
    (keys : List SecretKey) (sink : Sink) (fuel : Nat) : Session σ Greeting := do
  let greeting ← runGreeting env connId config keys sink fuel
  runCommands env connId greeting.uuid fuel
  return greeting

def outcome {σ α : Type} : EStateM.Result Stop σ α → Except Stop α
  | .ok a _ => .ok a
  | .error e _ => .error e

/-- The client quits, or the greeting rejects it. -/
inductive EndedByProtocol : Except Stop Greeting → Prop
  | quit (greeting : Greeting) : EndedByProtocol (.ok greeting)
  | rejected (e : IoError) (h : e = quitBeforeToken ∨ e = expectedToken ∨ e = tokenRejected) :
      EndedByProtocol (.error (.io e))

instance : DecidablePred EndedByProtocol
  | .ok greeting => isTrue (.quit greeting)
  | .error (.io e) =>
    if h : e = quitBeforeToken ∨ e = expectedToken ∨ e = tokenRejected then isTrue (.rejected e h)
    else isFalse (by rintro ⟨⟩; exact h ‹_›)
  | .error .panic => isFalse nofun
  | .error .outOfFuel => isFalse nofun

/-- The events of a trace but for log records and the wording of the lines received. -/
def observe (tr : List Event) : List Event :=
  tr.filter fun e => match e with
    | .received _ => false
    | .logged _ => false
    | _ => true

@[simp] theorem observe_append (a b : List Event) : observe (a ++ b) = observe a ++ observe b :=
  List.filter_append ..

@[simp] theorem written_append (a b : List Event) : written (a ++ b) = written a ++ written b :=
  List.filter_append ..

/-! ## Mirroring a script -/

section
variable {σ : Type} [LineStream σ]

/-- A stream that serves what a script says and takes every write. The relation also sees what the
session has written. -/
structure Mirrors (M : Script → σ → List Event → Prop) : Prop where
  peerAddr : ∀ s t ws, M s t ws → LineStream.peerAddr t = s.peer
  readLine : ∀ s t ws l items, M s t ws → s.items = .line l::items → ∃ l' t',
    LineStream.readLine t = .ok l' t' ∧ SameLine l.val l' ∧ M { s with items := items } t' ws
  readExact : ∀ s t ws b items, M s t ws → s.items = .chunk b::items → b ≠ [] → ∃ t',
    LineStream.readExact b.length t = .ok b t' ∧ M { s with items := items } t' ws
  writeLine : ∀ s t ws line, M s t ws → ∃ t', LineStream.writeAll (utf8 line) t = .ok () t' ∧
    M { s with output := s.output ++ utf8 line } t' (ws ++ [.sentLine line])
  writeChunk : ∀ s t ws bytes, M s t ws → minChunkSize ≤ bytes.length → ∃ t',
    LineStream.writeAll bytes t = .ok () t' ∧
      M { s with output := s.output ++ bytes } t' (ws ++ [.sentChunk bytes])

/-- The session on the stream is where the session on the script is. -/
structure Related (M : Script → σ → List Event → Prop) (w : World Script) (w' : World σ) : Prop where
  stream : M w.stream w'.stream (written w'.trace)
  instants : w'.instants = w.instants
  wall : w'.wall = w.wall
  stats : w'.stats = w.stats
  chunkSize : w'.chunkSize = w.chunkSize
  size : minChunkSize ≤ w.chunkSize
  trace : observe w'.trace = observe w.trace

/-- The script is not what the server asks for. -/
def Stuck (stop : Stop) : Prop := stop = .io Script.misplaced

namespace Mirrors

variable {M : Script → σ → List Event → Prop}

omit [LineStream σ] in
private theorem related_emit {w : World Script} {w' : World σ} (hr : Related M w w') {s : Script}
    {t : σ} {e e' : Event} (hm : M s t (written w'.trace)) (hw : written [e'] = [])
    (ho : observe [e'] = observe [e]) :
    Related M { w with stream := s, trace := w.trace ++ [e] }
      { w' with stream := t, trace := w'.trace ++ [e'] } where
  stream := by
    rw [written_append,hw,List.append_nil]
    exact hm
  instants := hr.instants
  wall := hr.wall
  stats := hr.stats
  chunkSize := hr.chunkSize
  size := hr.size
  trace := by rw [observe_append,observe_append,hr.trace,ho]

omit [LineStream σ] in
private theorem simulates_emit {e e' : Event} (hw : written [e'] = [])
    (ho : observe [e'] = observe [e]) :
    Simulates (Related M) Stuck Eq (emit e : Session Script Unit) (emit e' : Session σ Unit) :=
  fun _ _ hr => ⟨(),_,rfl,rfl,related_emit hr hr.stream hw ho⟩

variable (h : Mirrors M)
include h

private theorem simulates_readLine :
    Simulates (Related M) Stuck SameLine (Session.readLine : Session Script Text)
      Session.readLine := by
  intro w w' hr
  cases hitems : w.stream.items with
  | nil =>
    have hs : LineStream.readLine w.stream = .error Script.misplaced w.stream := by
      simp only [LineStream.readLine,hitems]
    rw [readLine_error hs]
    exact Or.inl rfl
  | cons item items =>
    cases item with
    | chunk b =>
      have hs : LineStream.readLine w.stream = .error Script.misplaced w.stream := by
        simp only [LineStream.readLine,hitems]
      rw [readLine_error hs]
      exact Or.inl rfl
    | line l =>
      have hs : LineStream.readLine w.stream = .ok l.val { w.stream with items := items } := by
        simp only [LineStream.readLine,hitems]
      obtain ⟨l',t',ht,hsame,hm⟩ := h.readLine _ _ _ l items hr.stream hitems
      rw [readLine_ok hs]
      exact ⟨l',_,readLine_ok ht,hsame,related_emit hr hm rfl rfl⟩

private theorem simulates_readExact {n : Nat} (hn : minChunkSize ≤ n) :
    Simulates (Related M) Stuck Eq (Session.readExact n : Session Script Bytes)
      (Session.readExact n) := by
  intro w w' hr
  have hmisplaced (hno : ∀ b items, w.stream.items = .chunk b::items → b.length ≠ n) :
      LineStream.readExact n w.stream = .error Script.misplaced w.stream := by
    cases hitems : w.stream.items with
    | nil => simp only [LineStream.readExact,hitems]
    | cons item items =>
      cases item with
      | line l => simp only [LineStream.readExact,hitems]
      | chunk b => simp only [LineStream.readExact,hitems,if_neg (hno b items hitems)]
  by_cases hplaced : ∃ b items, w.stream.items = .chunk b::items ∧ b.length = n
  · obtain ⟨b,items,hitems,rfl⟩ := hplaced
    have hs : LineStream.readExact b.length w.stream =
        .ok b { w.stream with items := items } := by
      simp only [LineStream.readExact,hitems,if_true]
    have hb : b ≠ [] := by
      rintro rfl
      exact absurd hn (by decide)
    obtain ⟨t',ht,hm⟩ := h.readExact _ _ _ b items hr.stream hitems hb
    rw [readExact_ok hs]
    exact ⟨b,_,readExact_ok ht,rfl,related_emit hr hm rfl rfl⟩
  · simp only [not_exists,not_and] at hplaced
    rw [readExact_error (hmisplaced hplaced)]
    exact Or.inl rfl

omit h [LineStream σ] in
private theorem related_write {w : World Script} {w' : World σ} (hr : Related M w w') {s : Script}
    {t : σ} {e : Event} (hm : M s t (written w'.trace ++ [e])) (he : written [e] = [e]) :
    Related M { w with stream := s, trace := w.trace ++ [e] }
      { w' with stream := t, trace := w'.trace ++ [e] } where
  stream := by
    rw [written_append,he]
    exact hm
  instants := hr.instants
  wall := hr.wall
  stats := hr.stats
  chunkSize := hr.chunkSize
  size := hr.size
  trace := by rw [observe_append,observe_append,hr.trace]

private theorem simulates_writeLine (line : Text) :
    Simulates (Related M) Stuck Eq (Session.writeLine line : Session Script Unit)
      (Session.writeLine line) := by
  intro w w' hr
  obtain ⟨t',ht,hm⟩ := h.writeLine _ _ _ line hr.stream
  have hs : LineStream.writeAll (utf8 line) w.stream =
      .ok () { w.stream with output := w.stream.output ++ utf8 line } := rfl
  rw [writeLine_ok hs]
  exact ⟨(),_,writeLine_ok ht,rfl,related_write hr hm rfl⟩

private theorem simulates_writeChunk {bytes : Bytes} (hbytes : minChunkSize ≤ bytes.length) :
    Simulates (Related M) Stuck Eq (Session.writeChunk bytes : Session Script Unit)
      (Session.writeChunk bytes) := by
  intro w w' hr
  obtain ⟨t',ht,hm⟩ := h.writeChunk _ _ _ bytes hr.stream hbytes
  have hs : LineStream.writeAll bytes w.stream =
      .ok () { w.stream with output := w.stream.output ++ bytes } := rfl
  rw [writeChunk_ok hs]
  exact ⟨(),_,writeChunk_ok ht,rfl,related_write hr hm rfl⟩

theorem greetingRelation : GreetingRelation (Related M) Stuck SameLine where
  sameLine _ _ hab := hab
  readLine := h.simulates_readLine
  readExact _ hn := h.simulates_readExact hn
  writeLine line := h.simulates_writeLine line
  writeChunk _ hbytes := h.simulates_writeChunk hbytes
  instant w w' hr := ⟨w'.instants 0,_,rfl,congrFun hr.instants.symm 0,
    { hr with instants := by simp only [hr.instants] }⟩
  chunkSize w w' hr := ⟨w'.chunkSize,w',rfl,⟨hr.chunkSize.symm,hr.size⟩,hr⟩
  setChunkSize n hn _ _ hr := ⟨(),_,rfl,rfl,{ hr with chunkSize := rfl, size := hn }⟩
  stats w w' hr := ⟨w'.stats,w',rfl,hr.stats.symm,hr⟩
  updateStats f _ _ hr := ⟨(),_,rfl,rfl,{ hr with stats := congrArg f hr.stats }⟩
  log _ := simulates_emit rfl rfl
  started := simulates_emit rfl rfl
  command _ _ _ := simulates_emit rfl rfl
  peerAddr w w' hr := ⟨w.stream.peer,w',congrArg (EStateM.Result.ok · w') (h.peerAddr _ _ _ hr.stream),
    rfl,hr⟩
  validationClock w w' hr := ⟨_,_,rfl,by rw [hr.wall],{ hr with wall := by simp only [hr.wall] }⟩
  sleep _ := simulates_emit rfl rfl
  auth _ := simulates_emit rfl rfl
  logLine _ _ _ _ _ := simulates_emit rfl rfl
  checked _ _ _ _ _ := simulates_emit rfl rfl

end Mirrors
end

/-! ## The two transports -/

/-- The raw connection carries the rest of the script and took the server's bytes. -/
structure OnRaw (s : Script) (conn : RawConn) (_ : List Event) : Prop where
  input : conn.input = RawConn.encode s.items
  output : conn.output = s.output
  faults : conn.faults = []
  peer : conn.peer = s.peer

theorem mirrors_raw : Mirrors OnRaw where
  peerAddr _ _ _ hm := hm.peer
  readLine := by
    intro s conn ws l items hm hitems
    have hinput := hm.input
    rw [hitems] at hinput
    obtain ⟨l',hread,hsame⟩ := RawConn.readLine_encode l hinput
    exact ⟨l',_,hread,hsame,{ hm with input := rfl }⟩
  readExact := by
    intro s conn ws b items hm hitems _
    have hinput := hm.input
    rw [hitems] at hinput
    exact ⟨_,RawConn.readExact_encode hinput,{ hm with input := rfl }⟩
  writeLine _ _ _ line hm :=
    ⟨_,RawConn.writeAll_faultless hm.faults _,{ hm with output := by rw [hm.output] }⟩
  writeChunk _ _ _ bytes hm _ :=
    ⟨_,RawConn.writeAll_faultless hm.faults _,{ hm with output := by rw [hm.output] }⟩

/-- The message a write goes out as: a line as either kind with its bytes, a chunk as a binary
message with its bytes. -/
inductive SentAs : Event → Message → Prop
  | line {line : Text} {m : Message} (payload : WebSocket.payload m = some (utf8 line)) :
      SentAs (.sentLine line) m
  | chunk {bytes : Bytes} : SentAs (.sentChunk bytes) (.binary bytes)

/-- The WebSocket carries the rest of the script, and its messages are the server's writes. -/
structure OnWebSocket (s : Script) (ws : WebSocket) (writes : List Event) : Prop where
  incoming : WebSocket.Carries s.items ws.incoming
  output : WebSocket.data ws.sent = s.output
  sent : List.Forall₂ SentAs writes ws.sent
  faults : ws.faults = []
  peer : ws.peer = s.peer

private theorem forall₂_snoc {α β : Type} {R : α → β → Prop} {as : List α} {bs : List β} {a : α}
    {b : β} (h : List.Forall₂ R as bs) (hab : R a b) : List.Forall₂ R (as ++ [a]) (bs ++ [b]) :=
  List.rel_append h (.cons hab .nil)

theorem mirrors_webSocket : Mirrors OnWebSocket where
  peerAddr _ _ _ hm := hm.peer
  readLine := by
    intro s ws writes l items hm hitems
    have hincoming := hm.incoming
    rw [hitems] at hincoming
    obtain ⟨l',rest,hread,hsame,hrest⟩ := WebSocket.readLine_carries hincoming
    exact ⟨l',_,hread,hsame,{ hm with incoming := hrest }⟩
  readExact := by
    intro s ws writes b items hm hitems hb
    have hincoming := hm.incoming
    rw [hitems] at hincoming
    obtain ⟨rest,hread,hrest⟩ := WebSocket.readExact_carries hb hincoming
    exact ⟨_,hread,{ hm with incoming := hrest }⟩
  writeLine := by
    intro s ws writes line hm
    have hpayload := WebSocket.payload_framed_utf8 line
    refine ⟨_,WebSocket.writeAll_faultless hm.faults _,
      { hm with output := ?_, sent := forall₂_snoc hm.sent (.line hpayload) }⟩
    rw [WebSocket.data_append,hm.output]
    simp [hpayload]
  writeChunk := by
    intro s ws writes bytes hm hbytes
    refine ⟨_,WebSocket.writeAll_faultless hm.faults _,?_⟩
    rw [WebSocket.framed_chunk hbytes]
    refine { hm with output := ?_, sent := forall₂_snoc hm.sent .chunk }
    rw [WebSocket.data_append,hm.output]
    simp [WebSocket.payload]

private theorem serve_mirrored {σ : Type} [LineStream σ] {M : Script → σ → List Event → Prop}
    (h : Mirrors M) (env : Env) (connId : Nat) (config : Config) (keys : List SecretKey)
    (sink : Sink) (fuel : Nat) {script : Script} {stream : σ} (hm : M script stream [])
    (instants : Nat → Nat) (wall : Nat → Int64) :
    let onScript := serve env connId config keys sink fuel (World.start script instants wall)
    let onStream := serve env connId config keys sink fuel (World.start stream instants wall)
    EndedByProtocol (outcome onScript) →
      outcome onStream = outcome onScript ∧ Related M (final onScript) (final onStream) := by
  intro onScript onStream hended
  have hserve : Simulates (Related M) Stuck Eq
      (serve env connId config keys sink fuel : Session Script Greeting)
      (serve env connId config keys sink fuel : Session σ Greeting) := by
    apply (h.greetingRelation.runGreeting env connId config keys sink fuel).bind
    rintro greeting _ rfl
    apply (h.greetingRelation.toCommandRelation.runCommands env connId greeting.uuid fuel).bind
    rintro _ _ -
    exact .pure rfl
  have hstart : Related M (World.start script instants wall) (World.start stream instants wall) :=
    ⟨hm,rfl,rfl,rfl,rfl,le_refl _,rfl⟩
  have hrun := hserve _ _ hstart
  cases hs : onScript with
  | ok greeting w =>
    rw [show serve env connId config keys sink fuel (World.start script instants wall) = _ from hs]
      at hrun
    obtain ⟨_,w',hrun,rfl,hr⟩ := hrun
    rw [show onStream = _ from hrun]
    exact ⟨rfl,hr⟩
  | error stop w =>
    rw [show serve env connId config keys sink fuel (World.start script instants wall) = _ from hs]
      at hrun
    rw [hs] at hended
    rcases hrun with hstuck | ⟨w',hrun,hr⟩
    · exfalso
      rw [show stop = .io Script.misplaced from hstuck] at hended
      revert hended
      simp only [outcome]
      decide
    · rw [show onStream = _ from hrun]
      exact ⟨rfl,hr⟩

/-- A client that sends a script, one line or chunk at a time as the server asks for them, gets the
same session over both transports: the same result, the same token verdict, commands, chunk sizes
and accounting at every step, and the same bytes. Over the WebSocket every chunk goes out as a
binary message with its bytes, and every line as a message with its bytes. -/
theorem serve_same_on_transports (env : Env) (connId : Nat) (config : Config)
    (keys : List SecretKey) (sink : Sink) (fuel : Nat) (instants : Nat → Nat) (wall : Nat → Int64)
    {items : List Item} {peer : Option SocketAddr} {raw : RawConn} {ws : WebSocket}
    (hraw : raw.input = RawConn.encode items) (hws : WebSocket.Carries items ws.incoming)
    (houtput : raw.output = []) (hsent : ws.sent = []) (hrawFaults : raw.faults = [])
    (hwsFaults : ws.faults = []) (hrawPeer : raw.peer = peer) (hwsPeer : ws.peer = peer)
    (hended : EndedByProtocol (outcome (serve env connId config keys sink fuel
      (World.start (⟨items,[],peer⟩ : Script) instants wall)))) :
    let onRaw := serve env connId config keys sink fuel (World.start raw instants wall)
    let onWs := serve env connId config keys sink fuel (World.start ws instants wall)
    outcome onWs = outcome onRaw ∧ EndedByProtocol (outcome onRaw) ∧
      observe (final onWs).trace = observe (final onRaw).trace ∧
      (final onWs).stats = (final onRaw).stats ∧
      (final onWs).chunkSize = (final onRaw).chunkSize ∧
      WebSocket.data (final onWs).stream.sent = (final onRaw).stream.output ∧
      List.Forall₂ SentAs (written (final onWs).trace) (final onWs).stream.sent := by
  intro onRaw onWs
  have hm : OnRaw ⟨items,[],peer⟩ raw [] := ⟨hraw,houtput,hrawFaults,hrawPeer⟩
  have hm' : OnWebSocket ⟨items,[],peer⟩ ws [] :=
    ⟨hws,by rw [hsent]; rfl,by rw [hsent]; exact .nil,hwsFaults,hwsPeer⟩
  obtain ⟨hout,hr⟩ :=
    serve_mirrored mirrors_raw env connId config keys sink fuel hm instants wall hended
  obtain ⟨hout',hr'⟩ :=
    serve_mirrored mirrors_webSocket env connId config keys sink fuel hm' instants wall hended
  exact ⟨hout'.trans hout.symm,hout ▸ hended,hr'.trace.trans hr.trace.symm,
    hr'.stats.trans hr.stats.symm,hr'.chunkSize.trans hr.chunkSize.symm,
    hr'.stream.output.trans hr.stream.output.symm,hr'.stream.sent⟩

def goldenTokenLine : Line := ⟨"TOKEN " ++ goldenToken,by decide +kernel,by decide +kernel⟩

def goldenPutLine : Line := ⟨"PUT",by decide,by decide +kernel⟩

def goldenQuitLine : Line := ⟨"QUIT\r",by decide,by decide +kernel⟩

def goldenZeros : Bytes := List.replicate 4095 0

def goldenParts : List Message := [.binary goldenZeros,.pong,.binary [0xFF]]

/-- The token of the control server, an upload of one chunk and the end. -/
def goldenItems : List Item :=
  [.line goldenTokenLine,.line goldenPutLine,.chunk (WebSocket.data goldenParts),
    .line goldenQuitLine]

def goldenRaw : RawConn where
  input := RawConn.encode goldenItems
  inputEnd := none
  output := []
  faults := []
  peer := some (.new goldenIp 40000)

def goldenWs : WebSocket where
  incoming := .ping::.text (goldenTokenLine.val ++ ['\n'])::.binary (utf8 goldenPutLine.val)::
    (goldenParts ++ [.text goldenQuitLine.val])
  incomingEnd := .protocol "Connection closed normally"
  sent := []
  faults := []
  peer := some (.new goldenIp 40000)

private theorem carries_golden : WebSocket.Carries goldenItems goldenWs.incoming := by
  have hzeros : goldenZeros ≠ [] := List.ne_nil_of_length_eq_add_one List.length_replicate
  have hparts : ∀ m ∈ goldenParts, WebSocket.IsPart m := by
    simp [goldenParts,WebSocket.IsPart,WebSocket.IsControl,hzeros]
  exact .control (Or.inl rfl) (.line ⟨_,Or.inr rfl,Or.inl rfl⟩ (.line ⟨_,Or.inl rfl,Or.inr rfl⟩
    (.chunk hparts (.line ⟨_,Or.inl rfl,Or.inl rfl⟩ .nil))))

theorem serve_same_on_transports_golden :
    let onRaw := serve goldenEnv 1 .default [goldenKey] ⟨true,"62.1.2.*"⟩ 4
      (World.start goldenRaw id fun _ => 1700000090)
    let onWs := serve goldenEnv 1 .default [goldenKey] ⟨true,"62.1.2.*"⟩ 4
      (World.start goldenWs id fun _ => 1700000090)
    outcome onWs = outcome onRaw ∧
      WebSocket.data (final onWs).stream.sent = (final onRaw).stream.output := by
  have hraw : goldenRaw.input = RawConn.encode goldenItems := rfl
  have hpeer : goldenRaw.peer = some (.new goldenIp 40000) := rfl
  have hended : EndedByProtocol (outcome (serve goldenEnv 1 .default [goldenKey] ⟨true,"62.1.2.*"⟩ 4
      (World.start (⟨goldenItems,[],some (.new goldenIp 40000)⟩ : Script) id fun _ => 1700000090))) := by
    decide +kernel
  obtain ⟨hout,-,-,-,-,hdata,-⟩ :=
    serve_same_on_transports goldenEnv 1 .default [goldenKey] ⟨true,"62.1.2.*"⟩ 4 id
      (fun _ => 1700000090) hraw carries_golden rfl rfl rfl rfl hpeer rfl hended
  exact ⟨hout,hdata⟩

end Rmbtd
