import Rmbtd.Protocol.Gate
import Rmbtd.Protocol.Rules
import Rmbtd.Stream.Messages

/-!
# Disconnects

How a session ends when an operation of the command phase fails with an error of the transport. The
caller looks at the kind of the error. It is the transport's own after every read and after a write
on a raw connection; a write on a WebSocket turns every error into one of the kind `Other`.
-/

namespace Rmbtd

open Effect Session

/-! ## The operation a run stops at -/

section
variable {σ : Type} [LineStream σ]

/-- The operations of the handlers on a stream. -/
inductive Call
  | readLine
  | readExact (n : Nat)
  | writeLine (line : Text)
  | writeChunk (bytes : Bytes)
deriving DecidableEq

namespace Call

def isWrite : Call → Bool
  | writeLine _ => true
  | writeChunk _ => true
  | _ => false

/-- The operation, made on `st`, fails with `e` and leaves `st'`. -/
def Fails (call : Call) (st : σ) (e : IoError) (st' : σ) : Prop :=
  match call with
  | readLine => LineStream.readLine st = .error e st'
  | readExact n => LineStream.readExact n st = .error e st'
  | writeLine line => LineStream.writeAll (utf8 line) st = .error e st'
  | writeChunk bytes => LineStream.writeAll bytes st = .error e st'

/-- What the trace shows of an operation that fails. -/
def attempted : Call → List Event
  | writeLine line => [.sentLine line]
  | writeChunk bytes => [.sentChunk bytes]
  | _ => []

end Call

def Event.isSilent : Event → Bool
  | .received _ => false
  | .receivedChunk _ => false
  | .sentLine _ => false
  | .sentChunk _ => false
  | _ => true

/-- From `st` the operations of a trace, made one after the other, lead to the last stream. -/
inductive Calls : σ → List Event → σ → Prop
  | nil (st : σ) : Calls st [] st
  | received {st st₁ st₂ : σ} {line : Text} {tr : List Event}
      (call : LineStream.readLine st = .ok line st₁) (rest : Calls st₁ tr st₂) :
      Calls st (.received line::tr) st₂
  | receivedChunk {st st₁ st₂ : σ} {n : Nat} {bytes : Bytes} {tr : List Event}
      (call : LineStream.readExact n st = .ok bytes st₁) (rest : Calls st₁ tr st₂) :
      Calls st (.receivedChunk bytes::tr) st₂
  | sentLine {st st₁ st₂ : σ} {line : Text} {tr : List Event}
      (call : LineStream.writeAll (utf8 line) st = .ok () st₁) (rest : Calls st₁ tr st₂) :
      Calls st (.sentLine line::tr) st₂
  | sentChunk {st st₁ st₂ : σ} {bytes : Bytes} {tr : List Event}
      (call : LineStream.writeAll bytes st = .ok () st₁) (rest : Calls st₁ tr st₂) :
      Calls st (.sentChunk bytes::tr) st₂
  | silent {st st' : σ} {e : Event} {tr : List Event} (silent : e.isSilent = true)
      (rest : Calls st tr st') : Calls st (e::tr) st'

theorem Calls.append {st st' st'' : σ} {tr tr' : List Event} (h : Calls st tr st')
    (h' : Calls st' tr' st'') : Calls st (tr ++ tr') st'' := by
  induction h with
  | nil => exact h'
  | received call _ ih => exact .received call (ih h')
  | receivedChunk call _ ih => exact .receivedChunk call (ih h')
  | sentLine call _ ih => exact .sentLine call (ih h')
  | sentChunk call _ ih => exact .sentChunk call (ih h')
  | silent hs _ ih => exact .silent hs (ih h')

/-- A run from `w` made the operations of its trace, which led to `st`, and stopped at the call. -/
structure StoppedAt (w : World σ) (tr : List Event) (st : σ) (call : Call) (e : IoError)
    (w' : World σ) : Prop where
  trace : w'.trace = w.trace ++ tr ++ call.attempted
  calls : Calls w.stream tr st
  fails : call.Fails st e w'.stream

/-- A run that returns made the operations of its trace, one that fails stopped at an operation. -/
def Explained {α : Type} (m : Session σ α) : Prop :=
  ∀ w, match m w with
    | .ok _ w' => ∃ tr, w'.trace = w.trace ++ tr ∧ Calls w.stream tr w'.stream
    | .error (.io e) w' => ∃ tr st call, StoppedAt w tr st call e w'
    | .error _ _ => True

namespace Explained
variable {α β : Type}

theorem quiet {m : Session σ α} {a : World σ → α} {f : World σ → World σ}
    (h : ∀ w, m w = .ok (a w) (f w)) (htrace : ∀ w, (f w).trace = w.trace)
    (hstream : ∀ w, (f w).stream = w.stream) : Explained m := by
  intro w
  rw [h]
  exact ⟨[],by simp [htrace],by rw [hstream]; exact .nil _⟩

theorem emit {e : Event} (he : e.isSilent = true) : Explained (emit e : Session σ Unit) :=
  fun w => ⟨[e],rfl,.silent he (.nil w.stream)⟩

theorem bind {m : Session σ α} {f : α → Session σ β} (hm : Explained m)
    (hf : ∀ a, Explained (f a)) : Explained (m >>= f) := by
  intro w
  have hw := hm w
  cases h : m w with
  | ok a w' =>
    rw [h] at hw
    rw [bind_ok h]
    obtain ⟨tr,htr,hcalls⟩ := hw
    have hw' := hf a w'
    cases h' : f a w' with
    | ok b w'' =>
      rw [h'] at hw'
      obtain ⟨tr',htr',hcalls'⟩ := hw'
      exact ⟨tr ++ tr',by simp [htr,htr'],hcalls.append hcalls'⟩
    | error stop w'' =>
      rw [h'] at hw'
      cases stop with
      | io e =>
        obtain ⟨tr',st,call,hstop⟩ := hw'
        refine ⟨tr ++ tr',st,call,?_,hcalls.append hstop.calls,hstop.fails⟩
        simp [hstop.trace,htr]
      | panic => trivial
      | outOfFuel => trivial
  | error stop w' =>
    rw [h] at hw
    rw [bind_error h]
    cases stop <;> exact hw

theorem readLine : Explained (readLine : Session σ Text) := by
  intro w
  cases h : LineStream.readLine w.stream with
  | ok line st =>
    rw [readLine_ok h]
    exact ⟨_,rfl,.received h (.nil _)⟩
  | error e st =>
    rw [readLine_error h]
    exact ⟨[],w.stream,.readLine,by simp [Call.attempted],.nil _,h⟩

theorem readExact (n : Nat) : Explained (readExact n : Session σ Bytes) := by
  intro w
  cases h : LineStream.readExact n w.stream with
  | ok bytes st =>
    rw [readExact_ok h]
    exact ⟨_,rfl,.receivedChunk h (.nil _)⟩
  | error e st =>
    rw [readExact_error h]
    exact ⟨[],w.stream,.readExact n,by simp [Call.attempted],.nil _,h⟩

theorem writeLine (line : Text) : Explained (writeLine line : Session σ Unit) := by
  intro w
  cases h : LineStream.writeAll (utf8 line) w.stream with
  | ok a st =>
    rw [writeLine_ok h]
    exact ⟨_,rfl,.sentLine h (.nil _)⟩
  | error e st =>
    have hw : Session.writeLine line w = _ :=
      onStream_error (w := { w with trace := w.trace ++ [.sentLine line] }) h
    rw [hw]
    exact ⟨[],w.stream,.writeLine line,by simp [Call.attempted],.nil _,h⟩

theorem writeChunk (bytes : Bytes) : Explained (writeChunk bytes : Session σ Unit) := by
  intro w
  cases h : LineStream.writeAll bytes w.stream with
  | ok a st =>
    rw [writeChunk_ok h]
    exact ⟨_,rfl,.sentChunk h (.nil _)⟩
  | error e st =>
    have hw : Session.writeChunk bytes w = _ :=
      onStream_error (w := { w with trace := w.trace ++ [.sentChunk bytes] }) h
    rw [hw]
    exact ⟨[],w.stream,.writeChunk bytes,by simp [Call.attempted],.nil _,h⟩

theorem loopRules (connId : Nat) (uuid : Text) :
    LoopRules (σ := σ) connId uuid Explained where
  pure a := quiet (a := fun _ => a) (fun _ => rfl) (fun _ => rfl) fun _ => rfl
  panic _ := trivial
  outOfFuel _ := trivial
  bind := bind
  readLine := readLine
  readExact := readExact
  writeLine := writeLine
  writeChunk := writeChunk
  instant := quiet (fun _ => rfl) (fun _ => rfl) fun _ => rfl
  chunkSize := quiet (fun _ => rfl) (fun _ => rfl) fun _ => rfl
  setChunkSize _ := quiet (fun _ => rfl) (fun _ => rfl) fun _ => rfl
  updateStats _ := quiet (fun _ => rfl) (fun _ => rfl) fun _ => rfl
  stats := quiet (fun _ => rfl) (fun _ => rfl) fun _ => rfl
  command _ _ _ := emit rfl
  logCommand _ := emit rfl
  logQuit := emit rfl
  logUnknown _ := emit rfl

theorem runCommands (env : Env) (connId : Nat) (uuid : Text) (fuel : Nat) :
    Explained (runCommands env connId uuid fuel : Session σ Unit) := by
  apply bind (emit rfl)
  intro _
  apply bind ((loopRules connId uuid).setChunkSize _)
  intro _
  exact (loopRules connId uuid).commandLoop env fuel

end Explained

end

/-! ## Errors of the transport -/

/-- The operation, made on the stream, runs into this error of its transport. -/
inductive Fault : Stream → Call → IoError → Prop
  | rawLine {conn : RawConn} {e : IoError} (open_ : RawConn.newline ∉ conn.input)
      (short : conn.input.length ≤ maxLineLength) (fault : conn.inputEnd = some e) :
      Fault (.raw conn) .readLine e
  | rawExact {conn : RawConn} {n : Nat} {e : IoError} (short : conn.input.length < n)
      (fault : conn.inputEnd = some e) : Fault (.raw conn) (.readExact n) e
  | rawWrite {conn : RawConn} {call : Call} {n : Nat} {e : IoError}
      {faults : List (Option (Nat × IoError))} (write : call.isWrite = true)
      (fault : conn.faults = some (n,e)::faults) : Fault (.raw conn) call e
  | wsLine {ws : WebSocket} {e : IoError} (control : ∀ m ∈ ws.incoming, WebSocket.payload m = none)
      (open_ : .close ∉ ws.incoming) (fault : ws.incomingEnd = .io e) :
      Fault (.webSocket ws) .readLine e
  | wsExact {ws : WebSocket} {n : Nat} {e : IoError}
      (short : (WebSocket.data ws.incoming).length < n) (open_ : .close ∉ ws.incoming)
      (fault : ws.incomingEnd = .io e) : Fault (.webSocket ws) (.readExact n) e
  | wsWrite {ws : WebSocket} {call : Call} {delivered : Bool} {e : IoError}
      {faults : List (Option (Bool × WsError))} (write : call.isWrite = true)
      (fault : ws.faults = some (delivered,.io e)::faults) : Fault (.webSocket ws) call e

def Stream.isWebSocket : Stream → Bool
  | .raw _ => false
  | .webSocket _ => true

def surfaced (st : Stream) (call : Call) (e : IoError) : IoError :=
  if st.isWebSocket ∧ call.isWrite then WebSocket.writeError (.io e) else e

private theorem readUntil_open {limit : Nat} {bs : Bytes} (hopen : RawConn.newline ∉ bs)
    (hshort : bs.length ≤ limit) : RawConn.readUntil limit bs = (bs,[]) := by
  induction bs generalizing limit with
  | nil => cases limit <;> rfl
  | cons b bs ih =>
    simp only [List.mem_cons,not_or] at hopen
    cases limit with
    | zero => simp at hshort
    | succ limit =>
      rw [RawConn.readUntil,if_neg (Ne.symm hopen.1),ih hopen.2 (Nat.le_of_succ_le_succ hshort)]

private theorem nextLine_control {end_ : WsError} {messages : List Message}
    (hcontrol : ∀ m ∈ messages, WebSocket.payload m = none) (hopen : .close ∉ messages) :
    WebSocket.nextLine end_ messages = (.error (WebSocket.readError end_),[]) := by
  induction messages with
  | nil => rfl
  | cons m messages ih =>
    simp only [List.mem_cons,not_or] at hopen
    have hrest := ih (fun m hm => hcontrol m (List.mem_cons_of_mem _ hm)) hopen.2
    have hm := hcontrol m List.mem_cons_self
    cases m with
    | close => exact absurd rfl hopen.1
    | text t => cases hm
    | binary b => cases hm
    | _ => exact hrest

private theorem fill_short {end_ : WsError} {n : Nat} {messages : List Message}
    (hshort : (WebSocket.data messages).length < n) (hopen : .close ∉ messages) :
    WebSocket.fill end_ n messages = (.error (WebSocket.readError end_),[]) := by
  induction messages generalizing n with
  | nil =>
    cases n with
    | zero => cases hshort
    | succ n => rfl
  | cons m messages ih =>
    simp only [List.mem_cons,not_or] at hopen
    cases n with
    | zero => cases hshort
    | succ n =>
      rw [WebSocket.data_cons,List.length_append] at hshort
      cases hm : WebSocket.payload m with
      | none =>
        rw [WebSocket.fill_control end_ n _ hm (Ne.symm hopen.1)]
        exact ih (by simpa [hm] using hshort) hopen.2
      | some b =>
        rw [hm,Option.getD_some] at hshort
        rw [WebSocket.fill_data end_ n _ hm,ih (by omega) hopen.2]
        rfl

private theorem lift_raw_error {α : Type} {onRaw : EStateM IoError RawConn α}
    {onWs : EStateM IoError WebSocket α} {conn conn' : RawConn} {e e' : IoError} {st : Stream}
    (hrun : onRaw conn = .error e conn') (h : Stream.lift onRaw onWs (.raw conn) = .error e' st) :
    e' = e := by
  rw [Stream.lift,hrun] at h
  cases h
  rfl

private theorem lift_webSocket_error {α : Type} {onRaw : EStateM IoError RawConn α}
    {onWs : EStateM IoError WebSocket α} {ws ws' : WebSocket} {e e' : IoError} {st : Stream}
    (hrun : onWs ws = .error e ws') (h : Stream.lift onRaw onWs (.webSocket ws) = .error e' st) :
    e' = e := by
  rw [Stream.lift,hrun] at h
  cases h
  rfl

private theorem write_fails {st st' : Stream} {call : Call} {e : IoError} (hwrite : call.isWrite = true)
    (h : call.Fails st e st') : ∃ data, LineStream.writeAll data st = .error e st' := by
  cases call with
  | writeLine line => exact ⟨_,h⟩
  | writeChunk bytes => exact ⟨_,h⟩
  | readLine => cases hwrite
  | readExact n => cases hwrite

/-- The operation fails with the error of the transport, which loses its kind only in a write on a
WebSocket. -/
theorem Fault.fails {st st' : Stream} {call : Call} {cause e : IoError} (h : Fault st call cause)
    (hfails : call.Fails st e st') : e = surfaced st call cause := by
  cases h with
  | @rawLine conn _ hopen hshort hfault =>
    have hread : RawConn.readUntil (maxLineLength + 1) conn.input = (conn.input,[]) :=
      readUntil_open hopen (Nat.le_succ_of_le hshort)
    have hline : RawConn.lineFault conn conn.input = some cause := by
      have hlast : conn.input.getLast? ≠ some RawConn.newline :=
        fun hlast => hopen (List.mem_of_getLast? hlast)
      have hlen : conn.input.length ≠ maxLineLength + 1 := by omega
      rw [RawConn.lineFault,if_neg (by simp [hlen,hlast]),hfault]
    have hrun : RawConn.readLine conn = .error cause { conn with input := [] } := by
      unfold RawConn.readLine
      simp only [hread,hline]
    exact lift_raw_error hrun hfails
  | @rawExact conn n _ hshort hfault =>
    have hrun : RawConn.readExact n conn = .error cause { conn with input := conn.input.drop n } := by
      unfold RawConn.readExact
      simp only [if_neg (Nat.not_le.mpr hshort),hfault]
    exact lift_raw_error hrun hfails
  | @rawWrite conn _ n _ faults hwrite hfault =>
    obtain ⟨data,hfails⟩ := write_fails hwrite hfails
    have hrun : RawConn.writeAll data conn = .error cause
        { conn with output := conn.output ++ data.take n, faults := faults } := by
      unfold RawConn.writeAll
      rw [hfault]
    exact lift_raw_error hrun hfails
  | @wsLine ws _ hcontrol hopen hfault =>
    have hrun : WebSocket.readLine ws = .error cause { ws with incoming := [] } := by
      unfold WebSocket.readLine
      rw [nextLine_control hcontrol hopen,hfault]
      rfl
    simpa [surfaced,Call.isWrite] using lift_webSocket_error hrun hfails
  | @wsExact ws n _ hshort hopen hfault =>
    have hrun : WebSocket.readExact n ws = .error cause { ws with incoming := [] } := by
      unfold WebSocket.readExact
      rw [fill_short hshort hopen,hfault]
      rfl
    simpa [surfaced,Call.isWrite] using lift_webSocket_error hrun hfails
  | @wsWrite ws _ delivered _ faults hwrite hfault =>
    obtain ⟨data,hfails⟩ := write_fails hwrite hfails
    have hrun : WebSocket.writeAll data ws = .error (WebSocket.writeError (.io cause)) { ws with
        sent := if delivered then ws.sent ++ [WebSocket.framed data] else ws.sent
        faults := faults } := by
      unfold WebSocket.writeAll
      rw [hfault]
    simpa [surfaced,Stream.isWebSocket,hwrite] using lift_webSocket_error hrun hfails

/-! ## End reasons -/

def IoError.IsDisconnect (e : IoError) : Prop :=
  e.kind ∈ ([.connectionAborted,.connectionReset,.unexpectedEof,.brokenPipe] : List ErrorKind)

instance (e : IoError) : Decidable e.IsDisconnect := inferInstanceAs (Decidable (_ ∈ _))

/-- The end reason that is due for an error of the transport. -/
def IoError.dueReason (e : IoError) : EndReason := if e.IsDisconnect then .disconnect else .error

private theorem endReason_eq (e : IoError) : endReason e = e.dueReason := by
  obtain ⟨kind,message⟩ := e
  cases kind <;> rfl

private theorem surfaced_dueReason (st : Stream) (call : Call) (cause : IoError) :
    (surfaced st call cause).dueReason = cause.dueReason ↔
      ¬(st.isWebSocket ∧ call.isWrite ∧ cause.IsDisconnect) := by
  have hother : (WebSocket.writeError (.io cause)).dueReason = .error := rfl
  unfold surfaced
  by_cases hwrite : st.isWebSocket ∧ call.isWrite
  · rw [if_pos hwrite,hother,IoError.dueReason]
    by_cases hgone : cause.IsDisconnect <;> simp [hwrite,hgone]
  · rw [if_neg hwrite,← and_assoc]
    simp [hwrite]

private theorem handleStream_error (env : Env) (connId : Nat) (config : Config)
    (keys : List SecretKey) (sink : Sink) (fuel : Nat) {w w₁ w₂ : World Stream} {greeting : Greeting}
    {e : IoError}
    (hgreeting : runGreeting env connId config keys sink fuel w = .ok greeting w₁)
    (hcommands : runCommands env connId greeting.uuid fuel w₁ = .error (.io e) w₂) :
    ∃ w', handleStream env connId config keys sink fuel w = .ok (endReason e) w' := by
  have hfirst : attempt (runGreeting env connId config keys sink fuel) w = .ok (.ok greeting) w₁ := by
    simp [attempt,hgreeting]
  have hsecond : attempt (runCommands env connId greeting.uuid fuel) w₁ = .ok (.error e) w₂ := by
    simp [attempt,hcommands]
  unfold handleStream
  rw [bind_ok hfirst]
  dsimp only
  rw [bind_ok hsecond]
  dsimp only
  split
  · exact ⟨_,rfl⟩
  · exact ⟨_,rfl⟩

/-- A session whose command phase stops at an error of the transport ends with the reason due for
that error, on both transports and at every operation, except that a write on a WebSocket to a peer
that went away ends in `error`. -/
theorem disconnect_iff (env : Env) (connId : Nat) (config : Config) (keys : List SecretKey)
    (sink : Sink) (fuel : Nat) {w w₁ w₂ : World Stream} {greeting : Greeting} {e : IoError}
    (hgreeting : runGreeting env connId config keys sink fuel w = .ok greeting w₁)
    (hcommands : runCommands env connId greeting.uuid fuel w₁ = .error (.io e) w₂) :
    (∃ tr st call, StoppedAt w₁ tr st call e w₂) ∧
      ∃ reason w', handleStream env connId config keys sink fuel w = .ok reason w' ∧
        ∀ tr st call cause, StoppedAt w₁ tr st call e w₂ → Fault st call cause →
          (reason = cause.dueReason ↔ ¬(st.isWebSocket ∧ call.isWrite ∧ cause.IsDisconnect)) := by
  have hexplained := Explained.runCommands env connId greeting.uuid fuel w₁
  rw [hcommands] at hexplained
  obtain ⟨w',hrun⟩ := handleStream_error env connId config keys sink fuel hgreeting hcommands
  refine ⟨hexplained,endReason e,w',hrun,?_⟩
  intro tr st call cause hstop hfault
  rw [endReason_eq,hfault.fails hstop.fails]
  exact surfaced_dueReason st call cause

private theorem eq_ok_final {α : Type} {r : EStateM.Result Stop (World Stream) α} {a : α}
    (h : (match r with
      | .ok a _ => some a
      | .error _ _ => none) = some a) : r = .ok a (final r) := by
  cases r <;> simp_all

private theorem eq_error_final {α : Type} {r : EStateM.Result Stop (World Stream) α} {e : Stop}
    (h : (match r with
      | .ok _ _ => none
      | .error e _ => some e) = some e) : r = .error e (final r) := by
  cases r <;> simp_all

def resetConn : RawConn where
  input := utf8 ("TOKEN " ++ goldenToken ++ "\n")
  inputEnd := some ⟨.connectionReset,"connection reset"⟩
  output := []
  faults := []
  peer := some (.new goldenIp 40000)

theorem disconnect_iff_golden :
    let w := World.start (Stream.raw resetConn) id fun _ => 1699999990
    ∃ (w₁ w₂ w' : World Stream) (tr : List Event) (st : Stream) (call : Call),
      StoppedAt w₁ tr st call ⟨.connectionReset,"connection reset"⟩ w₂ ∧
      handleStream goldenEnv 1 .default [goldenKey] ⟨false,[]⟩ 2 w = .ok .disconnect w' := by
  intro w
  let w₁ := final (runGreeting goldenEnv 1 .default [goldenKey] ⟨false,[]⟩ 2 w)
  let greeting : Greeting := ⟨uuidOf goldenToken,"v1",goldenKey.label⟩
  have hgreeting : runGreeting goldenEnv 1 .default [goldenKey] ⟨false,[]⟩ 2 w = .ok greeting w₁ :=
    eq_ok_final (by decide +kernel)
  have hcommands : runCommands goldenEnv 1 greeting.uuid 2 w₁ =
      .error (.io ⟨.connectionReset,"connection reset"⟩) _ := eq_error_final (by decide +kernel)
  obtain ⟨⟨tr,st,call,hstop⟩,reason,w',hrun,-⟩ :=
    disconnect_iff goldenEnv 1 .default [goldenKey] ⟨false,[]⟩ 2 hgreeting hcommands
  have hreason : (match handleStream goldenEnv 1 .default [goldenKey] ⟨false,[]⟩ 2 w with
      | .ok reason _ => some reason
      | .error _ _ => none) = some .disconnect := by decide +kernel
  rw [hrun,Option.some.injEq] at hreason
  subst hreason
  exact ⟨w₁,_,w',tr,st,call,hstop,hrun⟩

/-- Both clients are gone when the server asks for a command. -/
theorem disconnect_hidden :
    let e : IoError := ⟨.brokenPipe,"Broken pipe"⟩
    let raw : RawConn := { resetConn with faults := [none,none,none,none,some (0,e)] }
    let ws : WebSocket := ⟨[.text ("TOKEN " ++ goldenToken)],.io e,[],
      [none,none,none,none,some (false,.io e)],some (.new goldenIp 40000)⟩
    let reason (st : Stream) := match handleStream goldenEnv 1 .default [goldenKey] ⟨false,[]⟩ 2
        (World.start st id fun _ => 1699999990) with
      | .ok reason _ => some reason
      | .error _ _ => none
    reason (.raw raw) = some .disconnect ∧ reason (.webSocket ws) = some .error := by
  decide +kernel

end Rmbtd
