import Rmbtd.EventBody
import Rmbtd.Protocol.Transports
import Rmbtd.Server.Handler

/-!
# Events of a connection

`handle_connection` with what it sends to the event sink: a `connect` event before the session, the
`auth` event of the greeting and a `close` event after the session. The session in between is the one
that `handleConnection` runs.
-/

namespace Rmbtd

open Effect Session

structure ConnectEvent where
  connId : Nat
  client : Text
  tls : Bool
deriving DecidableEq

inductive SinkEvent
  | connect (event : ConnectEvent)
  | auth (event : AuthEvent)
  | close (event : CloseEvent)
deriving DecidableEq

def Event.authEvent : Event → Option AuthEvent
  | .auth event => some event
  | _ => none

def authEvents (tr : List Event) : List AuthEvent := tr.filterMap Event.authEvent

@[simp] theorem authEvents_nil : authEvents [] = [] := rfl

@[simp] theorem authEvents_append (tr tr' : List Event) :
    authEvents (tr ++ tr') = authEvents tr ++ authEvents tr' := List.filterMap_append

/-- A session and what the sink was sent about it. -/
structure Watched where
  world : World Stream
  sent : List SinkEvent

abbrev Watching := EStateM Stop Watched

namespace Watching

variable {α : Type}

/-- The `auth` events of a part of a session are sent as they come. -/
def after (s : Watched) (w : World Stream) : Watched where
  world := w
  sent := s.sent ++ (authEvents (w.trace.drop s.world.trace.length)).map .auth

def resultAfter (s : Watched) :
    EStateM.Result Stop (World Stream) α → EStateM.Result Stop Watched α
  | .ok a w => .ok a (after s w)
  | .error stop w => .error stop (after s w)

def inSession (m : Session Stream α) : Watching α := fun s => resultAfter s (m s.world)

def send (event : SinkEvent) : Watching Unit := modify fun s => { s with sent := s.sent ++ [event] }

section
variable {m : Session Stream α} {s : Watched} {w : World Stream} {tr : List Event}

private theorem after_eq (htr : w.trace = s.world.trace ++ tr) :
    after s w = ⟨w,s.sent ++ (authEvents tr).map .auth⟩ := by
  rw [after,htr,List.drop_left]

theorem inSession_ok {a : α} (h : m s.world = .ok a w) (htr : w.trace = s.world.trace ++ tr) :
    inSession m s = .ok a ⟨w,s.sent ++ (authEvents tr).map .auth⟩ := by
  rw [← after_eq htr,inSession,h,resultAfter]

theorem inSession_error {stop : Stop} (h : m s.world = .error stop w)
    (htr : w.trace = s.world.trace ++ tr) :
    inSession m s = .error stop ⟨w,s.sent ++ (authEvents tr).map .auth⟩ := by
  rw [← after_eq htr,inSession,h,resultAfter]

theorem quiet_step {a : α} (h : m s.world = .ok a w) (htr : w.trace = s.world.trace ++ tr)
    (hquiet : authEvents tr = []) : inSession m s = .ok a ⟨w,s.sent⟩ := by
  rw [inSession_ok h htr,hquiet]
  simp

theorem silent_step {a : α} (h : m s.world = .ok a w) (htr : w.trace = s.world.trace) :
    inSession m s = .ok a ⟨w,s.sent⟩ :=
  quiet_step h (htr.trans (List.append_nil _).symm) rfl

end

end Watching

open Watching

/-- The `close` event. Uuid, token type and label are those of the greeting, if it succeeded. -/
def closeEvent (connId : Nat) (isTls : Bool) (greeting : Option Greeting) (duration : Nat)
    (stats : ConnStats) (finish : Finish) : CloseEvent :=
  let (uuid,token,secret) := match greeting with
    | some g => (g.uuid,g.tokenType,g.label)
    | none => ([],[],[])
  ⟨connId,uuid,token,secret,isTls,duration,stats,finish.toText⟩

section
variable (http : HttpEnv) (setup : Setup) (connId : Nat) (config : Config) (keys : List SecretKey)

/-- Everything that is done with one accepted connection, and what the sink is sent. -/
def handleWithSink (addr : SocketAddr) (isTls sinkEnabled : Bool) (fuel : Nat) :
    Watching Finish := do
  let client := clientLabel config addr
  inSession (log .info (connTag connId ++ "connection from " ++ client))
  if sinkEnabled then send (.connect ⟨connId,client,isTls⟩)
  let start ← inSession instant
  let (finish,greeting) ← inSession
    (runSession http setup connId config keys isTls ⟨sinkEnabled,client⟩ fuel)
  if sinkEnabled then do
    let duration ← inSession (elapsed start)
    let stats ← inSession stats
    send (.close (closeEvent connId isTls greeting duration stats finish))
  inSession (logClosing connId finish greeting)
  return finish

/-- `handleWithSink` from where the session starts. -/
def watchedSession (isTls : Bool) (sink : Sink) (start fuel : Nat) : Watching Finish := do
  let (finish,greeting) ← inSession (runSession http setup connId config keys isTls sink fuel)
  if sink.enabled then do
    let duration ← inSession (elapsed start)
    let stats ← inSession stats
    send (.close (closeEvent connId isTls greeting duration stats finish))
  inSession (logClosing connId finish greeting)
  return finish

/-- The session starts once the connection is announced and the clock was read. -/
theorem handleWithSink_eq (addr : SocketAddr) (isTls sinkEnabled : Bool) (fuel : Nat) (w : World Stream)
    (sent : List SinkEvent) :
    let client := clientLabel config addr
    handleWithSink http setup connId config keys addr isTls sinkEnabled fuel ⟨w,sent⟩ =
      watchedSession http setup connId config keys isTls ⟨sinkEnabled,client⟩ (w.instants 0) fuel
        ⟨{ w with
          instants := fun i => w.instants (i+1)
          trace := w.trace ++ [.logged ⟨.info,connTag connId ++ "connection from " ++ client,none⟩] },
        sent ++ if sinkEnabled then [.connect ⟨connId,client,isTls⟩] else []⟩ := by
  obtain ⟨client,hclient⟩ : ∃ client, client = clientLabel config addr := ⟨_,rfl⟩
  obtain ⟨opening,hopening⟩ : ∃ opening : LogRecord,
      opening = ⟨.info,connTag connId ++ "connection from " ++ client,none⟩ := ⟨_,rfl⟩
  have hlog : inSession (log .info (connTag connId ++ "connection from " ++ client)) ⟨w,sent⟩ =
      .ok () ⟨{ w with trace := w.trace ++ [.logged opening] },sent⟩ := by
    rw [hopening]
    exact quiet_step rfl rfl rfl
  have hinstant (sent : List SinkEvent) : inSession instant
      ⟨{ w with trace := w.trace ++ [.logged opening] },sent⟩ = .ok (w.instants 0) ⟨{ w with
        instants := fun i => w.instants (i+1)
        trace := w.trace ++ [.logged opening] },sent⟩ := silent_step rfl rfl
  have hconnect (event : SinkEvent) (s : Watched) : send event s =
      .ok () { s with sent := s.sent ++ [event] } := rfl
  unfold handleWithSink watchedSession
  dsimp only
  rw [← hclient,bind_ok hlog,← hopening]
  cases sinkEnabled with
  | true =>
    simp only [if_true]
    rw [bind_ok (hconnect _ _),bind_ok (hinstant _)]
  | false =>
    simp only [Bool.false_eq_true,if_false,List.append_nil]
    rw [bind_ok (hinstant _)]

end

end Rmbtd
