import Rmbtd.Library.Collect
import Rmbtd.Server.ConnIds
import Rmbtd.Server.EventTrail
import Rmbtd.Server.Syslog

/-!
# What a collector knows of the connections

The datagrams of all connections arrive at the collector mixed, and some of them never. As long as the
connections have different ids, those that carry an id are what arrived of one connection, and nothing a
client sends can make the collector take an event for one of another connection.
-/

namespace Rmbtd

open Effect Transition

abbrev Notice := Text × List (Text × Json)

def SyslogEvent.notice (f : FloatTexts) (e : SyslogEvent) : Notice :=
  (e.msgid,(e.fields f).map BuilderCall.member)

def readNotice (d : Bytes) : Option Notice := (readDatagram d).map fun r => (r.msgid,r.members)

/-- The id of the connection a notice is about. -/
def Notice.connId (m : Notice) : Option Int64 :=
  match m.2.lookup "conn".toList with
  | some (.number n) => parseInt64 n
  | _ => none

def carriedId (d : Bytes) : Option Int64 := (readNotice d).bind Notice.connId

/-- The events that carry a connection id, read back from what was received. -/
def trailOf (connId : Int64) (received : List Bytes) : List Notice :=
  (Collect.carrying carriedId connId received).filterMap readNotice

def SinkEvent.connId : SinkEvent → Nat
  | .connect e => e.connId
  | .auth e => e.connId
  | .close e => e.connId

private theorem ofNat_toNat (n : UInt64) : Int64.ofNat n.toNat = n.toInt64 :=
  congrArg UInt64.toInt64 (UInt64.ofNat_toNat (x := n))

section
variable (f : FloatTexts)

theorem notice_connId (e : SinkEvent) :
    ((SyslogEvent.connection e).notice f).connId = some (Int64.ofNat e.connId) := by
  have hread {m : Notice} {connId : Nat}
      (h : m.2.lookup "conn".toList = some (.number (intText (Int64.ofNat connId).toInt))) :
      m.connId = some (Int64.ofNat connId) := by
    rw [Notice.connId,h]
    exact parseInt64_intText (Int64.ofNat connId)
  cases e with
  | connect e => exact hread rfl
  | auth e => exact hread rfl
  | close e => exact hread rfl

theorem notice_connId_none {e : SyslogEvent} (h : ∀ event, e ≠ .connection event) :
    (e.notice f).connId = none := by
  cases e with
  | startup => rfl
  | connection event => exact absurd rfl (h event)
  | error => rfl

/-- A connection that has ended, with the run of its handler. -/
structure ServedConnection (http : HttpEnv) (config : Config) (keys : List SecretKey) where
  setup : Setup
  connId : UInt64
  addr : SocketAddr
  isTls : Bool
  conn : RawConn
  instants : Nat → Nat
  wall : Nat → Int64
  fuel : Nat
  finish : Finish
  watched : Watched
  ended : handleWithSink http setup connId.toNat config keys addr isTls true fuel
    ⟨World.start (.raw conn) instants wall,[]⟩ = .ok finish watched

namespace ServedConnection

variable {http : HttpEnv} {config : Config} {keys : List SecretKey}

def trail (c : ServedConnection http config keys) : List Notice :=
  c.watched.sent.map fun e => (SyslogEvent.connection e).notice f

theorem sent_cases (c : ServedConnection http config keys) : ∃ connect close, ∃ auth : Option AuthEvent,
    c.watched.sent = .connect connect::(auth.toList.map .auth ++ [.close close]) ∧
      connect.connId = c.connId.toNat ∧ (∀ event ∈ auth, event.connId = c.connId.toNat) ∧
      close.connId = c.connId.toNat := by
  have hstart : (World.start (.raw c.conn) c.instants c.wall : World Stream).stream = .raw c.conn := rfl
  have hcourse := handleWithSink_course http c.setup c.connId.toNat config keys c.isTls c.addr hstart c.fuel
  rw [c.ended] at hcourse
  obtain ⟨tr,greeting,duration,stats,-,hfinished,hsent⟩ := hcourse
  obtain ⟨auth,close,hsends⟩ : ∃ auth close, Sends _ _ _ _ _ c.isTls tr _ auth close :=
    (hfinished.trail duration stats fun _ _ _ _ hreach hreach' => hreach.unique hreach').1
  refine ⟨_,close,auth,hsent.trans hsends.sent,rfl,?_,hsends.connId⟩
  intro event hevent
  obtain ⟨token,next,-,-,rfl⟩ := hsends.isFor event hevent
  unfold authEventOn
  split <;> rfl

theorem connId_of_sent (c : ServedConnection http config keys) {event : SinkEvent}
    (h : event ∈ c.watched.sent) : event.connId = c.connId.toNat := by
  obtain ⟨connect,close,auth,hsent,hconnect,hauth,hclose⟩ := c.sent_cases
  rw [hsent] at h
  rcases List.mem_cons.mp h with rfl | h
  · exact hconnect
  rcases List.mem_append.mp h with h | h
  · obtain ⟨event,hevent,rfl⟩ := List.mem_map.mp h
    exact hauth event (Option.mem_toList.mp hevent)
  · cases List.mem_singleton.mp h
    exact hclose

end ServedConnection

variable {http : HttpEnv} {config : Config} {keys : List SecretKey}

/-- The datagram tells of the event. -/
def EventSink.Tells (sink : EventSink) (e : SyslogEvent) (d : Bytes) : Prop :=
  ∃ ts, IsTimestamp ts ∧ d = sink.datagram f ts e

/-- The datagrams that are sent of each connection, in the order of its events, and of none. -/
structure EventSink.Sends (sink : EventSink) (conns : List (ServedConnection http config keys))
    (sent : Option Nat → List Bytes) : Prop where
  connection : ∀ i (c : ServedConnection http config keys), conns[i]? = some c →
    List.Forall₂ (fun e d => sink.Tells f (.connection e) d) c.watched.sent (sent (some i))
  beyond : ∀ i, conns.length ≤ i → sent (some i) = []
  others : ∀ d ∈ sent none, ∃ e, sink.Tells f e d ∧ ∀ event, e ≠ .connection event

variable {sink : EventSink} {conns : List (ServedConnection http config keys)} {sent : Option Nat → List Bytes}
  {arrived : List (Option Nat × Bytes)}

private theorem readNotice_of_tells (hhost : ' ' ∉ sink.hostname) {e : SyslogEvent} {d : Bytes}
    (h : sink.Tells f e d) : readNotice d = some (e.notice f) := by
  obtain ⟨ts,hts,rfl⟩ := h
  rw [readNotice,readDatagram_datagram sink f ts e hts hhost]
  rfl

private theorem carriedId_of_tells (hhost : ' ' ∉ sink.hostname) {e : SyslogEvent} {d : Bytes}
    (h : sink.Tells f e d) : carriedId d = (e.notice f).connId := by
  rw [carriedId,readNotice_of_tells f hhost h]
  rfl

private theorem read_sent (hhost : ' ' ∉ sink.hostname) {events : List SinkEvent} {ds : List Bytes}
    (h : List.Forall₂ (fun e d => sink.Tells f (.connection e) d) events ds) :
    ds.filterMap readNotice = events.map fun e => (SyslogEvent.connection e).notice f := by
  induction h with
  | nil => rfl
  | cons h _ ih => rw [List.filterMap_cons_some (readNotice_of_tells f hhost h),List.map_cons,ih]

private theorem exists_event {events : List SinkEvent} {ds : List Bytes}
    (h : List.Forall₂ (fun e d => sink.Tells f (.connection e) d) events ds) {d : Bytes} (hd : d ∈ ds) :
    ∃ e ∈ events, sink.Tells f (.connection e) d := by
  induction h with
  | nil => cases hd
  | cons h _ ih =>
    rcases List.mem_cons.mp hd with rfl | hd
    · exact ⟨_,List.mem_cons_self,h⟩
    · obtain ⟨e,he,htells⟩ := ih hd
      exact ⟨e,List.mem_cons_of_mem _ he,htells⟩

private theorem carriedId_iff (hhost : ' ' ∉ sink.hostname) (hids : (conns.map ServedConnection.connId).Nodup)
    (hsent : sink.Sends f conns sent) {i : Nat} {c : ServedConnection http config keys} (hc : conns[i]? = some c)
    (j : Option Nat) {d : Bytes} (hd : d ∈ sent j) : carriedId d = some c.connId.toInt64 ↔ j = some i := by
  cases j with
  | none =>
    obtain ⟨e,htells,he⟩ := hsent.others d hd
    rw [carriedId_of_tells f hhost htells,notice_connId_none f he]
    exact ⟨nofun,nofun⟩
  | some j =>
    have hj : j < conns.length := by
      by_contra hj
      rw [hsent.beyond j (Nat.le_of_not_lt hj)] at hd
      cases hd
    have hc' : conns[j]? = some conns[j] := List.getElem?_eq_getElem hj
    obtain ⟨e,he,htells⟩ := exists_event f (hsent.connection j _ hc') hd
    rw [carriedId_of_tells f hhost htells,notice_connId,ServedConnection.connId_of_sent _ he,ofNat_toNat]
    constructor
    · intro hid
      have hid : conns[j].connId = c.connId := congrArg Int64.toUInt64 (Option.some.inj hid)
      have hget : (conns.map ServedConnection.connId)[j]? = (conns.map ServedConnection.connId)[i]? := by
        rw [List.getElem?_map,List.getElem?_map,hc',hc,Option.map_some,Option.map_some,hid]
      have hlt : j < (conns.map ServedConnection.connId).length := by
        rw [List.length_map]
        exact hj
      exact congrArg some ((List.getElem?_inj hlt hids).mp hget)
    · rintro ⟨⟩
      rw [hc'] at hc
      cases hc
      rfl

/-- Of the datagrams of all connections, mixed and some of them lost, those that carry the id of a connection
tell some of its events, in the order in which they were sent, and all of them if none was lost. This is so as
long as the workers' ids do not meet and the host name has no blank, whatever the clients sent. -/
theorem collector_trails {numWorkers : Nat} {isTls : List Bool} {ls : List Label} {t : ServerState}
    (run : Run ServerState.step (fun _ _ => True) (.start numWorkers isTls) ls t) (hids : t.WithinIds)
    (hconns : (conns.map ServedConnection.connId).Sublist (t.handled.map Prod.snd))
    (hhost : ' ' ∉ sink.hostname) (hsent : sink.Sends f conns sent) (harrived : Collect.Mixed sent arrived)
    {i : Nat} {c : ServedConnection http config keys} (hc : conns[i]? = some c) :
    (trailOf c.connId.toInt64 (arrived.map Prod.snd)).Sublist (c.trail f) ∧
      (Collect.ofSender (some i) arrived = sent (some i) →
        trailOf c.connId.toInt64 (arrived.map Prod.snd) = c.trail f) := by
  have hnodup := hconns.nodup ((ServerState.Numbered.of_run run).nodup_iff.mpr hids)
  have hread : (sent (some i)).filterMap readNotice = c.trail f := read_sent f hhost (hsent.connection i c hc)
  rw [trailOf,Collect.carrying_eq_ofSender harrived fun j d hd => carriedId_iff f hhost hnodup hsent hc j hd]
  constructor
  · rw [← hread]
    exact (harrived (some i)).filterMap readNotice
  · intro hall
    rw [hall,hread]

end

/-- A connection whose socket cannot be set up. -/
def unsetRun (connId : UInt64) : EStateM.Result Stop Watched Finish :=
  handleWithSink goldenHttp ⟨some ⟨.other,"Invalid argument"⟩,none⟩ connId.toNat .default [goldenKey]
    (.new goldenIp 40000) false true 0 ⟨World.start (.raw earlyGoneConn) id fun _ => 1699999990,[]⟩

private theorem unset_sent (connId : UInt64) (h : connId = 1 ∨ connId = 100001) :
    ∃ c : ServedConnection goldenHttp .default [goldenKey], c.connId = connId ∧ ∃ a b, c.watched.sent = [a,b] := by
  have hends : (outcome (unsetRun connId)).toBool = true ∧ (final (unsetRun connId)).sent.length = 2 := by
    rcases h with rfl | rfl
    · decide +kernel
    · decide +kernel
  obtain ⟨hok,hsent⟩ := hends
  cases hrun : unsetRun connId with
  | error stop s =>
    rw [hrun] at hok
    cases hok
  | ok finish s =>
    rw [hrun] at hsent
    exact ⟨⟨_,connId,_,_,_,_,_,_,finish,s,hrun⟩,rfl,List.length_eq_two.mp hsent⟩

theorem collector_trails_golden :
    ∃ (c c' : ServedConnection goldenHttp .default [goldenKey]) (received : List Bytes),
      received.length = 3 ∧ (c'.trail zeroFloats).length = 2 ∧
      (trailOf 1 received).Sublist (c.trail zeroFloats) ∧ trailOf 100001 received = c'.trail zeroFloats := by
  obtain ⟨t,hrun,hhandled⟩ := run_of_exec_map (f := ServerState.handled) (a := [(0,1),(1,100001)])
    (show (exec ServerState.step (.start 2 [false]) [.arrive 0 anyPeer,.arrive 0 anyPeer,.wake [0],
      .accept true,.accept true,.dequeue 0,.dequeue 1]).map ServerState.handled = _ by decide)
  have hids : t.WithinIds := (ServerState.Numbered.of_run hrun).nodup_iff.mp (by rw [hhandled]; decide)
  obtain ⟨c,hc,a,b,hsent⟩ := unset_sent 1 (Or.inl rfl)
  obtain ⟨c',hc',a',b',hsent'⟩ := unset_sent 100001 (Or.inr rfl)
  let sink := EventSink.new (fun _ => none) 4242
  have hhost : ' ' ∉ sink.hostname := by decide
  let d (e : SinkEvent) : Bytes := sink.datagram zeroFloats "2026-06-21T12:34:56.789Z" (.connection e)
  have htells (e : SinkEvent) : sink.Tells zeroFloats (.connection e) (d e) := ⟨_,by decide,rfl⟩
  let sent (sender : Option Nat) : List Bytes :=
    if sender = some 0 then [d a,d b] else if sender = some 1 then [d a',d b'] else []
  have hsends : sink.Sends zeroFloats [c,c'] sent := by
    constructor
    · intro i x hx
      rcases i with _ | _ | i
      · cases hx
        rw [hsent]
        exact .cons (htells a) (.cons (htells b) .nil)
      · cases hx
        rw [hsent']
        exact .cons (htells a') (.cons (htells b') .nil)
      · cases hx
    · intro i hi
      have htwo : 2 ≤ i := hi
      simp [sent,show i ≠ 0 by omega,show i ≠ 1 by omega]
    · simp [sent]
  let arrived : List (Option Nat × Bytes) := [(some 1,d a'),(some 0,d a),(some 1,d b')]
  have harrived : Collect.Mixed sent arrived := by
    intro i
    rcases i with _ | _ | _ | i
    · exact List.nil_sublist _
    · exact (List.nil_sublist [d b]).cons_cons (d a)
    · exact List.Sublist.refl _
    · exact List.nil_sublist _
  have hconns : ([c,c'].map ServedConnection.connId).Sublist (t.handled.map Prod.snd) := by
    rw [hhandled,List.map_cons,List.map_cons,hc,hc']
    exact List.Sublist.refl _
  refine ⟨c,c',arrived.map Prod.snd,rfl,?_,?_,?_⟩
  · rw [ServedConnection.trail,hsent']
    rfl
  · have htrail := (collector_trails zeroFloats hrun hids hconns hhost hsends harrived (i := 0) rfl).1
    rw [hc] at htrail
    exact htrail
  · have htrail := (collector_trails zeroFloats hrun hids hconns hhost hsends harrived (i := 1) rfl).2 rfl
    rw [hc'] at htrail
    exact htrail

end Rmbtd
