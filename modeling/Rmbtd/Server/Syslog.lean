import Rmbtd.Library.Utf8
import Rmbtd.Server.SinkEvents

/-!
# Syslog datagrams

`EventSink` of `events.rs`: every event is sent as one datagram, an RFC 5424 record around a JSON
object. A collector takes the record apart again and finds the fields of the event, unless the name
of the host has a blank in it.
-/

namespace Rmbtd

open JsonText

/-- Best-effort hostname from the environment; `-` when unknown. An empty variable hides the other one. -/
def hostname (env : Text → Option Text) : Text :=
  let name := (env "HOSTNAME").or (env "COMPUTERNAME")
  (name.filter fun h => h ≠ []).getD "-"

theorem hostname_ne_nil (env : Text → Option Text) : hostname env ≠ [] := by
  unfold hostname
  dsimp only
  cases hname : ((env "HOSTNAME").or (env "COMPUTERNAME")).filter fun h => h ≠ [] with
  | none => simp
  | some h => exact of_decide_eq_true (Option.filter_eq_some_iff.mp hname).2

/-- Sends structured events to a syslog collector. -/
structure EventSink where
  hostname : Text
  procid : UInt32
  named : hostname ≠ []

/-- The sink of a process, once its socket is connected. -/
def EventSink.new (env : Text → Option Text) (procid : UInt32) : EventSink where
  hostname := Rmbtd.hostname env
  procid := procid
  named := hostname_ne_nil env

def appName : Text := "rmbtd"

def facility : Nat := 16

def sevErr : UInt8 := 3
def sevNotice : UInt8 := 5
def sevInfo : UInt8 := 6

/-! ## The bodies -/

def startupBody (version : Text) (workers tcpListeners tlsListeners : Nat) : Text :=
  let j := JsonBuilder.new.str "event" "startup"
  let j := j.str "version" version
  let j := j.int "workers" (Int64.ofNat workers)
  let j := j.int "tcp_listeners" (Int64.ofNat tcpListeners)
  let j := j.int "tls_listeners" (Int64.ofNat tlsListeners)
  j.done

def connectBody (e : ConnectEvent) : Text :=
  let j := JsonBuilder.new.str "event" "connect"
  let j := j.int "conn" (Int64.ofNat e.connId)
  let j := j.str "client" e.client
  let j := j.bool "tls" e.tls
  j.done

def errorBody (context message : Text) : Text :=
  let j := JsonBuilder.new.str "event" "error"
  let j := j.str "context" context
  let j := j.str "message" message
  j.done

/-! ## The frames -/

namespace EventSink

/-- The RFC 5424 frame. -/
def frame (sink : EventSink) (ts : Text) (severity : UInt8) (msgid body : Text) : Text :=
  "<" ++ natText (facility * 8 + severity.toNat) ++ ">1 " ++ ts ++ " " ++ sink.hostname ++ " " ++
    appName ++ " " ++ natText sink.procid.toNat ++ " " ++ msgid ++ " - " ++ body

/-- The datagram that is sent at a time. -/
def emit (sink : EventSink) (ts : Text) (severity : UInt8) (msgid body : Text) : Bytes :=
  utf8 (sink.frame ts severity msgid body)

variable (sink : EventSink) (ts : Text)

def startup (version : Text) (workers tcpListeners tlsListeners : Nat) : Bytes :=
  sink.emit ts sevInfo "lifecycle" (startupBody version workers tcpListeners tlsListeners)

def connect (e : ConnectEvent) : Bytes := sink.emit ts sevInfo "connect" (connectBody e)

def auth (e : AuthEvent) : Bytes :=
  let sev := if e.result = "rejected" then sevNotice else sevInfo
  sink.emit ts sev "auth" (authBody e)

def close (f : FloatTexts) (e : CloseEvent) : Bytes := sink.emit ts sevInfo "close" (closeBody f e)

def error (context message : Text) : Bytes := sink.emit ts sevErr "error" (errorBody context message)

end EventSink

inductive SyslogEvent
  | startup (version : Text) (workers tcpListeners tlsListeners : Nat)
  | connection (event : SinkEvent)
  | error (context message : Text)
deriving DecidableEq

def EventSink.datagram (sink : EventSink) (f : FloatTexts) (ts : Text) : SyslogEvent → Bytes
  | .startup version workers tcpListeners tlsListeners =>
    sink.startup ts version workers tcpListeners tlsListeners
  | .connection (.connect e) => sink.connect ts e
  | .connection (.auth e) => sink.auth ts e
  | .connection (.close e) => sink.close ts f e
  | .error context message => sink.error ts context message

/-! ## What a datagram says -/

namespace SyslogEvent

def severity : SyslogEvent → UInt8
  | startup .. => 6
  | connection (.connect _) => 6
  | connection (.auth e) => if e.result = "rejected" then 5 else 6
  | connection (.close _) => 6
  | error .. => 3

def msgid : SyslogEvent → Text
  | startup .. => "lifecycle"
  | connection (.connect _) => "connect"
  | connection (.auth _) => "auth"
  | connection (.close _) => "close"
  | error .. => "error"

def fields (f : FloatTexts) : SyslogEvent → List BuilderCall
  | startup version workers tcpListeners tlsListeners => [.str "event" "startup",.str "version" version,
    .int "workers" (Int64.ofNat workers),.int "tcp_listeners" (Int64.ofNat tcpListeners),
    .int "tls_listeners" (Int64.ofNat tlsListeners)]
  | connection (.connect e) => [.str "event" "connect",.int "conn" (Int64.ofNat e.connId),
    .str "client" e.client,.bool "tls" e.tls]
  | connection (.auth e) => authFields e
  | connection (.close e) => closeFields f e
  | error context message => [.str "event" "error",.str "context" context,.str "message" message]

private theorem msgid_mem (e : SyslogEvent) : e.msgid ∈
    ["lifecycle".toList,"connect".toList,"auth".toList,"close".toList,"error".toList] := by
  unfold msgid
  split <;> simp

theorem msgid_word (e : SyslogEvent) : e.msgid ≠ [] ∧ ' ' ∉ e.msgid :=
  (show ∀ id ∈ ["lifecycle".toList,"connect".toList,"auth".toList,"close".toList,"error".toList],
    id ≠ [] ∧ ' ' ∉ id by decide) _ e.msgid_mem

theorem msgid_printable (e : SyslogEvent) : ∀ c ∈ e.msgid, 0x20 ≤ c.toNat :=
  (show ∀ id ∈ ["lifecycle".toList,"connect".toList,"auth".toList,"close".toList,"error".toList],
    ∀ c ∈ id, 0x20 ≤ c.toNat by simp) _ e.msgid_mem

theorem severity_lt (e : SyslogEvent) : e.severity.toNat < 8 := by
  have hseverities : ∀ severity ∈ [(3 : UInt8),5,6], severity.toNat < 8 := by simp
  apply hseverities
  unfold severity
  split
  · simp
  · simp
  · split <;> simp
  · simp
  · simp

end SyslogEvent

/-- An RFC 5424 record with an object as its body. -/
structure SyslogRecord where
  facility : Nat
  severity : Nat
  timestamp : Text
  hostname : Text
  appName : Text
  procid : Text
  msgid : Text
  members : List (Text × Json)

/-- A field ends at the first blank and is not empty. -/
def readField (t : Text) : Option (Text × Text) := (splitOnce " " t).filter fun p => p.1 ≠ []

/-- The body is what is left after the fields. -/
def readRecord (t : Text) : Option SyslogRecord := do
  let t ← stripPrefix "<" t
  let (pri,t) ← splitOnce ">" t
  let pri ← parseDigits pri
  let t ← stripPrefix "1 " t
  let (timestamp,t) ← readField t
  let (hostname,t) ← readField t
  let (appName,t) ← readField t
  let (procid,t) ← readField t
  let (msgid,t) ← readField t
  let body ← stripPrefix "- " t
  match parseJson body with
  | some (.object members) => some ⟨pri / 8,pri % 8,timestamp,hostname,appName,procid,msgid,members⟩
  | _ => none

/-- What a collector reads of a datagram. -/
def readDatagram (d : Bytes) : Option SyslogRecord := (fromUtf8 d).bind readRecord

/-- A timestamp is one field. -/
def IsTimestamp (ts : Text) : Prop := ts ≠ [] ∧ ' ' ∉ ts

instance (ts : Text) : Decidable (IsTimestamp ts) := inferInstanceAs (Decidable (ts ≠ [] ∧ ' ' ∉ ts))

def EventSink.record (sink : EventSink) (f : FloatTexts) (ts : Text) (e : SyslogEvent) : SyslogRecord where
  facility := 16
  severity := e.severity.toNat
  timestamp := ts
  hostname := sink.hostname
  appName := "rmbtd"
  procid := natText sink.procid.toNat
  msgid := e.msgid
  members := (e.fields f).map BuilderCall.member

section
variable (sink : EventSink) (f : FloatTexts) (ts : Text) (e : SyslogEvent)

/-- Every datagram is the frame of the event's fields. -/
theorem datagram_eq : sink.datagram f ts e =
    utf8 (sink.frame ts e.severity e.msgid (buildJson (e.fields f))) := by
  cases e with
  | startup => rfl
  | connection event =>
    cases event with
    | connect => rfl
    | auth event =>
      simp only [EventSink.datagram,EventSink.auth,EventSink.emit,authBody_eq]
      rfl
    | close event =>
      simp only [EventSink.datagram,EventSink.close,EventSink.emit,closeBody_eq]
      rfl
  | error => rfl

private theorem frame_eq (severity : UInt8) (msgid body : Text) : sink.frame ts severity msgid body =
    '<'::(natText (128 + severity.toNat) ++ '>':: '1':: ' '::(ts ++ ' '::(sink.hostname ++ ' '::(appName ++
      ' '::(natText sink.procid.toNat ++ ' '::(msgid ++ ' ':: '-':: ' '::body)))))) := by
  unfold EventSink.frame facility
  simp

private theorem readRecord_frame {severity : UInt8} {msgid body : Text} {members : List (Text × Json)}
    (hts : IsTimestamp ts) (hhost : ' ' ∉ sink.hostname) (hmsgid : msgid ≠ [] ∧ ' ' ∉ msgid)
    (hbody : parseJson body = some (.object members)) :
    readRecord (sink.frame ts severity msgid body) = some ⟨(128 + severity.toNat) / 8,
      (128 + severity.toNat) % 8,ts,sink.hostname,appName,natText sink.procid.toNat,msgid,members⟩ := by
  have hdigits {c : Char} (hc : ¬c.isDigit) (n : Nat) : c ∉ natText n := fun h => hc (natText_isDigit h)
  have hfield {field : Text} (h : field ≠ [] ∧ ' ' ∉ field) (rest : Text) :
      readField (field ++ ' '::rest) = some (field,rest) := by
    have hsplit : splitOnce " " (field ++ ' '::rest) = some (field,rest) := splitOnce_singleton.mpr ⟨rfl,h.2⟩
    rw [readField,hsplit,Option.filter_some,if_pos (decide_eq_true h.1)]
  have hpri (rest : Text) : splitOnce ">" (natText (128 + severity.toNat) ++ '>'::rest) =
      some (natText (128 + severity.toNat),rest) := splitOnce_singleton.mpr ⟨rfl,hdigits (by decide) _⟩
  have hopen (rest : Text) : stripPrefix "<" ('<'::rest) = some rest := stripPrefix_eq_some.mpr rfl
  have hversion (rest : Text) : stripPrefix "1 " ('1':: ' '::rest) = some rest := stripPrefix_eq_some.mpr rfl
  have hdata (rest : Text) : stripPrefix "- " ('-':: ' '::rest) = some rest := stripPrefix_eq_some.mpr rfl
  rw [frame_eq,readRecord]
  simp only [hopen,hpri,parseDigits_natText,hversion,hfield hts,hfield ⟨sink.named,hhost⟩,
    hfield (show appName ≠ [] ∧ ' ' ∉ appName by decide),
    hfield ⟨natText_ne_nil _,hdigits (by decide) _⟩,hfield hmsgid,hdata,hbody,Option.bind_eq_bind,
    Option.bind_some]

private theorem readRecord_hostname {t : Text} {r : SyslogRecord} (h : readRecord t = some r) :
    ' ' ∉ r.hostname := by
  unfold readRecord at h
  obtain ⟨t₁,-,h⟩ := Option.bind_eq_some_iff.mp h
  obtain ⟨⟨pri,t₂⟩,-,h⟩ := Option.bind_eq_some_iff.mp h
  obtain ⟨n,-,h⟩ := Option.bind_eq_some_iff.mp h
  obtain ⟨t₃,-,h⟩ := Option.bind_eq_some_iff.mp h
  obtain ⟨⟨timestamp,t₄⟩,-,h⟩ := Option.bind_eq_some_iff.mp h
  obtain ⟨⟨host,t₅⟩,hhost,h⟩ := Option.bind_eq_some_iff.mp h
  obtain ⟨⟨app,t₆⟩,-,h⟩ := Option.bind_eq_some_iff.mp h
  obtain ⟨⟨procid,t₇⟩,-,h⟩ := Option.bind_eq_some_iff.mp h
  obtain ⟨⟨msgid,t₈⟩,-,h⟩ := Option.bind_eq_some_iff.mp h
  obtain ⟨body,-,h⟩ := Option.bind_eq_some_iff.mp h
  split at h
  · cases h
    exact (splitOnce_singleton.mp (Option.filter_eq_some_iff.mp hhost).1).2
  · cases h

theorem readDatagram_datagram (hts : IsTimestamp ts) (hhost : ' ' ∉ sink.hostname) :
    readDatagram (sink.datagram f ts e) = some (sink.record f ts e) := by
  rw [datagram_eq,readDatagram,fromUtf8_utf8,Option.bind_some,
    readRecord_frame sink ts hts hhost e.msgid_word (parseJson_buildJson (e.fields f))]
  have hlt := e.severity_lt
  have hfacility : (128 + e.severity.toNat) / 8 = 16 := by omega
  have hseverity : (128 + e.severity.toNat) % 8 = e.severity.toNat := by omega
  rw [hfacility,hseverity]
  rfl

private theorem frame_control {severity : UInt8} {msgid body : Text} (hmsgid : ∀ c ∈ msgid, 0x20 ≤ c.toNat)
    (hbody : ∀ c ∈ body, 0x20 ≤ c.toNat) {c : Char} (hc : c ∈ sink.frame ts severity msgid body)
    (hlt : c.toNat < 0x20) : c ∈ ts ∨ c ∈ sink.hostname := by
  have happ : ∀ d ∈ "<>1 -".toList ++ appName, 0x20 ≤ d.toNat := by simp [appName]
  have hliteral : c ∉ "<>1 -".toList ++ appName := fun h => absurd (happ c h) (by omega)
  have hdigits {n : Nat} : c ∉ natText n := fun h => by
    have hdigit := Char.isDigit_iff_toNat.mp (natText_isDigit h)
    simp only [Char.reduceToNat] at hdigit
    omega
  have hmsgid' : c ∉ msgid := fun h => absurd (hmsgid c h) (by omega)
  have hbody' : c ∉ body := fun h => absurd (hbody c h) (by omega)
  simp only [List.mem_append,not_or] at hliteral
  have hmarks := hliteral.1
  simp only [String.reduceToList,List.mem_cons,List.not_mem_nil,or_false,not_or] at hmarks
  rw [frame_eq] at hc
  simp only [List.mem_cons,List.mem_append,hdigits,hmsgid',hbody',hliteral.2,hmarks,or_false,false_or] at hc
  exact hc

/-- Whatever a client sent, a collector reads the event from its datagram if and only if the name of the
host has no blank. Nothing but the timestamp and this name can bring a control character into it. -/
theorem datagram_read_iff (hts : IsTimestamp ts) :
    (readDatagram (sink.datagram f ts e) = some (sink.record f ts e) ↔ ' ' ∉ sink.hostname) ∧
    ∃ t, fromUtf8 (sink.datagram f ts e) = some t ∧
      ∀ c ∈ t, c.toNat < 0x20 → c ∈ ts ∨ c ∈ sink.hostname := by
  refine ⟨⟨fun h => ?_,readDatagram_datagram sink f ts e hts⟩,?_⟩
  · obtain ⟨t,-,h⟩ := Option.bind_eq_some_iff.mp h
    exact readRecord_hostname h
  · rw [datagram_eq,fromUtf8_utf8]
    exact ⟨_,rfl,fun c hc hlt => frame_control sink ts e.msgid_printable (buildJson_printable _) hc hlt⟩

end

def zeroFloats : FloatTexts where
  durationMs := fun _ => ⟨false,0,0⟩
  nsToMs := fun _ => ⟨false,0,0⟩
  mbps := fun _ _ => ⟨false,0,0⟩

theorem datagram_read_iff_golden :
    let sink := EventSink.new (fun _ => some "probe-7") 4242
    let e : SyslogEvent := .connection (.connect ⟨1,"62.1.2.*",true⟩)
    readDatagram (sink.datagram zeroFloats "2026-06-21T12:34:56.789Z" e) =
      some ⟨16,6,"2026-06-21T12:34:56.789Z","probe-7","rmbtd","4242","connect",
        [("event",.string "connect"),("conn",.number "1"),("client",.string "62.1.2.*"),("tls",.bool true)]⟩ :=
  (datagram_read_iff _ zeroFloats "2026-06-21T12:34:56.789Z" _ (by decide)).1.mpr (by decide)

end Rmbtd
