import Rmbtd.IpCheck.Answer
import Rmbtd.Stream.HeadReader

/-!
# What a client reads in the HTTP phase

The answers other than those to `/ip`, as a client reads them back: the connection goes on as RMBT or
as a WebSocket exactly where the response says so, from the byte after it, and everywhere else the
response is complete and says that the connection is closed.
-/

namespace Rmbtd

open JsonText Session Effect

/-! ## Responses -/

/-- A response of the HTTP phase. It says how long its body is, unless it switches protocols. -/
structure HttpReply where
  status : Text
  fields : List Http.Field
  body : Text
  isLine : statusLine status ≠ [] ∧ (10 : UInt8) ∉ statusLine status
  isFramed : if Http.statusOf (statusLine status) = utf8 "101" then body = [] else
    Http.valuesOf "content-length" (fields.map Http.Field.parsed) = [utf8 (natText (utf8 body).length)]

namespace HttpReply

def text (r : HttpReply) : Text :=
  "HTTP/1.1 ".toList ++ r.status ++ "\r\n".toList ++ r.fields.flatMap fieldText ++ "\r\n".toList ++ r.body

def read (r : HttpReply) : Http.Response :=
  ⟨statusLine r.status,r.fields.map Http.Field.parsed,utf8 r.body⟩

theorem utf8_fields (fields : List Http.Field) :
    utf8 (fields.flatMap fieldText) = Http.block (fields.map Http.Field.line) := by
  induction fields with
  | nil => rfl
  | cons f fields ih =>
    rw [List.flatMap_cons,utf8_append,ih,utf8_fieldText]
    rfl

theorem utf8_text (r : HttpReply) : utf8 r.text =
    Http.block (statusLine r.status::r.fields.map Http.Field.line) ++ 13::10::utf8 r.body := by
  have hcrlf : utf8 "\r\n".toList = [13,10] := by decide
  have hblock : Http.block (statusLine r.status::r.fields.map Http.Field.line) =
      statusLine r.status ++ [13,10] ++ Http.block (r.fields.map Http.Field.line) := List.flatMap_cons
  rw [hblock,← utf8_fields r.fields]
  unfold text statusLine
  simp only [utf8_append,hcrlf,List.append_assoc,List.cons_append,List.nil_append]

/-- A client reads the response as it was meant, and leaves what follows it. -/
theorem read_text (r : HttpReply) (rest : Bytes) :
    Http.readReply (utf8 r.text ++ rest) = some (r.read,rest) := by
  have hframed := r.isFramed
  rw [utf8_text,List.append_assoc,List.cons_append,List.cons_append]
  split at hframed
  · next hstatus =>
    rw [read,hframed]
    exact Http.readReply_switching r.isLine hstatus r.fields rest
  · next hstatus => exact Http.readReply_final r.isLine hstatus r.fields (utf8 r.body) rest hframed

end HttpReply

/-! ## The fields -/

namespace UpgradeField

def upgrade : Http.Field := headerField "Connection" "Upgrade" (by decide +kernel)

def toRmbt : Http.Field := headerField "Upgrade" "RMBT" (by decide +kernel)

def toWebSocket : Http.Field := headerField "Upgrade" "websocket" (by decide +kernel)

def offer : Http.Field := headerField "Upgrade" "RMBT, websocket" (by decide +kernel)

def plainText : Http.Field := headerField "Content-Type" "text/plain" (by decide +kernel)

def allowGet : Http.Field := headerField "Allow" "GET" (by decide +kernel)

/-- The value is Base64, so that nothing in it ends the line or is trimmed. -/
def accept (base64 : Base64) (digest : Bytes) : Http.Field where
  name := "Sec-WebSocket-Accept"
  value := base64.encode digest
  isToken := by decide +kernel
  isLine := by
    intro hmem
    exact base64.not_mem_encode (by decide) digest (mem_of_mem_utf8_ascii hmem (by decide))
  isTrimmed := by
    apply Http.trimOws_of_not_ows
    intro b hb
    by_contra hows
    simp only [Http.isOws,Bool.not_eq_false,Bool.or_eq_true,beq_iff_eq] at hows
    rcases hows with rfl | rfl
    · exact base64.not_mem_encode (by decide) digest (mem_of_mem_utf8_ascii hb (by decide))
    · exact base64.not_mem_encode (by decide) digest (mem_of_mem_utf8_ascii hb (by decide))

end UpgradeField

def hstsFields (addHsts : Bool) : List Http.Field := if addHsts then [IpField.hsts] else []

def corsFields (origin : Bool) : List Http.Field := if origin then [IpField.allowOrigin] else []

private theorem hstsHeader_eq (addHsts : Bool) :
    hstsHeader addHsts = (hstsFields addHsts).flatMap fieldText := by
  cases addHsts
  · rfl
  · decide

private theorem corsHeader_eq (origin : Bool) :
    corsHeader origin = (corsFields origin).flatMap fieldText := by
  cases origin
  · rfl
  · decide

private theorem lengthOf_append {fields : List Http.Field}
    (h : ∀ f ∈ fields, Http.lower f.parsed.1 ≠ utf8 "content-length") (n : Nat) :
    Http.valuesOf "content-length" ((fields ++ [IpField.contentLength n]).map Http.Field.parsed) =
      [utf8 (natText n)] := by
  have hname : Http.lower (IpField.contentLength n).parsed.1 = utf8 "content-length" := by
    change Http.lower (utf8 "Content-Length".toList) = _
    decide
  have hlength : Http.valuesOf "content-length" [(IpField.contentLength n).parsed] = [utf8 (natText n)] := by
    rw [Http.valuesOf,List.filter_cons_of_pos (by simpa using hname)]
    rfl
  rw [List.map_append,Http.valuesOf_append,List.map_singleton,hlength,Http.valuesOf_eq_nil]
  · rfl
  · intro f hf
    obtain ⟨g,hg,rfl⟩ := List.mem_map.mp hf
    exact h g hg

/-! ## The responses there are -/

namespace HttpReply

def rmbt (addHsts : Bool) : HttpReply where
  status := "101 Switching Protocols"
  fields := [UpgradeField.upgrade,UpgradeField.toRmbt] ++ hstsFields addHsts
  body := []
  isLine := by decide
  isFramed := by
    rw [if_pos (by decide)]

def webSocket (base64 : Base64) (digest : Bytes) (addHsts : Bool) : HttpReply where
  status := "101 Switching Protocols"
  fields := [UpgradeField.upgrade,UpgradeField.toWebSocket,UpgradeField.accept base64 digest] ++ hstsFields addHsts
  body := []
  isLine := by decide
  isFramed := by
    rw [if_pos (by decide)]

def badMethod (addHsts : Bool) : HttpReply where
  status := "405 Method Not Allowed"
  fields := IpField.connection::hstsFields addHsts ++ [IpField.contentLength 0]
  body := []
  isLine := by decide
  isFramed := by
    rw [if_neg (by decide)]
    exact lengthOf_append (by cases addHsts <;> decide) 0

def upgradeRequired (body : Text) (addHsts : Bool) : HttpReply where
  status := "426 Upgrade Required"
  fields := IpField.connection::UpgradeField.offer::hstsFields addHsts ++ [UpgradeField.plainText] ++
    [IpField.contentLength (byteLen body)]
  body := body
  isLine := by decide
  isFramed := by
    rw [if_neg (by decide)]
    exact lengthOf_append (by cases addHsts <;> decide) _

def version (body : Text) (addHsts origin : Bool) : HttpReply where
  status := "200 OK"
  fields := IpField.connection::hstsFields addHsts ++ corsFields origin ++ [IpField.contentType] ++
    [IpField.contentLength (byteLen body)]
  body := body
  isLine := by decide
  isFramed := by
    rw [if_neg (by decide)]
    exact lengthOf_append (by cases addHsts <;> cases origin <;> decide) _

def badVersion (addHsts origin : Bool) : HttpReply where
  status := "405 Method Not Allowed"
  fields := IpField.connection::hstsFields addHsts ++ corsFields origin ++ [UpgradeField.allowGet] ++
    [IpField.contentLength 0]
  body := []
  isLine := by decide
  isFramed := by
    rw [if_neg (by decide)]
    exact lengthOf_append (by cases addHsts <;> cases origin <;> decide) _

end HttpReply

/-! ## What the code writes -/

private theorem fieldText_contentLength (n : Nat) :
    fieldText (IpField.contentLength n) = "Content-Length: ".toList ++ natText n ++ "\r\n".toList := by
  have hname : "Content-Length: ".toList = "Content-Length".toList ++ ": ".toList := by decide
  rw [hname]
  rfl

theorem rmbt_text (addHsts : Bool) : (HttpReply.rmbt addHsts).text =
    "HTTP/1.1 101 Switching Protocols\r\n".toList ++ "Connection: Upgrade\r\n".toList ++
      "Upgrade: RMBT\r\n".toList ++ hstsHeader addHsts ++ "\r\n".toList := by
  cases addHsts <;> decide +kernel

theorem webSocket_text (base64 : Base64) (digest : Bytes) (addHsts : Bool) :
    (HttpReply.webSocket base64 digest addHsts).text =
      "HTTP/1.1 101 Switching Protocols\r\n".toList ++ "Connection: Upgrade\r\n".toList ++
      "Upgrade: websocket\r\n".toList ++ "Sec-WebSocket-Accept: ".toList ++
      base64.encode digest ++ "\r\n".toList ++ hstsHeader addHsts ++ "\r\n".toList := by
  have hstart : "HTTP/1.1 101 Switching Protocols\r\n".toList ++ "Connection: Upgrade\r\n".toList ++
      "Upgrade: websocket\r\n".toList ++ "Sec-WebSocket-Accept: ".toList =
    "HTTP/1.1 ".toList ++ "101 Switching Protocols".toList ++ "\r\n".toList ++
      fieldText UpgradeField.upgrade ++ fieldText UpgradeField.toWebSocket ++
      "Sec-WebSocket-Accept".toList ++ ": ".toList := by decide +kernel
  have haccept : fieldText (UpgradeField.accept base64 digest) =
    "Sec-WebSocket-Accept".toList ++ ": ".toList ++ base64.encode digest ++ "\r\n".toList := rfl
  rw [hstart,hstsHeader_eq]
  unfold HttpReply.text HttpReply.webSocket
  simp only [List.flatMap_append,List.flatMap_cons,List.flatMap_nil,haccept,List.append_assoc,
    List.append_nil]

private theorem badMethod_text (addHsts : Bool) : (HttpReply.badMethod addHsts).text =
    "HTTP/1.1 405 Method Not Allowed\r\n".toList ++ "Connection: close\r\n".toList ++
      hstsHeader addHsts ++ "Content-Length: 0\r\n".toList ++ "\r\n".toList := by
  cases addHsts <;> decide +kernel

private theorem fieldText_connection :
    fieldText IpField.connection = "Connection: close\r\n".toList := by decide

private theorem upgradeRequired_text (body : Text) (addHsts : Bool) :
    (HttpReply.upgradeRequired body addHsts).text =
      "HTTP/1.1 426 Upgrade Required\r\n".toList ++ "Connection: close\r\n".toList ++
        "Upgrade: RMBT, websocket\r\n".toList ++ hstsHeader addHsts ++
        "Content-Type: text/plain\r\n".toList ++ "Content-Length: ".toList ++ natText (byteLen body) ++
        "\r\n".toList ++ "\r\n".toList ++ body := by
  have hstart : "HTTP/1.1 426 Upgrade Required\r\n".toList =
    "HTTP/1.1 ".toList ++ ("426 Upgrade Required".toList ++ "\r\n".toList) := by decide
  have hoffer : "Upgrade: RMBT, websocket\r\n".toList = fieldText UpgradeField.offer := by decide
  have htype : "Content-Type: text/plain\r\n".toList = fieldText UpgradeField.plainText := by decide
  unfold HttpReply.text HttpReply.upgradeRequired
  simp only [List.flatMap_append,List.flatMap_cons,List.flatMap_nil,List.append_assoc,List.nil_append,
    List.append_nil,List.cons_append,hstsHeader_eq,hstart,hoffer,htype,fieldText_connection,
    fieldText_contentLength]

private theorem version_text (body : Text) (addHsts origin : Bool) :
    (HttpReply.version body addHsts origin).text =
      Version.render addHsts origin "200 OK" "Content-Type: application/json\r\n" body := by
  have htype : "Content-Type: application/json\r\n".toList = fieldText IpField.contentType := by decide
  unfold HttpReply.text HttpReply.version Version.render
  simp only [List.flatMap_append,List.flatMap_cons,List.flatMap_nil,List.append_assoc,List.nil_append,
    List.append_nil,List.cons_append,hstsHeader_eq,corsHeader_eq,htype,fieldText_connection,
    fieldText_contentLength]

private theorem badVersion_text (addHsts origin : Bool) : (HttpReply.badVersion addHsts origin).text =
    Version.render addHsts origin "405 Method Not Allowed" "Allow: GET\r\n" [] := by
  have hallow : "Allow: GET\r\n".toList = fieldText UpgradeField.allowGet := by decide
  have hempty : byteLen [] = 0 := rfl
  unfold HttpReply.text HttpReply.badVersion Version.render
  simp only [List.flatMap_append,List.flatMap_cons,List.flatMap_nil,List.append_assoc,List.nil_append,
    List.append_nil,List.cons_append,hstsHeader_eq,corsHeader_eq,hallow,fieldText_connection,
    fieldText_contentLength,hempty]

/-! ## Outcomes -/

/-- What shows that the server has read the key. -/
def acceptDigest (http : HttpEnv) (key : Text) : Bytes := http.sha1 (utf8 (key ++ webSocketGuid))

/-- What is sent with an outcome. -/
inductive Said (http : HttpEnv) (req : Text) (addHsts : Bool) : Except Stop Upgrade → Bytes → Prop
  | rmbt : Said http req addHsts (.ok .raw) (utf8 (HttpReply.rmbt addHsts).text)
  | webSocket {key : Text} (h : webSocketKey req = some key) : Said http req addHsts (.ok .webSocket)
      (utf8 (HttpReply.webSocket http.env.crypto.base64 (acceptDigest http key) addHsts).text)
  | noKey (h : webSocketKey req = none) : Said http req addHsts (.error (.io missingKey)) []
  | version (origin : Bool) : Said http req addHsts (.ok (.version "GET /version -> 200"))
      (utf8 (HttpReply.version (Version.body http) addHsts origin).text)
  | badVersion {summary : Text} (h : summary ≠ "GET /version -> 200") (origin : Bool) :
      Said http req addHsts (.ok (.version summary)) (utf8 (HttpReply.badVersion addHsts origin).text)
  | badMethod : Said http req addHsts (.error (.io expectedGet)) (utf8 (HttpReply.badMethod addHsts).text)
  | upgradeRequired (body : Text) : Said http req addHsts (.error (.io noUpgradeHeader))
      (utf8 (HttpReply.upgradeRequired body addHsts).text)

section
variable {http : HttpEnv} {keys : List SecretKey} {connId : Nat} {req : Text} {addHsts : Bool}
  {w : World RawConn}

private def sends (w : World RawConn) (data : Bytes) : World RawConn :=
  { w with stream := { w.stream with output := w.stream.output ++ data } }

private theorem wrote (h : w.stream.faults = []) (data : Bytes) :
    onStream (HttpTransport.writeAll data) w = .ok () (sends w data) :=
  onStream_ok (RawConn.writeAll_faultless h data)

private theorem flushed (h : w.stream.faults = []) : onStream HttpTransport.flush w = .ok () w := by
  obtain ⟨⟨input,inputEnd,output,faults,peer⟩,instants,wall,stats,chunkSize,trace⟩ := w
  cases h
  rfl

private theorem wrote_flushed {α : Type} (h : w.stream.faults = []) (data : Bytes) (a : α) :
    (do
      onStream (HttpTransport.writeAll data)
      onStream HttpTransport.flush
      return a : Session RawConn α) w = .ok a (sends w data) := by
  rw [bind_ok (wrote h data)]
  exact bind_ok (flushed h)

private theorem refused {record : LogRecord} {e : IoError} (h : w.stream.faults = []) (data : Bytes) :
    ∃ w', (do
      emit (.logged record)
      ignored (HttpTransport.writeAll data)
      ignored HttpTransport.flush
      throw (.io e) : Session RawConn Upgrade) w = .error (.io e) w' ∧
        w'.stream.output = w.stream.output ++ data := by
  have hwrite : HttpTransport.writeAll data w.stream =
      .ok () { w.stream with output := w.stream.output ++ data } := RawConn.writeAll_faultless h data
  have hflush : HttpTransport.flush { w.stream with output := w.stream.output ++ data } =
      .ok () { w.stream with output := w.stream.output ++ data, faults := [] } := by
    change RawConn.flush _ = _
    simp [RawConn.flush,h]
  refine ⟨_,rfl,?_⟩
  simp only [hwrite,final_ok,hflush]

private def Ends (http : HttpEnv) (req : Text) (addHsts : Bool) (w : World RawConn)
    (r : EStateM.Result Stop (World RawConn) Upgrade) : Prop :=
  ∃ bytes, (final r).stream.output = w.stream.output ++ bytes ∧ Said http req addHsts (outcome r) bytes

def versionMethod (req : Text) : Text := ((splitAll "\r\n" req).headD []).takeWhile (· ≠ ' ')

/-- Whether a request to `/version` has an `Origin` header. -/
def versionOrigin (req : Text) : Bool := (splitAll "\r\n" req).tail.any Version.isOrigin

private theorem handle_version (h : w.stream.faults = []) :
    Version.handle http req addHsts w = .ok
      (versionMethod req ++ " /version -> ".toList ++ (if versionMethod req = "GET" then "200" else "405"))
      (sends w (utf8 (if versionMethod req = "GET" then
        HttpReply.version (Version.body http) addHsts (versionOrigin req)
        else HttpReply.badVersion addHsts (versionOrigin req)).text)) := by
  have hok : "200 OK".toList.take 3 = "200" := by decide
  have hbad : "405 Method Not Allowed".toList.take 3 = "405" := by decide
  have hrun {status extra body} (hreply : Version.reply http (versionMethod req) = (status,extra,body)) :
      Version.handle http req addHsts w = .ok (versionMethod req ++ " /version -> ".toList ++ status.take 3)
        (sends w (utf8 (Version.render addHsts (versionOrigin req) status extra body))) := by
    unfold versionMethod at hreply
    unfold Version.handle
    simp only [hreply]
    exact wrote_flushed h _ _
  by_cases hget : versionMethod req = "GET"
  · rw [if_pos hget,if_pos hget,version_text,hrun (if_pos hget),hok]
  · rw [if_neg hget,if_neg hget,badVersion_text,hrun (if_neg hget),hbad]

private theorem webSocketHandshake_ends (h : w.stream.faults = []) :
    Ends http req addHsts w (webSocketHandshake http req addHsts w) := by
  cases hkey : webSocketKey req with
  | none =>
    unfold webSocketHandshake
    rw [hkey]
    exact ⟨[],(List.append_nil _).symm,.noKey hkey⟩
  | some key =>
    have hrun : webSocketHandshake http req addHsts w = .ok .webSocket
        (sends w (utf8 (HttpReply.webSocket http.env.crypto.base64 (acceptDigest http key) addHsts).text)) := by
      unfold webSocketHandshake
      rw [hkey,webSocket_text]
      exact wrote_flushed h _ _
    rw [hrun]
    exact ⟨_,rfl,.webSocket hkey⟩

private theorem rawHandshake_ends (h : w.stream.faults = []) :
    Ends http req addHsts w (rawHandshake addHsts w) := by
  have hsaid : Said http req addHsts (.ok .raw) _ := .rmbt
  rw [rmbt_text] at hsaid
  have hrun : rawHandshake addHsts w = _ := bind_ok (wrote h _)
  rw [hrun]
  exact ⟨_,rfl,hsaid⟩

private theorem refuseMethod_ends (h : w.stream.faults = []) :
    Ends http req addHsts w (refuseMethod req addHsts w) := by
  have hsaid : Said http req addHsts (.error (.io expectedGet)) _ := .badMethod
  rw [badMethod_text] at hsaid
  obtain ⟨w',hrun,hout⟩ : ∃ w', refuseMethod req addHsts w = .error (.io expectedGet) w' ∧ _ := refused h _
  rw [hrun]
  exact ⟨_,hout,hsaid⟩

private theorem requireUpgrade_ends (h : w.stream.faults = []) :
    Ends http req addHsts w (requireUpgrade http req addHsts w) := by
  have hsaid : Said http req addHsts (.error (.io noUpgradeHeader)) _ := .upgradeRequired
    ("RMBT measurement server - ".toList ++ trim (greetingLine http.env.version))
  rw [upgradeRequired_text] at hsaid
  obtain ⟨w',hrun,hout⟩ : ∃ w', requireUpgrade http req addHsts w = .error (.io noUpgradeHeader) w' ∧ _ :=
    refused h _
  rw [hrun]
  exact ⟨_,hout,hsaid⟩

private theorem answer_ends (h : w.stream.faults = []) (hip : ipCheckMatches (requestTarget req) = false) :
    Ends http req addHsts w (answer http keys connId req addHsts w) := by
  unfold answer
  rw [if_neg (by simp [hip])]
  split
  · rw [bind_ok (handle_version h)]
    refine ⟨_,rfl,?_⟩
    by_cases hget : versionMethod req = "GET"
    · have hsummary : "GET".toList ++ " /version -> ".toList ++ "200".toList =
        "GET /version -> 200" := by decide
      rw [if_pos hget,if_pos hget,hget,hsummary]
      exact .version _
    · have hsummary : "GET /version -> 200".toList =
        ("GET".toList ++ " /version -> ".toList) ++ "200".toList := by decide
      rw [if_neg hget,if_neg hget]
      refine .badVersion (fun heq => ?_) _
      rw [hsummary] at heq
      exact absurd (List.append_inj_right' heq rfl) (by decide)
  split
  · exact refuseMethod_ends h
  dsimp only
  split
  · exact webSocketHandshake_ends h
  split
  · exact rawHandshake_ends h
  · exact requireUpgrade_ends h

/-! ## What a client reads -/

def upgradedTo (bytes : Bytes) : Option (Bytes × Bytes) := do
  let (reply,rest) ← Http.readReply bytes
  match Http.valuesOf "upgrade" reply.fields with
  | [protocol] => if Http.statusOf reply.startLine = utf8 "101" then some (protocol,rest) else none
  | _ => none

/-- The response switches to the protocol: whatever is sent after it belongs to that. -/
def Continues (protocol : Text) (bytes : Bytes) : Prop :=
  ∀ rest, upgradedTo (bytes ++ rest) = some (utf8 protocol,rest)

/-- The status of the response to a request that the server does not go on with. -/
def closingStatus : Except Stop Upgrade → Option Text
  | .ok (.version summary) =>
    if summary = "GET /version -> 200" then some "200 OK" else some "405 Method Not Allowed"
  | .error (.io e) =>
    if e = expectedGet then some "405 Method Not Allowed"
    else if e = noUpgradeHeader then some "426 Upgrade Required"
    else none
  | _ => none

/-- One response with the status of the outcome is sent, and it says that the connection is closed. -/
def SaysClose (outcome : Except Stop Upgrade) (bytes : Bytes) : Prop :=
  ∃ status reply, closingStatus outcome = some status ∧ Http.readReply bytes = some (reply,[]) ∧
    reply.startLine = statusLine status ∧ Http.valuesOf "connection" reply.fields = [utf8 "close"]

/-- The version a client reads in a response. -/
def readVersion (bytes : Bytes) : Option Text := do
  let (reply,rest) ← Http.readReply bytes
  let text ← fromUtf8 reply.body
  match parseJson text with
  | some (.object members) => match member "version" members with
    | some (.string version) =>
      if reply.startLine = statusLine "200 OK" ∧ rest = [] then some version else none
    | _ => none
  | _ => none

/-- The first bytes of a client hold a request head that is read to its end. -/
def HasHead (head input : Bytes) : Prop := IsHead head input ∧ head.length ≤ maxHead + 1

/-- A client reads in what is sent how the server goes on. -/
structure Heard (http : HttpEnv) (addHsts : Bool) (input : Bytes) (outcome : Except Stop Upgrade)
    (bytes : Bytes) : Prop where
  noHead : (¬∃ head, HasHead head input) → bytes = [] ∧ ∃ e, outcome = .error e
  rmbt : outcome = .ok .raw ↔ Continues "RMBT" bytes
  webSocket : outcome = .ok .webSocket ↔ Continues "websocket" bytes
  accepted : outcome = .ok .webSocket → ∃ head key reply, HasHead head input ∧
    webSocketKey (fromUtf8Lossy head) = some key ∧ Http.readReply bytes = some (reply,[]) ∧
    Http.valuesOf "sec-websocket-accept" reply.fields =
      [utf8 (http.env.crypto.base64.encode (acceptDigest http key))]
  closed : ∀ head, HasHead head input → outcome ≠ .ok .raw → outcome ≠ .ok .webSocket →
    if outcome = .error (.io missingKey) then webSocketKey (fromUtf8Lossy head) = none ∧ bytes = []
    else SaysClose outcome bytes
  version : ∀ summary, outcome = .ok (.version summary) → Verbatim (Version.version http) →
    readVersion bytes = if summary = "GET /version -> 200" then some (Version.version http) else none
  hsts : ∀ reply rest, Http.readReply bytes = some (reply,rest) →
    Http.valuesOf "strict-transport-security" reply.fields =
      if addHsts then [utf8 "max-age=31536000"] else []

def HttpReply.values (r : HttpReply) (name : Text) : List Bytes :=
  Http.valuesOf name (r.fields.map Http.Field.parsed)

def HttpReply.Switches (r : HttpReply) : Prop := Http.statusOf (statusLine r.status) = utf8 "101"

private theorem readReply_text (r : HttpReply) : Http.readReply (utf8 r.text) = some (r.read,[]) := by
  have hread := r.read_text []
  rwa [List.append_nil] at hread

private theorem utf8_text_ne_nil (r : HttpReply) : utf8 r.text ≠ [] := by
  intro hnil
  have hread := readReply_text r
  rw [hnil] at hread
  cases hread

theorem continues_text {r : HttpReply} {protocol : Text} :
    Continues protocol (utf8 r.text) ↔ r.Switches ∧ r.values "upgrade" = [utf8 protocol] := by
  have hupgraded (rest : Bytes) : upgradedTo (utf8 r.text ++ rest) = match r.values "upgrade" with
      | [p] => if Http.statusOf (statusLine r.status) = utf8 "101" then some (p,rest) else none
      | _ => none := by
    unfold upgradedTo
    rw [r.read_text rest]
    rfl
  constructor
  · intro h
    have hempty := h []
    rw [hupgraded] at hempty
    split at hempty
    · next p hp =>
      split at hempty
      · next hswitches =>
        rw [hp,(Prod.mk.inj (Option.some.inj hempty)).1]
        exact ⟨hswitches,rfl⟩
      · cases hempty
    · cases hempty
  · rintro ⟨hswitches,hvalues⟩ rest
    rw [hupgraded,hvalues]
    exact if_pos hswitches

theorem switching_values (base64 : Base64) (digest : Bytes) (addHsts : Bool) :
    (HttpReply.rmbt addHsts).values "upgrade" = [utf8 "RMBT"] ∧
    (HttpReply.rmbt addHsts).values "connection" = [utf8 "Upgrade"] ∧
    (HttpReply.webSocket base64 digest addHsts).values "upgrade" = [utf8 "websocket"] ∧
    (HttpReply.webSocket base64 digest addHsts).values "connection" = [utf8 "Upgrade"] ∧
    (HttpReply.webSocket base64 digest addHsts).values "sec-websocket-accept" =
      [utf8 (base64.encode digest)] := by
  cases addHsts <;> exact ⟨rfl,rfl,rfl,rfl,rfl⟩

private theorem closing_values (body : Text) (addHsts origin : Bool) :
    ∀ r ∈ [HttpReply.version body addHsts origin,HttpReply.badVersion addHsts origin,
      HttpReply.badMethod addHsts,HttpReply.upgradeRequired body addHsts],
      r.values "connection" = [utf8 "close"] := by
  cases addHsts <;> cases origin <;> simp only [List.forall_mem_cons] <;> exact ⟨rfl,rfl,rfl,rfl,nofun⟩

private theorem hsts_values (base64 : Base64) (digest : Bytes) (body : Text) (addHsts origin : Bool) :
    ∀ r ∈ [HttpReply.rmbt addHsts,HttpReply.webSocket base64 digest addHsts,
      HttpReply.version body addHsts origin,HttpReply.badVersion addHsts origin,
      HttpReply.badMethod addHsts,HttpReply.upgradeRequired body addHsts],
      r.values "strict-transport-security" = if addHsts then [utf8 "max-age=31536000"] else [] := by
  cases addHsts <;> cases origin <;> simp only [List.forall_mem_cons] <;>
    exact ⟨rfl,rfl,rfl,rfl,rfl,rfl,nofun⟩

private theorem parseJson_body (h : Verbatim (Version.version http)) : parseJson (Version.body http) =
    some (.object [("version",.string (Version.version http))]) := by
  have hread := parseJson_object (.string (show Verbatim "version" by decide) h) []
  have hopen : "\x7b\"version\":\"".toList = '\x7b':: '"'::("version".toList ++ ['"',':','"']) := by decide
  have hclose : "\"\x7d".toList = ['"','\x7d'] := by decide
  have hbody : Version.body http = '\x7b'::(WrittenMember.text
      (.string (show Verbatim "version" by decide) h) ++ ([] ++ ['\x7d'])) := by
    unfold Version.body
    rw [hopen,hclose]
    simp [WrittenMember.text,WrittenMember.string]
  rw [hbody]
  exact hread

private theorem readVersion_ok (h : Verbatim (Version.version http)) (origin : Bool) :
    readVersion (utf8 (HttpReply.version (Version.body http) addHsts origin).text) =
      some (Version.version http) := by
  unfold readVersion
  rw [readReply_text]
  have hbody : fromUtf8 (HttpReply.version (Version.body http) addHsts origin).read.body =
    some (Version.body http) := fromUtf8_utf8 _
  simp only [Option.bind_eq_bind,Option.bind_some,hbody,parseJson_body h]
  rfl

private theorem readVersion_bad (origin : Bool) :
    readVersion (utf8 (HttpReply.badVersion addHsts origin).text) = none := by
  unfold readVersion
  rw [readReply_text]
  rfl

private theorem closingStatus_raw : closingStatus (.ok .raw) = none := rfl

private theorem closingStatus_webSocket : closingStatus (.ok .webSocket) = none := rfl

private theorem closingStatus_version :
    closingStatus (.ok (.version "GET /version -> 200")) = some "200 OK".toList := by
  rw [closingStatus,if_pos rfl]

private theorem closingStatus_badVersion {summary : Text} (h : summary ≠ "GET /version -> 200") :
    closingStatus (.ok (.version summary)) = some "405 Method Not Allowed".toList := by
  rw [closingStatus,if_neg h]

private theorem closingStatus_expectedGet :
    closingStatus (.error (.io expectedGet)) = some "405 Method Not Allowed".toList := by decide

private theorem closingStatus_noUpgradeHeader :
    closingStatus (.error (.io noUpgradeHeader)) = some "426 Upgrade Required".toList := by decide

private theorem heard_closing {r : HttpReply} {outcome : Except Stop Upgrade} {head input : Bytes}
    (hhead : HasHead head input) (hstatus : closingStatus outcome = some r.status)
    (hswitches : ¬r.Switches) (hclose : r.values "connection" = [utf8 "close"])
    (hhsts : r.values "strict-transport-security" = if addHsts then [utf8 "max-age=31536000"] else [])
    (hversion : ∀ summary, outcome = .ok (.version summary) → Verbatim (Version.version http) →
      readVersion (utf8 r.text) =
        if summary = "GET /version -> 200" then some (Version.version http) else none) :
    Heard http addHsts input outcome (utf8 r.text) := by
  have hnone {o : Except Stop Upgrade} (ho : closingStatus o = none) : outcome ≠ o := by
    rintro rfl
    rw [ho] at hstatus
    cases hstatus
  have hraw := hnone closingStatus_raw
  have hwebSocket := hnone closingStatus_webSocket
  refine ⟨fun h => absurd ⟨head,hhead⟩ h,?_,?_,fun h => absurd h hwebSocket,?_,hversion,?_⟩
  · exact iff_of_false hraw fun h => hswitches (continues_text.mp h).1
  · exact iff_of_false hwebSocket fun h => hswitches (continues_text.mp h).1
  · intro _ _ _ _
    rw [if_neg (hnone rfl)]
    exact ⟨r.status,r.read,hstatus,readReply_text r,rfl,hclose⟩
  · intro reply rest hread
    rw [readReply_text] at hread
    cases hread
    exact hhsts

private theorem heard_switching {r : HttpReply} {u : Upgrade} {protocol : Text} {head input : Bytes}
    (hhead : HasHead head input)
    (hswitches : r.Switches) (hprotocol : r.values "upgrade" = [utf8 protocol])
    (hhsts : r.values "strict-transport-security" = if addHsts then [utf8 "max-age=31536000"] else [])
    (hrmbt : u = .raw ↔ protocol = "RMBT") (hwebSocket : u = .webSocket ↔ protocol = "websocket")
    (hends : u = .raw ∨ u = .webSocket)
    (haccept : u = .webSocket → ∃ key, webSocketKey (fromUtf8Lossy head) = some key ∧
      r.values "sec-websocket-accept" = [utf8 (http.env.crypto.base64.encode (acceptDigest http key))]) :
    Heard http addHsts input (.ok u) (utf8 r.text) := by
  refine ⟨fun h => absurd ⟨head,hhead⟩ h,?_,?_,?_,?_,?_,?_⟩
  · rw [continues_text,hprotocol,Except.ok.injEq,hrmbt,List.singleton_inj]
    exact ⟨fun h => ⟨hswitches,congrArg utf8 h⟩,fun h => utf8_injective h.2⟩
  · rw [continues_text,hprotocol,Except.ok.injEq,hwebSocket,List.singleton_inj]
    exact ⟨fun h => ⟨hswitches,congrArg utf8 h⟩,fun h => utf8_injective h.2⟩
  · intro h
    obtain ⟨key,hkey,hvalue⟩ := haccept (Except.ok.inj h)
    exact ⟨head,key,r.read,hhead,hkey,readReply_text r,hvalue⟩
  · intro _ _ hraw hws
    rcases hends with rfl | rfl
    · exact absurd rfl hraw
    · exact absurd rfl hws
  · rintro summary h
    rcases hends with rfl | rfl <;> cases h
  · intro reply rest hread
    rw [readReply_text] at hread
    cases hread
    exact hhsts

private theorem heard_nothing {input : Bytes} {e : Stop}
    (hkey : ∀ head, HasHead head input → e = .io missingKey ∧ webSocketKey (fromUtf8Lossy head) = none) :
    Heard http addHsts input (.error e) [] where
  noHead _ := ⟨rfl,e,rfl⟩
  rmbt := iff_of_false nofun fun h => nomatch h []
  webSocket := iff_of_false nofun fun h => nomatch h []
  accepted := nofun
  closed head hhead _ _ := by
    obtain ⟨rfl,hnone⟩ := hkey head hhead
    rw [if_pos rfl]
    exact ⟨hnone,rfl⟩
  version := nofun
  hsts _ _ hread := nomatch hread

private theorem Said.heard {head input : Bytes} {outcome : Except Stop Upgrade} {bytes : Bytes}
    (h : Said http (fromUtf8Lossy head) addHsts outcome bytes) (hhead : HasHead head input) :
    Heard http addHsts input outcome bytes := by
  have hclose (body : Text) (origin : Bool) := closing_values body addHsts origin
  have hhsts (digest : Bytes) (body : Text) (origin : Bool) :=
    hsts_values http.env.crypto.base64 digest body addHsts origin
  have h101 : Http.statusOf (statusLine "101 Switching Protocols") = utf8 "101" := by decide
  have h200 : Http.statusOf (statusLine "200 OK") ≠ utf8 "101" := by decide
  have h405 : Http.statusOf (statusLine "405 Method Not Allowed") ≠ utf8 "101" := by decide
  have h426 : Http.statusOf (statusLine "426 Upgrade Required") ≠ utf8 "101" := by decide
  cases h with
  | rmbt =>
    have hprotocol := (switching_values http.env.crypto.base64 [] addHsts).1
    exact heard_switching hhead h101 hprotocol (hhsts [] [] false _ (by simp)) (by decide) (by decide)
      (Or.inl rfl) nofun
  | @webSocket key hkey =>
    obtain ⟨-,-,hprotocol,-,haccept⟩ :=
      switching_values http.env.crypto.base64 (acceptDigest http key) addHsts
    exact heard_switching hhead h101 hprotocol (hhsts (acceptDigest http key) [] false _ (by simp))
      (by decide) (by decide) (Or.inr rfl) fun _ => ⟨key,hkey,haccept⟩
  | noKey hkey =>
    refine heard_nothing fun head' hhead' => ⟨rfl,?_⟩
    rwa [hhead'.1.unique hhead.1]
  | version origin =>
    refine heard_closing hhead closingStatus_version h200 (hclose (Version.body http) origin _ (by simp))
      (hhsts [] (Version.body http) origin _ (by simp)) ?_
    rintro _ ⟨⟩ hverbatim
    rw [readVersion_ok hverbatim,if_pos rfl]
  | badVersion hsummary origin =>
    refine heard_closing hhead (closingStatus_badVersion hsummary) h405 (hclose [] origin _ (by simp))
      (hhsts [] [] origin _ (by simp)) ?_
    rintro _ ⟨⟩ -
    rw [readVersion_bad,if_neg hsummary]
  | badMethod =>
    exact heard_closing hhead closingStatus_expectedGet h405 (hclose [] false _ (by simp))
      (hhsts [] [] false _ (by simp)) nofun
  | upgradeRequired body =>
    exact heard_closing hhead closingStatus_noUpgradeHeader h426 (hclose body false _ (by simp))
      (hhsts [] body false _ (by simp)) nofun

/-- On a connection that takes every write, a client that does not ask for `/ip` reads in what it is
sent how the server goes on, whatever its request is. -/
theorem detectAndUpgrade_heard (hfaults : w.stream.faults = [])
    (htarget : ∀ head, IsHead head w.stream.input →
      ipCheckMatches (requestTarget (fromUtf8Lossy head)) = false) :
    Heard http addHsts w.stream.input (outcome (detectAndUpgrade http keys connId addHsts w))
      (sent w (final (detectAndUpgrade http keys connId addHsts w))) := by
  by_cases hhead : ∃ head, HasHead head w.stream.input
  · obtain ⟨head,hhead,hlen⟩ := hhead
    obtain ⟨rest,hinput⟩ := hhead.isPrefix
    have hread := readHead_takes hhead hlen hinput.symm
    rw [detectAndUpgrade,bind_ok (onStream_ok hread)]
    have hends : Ends http (fromUtf8Lossy head) addHsts { w with stream := { w.stream with input := rest } }
        (answer http keys connId (fromUtf8Lossy head) addHsts
          { w with stream := { w.stream with input := rest } }) := answer_ends hfaults (htarget head hhead)
    obtain ⟨bytes,houtput,hsaid⟩ := hends
    rw [sent,houtput,List.drop_left]
    exact hsaid.heard ⟨hhead,hlen⟩
  · rw [detectAndUpgrade,bind_error (onStream_error (readHead_fails hhead))]
    have hnothing : sent w { w with stream := { w.stream with input := w.stream.input.drop (maxHead + 1) } } =
        [] := List.drop_length
    rw [final_error,hnothing]
    exact heard_nothing fun head hhead' => absurd ⟨head,hhead'⟩ hhead

end

private def goldenUpgrade : World RawConn := .start
  ⟨utf8 "GET / HTTP/1.1\r\nUpgrade: websocket\r\nSec-WebSocket-Key: a\r\n\r\nmessages",none,[],[],none⟩
  id fun _ => 0

theorem detectAndUpgrade_heard_golden :
    outcome (detectAndUpgrade goldenHttp [goldenKey] 1 true goldenUpgrade) = .ok .webSocket ∧
      Heard goldenHttp true goldenUpgrade.stream.input
        (outcome (detectAndUpgrade goldenHttp [goldenKey] 1 true goldenUpgrade))
        (sent goldenUpgrade (final (detectAndUpgrade goldenHttp [goldenKey] 1 true goldenUpgrade))) := by
  have hgolden : IsHead (utf8 "GET / HTTP/1.1\r\nUpgrade: websocket\r\nSec-WebSocket-Key: a\r\n\r\n")
    goldenUpgrade.stream.input := by decide +kernel
  refine ⟨by decide +kernel,detectAndUpgrade_heard rfl ?_⟩
  intro head hhead
  rw [hhead.unique hgolden]
  decide +kernel

end Rmbtd
