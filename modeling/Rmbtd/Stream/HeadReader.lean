import Rmbtd.IpCheck.ResponseSplitting
import Rmbtd.Stream.UpgradeSimulation

/-!
# Reading the request head

However the network cuts the stream, the HTTP phase takes the request head and not a byte more:
the shortest prefix that ends with a blank line. What the client sent after it is what the reader of
the `/ip` body, the raw stream or the WebSocket gets first.
-/

namespace Rmbtd

open Effect Session

/-! ## The shortest head -/

/-- The shortest prefix of the bytes that ends the request headers. -/
structure IsHead (head bytes : Bytes) : Prop where
  isPrefix : head <+: bytes
  ended : headEnd <:+ head
  shortest : ∀ p, p <+: bytes → headEnd <:+ p → head.length ≤ p.length

theorem IsHead.unique {head head' bytes : Bytes} (h : IsHead head bytes) (h' : IsHead head' bytes) :
    head = head' := by
  have hle := h.shortest head' h'.isPrefix h'.ended
  have hge := h'.shortest head h.isPrefix h.ended
  exact (List.prefix_of_prefix_length_le h.isPrefix h'.isPrefix hle).eq_of_length (by omega)

theorem IsHead.append {head bytes rest : Bytes} (h : IsHead head head) (hbytes : bytes = head ++ rest) :
    IsHead head bytes where
  isPrefix := hbytes ▸ List.prefix_append head rest
  ended := h.ended
  shortest p hp hended := by
    rcases Nat.le_total p.length head.length with hle | hle
    · exact h.shortest p (List.prefix_of_prefix_length_le hp (hbytes ▸ List.prefix_append head rest) hle) hended
    · exact hle

instance (head bytes : Bytes) : Decidable (IsHead head bytes) :=
  decidable_of_iff (head <+: bytes ∧ headEnd <:+ head ∧
      ∀ p ∈ bytes.inits, headEnd <:+ p → head.length ≤ p.length)
    ⟨fun h => ⟨h.1,h.2.1,fun p hp => h.2.2 p ((List.mem_inits p bytes).mpr hp)⟩,
      fun h => ⟨h.1,h.2,fun p hp => h.3 p ((List.mem_inits p bytes).mp hp)⟩⟩

/-- No prefix with at most `n` bytes ends the headers. -/
def Headless (n : Nat) (bytes : Bytes) : Prop :=
  ∀ p, p <+: bytes → headEnd <:+ p → n < p.length

private theorem Headless.step {buf rest : Bytes} {b : UInt8}
    (h : Headless buf.length (buf ++ b::rest)) (hb : ¬headEnd <:+ buf ++ [b]) :
    Headless (buf ++ [b]).length (buf ++ [b] ++ rest) := by
  intro p hp hended
  rw [List.append_assoc,List.singleton_append] at hp
  have hlt := h p hp hended
  refine Nat.lt_of_le_of_ne (by simpa using Nat.succ_le_of_lt hlt) fun hlen => hb ?_
  have hbuf : buf ++ [b] <+: buf ++ b::rest := by simp
  rwa [(List.prefix_of_prefix_length_le hbuf hp hlen.le).eq_of_length hlen]

private theorem Headless.isHead {buf rest : Bytes} {b : UInt8}
    (h : Headless buf.length (buf ++ b::rest)) (hb : headEnd <:+ buf ++ [b]) :
    IsHead (buf ++ [b]) (buf ++ b::rest) where
  isPrefix := by simp
  ended := hb
  shortest p hp hended := by simpa using Nat.succ_le_of_lt (h p hp hended)

private theorem Headless.of_all {buf : Bytes} (h : Headless buf.length buf) (n : Nat) :
    Headless n buf := fun p hp hended => absurd (h p hp hended) (Nat.not_lt.mpr hp.length_le)

theorem readHead_cons (room : Nat) (buf : Bytes) {conn : RawConn} {b : UInt8} {rest : Bytes}
    (hinput : conn.input = b::rest) : readHead room buf conn =
      if headEnd.isSuffixOf (buf ++ [b]) then .ok (buf ++ [b]) { conn with input := rest }
      else match room with
        | 0 => .error requestTooLarge { conn with input := rest }
        | room+1 => readHead room (buf ++ [b]) { conn with input := rest } := by
  have hread : HttpTransport.readExact 1 conn = .ok [b] { conn with input := rest } := by
    have hle : 1 ≤ conn.input.length := by simp [hinput]
    have h := RawConn.readExact_of_le hle
    rw [hinput] at h
    exact h
  rw [readHead,bind_ok hread]
  split
  · rfl
  · cases room <;> rfl

theorem readHead_nil (room : Nat) (buf : Bytes) {conn : RawConn} (hinput : conn.input = []) :
    readHead room buf conn = .error (conn.inputEnd.getD unfilled) { conn with input := [] } := by
  have hread : HttpTransport.readExact 1 conn =
      .error (conn.inputEnd.getD unfilled) { conn with input := [] } := by
    have hlt : conn.input.length < 1 := by simp [hinput]
    have h := RawConn.readExact_of_lt hlt
    rw [hinput] at h
    exact h
  rw [readHead,bind_error hread]

/-- What the client sent is split after the head; where there is none in `maxHead + 1` bytes, these
bytes are gone. -/
theorem readHead_spec (room : Nat) (buf : Bytes) (conn : RawConn)
    (hopen : Headless buf.length (buf ++ conn.input)) :
    (∃ head rest, IsHead head (buf ++ conn.input) ∧ head.length ≤ buf.length + room + 1 ∧
        buf ++ conn.input = head ++ rest ∧ readHead room buf conn = .ok head { conn with input := rest }) ∨
      Headless (buf.length + room + 1) (buf ++ conn.input) ∧
        readHead room buf conn = .error
          (if room < conn.input.length then requestTooLarge else conn.inputEnd.getD unfilled)
          { conn with input := conn.input.drop (room + 1) } := by
  have hend (room : Nat) (buf : Bytes) (conn : RawConn) (hopen : Headless buf.length (buf ++ conn.input))
      (hinput : conn.input = []) : Headless (buf.length + room + 1) (buf ++ conn.input) ∧
        readHead room buf conn = .error
          (if room < conn.input.length then requestTooLarge else conn.inputEnd.getD unfilled)
          { conn with input := conn.input.drop (room + 1) } := by
    rw [hinput,List.append_nil] at hopen ⊢
    exact ⟨hopen.of_all _,readHead_nil room buf hinput⟩
  induction room generalizing buf conn with
  | zero =>
    cases hinput : conn.input with
    | nil => exact Or.inr (hinput ▸ hend 0 buf conn hopen hinput)
    | cons b rest =>
      rw [readHead_cons 0 buf hinput]
      rw [hinput] at hopen
      split
      · next hb =>
        have hhead := hopen.isHead (List.isSuffixOf_iff_suffix.mp hb)
        exact Or.inl ⟨_,rest,hhead,by simp,by simp,rfl⟩
      · next hb =>
        have hnext := hopen.step (mt List.isSuffixOf_iff_suffix.mpr hb)
        exact Or.inr ⟨by simpa using hnext,rfl⟩
  | succ room ih =>
    cases hinput : conn.input with
    | nil => exact Or.inr (hinput ▸ hend (room + 1) buf conn hopen hinput)
    | cons b rest =>
      rw [readHead_cons (room+1) buf hinput]
      rw [hinput] at hopen
      split
      · next hb =>
        have hhead := hopen.isHead (List.isSuffixOf_iff_suffix.mp hb)
        exact Or.inl ⟨_,rest,hhead,by simp,by simp,rfl⟩
      · next hb =>
        have hnext := hopen.step (mt List.isSuffixOf_iff_suffix.mpr hb)
        have hlen : (buf ++ [b]).length + room + 1 = buf.length + (room + 1) + 1 := by
          simp
          omega
        have h := ih (buf ++ [b]) { conn with input := rest } hnext
        rw [hlen] at h
        simpa using h

private theorem headless_zero (bytes : Bytes) : Headless 0 bytes := by
  intro p _ hended
  exact Nat.lt_of_lt_of_le (by decide) hended.length_le

theorem readHead_takes {conn : RawConn} {head rest : Bytes} (hhead : IsHead head conn.input)
    (hlen : head.length ≤ maxHead + 1) (hinput : conn.input = head ++ rest) :
    readHead maxHead [] conn = .ok head { conn with input := rest } := by
  rcases readHead_spec maxHead [] conn (headless_zero _) with ⟨head',rest',hhead',-,hinput',hread⟩ | ⟨hno,-⟩
  · have hsame : head' = head := hhead'.unique hhead
    subst hsame
    have hrest : rest' = rest := List.append_cancel_left (hinput'.symm.trans hinput)
    rw [hread,hrest]
  · have hlt := hno head hhead.isPrefix hhead.ended
    simp only [List.length_nil] at hlt
    omega

theorem readHead_fails {conn : RawConn}
    (hno : ¬∃ head, IsHead head conn.input ∧ head.length ≤ maxHead + 1) :
    readHead maxHead [] conn = .error
      (if maxHead < conn.input.length then requestTooLarge else conn.inputEnd.getD unfilled)
      { conn with input := conn.input.drop (maxHead + 1) } := by
  rcases readHead_spec maxHead [] conn (headless_zero _) with ⟨head,-,hhead,hlen,-⟩ | ⟨-,hread⟩
  · refine absurd ⟨head,hhead,?_⟩ hno
    simpa using hlen
  · exact hread

/-! ## On related transports -/

namespace OnStreams

variable {σ τ : Type} [HttpTransport σ] [HttpTransport τ] {sizes : Nat → Prop}

/-- The transports serve the HTTP phase alike. -/
structure Http (R : σ → τ → Prop) : Prop where
  readExact : ∀ n, Simulates R (fun _ => False) Eq (HttpTransport.readExact n : EStateM IoError σ Bytes)
    (HttpTransport.readExact n)
  readUpTo : ∀ n, Simulates R (fun _ => False) Eq (HttpTransport.readUpTo n : EStateM IoError σ Bytes)
    (HttpTransport.readUpTo n)
  writeAll : ∀ data, Simulates R (fun _ => False) Eq
    (HttpTransport.writeAll data : EStateM IoError σ Unit) (HttpTransport.writeAll data)
  flush : Simulates R (fun _ => False) Eq (HttpTransport.flush : EStateM IoError σ Unit)
    HttpTransport.flush
  peerAddr : ∀ s t, R s t → HttpTransport.peerAddr s = HttpTransport.peerAddr t

namespace Http

variable {R : σ → τ → Prop} (h : Http R) (http : HttpEnv) (keys : List SecretKey) (connId : Nat)
include h

omit h [HttpTransport σ] [HttpTransport τ] in
theorem bodyReply (head : RequestHead) (body : Bytes) (peer : SocketAddr) :
    Simulates (OnStreams R sizes) Never Eq
      (HttpTransport.bodyReply http keys connId head body peer : Session σ IpReply)
      (HttpTransport.bodyReply http keys connId head body peer) := by
  apply Simulates.ite
  · exact .pure rfl
  · apply nowSecs.bind
    rintro now _ rfl
    apply (logged _).bind
    rintro result _ rfl
    cases result with
    | ok answer => exact .pure rfl
    | error e => exact .pure rfl

theorem peerReply (head : RequestHead) (body : Bytes) : Simulates (OnStreams R sizes) Never Eq
    (HttpTransport.peerReply http keys connId head body : Session σ IpReply)
    (HttpTransport.peerReply http keys connId head body) := by
  have hpeer : Simulates (OnStreams R sizes) Never (fun v v' => HttpTransport.peerAddr v.stream =
      HttpTransport.peerAddr v'.stream) (get : Session σ (World σ)) (get : Session τ (World τ)) :=
    fun w w' hw => ⟨w',w',rfl,h.peerAddr _ _ hw.stream,hw⟩
  apply hpeer.bind
  intro v v' hv
  rw [hv]
  cases HttpTransport.peerAddr v'.stream with
  | none => exact .throw _
  | some peer => exact bodyReply http keys connId head body peer

theorem postReply (head : RequestHead) : Simulates (OnStreams R sizes) Never Eq
    (HttpTransport.postReply http keys connId head : Session σ IpReply)
    (HttpTransport.postReply http keys connId head) := by
  apply Simulates.ite
  · exact .pure rfl
  apply Simulates.ite
  · exact (onStream (h.readUpTo _)).bind fun _ _ _ => .pure rfl
  · apply (onStream (h.readUpTo _)).bind
    rintro body _ rfl
    exact .ite (.throw _) (h.peerReply http keys connId head body)

theorem send (head : RequestHead) (reply : IpReply) (addHsts : Bool) :
    Simulates (OnStreams R sizes) Never Eq (HttpTransport.send head reply addHsts : Session σ Text)
      (HttpTransport.send head reply addHsts) :=
  (onStream (h.writeAll _)).bind fun _ _ _ => (onStream h.flush).bind fun _ _ _ => .pure rfl

theorem handle (head : Text) (addHsts : Bool) : Simulates (OnStreams R sizes) Never Eq
    (HttpTransport.handle http keys connId head addHsts : Session σ Text)
    (HttpTransport.handle http keys connId head addHsts) := by
  apply (liftExcept _).bind
  rintro head _ rfl
  have hreply : Simulates (OnStreams R sizes) Never Eq
      (HttpTransport.ipReply http keys connId head : Session σ IpReply)
      (HttpTransport.ipReply http keys connId head) :=
    .ite (.pure rfl) (.ite (h.postReply http keys connId head) (.pure rfl))
  apply hreply.bind
  rintro reply _ rfl
  exact h.send head reply addHsts

omit h [HttpTransport σ] [HttpTransport τ] in
theorem ignored {m : EStateM IoError σ Unit} {n : EStateM IoError τ Unit}
    (hm : Simulates R (fun _ => False) Eq m n) :
    Simulates (OnStreams R sizes) Never Eq (Rmbtd.ignored m) (Rmbtd.ignored n) := by
  intro w w' hw
  have hm := hm w.stream w'.stream hw.stream
  refine ⟨(),_,rfl,rfl,{ hw with stream := ?_ }⟩
  cases hmw : m w.stream with
  | ok a s =>
    rw [hmw] at hm
    obtain ⟨_,t,hn,-,hr⟩ := hm
    rw [hn]
    exact hr
  | error e s =>
    rw [hmw] at hm
    obtain ⟨t,hn,hr⟩ := hm.resolve_left id
    rw [hn]
    exact hr

theorem relation : HttpRelation (OnStreams R sizes) where
  readHead := onStream (readHead_simulates h.readExact maxHead [])
  writeAll data := onStream (h.writeAll data)
  flush := onStream h.flush
  ignoredWrite data := ignored (h.writeAll data)
  ignoredFlush := ignored h.flush
  log _ := emit _

theorem detectAndUpgrade (addHsts : Bool) : Simulates (OnStreams R sizes) Never Eq
    (Rmbtd.detectAndUpgrade http keys connId addHsts : Session σ Upgrade)
    (Rmbtd.detectAndUpgrade http keys connId addHsts) := by
  have hnever (e : Stop) : ¬Never e := id
  apply h.relation.readHead.bind
  rintro buf _ rfl
  apply Simulates.of_matched
  intro w w' hw
  apply h.relation.answer http keys connId addHsts hw
  exact fun _ => (h.handle http keys connId _ addHsts).matched hnever hw

end Http

end OnStreams

theorem Transport.http : OnStreams.Http fun (t : Transport) (conn : RawConn) => whole t = conn where
  readExact := refines_readExact
  readUpTo n := refines_readUpTo (fun _ => n) n
  writeAll := refines_writeAll
  flush := refines_flush
  peerAddr := by
    rintro t _ rfl
    rfl

/-! ## What follows the head -/

section
variable (http : HttpEnv) (keys : List SecretKey) (connId : Nat) (addHsts : Bool)

/-- How the bytes after the head are passed on. -/
structure PassesOn (w : World Transport) (head rest : Bytes) : Prop where
  /-- Nothing but the head is taken before the request is answered. -/
  answered : ∃ t : Transport, whole t = { whole w.stream with input := rest } ∧
    detectAndUpgrade http keys connId addHsts w =
      answer http keys connId (fromUtf8Lossy head) addHsts { w with stream := t }
  /-- The raw stream starts with the rest. -/
  raw : ∀ w', detectAndUpgrade http keys connId addHsts w = .ok .raw w' →
    (whole (.new w'.stream : BufConn)).input = rest
  /-- So does the WebSocket. -/
  webSocket : ∀ w', detectAndUpgrade http keys connId addHsts w = .ok .webSocket w' →
    (whole w'.stream).input = rest
  /-- A body of the announced length is taken from the rest, and no more. -/
  body : ∀ r, ipCheckMatches (requestTarget (fromUtf8Lossy head)) →
    parseHead (fromUtf8Lossy head) = .ok r → r.method = "POST" → r.chunked = false →
    r.contentLength ≤ maxBody → r.contentLength ≤ rest.length →
    ∃ t : Transport, whole t = { whole w.stream with input := rest.drop r.contentLength } ∧
      detectAndUpgrade http keys connId addHsts w =
        (do
          let reply ← HttpTransport.peerReply http keys connId r (rest.take r.contentLength)
          return Upgrade.ipCheck (← HttpTransport.send r reply addHsts)) { w with stream := t }
  /-- A shorter one is an error. -/
  short : ∀ r, ipCheckMatches (requestTarget (fromUtf8Lossy head)) →
    parseHead (fromUtf8Lossy head) = .ok r → r.method = "POST" → r.chunked = false →
    r.contentLength ≤ maxBody → rest.length < r.contentLength →
    ∃ e w', detectAndUpgrade http keys connId addHsts w = .error (.io e) w'

/-- The rest of the input is still to be read. -/
def Unread (rest : Bytes) (w : World Transport) : Prop := (whole w.stream).input = rest

theorem Unread.of_segments {rest : Bytes} {w : World Transport} (hw : Unread rest w) {t : Transport}
    (ht : t.segments = w.stream.segments) : Unread rest { w with stream := t } := by
  have hbytes : (whole t).input = (whole w.stream).input :=
    congrArg (fun segments => (segments.map Subtype.val).flatten) ht
  exact hbytes.trans hw

section
variable {m : EStateM IoError Transport Unit} (h : ∀ t, (final (m t)).segments = t.segments)
  (rest : Bytes)
include h

theorem unread_onStream : Keeps (Unread rest) (onStream m) := by
  intro w hw
  have hm := h w.stream
  unfold onStream
  cases hmw : m w.stream with
  | ok a t =>
    rw [hmw] at hm
    exact hw.of_segments hm
  | error e t =>
    rw [hmw] at hm
    exact hw.of_segments hm

theorem unread_ignored : Keeps (Unread rest) (ignored m) := fun w hw => hw.of_segments (h w.stream)

end

theorem Transport.writeAll_segments (data : Bytes) (t : Transport) :
    (final (Transport.writeAll data t)).segments = t.segments := by
  unfold Transport.writeAll
  split <;> rfl

theorem Transport.flush_segments (t : Transport) : (final (Transport.flush t)).segments = t.segments := by
  unfold Transport.flush
  split <;> rfl

theorem unread_refuse (rest : Bytes) {record : LogRecord} {response : Bytes} {e : IoError} :
    Keeps (Unread rest) (do
      emit (.logged record)
      ignored (HttpTransport.writeAll response)
      ignored HttpTransport.flush
      throw (.io e) : Session Transport Upgrade) := by
  have hemit : Keeps (Unread rest) (emit (.logged record)) := fun _ hw => hw
  exact hemit.bind fun _ => (unread_ignored (Transport.writeAll_segments response) rest).bind fun _ =>
    (unread_ignored Transport.flush_segments rest).bind fun _ => .throw _

theorem answer_unread (rest : Bytes) (req : Text) :
    Triple (Unread rest) (answer http keys connId req addHsts)
      (fun u w => u = .raw ∨ u = .webSocket → Unread rest w) fun _ _ => True := by
  have hanswered {α : Type} (m : Session Transport α) :
      Triple (Unread rest) m (fun _ _ => True) fun _ _ => True := by
    intro w _
    cases m w <;> trivial
  have hupgrade {m : Session Transport Upgrade} (h : Keeps (Unread rest) m) :
      Triple (Unread rest) m (fun u w => u = .raw ∨ u = .webSocket → Unread rest w) fun _ _ => True :=
    h.mono (fun _ hw => hw) (fun _ _ hw _ => hw) fun _ _ _ => trivial
  have hwrite (data : Bytes) := unread_onStream (Transport.writeAll_segments data) rest
  unfold answer
  split
  · exact .bind (hanswered _) fun summary => .pure fun _ _ h => by simp at h
  split
  · exact .bind (hanswered _) fun summary => .pure fun _ _ h => by simp at h
  split
  · exact hupgrade (unread_refuse rest)
  dsimp only
  split
  · apply hupgrade
    unfold webSocketHandshake
    cases webSocketKey req with
    | none => exact .throw _
    | some key =>
      exact (hwrite _).bind fun _ => (unread_onStream Transport.flush_segments rest).bind fun _ => .pure _
  split
  · exact hupgrade ((hwrite _).bind fun _ => .pure _)
  · exact hupgrade (unread_refuse rest)

section
variable {w : World Transport} {t : Transport} {req : Text} {r : RequestHead}
  (hip : ipCheckMatches (requestTarget req)) (hparse : parseHead req = .ok r)
include hip hparse

theorem answer_ip : answer http keys connId req addHsts w =
    (do
      let reply ← HttpTransport.ipReply http keys connId r
      return Upgrade.ipCheck (← HttpTransport.send r reply addHsts)) w := by
  have hlift : liftExcept (parseHead req) w = .ok r w := by
    rw [hparse]
    rfl
  rw [answer,if_pos hip,HttpTransport.handle,bind_assoc,bind_ok hlift,bind_assoc]

variable (hmethod : r.method = "POST") (hchunked : r.chunked = false)
  (hmax : r.contentLength ≤ maxBody)
include hmethod hchunked hmax

omit hip hparse in
theorem ipReply_post : HttpTransport.ipReply http keys connId r w =
    (do
      let body ← onStream (HttpTransport.readUpTo r.contentLength)
      if body.length < r.contentLength then throw (Stop.io truncatedBody)
      else HttpTransport.peerReply http keys connId r body : Session Transport IpReply) w := by
  have hoptions : r.method ≠ "OPTIONS" := by
    rw [hmethod]
    decide
  rw [HttpTransport.ipReply,if_neg hoptions,if_pos hmethod,HttpTransport.postReply,
    if_neg (by simp [hchunked]),if_neg (Nat.not_lt.mpr hmax)]

theorem answer_body {body : Bytes}
    (hread : HttpTransport.readUpTo r.contentLength w.stream = .ok body t) :
    answer http keys connId req addHsts w =
      (do
        let reply ← (if body.length < r.contentLength then throw (Stop.io truncatedBody)
          else HttpTransport.peerReply http keys connId r body : Session Transport IpReply)
        return Upgrade.ipCheck (← HttpTransport.send r reply addHsts)) { w with stream := t } := by
  rw [answer_ip http keys connId addHsts hip hparse,bind_apply,
    ipReply_post http keys connId hmethod hchunked hmax,bind_ok (onStream_ok hread),← bind_apply]

theorem answer_fault {e : IoError}
    (hread : HttpTransport.readUpTo r.contentLength w.stream = .error e t) :
    answer http keys connId req addHsts w = .error (.io e) { w with stream := t } := by
  rw [answer_ip http keys connId addHsts hip hparse,bind_apply,
    ipReply_post http keys connId hmethod hchunked hmax,bind_error (onStream_error hread)]

end

theorem detectAndUpgrade_takesHead (w : World Transport) :
    (∀ head rest, IsHead head (whole w.stream).input → head.length ≤ maxHead + 1 →
      (whole w.stream).input = head ++ rest → PassesOn http keys connId addHsts w head rest) ∧
    ((¬∃ head, IsHead head (whole w.stream).input ∧ head.length ≤ maxHead + 1) → ∃ t : Transport,
      detectAndUpgrade http keys connId addHsts w = .error (.io (if maxHead < (whole w.stream).input.length
        then requestTooLarge else (whole w.stream).inputEnd.getD unfilled)) { w with stream := t } ∧
      whole t = { whole w.stream with input := (whole w.stream).input.drop (maxHead + 1) }) := by
  constructor
  · intro head rest hhead hlen hinput
    obtain ⟨t,hread,ht⟩ := (readHead_simulates Transport.http.readExact maxHead []).eq_ok rfl
      (readHead_takes hhead hlen hinput)
    have hrun : detectAndUpgrade http keys connId addHsts w =
        answer http keys connId (fromUtf8Lossy head) addHsts { w with stream := t } :=
      bind_ok (onStream_ok hread)
    have hunread : Unread rest { w with stream := t } := congrArg RawConn.input ht
    have hupgrade := answer_unread http keys connId addHsts rest (fromUtf8Lossy head) _ hunread
    rw [← hrun] at hupgrade
    refine ⟨⟨t,ht,hrun⟩,fun w' h => ?_,fun w' h => ?_,?_,?_⟩
    · rw [h] at hupgrade
      exact hupgrade (Or.inl rfl)
    · rw [h] at hupgrade
      exact hupgrade (Or.inr rfl)
    · intro r hip hparse hmethod hchunked hmax hlen
      have htaken : RawConn.readUpTo r.contentLength { whole w.stream with input := rest } =
          .ok (rest.take r.contentLength) { whole w.stream with input := rest.drop r.contentLength } :=
        RawConn.readUpTo_of_end fun hlt => absurd hlen (Nat.not_le.mpr hlt)
      obtain ⟨t',hbody,ht'⟩ := (Transport.http.readUpTo r.contentLength).eq_ok ht htaken
      refine ⟨t',ht',?_⟩
      rw [hrun,answer_body http keys connId addHsts hip hparse hmethod hchunked hmax hbody,
        if_neg (by simp [hlen])]
    · intro r hip hparse hmethod hchunked hmax hlen
      cases hend : (whole w.stream).inputEnd with
      | none =>
        have htaken : RawConn.readUpTo r.contentLength { whole w.stream with input := rest } =
            .ok (rest.take r.contentLength) { whole w.stream with input := rest.drop r.contentLength } :=
          RawConn.readUpTo_of_end fun _ => hend
        obtain ⟨t',hbody,-⟩ := (Transport.http.readUpTo r.contentLength).eq_ok ht htaken
        have hshort : (rest.take r.contentLength).length < r.contentLength :=
          Nat.lt_of_le_of_lt (List.length_take_le' ..) hlen
        refine ⟨truncatedBody,{ w with stream := t' },?_⟩
        rw [hrun,answer_body http keys connId addHsts hip hparse hmethod hchunked hmax hbody,if_pos hshort]
        rfl
      | some e =>
        have hfault : RawConn.readUpTo r.contentLength { whole w.stream with input := rest } =
            .error e { whole w.stream with input := rest.drop r.contentLength } :=
          RawConn.readUpTo_of_fault hlen hend
        obtain ⟨t',hbody,-⟩ := (Transport.http.readUpTo r.contentLength).eq_error ht hfault
        refine ⟨e,{ w with stream := t' },?_⟩
        rw [hrun,answer_fault http keys connId addHsts hip hparse hmethod hchunked hmax hbody]
  · intro hno
    obtain ⟨t,hread,ht⟩ := (readHead_simulates Transport.http.readExact maxHead []).eq_error rfl (readHead_fails hno)
    exact ⟨t,bind_error (onStream_error hread),ht⟩

/-- A request for an upgrade whose head ends in the middle of a segment. The token follows at once. -/
def goldenPipelined : Transport where
  segments := [⟨utf8 "GET / HTTP/1.1\r\nUpgrade: rm",by decide⟩,⟨utf8 "bt\r\n\r\nTOKEN a\n",by decide⟩]
  inputEnd := none
  outgoing := ⟨[],[],none⟩

/-- A request to `/ip` with a byte too many. -/
def goldenPost : Transport where
  segments := [⟨utf8 "POST /ip HTTP/1.1\r\nContent-Length: 2\r\n",by decide⟩,⟨utf8 "\r\n\x7b\x7dA",by decide⟩]
  inputEnd := none
  outgoing := ⟨[],[],none⟩

/-- The client closes in the middle of the head. -/
def goldenNoHead : Transport where
  segments := [⟨utf8 "GET\r\n",by decide⟩]
  inputEnd := none
  outgoing := ⟨[],[],none⟩

private theorem golden_headless (p : Bytes) (hp : p <+: (whole goldenNoHead).input) : ¬headEnd <:+ p := by
  have hall : ∀ p ∈ (whole goldenNoHead).input.inits, ¬headEnd <:+ p := by decide
  exact hall p ((List.mem_inits ..).mpr hp)

private theorem golden_upgrades : (match detectAndUpgrade goldenHttp [goldenKey] 1 false
    (.start goldenPipelined id fun _ => 0) with
    | .ok upgrade _ => some upgrade
    | .error _ _ => none) = some .raw := by decide +kernel

theorem detectAndUpgrade_takesHead_golden :
    (∃ w', detectAndUpgrade goldenHttp [goldenKey] 1 false (.start goldenPipelined id fun _ => 0) = .ok .raw w' ∧
      (whole (.new w'.stream : BufConn)).input = utf8 "TOKEN a\n") ∧
    (∃ t : Transport, whole t = { whole goldenPost with input := utf8 "A" } ∧
      detectAndUpgrade goldenHttp [goldenKey] 1 false (.start goldenPost id fun _ => 0) =
        (do
          let reply ← HttpTransport.peerReply goldenHttp [goldenKey] 1 ⟨"POST",2,[],false,false,[]⟩ (utf8 "\x7b\x7d")
          return Upgrade.ipCheck (← HttpTransport.send ⟨"POST",2,[],false,false,[]⟩ reply false))
          { World.start goldenPost id (fun _ => 0) with stream := t }) ∧
    ∃ t : Transport, detectAndUpgrade goldenHttp [goldenKey] 1 false (.start goldenNoHead id fun _ => 0) =
        .error (.io unfilled) { World.start goldenNoHead id (fun _ => 0) with stream := t } ∧
      whole t = { whole goldenNoHead with input := [] } := by
  refine ⟨?_,?_,?_⟩
  · have hpasses := (detectAndUpgrade_takesHead goldenHttp [goldenKey] 1 false (.start goldenPipelined id fun _ => 0)).1
      (utf8 "GET / HTTP/1.1\r\nUpgrade: rmbt\r\n\r\n") (utf8 "TOKEN a\n") (by decide +kernel) (by decide +kernel)
      (by decide +kernel)
    have hraw := golden_upgrades
    cases hrun : detectAndUpgrade goldenHttp [goldenKey] 1 false (.start goldenPipelined id fun _ => 0) with
    | error e w' =>
      rw [hrun] at hraw
      cases hraw
    | ok upgrade w' =>
      rw [hrun] at hraw
      cases hraw
      exact ⟨w',rfl,hpasses.raw w' hrun⟩
  · exact ((detectAndUpgrade_takesHead goldenHttp [goldenKey] 1 false (.start goldenPost id fun _ => 0)).1
      (utf8 "POST /ip HTTP/1.1\r\nContent-Length: 2\r\n\r\n") (utf8 "\x7b\x7dA") (by decide +kernel) (by decide +kernel)
      (by decide +kernel)).body ⟨"POST",2,[],false,false,[]⟩ (by decide +kernel) (by decide +kernel) rfl rfl
      (by decide) (by decide)
  · exact (detectAndUpgrade_takesHead ..).2 fun ⟨head,hhead,_⟩ =>
      golden_headless head hhead.isPrefix hhead.ended

end

end Rmbtd
