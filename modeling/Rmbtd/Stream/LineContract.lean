import Rmbtd.Stream.Script

/-!
# The contract of `read_line`

Which inputs make `read_line` return one complete line. The three ways to read a line bound and
strip it differently: a raw connection returns what it has when the client closes in the middle of a
line, and a message on a WebSocket is neither bounded nor searched for further line ends.
-/

namespace Rmbtd

/-- What is returned is one line of at most `MAX_LINE_LENGTH` bytes; on a raw connection its newline
was in the stream, and the stream goes on after it. -/
def Honours (st : Stream) : Prop :=
  ∀ line st', LineStream.readLine st = .ok line st' →
    byteLen line ≤ maxLineLength ∧ '\n' ∉ line ∧
    ∀ conn, st = .raw conn → ∃ body rest, conn.input = body ++ RawConn.newline::rest ∧
      utf8 line = RawConn.popLast RawConn.carriageReturn body ∧ st' = .raw { conn with input := rest }

/-! ## Texts and their bytes -/

private theorem newline_mem_utf8 {t : Text} (h : '\n' ∈ t) : RawConn.newline ∈ utf8 t := by
  apply List.mem_flatMap.mpr
  exact ⟨'\n',h,by decide⟩

private theorem byteLen_le_of_initial {s t : Text} (h : s <+: t) : byteLen s ≤ byteLen t := by
  obtain ⟨r,rfl⟩ := h
  simp [byteLen]

private theorem line_of_initial {s t : Text} (h : s <+: t) (hlen : byteLen t ≤ maxLineLength)
    (hnewline : '\n' ∉ t) : byteLen s ≤ maxLineLength ∧ '\n' ∉ s :=
  ⟨le_trans (byteLen_le_of_initial h) hlen,fun hs => hnewline (h.subset hs)⟩

/-! ## Raw connections -/

namespace RawConn

/-- The client closes in the middle of a line that is not too long. -/
structure EndsInLine (conn : RawConn) : Prop where
  started : conn.input ≠ []
  open_ : newline ∉ conn.input
  short : conn.input.length ≤ maxLineLength
  closed : conn.inputEnd = none
  valid : (fromUtf8 (popLast carriageReturn conn.input)).isSome = true

/-- A line ends at its newline, at the limit or at the end of the input. -/
theorem readUntil_cases (limit : Nat) (bs : Bytes) :
    (∃ body rest, newline ∉ body ∧ bs = body ++ newline::rest ∧ body.length < limit ∧
        readUntil limit bs = (body ++ [newline],rest)) ∨
      newline ∉ bs.take limit ∧ readUntil limit bs = (bs.take limit,bs.drop limit) := by
  induction limit generalizing bs with
  | zero => exact Or.inr ⟨by simp,by simp [readUntil]⟩
  | succ limit ih =>
    cases bs with
    | nil => exact Or.inr ⟨by simp,rfl⟩
    | cons b bs =>
      by_cases hb : b = newline
      · exact Or.inl ⟨[],bs,by simp,by simp [hb],by simp,by simp [readUntil,hb]⟩
      · rcases ih bs with ⟨body,rest,hbody,rfl,hlen,hread⟩ | ⟨hopen,hread⟩
        · refine Or.inl ⟨b::body,rest,by simp [hbody,Ne.symm hb],rfl,by simpa using hlen,?_⟩
          rw [readUntil,if_neg hb,hread]
          rfl
        · refine Or.inr ⟨by simp [hopen,Ne.symm hb],?_⟩
          rw [readUntil,if_neg hb,hread]
          rfl

theorem popLast_initial (c : UInt8) (buf : Bytes) : popLast c buf <+: buf := by
  unfold popLast
  split
  · exact List.dropLast_prefix buf
  · exact List.prefix_refl buf

private theorem line_of_body {body : Bytes} {text : Text}
    (h : fromUtf8 (popLast carriageReturn body) = some text) (hbody : newline ∉ body)
    (hlen : body.length ≤ maxLineLength) :
    utf8 text = popLast carriageReturn body ∧ byteLen text ≤ maxLineLength ∧ '\n' ∉ text := by
  have hutf8 := utf8_of_fromUtf8 h
  have hinitial := popLast_initial carriageReturn body
  refine ⟨hutf8,?_,?_⟩
  · rw [byteLen,hutf8]
    exact le_trans hinitial.length_le hlen
  · intro hmem
    have hnewline := newline_mem_utf8 hmem
    rw [hutf8] at hnewline
    exact hbody (hinitial.subset hnewline)

private theorem popLast_concat (body : Bytes) : popLast newline (body ++ [newline]) = body := by
  rw [popLast,if_pos List.getLast?_concat,List.dropLast_concat]

private theorem popLast_open {bs : Bytes} (h : newline ∉ bs) : popLast newline bs = bs :=
  if_neg fun hlast => h (List.mem_of_getLast? hlast)

theorem readLine_eq_ok {conn next : RawConn} {text : Text} (h : readLine conn = .ok text next) :
    (∃ body rest, conn.input = body ++ newline::rest ∧ newline ∉ body ∧
        body.length ≤ maxLineLength ∧ fromUtf8 (popLast carriageReturn body) = some text ∧
        next = { conn with input := rest }) ∨
      conn.EndsInLine := by
  unfold readLine at h
  rcases readUntil_cases (maxLineLength + 1) conn.input with
    ⟨body,rest,hbody,hinput,hlen,hread⟩ | ⟨hopen,hread⟩
  · refine Or.inl ⟨body,rest,hinput,hbody,by omega,?_⟩
    simp only [hread,popLast_concat] at h
    split at h
    · cases h
    split at h
    · cases h
    split at h
    · cases h
    cases htext : fromUtf8 (popLast carriageReturn body) with
    | none => simp [htext] at h
    | some text' =>
      simp only [htext,EStateM.Result.ok.injEq] at h
      exact ⟨by rw [h.1],h.2.symm⟩
  · right
    simp only [hread,popLast_open hopen] at h
    split at h
    · cases h
    next hfault =>
    split at h
    · cases h
    next hne =>
    split at h
    · cases h
    next hshort =>
    have hlen : (conn.input.take (maxLineLength + 1)).length ≤ maxLineLength := Nat.not_lt.mp hshort
    have hall : conn.input.take (maxLineLength + 1) = conn.input := by
      apply List.take_of_length_le
      rw [List.length_take] at hlen
      omega
    rw [hall] at hopen hlen hne hfault h
    refine ⟨hne,hopen,hlen,?_,?_⟩
    · have hlast : conn.input.getLast? ≠ some newline := fun hlast => hopen (List.mem_of_getLast? hlast)
      rw [lineFault,if_neg (by simp [hlast]; omega)] at hfault
      exact hfault
    · cases htext : fromUtf8 (popLast carriageReturn conn.input) with
      | none => simp [htext] at h
      | some text' => rfl

theorem EndsInLine.readLine {conn : RawConn} (h : conn.EndsInLine) :
    ∃ text next, RawConn.readLine conn = .ok text next := by
  obtain ⟨text,htext⟩ := Option.isSome_iff_exists.mp h.valid
  have htake : conn.input.take (maxLineLength + 1) = conn.input :=
    List.take_of_length_le (Nat.le_succ_of_le h.short)
  have hread : readUntil (maxLineLength + 1) conn.input = (conn.input,[]) := by
    rcases readUntil_cases (maxLineLength + 1) conn.input with ⟨body,rest,-,hinput,-⟩ | ⟨-,hread⟩
    · exact absurd (by simp [hinput]) h.open_
    · rw [hread,htake,List.drop_of_length_le (Nat.le_succ_of_le h.short)]
  have hfault : lineFault conn conn.input = none := by
    unfold lineFault
    split
    · rfl
    · exact h.closed
  refine ⟨text,{ conn with input := [] },?_⟩
  unfold RawConn.readLine
  simp only [hread,hfault,if_neg h.started,if_neg (Nat.not_lt.mpr h.short),popLast_open h.open_,htext]

end RawConn

private theorem raw_honours_iff (conn : RawConn) : Honours (.raw conn) ↔ ¬conn.EndsInLine := by
  have hlift {line : Text} {st' : Stream} : LineStream.readLine (Stream.raw conn) = .ok line st' ↔
      ∃ next, RawConn.readLine conn = .ok line next ∧ st' = .raw next := by
    change Stream.lift RawConn.readLine WebSocket.readLine (.raw conn) = _ ↔ _
    rw [Stream.lift]
    cases RawConn.readLine conn <;> simp [eq_comm]
  constructor
  · intro h hends
    obtain ⟨text,next,hread⟩ := hends.readLine
    obtain ⟨-,-,hraw⟩ := h text (.raw next) (hlift.mpr ⟨next,hread,rfl⟩)
    obtain ⟨body,rest,hinput,-⟩ := hraw conn rfl
    exact hends.open_ (by simp [hinput])
  · intro hends line st' hread
    obtain ⟨next,hrun,rfl⟩ := hlift.mp hread
    rcases RawConn.readLine_eq_ok hrun with ⟨body,rest,hinput,hbody,hlen,htext,rfl⟩ | h
    · obtain ⟨hutf8,hline,hnewline⟩ := RawConn.line_of_body htext hbody hlen
      refine ⟨hline,hnewline,?_⟩
      intro conn' hconn
      cases hconn
      exact ⟨body,rest,hinput,hutf8,rfl⟩
    · exact absurd h hends

/-! ## WebSockets -/

namespace WebSocket

def firstFrame (messages : List Message) : Option Message :=
  messages.find? fun m => m ∉ ([.ping,.pong,.frame] : List Message)

theorem nextLine_fst (end_ : WsError) (messages : List Message) :
    (nextLine end_ messages).1 = match firstFrame messages with
      | none => .error (readError end_)
      | some m => match lineOf m with
        | none => .error wsClose
        | some line => .ok line := by
  induction messages with
  | nil => rfl
  | cons m messages ih =>
    cases m with
    | text t => simp [nextLine,firstFrame,lineOf]
    | binary b => simp [nextLine,firstFrame,lineOf]
    | close => simp [nextLine,firstFrame,lineOf]
    | ping => simpa [nextLine,firstFrame,lineOf] using ih
    | pong => simpa [nextLine,firstFrame,lineOf] using ih
    | frame => simpa [nextLine,firstFrame,lineOf] using ih

end WebSocket

/-- The message is a line with at most its line end: for a text message any number of carriage
returns and then of newlines, for a binary one at most one of each. -/
def Message.Orderly : Message → Prop
  | .text t => ∃ body crs lfs, t = body ++ List.replicate crs '\r' ++ List.replicate lfs '\n' ∧
      byteLen body ≤ maxLineLength ∧ '\n' ∉ body
  | .binary b => ∃ body crs lfs,
      fromUtf8Lossy b = body ++ List.replicate crs '\r' ++ List.replicate lfs '\n' ∧
      crs ≤ 1 ∧ lfs ≤ 1 ∧ byteLen body ≤ maxLineLength ∧ '\n' ∉ body
  | _ => True

private theorem rdropWhile_replicate (t : Text) (c : Char) (n : Nat) :
    (t ++ List.replicate n c).rdropWhile (· = c) = t.rdropWhile (· = c) := by
  induction n with
  | zero => simp
  | succ n ih =>
    rw [List.replicate_succ',← List.append_assoc,List.rdropWhile_concat_pos _ _ _ (by simp),ih]

private theorem exists_replicate (t : Text) (c : Char) :
    ∃ n, t = t.rdropWhile (· = c) ++ List.replicate n c := by
  refine ⟨(t.rtakeWhile (· = c)).length,?_⟩
  have hall : t.rtakeWhile (· = c) = List.replicate (t.rtakeWhile (· = c)).length c := by
    apply List.eq_replicate_of_mem
    intro d hd
    simpa using List.mem_rtakeWhile_imp hd
  rw [← hall,List.rdropWhile_append_rtakeWhile]

private theorem text_orderly_iff (t : Text) :
    (Message.text t).Orderly ↔ ∀ line, WebSocket.lineOf (.text t) = some line →
      byteLen line ≤ maxLineLength ∧ '\n' ∉ line := by
  simp only [WebSocket.lineOf,Option.some.injEq,forall_eq']
  constructor
  · rintro ⟨body,crs,lfs,rfl,hlen,hnewline⟩
    apply line_of_initial _ hlen hnewline
    rw [rdropWhile_replicate]
    cases crs with
    | zero =>
      rw [List.replicate_zero,List.append_nil]
      exact (List.rdropWhile_prefix _ _).trans (List.rdropWhile_prefix _ _)
    | succ crs =>
      rw [List.replicate_succ',← List.append_assoc,List.rdropWhile_concat_neg _ _ _ (by simp),
        List.rdropWhile_concat_pos _ _ _ (by simp),rdropWhile_replicate]
      exact List.rdropWhile_prefix _ _
  · rintro ⟨hlen,hnewline⟩
    obtain ⟨lfs,hlfs⟩ := exists_replicate t '\n'
    obtain ⟨crs,hcrs⟩ := exists_replicate (t.rdropWhile (· = '\n')) '\r'
    exact ⟨_,crs,lfs,by rw [← hcrs,← hlfs],hlen,hnewline⟩

private theorem exists_optional (t : Text) (c : Char) :
    ∃ n ≤ 1, t = (if t.getLast? = some c then t.dropLast else t) ++ List.replicate n c := by
  split
  · next hlast => exact ⟨1,le_rfl,(List.dropLast_append_getLast? _ hlast).symm⟩
  · exact ⟨0,Nat.zero_le 1,by simp⟩

private theorem drop_optional {t : Text} {c : Char} {n : Nat} (hn : n ≤ 1) :
    (if (t ++ List.replicate n c).getLast? = some c then (t ++ List.replicate n c).dropLast
      else t ++ List.replicate n c) <+: t := by
  match n, hn with
  | 0, _ =>
    rw [List.replicate_zero,List.append_nil]
    split
    · exact List.dropLast_prefix t
    · exact List.prefix_refl t
  | 1, _ => simp

private theorem binary_orderly_iff (b : Bytes) :
    (Message.binary b).Orderly ↔ ∀ line, WebSocket.lineOf (.binary b) = some line →
      byteLen line ≤ maxLineLength ∧ '\n' ∉ line := by
  simp only [WebSocket.lineOf,Option.some.injEq,forall_eq',Message.Orderly]
  generalize fromUtf8Lossy b = t
  constructor
  · rintro ⟨body,crs,lfs,rfl,hcrs,hlfs,hlen,hnewline⟩
    apply line_of_initial _ hlen hnewline
    have hopen : '\n' ∉ body ++ List.replicate crs '\r' := by simp [hnewline]
    have hdrop : (if (body ++ List.replicate crs '\r' ++ List.replicate lfs '\n').getLast? = some '\n'
        then (body ++ List.replicate crs '\r' ++ List.replicate lfs '\n').dropLast
        else body ++ List.replicate crs '\r' ++ List.replicate lfs '\n') =
          body ++ List.replicate crs '\r' := by
      generalize body ++ List.replicate crs '\r' = t at *
      rcases Nat.le_one_iff_eq_zero_or_eq_one.mp hlfs with rfl | rfl
      · simpa using fun hlast => absurd (List.mem_of_getLast? hlast) hopen
      · simp
    rw [hdrop]
    exact drop_optional hcrs
  · rintro ⟨hlen,hnewline⟩
    obtain ⟨lfs,hlfs,ht⟩ := exists_optional t '\n'
    obtain ⟨crs,hcrs,ht'⟩ := exists_optional (if t.getLast? = some '\n' then t.dropLast else t) '\r'
    exact ⟨_,crs,lfs,by rw [← ht',← ht],hcrs,hlfs,hlen,hnewline⟩

private theorem orderly_iff (m : Message) :
    m.Orderly ↔ ∀ line, WebSocket.lineOf m = some line →
      byteLen line ≤ maxLineLength ∧ '\n' ∉ line := by
  cases m with
  | text t => exact text_orderly_iff t
  | binary b => exact binary_orderly_iff b
  | _ => simp [Message.Orderly,WebSocket.lineOf]

private theorem webSocket_honours_iff (ws : WebSocket) :
    Honours (.webSocket ws) ↔ ∀ m ∈ WebSocket.firstFrame ws.incoming, m.Orderly := by
  have hlift (line : Text) : (∃ st', LineStream.readLine (Stream.webSocket ws) = .ok line st') ↔
      (WebSocket.nextLine ws.incomingEnd ws.incoming).1 = .ok line := by
    change (∃ st', Stream.lift RawConn.readLine WebSocket.readLine (.webSocket ws) = _) ↔ _
    rw [Stream.lift,WebSocket.readLine]
    cases WebSocket.nextLine ws.incomingEnd ws.incoming with
    | mk result rest => cases result <;> simp
  have hhonours : Honours (.webSocket ws) ↔ ∀ line,
      (WebSocket.nextLine ws.incomingEnd ws.incoming).1 = .ok line →
        byteLen line ≤ maxLineLength ∧ '\n' ∉ line := by
    constructor
    · intro h line hline
      obtain ⟨st',hread⟩ := (hlift line).mpr hline
      obtain ⟨hlen,hnewline,-⟩ := h line st' hread
      exact ⟨hlen,hnewline⟩
    · intro h line st' hread
      obtain ⟨hlen,hnewline⟩ := h line ((hlift line).mp ⟨st',hread⟩)
      exact ⟨hlen,hnewline,by simp⟩
  rw [hhonours,WebSocket.nextLine_fst]
  cases WebSocket.firstFrame ws.incoming with
  | none => simp
  | some m =>
    simp only [Option.mem_some_iff,forall_eq',orderly_iff]
    cases WebSocket.lineOf m <;> simp

/-- The first frame of a WebSocket is a line with at most its line end; a raw connection does not
close in the middle of one. -/
def Stream.Orderly : Stream → Prop
  | .raw conn => ¬conn.EndsInLine
  | .webSocket ws => ∀ m ∈ WebSocket.firstFrame ws.incoming, m.Orderly

/-- `read_line` returns a complete, bounded line and nothing else exactly on orderly streams. -/
theorem readLine_honours_iff (st : Stream) : Honours st ↔ st.Orderly := by
  cases st with
  | raw conn => exact raw_honours_iff conn
  | webSocket ws => exact webSocket_honours_iff ws

private theorem Honours.of_line {st : Stream} (h : Honours st) (line : Text)
    (hline : (match LineStream.readLine st with
      | .ok line _ => some line
      | .error _ _ => none) = some line) :
    byteLen line ≤ maxLineLength ∧ '\n' ∉ line ∧
      ∀ conn, st = .raw conn → RawConn.newline ∈ conn.input := by
  cases hread : LineStream.readLine st with
  | error e st' => simp [hread] at hline
  | ok line' st' =>
    simp only [hread,Option.some.injEq] at hline
    subst hline
    obtain ⟨hlen,hnewline,hraw⟩ := h _ _ hread
    refine ⟨hlen,hnewline,?_⟩
    intro conn hconn
    obtain ⟨body,rest,hinput,-⟩ := hraw conn hconn
    simp [hinput]

/-- A client that closes in the middle of a command, two lines in one message, and a message of 2000
characters. -/
theorem readLine_dishonours :
    let raw : RawConn := ⟨utf8 "GETTIME 1",none,[],[],none⟩
    let ws (m : Message) : WebSocket := ⟨[m],.protocol [],[],[],none⟩
    ¬Honours (.raw raw) ∧ ¬Honours (.webSocket (ws (.text "PUT\nQUIT\n"))) ∧
      ¬Honours (.webSocket (ws (.binary (List.replicate 2000 65)))) := by
  intro raw ws
  refine ⟨?_,?_,?_⟩
  · intro h
    have hline := h.of_line "GETTIME 1" (by decide +kernel)
    exact absurd (hline.2.2 raw rfl) (by decide +kernel)
  · intro h
    have hline := h.of_line "PUT\nQUIT" (by decide +kernel)
    exact absurd hline.2.1 (by decide +kernel)
  · intro h
    have hline := h.of_line (List.replicate 2000 'A') (by decide +kernel)
    exact absurd hline.1 (by decide +kernel)

end Rmbtd
