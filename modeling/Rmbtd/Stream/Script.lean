import Rmbtd.Stream.Messages

/-!
# Client scripts

A client that sends one line or one chunk at a time, as the protocol handlers ask for them. Such a
client can use either transport: a raw connection carries its script as bytes, a WebSocket as
messages.
-/

namespace Rmbtd

/-- A line as a client may send it, without its line end. -/
abbrev Line := { t : Text // '\n' ∉ t ∧ byteLen t < maxLineLength }

/-- What a client sends in one go. -/
inductive Item
  | line (l : Line)
  | chunk (b : Bytes)

/-- A client, and the bytes sent to it. -/
structure Script where
  items : List Item
  output : Bytes
  peer : Option SocketAddr

namespace Script

def misplaced : IoError := ⟨.other,"misplaced"⟩

instance : LineStream Script where
  readLine s := match s.items with
    | .line l::items => .ok l.val { s with items := items }
    | _ => .error misplaced s
  readExact n s := match s.items with
    | .chunk b::items => if b.length = n then .ok b { s with items := items } else .error misplaced s
    | _ => .error misplaced s
  writeAll data s := .ok () { s with output := s.output ++ data }
  peerAddr s := s.peer

end Script

/-- A line without one carriage return at its end. -/
def stripCr (t : Text) : Text := if t.getLast? = some '\r' then t.dropLast else t

theorem sameLine_stripCr (t : Text) : SameLine t (stripCr t) := by
  unfold stripCr
  split
  · next hlast =>
    refine ⟨t.dropLast,['\r'],[],?_,by simp,by simp,by simp⟩
    exact (List.dropLast_append_getLast? _ hlast).symm
  · exact .refl t

/-! ## On a raw connection -/

namespace RawConn

def encode : List Item → Bytes
  | [] => []
  | .line l::items => utf8 l.val ++ newline::encode items
  | .chunk b::items => b ++ encode items

theorem readUntil_newline {line : Bytes} (hline : newline ∉ line) {limit : Nat}
    (hlimit : line.length < limit) (rest : Bytes) :
    readUntil limit (line ++ newline::rest) = (line ++ [newline],rest) := by
  induction line generalizing limit with
  | nil =>
    cases limit with
    | zero => simp at hlimit
    | succ limit => rfl
  | cons b line ih =>
    simp only [List.mem_cons,not_or] at hline
    cases limit with
    | zero => simp at hlimit
    | succ limit =>
      have hb : readUntil (limit+1) (b::(line ++ newline::rest)) =
          (b::(readUntil limit (line ++ newline::rest)).1,(readUntil limit (line ++ newline::rest)).2) :=
        if_neg (Ne.symm hline.1)
      rw [List.cons_append,hb,ih hline.2 (by simpa using hlimit)]
      rfl

private theorem fromUtf8_popLast (l : Text) :
    fromUtf8 (popLast carriageReturn (popLast newline (utf8 l ++ [newline]))) = some (stripCr l) := by
  have hpop : popLast newline (utf8 l ++ [newline]) = utf8 l := by
    rw [popLast,if_pos List.getLast?_concat,List.dropLast_concat]
  rw [hpop]
  by_cases hcr : (utf8 l).getLast? = some carriageReturn
  · obtain ⟨l',rfl,hutf8⟩ := utf8_getLast?_ascii hcr (by decide)
    have hstrip : stripCr (l' ++ ['\r']) = l' := by
      rw [stripCr,if_pos List.getLast?_concat,List.dropLast_concat]
    rw [popLast,if_pos hcr,hutf8,List.dropLast_concat,fromUtf8_utf8]
    exact congrArg some hstrip.symm
  · have hlast : l.getLast? ≠ some '\r' := by
      intro hlast
      apply hcr
      rw [← List.dropLast_append_getLast? _ hlast,utf8_append]
      exact List.getLast?_concat
    rw [popLast,if_neg hcr,fromUtf8_utf8,stripCr,if_neg hlast]

theorem readLine_line {conn : RawConn} (l : Line) {rest : Bytes}
    (hinput : conn.input = utf8 l.val ++ newline::rest) :
    readLine conn = .ok (stripCr l.val) { conn with input := rest } := by
  obtain ⟨l,hnewline,hlen⟩ := l
  have hno : newline ∉ utf8 l := fun h => hnewline (mem_of_mem_utf8_ascii h (by decide))
  have hlen : (utf8 l).length < maxLineLength := hlen
  have hread : readUntil (maxLineLength + 1) conn.input = (utf8 l ++ [newline],rest) := by
    rw [hinput]
    exact readUntil_newline hno (by omega) rest
  have hfault : lineFault conn (utf8 l ++ [newline]) = none :=
    if_pos (Or.inr List.getLast?_concat)
  have hne : utf8 l ++ [newline] ≠ [] := by simp
  have hshort : ¬maxLineLength < (utf8 l ++ [newline]).length := by
    rw [List.length_append,List.length_singleton]
    omega
  unfold readLine
  simp only [hread,hfault,if_neg hne,if_neg hshort,fromUtf8_popLast l]

theorem readLine_encode {conn : RawConn} (l : Line) {rest : Bytes}
    (hinput : conn.input = utf8 l.val ++ newline::rest) :
    ∃ l', readLine conn = .ok l' { conn with input := rest } ∧ SameLine l.val l' :=
  ⟨_,readLine_line l hinput,sameLine_stripCr l.val⟩

theorem readExact_encode {conn : RawConn} {b rest : Bytes} (hinput : conn.input = b ++ rest) :
    readExact b.length conn = .ok b { conn with input := rest } := by
  have hlen : b.length ≤ conn.input.length := by
    rw [hinput,List.length_append]
    omega
  unfold readExact
  simp only [if_pos hlen]
  rw [hinput,List.take_left,List.drop_left]

theorem writeAll_faultless {conn : RawConn} (h : conn.faults = []) (data : Bytes) :
    writeAll data conn = .ok () { conn with output := conn.output ++ data } := by
  unfold writeAll
  rw [h]
  cases conn
  cases h
  rfl

end RawConn

/-! ## On a WebSocket -/

namespace WebSocket

def IsControl (m : Message) : Prop := m = .ping ∨ m = .pong ∨ m = .frame

/-- The line as one message of either kind, with or without its line end. -/
def CarriesLine (l : Text) (m : Message) : Prop :=
  ∃ t, (t = l ∨ t = l ++ ['\n']) ∧ (m = .text t ∨ m = .binary (utf8 t))

/-- A part of a chunk, or a control frame. -/
def IsPart (m : Message) : Prop := IsControl m ∨ ∃ b, b ≠ [] ∧ m = .binary b

/-- The messages of a script, with control frames anywhere. -/
inductive Carries : List Item → List Message → Prop
  | nil : Carries [] []
  | control {m : Message} {items : List Item} {messages : List Message} (control : IsControl m)
      (rest : Carries items messages) : Carries items (m::messages)
  | line {l : Line} {m : Message} {items : List Item} {messages : List Message}
      (carries : CarriesLine l.val m) (rest : Carries items messages) :
      Carries (.line l::items) (m::messages)
  | chunk {parts : List Message} {items : List Item} {messages : List Message}
      (isPart : ∀ m ∈ parts, IsPart m) (rest : Carries items messages) :
      Carries (.chunk (data parts)::items) (parts ++ messages)

private theorem rdropWhile_newline {t : Text} (h : '\n' ∉ t) : t.rdropWhile (· = '\n') = t := by
  rw [List.rdropWhile_eq_self_iff]
  intro hne hlast
  have heq : t.getLast hne = '\n' := by simpa using hlast
  exact h (heq ▸ List.getLast_mem hne)

private theorem sameLine_rdropWhile (t : Text) : SameLine t (t.rdropWhile (· = '\r')) := by
  refine ⟨t.rdropWhile (· = '\r'),t.rtakeWhile (· = '\r'),[],
    (List.rdropWhile_append_rtakeWhile ..).symm,by simp,?_,by simp⟩
  intro c hc
  simpa using List.mem_rtakeWhile_imp hc

theorem lineOf_carries {l : Text} {m : Message} (hl : '\n' ∉ l) (h : CarriesLine l m) :
    ∃ l', lineOf m = some l' ∧ SameLine l l' := by
  obtain ⟨t,ht,rfl | rfl⟩ := h
  · refine ⟨l.rdropWhile (· = '\r'),?_,sameLine_rdropWhile l⟩
    have hdrop : t.rdropWhile (· = '\n') = l := by
      rcases ht with rfl | rfl
      · exact rdropWhile_newline hl
      · rw [List.rdropWhile_concat_pos _ _ _ (by simp),rdropWhile_newline hl]
    simp only [lineOf,hdrop]
  · have hdrop : (if t.getLast? = some '\n' then t.dropLast else t) = l := by
      rcases ht with rfl | rfl
      · rw [if_neg]
        exact fun hlast => hl (List.mem_of_getLast? hlast)
      · rw [if_pos List.getLast?_concat,List.dropLast_concat]
    refine ⟨stripCr l,?_,sameLine_stripCr l⟩
    simp only [lineOf,fromUtf8Lossy_utf8,hdrop]
    rfl

private theorem IsControl.lineOf {m : Message} (h : IsControl m) : lineOf m = none := by
  rcases h with rfl | rfl | rfl <;> rfl

private theorem IsControl.payload {m : Message} (h : IsControl m) : payload m = none := by
  rcases h with rfl | rfl | rfl <;> rfl

private theorem IsControl.ne_close {m : Message} (h : IsControl m) : m ≠ .close := by
  rcases h with rfl | rfl | rfl <;> nofun

private theorem IsPart.ne_close {m : Message} (h : IsPart m) : m ≠ .close := by
  rcases h with h | ⟨b,-,rfl⟩
  · exact h.ne_close
  · nofun

private theorem nextLine_of_ne_close (end_ : WsError) {m : Message} (messages : List Message)
    (h : m ≠ .close) : nextLine end_ (m::messages) = match lineOf m with
      | some line => (.ok line,messages)
      | none => nextLine end_ messages := by
  cases m <;> first | rfl | exact absurd rfl h

private theorem nextLine_carries (end_ : WsError) {l : Line} {items : List Item}
    {messages : List Message} (h : Carries (.line l::items) messages) :
    ∃ l' rest, nextLine end_ messages = (.ok l',rest) ∧ SameLine l.val l' ∧ Carries items rest := by
  generalize hall : Item.line l::items = all at h
  induction h with
  | nil => cases hall
  | @control m _ messages control rest ih =>
    obtain ⟨l',rest',hnext,hsame⟩ := ih hall
    refine ⟨l',rest',?_,hsame⟩
    rw [nextLine_of_ne_close _ _ control.ne_close,control.lineOf]
    exact hnext
  | @line l' m _ messages carries rest _ =>
    cases hall
    obtain ⟨l'',hline,hsame⟩ := lineOf_carries l.property.1 carries
    have hclose : m ≠ .close := by
      rintro rfl
      cases hline
    refine ⟨l'',messages,?_,hsame,rest⟩
    rw [nextLine_of_ne_close _ _ hclose,hline]
  | chunk _ _ _ => cases hall

/-- A WebSocket reads the line of a script. -/
theorem readLine_carries {ws : WebSocket} {l : Line} {items : List Item}
    (h : Carries (.line l::items) ws.incoming) :
    ∃ l' rest, readLine ws = .ok l' { ws with incoming := rest } ∧ SameLine l.val l' ∧
      Carries items rest := by
  obtain ⟨l',rest,hnext,hsame,hrest⟩ := nextLine_carries ws.incomingEnd h
  refine ⟨l',rest,?_,hsame,hrest⟩
  unfold readLine
  rw [hnext]

private theorem Carries.controls {items : List Item} {left messages : List Message}
    (h : Carries items messages) (hpart : ∀ m ∈ left, IsPart m) (hleft : data left = []) :
    Carries items (left ++ messages) := by
  induction left with
  | nil => exact h
  | cons m left ih =>
    rw [data_cons,List.append_eq_nil_iff] at hleft
    refine .control ?_ (ih (fun m' hm' => hpart m' (List.mem_cons_of_mem _ hm')) hleft.2)
    rcases hpart m List.mem_cons_self with hm | ⟨b,hb,rfl⟩
    · exact hm
    · exact absurd hleft.1 hb

private theorem fill_carries (end_ : WsError) {b : Bytes} {items : List Item}
    {messages : List Message} (hb : b ≠ []) (h : Carries (.chunk b::items) messages) :
    ∃ rest, fill end_ b.length messages = (.ok b,rest) ∧ Carries items rest := by
  generalize hall : Item.chunk b::items = all at h
  induction h with
  | nil => cases hall
  | @control m _ messages control rest ih =>
    obtain ⟨rest',hfill,hrest⟩ := ih hall
    refine ⟨rest',?_,hrest⟩
    obtain ⟨n,hn⟩ := Nat.exists_eq_add_one.mpr (List.length_pos_iff.mpr hb)
    rw [hn] at hfill ⊢
    rw [fill_control end_ n _ control.payload control.ne_close]
    exact hfill
  | line _ _ _ => cases hall
  | @chunk parts _ messages isPart rest _ =>
    cases hall
    obtain ⟨left,hsuffix,hleft,hfill⟩ := fill_exact end_ messages
      fun hmem => (isPart _ hmem).ne_close rfl
    exact ⟨left ++ messages,hfill,rest.controls (fun m hm => isPart m (hsuffix.subset hm)) hleft⟩

theorem readExact_carries {ws : WebSocket} {b : Bytes} {items : List Item} (hb : b ≠ [])
    (h : Carries (.chunk b::items) ws.incoming) :
    ∃ rest, readExact b.length ws = .ok b { ws with incoming := rest } ∧ Carries items rest := by
  obtain ⟨rest,hfill,hrest⟩ := fill_carries ws.incomingEnd hb h
  refine ⟨rest,?_,hrest⟩
  unfold readExact
  rw [hfill]

theorem writeAll_faultless {ws : WebSocket} (h : ws.faults = []) (bytes : Bytes) :
    writeAll bytes ws = .ok () { ws with sent := ws.sent ++ [framed bytes] } := by
  unfold writeAll
  rw [h]
  cases ws
  cases h
  rfl

theorem payload_framed_utf8 (line : Text) : payload (framed (utf8 line)) = some (utf8 line) := by
  unfold framed
  split
  · rfl
  · rw [fromUtf8Lossy_utf8]
    rfl

theorem framed_chunk {bytes : Bytes} (h : minChunkSize ≤ bytes.length) :
    framed bytes = .binary bytes := by
  unfold framed
  rw [if_pos]
  right
  unfold defaultChunkSize
  unfold minChunkSize at h
  omega

end WebSocket

end Rmbtd
