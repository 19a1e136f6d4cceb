import Rmbtd.Library.Reader
import Rmbtd.Stream.LineContract

/-!
# Segmented input

A transport as the network serves it: every read returns at most one segment. The raw stream of
`stream/mod.rs` is a buffered reader over it. Its operations do with the segments what `RawConn`
does with their bytes, so lines and blocks come out as the client sent them.
-/

namespace Rmbtd

open Effect

/-! ## Raw connections -/

inductive ReceivedItem
  | line (t : Text)
  | block (b : Bytes)
deriving DecidableEq

def ReceivedItem.ofItem : Item → ReceivedItem
  | .line l => .line (stripCr l.val)
  | .chunk b => .block b

section
variable {σ : Type} [LineStream σ]

/-- `read_line` for a line, `read_exact` of its length for a block. -/
def receiveItem : Item → EStateM IoError σ ReceivedItem
  | .line _ => do
    return .line (← LineStream.readLine)
  | .chunk b => do
    return .block (← LineStream.readExact b.length)

def receiveItems : List Item → EStateM IoError σ (List ReceivedItem)
  | [] => pure []
  | item::items => do
    let got ← receiveItem item
    return got::(← receiveItems items)

end

namespace RawConn

def finishLine {σ : Type} (buf : Bytes) : EStateM IoError σ Text :=
  if buf.length = 0 then throw ⟨.unexpectedEof,"connection closed"⟩
  else if maxLineLength < buf.length then throw ⟨.invalidData,"line too long"⟩
  else match fromUtf8 (popLast carriageReturn (popLast newline buf)) with
    | some text => pure text
    | none => throw ⟨.invalidData,"invalid UTF-8 in line"⟩

theorem readUntil_eq (limit : Nat) (bs : Bytes) :
    readUntil limit bs = (upTo newline limit bs,bs.drop (upTo newline limit bs).length) := by
  induction limit generalizing bs with
  | zero => rfl
  | succ limit ih =>
    cases bs with
    | nil => rfl
    | cons b bs =>
      rw [readUntil,upTo]
      split
      · rfl
      · rw [ih]
        rfl

theorem readLine_eq_finishLine {conn : RawConn} {buf rest : Bytes}
    (hread : readUntil (maxLineLength + 1) conn.input = (buf,rest))
    (hfault : lineFault conn buf = none) :
    readLine conn = finishLine buf { conn with input := rest } := by
  unfold readLine finishLine
  simp only [hread,hfault,← List.length_eq_zero_iff]
  split
  · rfl
  split
  · rfl
  split
  · next h => rw [h]; rfl
  · next h => rw [h]; rfl

theorem readLine_tooLong {conn : RawConn} (hlen : maxLineLength < conn.input.length)
    (hopen : newline ∉ conn.input.take maxLineLength) :
    readLine conn = .error ⟨.invalidData,"line too long"⟩
      { conn with input := conn.input.drop (maxLineLength + 1) } := by
  have hread : readUntil (maxLineLength + 1) conn.input =
      (conn.input.take (maxLineLength + 1),conn.input.drop (maxLineLength + 1)) := by
    rcases readUntil_cases (maxLineLength + 1) conn.input with
      ⟨body,rest,hbody,hinput,hlimit,hread⟩ | ⟨-,hread⟩
    · have hlength : body.length = maxLineLength := by
        by_contra hne
        apply hopen
        obtain ⟨k,hk⟩ := Nat.exists_eq_add_of_lt (show body.length < maxLineLength by omega)
        simp [hinput,hk,List.take_append,Nat.add_assoc]
      rw [hread,hinput,← hlength,List.take_append,List.drop_append]
      simp
    · exact hread
  have hlength : (conn.input.take (maxLineLength + 1)).length = maxLineLength + 1 := by
    rw [List.length_take]
    omega
  rw [readLine_eq_finishLine hread (if_pos (Or.inl hlength)),finishLine,hlength]
  rfl

theorem readExact_of_le {n : Nat} {conn : RawConn} (h : n ≤ conn.input.length) :
    readExact n conn = .ok (conn.input.take n) { conn with input := conn.input.drop n } :=
  if_pos h

theorem readExact_of_lt {n : Nat} {conn : RawConn} (h : conn.input.length < n) :
    readExact n conn = .error (conn.inputEnd.getD ⟨.unexpectedEof,"failed to fill whole buffer"⟩)
      { conn with input := conn.input.drop n } := by
  unfold readExact
  rw [if_neg (Nat.not_le.mpr h)]
  cases conn.inputEnd with
  | some e => rfl
  | none => rfl

/-- An item is taken from the front of the input, and nothing more. -/
theorem receiveItem_encode {conn : RawConn} (item : Item) {rest : Bytes}
    (hinput : conn.input = encode [item] ++ rest) :
    receiveItem item conn = .ok (.ofItem item) { conn with input := rest } := by
  cases item with
  | line l =>
    have hline : conn.input = utf8 l.val ++ newline::rest := by
      simpa [encode] using hinput
    exact bind_ok (readLine_line l hline)
  | chunk b =>
    have hblock : conn.input = b ++ rest := by
      simpa [encode] using hinput
    exact bind_ok (readExact_encode hblock)

theorem receiveItems_encode {conn : RawConn} (items : List Item) {rest : Bytes}
    (hinput : conn.input = encode items ++ rest) :
    receiveItems items conn = .ok (items.map .ofItem) { conn with input := rest } := by
  induction items generalizing conn with
  | nil =>
    cases conn
    cases hinput
    rfl
  | cons item items ih =>
    have hitem : conn.input = encode [item] ++ (encode items ++ rest) := by
      cases item <;> simpa [encode] using hinput
    rw [receiveItems,bind_ok (receiveItem_encode item hitem),bind_ok (ih rfl)]
    rfl

end RawConn

/-! ## Transports -/

abbrev Segment := { b : Bytes // b ≠ [] }

structure Outgoing where
  output : Bytes
  faults : List (Option (Nat × IoError))
  peer : Option SocketAddr
deriving DecidableEq

/-- A plain or TLS connection, its input in segments. -/
structure Transport where
  segments : List Segment
  inputEnd : Option IoError
  outgoing : Outgoing

def RawConn.ofPending (p : Pending UInt8 IoError Outgoing) : RawConn where
  input := p.bytes
  inputEnd := p.fault
  output := p.side.output
  faults := p.side.faults
  peer := p.side.peer

namespace Transport

def read (n : Nat) : EStateM IoError Transport Bytes := fun t =>
  match t.segments with
  | [] => match t.inputEnd with
    | some e => .error e t
    | none => .ok [] t
  | b::segments =>
    if h : n < b.val.length then
      .ok (b.val.take n) { t with segments := ⟨b.val.drop n,by simpa using h⟩::segments }
    else .ok b.val { t with segments := segments }

def writeAll (data : Bytes) : EStateM IoError Transport Unit := fun t =>
  match t.outgoing.faults with
  | some (n,e)::faults => .error e { t with outgoing :=
      { t.outgoing with output := t.outgoing.output ++ data.take n, faults := faults } }
  | faults => .ok () { t with outgoing :=
      { t.outgoing with output := t.outgoing.output ++ data, faults := faults.tail } }

def pending (t : Transport) : Pending UInt8 IoError Outgoing where
  bytes := (t.segments.map Subtype.val).flatten
  fault := t.inputEnd
  side := t.outgoing

theorem read_spec (n : Nat) (p : Pending UInt8 IoError Outgoing) (hn : 0 < n) :
    Triple (pending · = p) (read n)
      (fun got t => got <+: p.bytes ∧ got.length ≤ n ∧ (got = [] → p.bytes = [] ∧ p.fault = none) ∧
        pending t = p.drop got.length)
      (fun e t => p.bytes = [] ∧ p.fault = some e ∧ pending t = p) := by
  intro t ht
  subst ht
  obtain ⟨segments,inputEnd,outgoing⟩ := t
  cases segments with
  | nil => cases inputEnd <;> simp [read,pending]
  | cons b segments =>
    obtain ⟨b,hb⟩ := b
    by_cases h : n < b.length
    · have hne : b.take n ≠ [] := by simpa [Nat.ne_of_gt hn] using hb
      simp only [read,dif_pos h]
      refine ⟨?_,List.length_take_le ..,fun hnil => absurd hnil hne,?_⟩
      · simpa [pending] using (List.take_prefix n b).trans (List.prefix_append ..)
      · simp [pending,Pending.drop,Nat.min_eq_left h.le,List.drop_append_of_le_length h.le]
    · simp only [read,dif_neg h]
      refine ⟨by simp [pending],Nat.not_lt.mp h,fun hnil => absurd hnil hb,?_⟩
      simp [pending,Pending.drop]

instance : Reader Transport UInt8 IoError Outgoing where
  read := read
  pending := pending
  read_spec := read_spec

end Transport

/-! ## Refinement -/

section
variable {ρ : Type} [Reader ρ UInt8 IoError Outgoing]

def whole (r : ρ) : RawConn := .ofPending (Reader.pending r)

theorem whole_eq {r : ρ} {p : Pending UInt8 IoError Outgoing} (h : Reader.pending r = p) :
    whole r = .ofPending p := by
  rw [whole,h]

/-- What an operation does with the segments, the other one does with the bytes. -/
abbrev Refines {α : Type} (m : EStateM IoError ρ α) (n : EStateM IoError RawConn α) : Prop :=
  Simulates (fun r conn => whole r = conn) (fun _ => False) Eq m n

/-- `read_exact` where there are too few bytes. -/
def unfilled : IoError := ⟨.unexpectedEof,"failed to fill whole buffer"⟩

theorem refines_readExact {m : EStateM IoError ρ Bytes} {n : Nat}
    (h : ∀ p, Triple (fun r : ρ => Reader.pending r = p) m
      (fun got r => n ≤ p.bytes.length ∧ got = p.bytes.take n ∧ Reader.pending r = p.drop n)
      (fun e r => p.bytes.length < n ∧ e = p.fault.getD unfilled ∧ Reader.pending r = p.drop n)) :
    Refines m (RawConn.readExact n) := by
  rintro r _ rfl
  have h := h (Reader.pending r) r rfl
  cases hm : m r with
  | ok got r' =>
    rw [hm] at h
    obtain ⟨hlen,rfl,hr'⟩ := h
    exact ⟨_,_,RawConn.readExact_of_le hlen,rfl,whole_eq hr'⟩
  | error e r' =>
    rw [hm] at h
    obtain ⟨hlen,rfl,hr'⟩ := h
    exact Or.inr ⟨_,RawConn.readExact_of_lt hlen,whole_eq hr'⟩

end

theorem Transport.refines_writeAll (data : Bytes) :
    Refines (Transport.writeAll data) (RawConn.writeAll data) := by
  rintro ⟨segments,inputEnd,output,faults,peer⟩ _ rfl
  unfold Transport.writeAll RawConn.writeAll
  cases faults with
  | nil => exact ⟨(),_,rfl,rfl,rfl⟩
  | cons fault faults =>
    cases fault with
    | none => exact ⟨(),_,rfl,rfl,rfl⟩
    | some fault => exact Or.inr ⟨_,rfl,rfl⟩

/-! ## The raw stream -/

/-- The raw stream: a buffered reader over the transport. -/
abbrev BufConn := BufReader Transport UInt8

namespace BufConn

def readLine : EStateM IoError BufConn Text := do
  RawConn.finishLine (← BufReader.readUntil RawConn.newline (maxLineLength + 1))

instance : LineStream BufConn where
  readLine := readLine
  readExact := BufReader.readExact unfilled
  writeAll data := BufReader.onInner (Transport.writeAll data)
  peerAddr r := r.inner.outgoing.peer

theorem refines_finishLine (buf : Bytes) : Refines (RawConn.finishLine buf : EStateM IoError BufConn Text)
    (RawConn.finishLine buf) := by
  unfold RawConn.finishLine
  refine .ite (.throw _) (.ite (.throw _) ?_)
  split
  · exact .pure rfl
  · exact .throw _

theorem refines_readLine : Refines readLine RawConn.readLine := by
  rintro r _ rfl
  have h := BufReader.readUntil_spec RawConn.newline (maxLineLength + 1) (Reader.pending r) r rfl
  unfold readLine
  cases hread : BufReader.readUntil RawConn.newline (maxLineLength + 1) r with
  | error e r' =>
    rw [hread] at h
    obtain ⟨hopen,hlen,hfault,hr'⟩ := h
    have hwhole : whole r' = .ofPending ((Reader.pending r).drop (maxLineLength + 1)) := whole_eq (ρ := BufConn) hr'
    rw [bind_error hread]
    refine Or.inr ⟨_,?_,rfl⟩
    have hlast : (Reader.pending r).bytes.getLast? ≠ some RawConn.newline :=
      fun hlast => hopen (List.mem_of_getLast? hlast)
    have hline : RawConn.lineFault (whole r) (Reader.pending r).bytes = some e := by
      rw [RawConn.lineFault,if_neg (by simp [hlast]; omega)]
      exact hfault
    have hall : upTo RawConn.newline (maxLineLength + 1) (whole r).input = (Reader.pending r).bytes :=
      upTo_of_notMem hopen hlen.le
    unfold RawConn.readLine
    simp only [RawConn.readUntil_eq,hall,hline,hwhole]
    have hdrop : (Reader.pending r).bytes.drop (Reader.pending r).bytes.length =
        (Reader.pending r).bytes.drop (maxLineLength + 1) := by
      rw [List.drop_length,List.drop_of_length_le hlen.le]
    exact congrArg (fun rest => EStateM.Result.error e { whole r with input := rest }) hdrop
  | ok buf r' =>
    rw [hread] at h
    obtain ⟨hbuf,hended,hr'⟩ := h
    have hline : RawConn.readUntil (maxLineLength + 1) (whole r).input =
        (buf,(Reader.pending r).bytes.drop buf.length) := by
      rw [RawConn.readUntil_eq]
      exact hbuf ▸ rfl
    have hfault : RawConn.lineFault (whole r) buf = none := by
      unfold RawConn.lineFault
      split
      · rfl
      · next hno => exact (hended.resolve_left fun h => hno (Or.inl h)).resolve_left fun h => hno (Or.inr h)
    rw [bind_ok hread,RawConn.readLine_eq_finishLine hline hfault]
    exact refines_finishLine buf _ _ (whole_eq (ρ := BufConn) hr')

theorem refines_readExact (n : Nat) : Refines (BufReader.readExact unfilled n : EStateM IoError BufConn Bytes)
    (RawConn.readExact n) :=
  Rmbtd.refines_readExact fun p => BufReader.readExact_spec unfilled n p

theorem refines_writeAll (data : Bytes) :
    Refines (BufReader.onInner (Transport.writeAll data) : EStateM IoError BufConn Unit)
      (RawConn.writeAll data) := by
  rintro ⟨capacity,hcapacity,buffer,segments,inputEnd,output,faults,peer⟩ _ rfl
  unfold BufReader.onInner Transport.writeAll RawConn.writeAll
  cases faults with
  | nil => exact ⟨(),_,rfl,rfl,rfl⟩
  | cons fault faults =>
    cases fault with
    | none => exact ⟨(),_,rfl,rfl,rfl⟩
    | some fault => exact Or.inr ⟨_,rfl,rfl⟩

theorem refines_receiveItem (item : Item) : Refines (receiveItem item : EStateM IoError BufConn ReceivedItem)
    (receiveItem item) := by
  cases item with
  | line l =>
    refine refines_readLine.bind fun a b h => .pure ?_
    rw [h]
  | chunk b =>
    refine (refines_readExact b.length).bind fun a b h => .pure ?_
    rw [h]

theorem refines_receiveItems (items : List Item) :
    Refines (receiveItems items : EStateM IoError BufConn (List ReceivedItem)) (receiveItems items) := by
  induction items with
  | nil => exact .pure rfl
  | cons item items ih =>
    refine (refines_receiveItem item).bind fun a b h => ih.bind fun as bs hs => .pure ?_
    rw [h,hs]

/-- However the network cuts the stream, the server gets the lines and blocks the client sent, in
order, and what follows them is still to be read. -/
theorem receiveItems_lossless :
    (∀ (items : List Item) (rest : Bytes) (r : BufConn),
      (whole r).input = RawConn.encode items ++ rest → ∃ r' : BufConn,
        receiveItems items r = .ok (items.map .ofItem) r' ∧ whole r' = { (whole r) with input := rest }) ∧
    ∀ r : BufConn, maxLineLength < (whole r).input.length →
      RawConn.newline ∉ (whole r).input.take maxLineLength → ∃ r' : BufConn,
        LineStream.readLine r = .error ⟨.invalidData,"line too long"⟩ r' ∧
          whole r' = { (whole r) with input := (whole r).input.drop (maxLineLength + 1) } := by
  constructor
  · intro items rest r hinput
    exact (refines_receiveItems items).eq_ok rfl (RawConn.receiveItems_encode items hinput)
  · intro r hlen hopen
    exact refines_readLine.eq_error rfl (RawConn.readLine_tooLong hlen hopen)

/-- The client sends two lines and a block, cut in the middle of a line and of the block. -/
def goldenSegments : Transport where
  segments := [⟨[80,85],by decide⟩,⟨[84,13,10,1],by decide⟩,⟨[2,81,10,7],by decide⟩]
  inputEnd := none
  outgoing := ⟨[],[],none⟩

/-- The client sends one byte more than a line may have. -/
def goldenOpenLine : Transport where
  segments := [⟨List.replicate (maxLineLength + 1) 65,by decide⟩]
  inputEnd := none
  outgoing := ⟨[],[],none⟩

theorem receiveItems_lossless_golden :
    (∃ r' : BufConn, receiveItems [.line ⟨"PUT\r",by decide,by decide⟩,.chunk [1,2],
        .line ⟨"Q",by decide,by decide⟩] (.new goldenSegments) =
          .ok [.line "PUT",.block [1,2],.line "Q"] r' ∧
        whole r' = { whole (.new goldenSegments : BufConn) with input := [7] }) ∧
      ∃ r' : BufConn, LineStream.readLine (BufReader.new goldenOpenLine : BufConn) =
          .error ⟨.invalidData,"line too long"⟩ r' ∧
        whole r' = { whole (.new goldenOpenLine : BufConn) with
          input := (whole (.new goldenOpenLine : BufConn)).input.drop (maxLineLength + 1) } :=
  ⟨receiveItems_lossless.1 _ [7] _ (by decide),receiveItems_lossless.2 _ (by decide +kernel) (by decide +kernel)⟩

end BufConn

end Rmbtd
