import Rmbtd.Library.Transcript
import Rmbtd.Protocol.ChunkSize
import Rmbtd.Protocol.Upload

/-!
# Conversations

The grammar of the command phase. A conversation is a list of turns, each of one command line and
its answer; an answer is given with the chunks it carries, the readings of the clock it is timed
with and what is booked for it. The command loop performs conversations.
-/

namespace Rmbtd

open Effect Session

/-! ## Operations -/

/-- What is booked in the statistics of a connection. -/
inductive Entry
  | command
  | download (bytes ns : Nat)
  | upload (bytes ns : Nat)
  | ping (ns : Nat)
deriving DecidableEq

def Entry.apply (s : ConnStats) : Entry → ConnStats
  | command => s.countCommand
  | download bytes ns => s.addDownload (UInt64.ofNat bytes) ns
  | upload bytes ns => s.addUpload (UInt64.ofNat bytes) ns
  | ping ns => s.addPing ns

/-- The operations of a session a client can notice, the readings of the clock and the entries. -/
inductive Op
  | read (line : Text)
  | readChunk (bytes : Bytes)
  | write (line : Text)
  | writeChunk (bytes : Bytes)
  | clock (ns : Nat)
  | account (entry : Entry)
deriving DecidableEq

namespace Op

def isIo : Op → Bool
  | clock _ => false
  | account _ => false
  | _ => true

def io (ops : List Op) : List Op := ops.filter isIo

def clocks (ops : List Op) : List Nat := ops.filterMap fun
  | clock ns => some ns
  | _ => none

def entries (ops : List Op) : List Entry := ops.filterMap fun
  | account e => some e
  | _ => none

/-- What a trace shows of an operation that fails: a write is recorded when it is attempted. -/
def attempt : Op → List Op
  | write line => [write line]
  | writeChunk bytes => [writeChunk bytes]
  | _ => []

end Op

/-! ## Answers -/

def field (line : Text) (i : Nat) : Text := (splitn 3 " " (trim line)).getD i []

/-- The five commands that are counted. -/
def IsTest (line : Text) : Prop :=
  field line 0 ∈ (["GETTIME","GETCHUNKS","PUT","PUTNORESULT","PING"] : List Text)

instance (line : Text) : Decidable (IsTest line) := inferInstanceAs (Decidable (_ ∈ _))

/-- The chunk size after a command line: an argument that is a valid size replaces it. -/
def sizeAfter (line : Text) (n : Nat) : Nat :=
  if field line 0 ∈ (["GETTIME","GETCHUNKS"] : List Text) then
    (parseChunkSize (trim (field line 2)) maxChunkSize).getD n
  else if field line 0 ∈ (["PUT","PUTNORESULT"] : List Text) then
    (parseChunkSize (trim (field line 1)) maxChunkSize).getD n
  else n

/-- The line after a download or a `PONG` and the reply to it. -/
inductive Reply
  | time (line : Text) (ok : trim line = "OK") (now : Nat)
  | error (line : Text) (other : trim line ≠ "OK")

def Reply.ops (start : Nat) (book : Nat → List Op) : Reply → List Op
  | time line _ now =>
    [.read line,.clock now] ++ book (now - start) ++ [.write (timeLine (now - start))]
  | error line _ => [.read line,.write "ERR\n"]

/-- The chunks of a download: each of the size `s`, the last ends in `0xFF`, all others in `0`. -/
inductive Download (s : Nat) : List Bytes → Prop
  | last {c : Bytes} (length : c.length = s) (mark : c.getLast? = some 0xFF) : Download s [c]
  | cons {c : Bytes} {chunks : List Bytes} (length : c.length = s) (mark : c.getLast? = some 0x00)
      (rest : Download s chunks) : Download s (c::chunks)

/-- A chunk that is sent, after the reading of the clock that decides whether it is the last. -/
structure SentChunk where
  sample : Option Nat
  bytes : Bytes

def SentChunk.ops (c : SentChunk) : List Op := c.sample.toList.map .clock ++ [.writeChunk c.bytes]

/-- The last chunk, and no other, is sampled at the limit or after it. -/
def Sampled (start limit : Nat) (chunks : List SentChunk) : Prop :=
  ∃ early last t, chunks = early ++ [last] ∧
    (∀ c ∈ early, ∃ t, c.sample = some t ∧ t - start < limit) ∧
    last.sample = some t ∧ limit ≤ t - start

/-- A download that begins at the reading `start`, of chunks of the size `n`. -/
structure Sending (n : Nat) where
  start : Nat
  chunks : List SentChunk
  finish : Nat
  reply : Reply
  full : Download n (chunks.map SentChunk.bytes)

namespace Sending
variable {n : Nat} (s : Sending n)

def size : Nat := (s.chunks.map SentChunk.bytes).flatten.length

def duration : Nat := s.finish - s.start

def ops : List Op :=
  .clock s.start::s.chunks.flatMap SentChunk.ops ++
    [.clock s.finish,.account (.download s.size s.duration)] ++ s.reply.ops s.start fun _ => []

/-- The given number of chunks, without a look at the clock. -/
def Counted (count : Nat) : Prop := s.chunks.length = count ∧ ∀ c ∈ s.chunks, c.sample = none

end Sending

/-- A chunk that is received, and the report of the upload so far that may follow. -/
structure ReceivedChunk where
  bytes : Bytes
  sample : Option Nat
  report : Option (Nat × UInt64)

def ReceivedChunk.ops (c : ReceivedChunk) : List Op :=
  .readChunk c.bytes::c.sample.toList.map .clock ++
    c.report.toList.map fun r => .write (reportLine r.1 r.2)

/-- An upload that begins at the reading `start`, of chunks of the size `n`. -/
structure Receiving (n : Nat) where
  start : Nat
  chunks : List ReceivedChunk
  finish : Nat
  full : Upload n (chunks.map ReceivedChunk.bytes)

namespace Receiving
variable {n : Nat} (r : Receiving n)

def size : Nat := (r.chunks.map ReceivedChunk.bytes).flatten.length

def duration : Nat := r.finish - r.start

def ops : List Op :=
  [.write "OK\n",.clock r.start] ++ r.chunks.flatMap ReceivedChunk.ops ++
    [.clock r.finish,.account (.upload r.size r.duration),.write (timeLine r.duration)]

/-- Nothing is reported before the end. -/
def Silent : Prop := ∀ c ∈ r.chunks, c.sample = none ∧ c.report = none

end Receiving

/-- What the server answers to a command line, with chunks of the size `n`. -/
inductive Answer (n : Nat)
  | refused
  | sending (s : Sending n)
  | receiving (r : Receiving n)
  | pong (start : Nat) (reply : Reply)
  | bye

def Answer.ops {n : Nat} : Answer n → List Op
  | refused => [.write "ERR\n"]
  | sending s => s.ops
  | receiving r => r.ops
  | pong start reply =>
    [.clock start,.write "PONG\n"] ++ reply.ops start fun ns => [.account (.ping ns)]
  | bye => [.write "BYE\n"]

/-- The answers a command line may get. -/
inductive Fits (line : Text) {n : Nat} : Answer n → Prop
  | refused (ping : field line 0 ≠ "PING") (quit : field line 0 ≠ "QUIT") : Fits line .refused
  | gettime {s : Sending n} {seconds : Nat} (cmd : field line 0 = "GETTIME")
      (arg : parseBounded (trim (field line 1)) maxSeconds = some seconds)
      (sampled : Sampled s.start (seconds * 1000000000) s.chunks) : Fits line (.sending s)
  | getchunks {s : Sending n} {count : Nat} (cmd : field line 0 = "GETCHUNKS")
      (arg : parseBounded (trim (field line 1)) maxChunks = some count)
      (counted : s.Counted count) : Fits line (.sending s)
  | put {r : Receiving n} (cmd : field line 0 = "PUT") : Fits line (.receiving r)
  | putnoresult {r : Receiving n} (cmd : field line 0 = "PUTNORESULT") (silent : r.Silent) :
      Fits line (.receiving r)
  | ping {start : Nat} {reply : Reply} (cmd : field line 0 = "PING") :
      Fits line (.pong start reply)
  | quit (cmd : field line 0 = "QUIT") : Fits line .bye

/-- A command line and its answer, in a session with the chunk size `size`. -/
structure Turn where
  size : Nat
  line : Text
  answer : Answer (sizeAfter line size)
  fits : Fits line answer

def Turn.ops (t : Turn) : List Op :=
  [.write acceptLine,.read t.line] ++ (if IsTest t.line then [.account .command] else []) ++
    t.answer.ops

/-- The turns of a session from the chunk size `n` on: the last one, and no other, says `BYE`. -/
inductive Conversation : Nat → List Turn → Prop
  | quit {n : Nat} {t : Turn} (size : t.size = n) (bye : t.answer = .bye) : Conversation n [t]
  | turn {n : Nat} {t : Turn} {turns : List Turn} (size : t.size = n) (more : t.answer ≠ .bye)
      (rest : Conversation (sizeAfter t.line n) turns) : Conversation n (t::turns)

/-! ## Recording -/

def transcript (tr : List Event) : List Op := tr.filterMap fun
  | .received line => some (.read line)
  | .receivedChunk bytes => some (.readChunk bytes)
  | .sentLine line => some (.write line)
  | .sentChunk bytes => some (.writeChunk bytes)
  | _ => none

/-- A clock that first gives the readings of a list. -/
def prepend : List Nat → (Nat → Nat) → Nat → Nat
  | [], clock, i => clock i
  | t::_, _, 0 => t
  | _::ts, clock, i+1 => prepend ts clock i

theorem prepend_append (ts us : List Nat) (clock : Nat → Nat) :
    prepend (ts ++ us) clock = prepend ts (prepend us clock) := by
  induction ts with
  | nil => rfl
  | cons t ts ih =>
    funext i
    cases i with
    | zero => rfl
    | succ i => exact congrFun ih i

/-- From `w` to `w'` exactly these operations were performed. -/
structure Did (w : World Stream) (ops : List Op) (w' : World Stream) : Prop where
  transcript : transcript w'.trace = transcript w.trace ++ Op.io ops
  instants : w.instants = prepend (Op.clocks ops) w'.instants
  stats : w'.stats = (Op.entries ops).foldl Entry.apply w.stats

/-- In `w` the run stopped with `e` at an operation on the stream, which left `w'`. -/
structure Broke (e : Stop) (w : World Stream) (op : Op) (w' : World Stream) : Prop where
  onStream : e ≠ .outOfFuel → op.isIo = true
  cause : (∃ ioError, e = .io ioError) ∨ e = .outOfFuel
  transcript : transcript w'.trace =
    Rmbtd.transcript w.trace ++ if e = .outOfFuel then [] else op.attempt
  instants : w'.instants = w.instants
  stats : w'.stats = w.stats

def recorder : Recorder Stop (World Stream) Nat Op where
  context w := w.chunkSize
  Done := Did
  Broken := Broke
  context_surjective n :=
    ⟨{ World.start (.raw ⟨[],none,[],[],none⟩) id (fun _ => 0) with chunkSize := n },rfl⟩
  done_nil w := ⟨by simp [Op.io],rfl,rfl⟩
  done_append h h' := by
    refine ⟨?_,?_,?_⟩
    · rw [h'.transcript,h.transcript,Op.io,Op.io,Op.io,List.filter_append,List.append_assoc]
    · rw [h.instants,h'.instants,← prepend_append,Op.clocks,Op.clocks,Op.clocks,
        List.filterMap_append]
    · rw [h'.stats,h.stats,Op.entries,Op.entries,Op.entries,List.filterMap_append,
        List.foldl_append]

/-! ## Single operations -/

section
variable {n : Nat} {α : Type} {K : α → List Op → Nat → Prop}

private theorem write_bind {line : Text} {f : Unit → Session Stream α}
    (hf : Performs recorder n (f ()) fun a ops => K a (.write line::ops)) :
    Performs recorder n (writeLine line >>= f) K := by
  intro w hw
  have hemit : transcript (w.trace ++ [.sentLine line]) = transcript w.trace ++ [.write line] := by
    simp [transcript]
  cases h : LineStream.writeAll (utf8 line) w.stream with
  | ok a s =>
    rw [bind_ok (writeLine_ok h)]
    have hdid : Did w [.write line]
        { w with stream := s, trace := w.trace ++ [.sentLine line] } := ⟨hemit,rfl,rfl⟩
    exact Performed.after (R := recorder) hdid (hf _ hw)
  | error e s =>
    have hfail : writeLine line w =
        .error (.io e) { w with stream := s, trace := w.trace ++ [.sentLine line] } :=
      onStream_error h
    rw [bind_error hfail]
    obtain ⟨a,ops,n',hK⟩ := hf.inhabited
    exact ⟨[],_,ops,a,n',w,hK,recorder.done_nil w,fun _ => rfl,Or.inl ⟨e,rfl⟩,hemit,rfl,rfl⟩

private theorem write_last {line : Text} {K : Unit → List Op → Nat → Prop}
    (h : K () [.write line] n) : Performs recorder n (writeLine line) K := by
  have hlast : Performs recorder n (writeLine line >>= pure) K := write_bind (.pure h)
  rwa [bind_pure] at hlast

private theorem writeChunk_bind {bytes : Bytes} {f : Unit → Session Stream α}
    (hf : Performs recorder n (f ()) fun a ops => K a (.writeChunk bytes::ops)) :
    Performs recorder n (writeChunk bytes >>= f) K := by
  intro w hw
  have hemit : transcript (w.trace ++ [.sentChunk bytes]) =
      transcript w.trace ++ [.writeChunk bytes] := by simp [transcript]
  cases h : LineStream.writeAll bytes w.stream with
  | ok a s =>
    rw [bind_ok (writeChunk_ok h)]
    have hdid : Did w [.writeChunk bytes]
        { w with stream := s, trace := w.trace ++ [.sentChunk bytes] } := ⟨hemit,rfl,rfl⟩
    exact Performed.after (R := recorder) hdid (hf _ hw)
  | error e s =>
    have hfail : writeChunk bytes w =
        .error (.io e) { w with stream := s, trace := w.trace ++ [.sentChunk bytes] } :=
      onStream_error h
    rw [bind_error hfail]
    obtain ⟨a,ops,n',hK⟩ := hf.inhabited
    exact ⟨[],_,ops,a,n',w,hK,recorder.done_nil w,fun _ => rfl,Or.inl ⟨e,rfl⟩,hemit,rfl,rfl⟩

private theorem read_bind {f : Text → Session Stream α}
    (hf : ∀ line, Performs recorder n (f line) fun a ops => K a (.read line::ops)) :
    Performs recorder n (readLine >>= f) K := by
  intro w hw
  cases h : LineStream.readLine w.stream with
  | ok line s =>
    rw [bind_ok (readLine_ok h)]
    have hdid : Did w [.read line] { w with stream := s, trace := w.trace ++ [.received line] } := by
      refine ⟨?_,rfl,rfl⟩
      simp only [transcript,List.filterMap_append]
      rfl
    exact Performed.after (R := recorder) hdid (hf line _ hw)
  | error e s =>
    rw [bind_error (readLine_error h)]
    obtain ⟨a,ops,n',hK⟩ := (hf []).inhabited
    exact ⟨[],_,ops,a,n',w,hK,recorder.done_nil w,fun _ => rfl,Or.inl ⟨e,rfl⟩,(List.append_nil _).symm,rfl,
      rfl⟩

private theorem readExact_bind {size : Nat} {f : Bytes → Session Stream α}
    (hf : ∀ bytes, bytes.length = size →
      Performs recorder n (f bytes) fun a ops => K a (.readChunk bytes::ops)) :
    Performs recorder n (readExact size >>= f) K := by
  intro w hw
  cases h : LineStream.readExact size w.stream with
  | ok bytes s =>
    rw [bind_ok (readExact_ok h)]
    have hdid : Did w [.readChunk bytes]
        { w with stream := s, trace := w.trace ++ [.receivedChunk bytes] } := by
      refine ⟨?_,rfl,rfl⟩
      simp only [transcript,List.filterMap_append]
      rfl
    exact Performed.after (R := recorder) hdid (hf bytes (Stream.readExact_length h) _ hw)
  | error e s =>
    rw [bind_error (readExact_error h)]
    obtain ⟨a,ops,n',hK⟩ := (hf (List.replicate size 0) List.length_replicate).inhabited
    exact ⟨[],_,ops,a,n',w,hK,recorder.done_nil w,fun _ => rfl,Or.inl ⟨e,rfl⟩,(List.append_nil _).symm,rfl,
      rfl⟩

private theorem clock_bind {f : Nat → Session Stream α}
    (hf : ∀ ns, Performs recorder n (f ns) fun a ops => K a (.clock ns::ops)) :
    Performs recorder n (instant >>= f) K := by
  intro w hw
  have hdid : Did w [.clock (w.instants 0)] { w with instants := fun i => w.instants (i+1) } := by
    refine ⟨(List.append_nil _).symm,?_,rfl⟩
    funext i
    cases i <;> rfl
  exact Performed.after (R := recorder) hdid (hf (w.instants 0) _ hw)

private theorem elapsed_bind {start : Nat} {f : Nat → Session Stream α}
    (hf : ∀ ns, Performs recorder n (f (ns - start)) fun a ops => K a (.clock ns::ops)) :
    Performs recorder n (elapsed start >>= f) K :=
  clock_bind hf

private theorem account_bind (e : Entry) {g : ConnStats → ConnStats} (hg : ∀ s, g s = e.apply s)
    {f : Unit → Session Stream α}
    (hf : Performs recorder n (f ()) fun a ops => K a (.account e::ops)) :
    Performs recorder n (updateStats g >>= f) K := by
  intro w hw
  have hdid : Did w [.account e] { w with stats := g w.stats } :=
    ⟨(List.append_nil _).symm,rfl,hg w.stats⟩
  exact Performed.after (R := recorder) hdid (hf _ hw)

private theorem chunkSize_bind {f : Nat → Session Stream α} (hf : Performs recorder n (f n) K) :
    Performs recorder n (chunkSize >>= f) K := by
  intro w hw
  subst hw
  exact hf w rfl

private theorem setChunkSize_bind {size : Nat} {f : Unit → Session Stream α}
    (hf : Performs recorder size (f ()) K) : Performs recorder n (setChunkSize size >>= f) K := by
  intro w _
  have hdid : Did w [] { w with chunkSize := size } := ⟨(List.append_nil _).symm,rfl,rfl⟩
  exact Performed.after (R := recorder) hdid (hf _ rfl)

private theorem stats_bind {f : ConnStats → Session Stream α}
    (hf : ∀ s, Performs recorder n (f s) K) : Performs recorder n (stats >>= f) K :=
  fun w hw => hf w.stats w hw

private theorem emit_bind {e : Event} (he : transcript [e] = []) {f : Unit → Session Stream α}
    (hf : Performs recorder n (f ()) K) : Performs recorder n (emit e >>= f) K := by
  intro w hw
  have hdid : Did w [] { w with trace := w.trace ++ [e] } := by
    refine ⟨?_,rfl,rfl⟩
    have h : transcript (w.trace ++ [e]) = transcript w.trace ++ transcript [e] :=
      List.filterMap_append
    rw [h,he]
    rfl
  exact Performed.after (R := recorder) hdid (hf _ hw)

private theorem emit_last {e : Event} (he : transcript [e] = []) {K : Unit → List Op → Nat → Prop}
    (h : K () [] n) : Performs recorder n (emit e) K := by
  have hlast : Performs recorder n (emit e >>= pure) K := emit_bind he (.pure h)
  rwa [bind_pure] at hlast

end

/-! ## Handlers -/

section
variable {n : Nat}

private theorem acknowledge_performs (start : Nat) :
    Performs recorder n (acknowledge start) fun _ ops n' =>
      (∃ reply : Reply, ops = reply.ops start fun _ => []) ∧ n' = n := by
  apply read_bind
  intro line
  by_cases hok : trim line = "OK"
  · rw [if_neg (not_not_intro hok)]
    apply elapsed_bind
    intro now
    exact write_last ⟨⟨.time line hok now,rfl⟩,rfl⟩
  · rw [if_pos hok]
    exact write_last ⟨⟨.error line hok,rfl⟩,rfl⟩

private theorem withChunkSize_performs {argChunk : Text} {m : Session Stream Unit}
    {K : Unit → List Op → Nat → Prop}
    (hok : Performs recorder ((parseChunkSize argChunk maxChunkSize).getD n) m K)
    (herr : K () [.write "ERR\n"] ((parseChunkSize argChunk maxChunkSize).getD n)) :
    Performs recorder n (withChunkSize argChunk m) K := by
  unfold withChunkSize
  by_cases hnil : argChunk = []
  · subst hnil
    rw [if_pos rfl]
    exact hok
  · rw [if_neg hnil]
    cases hp : parseChunkSize argChunk maxChunkSize with
    | none =>
      rw [hp] at herr
      exact write_last herr
    | some size =>
      rw [hp] at hok
      exact setChunkSize_bind hok

private theorem downloadBuf_bind {α : Type} {K : α → List Op → Nat → Prop} (hn : InRange n)
    (randomChunk : RandomChunk) {f : Bytes → Session Stream α}
    (hf : ∀ buf, buf.length = n → Performs recorder n (f buf) K) :
    Performs recorder n (downloadBuf randomChunk >>= f) K := by
  have hle : n ≤ randomChunk.val.length := by
    rw [randomChunk.property]
    exact hn.2
  unfold downloadBuf
  rw [bind_assoc]
  apply chunkSize_bind
  rw [if_pos hle]
  exact hf _ (List.length_take_of_le hle)

private theorem setLast_bind {α : Type} {K : α → List Op → Nat → Prop} (hn : InRange n)
    {buf : Bytes} (hbuf : buf.length = n) (terminal : Bool) {f : Bytes → Session Stream α}
    (hf : ∀ chunk, chunk.length = n → chunk.getLast? = some (if terminal then 0xFF else 0x00) →
      Performs recorder n (f chunk) K) :
    Performs recorder n (setLast buf terminal >>= f) K := by
  have hpos : 0 < buf.length := by
    rw [hbuf]
    exact lt_of_lt_of_le (by decide) hn.1
  unfold setLast
  rw [if_neg (List.length_pos_iff.mp hpos)]
  apply hf
  · rw [List.length_append,List.length_dropLast,List.length_singleton,Nat.sub_add_cancel hpos,hbuf]
  · exact List.getLast?_concat

private def SentFor (n start limit : Nat) (sent : UInt64) (total : UInt64) (ops : List Op)
    (n' : Nat) : Prop :=
  ∃ chunks : List SentChunk, Download n (chunks.map SentChunk.bytes) ∧
    Sampled start limit chunks ∧ total = sent + UInt64.ofNat (chunks.length * n) ∧
    ops = chunks.flatMap SentChunk.ops ∧ n' = n

private theorem SentFor.last {start limit t : Nat} {sent : UInt64} {chunk : Bytes}
    (hlen : chunk.length = n) (hmark : chunk.getLast? = some 0xFF) (ht : limit ≤ t - start) :
    SentFor n start limit sent (sent + UInt64.ofNat n) [.clock t,.writeChunk chunk] n := by
  refine ⟨[⟨some t,chunk⟩],.last hlen hmark,⟨[],⟨some t,chunk⟩,t,rfl,nofun,rfl,ht⟩,?_,rfl,rfl⟩
  rw [List.length_singleton,Nat.one_mul]

private theorem SentFor.cons {start limit t n' : Nat} {sent total : UInt64} {chunk : Bytes}
    {ops : List Op} (hlen : chunk.length = n) (hmark : chunk.getLast? = some 0x00)
    (ht : t - start < limit) (h : SentFor n start limit (sent + UInt64.ofNat n) total ops n') :
    SentFor n start limit sent total (.clock t::.writeChunk chunk::ops) n' := by
  obtain ⟨chunks,hfull,⟨early,last,t',rfl,hearly,hlast,ht'⟩,rfl,rfl,rfl⟩ := h
  refine ⟨⟨some t,chunk⟩::(early ++ [last]),.cons hlen hmark hfull,
    ⟨⟨some t,chunk⟩::early,last,t',rfl,?_,hlast,ht'⟩,?_,rfl,rfl⟩
  · intro c hc
    rcases List.mem_cons.mp hc with rfl | hc
    · exact ⟨t,rfl,ht⟩
    · exact hearly c hc
  · rw [List.length_cons,Nat.succ_mul,Nat.add_comm _ n',UInt64.ofNat_add,UInt64.add_assoc]

private theorem exists_terminal (hn : InRange n) :
    ∃ chunk : Bytes, chunk.length = n ∧ chunk.getLast? = some 0xFF := by
  refine ⟨List.replicate (n-1) 0 ++ [0xFF],?_,List.getLast?_concat⟩
  have hpos : 0 < n := lt_of_lt_of_le (by decide) hn.1
  rw [List.length_append,List.length_replicate,List.length_singleton]
  omega

private theorem outOfFuel_performs {α : Type} {K : α → List Op → Nat → Prop} {a : α} {op : Op}
    {rest : List Op} {m : Nat} (h : K a (op::rest) m) :
    Performs recorder n (throw .outOfFuel) K :=
  .throw h fun _ => ⟨fun hne => absurd rfl hne,Or.inr rfl,(List.append_nil _).symm,rfl,rfl⟩

private theorem sendFor_performs (hn : InRange n) {buf : Bytes} (hbuf : buf.length = n)
    (start limit fuel : Nat) (sent : UInt64) :
    Performs recorder n (sendFor buf start limit fuel sent) (SentFor n start limit sent) := by
  induction fuel generalizing sent with
  | zero =>
    obtain ⟨chunk,hlen,hmark⟩ := exists_terminal hn
    exact outOfFuel_performs (SentFor.last hlen hmark (t := start + limit) (by omega))
  | succ fuel ih =>
    apply elapsed_bind
    intro t
    apply setLast_bind hn hbuf
    intro chunk hlen hmark
    apply writeChunk_bind
    apply chunkSize_bind
    by_cases ht : limit ≤ t - start
    · rw [if_pos ht]
      exact .pure (SentFor.last hlen (by simpa [ht] using hmark) ht)
    · rw [if_neg ht]
      apply (ih (sent + UInt64.ofNat n)).mono
      intro total ops n' h
      exact h.cons hlen (by simpa [ht] using hmark) (Nat.lt_of_not_le ht)

private def SentCount (n count : Nat) (ops : List Op) (n' : Nat) : Prop :=
  ∃ chunks : List SentChunk, (0 < count → Download n (chunks.map SentChunk.bytes)) ∧
    chunks.length = count ∧ (∀ c ∈ chunks, c.sample = none) ∧
    ops = chunks.flatMap SentChunk.ops ∧ n' = n

private theorem SentCount.cons {left n' : Nat} {chunk : Bytes} {ops : List Op}
    (hlen : chunk.length = n) (hmark : chunk.getLast? = some (if left = 0 then 0xFF else 0x00))
    (h : SentCount n left ops n') : SentCount n (left+1) (.writeChunk chunk::ops) n' := by
  obtain ⟨chunks,hfull,rfl,hsample,rfl,rfl⟩ := h
  refine ⟨⟨none,chunk⟩::chunks,fun _ => ?_,rfl,List.forall_mem_cons.mpr ⟨rfl,hsample⟩,rfl,rfl⟩
  cases chunks with
  | nil => exact .last hlen hmark
  | cons c chunks => exact .cons hlen hmark (hfull (by simp))

private theorem sendChunks_performs (hn : InRange n) {buf : Bytes} (hbuf : buf.length = n)
    (count : Nat) :
    Performs recorder n (sendChunks buf count) fun _ => SentCount n count := by
  induction count with
  | zero => exact .pure ⟨[],nofun,rfl,nofun,rfl,rfl⟩
  | succ left ih =>
    apply setLast_bind hn hbuf
    intro chunk hlen hmark
    apply writeChunk_bind
    apply ih.mono
    intro _ ops n' h
    exact h.cons hlen (by simpa using hmark)

private def Reported (n : Nat) (ops : List Op) (n' : Nat) : Prop :=
  (∃ (t : Nat) (r : Option (Nat × UInt64)),
    ops = .clock t::r.toList.map fun r => .write (reportLine r.1 r.2)) ∧ n' = n

private theorem report_performs (start : Nat) (total : UInt64) (lastReport : Int) :
    Performs recorder n (report start total lastReport) fun _ => Reported n := by
  apply elapsed_bind
  intro t
  split
  · exact write_bind (.pure ⟨⟨t,some (t - start,total),rfl⟩,rfl⟩)
  · exact .pure ⟨⟨t,none,rfl⟩,rfl⟩

private def Received (n : Nat) (sendIntermediate : Bool) (total : UInt64) (sum : UInt64)
    (ops : List Op) (n' : Nat) : Prop :=
  ∃ chunks : List ReceivedChunk, Upload n (chunks.map ReceivedChunk.bytes) ∧
    (sendIntermediate = false → ∀ c ∈ chunks, c.sample = none ∧ c.report = none) ∧
    sum = total + UInt64.ofNat (chunks.length * n) ∧
    ops = chunks.flatMap ReceivedChunk.ops ∧ n' = n

private theorem Received.last {sendIntermediate : Bool} {total : UInt64} {c : ReceivedChunk}
    (hlen : c.bytes.length = n) (hmark : c.bytes.getLast? = some 0xFF)
    (hsilent : sendIntermediate = false → c.sample = none ∧ c.report = none) :
    Received n sendIntermediate total (total + UInt64.ofNat n) c.ops n := by
  refine ⟨[c],.last hlen hmark,fun h => List.forall_mem_singleton.mpr (hsilent h),?_,by simp,rfl⟩
  rw [List.length_singleton,Nat.one_mul]

private theorem Received.cons {sendIntermediate : Bool} {n' : Nat} {total sum : UInt64}
    {c : ReceivedChunk} {ops : List Op} (hlen : c.bytes.length = n)
    (hmark : c.bytes.getLast? ≠ some 0xFF)
    (hsilent : sendIntermediate = false → c.sample = none ∧ c.report = none)
    (h : Received n sendIntermediate (total + UInt64.ofNat n) sum ops n') :
    Received n sendIntermediate total sum (c.ops ++ ops) n' := by
  obtain ⟨chunks,hfull,hsilent',rfl,rfl,rfl⟩ := h
  refine ⟨c::chunks,.cons hlen hmark hfull,
    fun h => List.forall_mem_cons.mpr ⟨hsilent h,hsilent' h⟩,?_,rfl,rfl⟩
  rw [List.length_cons,Nat.succ_mul,Nat.add_comm _ n',UInt64.ofNat_add,UInt64.add_assoc]

private theorem receiveChunks_performs (hn : InRange n) (start : Nat) (sendIntermediate : Bool)
    (fuel : Nat) (total : UInt64) (lastReport : Int) :
    Performs recorder n (receiveChunks start sendIntermediate fuel total lastReport)
      (Received n sendIntermediate total) := by
  have hpos : 0 < n := lt_of_lt_of_le (by decide) hn.1
  induction fuel generalizing total lastReport with
  | zero =>
    obtain ⟨chunk,hlen,hmark⟩ := exists_terminal hn
    exact outOfFuel_performs
      (Received.last (c := ⟨chunk,none,none⟩) hlen hmark fun _ => ⟨rfl,rfl⟩)
  | succ fuel ih =>
    apply chunkSize_bind
    apply readExact_bind
    intro bytes hlen
    have hlast : bytes[n-1]? = bytes.getLast? := by rw [List.getLast?_eq_getElem?,hlen]
    rw [hlast]
    cases hmark : bytes.getLast? with
    | none =>
      rw [List.getLast?_eq_none_iff.mp hmark] at hlen
      exact absurd hlen (Nat.ne_of_lt hpos)
    | some lastByte =>
      have htail (c : ReceivedChunk) (hbytes : c.bytes = bytes)
          (hsilent : sendIntermediate = false → c.sample = none ∧ c.report = none) (r : Int) :
          Performs recorder n
            (if lastByte = 0xFF then pure (total + UInt64.ofNat n)
              else receiveChunks start sendIntermediate fuel (total + UInt64.ofNat n) r)
            fun sum ops => Received n sendIntermediate total sum (c.ops ++ ops) := by
        subst hbytes
        by_cases hend : lastByte = 0xFF
        · rw [if_pos hend]
          apply Performs.pure
          rw [List.append_nil]
          exact .last hlen (by rw [hmark,hend]) hsilent
        · rw [if_neg hend]
          apply (ih (total + UInt64.ofNat n) r).mono
          intro sum ops n' h
          exact h.cons hlen (by rw [hmark]; simpa using hend) hsilent
      dsimp only
      cases sendIntermediate with
      | true =>
        apply (report_performs start _ lastReport).bind
        intro r ops n' hops
        obtain ⟨⟨t,r',rfl⟩,rfl⟩ := hops
        exact htail ⟨bytes,some t,r'⟩ rfl nofun r
      | false => exact htail ⟨bytes,none,none⟩ rfl (fun _ => ⟨rfl,rfl⟩) lastReport

private def Answered (line : Text) (n : Nat) (ops : List Op) (n' : Nat) : Prop :=
  n' = sizeAfter line n ∧
    ∃ a : Answer (sizeAfter line n), Fits line a ∧ a ≠ .bye ∧ ops = a.ops

private theorem Answered.refused {line : Text} (hping : field line 0 ≠ "PING")
    (hquit : field line 0 ≠ "QUIT") : Answered line n [.write "ERR\n"] (sizeAfter line n) :=
  ⟨rfl,.refused,.refused hping hquit,nofun,rfl⟩

private theorem download_size {s : Nat} {chunks : List Bytes} (h : Download s chunks) :
    chunks.flatten.length = chunks.length * s := by
  induction h with
  | last length _ => simp [length]
  | cons length _ _ ih =>
    rw [List.flatten_cons,List.length_append,length,ih,List.length_cons,Nat.succ_mul,Nat.add_comm]

private theorem sizeAfter_of_not_test {line : Text} (h : ¬IsTest line) : sizeAfter line n = n := by
  have hget : ∀ cmd ∈ (["GETTIME","GETCHUNKS"] : List Text),
      cmd ∈ (["GETTIME","GETCHUNKS","PUT","PUTNORESULT","PING"] : List Text) := by decide
  have hput : ∀ cmd ∈ (["PUT","PUTNORESULT"] : List Text),
      cmd ∈ (["GETTIME","GETCHUNKS","PUT","PUTNORESULT","PING"] : List Text) := by decide
  rw [sizeAfter,if_neg fun hmem => h (hget _ hmem),if_neg fun hmem => h (hput _ hmem)]

private theorem inRange_sizeAfter (hn : InRange n) (line : Text) : InRange (sizeAfter line n) := by
  have hget (arg : Text) : InRange ((parseChunkSize arg maxChunkSize).getD n) := by
    cases hp : parseChunkSize arg maxChunkSize with
    | none => exact hn
    | some size => exact parseChunkSize_inRange hp
  unfold sizeAfter
  split
  · exact hget _
  · split
    · exact hget _
    · exact hn

private theorem handleGettime_performs (hn : InRange n) (env : Env) (fuel : Nat) {line : Text}
    (hcmd : field line 0 = "GETTIME") :
    Performs recorder n (handleGettime env (trim (field line 1)) (trim (field line 2)) fuel)
      fun _ => Answered line n := by
  have hsize : sizeAfter line n =
      (parseChunkSize (trim (field line 2)) maxChunkSize).getD n := by simp [sizeAfter,hcmd]
  have hrange := inRange_sizeAfter hn line
  have hrefused : Answered line n [.write "ERR\n"] (sizeAfter line n) :=
    .refused (by rw [hcmd]; decide) (by rw [hcmd]; decide)
  apply withChunkSize_performs
  · rw [← hsize]
    cases harg : parseBounded (trim (field line 1)) maxSeconds with
    | none => exact write_last hrefused
    | some seconds =>
      apply clock_bind
      intro start
      apply downloadBuf_bind hrange
      intro buf hbuf
      apply (sendFor_performs hrange hbuf start _ fuel 0).bind
      intro sent ops n' hsent
      obtain ⟨chunks,hfull,hsampled,rfl,rfl,rfl⟩ := hsent
      apply elapsed_bind
      intro finish
      have hbytes : (chunks.map SentChunk.bytes).flatten.length =
          chunks.length * sizeAfter line n := by rw [download_size hfull,List.length_map]
      apply account_bind
        (.download (chunks.map SentChunk.bytes).flatten.length (finish - start))
      · intro s
        rw [UInt64.zero_add,← hbytes]
        rfl
      · apply (acknowledge_performs start).mono
        intro _ ops n' hreply
        obtain ⟨⟨reply,rfl⟩,rfl⟩ := hreply
        refine ⟨rfl,.sending ⟨start,chunks,finish,reply,hfull⟩,.gettime hcmd harg hsampled,nofun,?_⟩
        simp [Answer.ops,Sending.ops,Sending.size,Sending.duration]
  · rw [← hsize]
    exact hrefused

private theorem handleGetchunks_performs (hn : InRange n) (env : Env) {line : Text}
    (hcmd : field line 0 = "GETCHUNKS") :
    Performs recorder n (handleGetchunks env (trim (field line 1)) (trim (field line 2)))
      fun _ => Answered line n := by
  have hsize : sizeAfter line n =
      (parseChunkSize (trim (field line 2)) maxChunkSize).getD n := by simp [sizeAfter,hcmd]
  have hrange := inRange_sizeAfter hn line
  have hrefused : Answered line n [.write "ERR\n"] (sizeAfter line n) :=
    .refused (by rw [hcmd]; decide) (by rw [hcmd]; decide)
  apply withChunkSize_performs
  · rw [← hsize]
    cases harg : parseBounded (trim (field line 1)) maxChunks with
    | none => exact write_last hrefused
    | some count =>
      apply clock_bind
      intro start
      apply downloadBuf_bind hrange
      intro buf hbuf
      apply (sendChunks_performs hrange hbuf count).bind
      intro _ ops n' hsent
      obtain ⟨chunks,hfull,hcount,hsample,rfl,rfl⟩ := hsent
      apply chunkSize_bind
      apply elapsed_bind
      intro finish
      have hfull := hfull (parseBounded_le harg).1
      have hbytes : (chunks.map SentChunk.bytes).flatten.length =
          count * sizeAfter line n := by rw [download_size hfull,List.length_map,hcount]
      apply account_bind
        (.download (chunks.map SentChunk.bytes).flatten.length (finish - start))
      · intro s
        rw [← UInt64.ofNat_mul,← hbytes]
        rfl
      · apply (acknowledge_performs start).mono
        intro _ ops n' hreply
        obtain ⟨⟨reply,rfl⟩,rfl⟩ := hreply
        refine ⟨rfl,.sending ⟨start,chunks,finish,reply,hfull⟩,.getchunks hcmd harg ⟨hcount,hsample⟩,
          nofun,?_⟩
        simp [Answer.ops,Sending.ops,Sending.size,Sending.duration]
  · rw [← hsize]
    exact hrefused

private theorem handlePut_performs (hn : InRange n) (sendIntermediate : Bool) (fuel : Nat)
    {line : Text} (hcmd : field line 0 = if sendIntermediate then "PUT" else "PUTNORESULT") :
    Performs recorder n (handlePut (trim (field line 1)) sendIntermediate fuel)
      fun _ => Answered line n := by
  have hne : field line 0 ≠ "PING" ∧ field line 0 ≠ "QUIT" := by
    rw [hcmd]
    cases sendIntermediate <;> decide
  have hsize : sizeAfter line n =
      (parseChunkSize (trim (field line 1)) maxChunkSize).getD n := by
    cases sendIntermediate <;> simp [sizeAfter,hcmd]
  have hrange := inRange_sizeAfter hn line
  apply withChunkSize_performs
  · rw [← hsize]
    apply write_bind
    apply clock_bind
    intro start
    apply (receiveChunks_performs hrange start sendIntermediate fuel 0 _).bind
    intro total ops n' hreceived
    obtain ⟨chunks,hfull,hsilent,rfl,rfl,rfl⟩ := hreceived
    apply elapsed_bind
    intro finish
    have hbytes : (chunks.map ReceivedChunk.bytes).flatten.length =
        chunks.length * sizeAfter line n := by rw [hfull.flatten_length,List.length_map]
    apply account_bind
      (.upload (chunks.map ReceivedChunk.bytes).flatten.length (finish - start))
    · intro s
      rw [UInt64.zero_add,← hbytes]
      rfl
    · apply write_last
      refine ⟨rfl,.receiving ⟨start,chunks,finish,hfull⟩,?_,nofun,?_⟩
      · cases sendIntermediate with
        | true => exact .put hcmd
        | false => exact .putnoresult hcmd (hsilent rfl)
      · simp [Answer.ops,Receiving.ops,Receiving.size,Receiving.duration]
  · rw [← hsize]
    exact .refused hne.1 hne.2

private theorem handlePing_performs {line : Text} (hcmd : field line 0 = "PING") :
    Performs recorder n handlePing fun _ => Answered line n := by
  have hsize : sizeAfter line n = n := by simp [sizeAfter,hcmd]
  apply clock_bind
  intro start
  apply write_bind
  apply read_bind
  intro ack
  by_cases hok : trim ack = "OK"
  · rw [if_neg (not_not_intro hok)]
    apply elapsed_bind
    intro now
    apply account_bind (.ping (now - start)) fun _ => rfl
    apply write_last
    exact ⟨hsize.symm,.pong start (.time ack hok now),.ping hcmd,nofun,rfl⟩
  · rw [if_pos hok]
    exact write_last ⟨hsize.symm,.pong start (.error ack hok),.ping hcmd,nofun,rfl⟩

private theorem handler_performs (hn : InRange n) {env : Env} {fuel : Nat} {line : Text}
    {handle : Session Stream Unit}
    (h : handler env fuel (field line 0) (trim (field line 1)) (trim (field line 2)) =
      some handle) :
    IsTest line ∧ Performs recorder n handle fun _ => Answered line n := by
  have htest {cmd : Text} (hcmd : field line 0 = cmd)
      (hmem : cmd ∈ (["GETTIME","GETCHUNKS","PUT","PUTNORESULT","PING"] : List Text)) :
      IsTest line := by
    rw [IsTest,hcmd]
    exact hmem
  unfold handler at h
  split at h
  · next hcmd => cases h; exact ⟨htest hcmd (by decide),handleGettime_performs hn env fuel hcmd⟩
  split at h
  · next hcmd => cases h; exact ⟨htest hcmd (by decide),handleGetchunks_performs hn env hcmd⟩
  split at h
  · next hcmd => cases h; exact ⟨htest hcmd (by decide),handlePut_performs hn true fuel hcmd⟩
  split at h
  · next hcmd => cases h; exact ⟨htest hcmd (by decide),handlePut_performs hn false fuel hcmd⟩
  split at h
  · next hcmd => cases h; exact ⟨htest hcmd (by decide),handlePing_performs hcmd⟩
  · cases h

private theorem handler_none {env : Env} {fuel : Nat} {line arg1 arg2 : Text}
    (h : (handler env fuel (field line 0) arg1 arg2 : Option (Session Stream Unit)) = none) :
    ¬IsTest line := by
  unfold handler at h
  split at h
  · cases h
  · split at h
    · cases h
    · split at h
      · cases h
      · split at h
        · cases h
        · split at h
          · cases h
          · simp only [IsTest,List.mem_cons,List.not_mem_nil,or_false,not_or]
            exact ⟨‹_›,‹_›,‹_›,‹_›,‹_›⟩

/-! ## The command loop -/

private def Conversed (n : Nat) (ops : List Op) : Prop :=
  ∃ turns, Conversation n turns ∧ ops = turns.flatMap Turn.ops

private theorem Conversed.quit {line : Text} (hcmd : field line 0 = "QUIT") :
    Conversed n [.write acceptLine,.read line,.write "BYE\n"] := by
  have htest : ¬IsTest line := by
    rw [IsTest,hcmd]
    decide
  refine ⟨[⟨n,line,.bye,.quit hcmd⟩],.quit rfl rfl,?_⟩
  simp [Turn.ops,htest,Answer.ops]

private theorem Conversed.turn {line : Text} {ops ops' : List Op} {n' : Nat}
    (h : Answered line n ops n') (hrest : Conversed n' ops') :
    Conversed n ([.write acceptLine,.read line] ++
      (if IsTest line then [.account .command] else []) ++ ops ++ ops') := by
  obtain ⟨rfl,a,hfits,hmore,rfl⟩ := h
  obtain ⟨turns,hturns,rfl⟩ := hrest
  exact ⟨⟨n,line,a,hfits⟩::turns,.turn rfl hmore hturns,rfl⟩

private theorem commandLoop_performs (hn : InRange n) (env : Env) (connId : Nat) (uuid : Text)
    (fuel : Nat) :
    Performs recorder n (commandLoop env connId uuid fuel) fun _ ops _ => Conversed n ops := by
  induction fuel generalizing n with
  | zero =>
    have hquit : field "QUIT" 0 = "QUIT" := by decide
    exact outOfFuel_performs (a := ()) (m := n) (Conversed.quit hquit)
  | succ fuel ih =>
    apply write_bind
    apply read_bind
    intro line
    apply emit_bind rfl
    apply chunkSize_bind
    apply stats_bind
    intro s
    apply emit_bind rfl
    dsimp only
    cases hh : (handler env fuel ((splitn 3 " " (trim line)).getD 0 [])
        (trim ((splitn 3 " " (trim line)).getD 1 []))
        (trim ((splitn 3 " " (trim line)).getD 2 [])) : Option (Session Stream Unit)) with
    | some handle =>
      obtain ⟨htest,hhandle⟩ := handler_performs hn hh
      apply account_bind .command fun _ => rfl
      apply hhandle.bind
      intro _ ops n' hanswer
      have hrange : InRange n' := by
        rw [hanswer.1]
        exact inRange_sizeAfter hn line
      apply (ih hrange).mono
      intro _ ops' _ hrest
      have hturn := Conversed.turn hanswer hrest
      rw [if_pos htest] at hturn
      simpa using hturn
    | none =>
      have htest : ¬IsTest line := handler_none hh
      dsimp only
      by_cases hquit : (splitn 3 " " (trim line)).getD 0 [] = "QUIT"
      · rw [if_pos hquit]
        apply write_bind
        exact emit_last rfl (Conversed.quit hquit)
      · rw [if_neg hquit]
        apply emit_bind rfl
        apply write_bind
        have hping : field line 0 ≠ "PING" := by
          intro h
          exact htest (by rw [IsTest,h]; decide)
        apply (ih hn).mono
        intro _ ops' _ hrest
        have hanswer : Answered line n [.write "ERR\n"] n := by
          have h := Answered.refused (n := n) hping hquit
          rwa [sizeAfter_of_not_test htest] at h
        have hturn := Conversed.turn hanswer hrest
        rw [if_neg htest] at hturn
        simpa using hturn

end

/-- Whatever a client does, the command phase performs a conversation or a part of one. -/
theorem runCommands_performed (env : Env) (connId : Nat) (uuid : Text) (fuel : Nat)
    (w : World Stream) :
    Performed recorder w (runCommands env connId uuid fuel w)
      fun _ ops _ => ∃ turns, Conversation defaultChunkSize turns ∧ ops = turns.flatMap Turn.ops := by
  have hrange : InRange defaultChunkSize := ⟨le_refl _,by decide⟩
  have h : Performs recorder w.chunkSize (runCommands env connId uuid fuel)
      fun _ ops _ => Conversed defaultChunkSize ops :=
    emit_bind rfl (setChunkSize_bind (commandLoop_performs hrange env connId uuid fuel))
  exact h w rfl

/-! ## Closing lines -/

def Closing (op : Op) : Prop :=
  op = .write "ERR\n" ∨ op = .write "BYE\n" ∨ ∃ ns, op = .write (timeLine ns)

/-- Operations of which the last one, and no other, is a closing line. -/
def Closes (ops : List Op) : Prop :=
  ∃ body close, ops = body ++ [close] ∧ Closing close ∧ ∀ op ∈ body, ¬Closing op

private theorem Closes.single {op : Op} (h : Closing op) : Closes [op] := ⟨[],op,rfl,h,nofun⟩

private theorem Closes.after {before ops : List Op} (h : Closes ops)
    (hbefore : ∀ op ∈ before, ¬Closing op) : Closes (before ++ ops) := by
  obtain ⟨body,close,rfl,hclose,hbody⟩ := h
  refine ⟨before ++ body,close,(List.append_assoc _ _ _).symm,hclose,?_⟩
  intro op hop
  rcases List.mem_append.mp hop with hop | hop
  · exact hbefore op hop
  · exact hbody op hop

private theorem not_closing_write {line : Text} (hE : line.head? ≠ some 'E')
    (hB : line.head? ≠ some 'B') (hT : line.head? = some 'T' → 'B' ∈ line) :
    ¬Closing (.write line) := by
  intro h
  rcases h with h | h | ⟨ns,h⟩
  · cases h
    exact hE rfl
  · cases h
    exact hB rfl
  · cases h
    have hmem := hT rfl
    rw [timeLine,List.mem_append,List.mem_append] at hmem
    rcases hmem with (hmem | hmem) | hmem
    · exact absurd hmem (by decide)
    · exact absurd (natText_isDigit hmem) (by decide)
    · exact absurd hmem (by decide)

private theorem not_closing_report (ns : Nat) (bytes : UInt64) :
    ¬Closing (.write (reportLine ns bytes)) := by
  unfold reportLine
  rw [List.append_assoc,List.append_assoc,List.append_assoc]
  have hhead (r : Text) : ("TIME ".toList ++ r).head? = some 'T' := by
    rw [List.head?_append,show "TIME ".toList.head? = some 'T' by decide]
    rfl
  apply not_closing_write
  · rw [hhead]
    decide
  · rw [hhead]
    decide
  · intro _
    apply List.mem_append_right
    apply List.mem_append_right
    exact List.mem_append_left _ (by decide)

private theorem not_closing_sent {chunks : List SentChunk} :
    ∀ op ∈ chunks.flatMap SentChunk.ops, ¬Closing op := by
  intro op hop
  obtain ⟨c,-,hop⟩ := List.mem_flatMap.mp hop
  rcases List.mem_append.mp hop with hop | hop
  · obtain ⟨t,-,rfl⟩ := List.mem_map.mp hop
    exact nofun
  · rw [List.mem_singleton.mp hop]
    exact nofun

private theorem not_closing_received {chunks : List ReceivedChunk} :
    ∀ op ∈ chunks.flatMap ReceivedChunk.ops, ¬Closing op := by
  intro op hop
  obtain ⟨c,-,hop⟩ := List.mem_flatMap.mp hop
  rcases List.mem_append.mp hop with hop | hop
  · rcases List.mem_cons.mp hop with rfl | hop
    · exact nofun
    · obtain ⟨t,-,rfl⟩ := List.mem_map.mp hop
      exact nofun
  · obtain ⟨r,-,rfl⟩ := List.mem_map.mp hop
    exact not_closing_report r.1 r.2

private theorem Reply.closes {start : Nat} {book : Nat → List Op}
    (hbook : ∀ ns, ∀ op ∈ book ns, ¬Closing op) (reply : Reply) :
    Closes (reply.ops start book) := by
  cases reply with
  | time line ok now =>
    have hlast : Closes [.write (timeLine (now - start))] := .single (Or.inr (Or.inr ⟨_,rfl⟩))
    apply hlast.after
    intro op hop
    simp only [List.mem_append,List.mem_cons,List.not_mem_nil,or_false] at hop
    rcases hop with (rfl | rfl) | hop
    · exact nofun
    · exact nofun
    · exact hbook _ op hop
  | error line other =>
    have hlast : Closes [.write "ERR\n"] := .single (Or.inl rfl)
    have hread : ∀ op ∈ ([.read line] : List Op), ¬Closing op := by
      intro op hop
      rw [List.mem_singleton.mp hop]
      exact nofun
    exact hlast.after hread

theorem Answer.closes {n : Nat} (a : Answer n) : Closes a.ops := by
  cases a with
  | refused => exact .single (Or.inl rfl)
  | bye => exact .single (Or.inr (Or.inl rfl))
  | sending s =>
    apply (s.reply.closes fun _ => List.forall_mem_nil _).after
    intro op hop
    rcases List.mem_append.mp hop with hop | hop
    · rcases List.mem_cons.mp hop with rfl | hop
      · exact nofun
      · exact not_closing_sent op hop
    · simp only [List.mem_cons,List.not_mem_nil,or_false] at hop
      rcases hop with rfl | rfl
      · exact nofun
      · exact nofun
  | receiving r =>
    have hlast : Closes [.clock r.finish,.account (.upload r.size r.duration),
        .write (timeLine r.duration)] := by
      have hbooked : ∀ op ∈ ([.clock r.finish,.account (.upload r.size r.duration)] : List Op),
          ¬Closing op := by
        intro op hop
        simp only [List.mem_cons,List.not_mem_nil,or_false] at hop
        rcases hop with rfl | rfl
        · exact nofun
        · exact nofun
      have htime : Closes [.write (timeLine r.duration)] := .single (Or.inr (Or.inr ⟨_,rfl⟩))
      exact htime.after hbooked
    apply hlast.after
    intro op hop
    have hok : ¬Closing (.write "OK\n") :=
      not_closing_write (by decide) (by decide) (by decide)
    simp only [List.mem_append,List.mem_cons,List.not_mem_nil,or_false] at hop
    rcases hop with (rfl | rfl) | hop
    · exact hok
    · exact nofun
    · exact not_closing_received op hop
  | pong start reply =>
    have hbook : ∀ ns, ∀ op ∈ ([.account (.ping ns)] : List Op), ¬Closing op := by
      intro ns op hop
      rw [List.mem_singleton.mp hop]
      exact nofun
    apply (reply.closes hbook).after
    intro op hop
    have hpong : ¬Closing (.write "PONG\n") :=
      not_closing_write (by decide) (by decide) (by decide)
    simp only [List.mem_cons,List.not_mem_nil,or_false] at hop
    rcases hop with rfl | rfl
    · exact nofun
    · exact hpong

theorem Op.io_append (a b : List Op) : io (a ++ b) = io a ++ io b := List.filter_append ..

private theorem Conversation.ends {n : Nat} {turns : List Turn} (h : Conversation n turns) :
    ∃ ops, Op.io (turns.flatMap Turn.ops) = ops ++ [.write "BYE\n"] := by
  induction h with
  | @quit n t size bye =>
    rw [List.flatMap_cons,List.flatMap_nil,List.append_nil,Turn.ops,Op.io_append,bye]
    exact ⟨_,rfl⟩
  | @turn n t turns size more rest ih =>
    obtain ⟨ops,hops⟩ := ih
    exact ⟨Op.io t.ops ++ ops,by rw [List.flatMap_cons,Op.io_append,hops,List.append_assoc]⟩

/-- Whatever a client does and however the streams and the clock behave, what is read and written
is a conversation if the run returns, and then `BYE` is the last line; if it fails or is still
going on, it is the beginning of one. Every answer has one closing line, at its end. -/
theorem runCommands_grammar (env : Env) (connId : Nat) (uuid : Text) (fuel : Nat)
    (w : World Stream) :
    ∃ turns, Conversation defaultChunkSize turns ∧ (∀ t ∈ turns, Closes t.answer.ops) ∧
      match runCommands env connId uuid fuel w with
      | .ok _ w' =>
        transcript w'.trace = transcript w.trace ++ Op.io (turns.flatMap Turn.ops) ∧
          (transcript w'.trace).getLast? = some (.write "BYE\n")
      | .error e w' => e ≠ .panic ∧ ∃ ops, ops <+: Op.io (turns.flatMap Turn.ops) ∧
          transcript w'.trace = transcript w.trace ++ ops := by
  have hrun := runCommands_performed env connId uuid fuel w
  cases hw : runCommands env connId uuid fuel w with
  | ok a w' =>
    rw [hw] at hrun
    obtain ⟨ops,⟨turns,hturns,rfl⟩,hdid⟩ := hrun
    refine ⟨turns,hturns,fun t _ => t.answer.closes,hdid.transcript,?_⟩
    obtain ⟨ops,hops⟩ := hturns.ends
    rw [hdid.transcript,hops,← List.append_assoc,List.getLast?_concat]
  | error e w' =>
    rw [hw] at hrun
    obtain ⟨done,op,rest,_,_,u,⟨turns,hturns,hops⟩,hdid,hbroke⟩ := hrun
    refine ⟨turns,hturns,fun t _ => t.answer.closes,?_,
      Op.io done ++ (if e = .outOfFuel then [] else op.attempt),?_,?_⟩
    · rcases hbroke.cause with ⟨ioError,rfl⟩ | rfl
      · exact nofun
      · exact nofun
    · rw [← hops,Op.io_append]
      apply List.prefix_append_right_inj _ |>.mpr
      by_cases he : e = .outOfFuel
      · rw [if_pos he]
        exact List.nil_prefix
      · rw [if_neg he,Op.io,List.filter_cons_of_pos (hbroke.onStream he)]
        cases op with
        | write line => exact List.prefix_append [_] _
        | writeChunk bytes => exact List.prefix_append [_] _
        | _ => exact List.nil_prefix
    · rw [hbroke.transcript,hdid.transcript,List.append_assoc]

end Rmbtd
