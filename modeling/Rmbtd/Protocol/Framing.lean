import Rmbtd.Protocol.Conversation
import Rmbtd.Stream.Script

/-!
# Chunk streams

Downloads and uploads use one code: chunks of one size, of which the last one, and no other, ends
in `0xFF`. What a download sends is received by the loop of an upload to its last byte, and both
sides count the same bytes.
-/

namespace Rmbtd

open Effect Session

def sentChunks (tr : List Event) : List Bytes := tr.filterMap fun
  | .sentChunk c => some c
  | _ => none

theorem sentChunks_append (a b : List Event) : sentChunks (a ++ b) = sentChunks a ++ sentChunks b :=
  List.filterMap_append

private theorem sentChunks_map (chunks : List Bytes) :
    sentChunks (chunks.map .sentChunk) = chunks := by
  induction chunks with
  | nil => rfl
  | cons c chunks ih => exact congrArg (c::·) ih

theorem Download.upload {s : Nat} {chunks : List Bytes} (h : Download s chunks) :
    Upload s chunks := by
  induction h with
  | last length mark => exact .last length mark
  | cons length mark _ ih => exact .cons length (by rw [mark]; decide) ih

/-! ## The sender -/

/-- A stream whose writes succeed. -/
def Stream.Faultless : Stream → Prop
  | .raw conn => conn.faults = []
  | .webSocket ws => ws.faults = []

theorem Stream.Faultless.writeAll {s : Stream} (h : s.Faultless) (data : Bytes) :
    ∃ s', s'.Faultless ∧ LineStream.writeAll data s = .ok () s' := by
  cases s with
  | raw conn =>
    refine ⟨.raw { conn with output := conn.output ++ data },h,?_⟩
    have hwrite : LineStream.writeAll data conn = .ok () { conn with output := conn.output ++ data } :=
      RawConn.writeAll_faultless h data
    change Stream.lift (LineStream.writeAll data) (LineStream.writeAll data) (.raw conn) = _
    rw [Stream.lift,hwrite]
  | webSocket ws =>
    refine ⟨.webSocket { ws with sent := ws.sent ++ [WebSocket.framed data] },h,?_⟩
    have hwrite : LineStream.writeAll data ws =
        .ok () { ws with sent := ws.sent ++ [WebSocket.framed data] } :=
      WebSocket.writeAll_faultless h data
    change Stream.lift (LineStream.writeAll data) (LineStream.writeAll data) (.webSocket ws) = _
    rw [Stream.lift,hwrite]

theorem Stream.Faultless.writeChunk {s : Stream} (h : s.Faultless) (chunk : Bytes) :
    ∃ s', s'.Faultless ∧ ∀ w : World Stream, w.stream = s → Session.writeChunk chunk w =
      .ok () { w with stream := s', trace := w.trace ++ [.sentChunk chunk] } := by
  obtain ⟨s',hs',hwrite⟩ := h.writeAll chunk
  refine ⟨s',hs',?_⟩
  intro w hw
  subst hw
  exact writeChunk_ok hwrite

section
variable {n : Nat} {buf : Bytes}

private theorem chunkSize_run (w : World Stream) : chunkSize w = .ok w.chunkSize w := rfl

private theorem elapsed_run (start : Nat) (w : World Stream) : elapsed start w =
    .ok (w.instants 0 - start) { w with instants := fun i => w.instants (i+1) } := rfl

private theorem setLast_run (hn : InRange n) (hbuf : buf.length = n) (terminal : Bool) :
    ∃ chunk : Bytes, chunk.length = n ∧
      chunk.getLast? = some (if terminal then 0xFF else 0x00) ∧
      ∀ w : World Stream, setLast buf terminal w = .ok chunk w := by
  have hpos : 0 < buf.length := by
    rw [hbuf]
    exact lt_of_lt_of_le (by decide) hn.1
  refine ⟨buf.dropLast ++ [if terminal then 0xFF else 0x00],?_,List.getLast?_concat,?_⟩
  · rw [List.length_append,List.length_dropLast,List.length_singleton,Nat.sub_add_cancel hpos,hbuf]
  · intro w
    unfold setLast
    rw [if_neg (List.length_pos_iff.mp hpos)]
    rfl

/-- A timed download sends a chunk for each reading below the limit, and the terminal one. -/
theorem sendFor_sends (hn : InRange n) (hbuf : buf.length = n) {start limit m fuel : Nat}
    (sent : UInt64) {w : World Stream} (hw : w.stream.Faultless) (hsize : w.chunkSize = n)
    (hbelow : ∀ i < m, w.instants i - start < limit) (hreached : limit ≤ w.instants m - start)
    (hfuel : m < fuel) :
    ∃ chunks st, Download n chunks ∧ chunks.length = m + 1 ∧ st.Faultless ∧
      sendFor buf start limit fuel sent w = .ok (sent + UInt64.ofNat ((m+1) * n)) { w with
        stream := st
        instants := fun i => w.instants (i+(m+1))
        trace := w.trace ++ chunks.map .sentChunk } := by
  induction m generalizing fuel sent w with
  | zero =>
    obtain ⟨fuel,rfl⟩ := Nat.exists_eq_succ_of_ne_zero (Nat.ne_of_gt hfuel)
    obtain ⟨chunk,hlen,hmark,hset⟩ := setLast_run hn hbuf (decide (limit ≤ w.instants 0 - start))
    obtain ⟨st,hfaultless,hst⟩ := hw.writeChunk chunk
    rw [decide_eq_true hreached] at hmark
    refine ⟨[chunk],st,.last hlen hmark,rfl,hfaultless,?_⟩
    rw [sendFor,bind_ok (elapsed_run _ _),bind_ok (hset _),
      bind_ok (hst { w with instants := fun i => w.instants (i+1) } rfl),bind_ok (chunkSize_run _),
      if_pos hreached,hsize]
    simp [pure_apply]
  | succ m ih =>
    obtain ⟨fuel,rfl⟩ := Nat.exists_eq_succ_of_ne_zero (Nat.ne_of_gt (Nat.zero_lt_of_lt hfuel))
    have hearly : ¬limit ≤ w.instants 0 - start := Nat.not_le.mpr (hbelow 0 (Nat.succ_pos m))
    obtain ⟨chunk,hlen,hmark,hset⟩ := setLast_run hn hbuf (decide (limit ≤ w.instants 0 - start))
    obtain ⟨st,hfaultless,hst⟩ := hw.writeChunk chunk
    rw [decide_eq_false hearly] at hmark
    obtain ⟨stream,instants,wall,stats,size,trace⟩ := w
    dsimp only at hsize hbelow hreached hearly hst
    subst hsize
    obtain ⟨chunks,st',hfull,hcount,hfaultless',hrun⟩ := ih (sent + UInt64.ofNat size)
      (w := ⟨st,fun i => instants (i+1),wall,stats,size,trace ++ [.sentChunk chunk]⟩) hfaultless rfl
      (fun i hi => hbelow (i+1) (Nat.succ_lt_succ hi)) hreached (Nat.lt_of_succ_lt_succ hfuel)
    refine ⟨chunk::chunks,st',.cons hlen hmark hfull,by rw [List.length_cons,hcount],hfaultless',?_⟩
    have htotal : sent + UInt64.ofNat size + UInt64.ofNat ((m+1) * size) =
        sent + UInt64.ofNat ((m+1+1) * size) := by
      rw [Nat.succ_mul (m+1),Nat.add_comm _ size,UInt64.ofNat_add,UInt64.add_assoc]
    rw [sendFor,bind_ok (elapsed_run _ _),bind_ok (hset _),
      bind_ok (hst ⟨stream,fun i => instants (i+1),wall,stats,size,trace⟩ rfl),
      bind_ok (chunkSize_run _),if_neg hearly,hrun,htotal]
    simp only [List.append_assoc,List.map_cons,List.singleton_append]
    rfl

theorem sendChunks_sends (hn : InRange n) (hbuf : buf.length = n) (count : Nat) {w : World Stream}
    (hw : w.stream.Faultless) :
    ∃ chunks st, (0 < count → Download n chunks) ∧ chunks.length = count ∧ st.Faultless ∧
      sendChunks buf count w = .ok () { w with
        stream := st
        trace := w.trace ++ chunks.map .sentChunk } := by
  induction count generalizing w with
  | zero => exact ⟨[],w.stream,nofun,rfl,hw,by rw [sendChunks,pure_apply]; simp⟩
  | succ left ih =>
    obtain ⟨chunk,hlen,hmark,hset⟩ := setLast_run hn hbuf (decide (left = 0))
    obtain ⟨st,hfaultless,hst⟩ := hw.writeChunk chunk
    obtain ⟨stream,instants,wall,stats,size,trace⟩ := w
    dsimp only at hst
    obtain ⟨chunks,st',hfull,hcount,hfaultless',hrun⟩ := ih
      (w := ⟨st,instants,wall,stats,size,trace ++ [.sentChunk chunk]⟩) hfaultless
    refine ⟨chunk::chunks,st',fun _ => ?_,by rw [List.length_cons,hcount],hfaultless',?_⟩
    · by_cases hleft : left = 0
      · subst hleft
        rw [List.length_eq_zero_iff.mp hcount]
        exact .last hlen hmark
      · rw [decide_eq_false hleft] at hmark
        exact .cons hlen hmark (hfull (Nat.pos_of_ne_zero hleft))
    · rw [sendChunks,bind_ok (hset _),
        bind_ok (hst ⟨stream,instants,wall,stats,size,trace⟩ rfl),hrun]
      simp only [List.append_assoc,List.map_cons,List.singleton_append]

end

/-! ## The receiver -/

private theorem report_raw (start : Nat) (total : UInt64) (lastReport : Int) {w : World RawConn}
    (hw : w.stream.faults = []) :
    ∃ r w', report start total lastReport w = .ok r w' ∧ w'.stream.input = w.stream.input ∧
      w'.stream.faults = [] ∧ w'.chunkSize = w.chunkSize := by
  have hclock : elapsed start w =
      .ok (w.instants 0 - start) { w with instants := fun i => w.instants (i+1) } := rfl
  rw [report,bind_ok hclock]
  split
  · have hwrite : LineStream.writeAll (utf8 (reportLine (w.instants 0 - start) total)) w.stream = _ :=
      RawConn.writeAll_faultless hw _
    rw [bind_ok (writeLine_ok (w := { w with instants := fun i => w.instants (i+1) }) hwrite)]
    exact ⟨_,_,rfl,rfl,hw,rfl⟩
  · exact ⟨_,_,rfl,rfl,hw,rfl⟩

private theorem receiveChunks_step {s : Nat} {chunk rest : Bytes} (length : chunk.length = s) (hs : 0 < s)
    (start : Nat) (sendIntermediate : Bool) (fuel : Nat) (total : UInt64) (lastReport : Int)
    {w : World RawConn} (hinput : w.stream.input = chunk ++ rest) (hfaults : w.stream.faults = [])
    (hsize : w.chunkSize = s) :
    ∃ r w', receiveChunks start sendIntermediate (fuel+1) total lastReport w =
        (if chunk.getLast? = some 0xFF then pure (total + UInt64.ofNat s)
          else receiveChunks start sendIntermediate fuel (total + UInt64.ofNat s) r) w' ∧
      w'.stream.input = rest ∧ w'.stream.faults = [] ∧ w'.chunkSize = s := by
  have hchunk : chunkSize w = .ok w.chunkSize w := rfl
  have hread : LineStream.readExact s w.stream = .ok chunk { w.stream with input := rest } := by
    have h := RawConn.readExact_encode hinput
    rw [length] at h
    exact h
  have hlast : chunk[s-1]? = chunk.getLast? := by rw [List.getLast?_eq_getElem?,length]
  obtain ⟨b,hb⟩ : ∃ b, chunk.getLast? = some b := by
    cases hc : chunk.getLast? with
    | none =>
      rw [List.getLast?_eq_none_iff.mp hc] at length
      exact absurd length (Nat.ne_of_lt hs)
    | some b => exact ⟨b,rfl⟩
  have hmark : (b = 0xFF) = (chunk.getLast? = some 0xFF) := by rw [hb,Option.some.injEq]
  rw [receiveChunks,bind_ok hchunk,hsize,bind_ok (readExact_ok hread)]
  dsimp only
  rw [hlast,hb]
  dsimp only
  simp only [hmark]
  cases sendIntermediate with
  | true =>
    obtain ⟨r,w',hr,hinput',hfaults',hsize'⟩ := report_raw start (total + UInt64.ofNat s) lastReport
      (w := { w with
        stream := { w.stream with input := rest }
        trace := w.trace ++ [.receivedChunk chunk] }) hfaults
    refine ⟨r,w',?_,hinput',hfaults',hsize'.trans hsize⟩
    rw [if_pos rfl,bind_ok hr,hb]
  | false =>
    refine ⟨lastReport,{ w with
        stream := { w.stream with input := rest }
        trace := w.trace ++ [.receivedChunk chunk] },?_,rfl,hfaults,hsize⟩
    rw [hb]
    rfl

/-- The loop of an upload receives the chunks of one and leaves what comes after them. -/
theorem receiveChunks_receives {s : Nat} {chunks : List Bytes} (h : Upload s chunks) (hs : 0 < s)
    (start : Nat) (sendIntermediate : Bool) {fuel : Nat} (hfuel : chunks.length ≤ fuel)
    (total : UInt64) (lastReport : Int) {w : World RawConn} {rest : Bytes}
    (hinput : w.stream.input = chunks.flatten ++ rest) (hfaults : w.stream.faults = [])
    (hsize : w.chunkSize = s) :
    ∃ w', receiveChunks start sendIntermediate fuel total lastReport w =
        .ok (total + UInt64.ofNat (chunks.length * s)) w' ∧ w'.stream.input = rest := by
  induction h generalizing fuel total lastReport w with
  | @last c length mark =>
    obtain ⟨fuel,rfl⟩ := Nat.exists_eq_succ_of_ne_zero (Nat.ne_of_gt (Nat.lt_of_succ_le hfuel))
    rw [List.flatten_singleton] at hinput
    obtain ⟨r,w',hstep,hinput',-⟩ := receiveChunks_step length hs start sendIntermediate fuel total
      lastReport hinput hfaults hsize
    rw [if_pos mark] at hstep
    exact ⟨w',by rw [hstep,List.length_singleton,Nat.one_mul]; rfl,hinput'⟩
  | @cons c chunks length mark rest' ih =>
    obtain ⟨fuel,rfl⟩ := Nat.exists_eq_succ_of_ne_zero
      (Nat.ne_of_gt (Nat.zero_lt_of_lt (Nat.lt_of_succ_le hfuel)))
    rw [List.flatten_cons,List.append_assoc] at hinput
    obtain ⟨r,w',hstep,hinput',hfaults',hsize'⟩ := receiveChunks_step length hs start
      sendIntermediate fuel total lastReport hinput hfaults hsize
    rw [if_neg mark] at hstep
    obtain ⟨w'',hrun,hrest⟩ := ih (Nat.le_of_succ_le_succ hfuel) (total + UInt64.ofNat s) r hinput'
      hfaults' hsize'
    refine ⟨w'',?_,hrest⟩
    rw [hstep,hrun,List.length_cons,Nat.succ_mul,Nat.add_comm _ s,UInt64.ofNat_add,UInt64.add_assoc]

/-! ## Downloads -/

/-- From `w` to `w'` a download of `k` chunks of the size `s` is sent and booked, and the loop of
an upload with that size receives its bytes to the last one and counts as many. -/
def Delivers (s k : Nat) (w w' : World Stream) : Prop :=
  ∃ chunks : List Bytes, sentChunks w'.trace = sentChunks w.trace ++ chunks ∧
    chunks.length = k ∧ 0 < k ∧ (∀ c ∈ chunks, c.length = s) ∧
    w'.stats.downloadBytes = w.stats.downloadBytes + UInt64.ofNat (k * s) ∧
    ∀ (start : Nat) (sendIntermediate : Bool) (fuel : Nat) (v : World RawConn) (rest : Bytes),
      v.stream.input = chunks.flatten ++ rest → v.stream.faults = [] → v.chunkSize = s →
      k ≤ fuel →
      ∃ v', receiveChunks start sendIntermediate fuel 0 (-2^127) v = .ok (UInt64.ofNat (k * s)) v' ∧
        v'.stream.input = rest

private theorem Download.length_eq {s : Nat} {chunks : List Bytes} (h : Download s chunks) :
    ∀ c ∈ chunks, c.length = s := by
  induction h with
  | last length _ => exact List.forall_mem_singleton.mpr length
  | cons length _ _ ih => exact List.forall_mem_cons.mpr ⟨length,ih⟩

private theorem Download.delivers {s : Nat} (hs : InRange s) {chunks : List Bytes}
    (h : Download s chunks) {w w' : World Stream}
    (htrace : sentChunks w'.trace = sentChunks w.trace ++ chunks)
    (hbytes : w'.stats.downloadBytes =
      w.stats.downloadBytes + UInt64.ofNat (chunks.length * s)) :
    Delivers s chunks.length w w' := by
  have hpos : 0 < chunks.length := by
    cases h <;> exact Nat.succ_pos _
  refine ⟨chunks,htrace,rfl,hpos,h.length_eq,hbytes,?_⟩
  intro start sendIntermediate fuel v rest hinput hfaults hsize hfuel
  have hspos : 0 < s := lt_of_lt_of_le (by decide) hs.1
  obtain ⟨v',hv',hrest⟩ := receiveChunks_receives h.upload hspos start sendIntermediate hfuel 0
    (-2^127) hinput hfaults hsize
  rw [UInt64.zero_add] at hv'
  exact ⟨v',hv',hrest⟩

private theorem acknowledge_final (start : Nat) (w : World Stream) :
    ∃ tr, (final (acknowledge start w)).trace = w.trace ++ tr ∧ sentChunks tr = [] ∧
      (final (acknowledge start w)).stats = w.stats ∧
      ∀ line : Text, .sentLine line ∈ tr → line = "ERR\n" ∨ line = timeLine (w.instants 0 - start) := by
  have hwrite (line : Text) (w : World Stream) :
      (final (writeLine line w)).trace = w.trace ++ [.sentLine line] ∧
        (final (writeLine line w)).stats = w.stats := by
    cases h : LineStream.writeAll (utf8 line) w.stream with
    | ok a s =>
      rw [writeLine_ok h]
      exact ⟨rfl,rfl⟩
    | error e s =>
      have hfail : writeLine line w =
          .error (.io e) { w with stream := s, trace := w.trace ++ [.sentLine line] } :=
        onStream_error h
      rw [hfail]
      exact ⟨rfl,rfl⟩
  unfold acknowledge
  cases h : LineStream.readLine w.stream with
  | error e s =>
    rw [bind_error (readLine_error h)]
    exact ⟨[],(List.append_nil _).symm,rfl,rfl,nofun⟩
  | ok ack s =>
    rw [bind_ok (readLine_ok h)]
    by_cases hok : trim ack = "OK"
    · rw [if_neg (not_not_intro hok),bind_ok (elapsed_run _ _)]
      obtain ⟨htrace,hstats⟩ := hwrite (timeLine (w.instants 0 - start)) { w with
        stream := s
        trace := w.trace ++ [.received ack]
        instants := fun i => w.instants (i+1) }
      refine ⟨[.received ack,.sentLine (timeLine (w.instants 0 - start))],?_,rfl,hstats,?_⟩
      · rw [htrace,List.append_assoc]
        rfl
      · intro line hline
        simp only [List.mem_cons,reduceCtorEq,Event.sentLine.injEq,List.not_mem_nil,or_false,
          false_or] at hline
        exact Or.inr hline
    · rw [if_pos hok]
      obtain ⟨htrace,hstats⟩ := hwrite "ERR\n" { w with
        stream := s
        trace := w.trace ++ [.received ack] }
      refine ⟨[.received ack,.sentLine "ERR\n"],?_,rfl,hstats,?_⟩
      · rw [htrace,List.append_assoc]
        rfl
      · intro line hline
        simp only [List.mem_cons,reduceCtorEq,Event.sentLine.injEq,List.not_mem_nil,or_false,
          false_or] at hline
        exact Or.inl hline

private theorem withChunkSize_inForce {argChunk : Text} {s : Nat} {w : World Stream}
    (h : InForce argChunk w.chunkSize s) (m : Session Stream Unit) :
    withChunkSize argChunk m w = m { w with chunkSize := s } := by
  unfold InForce at h
  unfold withChunkSize
  by_cases hnil : argChunk = []
  · rw [if_pos hnil] at h ⊢
    rw [← h]
  · rw [if_neg hnil] at h ⊢
    rw [h]
    rfl

private theorem downloadBuf_run {n : Nat} (hn : InRange n) (randomChunk : RandomChunk) :
    ∃ buf : Bytes, buf.length = n ∧ ∀ w : World Stream, w.chunkSize = n →
      downloadBuf randomChunk w = .ok buf w := by
  have hle : n ≤ randomChunk.val.length := by
    rw [randomChunk.property]
    exact hn.2
  refine ⟨randomChunk.val.take n,List.length_take_of_le hle,?_⟩
  intro w hw
  subst hw
  rw [downloadBuf,bind_ok (chunkSize_run w),if_pos hle]
  rfl

theorem handleGetchunks_delivers (env : Env) {s : Nat} (hs : InRange s) {w : World Stream}
    (hw : w.stream.Faultless) {argCount argChunk : Text} (hforce : InForce argChunk w.chunkSize s)
    {count : Nat} (hcount : parseBounded argCount maxChunks = some count) :
    Delivers s count w (final (handleGetchunks env argCount argChunk w)) := by
  obtain ⟨buf,hbuf,hdownload⟩ := downloadBuf_run hs env.randomChunk
  obtain ⟨stream,instants,wall,stats,size,trace⟩ := w
  obtain ⟨chunks,st,hsent,hlen,-,hrun⟩ := sendChunks_sends hs hbuf count
    (w := ⟨stream,fun i => instants (i+1),wall,stats,s,trace⟩) hw
  have hfull := hsent (parseBounded_le hcount).1
  have hinstant : instant (⟨stream,instants,wall,stats,s,trace⟩ : World Stream) =
      .ok (instants 0) ⟨stream,fun i => instants (i+1),wall,stats,s,trace⟩ := rfl
  have hupdate (f : ConnStats → ConnStats) (w : World Stream) :
      updateStats f w = .ok () { w with stats := f w.stats } := rfl
  unfold handleGetchunks
  rw [withChunkSize_inForce hforce,hcount]
  dsimp only
  rw [bind_ok hinstant,bind_ok (hdownload ⟨stream,fun i => instants (i+1),wall,stats,s,trace⟩ rfl),
    bind_ok hrun,bind_ok (chunkSize_run _),bind_ok (elapsed_run _ _),bind_ok (hupdate _ _)]
  obtain ⟨tr,htrace,htr,hstats,-⟩ := acknowledge_final (instants 0) ⟨st,fun i => instants (i+1+1),wall,
    stats.addDownload (UInt64.ofNat count * UInt64.ofNat s) (instants 1 - instants 0),s,
    trace ++ chunks.map .sentChunk⟩
  subst hlen
  apply hfull.delivers hs
  · refine (congrArg sentChunks htrace).trans ?_
    rw [sentChunks_append,sentChunks_append,sentChunks_map,htr,List.append_nil]
  · refine (congrArg ConnStats.downloadBytes hstats).trans ?_
    rw [UInt64.ofNat_mul]
    rfl

theorem handleGettime_delivers (env : Env) {s : Nat} (hs : InRange s) {w : World Stream}
    (hw : w.stream.Faultless) {argSecs argChunk : Text} (hforce : InForce argChunk w.chunkSize s)
    {seconds m fuel : Nat} (hseconds : parseBounded argSecs maxSeconds = some seconds)
    (hclock : Monotone w.instants)
    (hbelow : ∀ i < m, w.instants (i+1) - w.instants 0 < seconds * 1000000000)
    (hreached : seconds * 1000000000 ≤ w.instants (m+1) - w.instants 0) (hfuel : m < fuel) :
    let w' := final (handleGettime env argSecs argChunk fuel w)
    Delivers s (m+1) w w' ∧
      ∃ tr, w'.trace = w.trace ++ tr ∧ ∀ line : Text, .sentLine line ∈ tr →
        line = "ERR\n" ∨ ∃ t, seconds * 1000000000 ≤ t ∧ line = timeLine t := by
  obtain ⟨buf,hbuf,hdownload⟩ := downloadBuf_run hs env.randomChunk
  obtain ⟨stream,instants,wall,stats,size,trace⟩ := w
  dsimp only at hclock hbelow hreached
  obtain ⟨chunks,st,hfull,hlen,-,hrun⟩ := sendFor_sends hs hbuf 0
    (w := ⟨stream,fun i => instants (i+1),wall,stats,s,trace⟩) hw rfl hbelow hreached hfuel
  have hinstant : instant (⟨stream,instants,wall,stats,s,trace⟩ : World Stream) =
      .ok (instants 0) ⟨stream,fun i => instants (i+1),wall,stats,s,trace⟩ := rfl
  have hupdate (f : ConnStats → ConnStats) (w : World Stream) :
      updateStats f w = .ok () { w with stats := f w.stats } := rfl
  unfold handleGettime
  rw [withChunkSize_inForce hforce,hseconds]
  dsimp only
  rw [bind_ok hinstant,bind_ok (hdownload ⟨stream,fun i => instants (i+1),wall,stats,s,trace⟩ rfl),
    bind_ok hrun,bind_ok (elapsed_run _ _),bind_ok (hupdate _ _)]
  obtain ⟨tr,htrace,htr,hstats,hlines⟩ := acknowledge_final (instants 0)
    ⟨st,fun i => instants (i+1+(m+1)+1),wall,
      stats.addDownload (0 + UInt64.ofNat ((m+1) * s)) (instants (0+(m+1)+1) - instants 0),s,
      trace ++ chunks.map .sentChunk⟩
  rw [← hlen] at htrace hstats ⊢
  constructor
  · apply hfull.delivers hs
    · refine (congrArg sentChunks htrace).trans ?_
      rw [sentChunks_append,sentChunks_append,sentChunks_map,htr,List.append_nil]
    · refine (congrArg ConnStats.downloadBytes hstats).trans ?_
      rw [UInt64.zero_add]
      rfl
  · refine ⟨chunks.map .sentChunk ++ tr,?_,?_⟩
    · rw [← List.append_assoc]
      exact htrace
    · intro line hline
      rcases List.mem_append.mp hline with hline | hline
      · obtain ⟨c,-,hc⟩ := List.mem_map.mp hline
        cases hc
      · refine (hlines line hline).imp_right fun h => ⟨_,?_,h⟩
        exact hreached.trans (Nat.sub_le_sub_right (hclock (by omega)) _)

/-- The chunk streams of downloads and uploads are the same, whatever the random chunk holds. A
counted download sends as many chunks as it is asked for. With a clock that does not go back and
reaches the duration, a timed one sends a chunk for each reading below it and one more, and does
not report less than the duration. -/
theorem downloads_received (env : Env) {s : Nat} (hs : InRange s) {w : World Stream}
    (hw : w.stream.Faultless) {argChunk : Text} (hforce : InForce argChunk w.chunkSize s) :
    (∀ (argCount : Text) (count : Nat), parseBounded argCount maxChunks = some count →
      Delivers s count w (final (handleGetchunks env argCount argChunk w))) ∧
    ∀ (argSecs : Text) (seconds : Nat), parseBounded argSecs maxSeconds = some seconds →
      Monotone w.instants → (∃ i, seconds * 1000000000 ≤ w.instants (i+1) - w.instants 0) →
      ∃ below, (∀ i, i < below ↔ w.instants (i+1) - w.instants 0 < seconds * 1000000000) ∧
        ∀ fuel, below < fuel →
          let w' := final (handleGettime env argSecs argChunk fuel w)
          Delivers s (below+1) w w' ∧
            ∃ tr, w'.trace = w.trace ++ tr ∧ ∀ line : Text, .sentLine line ∈ tr →
              line = "ERR\n" ∨ ∃ t, seconds * 1000000000 ≤ t ∧ line = timeLine t := by
  constructor
  · intro argCount count hcount
    exact handleGetchunks_delivers env hs hw hforce hcount
  · intro argSecs seconds hseconds hclock hreached
    have hbelow : ∀ i, i < Nat.find hreached ↔
        w.instants (i+1) - w.instants 0 < seconds * 1000000000 := by
      intro i
      constructor
      · intro hi
        exact Nat.not_le.mp (Nat.find_min hreached hi)
      · intro hi
        by_contra hle
        have hle : w.instants (Nat.find hreached + 1) ≤ w.instants (i+1) :=
          hclock (Nat.succ_le_succ (Nat.not_lt.mp hle))
        have hfound : seconds * 1000000000 ≤ w.instants (Nat.find hreached + 1) - w.instants 0 :=
          Nat.find_spec hreached
        omega
    refine ⟨Nat.find hreached,hbelow,?_⟩
    intro fuel hfuel
    exact handleGettime_delivers env hs hw hforce hseconds hclock (fun i hi => (hbelow i).mp hi)
      (Nat.find_spec hreached) hfuel

theorem downloads_received_golden :
    let w := World.start (Stream.raw ⟨utf8 "OK\n",none,[],[],none⟩) (· * 300000000) fun _ => 0
    Delivers 4096 2 w (final (handleGetchunks goldenEnv "2" [] w)) ∧
      ∃ below, Delivers 4096 (below+1) w (final (handleGettime goldenEnv "1" [] 5 w)) := by
  intro w
  have hs : InRange 4096 := ⟨le_refl _,by decide⟩
  have hw : w.stream.Faultless := rfl
  have hforce : InForce [] w.chunkSize 4096 := inForce_nil 4096
  obtain ⟨hcounted,htimed⟩ := downloads_received goldenEnv hs hw hforce
  refine ⟨hcounted "2" 2 (by decide),?_⟩
  have hclock : Monotone w.instants := fun i j hij => Nat.mul_le_mul_right _ hij
  obtain ⟨below,hbelow,hrun⟩ := htimed "1" 1 (by decide) hclock ⟨3,by decide⟩
  have hlt : below < 5 := by
    by_contra hle
    have h := (hbelow 4).mp (by omega)
    exact absurd h (by decide)
  exact ⟨below,(hrun 5 hlt).1⟩

end Rmbtd
