import Rmbtd.Protocol.Commands
import Rmbtd.Stream.Messages

/-!
# Uploads

What `handle_put` receives depends only on how the transport serves reads of the chunk size. A raw
connection serves the bytes in order. A WebSocket serves each read from whole messages and drops
what the last of them holds beyond the read, so it serves the chunks of an upload exactly when no
message reaches from one chunk into the next.
-/

namespace Rmbtd

open Effect Session

/-! ## Reads of one size -/

/-- The chunks received up to the first that ends in `0xFF`, where `pull` serves one read. -/
def receive {υ : Type} (pull : υ → Option (Bytes × υ)) : Nat → υ → Option (List Bytes)
  | 0, _ => none
  | fuel+1, v => match pull v with
    | none => none
    | some (b,v) => if b.getLast? = some 0xFF then some [b] else (receive pull fuel v).map (b::·)

/-- The chunks of an upload: each of the size `s`, and exactly the last ends in `0xFF`. -/
inductive Upload (s : Nat) : List Bytes → Prop
  | last {c : Bytes} (length : c.length = s) (mark : c.getLast? = some 0xFF) : Upload s [c]
  | cons {c : Bytes} {chunks : List Bytes} (length : c.length = s) (mark : c.getLast? ≠ some 0xFF)
      (rest : Upload s chunks) : Upload s (c::chunks)

theorem Upload.flatten_length {s : Nat} {chunks : List Bytes} (h : Upload s chunks) :
    chunks.flatten.length = chunks.length * s := by
  induction h with
  | last length _ => simp [length]
  | cons length _ _ ih =>
    simp only [List.flatten_cons,List.length_append,length,ih,List.length_cons,Nat.succ_mul]
    omega

/-! ### Raw connections -/

def pullBytes (s : Nat) (input : Bytes) : Option (Bytes × Bytes) :=
  if s ≤ input.length then some (input.take s,input.drop s) else none

theorem receive_pullBytes {s : Nat} {chunks : List Bytes} (h : Upload s chunks) {fuel : Nat}
    (hfuel : chunks.length ≤ fuel) : receive (pullBytes s) fuel chunks.flatten = some chunks := by
  induction h generalizing fuel with
  | @last c length mark =>
    cases fuel with
    | zero => simp at hfuel
    | succ fuel =>
      have hpull : pullBytes s [c].flatten = some (c,[]) := by
        subst length
        simp [pullBytes]
      rw [receive,hpull]
      exact if_pos mark
  | @cons c chunks length mark rest ih =>
    cases fuel with
    | zero => simp at hfuel
    | succ fuel =>
      have hpull : pullBytes s (c::chunks).flatten = some (c,chunks.flatten) := by
        subst length
        simp [pullBytes]
      rw [receive,hpull]
      simp only [if_neg mark,ih (Nat.le_of_succ_le_succ hfuel),Option.map_some]

/-! ### WebSockets -/

namespace WebSocket

/-- How a WebSocket serves a read of `s` bytes. -/
def pullMessages (end_ : WsError) (s : Nat) (messages : List Message) :
    Option (Bytes × List Message) :=
  match fill end_ s messages with
  | (.ok b,rest) => some (b,rest)
  | (.error _,_) => none

/-- The messages can be grouped, in order, so that each group carries one chunk: no message
reaches from one chunk into the next. -/
def Aligned (chunks : List Bytes) (messages : List Message) : Prop :=
  ∃ groups : List (List Message), groups.flatten = messages ∧ groups.map data = chunks

private theorem Aligned.append_left {c : Bytes} {chunks : List Bytes} {messages left : List Message}
    (h : Aligned (c::chunks) messages) (hleft : data left = []) :
    Aligned (c::chunks) (left ++ messages) := by
  obtain ⟨groups,rfl,hgroups⟩ := h
  cases groups with
  | nil => cases hgroups
  | cons g groups =>
    simp only [List.map_cons,List.cons.injEq] at hgroups
    refine ⟨(left ++ g)::groups,by simp,?_⟩
    simp only [List.map_cons,data_append,hleft,List.nil_append,hgroups.1,hgroups.2]

theorem receive_of_aligned (end_ : WsError) {s : Nat} {chunks : List Bytes} (h : Upload s chunks)
    {messages : List Message} (hclose : .close ∉ messages) (hal : Aligned chunks messages)
    {fuel : Nat} (hfuel : chunks.length ≤ fuel) :
    receive (pullMessages end_ s) fuel messages = some chunks := by
  have hfirst {c : Bytes} {cs : List Bytes} {messages : List Message} (length : c.length = s)
      (hclose : .close ∉ messages) (hal : Aligned (c::cs) messages) :
      ∃ rest, pullMessages end_ s messages = some (c,rest) ∧ .close ∉ rest ∧
        (cs ≠ [] → Aligned cs rest) := by
    obtain ⟨groups,rfl,hgroups⟩ := hal
    cases groups with
    | nil => cases hgroups
    | cons g groups =>
      simp only [List.map_cons,List.cons.injEq] at hgroups
      obtain ⟨rfl,hgroups⟩ := hgroups
      simp only [List.flatten_cons,List.mem_append,not_or] at hclose
      obtain ⟨left,hsuffix,hleft,hf⟩ := fill_exact end_ groups.flatten hclose.1
      have hclose' : .close ∉ left := fun hmem => hclose.1 (hsuffix.subset hmem)
      refine ⟨left ++ groups.flatten,?_,by simp [hclose',hclose.2],?_⟩
      · rw [← length,pullMessages,List.flatten_cons,hf]
      · intro hne
        cases cs with
        | nil => exact absurd rfl hne
        | cons c cs => exact Aligned.append_left ⟨groups,rfl,hgroups⟩ hleft
  induction h generalizing messages fuel with
  | last length mark =>
    cases fuel with
    | zero => simp at hfuel
    | succ fuel =>
      obtain ⟨rest,hpull,-⟩ := hfirst length hclose hal
      rw [receive,hpull]
      exact if_pos mark
  | @cons c chunks length mark rest ih =>
    cases fuel with
    | zero => simp at hfuel
    | succ fuel =>
      obtain ⟨messages',hpull,hclose',hal'⟩ := hfirst length hclose hal
      have hne : chunks ≠ [] := by
        rintro rfl
        cases rest
      rw [receive,hpull]
      simp only [if_neg mark,ih hclose' (hal' hne) (Nat.le_of_succ_le_succ hfuel),Option.map_some]

private theorem pullMessages_some {end_ : WsError} {s : Nat} {messages rest : List Message}
    {b : Bytes} (h : pullMessages end_ s messages = some (b,rest)) :
    fill end_ s messages = (.ok b,rest) := by
  unfold pullMessages at h
  split at h
  · next hf =>
    cases h
    exact hf
  · cases h

private theorem pullMessages_length {end_ : WsError} {s : Nat} {messages rest : List Message}
    {b : Bytes} (h : pullMessages end_ s messages = some (b,rest)) : b.length = s := by
  obtain ⟨used,-,rfl,hs⟩ := fill_ok (pullMessages_some h)
  rw [List.length_take]
  omega

private theorem receive_cases {υ : Type} {pull : υ → Option (Bytes × υ)} {fuel : Nat} {v : υ}
    {chunks : List Bytes} (h : receive pull (fuel+1) v = some chunks) :
    ∃ b v', pull v = some (b,v') ∧
      (chunks = [b] ∨ ∃ cs, receive pull fuel v' = some cs ∧ chunks = b::cs) := by
  rw [receive] at h
  split at h
  · cases h
  · next b v' hpull =>
    refine ⟨b,v',hpull,?_⟩
    split at h
    · exact Or.inl (Option.some.inj h).symm
    · obtain ⟨cs,hcs,hb⟩ := Option.map_eq_some_iff.mp h
      exact Or.inr ⟨cs,hcs,hb.symm⟩

theorem aligned_of_receive {end_ : WsError} {s : Nat} {chunks : List Bytes} {fuel : Nat}
    {messages : List Message} (h : receive (pullMessages end_ s) fuel messages = some chunks)
    (hlen : (data messages).length ≤ chunks.length * s) :
    Aligned chunks messages ∧ (data messages).length = chunks.length * s := by
  induction fuel generalizing messages chunks with
  | zero => cases h
  | succ fuel ih =>
    obtain ⟨b,rest,hpull,hchunks⟩ := receive_cases h
    obtain ⟨used,rfl,rfl,hs⟩ := fill_ok (pullMessages_some hpull)
    have hused (heq : (data used).length = s) : (data used).take s = data used :=
      List.take_of_length_le (le_of_eq heq)
    rw [data_append,List.length_append] at hlen ⊢
    rcases hchunks with rfl | ⟨cs,hcs,rfl⟩
    · rw [List.length_singleton,Nat.one_mul] at hlen ⊢
      have hrest : data rest = [] := List.length_eq_zero_iff.mp (by omega)
      refine ⟨⟨[used ++ rest],by simp,?_⟩,by omega⟩
      rw [List.map_singleton,data_append,hrest,List.append_nil,hused (by omega)]
    · rw [List.length_cons,Nat.succ_mul] at hlen ⊢
      obtain ⟨⟨groups,rfl,hgroups⟩,hlen'⟩ := ih hcs (by omega)
      refine ⟨⟨used::groups,rfl,?_⟩,by omega⟩
      rw [List.map_cons,hgroups,hused (by omega)]

end WebSocket

/-! ## The upload handler -/

def uploads (tr : List Event) : List Bytes :=
  tr.filterMap fun e => match e with
    | .receivedChunk b => some b
    | _ => none

@[simp] theorem uploads_append (a b : List Event) : uploads (a ++ b) = uploads a ++ uploads b :=
  List.filterMap_append

/-- A stream whose writes succeed and leave alone what reads of the size `s` are served from. -/
structure Supply {σ υ : Type} [LineStream σ] (good : σ → Prop) (view : σ → υ)
    (pull : υ → Option (Bytes × υ)) (s : Nat) : Prop where
  write : ∀ st data, good st →
    ∃ st', LineStream.writeAll data st = .ok () st' ∧ good st' ∧ view st' = view st
  read : ∀ st, good st → match pull (view st) with
    | some (b,v) => b.length = s ∧
        ∃ st', LineStream.readExact s st = .ok b st' ∧ good st' ∧ view st' = v
    | none => ∃ e st', LineStream.readExact s st = .error e st'

theorem supply_raw (s : Nat) :
    Supply (fun conn : RawConn => conn.faults = []) RawConn.input (pullBytes s) s where
  write := by
    intro conn data hgood
    refine ⟨{ conn with output := conn.output ++ data },?_,hgood,rfl⟩
    change RawConn.writeAll data conn = _
    rw [RawConn.writeAll,hgood]
    rfl
  read := by
    intro conn hgood
    by_cases hs : s ≤ conn.input.length
    · rw [pullBytes,if_pos hs]
      refine ⟨List.length_take_of_le hs,{ conn with input := conn.input.drop s },?_,hgood,rfl⟩
      exact if_pos hs
    · rw [pullBytes,if_neg hs]
      change ∃ e st', RawConn.readExact s conn = .error e st'
      rw [RawConn.readExact]
      simp only [if_neg hs]
      cases conn.inputEnd with
      | some e => exact ⟨e,_,rfl⟩
      | none => exact ⟨_,_,rfl⟩

theorem supply_webSocket (end_ : WsError) (s : Nat) :
    Supply (fun ws : WebSocket => ws.faults = [] ∧ ws.incomingEnd = end_) WebSocket.incoming
      (WebSocket.pullMessages end_ s) s where
  write := by
    rintro ws data ⟨hgood,hend⟩
    refine ⟨{ ws with sent := ws.sent ++ [WebSocket.framed data] },?_,⟨hgood,hend⟩,rfl⟩
    change WebSocket.writeAll data ws = _
    rw [WebSocket.writeAll,hgood]
    rfl
  read := by
    rintro ws ⟨hgood,hend⟩
    subst hend
    cases hp : WebSocket.pullMessages ws.incomingEnd s ws.incoming with
    | some pulled =>
      obtain ⟨b,rest⟩ := pulled
      refine ⟨WebSocket.pullMessages_length hp,{ ws with incoming := rest },?_,⟨hgood,rfl⟩,rfl⟩
      change WebSocket.readExact s ws = _
      rw [WebSocket.readExact,WebSocket.pullMessages_some hp]
    | none =>
      change ∃ e st', WebSocket.readExact s ws = .error e st'
      cases hf : WebSocket.fill ws.incomingEnd s ws.incoming with
      | mk filled rest =>
        rw [WebSocket.pullMessages,hf] at hp
        cases filled with
        | ok b => cases hp
        | error e =>
          refine ⟨e,{ ws with incoming := rest },?_⟩
          rw [WebSocket.readExact,hf]

section
variable {σ υ : Type} [LineStream σ] {good : σ → Prop} {view : σ → υ}
variable {pull : υ → Option (Bytes × υ)} {s : Nat}

/-- The states of an upload of chunks of the size `s`: the reads still to come are served from `v`,
and `got` has been received. -/
structure Serving (good : σ → Prop) (view : σ → υ) (s : Nat) (stats : ConnStats) (v : υ)
    (got : List Bytes) (w : World σ) : Prop where
  good : good w.stream
  view_eq : view w.stream = v
  got_eq : uploads w.trace = got
  stats_eq : w.stats = stats
  size_eq : w.chunkSize = s

/-- An upload handler that succeeds and receives and accounts for exactly these chunks. -/
def Receives (handler : Session σ Unit) (w : World σ) (chunks : List Bytes) : Prop :=
  ∃ w', handler w = .ok () w' ∧ uploads w'.trace = uploads w.trace ++ chunks ∧
    w'.stats.uploadBytes = w.stats.uploadBytes + UInt64.ofNat chunks.flatten.length

variable {stats : ConnStats} {v : υ} {got : List Bytes}

omit [LineStream σ] in
private theorem serving_instant {E : Stop → World σ → Prop} :
    Triple (Serving good view s stats v got) instant (fun _ => Serving good view s stats v got) E :=
  fun _ hw => ⟨hw.good,hw.view_eq,hw.got_eq,hw.stats_eq,hw.size_eq⟩

omit [LineStream σ] in
private theorem serving_elapsed {E : Stop → World σ → Prop} (start : Nat) :
    Triple (Serving good view s stats v got) (elapsed start)
      (fun _ => Serving good view s stats v got) E :=
  serving_instant.bind fun _ => .pure fun _ hw => hw

variable (h : Supply good view pull s)
include h

private theorem serving_writeLine {E : Stop → World σ → Prop} (line : Text) :
    Triple (Serving good view s stats v got) (writeLine line)
      (fun _ => Serving good view s stats v got) E := by
  intro w hw
  obtain ⟨st,hst,hgood,hview⟩ := h.write w.stream (utf8 line) hw.good
  rw [writeLine_ok hst]
  refine ⟨hgood,hview.trans hw.view_eq,?_,hw.stats_eq,hw.size_eq⟩
  rw [uploads_append,hw.got_eq]
  exact List.append_nil _

private theorem serving_readExact :
    Triple (Serving good view s stats v got) (readExact s)
      (fun b w => ∃ v', pull v = some (b,v') ∧ b.length = s ∧
        Serving good view s stats v' (got ++ [b]) w) (fun _ _ => pull v = none) := by
  intro w hw
  have hread := h.read w.stream hw.good
  rw [hw.view_eq] at hread
  cases hp : pull v with
  | some pulled =>
    obtain ⟨b,v'⟩ := pulled
    rw [hp] at hread
    obtain ⟨hlen,st,hst,hgood,hview⟩ := hread
    rw [readExact_ok hst]
    refine ⟨v',rfl,hlen,hgood,hview,?_,hw.stats_eq,hw.size_eq⟩
    rw [uploads_append,hw.got_eq]
    rfl
  | none =>
    rw [hp] at hread
    obtain ⟨e,st,hst⟩ := hread
    rw [readExact_error hst]

private theorem serving_report {E : Stop → World σ → Prop} (start : Nat) (total : UInt64)
    (lastReport : Int) :
    Triple (Serving good view s stats v got) (report start total lastReport)
      (fun _ => Serving good view s stats v got) E := by
  apply (serving_elapsed start).bind
  intro ns
  split
  · exact (serving_writeLine h _).bind fun _ => .pure fun _ hw => hw
  · exact .pure fun _ hw => hw

private theorem serving_receiveChunks (hs : 0 < s) (start : Nat) (sendIntermediate : Bool)
    (fuel : Nat) (total : UInt64) (lastReport : Int) :
    Triple (Serving good view s stats v got)
      (receiveChunks start sendIntermediate fuel total lastReport)
      (fun t w => ∃ chunks v', receive pull fuel v = some chunks ∧
        t = total + UInt64.ofNat (chunks.length * s) ∧
        Serving good view s stats v' (got ++ chunks) w)
      (fun _ _ => receive pull fuel v = none) := by
  induction fuel generalizing total lastReport v got with
  | zero => exact .throw fun _ _ => rfl
  | succ fuel ih =>
    have hsize : Triple (Serving good view s stats v got) chunkSize
        (fun n w => n = s ∧ Serving good view s stats v got w)
        (fun _ _ => receive pull (fuel+1) v = none) := fun w hw => ⟨hw.size_eq,hw⟩
    apply hsize.bind
    intro n w hw
    obtain ⟨rfl,hw⟩ := hw
    revert w
    apply Triple.bind ((serving_readExact h).mono (fun _ hw => hw) (fun _ _ hw => hw) ?_)
    · intro b w hw
      obtain ⟨v',hpull,hlen,hw⟩ := hw
      revert w
      have hlast : b[n-1]? = b.getLast? := by rw [List.getLast?_eq_getElem?,hlen]
      rw [hlast]
      cases hb : b.getLast? with
      | none =>
        rw [List.getLast?_eq_none_iff.mp hb] at hlen
        exact absurd hlen (by simp; omega)
      | some lastByte =>
        have htail (r : Int) : Triple (Serving good view n stats v' (got ++ [b]))
            (if lastByte = 0xFF then pure (total + UInt64.ofNat n)
              else receiveChunks start sendIntermediate fuel (total + UInt64.ofNat n) r)
            (fun t w => ∃ chunks v', receive pull (fuel+1) v = some chunks ∧
              t = total + UInt64.ofNat (chunks.length * n) ∧
              Serving good view n stats v' (got ++ chunks) w)
            (fun _ _ => receive pull (fuel+1) v = none) := by
          by_cases hend : lastByte = 0xFF
          · rw [if_pos hend]
            refine .pure fun w hw => ⟨[b],v',?_,by simp,hw⟩
            rw [receive,hpull]
            exact if_pos (by rw [hb,hend])
          · have hmore : receive pull (fuel+1) v = (receive pull fuel v').map (b::·) := by
              rw [receive,hpull]
              exact if_neg (by rw [hb]; simpa using hend)
            rw [if_neg hend]
            refine (ih (total + UInt64.ofNat n) r).mono (fun _ hw => hw) ?_ ?_
            · rintro t w ⟨chunks,v'',hchunks,rfl,hw⟩
              refine ⟨b::chunks,v'',by rw [hmore,hchunks]; rfl,?_,by simpa using hw⟩
              rw [List.length_cons,Nat.succ_mul,Nat.add_comm (chunks.length * n),UInt64.ofNat_add,
                UInt64.add_assoc]
            · intro _ _ hnone
              rw [hmore,hnone]
              rfl
        dsimp only
        split
        · exact (serving_report h start _ lastReport).bind htail
        · exact htail lastReport
    · intro _ _ hnone
      rw [receive,hnone]

/-- The chunk size in force once the optional argument of an upload is applied. -/
def InForce (argChunk : Text) (current s : Nat) : Prop :=
  if argChunk = [] then current = s else parseChunkSize argChunk maxChunkSize = some s

omit h [LineStream σ] in
theorem inForce_nil (s : Nat) : InForce [] s s := by
  rw [InForce,if_pos rfl]

private theorem serving_handlePut (hs : 0 < s) {argChunk : Text} {w : World σ}
    (hforce : InForce argChunk w.chunkSize s) (hgood : good w.stream) (sendIntermediate : Bool)
    (fuel : Nat) :
    Triple (fun w' => w' = w) (handlePut argChunk sendIntermediate fuel)
      (fun _ w' => ∃ chunks, receive pull fuel (view w.stream) = some chunks ∧
        uploads w'.trace = uploads w.trace ++ chunks ∧
        w'.stats.uploadBytes = w.stats.uploadBytes + UInt64.ofNat (chunks.length * s))
      (fun _ _ => receive pull fuel (view w.stream) = none) := by
  have hbody : Triple (Serving good view s w.stats (view w.stream) (uploads w.trace))
      (do
        writeLine "OK\n"
        let start ← instant
        let total ← receiveChunks start sendIntermediate fuel 0 (-2^127)
        let ns ← elapsed start
        updateStats (.addUpload total ns)
        writeLine (timeLine ns))
      (fun _ w' => ∃ chunks, receive pull fuel (view w.stream) = some chunks ∧
        uploads w'.trace = uploads w.trace ++ chunks ∧
        w'.stats.uploadBytes = w.stats.uploadBytes + UInt64.ofNat (chunks.length * s))
      (fun _ _ => receive pull fuel (view w.stream) = none) := by
    apply (serving_writeLine h _).bind
    intro _
    apply serving_instant.bind
    intro start
    apply (serving_receiveChunks h hs start sendIntermediate fuel 0 _).bind
    intro total w' hw'
    obtain ⟨chunks,v,hchunks,htotal,hw'⟩ := hw'
    revert w'
    apply (serving_elapsed start).bind
    intro ns
    have hupdate : Triple (Serving good view s w.stats v (uploads w.trace ++ chunks))
        (updateStats (.addUpload total ns))
        (fun _ => Serving good view s (w.stats.addUpload total ns) v (uploads w.trace ++ chunks))
        (fun _ _ => receive pull fuel (view w.stream) = none) :=
      fun w' hw' => ⟨hw'.good,hw'.view_eq,hw'.got_eq,congrArg (ConnStats.addUpload total ns) hw'.stats_eq,hw'.size_eq⟩
    apply hupdate.bind
    intro _
    refine (serving_writeLine h _).mono (fun _ hw => hw) ?_ fun _ _ he => he
    intro _ w' hw'
    refine ⟨chunks,hchunks,hw'.got_eq,?_⟩
    rw [hw'.stats_eq,← UInt64.zero_add (UInt64.ofNat _),← htotal]
    rfl
  unfold handlePut withChunkSize
  unfold InForce at hforce
  by_cases harg : argChunk = []
  · rw [if_pos harg] at hforce ⊢
    refine hbody.mono ?_ (fun _ _ hw => hw) fun _ _ he => he
    rintro _ rfl
    exact ⟨hgood,rfl,rfl,rfl,hforce⟩
  · rw [if_neg harg] at hforce ⊢
    rw [hforce]
    apply Triple.bind (R := fun _ => Serving good view s w.stats (view w.stream) (uploads w.trace))
    · rintro _ rfl
      exact ⟨hgood,rfl,rfl,rfl,rfl⟩
    · exact fun _ => hbody

theorem receives_iff (hs : 0 < s) {argChunk : Text} {w : World σ}
    (hforce : InForce argChunk w.chunkSize s) (hgood : good w.stream) (sendIntermediate : Bool)
    (fuel : Nat) {chunks : List Bytes} (hlen : chunks.flatten.length = chunks.length * s) :
    Receives (handlePut argChunk sendIntermediate fuel) w chunks ↔
      receive pull fuel (view w.stream) = some chunks := by
  have hrun := serving_handlePut h hs hforce hgood sendIntermediate fuel w rfl
  constructor
  · rintro ⟨w',hw',htrace,-⟩
    rw [hw'] at hrun
    obtain ⟨chunks',hchunks,htrace',-⟩ := hrun
    rw [htrace,List.append_cancel_left_eq] at htrace'
    rw [hchunks,htrace']
  · intro hchunks
    cases hw : handlePut argChunk sendIntermediate fuel w with
    | ok a w' =>
      rw [hw] at hrun
      obtain ⟨chunks',hchunks',htrace,hbytes⟩ := hrun
      rw [hchunks] at hchunks'
      cases hchunks'
      exact ⟨w',hw,htrace,by rw [hlen]; exact hbytes⟩
    | error e w' =>
      rw [hw] at hrun
      rw [hchunks] at hrun
      cases hrun

end

/-! ## Both transports -/

/-- Over a WebSocket the handler receives an upload exactly when its messages are aligned. -/
theorem receives_webSocket_iff {s : Nat} {chunks : List Bytes} {messages : List Message}
    (hs : 0 < s) (hup : Upload s chunks) (hclose : .close ∉ messages)
    (hdata : WebSocket.data messages = chunks.flatten) {argChunk : Text} {w : World WebSocket}
    (hforce : InForce argChunk w.chunkSize s) (hin : w.stream.incoming = messages)
    (hgood : w.stream.faults = []) (sendIntermediate : Bool) {fuel : Nat}
    (hfuel : chunks.length ≤ fuel) :
    Receives (handlePut argChunk sendIntermediate fuel) w chunks ↔
      WebSocket.Aligned chunks messages := by
  have hlen := hup.flatten_length
  rw [receives_iff (supply_webSocket w.stream.incomingEnd s) hs hforce ⟨hgood,rfl⟩
    sendIntermediate fuel hlen,hin]
  constructor
  · intro h
    exact (WebSocket.aligned_of_receive h (by rw [hdata,hlen])).1
  · intro h
    exact WebSocket.receive_of_aligned _ hup hclose h hfuel

/-- The chunks of an upload reach the handler over a raw connection. Over a WebSocket they do
exactly when no message reaches from one chunk into the next. -/
theorem handlePut_receives_iff {s : Nat} {chunks : List Bytes} {messages : List Message}
    (hmin : minChunkSize ≤ s) (hup : Upload s chunks) (hclose : .close ∉ messages)
    (hdata : WebSocket.data messages = chunks.flatten) {argChunk : Text}
    {raw : World RawConn} (hraw : InForce argChunk raw.chunkSize s)
    (hinput : raw.stream.input = chunks.flatten) (hrawFaults : raw.stream.faults = [])
    {ws : World WebSocket} (hws : InForce argChunk ws.chunkSize s)
    (hincoming : ws.stream.incoming = messages) (hwsFaults : ws.stream.faults = [])
    (sendIntermediate : Bool) {fuel : Nat} (hfuel : chunks.length ≤ fuel) :
    Receives (handlePut argChunk sendIntermediate fuel) raw chunks ∧
      (Receives (handlePut argChunk sendIntermediate fuel) ws chunks ↔
        WebSocket.Aligned chunks messages) := by
  have hs : 0 < s := lt_of_lt_of_le (by decide) hmin
  constructor
  · rw [receives_iff (supply_raw s) hs hraw hrawFaults sendIntermediate fuel hup.flatten_length,
      hinput]
    exact receive_pullBytes hup hfuel
  · exact receives_webSocket_iff hs hup hclose hdata hws hincoming hwsFaults sendIntermediate hfuel

/-! ### Two chunks in one message -/

def zeroChunk (mark : UInt8) : Bytes := List.replicate 4095 0 ++ [mark]

theorem zeroChunk_length (mark : UInt8) : (zeroChunk mark).length = 4096 := by
  rw [zeroChunk,List.length_append,List.length_replicate]
  rfl

theorem zeroChunk_getLast? (mark : UInt8) : (zeroChunk mark).getLast? = some mark := by
  unfold zeroChunk
  exact List.getLast?_concat

theorem upload_zeroChunks : Upload 4096 [zeroChunk 0x00,zeroChunk 0xFF] :=
  .cons (zeroChunk_length _) (by rw [zeroChunk_getLast?]; decide)
    (.last (zeroChunk_length _) (zeroChunk_getLast? _))

theorem handlePut_receives_iff_aligned :
    Receives (handlePut [] true 2)
      (World.start (⟨[.binary (zeroChunk 0x00),.ping,.binary (zeroChunk 0xFF)],.protocol "",[],[],
        none⟩ : WebSocket) id fun _ => 0) [zeroChunk 0x00,zeroChunk 0xFF] := by
  have hdata : WebSocket.data [.binary (zeroChunk 0x00),.ping,.binary (zeroChunk 0xFF)] =
      [zeroChunk 0x00,zeroChunk 0xFF].flatten := by simp [WebSocket.payload]
  have hinput : (World.start (⟨[zeroChunk 0x00,zeroChunk 0xFF].flatten,none,[],[],none⟩ : RawConn)
      id fun _ => 0).stream.input = [zeroChunk 0x00,zeroChunk 0xFF].flatten := rfl
  refine (handlePut_receives_iff (le_refl _) upload_zeroChunks (by simp) hdata (inForce_nil _) hinput
    rfl (inForce_nil _) rfl rfl true (le_refl _)).2.mpr ?_
  exact ⟨[[.binary (zeroChunk 0x00)],[.ping,.binary (zeroChunk 0xFF)]],rfl,
    by simp [WebSocket.payload]⟩

private theorem not_aligned_singleton {c d : Bytes} (hc : c ≠ []) (hd : d ≠ []) (m : Message) :
    ¬WebSocket.Aligned [c,d] [m] := by
  rintro ⟨groups,hflat,hmap⟩
  match groups,hmap with
  | [g,g'],hmap =>
    simp only [List.map_cons,List.map_nil,List.cons.injEq,and_true] at hmap
    obtain ⟨rfl,rfl⟩ := hmap
    simp only [List.flatten_cons,List.flatten_nil,List.append_nil] at hflat
    rcases List.append_eq_singleton_iff.mp hflat with ⟨rfl,-⟩ | ⟨-,rfl⟩
    · exact hc rfl
    · exact hd rfl

/-- With both chunks in one message, the second is dropped with the rest of the message. -/
theorem handlePut_drops_second_chunk :
    let chunks := [zeroChunk 0x00,zeroChunk 0xFF]
    let messages : List Message := [.binary (zeroChunk 0x00 ++ zeroChunk 0xFF)]
    Upload 4096 chunks ∧ WebSocket.data messages = chunks.flatten ∧
      Receives (handlePut [] true 2)
        (World.start (⟨chunks.flatten,none,[],[],none⟩ : RawConn) id fun _ => 0) chunks ∧
      ¬Receives (handlePut [] true 2)
        (World.start (⟨messages,.protocol "",[],[],none⟩ : WebSocket) id fun _ => 0) chunks := by
  intro chunks messages
  have hne (mark : UInt8) : zeroChunk mark ≠ [] := by
    intro h
    have hlen := zeroChunk_length mark
    rw [h] at hlen
    cases hlen
  have hdata : WebSocket.data messages = chunks.flatten := by
    simp [messages,chunks,WebSocket.payload]
  refine ⟨upload_zeroChunks,hdata,?_,?_⟩
  · apply (receives_iff (supply_raw 4096) (by decide) (inForce_nil _) rfl true 2
      upload_zeroChunks.flatten_length).mpr
    exact receive_pullBytes upload_zeroChunks (le_refl _)
  · intro hreceives
    have hal := (receives_webSocket_iff (by decide) upload_zeroChunks (by simp [messages]) hdata
      (inForce_nil _) rfl rfl true (le_refl 2)).mp hreceives
    exact not_aligned_singleton (hne _) (hne _) _ hal

end Rmbtd
