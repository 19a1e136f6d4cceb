import Rmbtd.Protocol.Framing

/-!
# Feedback on uploads

The reports `handle_put` writes while an upload is going on. Which chunks are reported is decided by
a throttle, from the times at which they were there. The handler writes what the throttle decides,
and without these reports it does what `PUTNORESULT` does. The bytes so far are a `u64`, which a
release build lets wrap.
-/

namespace Rmbtd

open Effect Session

/-! ## The throttle -/

/-- A chunk of an upload: the time at which it was there, the bytes up to it and whether they are
reported. -/
structure Mark where
  time : Nat
  bytes : UInt64
  reported : Bool
deriving DecidableEq

/-- A report is due a millisecond after the last one, or if there was none. -/
def Due (last : Option Nat) (t : Nat) : Prop := ∀ l ∈ last, l + 1000000 ≤ t

instance (last : Option Nat) (t : Nat) : Decidable (Due last t) :=
  inferInstanceAs (Decidable (∀ l ∈ last, _))

/-- The marks of chunks of the size `s` that were there at these times. -/
def throttle (s : Nat) : UInt64 → Option Nat → List Nat → List Mark
  | _, _, [] => []
  | total, last, t::ts =>
    let total := total + UInt64.ofNat s
    if Due last t then ⟨t,total,true⟩::throttle s total (some t) ts
    else ⟨t,total,false⟩::throttle s total last ts

def lastReport (last : Option Nat) (marks : List Mark) : Option Nat :=
  marks.foldl (fun l m => if m.reported then some m.time else l) last

def Silent (marks : List Mark) : Prop := ∀ m ∈ marks, m.reported = false

/-- The first chunk is reported, reports are a millisecond apart, and what is not reported was
there within a millisecond of the last report. -/
structure Throttled (marks : List Mark) : Prop where
  first : ∀ m ∈ marks.head?, m.reported = true
  gap : ∀ a m skipped m' c, marks = a ++ m::skipped ++ m'::c → m.reported = true → Silent skipped →
    m'.reported = true → m.time + 1000000 ≤ m'.time
  skip : ∀ a m' c, marks = a ++ m'::c → m'.reported = false →
    ∃ b m skipped, a = b ++ m::skipped ∧ m.reported = true ∧ Silent skipped ∧
      m'.time < m.time + 1000000

section
variable {s : Nat} {total : UInt64} {last : Option Nat} {ts : List Nat}

@[simp] theorem throttle_times : (throttle s total last ts).map Mark.time = ts := by
  induction ts generalizing total last with
  | nil => rfl
  | cons t ts ih =>
    rw [throttle]
    split <;> simp [ih]

@[simp] theorem throttle_length : (throttle s total last ts).length = ts.length := by
  induction ts generalizing total last with
  | nil => rfl
  | cons t ts ih =>
    rw [throttle]
    split <;> simp [ih]

private theorem throttle_cons (s : Nat) (total : UInt64) (last : Option Nat) (t : Nat) (ts : List Nat) :
    throttle s total last (t::ts) = ⟨t,total + UInt64.ofNat s,Due last t⟩::
      throttle s (total + UInt64.ofNat s) (if Due last t then some t else last) ts := by
  rw [throttle]
  split <;> simp_all

private theorem total_succ (total : UInt64) (s k : Nat) :
    total + UInt64.ofNat s + UInt64.ofNat (s * k) = total + UInt64.ofNat (s * (k + 1)) := by
  rw [Nat.mul_succ,Nat.add_comm (s * k),UInt64.ofNat_add,UInt64.add_assoc]

theorem throttle_bytes {i : Nat} (hi : i < (throttle s total last ts).length) :
    (throttle s total last ts)[i].bytes = total + UInt64.ofNat (s * (i + 1)) := by
  induction ts generalizing total last i with
  | nil => simp [throttle] at hi
  | cons t ts ih =>
    simp only [throttle_cons] at hi ⊢
    cases i with
    | zero => simp
    | succ i =>
      rw [List.getElem_cons_succ,← total_succ]
      exact ih (Nat.lt_of_succ_lt_succ hi)

/-- A chunk is reported exactly if a report is due. -/
theorem throttle_reported {a c : List Mark} {m : Mark} (h : throttle s total last ts = a ++ m::c) :
    m.reported = true ↔ Due (lastReport last a) m.time := by
  induction ts generalizing total last a with
  | nil => simp [throttle] at h
  | cons t ts ih =>
    rw [throttle] at h
    cases a with
    | nil =>
      split at h
      · next hdue =>
        cases h
        simpa [lastReport] using hdue
      · next hdue =>
        cases h
        simpa [lastReport] using hdue
    | cons x a =>
      split at h
      · obtain ⟨rfl,htail⟩ := List.cons.inj h
        simpa [lastReport] using ih htail
      · obtain ⟨rfl,htail⟩ := List.cons.inj h
        simpa [lastReport] using ih htail

end

private theorem lastReport_silent {last : Option Nat} {marks : List Mark} (h : Silent marks) :
    lastReport last marks = last := by
  induction marks with
  | nil => rfl
  | cons m marks ih =>
    have hm := h m List.mem_cons_self
    have hrest := ih fun x hx => h x (List.mem_cons_of_mem _ hx)
    simpa [lastReport,hm] using hrest

private theorem lastReport_some {a : List Mark} {l : Nat} (h : lastReport none a = some l) :
    ∃ b m skipped, a = b ++ m::skipped ∧ m.reported = true ∧ Silent skipped ∧ m.time = l := by
  induction a using List.reverseRecOn with
  | nil => cases h
  | append_singleton a x ih =>
    simp only [lastReport,List.foldl_append,List.foldl_cons,List.foldl_nil] at h
    cases hx : x.reported with
    | true =>
      simp only [hx,if_true,Option.some.injEq] at h
      exact ⟨a,x,[],rfl,hx,by simp [Silent],h⟩
    | false =>
      simp only [hx,Bool.false_eq_true,if_false] at h
      obtain ⟨b,m,skipped,rfl,hm,hsilent,hl⟩ := ih h
      refine ⟨b,m,skipped ++ [x],by simp,hm,?_,hl⟩
      intro y hy
      rcases List.mem_append.mp hy with hy | hy
      · exact hsilent y hy
      · rw [List.mem_singleton.mp hy]
        exact hx

theorem throttle_throttled (s : Nat) (total : UInt64) (ts : List Nat) :
    Throttled (throttle s total none ts) where
  first := by
    intro m hm
    obtain ⟨c,hc⟩ := List.head?_eq_some_iff.mp hm
    apply (throttle_reported (a := []) hc).mpr
    simp [Due,lastReport]
  gap := by
    intro a m skipped m' c h hm hskipped hm'
    have hlast : lastReport none (a ++ m::skipped) = some m.time := by
      have hafter : lastReport (some m.time) skipped = some m.time := lastReport_silent hskipped
      simpa [lastReport,hm] using hafter
    have hdue := (throttle_reported h).mp hm'
    rw [hlast] at hdue
    exact hdue _ rfl
  skip := by
    intro a m' c h hm'
    have hdue : ¬Due (lastReport none a) m'.time := by
      rw [← throttle_reported h]
      simp [hm']
    cases hlast : lastReport none a with
    | none => simp [hlast,Due] at hdue
    | some l =>
      obtain ⟨b,m,skipped,ha,hm,hsilent,rfl⟩ := lastReport_some hlast
      refine ⟨b,m,skipped,ha,hm,hsilent,?_⟩
      simpa [hlast,Due] using hdue

/-! ## Reads of a transport -/

/-- The reads from `v` on return these chunks and leave `v'`. -/
inductive Pulls {υ : Type} (pull : υ → Option (Bytes × υ)) : υ → List Bytes → υ → Prop
  | nil (v : υ) : Pulls pull v [] v
  | cons {v u v' : υ} {c : Bytes} {chunks : List Bytes} (read : pull v = some (c,u))
      (rest : Pulls pull u chunks v') : Pulls pull v (c::chunks) v'

/-- What reads of a stream are served from. -/
def Stream.unread : Stream → Bytes ⊕ WsError × List Message
  | .raw conn => .inl conn.input
  | .webSocket ws => .inr (ws.incomingEnd,ws.incoming)

def Stream.pull (s : Nat) :
    Bytes ⊕ WsError × List Message → Option (Bytes × (Bytes ⊕ WsError × List Message))
  | .inl input => (pullBytes s input).map fun p => (p.1,.inl p.2)
  | .inr (end_,messages) =>
    (WebSocket.pullMessages end_ s messages).map fun p => (p.1,.inr (end_,p.2))

theorem supply_stream (s : Nat) : Supply Stream.Faultless Stream.unread (Stream.pull s) s where
  write := by
    intro st data hgood
    cases st with
    | raw conn =>
      obtain ⟨conn',hwrite,hgood',hview⟩ := (supply_raw s).write conn data hgood
      refine ⟨.raw conn',?_,hgood',congrArg Sum.inl hview⟩
      change Stream.lift _ _ (.raw conn) = _
      rw [Stream.lift,hwrite]
    | webSocket ws =>
      obtain ⟨ws',hwrite,⟨hgood',hend⟩,hview⟩ :=
        (supply_webSocket ws.incomingEnd s).write ws data ⟨hgood,rfl⟩
      refine ⟨.webSocket ws',?_,hgood',by simp [Stream.unread,hend,hview]⟩
      change Stream.lift _ _ (.webSocket ws) = _
      rw [Stream.lift,hwrite]
  read := by
    intro st hgood
    cases st with
    | raw conn =>
      have hread := (supply_raw s).read conn hgood
      rw [Stream.unread,Stream.pull]
      cases hp : pullBytes s conn.input with
      | none =>
        rw [hp] at hread
        obtain ⟨e,conn',hread⟩ := hread
        refine ⟨e,.raw conn',?_⟩
        change Stream.lift _ _ (.raw conn) = _
        rw [Stream.lift,hread]
      | some p =>
        rw [hp] at hread
        obtain ⟨hlen,conn',hread,hgood',hview⟩ := hread
        refine ⟨hlen,.raw conn',?_,hgood',congrArg Sum.inl hview⟩
        change Stream.lift _ _ (.raw conn) = _
        rw [Stream.lift,hread]
    | webSocket ws =>
      have hread := (supply_webSocket ws.incomingEnd s).read ws ⟨hgood,rfl⟩
      rw [Stream.unread,Stream.pull]
      cases hp : WebSocket.pullMessages ws.incomingEnd s ws.incoming with
      | none =>
        rw [hp] at hread
        obtain ⟨e,ws',hread⟩ := hread
        refine ⟨e,.webSocket ws',?_⟩
        change Stream.lift _ _ (.webSocket ws) = _
        rw [Stream.lift,hread]
      | some p =>
        rw [hp] at hread
        obtain ⟨hlen,ws',hread,⟨hgood',hend⟩,hview⟩ := hread
        refine ⟨hlen,.webSocket ws',?_,hgood',by simp [Stream.unread,hend,hview]⟩
        change Stream.lift _ _ (.webSocket ws) = _
        rw [Stream.lift,hread]

theorem pulls_raw {s : Nat} {chunks : List Bytes} (h : Upload s chunks) (rest : Bytes) :
    Pulls (Stream.pull s) (.inl (chunks.flatten ++ rest)) chunks (.inl rest) := by
  have hpull (c r : Bytes) (length : c.length = s) :
      Stream.pull s (.inl (c ++ r)) = some (c,.inl r) := by
    subst length
    simp [Stream.pull,pullBytes]
  induction h with
  | @last c length mark =>
    simpa using Pulls.cons (hpull c rest length) (.nil _)
  | @cons c chunks length mark _ ih =>
    rw [List.flatten_cons,List.append_assoc]
    exact .cons (hpull c _ length) ih

open WebSocket in
private theorem pulls_groups {s : Nat} {chunks : List Bytes} (h : Upload s chunks) (end_ : WsError)
    {groups : List (List Message)} (hgroups : groups.map data = chunks)
    (hclose : .close ∉ groups.flatten) {left : List Message} (hleft : data left = [])
    (hclose' : .close ∉ left) (rest : List Message) :
    ∃ left', data left' = [] ∧
      Pulls (Stream.pull s) (.inr (end_,left ++ groups.flatten ++ rest)) chunks
        (.inr (end_,left' ++ rest)) := by
  have hpull {c : Bytes} {g left r : List Message} (length : c.length = s) (hc : data g = c)
      (hleft : data left = []) (hclose : .close ∉ left ++ g) :
      ∃ left', left' <:+ left ++ g ∧ data left' = [] ∧
        Stream.pull s (.inr (end_,left ++ g ++ r)) = some (c,.inr (end_,left' ++ r)) := by
    obtain ⟨left',hsuffix,hleft',hfill⟩ := fill_exact end_ r hclose
    have hdata : data (left ++ g) = c := by simp [data_append,hleft,hc]
    refine ⟨left',hsuffix,hleft',?_⟩
    rw [hdata,length] at hfill
    rw [Stream.pull,pullMessages,hfill]
    rfl
  induction h generalizing groups left with
  | @last c length mark =>
    obtain ⟨g,rfl,hg⟩ := List.map_eq_singleton_iff.mp hgroups
    have hnone : .close ∉ left ++ g := by simp_all
    obtain ⟨left',-,hdata,hpull⟩ := hpull (r := rest) length hg hleft hnone
    exact ⟨left',hdata,by simpa using Pulls.cons hpull (.nil _)⟩
  | @cons c chunks length mark _ ih =>
    obtain ⟨g,groups,rfl,hg,hgroups⟩ := List.map_eq_cons_iff.mp hgroups
    have hnone : .close ∉ left ++ g := by simp_all
    obtain ⟨left',hsuffix,hdata,hpull⟩ := hpull (r := groups.flatten ++ rest) length hg hleft hnone
    have hnone' : .close ∉ left' := fun h => hnone (hsuffix.subset h)
    obtain ⟨left'',hdata',hpulls⟩ := ih hgroups (by simp_all) hdata hnone'
    rw [List.append_assoc] at hpulls
    refine ⟨left'',hdata',?_⟩
    have hread := Pulls.cons hpull hpulls
    simpa using hread

/-- The chunks of a WebSocket come in messages of which none reaches from one chunk into the
next. -/
theorem pulls_webSocket {s : Nat} {chunks : List Bytes} (h : Upload s chunks) (end_ : WsError)
    {messages : List Message} (hclose : .close ∉ messages)
    (hal : WebSocket.Aligned chunks messages) (rest : List Message) :
    ∃ left, WebSocket.data left = [] ∧
      Pulls (Stream.pull s) (.inr (end_,messages ++ rest)) chunks (.inr (end_,left ++ rest)) := by
  obtain ⟨groups,rfl,hgroups⟩ := hal
  have hnil : WebSocket.data [] = [] := rfl
  exact pulls_groups h end_ hgroups hclose hnil List.not_mem_nil rest

/-! ## Runs -/

/-- What an upload adds to the trace: the chunks and the reports. -/
def feedback (chunks : List Bytes) (marks : List Mark) : List Event :=
  (chunks.zip marks).flatMap fun p => .receivedChunk p.1::
    if p.2.reported then [.sentLine (reportLine p.2.time p.2.bytes)] else []

private theorem feedback_cons (c : Bytes) (chunks : List Bytes) (m : Mark) (marks : List Mark) :
    feedback (c::chunks) (m::marks) =
      .receivedChunk c::(if m.reported then [.sentLine (reportLine m.time m.bytes)] else []) ++
        feedback chunks marks := by
  simp [feedback]

def timesSince (start : Nat) (clock : Nat → Nat) (k : Nat) : List Nat :=
  (List.range k).map fun i => clock i - start

private def sentinel : Option Nat → Int
  | none => -2^127
  | some l => l

private theorem sentinel_due (last : Option Nat) (t : Nat) :
    (sentinel last < 0 ∨ 1000000 ≤ (t : Int) - sentinel last) ↔ Due last t := by
  cases last with
  | none => simp [sentinel,Due]
  | some l =>
    simp only [sentinel,Due,Option.mem_some_iff,forall_eq']
    omega

section
variable {σ υ : Type} [LineStream σ] {good : σ → Prop} {view : σ → υ}
variable {pull : υ → Option (Bytes × υ)} {s : Nat} (h : Supply good view pull s)
include h

private theorem writeLine_run (line : Text) {w : World σ} (hgood : good w.stream) :
    ∃ st, good st ∧ view st = view w.stream ∧
      writeLine line w = .ok () { w with stream := st, trace := w.trace ++ [.sentLine line] } := by
  obtain ⟨st,hst,hgood',hview⟩ := h.write w.stream (utf8 line) hgood
  exact ⟨st,hgood',hview,writeLine_ok hst⟩

private theorem report_run (start : Nat) (total : UInt64) (last : Option Nat) {w : World σ}
    (hgood : good w.stream) :
    let t := w.instants 0 - start
    ∃ st, good st ∧ view st = view w.stream ∧ report start total (sentinel last) w =
      .ok (sentinel (if Due last t then some t else last)) { w with
        stream := st
        instants := fun i => w.instants (i+1)
        trace := w.trace ++ if Due last t then [.sentLine (reportLine t total)] else [] } := by
  intro t
  have hclock : elapsed start w = .ok t { w with instants := fun i => w.instants (i+1) } := rfl
  rw [report,bind_ok hclock]
  by_cases hdue : Due last t
  · rw [if_pos ((sentinel_due last t).mpr hdue),if_pos hdue,if_pos hdue]
    obtain ⟨st,hgood',hview,hrun⟩ := writeLine_run h (reportLine t total)
      (w := { w with instants := fun i => w.instants (i+1) }) hgood
    rw [bind_ok hrun]
    exact ⟨st,hgood',hview,rfl⟩
  · rw [if_neg fun hc => hdue ((sentinel_due last t).mp hc),if_neg hdue,if_neg hdue]
    exact ⟨w.stream,hgood,rfl,by simp [pure_apply]⟩

private theorem receiveChunks_chunk (hs : 0 < s) {v u : υ} {c : Bytes} (hread : pull v = some (c,u))
    {w : World σ} (hgood : good w.stream) (hview : view w.stream = v) (hsize : w.chunkSize = s)
    (start : Nat) (sendIntermediate : Bool) (fuel : Nat) (total : UInt64) (last : Int) :
    ∃ st, good st ∧ view st = u ∧
      receiveChunks start sendIntermediate (fuel+1) total last w = (do
        let last ← if sendIntermediate then report start (total + UInt64.ofNat s) last
          else pure last
        if c.getLast? = some 0xFF then return total + UInt64.ofNat s
        else receiveChunks start sendIntermediate fuel (total + UInt64.ofNat s) last)
        { w with stream := st, trace := w.trace ++ [Event.receivedChunk c] } := by
  have hserved := h.read w.stream hgood
  rw [hview,hread] at hserved
  obtain ⟨hlen,st,hst,hgood',hview'⟩ := hserved
  have hchunk : chunkSize w = .ok s w := by rw [← hsize]; rfl
  have hlast := List.getLast?_eq_getElem? (l := c)
  rw [hlen] at hlast
  refine ⟨st,hgood',hview',?_⟩
  rw [receiveChunks,bind_ok hchunk,bind_ok (readExact_ok hst),← hlast]
  cases hc : c.getLast? with
  | none =>
    rw [List.getLast?_eq_none_iff.mp hc,List.length_nil] at hlen
    omega
  | some b =>
    dsimp only
    cases sendIntermediate <;> simp

private theorem receiveChunks_silent (hs : 0 < s) {chunks : List Bytes} (hup : Upload s chunks)
    {v v' : υ} (hpulls : Pulls pull v chunks v') (start : Nat) {fuel : Nat}
    (hfuel : chunks.length ≤ fuel) (total : UInt64) (last : Int) {w : World σ}
    (hgood : good w.stream) (hview : view w.stream = v) (hsize : w.chunkSize = s) :
    ∃ st, good st ∧ view st = v' ∧
      receiveChunks start false fuel total last w =
        .ok (total + UInt64.ofNat (s * chunks.length)) { w with
          stream := st
          trace := w.trace ++ chunks.map Event.receivedChunk } := by
  induction hup generalizing v fuel total w with
  | @last c length mark =>
    obtain ⟨fuel,rfl⟩ := Nat.exists_eq_succ_of_ne_zero (Nat.ne_of_gt hfuel)
    cases hpulls with
    | cons hread hrest =>
      cases hrest
      obtain ⟨st,hgood',hview',hrun⟩ :=
        receiveChunks_chunk h hs hread hgood hview hsize start false fuel total last
      refine ⟨st,hgood',hview',?_⟩
      rw [hrun]
      simp [mark,pure_apply]
  | @cons c chunks length mark _ ih =>
    obtain ⟨fuel,rfl⟩ := Nat.exists_eq_succ_of_ne_zero (Nat.ne_of_gt (Nat.zero_lt_of_lt hfuel))
    cases hpulls with
    | cons hread hrest =>
      obtain ⟨st,hgood',hview',hrun⟩ :=
        receiveChunks_chunk h hs hread hgood hview hsize start false fuel total last
      obtain ⟨stream,instants,wall,stats,size,trace⟩ := w
      obtain ⟨st',hgood'',hview'',hloop⟩ := ih hrest (Nat.le_of_succ_le_succ hfuel)
        (total + UInt64.ofNat s) (w := ⟨st,instants,wall,stats,size,trace ++ [.receivedChunk c]⟩)
        hgood' hview' hsize
      refine ⟨st',hgood'',hview'',?_⟩
      rw [hrun]
      simp only [Bool.false_eq_true,if_false,pure_bind,if_neg mark]
      rw [hloop,total_succ]
      simp

omit h [LineStream σ] in
private theorem timesSince_succ (start : Nat) (clock : Nat → Nat) (k : Nat) :
    timesSince start clock (k+1) =
      (clock 0 - start)::timesSince start (fun i => clock (i+1)) k := by
  simp [timesSince,List.range_succ_eq_map]

private theorem receiveChunks_reports (hs : 0 < s) {chunks : List Bytes} (hup : Upload s chunks)
    {v v' : υ} (hpulls : Pulls pull v chunks v') (start : Nat) {fuel : Nat}
    (hfuel : chunks.length ≤ fuel) (total : UInt64) (last : Option Nat) {w : World σ}
    (hgood : good w.stream) (hview : view w.stream = v) (hsize : w.chunkSize = s) :
    ∃ st, good st ∧ view st = v' ∧
      receiveChunks start true fuel total (sentinel last) w =
        .ok (total + UInt64.ofNat (s * chunks.length)) { w with
          stream := st
          instants := fun i => w.instants (i + chunks.length)
          trace := w.trace ++ feedback chunks
            (throttle s total last (timesSince start w.instants chunks.length)) } := by
  induction hup generalizing v fuel total last w with
  | @last c length mark =>
    obtain ⟨fuel,rfl⟩ := Nat.exists_eq_succ_of_ne_zero (Nat.ne_of_gt hfuel)
    cases hpulls with
    | cons hread hrest =>
      cases hrest
      obtain ⟨st,hgood',hview',hrun⟩ :=
        receiveChunks_chunk h hs hread hgood hview hsize start true fuel total (sentinel last)
      obtain ⟨st',hgood'',hview'',hreport⟩ := report_run h start (total + UInt64.ofNat s) last
        (w := { w with stream := st, trace := w.trace ++ [Event.receivedChunk c] }) hgood'
      refine ⟨st',hgood'',hview''.trans hview',?_⟩
      rw [hrun]
      simp only [if_true]
      rw [bind_ok hreport,List.length_singleton,timesSince_succ,throttle_cons,feedback_cons]
      simp [mark,pure_apply,timesSince,throttle,feedback]
  | @cons c chunks length mark _ ih =>
    obtain ⟨fuel,rfl⟩ := Nat.exists_eq_succ_of_ne_zero (Nat.ne_of_gt (Nat.zero_lt_of_lt hfuel))
    cases hpulls with
    | cons hread hrest =>
      obtain ⟨st,hgood',hview',hrun⟩ :=
        receiveChunks_chunk h hs hread hgood hview hsize start true fuel total (sentinel last)
      obtain ⟨stream,instants,wall,stats,size,trace⟩ := w
      obtain ⟨st',hgood'',hview'',hreport⟩ := report_run h start (total + UInt64.ofNat s) last
        (w := ⟨st,instants,wall,stats,size,trace ++ [.receivedChunk c]⟩) hgood'
      obtain ⟨stEnd,hgoodEnd,hviewEnd,hloop⟩ := ih hrest (Nat.le_of_succ_le_succ hfuel)
        (total + UInt64.ofNat s)
        (if Due last (instants 0 - start) then some (instants 0 - start) else last)
        (w := ⟨st',fun i => instants (i+1),wall,stats,size,trace ++ [.receivedChunk c] ++
          if Due last (instants 0 - start) then
            [.sentLine (reportLine (instants 0 - start) (total + UInt64.ofNat s))] else []⟩)
        hgood'' (hview''.trans hview') hsize
      refine ⟨stEnd,hgoodEnd,hviewEnd,?_⟩
      rw [hrun]
      simp only [if_true]
      rw [bind_ok hreport,if_neg mark,hloop,total_succ,List.length_cons,timesSince_succ,throttle_cons,
        feedback_cons]
      simp [Nat.add_assoc]

private theorem handlePut_answers {argChunk : Text} {w : World σ} (hforce : InForce argChunk w.chunkSize s)
    (hgood : good w.stream) (sendIntermediate : Bool) (fuel : Nat) :
    ∃ st, good st ∧ view st = view w.stream ∧ handlePut argChunk sendIntermediate fuel w = (do
      let total ← receiveChunks (w.instants 0) sendIntermediate fuel 0 (-2^127)
      let ns ← elapsed (w.instants 0)
      updateStats (.addUpload total ns)
      writeLine (timeLine ns)) { w with
        stream := st
        instants := fun i => w.instants (i+1)
        chunkSize := s
        trace := w.trace ++ [Event.sentLine "OK\n"] } := by
  obtain ⟨st,hgood',hview,hrun⟩ := writeLine_run h "OK\n" (w := { w with chunkSize := s }) hgood
  refine ⟨st,hgood',hview,?_⟩
  have hput : handlePut argChunk sendIntermediate fuel w = (do
      writeLine "OK\n"
      let start ← instant
      let total ← receiveChunks start sendIntermediate fuel 0 (-2^127)
      let ns ← elapsed start
      updateStats (.addUpload total ns)
      writeLine (timeLine ns)) { w with chunkSize := s } := by
    unfold handlePut withChunkSize
    unfold InForce at hforce
    by_cases harg : argChunk = []
    · rw [if_pos harg] at hforce ⊢
      subst hforce
      rfl
    · rw [if_neg harg] at hforce ⊢
      rw [hforce]
      rfl
  rw [hput,bind_ok hrun]
  rfl

private theorem finish_run (start : Nat) (total : UInt64) {w : World σ} (hgood : good w.stream) :
    ∃ st, good st ∧ view st = view w.stream ∧ (do
      let ns ← elapsed start
      updateStats (.addUpload total ns)
      writeLine (timeLine ns)) w = .ok () { w with
        stream := st
        instants := fun i => w.instants (i+1)
        stats := w.stats.addUpload total (w.instants 0 - start)
        trace := w.trace ++ [Event.sentLine (timeLine (w.instants 0 - start))] } :=
  writeLine_run h _ (w := { w with
    instants := fun i => w.instants (i+1)
    stats := w.stats.addUpload total (w.instants 0 - start) }) hgood

/-- The marks of the upload of `k` chunks that `PUT` begins with the next reading of the clock. -/
def uploadMarks (s : Nat) (clock : Nat → Nat) (k : Nat) : List Mark :=
  throttle s 0 none (timesSince (clock 0) (fun i => clock (i+1)) k)

private theorem handlePut_reports (hs : 0 < s) {chunks : List Bytes} (hup : Upload s chunks)
    {argChunk : Text} {w : World σ} (hforce : InForce argChunk w.chunkSize s) (hgood : good w.stream)
    {v' : υ} (hpulls : Pulls pull (view w.stream) chunks v') {fuel : Nat}
    (hfuel : chunks.length ≤ fuel) :
    let ns := w.instants (chunks.length + 1) - w.instants 0
    ∃ st, view st = v' ∧ handlePut argChunk true fuel w = .ok () { w with
      stream := st
      instants := fun i => w.instants (i + (chunks.length + 2))
      stats := w.stats.addUpload (UInt64.ofNat (s * chunks.length)) ns
      chunkSize := s
      trace := w.trace ++ .sentLine "OK\n"::feedback chunks
        (uploadMarks s w.instants chunks.length) ++ [.sentLine (timeLine ns)] } := by
  intro ns
  obtain ⟨stream,instants,wall,stats,size,trace⟩ := w
  obtain ⟨st,hgood,hview,hrun⟩ := handlePut_answers h hforce hgood true fuel
  rw [← hview] at hpulls
  obtain ⟨st',hgood',hview',hloop⟩ := receiveChunks_reports h hs hup hpulls (instants 0) hfuel 0 none
    (w := ⟨st,fun i => instants (i+1),wall,stats,s,trace ++ [.sentLine "OK\n"]⟩) hgood rfl rfl
  rw [UInt64.zero_add] at hloop
  obtain ⟨st'',-,hview'',hfinish⟩ := finish_run h (instants 0) (UInt64.ofNat (s * chunks.length))
    (w := ⟨st',fun i => instants (i + chunks.length + 1),wall,stats,s,trace ++ [.sentLine "OK\n"] ++
      feedback chunks (uploadMarks s instants chunks.length)⟩) hgood'
  refine ⟨st'',hview''.trans hview',hrun.trans ((bind_ok hloop).trans (hfinish.trans ?_))⟩
  simp [ns,Nat.add_assoc,Nat.add_comm 1]

private theorem handlePut_silent (hs : 0 < s) {chunks : List Bytes} (hup : Upload s chunks)
    {argChunk : Text} {w : World σ} (hforce : InForce argChunk w.chunkSize s) (hgood : good w.stream)
    {v' : υ} (hpulls : Pulls pull (view w.stream) chunks v') {fuel : Nat}
    (hfuel : chunks.length ≤ fuel) :
    let ns := w.instants 1 - w.instants 0
    ∃ st, view st = v' ∧ handlePut argChunk false fuel w = .ok () { w with
      stream := st
      instants := fun i => w.instants (i+2)
      stats := w.stats.addUpload (UInt64.ofNat (s * chunks.length)) ns
      chunkSize := s
      trace := w.trace ++ .sentLine "OK\n"::chunks.map Event.receivedChunk ++
        [.sentLine (timeLine ns)] } := by
  intro ns
  obtain ⟨stream,instants,wall,stats,size,trace⟩ := w
  obtain ⟨st,hgood,hview,hrun⟩ := handlePut_answers h hforce hgood false fuel
  rw [← hview] at hpulls
  obtain ⟨st',hgood',hview',hloop⟩ := receiveChunks_silent h hs hup hpulls (instants 0) hfuel 0
    (-2^127) (w := ⟨st,fun i => instants (i+1),wall,stats,s,trace ++ [.sentLine "OK\n"]⟩) hgood rfl rfl
  rw [UInt64.zero_add] at hloop
  obtain ⟨st'',-,hview'',hfinish⟩ := finish_run h (instants 0) (UInt64.ofNat (s * chunks.length))
    (w := ⟨st',fun i => instants (i+1),wall,stats,s,trace ++ [.sentLine "OK\n"] ++
      chunks.map Event.receivedChunk⟩) hgood'
  refine ⟨st'',hview''.trans hview',hrun.trans ((bind_ok hloop).trans (hfinish.trans ?_))⟩
  simp [ns]

end

/-! ## The laws of the feedback -/

def Event.isReport : Event → Bool
  | .sentLine line => (splitOnce " BYTES " line).isSome
  | _ => false

private theorem isReport_reportLine (ns : Nat) (bytes : UInt64) :
    (Event.sentLine (reportLine ns bytes)).isReport = true := by
  have hline : reportLine ns bytes = ("TIME ".toList ++ natText ns) ++ " BYTES ".toList ++
      (natText bytes.toNat ++ "\n".toList) := List.append_assoc _ _ _
  have hinfix : " BYTES ".toList <:+: reportLine ns bytes := by
    rw [hline]
    exact List.infix_append _ _ _
  obtain ⟨a,b,h⟩ := splitOnce_exists hinfix
  simp only [Event.isReport,h,Option.isSome_some]

private theorem isReport_timeLine (ns : Nat) : (Event.sentLine (timeLine ns)).isReport = false := by
  have hnone : splitOnce " BYTES " (timeLine ns) = none := by
    apply splitOnce_eq_none.mpr
    intro h
    have hB : 'B' ∈ timeLine ns := h.subset (by decide)
    have hdigits : 'B' ∉ natText ns := fun h => absurd (natText_isDigit h) (by decide)
    simp [timeLine,hdigits] at hB
  simp only [Event.isReport,hnone,Option.isSome_none]

private theorem feedback_filter {chunks : List Bytes} {marks : List Mark}
    (hlen : marks.length = chunks.length) :
    (feedback chunks marks).filter (fun e => !e.isReport) = chunks.map Event.receivedChunk := by
  induction chunks generalizing marks with
  | nil => rfl
  | cons c chunks ih =>
    cases marks with
    | nil => cases hlen
    | cons m marks =>
      have hrest := ih (Nat.succ.inj hlen)
      have hchunk : (Event.receivedChunk c).isReport = false := rfl
      rw [feedback_cons]
      cases m.reported <;> simp [hchunk,isReport_reportLine,hrest]

/-- The bytes of the marks are those of the chunks so far; within a `u64` they grow and stay within
the upload. -/
structure Counted (s : Nat) (marks : List Mark) : Prop where
  count : ∀ i (hi : i < marks.length), marks[i].bytes = UInt64.ofNat (s * (i + 1))
  increasing : s * marks.length < 2^64 → marks.Pairwise fun a b => a.bytes < b.bytes
  le : s * marks.length < 2^64 → ∀ m ∈ marks, m.bytes.toNat ≤ s * marks.length

private theorem throttle_counted {s : Nat} (hs : 0 < s) (ts : List Nat) :
    Counted s (throttle s 0 none ts) := by
  have hcount (i : Nat) (hi : i < (throttle s 0 none ts).length) :
      (throttle s 0 none ts)[i].bytes = UInt64.ofNat (s * (i + 1)) := by
    rw [throttle_bytes hi,UInt64.zero_add]
  have hnat (h : s * (throttle s 0 none ts).length < 2^64) (i : Nat)
      (hi : i < (throttle s 0 none ts).length) :
      (throttle s 0 none ts)[i].bytes.toNat = s * (i + 1) := by
    have hle : s * (i + 1) ≤ s * (throttle s 0 none ts).length := Nat.mul_le_mul_left s hi
    rw [hcount i hi,UInt64.toNat_ofNat_of_lt' (lt_of_le_of_lt hle h)]
  refine ⟨hcount,?_,?_⟩
  · intro h
    apply List.pairwise_iff_getElem.mpr
    intro i j hi hj hij
    rw [UInt64.lt_iff_toNat_lt,hnat h i hi,hnat h j hj]
    exact Nat.mul_lt_mul_of_pos_left (Nat.succ_lt_succ hij) hs
  · intro h m hm
    obtain ⟨i,hi,rfl⟩ := List.getElem_of_mem hm
    rw [hnat h i hi]
    exact Nat.mul_le_mul_left s hi

/-- A clock without the readings for the `k` chunks. -/
def withoutChunks (k : Nat) (clock : Nat → Nat) : Nat → Nat
  | 0 => clock 0
  | i+1 => clock (i + k + 1)

/-- The feedback on an upload is throttled, counts the bytes so far up to the width of a `u64`, and
does not run ahead of the final line. What is left without it is what `PUTNORESULT` does with the
same input and clock. -/
theorem handlePut_feedback {s : Nat} (hs : 0 < s) {chunks : List Bytes} (hup : Upload s chunks)
    {w : World Stream} {rest : Bytes ⊕ WsError × List Message} (hfaultless : w.stream.Faultless)
    (hpulls : Pulls (Stream.pull s) w.stream.unread chunks rest) {argChunk : Text}
    (hforce : InForce argChunk w.chunkSize s) (hclock : ∀ i j, i ≤ j → w.instants i ≤ w.instants j)
    {fuel : Nat} (hfuel : chunks.length ≤ fuel) :
    let k := chunks.length
    let marks := uploadMarks s w.instants k
    let ns := w.instants (k+1) - w.instants 0
    let events := .sentLine "OK\n"::feedback chunks marks ++ [.sentLine (timeLine ns)]
    marks.map Mark.time = timesSince (w.instants 0) (fun i => w.instants (i+1)) k ∧
      Throttled marks ∧ Counted s marks ∧ (∀ m ∈ marks, m.time ≤ ns) ∧
      ∃ w' w'', handlePut argChunk true fuel w = .ok () w' ∧
        handlePut argChunk false fuel { w with instants := withoutChunks k w.instants } = .ok () w'' ∧
        w'.trace = w.trace ++ events ∧
        w''.trace = w.trace ++ events.filter (fun e => !e.isReport) ∧
        w'.stream.unread = rest ∧ w''.stream.unread = rest ∧
        w''.chunkSize = w'.chunkSize ∧ w''.stats = w'.stats := by
  intro k marks ns events
  have htimes : marks.map Mark.time = timesSince (w.instants 0) (fun i => w.instants (i+1)) k :=
    throttle_times
  refine ⟨htimes,throttle_throttled s 0 _,throttle_counted hs _,?_,?_⟩
  · intro m hm
    have hmem : m.time ∈ timesSince (w.instants 0) (fun i => w.instants (i+1)) k := by
      rw [← htimes]
      exact List.mem_map_of_mem hm
    obtain ⟨i,hi,htime⟩ := List.mem_map.mp hmem
    rw [← htime]
    exact Nat.sub_le_sub_right (hclock _ _ (Nat.succ_le_succ (List.mem_range.mp hi).le)) _
  · obtain ⟨st,hview,hput⟩ :=
      handlePut_reports (supply_stream s) hs hup hforce hfaultless hpulls hfuel
    obtain ⟨st',hview',hsilent⟩ := handlePut_silent (supply_stream s) hs hup
      (w := { w with instants := withoutChunks k w.instants }) hforce hfaultless hpulls hfuel
    have hlen : marks.length = chunks.length := by simp [marks,uploadMarks,timesSince,k]
    have hok : (Event.sentLine "OK\n").isReport = false := by decide
    have hfilter : events.filter (fun e => !e.isReport) =
        .sentLine "OK\n"::chunks.map Event.receivedChunk ++ [.sentLine (timeLine ns)] := by
      simp only [events,List.cons_append,List.filter_cons,hok,List.filter_append,
        feedback_filter hlen,isReport_timeLine]
      rfl
    refine ⟨_,_,hput,hsilent,?_,?_,hview,hview',rfl,?_⟩
    · simp only [events,List.append_assoc]
      rfl
    · rw [hfilter]
      simp [withoutChunks,ns]
    · simp [withoutChunks,k]

theorem handlePut_feedback_golden :
    let chunks := [zeroChunk 0x00,zeroChunk 0xFF]
    let conn : RawConn := ⟨chunks.flatten ++ utf8 "PING\n",none,[],[],none⟩
    let end_ : WsError := .protocol "Connection closed normally"
    let ws : WebSocket := ⟨chunks.map .binary ++ [.text "PING\n"],end_,[],[],none⟩
    let run (stream : Stream) := handlePut [] true 2 (World.start stream id fun _ => 0)
    let events : List Event := [.sentLine "OK\n",.receivedChunk (zeroChunk 0x00),
      .sentLine (reportLine 1 4096),.receivedChunk (zeroChunk 0xFF),.sentLine (timeLine 3)]
    (∃ w', run (.raw conn) = .ok () w' ∧ w'.trace = events ∧
        w'.stream.unread = .inl (utf8 "PING\n")) ∧
      ∃ w' left, run (.webSocket ws) = .ok () w' ∧ w'.trace = events ∧ WebSocket.data left = [] ∧
        w'.stream.unread = .inr (end_,left ++ [.text "PING\n"]) := by
  intro chunks conn end_ ws run events
  have hclock (i j : Nat) (h : i ≤ j) : id i ≤ id j := h
  constructor
  · obtain ⟨-,-,-,-,w',-,hw',-,htrace,-,hunread,-⟩ := handlePut_feedback (by decide) upload_zeroChunks
      (w := World.start (Stream.raw conn) id fun _ => 0) rfl (pulls_raw upload_zeroChunks _)
      (inForce_nil _) hclock (le_refl 2)
    exact ⟨w',hw',htrace,hunread⟩
  · have hal : WebSocket.Aligned chunks (chunks.map .binary) :=
      ⟨[[.binary (zeroChunk 0x00)],[.binary (zeroChunk 0xFF)]],rfl,
        by simp [chunks,WebSocket.data,WebSocket.payload]⟩
    obtain ⟨left,hleft,hpulls⟩ := pulls_webSocket upload_zeroChunks end_ (by simp [chunks]) hal
      [.text "PING\n"]
    obtain ⟨-,-,-,-,w',-,hw',-,htrace,-,hunread,-⟩ := handlePut_feedback (by decide) upload_zeroChunks
      (w := World.start (Stream.webSocket ws) id fun _ => 0) rfl hpulls (inForce_nil _)
      hclock (le_refl 2)
    exact ⟨w',left,hw',htrace,hleft,hunread⟩

/-! ### An upload of `2^64` bytes -/

private theorem upload_replicate (k : Nat) :
    Upload 4096 (List.replicate k (zeroChunk 0x00) ++ [zeroChunk 0xFF]) := by
  induction k with
  | zero => exact .last (zeroChunk_length _) (zeroChunk_getLast? _)
  | succ k ih =>
    rw [List.replicate_succ,List.cons_append]
    exact .cons (zeroChunk_length _) (by rw [zeroChunk_getLast?]; decide) ih

private theorem uploadMarks_last (s k : Nat) : ∃ marks, marks.length = k ∧
    uploadMarks s (fun i => i * 1000000) (k+1) =
      marks ++ [⟨(k+1) * 1000000,UInt64.ofNat (s * (k+1)),true⟩] := by
  generalize hms : uploadMarks s (fun i => i * 1000000) (k+1) = ms
  have hlen : ms.length = k + 1 := by
    rw [← hms]
    simp [uploadMarks,timesSince]
  have htime (i : Nat) (hi : i < ms.length) : ms[i].time = (i+1) * 1000000 := by
    have htimes : ms.map Mark.time = timesSince 0 (fun i => (i+1) * 1000000) (k+1) := by
      rw [← hms]
      exact throttle_times
    have hget : (ms.map Mark.time)[i]? = some ms[i].time := by simp [hi]
    rw [htimes] at hget
    simpa [timesSince,hlen ▸ hi] using hget.symm
  have hk : k < ms.length := by rw [hlen]; exact Nat.lt_succ_self k
  have hsplit : ms = ms.take k ++ [ms[k]] := by
    rw [List.take_append_getElem,← hlen,List.take_length]
  have hbytes : ms[k].bytes = UInt64.ofNat (s * (k+1)) := by
    subst hms
    exact (throttle_bytes hk).trans (UInt64.zero_add _)
  have hreported : ms[k].reported = true := by
    subst hms
    rw [throttle_reported hsplit]
    intro l hl
    obtain ⟨b,m,skipped,htake,-,-,rfl⟩ := lastReport_some hl
    have hm : m ∈ (uploadMarks s (fun i => i * 1000000) (k+1)).take k := by simp [htake]
    obtain ⟨i,hi,rfl⟩ := List.getElem_of_mem hm
    rw [List.length_take] at hi
    rw [List.getElem_take,htime,htime]
    omega
  refine ⟨ms.take k,by simp [hlen],?_⟩
  have hmark : ms[k] = ⟨(k+1) * 1000000,UInt64.ofNat (s * (k+1)),true⟩ := by
    rw [← htime k hk,← hbytes,← hreported]
  rw [← hmark]
  exact hsplit

private theorem feedback_last {chunks : List Bytes} {marks : List Mark}
    (hlen : chunks.length = marks.length) (c : Bytes) (t : Nat) (bytes : UInt64) :
    .sentLine (reportLine t bytes) ∈ feedback (chunks ++ [c]) (marks ++ [⟨t,bytes,true⟩]) := by
  rw [feedback,List.zip_append hlen]
  simp

private theorem handlePut_last {k n : Nat} {bytes : UInt64} (hn : k + 1 = n)
    (hbytes : UInt64.ofNat (4096 * n) = bytes) :
    let chunks := List.replicate k (zeroChunk 0x00) ++ [zeroChunk 0xFF]
    let conn : RawConn := ⟨chunks.flatten,none,[],[],none⟩
    ∃ w', handlePut [] true n
        (World.start (Stream.raw conn) (fun i => i * 1000000) fun _ => 0) = .ok () w' ∧
      .sentLine (reportLine (n * 1000000) bytes) ∈ w'.trace := by
  intro chunks conn
  subst hn hbytes
  have hlen : chunks.length = k + 1 := by simp [chunks]
  have hpulls := pulls_raw (upload_replicate k) []
  rw [List.append_nil] at hpulls
  obtain ⟨st,-,hrun⟩ := handlePut_reports (supply_stream 4096) (by decide) (upload_replicate k)
    (w := World.start (Stream.raw conn) (fun i => i * 1000000) fun _ => 0) (inForce_nil _) rfl hpulls
    (le_of_eq hlen)
  refine ⟨_,hrun,?_⟩
  obtain ⟨marks,hmarks,hlast⟩ := uploadMarks_last 4096 k
  have hmem : .sentLine (reportLine ((k+1) * 1000000) (UInt64.ofNat (4096 * (k+1)))) ∈
      feedback chunks (uploadMarks 4096 (fun i => i * 1000000) chunks.length) := by
    rw [hlen,hlast]
    exact feedback_last (by simp [hmarks]) _ _ _
  exact List.mem_append_left _ (List.mem_cons_of_mem _ hmem)

/-- The report of the last of `2^52` chunks says that no bytes were received. -/
theorem handlePut_feedback_wraps :
    let chunks := List.replicate (2^52 - 1) (zeroChunk 0x00) ++ [zeroChunk 0xFF]
    let conn : RawConn := ⟨chunks.flatten,none,[],[],none⟩
    Upload 4096 chunks ∧ ∃ w', handlePut [] true (2^52)
        (World.start (Stream.raw conn) (fun i => i * 1000000) fun _ => 0) = .ok () w' ∧
      .sentLine (reportLine (2^52 * 1000000) 0) ∈ w'.trace := by
  have hn : 2^52 - 1 + 1 = 2^52 := by decide
  have hbytes : UInt64.ofNat (4096 * 2^52) = 0 := by decide
  exact ⟨upload_replicate _,handlePut_last hn hbytes⟩

end Rmbtd
