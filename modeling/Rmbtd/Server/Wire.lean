import Rmbtd.Server.Disconnect
import Rmbtd.Server.LogLines
import Rmbtd.Stream.Responses

/-!
# What passes over a connection

The trace of a session is what passed over its connection, in both directions: every byte of the
client belongs to the head of its request, to a line or to a chunk, in this order, and what the
client was sent is the response to the request and then what was written, piece by piece.
-/

namespace Rmbtd

open Effect Session

/-! ## Both directions of a stream -/

/-- The data of an event that is sent. -/
def Event.data : Event → Option Bytes
  | .sentLine line => some (utf8 line)
  | .sentChunk bytes => some bytes
  | _ => none

def sentData (tr : List Event) : List Bytes := tr.filterMap Event.data

theorem sentData_append (tr tr' : List Event) : sentData (tr ++ tr') = sentData tr ++ sentData tr' :=
  List.filterMap_append

/-- What is unread carries the lines and chunks that a trace receives, and then what is left. Where a
line ends may depend on what follows it. -/
inductive Conveys {α : Type} (line : Text → List α → List α → Prop) (chunk : Bytes → List α → Prop)
    (left : List α) : List Event → List α → Prop
  | nil : Conveys line chunk left [] left
  | received {l : Text} {tr : List Event} {used rest : List α} (carries : line l used rest)
      (later : Conveys line chunk left tr rest) : Conveys line chunk left (.received l::tr) (used ++ rest)
  | receivedChunk {bytes : Bytes} {tr : List Event} {used rest : List α} (carries : chunk bytes used)
      (later : Conveys line chunk left tr rest) :
      Conveys line chunk left (.receivedChunk bytes::tr) (used ++ rest)
  | other {e : Event} {tr : List Event} {unread : List α} (other : e.data.isSome ∨ e.isSilent)
      (later : Conveys line chunk left tr unread) : Conveys line chunk left (e::tr) unread

/-- A stream of items in each direction, as the operations on it see them. A read that fails may take
some of what is unread, and a write that fails may send a part. -/
structure Duplex {σ τ : Type} [LineStream σ] (of : τ → σ) (α : Type) where
  unread : τ → List α
  told : τ → List α
  line : Text → List α → List α → Prop
  chunk : Bytes → List α → Prop
  frame : Bytes → List α
  readLine : ∀ {t l s}, LineStream.readLine (of t) = .ok l s → ∃ t' used, s = of t' ∧
    line l used (unread t') ∧ unread t = used ++ unread t' ∧ told t' = told t
  readExact : ∀ {n t bytes s}, LineStream.readExact n (of t) = .ok bytes s → ∃ t' used, s = of t' ∧
    chunk bytes used ∧ unread t = used ++ unread t' ∧ told t' = told t
  writeAll : ∀ {data t s}, LineStream.writeAll data (of t) = .ok () s → ∃ t', s = of t' ∧
    unread t' = unread t ∧ told t' = told t ++ frame data
  readLine_error : ∀ {t e s}, LineStream.readLine (of t) = .error e s → ∃ t', s = of t' ∧
    unread t' <:+ unread t ∧ told t' = told t
  readExact_error : ∀ {n t e s}, LineStream.readExact n (of t) = .error e s → ∃ t', s = of t' ∧
    unread t' <:+ unread t ∧ told t' = told t
  writeAll_error : ∀ {data t e s}, LineStream.writeAll data (of t) = .error e s → ∃ t' part, s = of t' ∧
    unread t' = unread t ∧ part <+: frame data ∧ told t' = told t ++ part

namespace Duplex

variable {σ τ α : Type} [LineStream σ] {of : τ → σ} (D : Duplex of α)

def pieces (tr : List Event) : List (List α) := (sentData tr).map D.frame

theorem calls {s s' : σ} {tr : List Event} (h : Calls s tr s') {t : τ} (hs : s = of t) :
    ∃ t', s' = of t' ∧ Conveys D.line D.chunk (D.unread t') tr (D.unread t) ∧
      D.told t' = D.told t ++ (D.pieces tr).flatten := by
  induction h generalizing t with
  | nil st => exact ⟨t,hs,.nil,(List.append_nil _).symm⟩
  | received call _ ih =>
    subst hs
    obtain ⟨t₁,used,rfl,hline,hunread,htold⟩ := D.readLine call
    obtain ⟨t',hs',hconveys,htold'⟩ := ih rfl
    rw [hunread]
    exact ⟨t',hs',.received hline hconveys,htold'.trans (congrArg (· ++ _) htold)⟩
  | receivedChunk call _ ih =>
    subst hs
    obtain ⟨t₁,used,rfl,hchunk,hunread,htold⟩ := D.readExact call
    obtain ⟨t',hs',hconveys,htold'⟩ := ih rfl
    rw [hunread]
    exact ⟨t',hs',.receivedChunk hchunk hconveys,htold'.trans (congrArg (· ++ _) htold)⟩
  | sentLine call _ ih =>
    subst hs
    obtain ⟨t₁,rfl,hunread,htold⟩ := D.writeAll call
    obtain ⟨t',hs',hconveys,htold'⟩ := ih rfl
    rw [hunread] at hconveys
    refine ⟨t',hs',.other (Or.inl rfl) hconveys,?_⟩
    rw [htold',htold,List.append_assoc]
    rfl
  | sentChunk call _ ih =>
    subst hs
    obtain ⟨t₁,rfl,hunread,htold⟩ := D.writeAll call
    obtain ⟨t',hs',hconveys,htold'⟩ := ih rfl
    rw [hunread] at hconveys
    refine ⟨t',hs',.other (Or.inl rfl) hconveys,?_⟩
    rw [htold',htold,List.append_assoc]
    rfl
  | @silent _ _ e tr hsilent _ ih =>
    obtain ⟨t',hs',hconveys,htold⟩ := ih hs
    refine ⟨t',hs',.other (Or.inr hsilent) hconveys,?_⟩
    have hdata : e.data = none := by cases e <;> first | rfl | cases hsilent
    rw [htold,pieces,pieces,sentData,sentData,List.filterMap_cons_none hdata]

theorem fails {call : Call} {t : τ} {e : IoError} {s : σ} (h : call.Fails (of t) e s) :
    ∃ t' part, s = of t' ∧ D.unread t' <:+ D.unread t ∧ part <+: (D.pieces call.attempted).flatten ∧
      D.told t' = D.told t ++ part := by
  have hwrite {data : Bytes} (hwrite : LineStream.writeAll data (of t) = .error e s)
      (hpieces : (D.pieces call.attempted).flatten = D.frame data) :
      ∃ t' part, s = of t' ∧ D.unread t' <:+ D.unread t ∧
        part <+: (D.pieces call.attempted).flatten ∧ D.told t' = D.told t ++ part := by
    obtain ⟨t',part,hs,hunread,hpart,htold⟩ := D.writeAll_error hwrite
    exact ⟨t',part,hs,hunread ▸ List.suffix_refl _,hpieces ▸ hpart,htold⟩
  cases call with
  | readLine =>
    obtain ⟨t',hs,hunread,htold⟩ := D.readLine_error h
    exact ⟨t',[],hs,hunread,List.nil_prefix,htold.trans (List.append_nil _).symm⟩
  | readExact n =>
    obtain ⟨t',hs,hunread,htold⟩ := D.readExact_error h
    exact ⟨t',[],hs,hunread,List.nil_prefix,htold.trans (List.append_nil _).symm⟩
  | writeLine line => exact hwrite h (List.append_nil _)
  | writeChunk bytes => exact hwrite h (List.append_nil _)

end Duplex

/-! ## Raw connections and WebSockets -/

/-- How a line may end on a raw connection. -/
def lineEnds : List Bytes :=
  [[],[RawConn.carriageReturn],[RawConn.newline],[RawConn.carriageReturn,RawConn.newline]]

private theorem popLast_cases (c : UInt8) (buf : Bytes) :
    ∃ last ∈ [[],[c]], buf = RawConn.popLast c buf ++ last := by
  unfold RawConn.popLast
  split
  · next hlast => exact ⟨[c],by simp,(List.dropLast_append_getLast? c hlast).symm⟩
  · exact ⟨[],by simp,(List.append_nil buf).symm⟩

/-- A line on a raw connection ends at its first newline, or with all there is. -/
structure IsRawLine (l : Text) (used rest : Bytes) : Prop where
  text : ∃ end_ ∈ lineEnds, used = utf8 l ++ end_
  noNewline : RawConn.newline ∉ utf8 l
  ended : RawConn.newline ∈ used ∨ rest = []

private theorem raw_line {buf : Bytes} {l : Text}
    (h : fromUtf8 (RawConn.popLast RawConn.carriageReturn (RawConn.popLast RawConn.newline buf)) = some l) :
    ∃ end_ ∈ lineEnds, buf = utf8 l ++ end_ := by
  obtain ⟨last,hlast,hbuf⟩ := popLast_cases RawConn.newline buf
  obtain ⟨last',hlast',hbuf'⟩ := popLast_cases RawConn.carriageReturn (RawConn.popLast RawConn.newline buf)
  refine ⟨last' ++ last,?_,?_⟩
  · simp only [List.mem_cons,List.not_mem_nil,or_false] at hlast hlast'
    rcases hlast with rfl | rfl <;> rcases hlast' with rfl | rfl <;> simp [lineEnds]
  · rw [utf8_of_fromUtf8 h,← List.append_assoc,← hbuf',← hbuf]

private theorem raw_line_open {buf : Bytes} {l : Text}
    (h : fromUtf8 (RawConn.popLast RawConn.carriageReturn (RawConn.popLast RawConn.newline buf)) = some l)
    (hopen : RawConn.newline ∉ RawConn.popLast RawConn.newline buf) : RawConn.newline ∉ utf8 l := by
  rw [utf8_of_fromUtf8 h]
  exact fun hmem => hopen ((RawConn.popLast_initial _ _).subset hmem)

private theorem readUntil_append (limit : Nat) (bs : Bytes) :
    bs = (RawConn.readUntil limit bs).1 ++ (RawConn.readUntil limit bs).2 := by
  rcases RawConn.readUntil_cases limit bs with ⟨body,rest,-,hbs,-,hread⟩ | ⟨-,hread⟩
  · rw [hread,hbs]
    simp
  · rw [hread]
    exact (List.take_append_drop limit bs).symm

private theorem rawReadLine_ok {conn conn' : RawConn} {l : Text} (h : RawConn.readLine conn = .ok l conn') :
    ∃ used, IsRawLine l used conn'.input ∧ conn.input = used ++ conn'.input ∧
      conn'.output = conn.output := by
  unfold RawConn.readLine at h
  have hinput := readUntil_append (maxLineLength + 1) conn.input
  have hcases := RawConn.readUntil_cases (maxLineLength + 1) conn.input
  cases hread : RawConn.readUntil (maxLineLength + 1) conn.input with
  | mk line rest =>
    rw [hread] at h hinput hcases
    dsimp only at h hinput
    split at h
    · cases h
    split at h
    · cases h
    split at h
    · cases h
    next hshort =>
    split at h
    · next text htext =>
      cases h
      refine ⟨line,?_,hinput,rfl⟩
      rcases hcases with ⟨body,rest',hbody,-,-,heq⟩ | ⟨hopen,heq⟩
      · obtain ⟨rfl,rfl⟩ := Prod.mk.inj heq
        refine ⟨raw_line htext,raw_line_open htext ?_,Or.inl (by simp)⟩
        rwa [RawConn.popLast,if_pos List.getLast?_concat,List.dropLast_concat]
      · obtain ⟨rfl,rfl⟩ := Prod.mk.inj heq
        refine ⟨raw_line htext,raw_line_open htext ?_,Or.inr ?_⟩
        · exact fun hmem => hopen ((RawConn.popLast_initial _ _).subset hmem)
        · rw [List.length_take] at hshort
          exact List.drop_of_length_le (by omega)
    · cases h

private theorem rawReadLine_error {conn conn' : RawConn} {e : IoError}
    (h : RawConn.readLine conn = .error e conn') : conn'.input <:+ conn.input ∧ conn'.output = conn.output := by
  unfold RawConn.readLine at h
  have hinput := readUntil_append (maxLineLength + 1) conn.input
  have hrest : (RawConn.readUntil (maxLineLength + 1) conn.input).2 <:+ conn.input := ⟨_,hinput.symm⟩
  dsimp only at h
  split at h
  · cases h
    exact ⟨hrest,rfl⟩
  split at h
  · cases h
    exact ⟨hrest,rfl⟩
  split at h
  · cases h
    exact ⟨hrest,rfl⟩
  split at h
  · cases h
  · cases h
    exact ⟨hrest,rfl⟩

private theorem rawReadExact {n : Nat} {conn : RawConn} :
    (∀ bytes conn', RawConn.readExact n conn = .ok bytes conn' →
      conn.input = bytes ++ conn'.input ∧ conn'.output = conn.output) ∧
    ∀ e conn', RawConn.readExact n conn = .error e conn' →
      conn'.input <:+ conn.input ∧ conn'.output = conn.output := by
  unfold RawConn.readExact
  dsimp only
  constructor
  · intro bytes conn' h
    split at h
    · cases h
      exact ⟨(List.take_append_drop n conn.input).symm,rfl⟩
    · split at h <;> cases h
  · intro e conn' h
    split at h
    · cases h
    · split at h
      all_goals
        cases h
        exact ⟨List.drop_suffix n conn.input,rfl⟩

theorem RawConn.writeAll_ok {data : Bytes} {conn conn' : RawConn} (h : RawConn.writeAll data conn = .ok () conn') :
    conn'.input = conn.input ∧ conn'.output = conn.output ++ data := by
  unfold RawConn.writeAll at h
  split at h
  · cases h
  · cases h
    exact ⟨rfl,rfl⟩

theorem RawConn.flush_ok {conn conn' : RawConn} (h : RawConn.flush conn = .ok () conn') :
    conn'.input = conn.input ∧ conn'.output = conn.output := by
  unfold RawConn.flush at h
  split at h
  · cases h
  · cases h
    exact ⟨rfl,rfl⟩

private theorem rawWriteAll_error {data : Bytes} {conn conn' : RawConn} {e : IoError}
    (h : RawConn.writeAll data conn = .error e conn') :
    ∃ part, conn'.input = conn.input ∧ part <+: data ∧ conn'.output = conn.output ++ part := by
  unfold RawConn.writeAll at h
  split at h
  · cases h
    exact ⟨_,rfl,List.take_prefix _ data,rfl⟩
  · cases h

private theorem lift_raw {β : Type} {m : EStateM IoError RawConn β} {m' : EStateM IoError WebSocket β}
    {conn : RawConn} {s : Stream} :
    (∀ b, Stream.lift m m' (.raw conn) = .ok b s → ∃ conn', s = .raw conn' ∧ m conn = .ok b conn') ∧
    ∀ e, Stream.lift m m' (.raw conn) = .error e s → ∃ conn', s = .raw conn' ∧ m conn = .error e conn' := by
  rw [Stream.lift]
  cases m conn with
  | ok b conn' =>
    constructor
    · intro _ h
      cases h
      exact ⟨conn',rfl,rfl⟩
    · intro _ h
      cases h
  | error e conn' =>
    constructor
    · intro _ h
      cases h
    · intro _ h
      cases h
      exact ⟨conn',rfl,rfl⟩

private theorem lift_webSocket {β : Type} {m : EStateM IoError RawConn β} {m' : EStateM IoError WebSocket β}
    {ws : WebSocket} {s : Stream} :
    (∀ b, Stream.lift m m' (.webSocket ws) = .ok b s → ∃ ws', s = .webSocket ws' ∧ m' ws = .ok b ws') ∧
    ∀ e, Stream.lift m m' (.webSocket ws) = .error e s →
      ∃ ws', s = .webSocket ws' ∧ m' ws = .error e ws' := by
  rw [Stream.lift]
  cases m' ws with
  | ok b ws' =>
    constructor
    · intro _ h
      cases h
      exact ⟨ws',rfl,rfl⟩
    · intro _ h
      cases h
  | error e ws' =>
    constructor
    · intro _ h
      cases h
    · intro _ h
      cases h
      exact ⟨ws',rfl,rfl⟩

/-- A raw connection passes bytes on. -/
def Duplex.raw : Duplex Stream.raw UInt8 where
  unread := RawConn.input
  told := RawConn.output
  line := IsRawLine
  chunk bytes used := used = bytes
  frame := id
  readLine h := by
    obtain ⟨conn',rfl,hread⟩ := lift_raw.1 _ h
    obtain ⟨used,hline,hinput,houtput⟩ := rawReadLine_ok hread
    exact ⟨conn',used,rfl,hline,hinput,houtput⟩
  readExact h := by
    obtain ⟨conn',rfl,hread⟩ := lift_raw.1 _ h
    obtain ⟨hinput,houtput⟩ := rawReadExact.1 _ _ hread
    exact ⟨conn',_,rfl,rfl,hinput,houtput⟩
  writeAll h := by
    obtain ⟨conn',rfl,hwrite⟩ := lift_raw.1 _ h
    exact ⟨conn',rfl,RawConn.writeAll_ok hwrite⟩
  readLine_error h := by
    obtain ⟨conn',rfl,hread⟩ := lift_raw.2 _ h
    exact ⟨conn',rfl,rawReadLine_error hread⟩
  readExact_error h := by
    obtain ⟨conn',rfl,hread⟩ := lift_raw.2 _ h
    exact ⟨conn',rfl,rawReadExact.2 _ _ hread⟩
  writeAll_error h := by
    obtain ⟨conn',rfl,hwrite⟩ := lift_raw.2 _ h
    obtain ⟨part,hinput,hpart,houtput⟩ := rawWriteAll_error hwrite
    exact ⟨conn',part,rfl,hinput,hpart,houtput⟩

private theorem nextLine_ok {end_ : WsError} {messages rest : List Message} {l : Text}
    (h : WebSocket.nextLine end_ messages = (.ok l,rest)) :
    ∃ control m, messages = control ++ m::rest ∧ (∀ c ∈ control, WebSocket.lineOf c = none) ∧
      WebSocket.lineOf m = some l := by
  induction messages with
  | nil => cases h
  | cons m messages ih =>
    have hskip (hnext : WebSocket.nextLine end_ messages = (.ok l,rest)) (hm : WebSocket.lineOf m = none) :
        ∃ control m', m::messages = control ++ m'::rest ∧ (∀ c ∈ control, WebSocket.lineOf c = none) ∧
          WebSocket.lineOf m' = some l := by
      obtain ⟨control,m',hmessages,hcontrol,hline⟩ := ih hnext
      exact ⟨m::control,m',by rw [hmessages,List.cons_append],List.forall_mem_cons.mpr ⟨hm,hcontrol⟩,hline⟩
    cases m with
    | close => cases h
    | text t =>
      cases h
      exact ⟨[],.text t,rfl,nofun,rfl⟩
    | binary b =>
      cases h
      exact ⟨[],.binary b,rfl,nofun,rfl⟩
    | _ => exact hskip h rfl

private theorem nextLine_suffix (end_ : WsError) (messages : List Message) :
    (WebSocket.nextLine end_ messages).2 <:+ messages := by
  induction messages with
  | nil => exact List.suffix_refl []
  | cons m messages ih =>
    cases m with
    | close => exact List.suffix_cons _ _
    | text t => exact List.suffix_cons _ _
    | binary b => exact List.suffix_cons _ _
    | _ => exact ih.trans (List.suffix_cons _ _)

private theorem fill_suffix (end_ : WsError) (n : Nat) (messages : List Message) :
    (WebSocket.fill end_ n messages).2 <:+ messages := by
  induction messages generalizing n with
  | nil => cases n <;> exact List.suffix_refl []
  | cons m messages ih =>
    cases n with
    | zero => exact List.suffix_refl _
    | succ n =>
      by_cases hclose : m = .close
      · subst hclose
        exact List.suffix_cons _ _
      cases hm : WebSocket.payload m with
      | none =>
        rw [WebSocket.fill_control end_ n messages hm hclose]
        exact (ih (n+1)).trans (List.suffix_cons _ _)
      | some d =>
        rw [WebSocket.fill_data end_ n messages hm]
        exact (ih (n + 1 - d.length)).trans (List.suffix_cons _ _)

private theorem fill_zero_used {end_ : WsError} {used rest : List Message} {b : Bytes}
    (h : WebSocket.fill end_ 0 (used ++ rest) = (.ok b,rest)) : used = [] := by
  rw [WebSocket.fill] at h
  exact List.append_left_eq_self.mp (Prod.mk.inj h).2

private theorem fill_needed {end_ : WsError} {n : Nat} {used rest : List Message} {b : Bytes}
    (h : WebSocket.fill end_ n (used ++ rest) = (.ok b,rest)) : (WebSocket.data used.dropLast).length ≤ n := by
  induction used generalizing n b with
  | nil => exact Nat.zero_le n
  | cons m used ih =>
    cases used with
    | nil => exact Nat.zero_le n
    | cons m' used =>
      rw [List.dropLast_cons_cons,WebSocket.data_cons,List.length_append]
      cases n with
      | zero => cases fill_zero_used h
      | succ n =>
        rw [List.cons_append] at h
        by_cases hclose : m = .close
        · subst hclose
          cases h
        cases hm : WebSocket.payload m with
        | none =>
          rw [WebSocket.fill_control end_ n _ hm hclose] at h
          have hle := ih h
          simpa using hle
        | some d =>
          rw [WebSocket.fill_data end_ n _ hm] at h
          cases hf : WebSocket.fill end_ (n + 1 - d.length) (m'::used ++ rest) with
          | mk filled rest' =>
            rw [hf] at h
            cases filled with
            | error e => cases h
            | ok b' =>
              obtain rfl : rest' = rest := (Prod.mk.inj h).2
              have hle := ih hf
              rw [Option.getD_some]
              by_cases hd : d.length ≤ n + 1
              · omega
              · rw [Nat.sub_eq_zero_of_le (Nat.le_of_not_le hd)] at hf
                cases fill_zero_used hf

private theorem wsReadLine {ws : WebSocket} :
    (∀ l ws', WebSocket.readLine ws = .ok l ws' → ∃ control m, ws.incoming = control ++ m::ws'.incoming ∧
      (∀ c ∈ control, WebSocket.lineOf c = none) ∧ WebSocket.lineOf m = some l ∧ ws'.sent = ws.sent) ∧
    ∀ e ws', WebSocket.readLine ws = .error e ws' → ws'.incoming <:+ ws.incoming ∧ ws'.sent = ws.sent := by
  have hsuffix := nextLine_suffix ws.incomingEnd ws.incoming
  unfold WebSocket.readLine
  cases hnext : WebSocket.nextLine ws.incomingEnd ws.incoming with
  | mk result rest =>
    rw [hnext] at hsuffix
    cases result with
    | ok l =>
      refine ⟨?_,nofun⟩
      rintro _ _ ⟨⟩
      obtain ⟨control,m,hmessages,hcontrol,hline⟩ := nextLine_ok hnext
      exact ⟨control,m,hmessages,hcontrol,hline,rfl⟩
    | error e =>
      refine ⟨nofun,?_⟩
      rintro _ _ ⟨⟩
      exact ⟨hsuffix,rfl⟩

private theorem wsReadExact {n : Nat} {ws : WebSocket} :
    (∀ bytes ws', WebSocket.readExact n ws = .ok bytes ws' → ∃ used, ws.incoming = used ++ ws'.incoming ∧
      WebSocket.data used.dropLast <+: bytes ∧ bytes <+: WebSocket.data used ∧ ws'.sent = ws.sent) ∧
    ∀ e ws', WebSocket.readExact n ws = .error e ws' → ws'.incoming <:+ ws.incoming ∧ ws'.sent = ws.sent := by
  have hsuffix := fill_suffix ws.incomingEnd n ws.incoming
  unfold WebSocket.readExact
  cases hfill : WebSocket.fill ws.incomingEnd n ws.incoming with
  | mk result rest =>
    rw [hfill] at hsuffix
    cases result with
    | ok bytes =>
      refine ⟨?_,nofun⟩
      rintro _ _ ⟨⟩
      obtain ⟨used,hmessages,rfl,-⟩ := WebSocket.fill_ok hfill
      rw [hmessages] at hfill
      refine ⟨used,hmessages,?_,List.take_prefix n _,rfl⟩
      have hinit : WebSocket.data used.dropLast <+: WebSocket.data used := by
        obtain ⟨last,hused⟩ := List.dropLast_prefix used
        conv_rhs => rw [← hused,WebSocket.data_append]
        exact List.prefix_append _ _
      exact List.prefix_take_iff.mpr ⟨hinit,fill_needed hfill⟩
    | error e =>
      refine ⟨nofun,?_⟩
      rintro _ _ ⟨⟩
      exact ⟨hsuffix,rfl⟩

private theorem wsWriteAll {data : Bytes} {ws ws' : WebSocket} :
    (WebSocket.writeAll data ws = .ok () ws' →
      ws'.incoming = ws.incoming ∧ ws'.sent = ws.sent ++ [WebSocket.framed data]) ∧
    ∀ e, WebSocket.writeAll data ws = .error e ws' → ∃ part, ws'.incoming = ws.incoming ∧
      part <+: [WebSocket.framed data] ∧ ws'.sent = ws.sent ++ part := by
  unfold WebSocket.writeAll
  split
  · next delivered e faults hfaults =>
    refine ⟨nofun,?_⟩
    rintro _ ⟨⟩
    cases delivered with
    | true => exact ⟨_,rfl,List.prefix_refl _,rfl⟩
    | false => exact ⟨[],rfl,List.nil_prefix,(List.append_nil _).symm⟩
  · refine ⟨?_,nofun⟩
    rintro ⟨⟩
    exact ⟨rfl,rfl⟩

/-- A WebSocket passes messages on. What the last message of a chunk holds beyond it is lost. -/
def Duplex.webSocket : Duplex Stream.webSocket Message where
  unread := WebSocket.incoming
  told := WebSocket.sent
  line l used _ := ∃ control m, used = control ++ [m] ∧ (∀ c ∈ control, WebSocket.lineOf c = none) ∧
    WebSocket.lineOf m = some l
  chunk bytes used := WebSocket.data used.dropLast <+: bytes ∧ bytes <+: WebSocket.data used
  frame data := [WebSocket.framed data]
  readLine h := by
    obtain ⟨ws',rfl,hread⟩ := lift_webSocket.1 _ h
    obtain ⟨control,m,hincoming,hcontrol,hline,hsent⟩ := wsReadLine.1 _ _ hread
    exact ⟨ws',control ++ [m],rfl,⟨control,m,rfl,hcontrol,hline⟩,by simp [hincoming],hsent⟩
  readExact h := by
    obtain ⟨ws',rfl,hread⟩ := lift_webSocket.1 _ h
    obtain ⟨used,hincoming,hinit,hdata,hsent⟩ := wsReadExact.1 _ _ hread
    exact ⟨ws',used,rfl,⟨hinit,hdata⟩,hincoming,hsent⟩
  writeAll h := by
    obtain ⟨ws',rfl,hwrite⟩ := lift_webSocket.1 _ h
    exact ⟨ws',rfl,wsWriteAll.1 hwrite⟩
  readLine_error h := by
    obtain ⟨ws',rfl,hread⟩ := lift_webSocket.2 _ h
    exact ⟨ws',rfl,wsReadLine.2 _ _ hread⟩
  readExact_error h := by
    obtain ⟨ws',rfl,hread⟩ := lift_webSocket.2 _ h
    exact ⟨ws',rfl,wsReadExact.2 _ _ hread⟩
  writeAll_error h := by
    obtain ⟨ws',rfl,hwrite⟩ := lift_webSocket.2 _ h
    obtain ⟨part,hincoming,hpart,hsent⟩ := wsWriteAll.2 _ hwrite
    exact ⟨ws',part,rfl,hincoming,hpart,hsent⟩

/-! ## What a session passes on -/

section
variable {σ τ α : Type} [LineStream σ] {of : τ → σ}

/-- The operations of a trace were made, but an I/O error may have ended them. -/
inductive Made (faultless : Prop) (s : σ) : List Event → σ → Prop
  | whole {tr : List Event} {s' : σ} (calls : Calls s tr s') : Made faultless s tr s'
  | broken {tr rest : List Event} {s₁ s' : σ} {call : Call} {e : IoError} (faulty : ¬faultless)
      (calls : Calls s tr s₁) (fails : call.Fails s₁ e s') (silent : ∀ e ∈ rest, e.isSilent = true) :
      Made faultless s (tr ++ (call.attempted ++ rest)) s'

namespace Made

variable {faultless : Prop} {s s₁ s' : σ} {tr tr' : List Event}

theorem imp {faultless' : Prop} (himp : faultless' → faultless) (h : Made faultless s tr s') :
    Made faultless' s tr s' := by
  cases h with
  | whole calls => exact .whole calls
  | broken faulty calls fails silent => exact .broken (fun h => faulty (himp h)) calls fails silent

theorem before (hcalls : Calls s tr s₁) (h : Made faultless s₁ tr' s') : Made faultless s (tr ++ tr') s' := by
  cases h with
  | whole calls => exact .whole (hcalls.append calls)
  | broken faulty calls fails silent =>
    rw [← List.append_assoc]
    exact .broken faulty (hcalls.append calls) fails silent

private theorem calls_silent (h : ∀ e ∈ tr, e.isSilent = true) : Calls s tr s := by
  induction tr with
  | nil => exact .nil s
  | cons e tr ih => exact .silent (h e List.mem_cons_self) (ih fun e he => h e (List.mem_cons_of_mem _ he))

theorem after (h : Made faultless s tr s') (hsilent : ∀ e ∈ tr', e.isSilent = true) :
    Made faultless s (tr ++ tr') s' := by
  cases h with
  | whole calls => exact .whole (calls.append (calls_silent hsilent))
  | broken faulty calls fails silent =>
    rw [List.append_assoc,List.append_assoc]
    refine .broken faulty calls fails fun e he => ?_
    rcases List.mem_append.mp he with he | he
    · exact silent e he
    · exact hsilent e he

end Made

/-- All pieces were sent, except that the end of the last one may be missing. -/
def SentOf (pieces : List (List α)) (told : List α) : Prop :=
  pieces.dropLast.flatten <+: told ∧ told <+: pieces.flatten

/-- The trace is what passed from one end of a session to the other: what was heard of what was unread,
and what was told. Only an error may take something of a line or chunk that is not received, and keep
back something of the last one that is sent. -/
structure Duplex.Passes (D : Duplex of α) (t t' : τ) (tr : List Event) (faultless : Prop) : Prop where
  heard : ∃ left, Conveys D.line D.chunk left tr (D.unread t) ∧ D.unread t' <:+ left ∧
    (faultless → D.unread t' = left)
  told : ∃ told, D.told t' = D.told t ++ told ∧ SentOf (D.pieces tr) told ∧
    (faultless → told = (D.pieces tr).flatten)

private theorem conveys_append {line : Text → List α → List α → Prop} {chunk : Bytes → List α → Prop}
    {tr tr' : List Event} {left unread : List α} (h : Conveys line chunk left tr unread)
    (hother : ∀ e ∈ tr', e.data.isSome ∨ e.isSilent) : Conveys line chunk left (tr ++ tr') unread := by
  induction h with
  | nil =>
    induction tr' with
    | nil => exact .nil
    | cons e tr' ih =>
      exact .other (hother e List.mem_cons_self) (ih fun e he => hother e (List.mem_cons_of_mem _ he))
  | received carries _ ih => exact .received carries ih
  | receivedChunk carries _ ih => exact .receivedChunk carries ih
  | other h _ ih => exact .other h ih

private theorem sentOf_flatten (pieces : List (List α)) : SentOf pieces pieces.flatten := by
  obtain ⟨last,hlast⟩ := List.dropLast_prefix pieces
  refine ⟨⟨last.flatten,?_⟩,List.prefix_refl _⟩
  rw [← List.flatten_append,hlast]

private theorem sentOf_append {pieces pieces' : List (List α)} {part : List α} (hone : pieces'.length ≤ 1)
    (hpart : part <+: pieces'.flatten) : SentOf (pieces ++ pieces') (pieces.flatten ++ part) := by
  cases pieces' with
  | nil =>
    obtain rfl := List.prefix_nil.mp hpart
    simpa using sentOf_flatten pieces
  | cons piece pieces' =>
    obtain rfl : pieces' = [] := List.eq_nil_of_length_eq_zero (by simpa using hone)
    rw [SentOf,List.dropLast_concat,List.flatten_append]
    exact ⟨List.prefix_append _ _,(List.prefix_append_right_inj _).mpr hpart⟩

private theorem attempted_data (call : Call) : ∀ e ∈ call.attempted, e.data.isSome = true := by
  cases call <;> simp [Call.attempted,Event.data]

private theorem sentData_silent {tr : List Event} (h : ∀ e ∈ tr, e.isSilent = true) : sentData tr = [] := by
  apply List.filterMap_eq_nil_iff.mpr
  intro e he
  have hsilent := h e he
  cases e <;> first | rfl | cases hsilent

/-- A session passes its trace on. -/
theorem Duplex.passes (D : Duplex of α) {t : τ} {s' : σ} {tr : List Event} {faultless : Prop}
    (h : Made faultless (of t) tr s') : ∃ t', s' = of t' ∧ D.Passes t t' tr faultless := by
  cases h with
  | whole calls =>
    obtain ⟨t',hs',hconveys,htold⟩ := D.calls calls rfl
    exact ⟨t',hs',⟨_,hconveys,List.suffix_refl _,fun _ => rfl⟩,
      ⟨_,htold,sentOf_flatten _,fun _ => rfl⟩⟩
  | @broken tr rest s₁ _ call e faulty calls fails silent =>
    obtain ⟨t₁,rfl,hconveys,htold⟩ := D.calls calls rfl
    obtain ⟨t',part,hs',hleft,hpart,htold'⟩ := D.fails fails
    have hpieces : D.pieces (tr ++ (call.attempted ++ rest)) = D.pieces tr ++ D.pieces call.attempted := by
      rw [pieces,sentData_append,sentData_append,sentData_silent silent,List.append_nil,List.map_append]
      rfl
    have hone : (D.pieces call.attempted).length ≤ 1 := by
      cases call <;> simp [pieces,sentData,Call.attempted,Event.data]
    refine ⟨t',hs',⟨_,conveys_append hconveys ?_,hleft,fun hf => absurd hf faulty⟩,
      ⟨(D.pieces tr).flatten ++ part,?_,?_,fun hf => absurd hf faulty⟩⟩
    · intro e he
      rcases List.mem_append.mp he with he | he
      · exact Or.inl (attempted_data call e he)
      · exact Or.inr (silent e he)
    · rw [htold',htold,List.append_assoc]
    · rw [hpieces]
      exact sentOf_append hone hpart

end

/-! ## Sessions -/

/-- However the program ends, it made the operations of its trace; if it returns, none of them failed. -/
def Operates {σ α : Type} [LineStream σ] (m : Session σ α) : Prop :=
  ∀ w, match m w with
    | .ok _ w' => ∃ tr, w'.trace = w.trace ++ tr ∧ Calls w.stream tr w'.stream
    | .error (.io _) w' => ∃ tr, w'.trace = w.trace ++ tr ∧ Made False w.stream tr w'.stream
    | .error _ _ => True

namespace Operates

variable {σ α β : Type} [LineStream σ]

theorem of_explained {m : Session σ α} (h : Explained m) : Operates m := by
  intro w
  have hw := h w
  cases hm : m w with
  | ok a w' =>
    rw [hm] at hw
    exact hw
  | error stop w' =>
    rw [hm] at hw
    cases stop with
    | io e =>
      obtain ⟨tr,s,call,hstop⟩ := hw
      refine ⟨tr ++ (call.attempted ++ []),?_,.broken not_false hstop.calls hstop.fails nofun⟩
      rw [hstop.trace,List.append_nil,List.append_assoc]
    | panic => trivial
    | outOfFuel => trivial

theorem throwIo (e : IoError) : Operates (throw (.io e) : Session σ α) :=
  fun w => ⟨[],(List.append_nil _).symm,.whole (.nil w.stream)⟩

theorem bind {m : Session σ α} {f : α → Session σ β} (hm : Operates m) (hf : ∀ a, Operates (f a)) :
    Operates (m >>= f) := by
  intro w
  have hw := hm w
  cases h : m w with
  | ok a w' =>
    rw [h] at hw
    rw [bind_ok h]
    obtain ⟨tr,htr,hcalls⟩ := hw
    have hw' := hf a w'
    cases h' : f a w' with
    | ok b w'' =>
      rw [h'] at hw'
      obtain ⟨tr',htr',hcalls'⟩ := hw'
      exact ⟨tr ++ tr',by rw [htr',htr,List.append_assoc],hcalls.append hcalls'⟩
    | error stop w'' =>
      rw [h'] at hw'
      cases stop with
      | io e =>
        obtain ⟨tr',htr',hmade⟩ := hw'
        exact ⟨tr ++ tr',by rw [htr',htr,List.append_assoc],.before hcalls hmade⟩
      | panic => trivial
      | outOfFuel => trivial
  | error stop w' =>
    rw [h] at hw
    rw [bind_error h]
    cases stop <;> exact hw

theorem quiet {m : Session σ α} {a : World σ → α} {f : World σ → World σ} (h : ∀ w, m w = .ok (a w) (f w))
    (htrace : ∀ w, (f w).trace = w.trace) (hstream : ∀ w, (f w).stream = w.stream) : Operates m :=
  of_explained (.quiet h htrace hstream)

theorem pure (a : α) : Operates (Pure.pure a : Session σ α) :=
  quiet (fun _ => rfl) (fun _ => rfl) fun _ => rfl

theorem emit {e : Event} (he : e.isSilent = true) : Operates (Session.emit e : Session σ Unit) :=
  of_explained (.emit he)

theorem writeLine (line : Text) : Operates (Session.writeLine line : Session σ Unit) :=
  of_explained (.writeLine line)

theorem logAll (records : List LogRecord) : Operates (Session.logAll records : Session σ Unit) := by
  intro w
  rw [logAll_eq]
  refine ⟨_,rfl,Made.calls_silent ?_⟩
  simp [Event.isSilent]

variable (env : Env) (connId : Nat) (config : Config) (keys : List SecretKey) (sink : Sink)

theorem readToken (fuel : Nat) : Operates (Rmbtd.readToken fuel : Session σ Text) := by
  induction fuel with
  | zero => exact fun _ => trivial
  | succ fuel ih =>
    apply (of_explained .readLine).bind
    intro line
    split
    · exact ih
    · exact pure line

theorem tokenValue (line : Text) : Operates (Rmbtd.tokenValue connId line : Session σ Text) := by
  unfold Rmbtd.tokenValue
  split
  · exact pure _
  split
  · exact (writeLine _).bind fun _ => throwIo _
  · apply (emit rfl).bind
    intro _
    exact (writeLine _).bind fun _ => throwIo _

theorem auth (token result : Text) (label reason : Option Text) :
    Operates (Rmbtd.auth sink connId token result label reason : Session σ Unit) := by
  unfold Rmbtd.auth
  split
  · exact emit rfl
  · exact pure ()

theorem checkToken (token : Text) :
    Operates (Rmbtd.checkToken env connId config keys token : Session σ TokenResult) := by
  have hpeer : Operates (peerAddr : Session σ (Option SocketAddr)) :=
    quiet (fun _ => rfl) (fun _ => rfl) fun _ => rfl
  have hclock : Operates (validationClock : Session σ ClockReadings) :=
    quiet (fun _ => rfl) (fun _ => rfl) fun _ => rfl
  apply hpeer.bind
  intro peer
  apply hclock.bind
  intro clock
  apply (logAll _).bind
  intro _
  exact (emit rfl).bind fun _ => pure _

theorem authenticate (token : Text) :
    Operates (Rmbtd.authenticate env connId config keys sink token : Session σ Text) := by
  have hrejected (reason : Option Text) : Operates (do
      Rmbtd.auth sink connId token "rejected" none reason
      Session.writeLine "ERR\n"
      throw (.io tokenRejected) : Session σ Text) :=
    (auth connId sink _ _ _ _).bind fun _ => (writeLine _).bind fun _ => throwIo _
  unfold Rmbtd.authenticate
  split
  · apply (checkToken env connId config keys token).bind
    intro verdict
    cases verdict with
    | accepted sleepSecs label =>
      apply (emit rfl).bind
      intro _
      apply (auth connId sink _ _ _ _).bind
      intro _
      split
      · exact (emit rfl).bind fun _ => pure _
      · exact pure _
    | _ => exact hrejected _
  · apply (emit rfl).bind
    intro _
    exact (auth connId sink _ _ _ _).bind fun _ => pure _

theorem runGreeting (fuel : Nat) :
    Operates (Rmbtd.runGreeting env connId config keys sink fuel : Session σ Greeting) := by
  apply (writeLine _).bind
  intro _
  apply (writeLine _).bind
  intro _
  apply (readToken fuel).bind
  intro line
  apply (tokenValue connId line).bind
  intro token
  apply (authenticate env connId config keys sink token).bind
  intro label
  apply (writeLine _).bind
  intro _
  exact (writeLine _).bind fun _ => pure _

theorem attempted {m : Session σ α} (hm : Operates m) {w w' : World σ} {r : Except IoError α}
    (h : attempt m w = .ok r w') : ∃ tr, w'.trace = w.trace ++ tr ∧
      Made (∃ a, r = .ok a) w.stream tr w'.stream := by
  have hw := hm w
  unfold attempt at h
  cases hrun : m w with
  | ok a w₁ =>
    rw [hrun] at h hw
    cases h
    obtain ⟨tr,htr,hcalls⟩ := hw
    exact ⟨tr,htr,.whole hcalls⟩
  | error stop w₁ =>
    rw [hrun] at h hw
    cases stop with
    | io e =>
      cases h
      obtain ⟨tr,htr,hmade⟩ := hw
      exact ⟨tr,htr,hmade.imp nofun⟩
    | panic => cases h
    | outOfFuel => cases h

/-- A session that is served made the operations of its trace, and if it ends with `QUIT` none of
them failed. -/
theorem serveStream {fuel : Nat} {w w' : World σ} {r : EndReason × Option Greeting}
    (h : Rmbtd.serveStream env connId config keys sink fuel w = .ok r w') :
    ∃ tr, w'.trace = w.trace ++ tr ∧ Made (r.1 = .quit) w.stream tr w'.stream := by
  obtain ⟨greeted,w₁,hgreeting,h⟩ := bind_eq_ok h
  obtain ⟨tr,htr,hmade⟩ := (runGreeting env connId config keys sink fuel).attempted hgreeting
  cases greeted with
  | error e =>
    cases h
    refine ⟨tr ++ [.logged ⟨.info,connTag connId ++ "greeting failed: " ++ e.message,none⟩],?_,
      (hmade.imp nofun).after (by simp [Event.isSilent])⟩
    rw [← List.append_assoc,← htr]
  | ok greeting =>
    have hgreeted : Calls w.stream tr w₁.stream := by
      cases hmade with
      | whole calls => exact calls
      | broken faulty _ _ _ => exact absurd ⟨greeting,rfl⟩ faulty
    obtain ⟨ended,w₂,hcommands,h⟩ := bind_eq_ok h
    obtain ⟨tr',htr',hmade'⟩ :=
      (of_explained (Explained.runCommands env connId greeting.uuid fuel)).attempted hcommands
    have hboth : w₂.trace = w.trace ++ (tr ++ tr') := by rw [htr',htr,List.append_assoc]
    cases ended with
    | ok _ =>
      cases h
      exact ⟨tr ++ tr',hboth,(hmade'.imp fun _ => ⟨_,rfl⟩).before hgreeted⟩
    | error e =>
      have hfailed : endReason e ≠ .quit := by
        unfold endReason
        split <;> decide
      have hmade : Made (endReason e = .quit) w.stream (tr ++ tr') w₂.stream :=
        (hmade'.imp fun hquit => absurd hquit hfailed).before hgreeted
      dsimp only at h
      split at h
      · cases h
        refine ⟨tr ++ tr' ++ [.logged ⟨.debug,connTag connId ++ "command loop ended: " ++ e.message,none⟩],?_,
          hmade.after (by simp [Event.isSilent])⟩
        rw [← List.append_assoc,← hboth]
      · cases h
        exact ⟨tr ++ tr',hboth,hmade⟩

end Operates

/-! ## Connections -/

section
variable {http : HttpEnv} {setup : Setup} {connId : Nat} {config : Config} {keys : List SecretKey}
  {isTls : Bool} {conn : RawConn}

private theorem status_switching : Http.statusOf (statusLine "101 Switching Protocols") = utf8 "101" := by decide

private theorem webSocketHandshake_announces {req : Text} {addHsts : Bool} {upgrade : Upgrade} {w w' : World RawConn}
    (h : webSocketHandshake http req addHsts w = .ok upgrade w') : upgrade = .webSocket ∧ ∃ bytes,
      w'.stream.input = w.stream.input ∧ w'.stream.output = w.stream.output ++ bytes ∧
        Continues "websocket" bytes := by
  unfold webSocketHandshake at h
  cases hkey : webSocketKey req with
  | none =>
    rw [hkey] at h
    cases h
  | some key =>
    rw [hkey] at h
    obtain ⟨_,w₁,hwrite,h⟩ := bind_eq_ok h
    obtain ⟨_,w₂,hflush,h⟩ := bind_eq_ok h
    cases h
    obtain ⟨conn₁,hwrote,rfl⟩ := onStream_eq_ok hwrite
    obtain ⟨conn₂,hflushed,rfl⟩ := onStream_eq_ok hflush
    obtain ⟨hinput,houtput⟩ := RawConn.writeAll_ok hwrote
    obtain ⟨hinput',houtput'⟩ := RawConn.flush_ok hflushed
    refine ⟨rfl,_,hinput'.trans hinput,houtput'.trans houtput,?_⟩
    have htext := webSocket_text http.env.crypto.base64 (acceptDigest http key) addHsts
    rw [acceptDigest] at htext
    rw [← htext]
    exact continues_text.mpr ⟨status_switching,(switching_values http.env.crypto.base64 (acceptDigest http key) addHsts).2.2.1⟩

private theorem rawHandshake_announces {addHsts : Bool} {upgrade : Upgrade} {w w' : World RawConn}
    (h : rawHandshake addHsts w = .ok upgrade w') : upgrade = .raw ∧ ∃ bytes,
      w'.stream.input = w.stream.input ∧ w'.stream.output = w.stream.output ++ bytes ∧
        Continues "RMBT" bytes := by
  obtain ⟨_,w₁,hwrite,h⟩ := bind_eq_ok h
  cases h
  obtain ⟨conn₁,hwrote,rfl⟩ := onStream_eq_ok hwrite
  obtain ⟨hinput,houtput⟩ := RawConn.writeAll_ok hwrote
  refine ⟨rfl,_,hinput,houtput,?_⟩
  rw [← rmbt_text addHsts]
  exact continues_text.mpr ⟨status_switching,(switching_values Base64.standard [] addHsts).1⟩

private theorem answer_announces {req : Text} {addHsts : Bool} {upgrade : Upgrade} {w w' : World RawConn}
    (h : answer http keys connId req addHsts w = .ok upgrade w')
    (hup : upgrade = .raw ∨ upgrade = .webSocket) : ∃ bytes,
      w'.stream.input = w.stream.input ∧ w'.stream.output = w.stream.output ++ bytes ∧
        ((upgrade = .raw ∧ Continues "RMBT" bytes) ∨ (upgrade = .webSocket ∧ Continues "websocket" bytes)) := by
  unfold answer at h
  split at h
  · obtain ⟨_,_,_,h⟩ := bind_eq_ok h
    cases h
    rcases hup with hup | hup <;> cases hup
  split at h
  · obtain ⟨_,_,_,h⟩ := bind_eq_ok h
    cases h
    rcases hup with hup | hup <;> cases hup
  split at h
  · obtain ⟨_,_,_,h⟩ := bind_eq_ok h
    obtain ⟨_,_,_,h⟩ := bind_eq_ok h
    obtain ⟨_,_,_,h⟩ := bind_eq_ok h
    cases h
  dsimp only at h
  split at h
  · obtain ⟨rfl,bytes,hinput,houtput,hcontinues⟩ := webSocketHandshake_announces h
    exact ⟨bytes,hinput,houtput,Or.inr ⟨rfl,hcontinues⟩⟩
  split at h
  · obtain ⟨rfl,bytes,hinput,houtput,hcontinues⟩ := rawHandshake_announces h
    exact ⟨bytes,hinput,houtput,Or.inl ⟨rfl,hcontinues⟩⟩
  · obtain ⟨_,_,_,h⟩ := bind_eq_ok h
    obtain ⟨_,_,_,h⟩ := bind_eq_ok h
    obtain ⟨_,_,_,h⟩ := bind_eq_ok h
    cases h

private theorem openTransport_ok {opened : Option Finish} {w w' : World Stream}
    (h : openTransport setup connId isTls w = .ok opened w') :
    (opened = none → w' = w) ∧ ∀ reason, opened ≠ some (.served reason) := by
  unfold openTransport at h
  cases htimeout : setup.timeoutError with
  | some e =>
    rw [htimeout] at h
    cases h
    exact ⟨nofun,nofun⟩
  | none =>
    rw [htimeout] at h
    cases isTls with
    | false =>
      cases h
      exact ⟨fun _ => rfl,nofun⟩
    | true =>
      simp only [if_true] at h
      cases htls : setup.tls with
      | none =>
        rw [htls] at h
        cases h
        exact ⟨nofun,nofun⟩
      | some error =>
        rw [htls] at h
        cases error with
        | none =>
          cases h
          exact ⟨fun _ => rfl,nofun⟩
        | some e =>
          cases h
          exact ⟨nofun,nofun⟩

private theorem upgrade_announces {addHsts : Bool} {upgrade : Upgrade} {w w' : World Stream}
    (hw : w.stream = .raw conn) (hup : upgrade = .raw ∨ upgrade = .webSocket)
    (h : onTransport http (detectAndUpgrade http keys connId addHsts) w = .ok upgrade w') :
    ∃ head upgraded bytes, IsHead head conn.input ∧ conn.input = head ++ upgraded.input ∧
      upgraded.output = conn.output ++ bytes ∧ w'.trace = w.trace ∧ w'.stream = upgrade.stream http upgraded ∧
      ((upgrade = .raw ∧ Continues "RMBT" bytes) ∨ (upgrade = .webSocket ∧ Continues "websocket" bytes)) := by
  obtain ⟨v,hv,rfl⟩ := onTransport_eq_ok hw h
  obtain ⟨buf,w₁,hread,hanswer⟩ := bind_eq_ok hv
  obtain ⟨next,hnext,rfl⟩ := onStream_eq_ok hread
  have hself := answer_upgrade hanswer hup rfl
  rw [hanswer] at hself
  have htrace := congrArg World.trace (EStateM.Result.ok.inj hself).2
  by_cases hhead : ∃ head, IsHead head conn.input ∧ head.length ≤ maxHead + 1
  · obtain ⟨head,hhead,hlen⟩ := hhead
    obtain ⟨rest,hinput⟩ := hhead.isPrefix
    have htakes := readHead_takes hhead hlen hinput.symm
    rw [hnext] at htakes
    cases htakes
    obtain ⟨bytes,hinput',houtput,hcontinues⟩ := answer_announces hanswer hup
    exact ⟨_,v.stream,bytes,hhead,by rw [hinput',← hinput],houtput,htrace,rfl,hcontinues⟩
  · rw [readHead_fails hhead] at hnext
    cases hnext

private theorem served_made {sink : Sink} {fuel : Nat} {reason : EndReason} {greeting : Option Greeting}
    {w w' : World Stream} (h : (do
      log .debug (connTag connId ++ "upgraded to " ++ (← get).stream.kindName)
      let (reason,greeting) ← serveStream http.env connId config keys sink fuel
      return (.served reason,greeting) : Session Stream (Finish × Option Greeting)) w =
        .ok (.served reason,greeting) w') :
    ∃ tr, w'.trace = w.trace ++ tr ∧ Made (reason = .quit) w.stream tr w'.stream := by
  obtain ⟨_,_,hget,h⟩ := bind_eq_ok h
  cases hget
  obtain ⟨_,w₁,hlog,h⟩ := bind_eq_ok h
  cases hlog
  obtain ⟨r,w₂,hserve,h⟩ := bind_eq_ok h
  cases h
  obtain ⟨tr,htr,hmade⟩ := Operates.serveStream http.env connId config keys sink hserve
  refine ⟨[.logged ⟨.debug,connTag connId ++ "upgraded to " ++ w.stream.kindName,none⟩] ++ tr,?_,
    .before (Made.calls_silent (by simp [Event.isSilent])) hmade⟩
  rw [htr,← List.append_assoc]

private theorem logClosing_made {finish : Finish} {greeting : Option Greeting} {w w' : World Stream}
    (h : logClosing connId finish greeting w = .ok () w') :
    ∃ record, w'.trace = w.trace ++ [.logged record] ∧ w'.stream = w.stream := by
  unfold logClosing at h
  cases greeting with
  | none =>
    cases h
    exact ⟨_,rfl,rfl⟩
  | some g =>
    cases h
    exact ⟨_,rfl,rfl⟩

/-- A connection that is served passed on its trace. The head of the request is what was taken from it
first, and the response that upgrades it is what was sent first; a client that reads the response finds
where it ends. If the client quits, then nothing more was taken than what the trace says, and it was
sent whole. -/
theorem handleConnection_passes {addr : SocketAddr} {sinkEnabled : Bool} {fuel : Nat} {instants : Nat → Nat}
    {wall : Nat → Int64} {reason : EndReason} {w' : World Stream}
    (h : handleConnection http setup connId config keys addr isTls sinkEnabled fuel
      (World.start (.raw conn) instants wall) = .ok (.served reason) w') :
    ∃ head upgraded bytes, IsHead head conn.input ∧ conn.input = head ++ upgraded.input ∧
      upgraded.output = conn.output ++ bytes ∧
      ((Continues "RMBT" bytes ∧ ∃ conn', w'.stream = .raw conn' ∧
          Duplex.raw.Passes upgraded conn' w'.trace (reason = .quit)) ∨
        (Continues "websocket" bytes ∧ ∃ ws, w'.stream = .webSocket ws ∧
          Duplex.webSocket.Passes (http.fromRawSocket upgraded) ws w'.trace (reason = .quit))) := by
  obtain ⟨⟨finish,greeting⟩,w₁,hsession,hclosing⟩ : ∃ r w₁, runSession http setup connId config keys isTls
      ⟨sinkEnabled,clientLabel config addr⟩ fuel _ = .ok r w₁ ∧ _ := bind_eq_ok h
  obtain ⟨_,w₂,hclosing,hend⟩ := bind_eq_ok hclosing
  cases hend
  obtain ⟨opened,w₃,hopened,hserved⟩ := bind_eq_ok hsession
  obtain ⟨hopen,hnot⟩ := openTransport_ok hopened
  cases opened with
  | some finish =>
    cases hserved
    exact absurd rfl (hnot reason)
  | none =>
    obtain rfl := hopen rfl
    obtain ⟨outcome,w₄,hupgrade,hserved⟩ := bind_eq_ok hserved
    have hpasses {upgrade : Upgrade} (hup : upgrade = .raw ∨ upgrade = .webSocket)
        (hattempt : outcome = .ok upgrade) (hserve : (do
          log .debug (connTag connId ++ "upgraded to " ++ (← get).stream.kindName)
          let (reason,greeting) ← serveStream http.env connId config keys ⟨sinkEnabled,clientLabel config addr⟩ fuel
          return (.served reason,greeting) : Session Stream (Finish × Option Greeting)) w₄ =
            .ok (.served reason,greeting) w₁) :
        ∃ head upgraded bytes, IsHead head conn.input ∧ conn.input = head ++ upgraded.input ∧
          upgraded.output = conn.output ++ bytes ∧
          Made (reason = .quit) (upgrade.stream http upgraded) w'.trace w'.stream ∧
          ((upgrade = .raw ∧ Continues "RMBT" bytes) ∨ (upgrade = .webSocket ∧ Continues "websocket" bytes)) := by
      subst hattempt
      obtain ⟨head,upgraded,bytes,hhead,hinput,houtput,htrace,hstream,hcontinues⟩ :=
        upgrade_announces rfl hup (attempt_eq_ok hupgrade)
      obtain ⟨tr,htr,hmade⟩ := served_made hserve
      obtain ⟨record,hclosed,hsame⟩ := logClosing_made hclosing
      refine ⟨head,upgraded,bytes,hhead,hinput,houtput,?_,hcontinues⟩
      rw [hclosed,hsame,htr,htrace,← hstream]
      exact (hmade.before (Made.calls_silent (by simp [Event.isSilent,World.start]))).after
        (by simp [Event.isSilent])
    cases outcome with
    | error e =>
      dsimp only at hserved
      split at hserved <;> cases hserved
    | ok upgrade =>
      cases upgrade with
      | ipCheck summary => cases hserved
      | version summary => cases hserved
      | raw =>
        obtain ⟨head,upgraded,bytes,hhead,hinput,houtput,hmade,hcontinues⟩ := hpasses (Or.inl rfl) rfl hserved
        rcases hcontinues with ⟨-,hcontinues⟩ | ⟨hup,-⟩
        · exact ⟨head,upgraded,bytes,hhead,hinput,houtput,Or.inl ⟨hcontinues,Duplex.raw.passes hmade⟩⟩
        · cases hup
      | webSocket =>
        obtain ⟨head,upgraded,bytes,hhead,hinput,houtput,hmade,hcontinues⟩ := hpasses (Or.inr rfl) rfl hserved
        rcases hcontinues with ⟨hup,-⟩ | ⟨-,hcontinues⟩
        · cases hup
        · exact ⟨head,upgraded,bytes,hhead,hinput,houtput,Or.inr ⟨hcontinues,Duplex.webSocket.passes hmade⟩⟩

end

private def goldenServed : EStateM.Result Stop (World Stream) Finish :=
  handleConnection goldenHttp ⟨none,none⟩ 1 .default [goldenKey] (.new goldenIp 40000) false true 3
    (World.start (.raw { goldenConn with
      input := utf8 ("GET / HTTP/1.1\r\nUpgrade: rmbt\r\n\r\nTOKEN ".toList ++ goldenToken ++ "\nQUIT\n".toList) })
      id fun _ => 1700000090)

private def servedOn : EStateM.Result Stop (World Stream) Finish → Option (Finish × Bool)
  | .ok finish w => some (finish,w.stream.isWebSocket)
  | .error _ _ => none

theorem handleConnection_passes_golden : ∃ w' upgraded conn', goldenServed = .ok (.served .quit) w' ∧
    w'.stream = .raw conn' ∧ Duplex.raw.Passes upgraded conn' w'.trace (EndReason.quit = .quit) := by
  have hrun : servedOn goldenServed = some (.served .quit,false) := by decide +kernel
  cases hserved : goldenServed with
  | error stop w' =>
    rw [hserved] at hrun
    cases hrun
  | ok finish w' =>
    rw [hserved] at hrun
    obtain ⟨hfinish,hraw⟩ := Prod.mk.inj (Option.some.inj hrun)
    subst hfinish
    obtain ⟨head,upgraded,bytes,-,-,-,⟨-,conn',hstream,hpasses⟩ | ⟨-,ws,hstream,-⟩⟩ :=
      handleConnection_passes hserved
    · exact ⟨w',upgraded,conn',rfl,hstream,hpasses⟩
    · rw [hstream] at hraw
      cases hraw

end Rmbtd
