import Rmbtd.Library.Fuel
import Rmbtd.Server.Handler
import Rmbtd.Stream.LineContract
import Rmbtd.Stream.Messages
import Rmbtd.Stream.Transport

/-!
# Sessions end

A session on a client's finite input ends: every turn of a loop that reads takes something from the
input, and the download loop of `GETTIME` ends with the time it runs for. So there is fuel enough for
every session whose clock goes on.
-/

namespace Rmbtd

open Effect Session

/-! ## What is left of the input -/

namespace Stream

def left : Stream → Nat
  | .raw conn => conn.input.length
  | .webSocket ws => ws.incoming.length

private theorem readUntil_left {limit : Nat} {bs line rest : Bytes}
    (h : RawConn.readUntil limit bs = (line,rest)) (hline : line ≠ []) : rest.length < bs.length := by
  rcases RawConn.readUntil_cases limit bs with ⟨body,tail,-,rfl,-,hread⟩ | ⟨-,hread⟩
  · rw [h] at hread
    cases hread
    rw [List.length_append,List.length_cons]
    omega
  · rw [h] at hread
    cases hread
    have hpos : 0 < (bs.take limit).length := List.length_pos_iff.mpr hline
    rw [List.length_take] at hpos
    rw [List.length_drop]
    omega

private theorem raw_readLine_left {conn next : RawConn} {line : Text}
    (h : RawConn.readLine conn = .ok line next) : next.input.length < conn.input.length := by
  unfold RawConn.readLine at h
  dsimp only at h
  split at h
  · cases h
  split at h
  · cases h
  next hline =>
  split at h
  · cases h
  split at h
  · cases h
    exact readUntil_left rfl hline
  · cases h

private theorem nextLine_left {end_ : WsError} {messages rest : List Message} {line : Text}
    (h : WebSocket.nextLine end_ messages = (.ok line,rest)) : rest.length < messages.length := by
  induction messages with
  | nil => cases h
  | cons m messages ih =>
    have hskip (hskip : WebSocket.nextLine end_ messages = (.ok line,rest)) :
        rest.length < (m::messages).length := Nat.lt_succ_of_lt (ih hskip)
    cases m with
    | close => cases h
    | ping => exact hskip h
    | pong => exact hskip h
    | frame => exact hskip h
    | text t =>
      cases h
      exact Nat.lt_succ_self _
    | binary b =>
      cases h
      exact Nat.lt_succ_self _

private theorem webSocket_readLine_left {ws next : WebSocket} {line : Text}
    (h : WebSocket.readLine ws = .ok line next) : next.incoming.length < ws.incoming.length := by
  unfold WebSocket.readLine at h
  split at h
  next line' rest hnext =>
    cases h
    exact nextLine_left hnext
  · cases h

theorem readLine_left {s s' : Stream} {line : Text} (h : LineStream.readLine s = .ok line s') :
    s'.left < s.left := by
  cases s with
  | raw conn =>
    cases hread : RawConn.readLine conn with
    | ok a next =>
      simp only [LineStream.readLine,lift,hread] at h
      cases h
      exact raw_readLine_left hread
    | error e next =>
      simp only [LineStream.readLine,lift,hread] at h
      cases h
  | webSocket ws =>
    cases hread : WebSocket.readLine ws with
    | ok a next =>
      simp only [LineStream.readLine,lift,hread] at h
      cases h
      exact webSocket_readLine_left hread
    | error e next =>
      simp only [LineStream.readLine,lift,hread] at h
      cases h

private theorem fill_left {end_ : WsError} {missing : Nat} {messages rest : List Message} {b : Bytes}
    (h : WebSocket.fill end_ missing messages = (.ok b,rest)) :
    rest.length ≤ messages.length ∧ (0 < missing → rest.length < messages.length) := by
  induction messages generalizing missing b with
  | nil =>
    cases missing with
    | zero =>
      cases h
      exact ⟨Nat.le_refl _,fun hpos => absurd hpos (Nat.lt_irrefl 0)⟩
    | succ missing => cases h
  | cons m messages ih =>
    cases missing with
    | zero =>
      cases h
      exact ⟨Nat.le_refl _,fun hpos => absurd hpos (Nat.lt_irrefl 0)⟩
    | succ missing =>
      -- a control frame is passed over, a data message is taken: one message less in both cases
      have htail {k : Nat} {b' : Bytes} (htail : WebSocket.fill end_ k messages = (.ok b',rest)) :
          rest.length < (m::messages).length := Nat.lt_succ_of_le (ih htail).1
      suffices hlt : rest.length < (m::messages).length from ⟨Nat.le_of_lt hlt,fun _ => hlt⟩
      cases hpayload : WebSocket.payload m with
      | none =>
        cases m with
        | close => cases h
        | text t => cases hpayload
        | binary b => cases hpayload
        | ping => exact htail h
        | pong => exact htail h
        | frame => exact htail h
      | some data =>
        have hfill : WebSocket.fill end_ (missing+1) (m::messages) =
            ((WebSocket.fill end_ (missing + 1 - min data.length (missing+1)) messages).1.map
              (data.take (min data.length (missing+1)) ++ ·),
              (WebSocket.fill end_ (missing + 1 - min data.length (missing+1)) messages).2) := by
          cases m with
          | close => cases hpayload
          | ping => cases hpayload
          | pong => cases hpayload
          | frame => cases hpayload
          | text t =>
            cases hpayload
            rfl
          | binary b =>
            cases hpayload
            rfl
        rw [hfill] at h
        cases hrest : WebSocket.fill end_ (missing + 1 - min data.length (missing+1)) messages with
        | mk filled rest' =>
          rw [hrest] at h
          cases filled with
          | error e => cases h
          | ok b' =>
            cases h
            exact htail hrest

theorem readExact_left {n : Nat} {s s' : Stream} {b : Bytes}
    (h : LineStream.readExact n s = .ok b s') : s'.left ≤ s.left ∧ (0 < n → s'.left < s.left) := by
  cases s with
  | raw conn =>
    simp only [LineStream.readExact,lift,RawConn.readExact] at h
    by_cases hn : n ≤ conn.input.length
    · rw [if_pos hn] at h
      cases h
      simp only [left,List.length_drop]
      omega
    · rw [if_neg hn] at h
      cases he : conn.inputEnd with
      | none =>
        rw [he] at h
        cases h
      | some e =>
        rw [he] at h
        cases h
  | webSocket ws =>
    simp only [LineStream.readExact,lift,WebSocket.readExact] at h
    cases hfill : WebSocket.fill ws.incomingEnd n ws.incoming with
    | mk filled rest =>
      rw [hfill] at h
      cases filled with
      | error e => cases h
      | ok b' =>
        cases h
        exact fill_left hfill

theorem writeAll_left {data : Bytes} {s s' : Stream} (h : LineStream.writeAll data s = .ok () s') :
    s'.left = s.left := by
  cases s with
  | raw conn =>
    simp only [LineStream.writeAll,lift,RawConn.writeAll] at h
    split at h
    next hwrite =>
      split at hwrite
      · cases hwrite
      · cases hwrite
        cases h
        rfl
    · cases h
  | webSocket ws =>
    simp only [LineStream.writeAll,lift,WebSocket.writeAll] at h
    split at h
    next hwrite =>
      split at hwrite
      · cases hwrite
      · cases hwrite
        cases h
        rfl
    · cases h

end Stream

/-! ## Sessions with input left -/

/-- The readings of the clock grow beyond every bound. -/
def Advancing (instants : Nat → Nat) : Prop := ∀ ns, ∃ i, ns ≤ instants i

theorem Advancing.tail {instants : Nat → Nat} (h : Advancing instants) :
    Advancing fun i => instants (i+1) := by
  intro ns
  obtain ⟨i,hi⟩ := h (max ns (instants 0 + 1))
  cases i with
  | zero => omega
  | succ i => exact ⟨i,Nat.le_trans (Nat.le_max_left _ _) hi⟩

/-- At most `n` bytes or messages are left, and the clock goes on. -/
structure World.Within (n : Nat) (w : World Stream) : Prop where
  left : w.stream.left ≤ n
  clock : Advancing w.instants

theorem World.Within.mono {k n : Nat} {w : World Stream} (h : w.Within k) (hle : k ≤ n) : w.Within n :=
  ⟨Nat.le_trans h.left hle,h.clock⟩

/-- Wherever the input and the clock stand, the program ends and takes nothing back. -/
def Halts {α : Type} (m : Nat → Session Stream α) : Prop :=
  ∀ n w, World.Within n w → Ends m w (fun _ w' => w'.Within n) (· ≠ .outOfFuel)

namespace Halts

variable {α β : Type}

theorem of_run {m : Session Stream α} (h : ∀ n w, World.Within n w →
    EndsIn (fun _ w' => w'.Within n) (· ≠ .outOfFuel) (m w)) : Halts fun _ => m :=
  fun n w hw => .const (h n w hw)

theorem pure (a : α) : Halts fun _ => Pure.pure a := of_run fun _ _ hw => hw

theorem throw {e : Stop} (h : e ≠ .outOfFuel) : Halts fun _ => (throw e : Session Stream α) :=
  of_run fun _ _ _ => h

theorem bind {m : Nat → Session Stream α} {f : Nat → α → Session Stream β} (hm : Halts m)
    (hf : ∀ a, Halts fun fuel => f fuel a) : Halts fun fuel => m fuel >>= f fuel :=
  fun n w hw => (hm n w hw).bind fun a w' hw' => hf a n w' hw'

theorem ite {c : Prop} [Decidable c] {m m' : Nat → Session Stream α} (hm : Halts m)
    (hm' : Halts m') : Halts fun fuel => if c then m fuel else m' fuel :=
  fun n w hw => .ite (fun _ => hm n w hw) fun _ => hm' n w hw

theorem onStream {m : EStateM IoError Stream α}
    (hm : ∀ a s s', m s = .ok a s' → s'.left ≤ s.left) : Halts fun _ => Session.onStream m := by
  apply of_run
  intro n w hw
  cases hs : m w.stream with
  | ok a s =>
    rw [onStream_ok hs]
    exact ⟨Nat.le_trans (hm a _ _ hs) hw.left,hw.clock⟩
  | error e s =>
    rw [onStream_error hs]
    exact nofun

theorem emit (e : Event) : Halts fun _ => (Session.emit e : Session Stream Unit) :=
  of_run fun _ _ hw => ⟨hw.left,hw.clock⟩

theorem log (level : Level) (text : Text) (quoted : Option Text) :
    Halts fun _ => (Session.log level text quoted : Session Stream Unit) := emit _

theorem readLine : Halts fun _ => (Session.readLine : Session Stream Text) :=
  (onStream fun _ _ _ h => Nat.le_of_lt (Stream.readLine_left h)).bind fun line =>
    (emit _).bind fun _ => pure line

theorem readExact (n : Nat) : Halts fun _ => (Session.readExact n : Session Stream Bytes) :=
  (onStream fun _ _ _ h => (Stream.readExact_left h).1).bind fun bytes =>
    (emit _).bind fun _ => pure bytes

theorem writeLine (line : Text) : Halts fun _ => (Session.writeLine line : Session Stream Unit) :=
  (emit _).bind fun _ => onStream fun _ _ _ h => Nat.le_of_eq (Stream.writeAll_left h)

theorem writeChunk (bytes : Bytes) : Halts fun _ => (Session.writeChunk bytes : Session Stream Unit) :=
  (emit _).bind fun _ => onStream fun _ _ _ h => Nat.le_of_eq (Stream.writeAll_left h)

theorem instant : Halts fun _ => (Session.instant : Session Stream Nat) :=
  of_run fun _ _ hw => ⟨hw.left,hw.clock.tail⟩

theorem elapsed (start : Nat) : Halts fun _ => (Session.elapsed start : Session Stream Nat) :=
  instant.bind fun _ => pure _

theorem chunkSize : Halts fun _ => (Session.chunkSize : Session Stream Nat) :=
  of_run fun _ _ hw => hw

theorem setChunkSize (n : Nat) : Halts fun _ => (Session.setChunkSize n : Session Stream Unit) :=
  of_run fun _ _ hw => ⟨hw.left,hw.clock⟩

theorem stats : Halts fun _ => (Session.stats : Session Stream ConnStats) := of_run fun _ _ hw => hw

theorem updateStats (f : ConnStats → ConnStats) :
    Halts fun _ => (Session.updateStats f : Session Stream Unit) :=
  of_run fun _ _ hw => ⟨hw.left,hw.clock⟩

/-! ## The handlers -/

theorem withChunkSize {argChunk : Text} {m : Nat → Session Stream Unit} (hm : Halts m) :
    Halts fun fuel => withChunkSize argChunk (m fuel) := by
  unfold Rmbtd.withChunkSize
  apply ite hm
  cases parseChunkSize argChunk maxChunkSize with
  | none => exact writeLine _
  | some n => exact (setChunkSize n).bind fun _ => hm

theorem downloadBuf (randomChunk : RandomChunk) :
    Halts fun _ => (downloadBuf randomChunk : Session Stream Bytes) :=
  chunkSize.bind fun _ => ite (pure _) (throw nofun)

theorem setLast (buf : Bytes) (terminal : Bool) :
    Halts fun _ => (setLast buf terminal : Session Stream Bytes) := ite (throw nofun) (pure _)

theorem acknowledge (start : Nat) : Halts fun _ => (acknowledge start : Session Stream Unit) :=
  readLine.bind fun _ => ite (writeLine _) ((elapsed start).bind fun _ => writeLine _)

private theorem onStream_instants (m : EStateM IoError Stream α) (w : World Stream) :
    (final (Session.onStream m w)).instants = w.instants := by
  unfold Session.onStream
  cases m w.stream with
  | ok a s => rfl
  | error e s => rfl

private theorem frame {m : Session Stream α} {n : Nat} {w : World Stream} (hm : Halts fun _ => m)
    (hframe : ∀ w, (final (m w)).instants = w.instants) (hw : w.Within n) :
    Ends (fun _ => m) w (fun _ w' => w'.Within n ∧ w'.instants = w.instants) (· ≠ .outOfFuel) := by
  obtain ⟨r,enough,hr,hrun⟩ := hm n w hw
  have hinstants := hframe w
  have hmw : m w = r := hrun enough (Nat.le_refl _)
  rw [hmw] at hinstants
  refine ⟨r,enough,?_,hrun⟩
  cases r with
  | ok a w' => exact ⟨hr,hinstants⟩
  | error e w' => exact hr

theorem sendFor (buf : Bytes) (start maxNs : Nat) (sent : UInt64) :
    Halts fun fuel => (sendFor buf start maxNs fuel sent : Session Stream UInt64) := by
  intro n w hw
  obtain ⟨i,hi⟩ := hw.clock (start + maxNs)
  induction i generalizing w sent with
  | zero =>
    apply Ends.succ fun fuel => rfl
    apply Ends.bind (Q := fun ns w' => w'.Within n ∧ maxNs ≤ ns)
    · refine .const ⟨⟨hw.left,hw.clock.tail⟩,?_⟩
      omega
    intro ns w₁ hw₁
    apply (setLast buf (maxNs ≤ ns) n w₁ hw₁.1).bind
    intro chunk w₂ hw₂
    apply (writeChunk chunk n w₂ hw₂).bind
    intro _ w₃ hw₃
    apply (chunkSize n w₃ hw₃).bind
    intro size w₄ hw₄
    exact .ite (fun _ => .pure hw₄) fun hless => absurd hw₁.2 hless
  | succ i ih =>
    apply Ends.succ fun fuel => rfl
    apply Ends.bind (Q := fun _ w' => w'.Within n ∧ w'.instants = fun i => w.instants (i+1))
    · exact .const ⟨⟨hw.left,hw.clock.tail⟩,rfl⟩
    intro ns w₁ hw₁
    apply ((setLast buf (maxNs ≤ ns)).frame (fun w => ?_) hw₁.1).bind
    · intro chunk w₂ hw₂
      apply ((writeChunk chunk).frame (fun w => ?_) hw₂.1).bind
      · intro _ w₃ hw₃
        apply (chunkSize.frame (fun _ => rfl) hw₃.1).bind
        intro size w₄ hw₄
        refine .ite (fun _ => .pure hw₄.1) fun _ => ih _ w₄ hw₄.1 ?_
        rw [hw₄.2,hw₃.2,hw₂.2,hw₁.2]
        exact hi
      · exact onStream_instants _ _
    · unfold Rmbtd.setLast
      split
      · rfl
      · rfl

theorem sendChunks (buf : Bytes) (count : Nat) :
    Halts fun _ => (sendChunks buf count : Session Stream Unit) := by
  induction count with
  | zero => exact pure ()
  | succ left ih => exact (setLast buf _).bind fun chunk => (writeChunk chunk).bind fun _ => ih

theorem handleGettime (env : Env) (argSecs argChunk : Text) :
    Halts fun fuel => (handleGettime env argSecs argChunk fuel : Session Stream Unit) := by
  apply withChunkSize
  cases parseBounded argSecs maxSeconds with
  | none => exact writeLine _
  | some seconds =>
    apply instant.bind
    intro start
    apply (downloadBuf env.randomChunk).bind
    intro buf
    apply (sendFor buf start _ 0).bind
    intro sent
    apply (elapsed start).bind
    intro ns
    exact (updateStats _).bind fun _ => acknowledge start

theorem handleGetchunks (env : Env) (argCount argChunk : Text) :
    Halts fun _ => (handleGetchunks env argCount argChunk : Session Stream Unit) := by
  apply withChunkSize
  cases parseBounded argCount maxChunks with
  | none => exact writeLine _
  | some count =>
    apply instant.bind
    intro start
    apply (downloadBuf env.randomChunk).bind
    intro buf
    apply (sendChunks buf count).bind
    intro _
    apply chunkSize.bind
    intro n
    apply (elapsed start).bind
    intro ns
    exact (updateStats _).bind fun _ => acknowledge start

theorem report (start : Nat) (total : UInt64) (lastReport : Int) :
    Halts fun _ => (report start total lastReport : Session Stream Int) :=
  (elapsed start).bind fun _ => ite ((writeLine _).bind fun _ => pure _) (pure _)

private theorem readChunk {n : Nat} {w : World Stream} (size : Nat) (hw : w.Within n) :
    Ends (fun _ => Session.readExact size) w (fun buf w' => buf.length = size ∧
      (0 < size → ∃ k < n, w'.Within k)) (· ≠ .outOfFuel) := by
  apply Ends.const
  cases hread : LineStream.readExact size w.stream with
  | ok buf s =>
    rw [readExact_ok hread]
    refine ⟨Stream.readExact_length hread,?_⟩
    intro hpos
    exact ⟨s.left,Nat.lt_of_lt_of_le ((Stream.readExact_left hread).2 hpos) hw.left,
      Nat.le_refl _,hw.clock⟩
  | error e s =>
    rw [readExact_error hread]
    exact nofun

theorem receiveChunks (start : Nat) (sendIntermediate : Bool) (total : UInt64) (lastReport : Int) :
    Halts fun fuel =>
      (receiveChunks start sendIntermediate fuel total lastReport : Session Stream UInt64) := by
  intro n w hw
  induction n using Nat.strong_induction_on generalizing w total lastReport with
  | _ n ih =>
    apply Ends.succ fun fuel => rfl
    apply (chunkSize n w hw).bind
    intro size w₁ hw₁
    apply (readChunk size hw₁).bind
    intro buf w₂ hread
    cases hlast : buf[size-1]? with
    | none => exact .throw nofun
    | some lastByte =>
      have hpos : 0 < size := by
        rw [List.getElem?_eq_some_iff] at hlast
        obtain ⟨hlt,-⟩ := hlast
        omega
      obtain ⟨k,hk,hw₂⟩ := hread.2 hpos
      have htail (t : UInt64) (r : Int) : ∀ w', w'.Within k → Ends (fun fuel =>
          if lastByte = 0xFF then Pure.pure t
          else Rmbtd.receiveChunks start sendIntermediate fuel t r) w' (fun _ w' => w'.Within n)
          (· ≠ .outOfFuel) := by
        intro w' hw'
        apply Ends.ite
        · exact fun _ => .pure (hw'.mono (Nat.le_of_lt hk))
        · exact fun _ => (ih k hk t r w' hw').mono fun _ _ h => h.mono (Nat.le_of_lt hk)
      apply Ends.ite
      · exact fun _ => (report start _ lastReport k w₂ hw₂).bind fun r w' hw' => htail _ r w' hw'
      · exact fun _ => (pure lastReport k w₂ hw₂).bind fun r w' hw' => htail _ r w' hw'

theorem handlePut (argChunk : Text) (sendIntermediate : Bool) :
    Halts fun fuel => (handlePut argChunk sendIntermediate fuel : Session Stream Unit) := by
  apply withChunkSize
  apply (writeLine _).bind
  intro _
  apply instant.bind
  intro start
  apply (receiveChunks start sendIntermediate 0 _).bind
  intro total
  apply (elapsed start).bind
  intro ns
  exact (updateStats _).bind fun _ => writeLine _

theorem handlePing : Halts fun _ => (handlePing : Session Stream Unit) := by
  apply instant.bind
  intro start
  apply (writeLine _).bind
  intro _
  apply readLine.bind
  intro ack
  apply ite (writeLine _)
  apply (elapsed start).bind
  intro ns
  exact (updateStats _).bind fun _ => writeLine _

theorem handler (env : Env) (cmd arg1 arg2 : Text) :
    (∀ fuel, (handler env fuel cmd arg1 arg2 : Option (Session Stream Unit)) = none) ∨
      ∃ m : Nat → Session Stream Unit, (∀ fuel, handler env fuel cmd arg1 arg2 = some (m fuel)) ∧
        Halts m := by
  unfold Rmbtd.handler
  split
  · exact Or.inr ⟨_,fun _ => rfl,handleGettime env arg1 arg2⟩
  split
  · exact Or.inr ⟨_,fun _ => rfl,handleGetchunks env arg1 arg2⟩
  split
  · exact Or.inr ⟨_,fun _ => rfl,handlePut arg1 true⟩
  split
  · exact Or.inr ⟨_,fun _ => rfl,handlePut arg1 false⟩
  split
  · exact Or.inr ⟨_,fun _ => rfl,handlePing⟩
  · exact Or.inl fun _ => rfl

/-! ## The loops that read lines -/

private theorem takeLine {n : Nat} {w : World Stream} (hw : w.Within n) :
    Ends (fun _ => Session.readLine) w (fun _ w' => ∃ k < n, w'.Within k) (· ≠ .outOfFuel) := by
  apply Ends.const
  cases hread : LineStream.readLine w.stream with
  | ok line s =>
    rw [readLine_ok hread]
    exact ⟨s.left,Nat.lt_of_lt_of_le (Stream.readLine_left hread) hw.left,Nat.le_refl _,hw.clock⟩
  | error e s =>
    rw [readLine_error hread]
    exact nofun

theorem commandLoop (env : Env) (connId : Nat) (uuid : Text) :
    Halts fun fuel => (commandLoop env connId uuid fuel : Session Stream Unit) := by
  intro n w hw
  induction n using Nat.strong_induction_on generalizing w with
  | _ n ih =>
    apply Ends.succ fun fuel => rfl
    apply (writeLine acceptLine n w hw).bind
    intro _ w₁ hw₁
    apply (takeLine hw₁).bind
    rintro line w₂ ⟨k,hk,hw₂⟩
    apply (log _ _ _ k w₂ hw₂).bind
    intro _ w₃ hw₃
    apply (chunkSize k w₃ hw₃).bind
    intro size w₄ hw₄
    apply (stats k w₄ hw₄).bind
    intro s w₅ hw₅
    apply (emit _ k w₅ hw₅).bind
    intro _ w₆ hw₆
    have hnext (w : World Stream) (hw : w.Within k) :
        Ends (fun fuel => Rmbtd.commandLoop env connId uuid fuel) w (fun _ w' => w'.Within n)
          (· ≠ .outOfFuel) := (ih k hk w hw).mono fun _ _ h => h.mono (Nat.le_of_lt hk)
    rcases handler env ((splitn 3 " " (trim line)).getD 0 [])
      (trim ((splitn 3 " " (trim line)).getD 1 [])) (trim ((splitn 3 " " (trim line)).getD 2 [])) with
      hnone | ⟨m,hm,hhalts⟩
    · simp only [hnone]
      apply Ends.ite
      · intro _
        have hbye := (writeLine "BYE\n").bind fun _ : Unit =>
          log .info (connTag connId ++ "QUIT received; uuid=" ++ uuid) none
        exact (hbye k w₆ hw₆).mono fun _ _ h => h.mono (Nat.le_of_lt hk)
      · intro _
        apply (log _ _ _ k w₆ hw₆).bind
        intro _ w₇ hw₇
        apply (writeLine _ k w₇ hw₇).bind
        exact fun _ w₈ hw₈ => hnext w₈ hw₈
    · simp only [hm]
      apply (updateStats _ k w₆ hw₆).bind
      intro _ w₇ hw₇
      apply (hhalts k w₇ hw₇).bind
      exact fun _ w₈ hw₈ => hnext w₈ hw₈

theorem runCommands (env : Env) (connId : Nat) (uuid : Text) :
    Halts fun fuel => (runCommands env connId uuid fuel : Session Stream Unit) :=
  (emit _).bind fun _ => (setChunkSize _).bind fun _ => commandLoop env connId uuid

theorem readToken : Halts fun fuel => (readToken fuel : Session Stream Text) := by
  intro n w hw
  induction n using Nat.strong_induction_on generalizing w with
  | _ n ih =>
    apply Ends.succ fun fuel => rfl
    apply (takeLine hw).bind
    rintro line w₁ ⟨k,hk,hw₁⟩
    apply Ends.ite
    · exact fun _ => (ih k hk w₁ hw₁).mono fun _ _ h => h.mono (Nat.le_of_lt hk)
    · exact fun _ => .pure (hw₁.mono (Nat.le_of_lt hk))

/-! ## The greeting -/

theorem tokenValue (connId : Nat) (line : Text) :
    Halts fun _ => (tokenValue connId line : Session Stream Text) := by
  unfold Rmbtd.tokenValue
  cases stripPrefix "TOKEN " line with
  | some rest => exact pure _
  | none =>
    apply ite
    · exact (writeLine _).bind fun _ => throw nofun
    · exact (log _ _ _).bind fun _ => (writeLine _).bind fun _ => throw nofun

theorem authEvent (sink : Sink) (connId : Nat) (token result : Text) (label reason : Option Text) :
    Halts fun _ => (auth sink connId token result label reason : Session Stream Unit) :=
  ite (emit _) (pure ())

theorem checkToken (env : Env) (connId : Nat) (config : Config) (keys : List SecretKey)
    (token : Text) :
    Halts fun _ => (checkToken env connId config keys token : Session Stream TokenResult) := by
  apply (of_run fun _ _ hw => hw : Halts fun _ => (peerAddr : Session Stream _)).bind
  intro peer
  apply (of_run fun _ _ hw => ⟨hw.left,hw.clock⟩ : Halts fun _ => (validationClock : Session Stream _)).bind
  intro clock
  have hlog (records : List LogRecord) : Halts fun _ => (logAll records : Session Stream Unit) := by
    apply of_run
    intro n w hw
    rw [logAll_eq]
    exact ⟨hw.left,hw.clock⟩
  exact (hlog _).bind fun _ => (emit _).bind fun _ => pure _

theorem authenticate (env : Env) (connId : Nat) (config : Config) (keys : List SecretKey)
    (sink : Sink) (token : Text) :
    Halts fun _ => (authenticate env connId config keys sink token : Session Stream Text) := by
  apply ite
  · apply (checkToken env connId config keys token).bind
    intro verdict
    cases verdict with
    | accepted secs label =>
      apply (log _ _ _).bind
      intro _
      apply (authEvent sink connId token _ _ _).bind
      intro _
      exact ite ((emit _).bind fun _ => pure _) (pure _)
    | _ =>
      exact (authEvent sink connId token _ _ _).bind fun _ => (writeLine _).bind fun _ => throw nofun
  · exact (log _ _ _).bind fun _ => (authEvent sink connId token _ _ _).bind fun _ => pure _

theorem runGreeting (env : Env) (connId : Nat) (config : Config) (keys : List SecretKey)
    (sink : Sink) :
    Halts fun fuel => (runGreeting env connId config keys sink fuel : Session Stream Greeting) := by
  apply (writeLine _).bind
  intro _
  apply (writeLine _).bind
  intro _
  apply readToken.bind
  intro line
  apply (tokenValue connId line).bind
  intro token
  apply (authenticate env connId config keys sink token).bind
  intro label
  exact (writeLine _).bind fun _ => (writeLine _).bind fun _ => pure _

theorem attempt {m : Nat → Session Stream α} (hm : Halts m) {n : Nat} {w : World Stream}
    (hw : w.Within n) : Ends (fun fuel => Rmbtd.attempt (m fuel)) w
      (fun r w' => ∀ a, r = .ok a → w'.Within n) (· ≠ .outOfFuel) := by
  apply (hm n w hw).through (fun r => Rmbtd.attempt (fun _ => r) w) fun _ => rfl
  intro r hr
  cases r with
  | ok a w' => exact fun _ _ => hr
  | error stop w' =>
    cases stop with
    | io e =>
      intro a ha
      cases ha
    | panic => exact hr
    | outOfFuel => exact absurd rfl hr

end Halts

/-- Greeting and command loop end on every stream, if the clock goes on. -/
theorem serveStream_ends (env : Env) (connId : Nat) (config : Config) (keys : List SecretKey)
    (sink : Sink) {w : World Stream} (hclock : Advancing w.instants) :
    Ends (fun fuel => serveStream env connId config keys sink fuel) w (fun _ _ => True)
      (· ≠ .outOfFuel) := by
  have hw : w.Within w.stream.left := ⟨Nat.le_refl _,hclock⟩
  have hlast (r : EndReason × Option Greeting) (w : World Stream) :
      Ends (fun _ => pure r : Nat → Session Stream _) w (fun _ _ => True) (· ≠ .outOfFuel) :=
    .pure trivial
  have hrecord (level : Level) (text : Text) (r : EndReason × Option Greeting) (w : World Stream) :
      Ends (fun _ => (do log level text; return r) : Nat → Session Stream _) w (fun _ _ => True)
        (· ≠ .outOfFuel) := .const trivial
  apply ((Halts.runGreeting env connId config keys sink).attempt hw).bind
  intro result w₁ hw₁
  cases result with
  | error e => exact hrecord _ _ _ w₁
  | ok greeting =>
    apply ((Halts.runCommands env connId greeting.uuid).attempt (hw₁ greeting rfl)).bind
    intro result w₂ _
    cases result with
    | ok _ => exact hlast _ w₂
    | error e =>
      apply Ends.ite
      · exact fun _ => hrecord _ _ _ w₂
      · exact fun _ => hlast _ w₂

end Rmbtd
