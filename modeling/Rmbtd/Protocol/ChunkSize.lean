import Rmbtd.Protocol.Gate
import Rmbtd.Stream.Messages

/-!
# The chunk size

Clients change the chunk size of their session. The handlers are written out again with the checks
a debug build makes on products, subtractions and buffers, and none of them fails: the size never
leaves the range the greeting advertises.
-/

namespace Rmbtd

open Effect Session

def InRange (n : Nat) : Prop := minChunkSize ≤ n ∧ n ≤ maxChunkSize

theorem parseChunkSize_inRange {s : Text} {n : Nat} (h : parseChunkSize s maxChunkSize = some n) :
    InRange n := by
  have hf := (Option.filter_eq_some_iff.mp h).2
  simp only [decide_eq_true_eq] at hf
  exact hf

theorem parseBounded_le {s : Text} {max n : Nat} (h : parseBounded s max = some n) :
    0 < n ∧ n ≤ max := by
  have hf := (Option.filter_eq_some_iff.mp h).2
  simp only [decide_eq_true_eq] at hf
  exact hf

/-! ## Checked handlers -/

namespace Checked

variable {σ : Type} [LineStream σ]

/-- Panic unless the condition holds. -/
def ensure (ok : Prop) [Decidable ok] : Session σ Unit := if ok then pure () else throw .panic

def handleGettime (env : Env) (argSecs argChunk : Text) (fuel : Nat) : Session σ Unit :=
  withChunkSize argChunk (match parseBounded argSecs maxSeconds with
    | none => writeLine "ERR\n"
    | some seconds => do
      ensure (seconds * 1000000000 < 2^128)
      let start ← instant
      let buf ← downloadBuf env.randomChunk
      ensure (buf.length ≤ 4 * 1024 * 1024)
      let sent ← sendFor buf start (seconds * 1000000000) fuel 0
      let ns ← elapsed start
      updateStats (.addDownload sent ns)
      acknowledge start)

def handleGetchunks (env : Env) (argCount argChunk : Text) : Session σ Unit :=
  withChunkSize argChunk (match parseBounded argCount maxChunks with
    | none => writeLine "ERR\n"
    | some count => do
      let start ← instant
      let buf ← downloadBuf env.randomChunk
      ensure (buf.length ≤ 4 * 1024 * 1024)
      sendChunks buf count
      let n ← chunkSize
      ensure (count * n < 2^64)
      let ns ← elapsed start
      updateStats (.addDownload (UInt64.ofNat count * UInt64.ofNat n) ns)
      acknowledge start)

/-- The time as an `i128` and the time since the last report, which is only computed after one. -/
def report (start : Nat) (total : UInt64) (lastReport : Int) : Session σ Int := do
  let ns ← elapsed start
  ensure (ns < 2^127)
  ensure (lastReport < 0 ∨ -2^127 ≤ (ns : Int) - lastReport ∧ (ns : Int) - lastReport < 2^127)
  if lastReport < 0 ∨ 1000000 ≤ (ns : Int) - lastReport then do
    writeLine (reportLine ns total)
    return ns
  else return lastReport

def receiveChunks (start : Nat) (sendIntermediate : Bool) :
    Nat → UInt64 → Int → Session σ UInt64
  | 0, _, _ => throw .outOfFuel
  | fuel+1, total, lastReport => do
    let n ← chunkSize
    ensure (0 < n)
    let buf ← readExact n
    let total := total + UInt64.ofNat n
    match buf[n-1]? with
    | none => throw .panic
    | some lastByte => do
      let lastReport ← if sendIntermediate then report start total lastReport else pure lastReport
      if lastByte = 0xFF then return total
      else receiveChunks start sendIntermediate fuel total lastReport

def handlePut (argChunk : Text) (sendIntermediate : Bool) (fuel : Nat) : Session σ Unit :=
  withChunkSize argChunk do
    writeLine "OK\n"
    let start ← instant
    let n ← chunkSize
    ensure (n ≤ 4 * 1024 * 1024)
    let total ← receiveChunks start sendIntermediate fuel 0 (-2^127)
    let ns ← elapsed start
    updateStats (.addUpload total ns)
    writeLine (timeLine ns)

def handler (env : Env) (fuel : Nat) (cmd arg1 arg2 : Text) : Option (Session σ Unit) :=
  if cmd = "GETTIME" then some (handleGettime env arg1 arg2 fuel)
  else if cmd = "GETCHUNKS" then some (handleGetchunks env arg1 arg2)
  else if cmd = "PUT" then some (handlePut arg1 true fuel)
  else if cmd = "PUTNORESULT" then some (handlePut arg1 false fuel)
  else if cmd = "PING" then some handlePing
  else none

def commandLoop (env : Env) (connId : Nat) (uuid : Text) : Nat → Session σ Unit
  | 0 => throw .outOfFuel
  | fuel+1 => do
    writeLine acceptLine
    let line ← readLine
    let line := trim line
    log .debug (connTag connId ++ "command: ") (some line)
    let n ← chunkSize
    let s ← stats
    emit (.command line n s)
    let parts := splitn 3 " " line
    let cmd := parts.getD 0 []
    match handler env fuel cmd (trim (parts.getD 1 [])) (trim (parts.getD 2 [])) with
    | some handle => do
      updateStats .countCommand
      handle
      commandLoop env connId uuid fuel
    | none =>
      if cmd = "QUIT" then do
        writeLine "BYE\n"
        log .info (connTag connId ++ "QUIT received; uuid=" ++ uuid)
      else do
        log .error (connTag connId ++ "unknown command: ") (some cmd)
        writeLine "ERR\n"
        commandLoop env connId uuid fuel

def runCommands (env : Env) (connId : Nat) (uuid : Text) (fuel : Nat) : Session σ Unit := do
  emit .commandsStarted
  setChunkSize defaultChunkSize
  commandLoop env connId uuid fuel

/-! ### The checks only add panics -/

/-- A run that does not panic is one of the unchecked program. -/
def Refines {α : Type} (m n : Session σ α) : Prop := Simulates Eq (· = .panic) Eq m n

omit [LineStream σ] in
theorem Refines.refl {α : Type} (m : Session σ α) : Refines m m := by
  rintro w _ rfl
  cases m w with
  | ok a w' => exact ⟨a,w',rfl,rfl,rfl⟩
  | error e w' => exact Or.inr ⟨w',rfl,rfl⟩

omit [LineStream σ] in
theorem Refines.bind {α β : Type} {m n : Session σ α} {f g : α → Session σ β} (hm : Refines m n)
    (hf : ∀ a, Refines (f a) (g a)) : Refines (m >>= f) (n >>= g) := by
  apply Simulates.bind hm
  intro a b hab
  subst hab
  exact hf a

omit [LineStream σ] in
theorem Refines.after {α β : Type} (m : Session σ α) {f g : α → Session σ β}
    (hf : ∀ a, Refines (f a) (g a)) : Refines (m >>= f) (m >>= g) := (refl m).bind hf

omit [LineStream σ] in
theorem Refines.ensure {α : Type} {ok : Prop} [Decidable ok] {m n : Session σ α}
    (h : Refines m n) : Refines (Checked.ensure ok >>= fun _ => m) n := by
  unfold Checked.ensure
  by_cases hok : ok
  · rw [if_pos hok]
    exact h
  · rw [if_neg hok]
    intro w _ _
    exact Or.inl rfl

omit [LineStream σ] in
theorem Refines.chunkSize {α : Type} {f : Nat → Session σ α} {m : Session σ α}
    (h : ∀ n, Refines (f n) m) : Refines (Session.chunkSize >>= f) m := by
  rintro w _ rfl
  exact h w.chunkSize w w rfl

theorem Refines.withChunkSize {argChunk : Text} {m n : Session σ Unit} (h : Refines m n) :
    Refines (withChunkSize argChunk m) (withChunkSize argChunk n) := by
  unfold Rmbtd.withChunkSize
  split
  · exact h
  · cases parseChunkSize argChunk maxChunkSize with
    | none => exact .refl _
    | some size => exact .after _ fun _ => h

theorem handleGettime_refines (env : Env) (argSecs argChunk : Text) (fuel : Nat) :
    Refines (handleGettime env argSecs argChunk fuel : Session σ Unit)
      (Rmbtd.handleGettime env argSecs argChunk fuel) := by
  apply Refines.withChunkSize
  cases parseBounded argSecs maxSeconds with
  | none => exact .refl _
  | some seconds =>
    apply Refines.ensure
    apply Refines.after
    intro start
    apply Refines.after
    intro buf
    apply Refines.ensure
    exact .refl _

theorem handleGetchunks_refines (env : Env) (argCount argChunk : Text) :
    Refines (handleGetchunks env argCount argChunk : Session σ Unit)
      (Rmbtd.handleGetchunks env argCount argChunk) := by
  apply Refines.withChunkSize
  cases parseBounded argCount maxChunks with
  | none => exact .refl _
  | some count =>
    apply Refines.after
    intro start
    apply Refines.after
    intro buf
    apply Refines.ensure
    apply Refines.after
    intro _
    apply Refines.after
    intro n
    apply Refines.ensure
    exact .refl _

theorem report_refines (start : Nat) (total : UInt64) (lastReport : Int) :
    Refines (report start total lastReport : Session σ Int)
      (Rmbtd.report start total lastReport) := by
  apply Refines.after
  intro ns
  apply Refines.ensure
  apply Refines.ensure
  exact .refl _

theorem receiveChunks_refines (start : Nat) (sendIntermediate : Bool) (fuel : Nat)
    (total : UInt64) (lastReport : Int) :
    Refines (receiveChunks start sendIntermediate fuel total lastReport : Session σ UInt64)
      (Rmbtd.receiveChunks start sendIntermediate fuel total lastReport) := by
  induction fuel generalizing total lastReport with
  | zero => exact .refl _
  | succ fuel ih =>
    apply Refines.after
    intro n
    apply Refines.ensure
    apply Refines.after
    intro buf
    have htail {lastByte : UInt8} (t : UInt64) (r : Int) : Refines
        (if lastByte = 0xFF then pure t else receiveChunks start sendIntermediate fuel t r :
          Session σ UInt64)
        (if lastByte = 0xFF then pure t
          else Rmbtd.receiveChunks start sendIntermediate fuel t r) :=
      Simulates.ite (Refines.refl _) (ih t r)
    cases buf[n-1]? with
    | none => exact .refl _
    | some lastByte =>
      apply Simulates.ite
      · exact (report_refines start _ lastReport).bind fun r => htail _ r
      · exact Refines.after _ fun r => htail _ r

theorem handlePut_refines (argChunk : Text) (sendIntermediate : Bool) (fuel : Nat) :
    Refines (handlePut argChunk sendIntermediate fuel : Session σ Unit)
      (Rmbtd.handlePut argChunk sendIntermediate fuel) := by
  apply Refines.withChunkSize
  apply Refines.after
  intro _
  apply Refines.after
  intro start
  apply Refines.chunkSize
  intro n
  apply Refines.ensure
  exact (receiveChunks_refines start sendIntermediate fuel 0 _).bind fun _ => .refl _

theorem handler_refines (env : Env) (fuel : Nat) (cmd arg1 arg2 : Text) :
    (handler env fuel cmd arg1 arg2 : Option (Session σ Unit)) = none ∧
        (Rmbtd.handler env fuel cmd arg1 arg2 : Option (Session σ Unit)) = none ∨
      ∃ m n : Session σ Unit, handler env fuel cmd arg1 arg2 = some m ∧
        Rmbtd.handler env fuel cmd arg1 arg2 = some n ∧ Refines m n := by
  unfold handler Rmbtd.handler
  split
  · exact Or.inr ⟨_,_,rfl,rfl,handleGettime_refines env arg1 arg2 fuel⟩
  split
  · exact Or.inr ⟨_,_,rfl,rfl,handleGetchunks_refines env arg1 arg2⟩
  split
  · exact Or.inr ⟨_,_,rfl,rfl,handlePut_refines arg1 true fuel⟩
  split
  · exact Or.inr ⟨_,_,rfl,rfl,handlePut_refines arg1 false fuel⟩
  split
  · exact Or.inr ⟨_,_,rfl,rfl,.refl _⟩
  · exact Or.inl ⟨rfl,rfl⟩

theorem commandLoop_refines (env : Env) (connId : Nat) (uuid : Text) (fuel : Nat) :
    Refines (commandLoop env connId uuid fuel : Session σ Unit)
      (Rmbtd.commandLoop env connId uuid fuel) := by
  induction fuel with
  | zero => exact .refl _
  | succ fuel ih =>
    apply Refines.after
    intro _
    apply Refines.after
    intro line
    apply Refines.after
    intro _
    apply Refines.after
    intro n
    apply Refines.after
    intro s
    apply Refines.after
    intro _
    have hcases : (handler env fuel _ _ _ : Option (Session σ Unit)) = none ∧ _ ∨ _ :=
      handler_refines env fuel ((splitn 3 " " (trim line)).getD 0 [])
        (trim ((splitn 3 " " (trim line)).getD 1 [])) (trim ((splitn 3 " " (trim line)).getD 2 []))
    dsimp only
    rcases hcases with ⟨h1,h2⟩ | ⟨m,m',h1,h2,hm⟩
    · rw [h1,h2]
      apply Simulates.ite
      · exact Refines.refl _
      · apply Refines.after
        intro _
        exact .after _ fun _ => ih
    · rw [h1,h2]
      apply Refines.after
      intro _
      exact hm.bind fun _ => ih

theorem runCommands_refines (env : Env) (connId : Nat) (uuid : Text) (fuel : Nat) :
    Refines (runCommands env connId uuid fuel : Session σ Unit)
      (Rmbtd.runCommands env connId uuid fuel) := by
  apply Refines.after
  intro _
  exact .after _ fun _ => commandLoop_refines env connId uuid fuel

end Checked

/-! ## No check fails -/

/-- The chunks of an event and the chunk size at a command are in the range. -/
def Event.Sized : Event → Prop
  | .sentChunk bytes => InRange bytes.length
  | .receivedChunk bytes => InRange bytes.length
  | .command _ n _ => InRange n
  | _ => True

/-- The state of a session between two operations; its trace goes on from `before`. -/
structure Healthy (before : List Event) (w : World Stream) : Prop where
  size : InRange w.chunkSize
  clock : ∀ i, w.instants i < 2^94
  trace : ∃ tr, w.trace = before ++ tr ∧ ∀ e ∈ tr, e.Sized

/-- From a healthy state the program does not panic, and it ends in a healthy state. -/
def Safe {α : Type} (before : List Event) (m : Session Stream α) (Q : α → Prop) : Prop :=
  Triple (Healthy before) m (fun a w => Healthy before w ∧ Q a)
    fun e w => e ≠ .panic ∧ Healthy before w

namespace Safe

variable {before : List Event} {α β : Type}

theorem pure {Q : α → Prop} {a : α} (h : Q a) : Safe before (pure a) Q :=
  fun _ hw => ⟨hw,h⟩

theorem throw {Q : α → Prop} {e : Stop} (h : e ≠ .panic) :
    Safe before (throw e : Session Stream α) Q :=
  fun _ hw => ⟨h,hw⟩

theorem bind {m : Session Stream α} {f : α → Session Stream β} {R : α → Prop} {Q : β → Prop}
    (hm : Safe before m R) (hf : ∀ a, R a → Safe before (f a) Q) : Safe before (m >>= f) Q := by
  apply Triple.bind hm
  intro a w hw
  exact hf a hw.2 w hw.1

theorem ensure {ok : Prop} [Decidable ok] (h : ok) :
    Safe before (Checked.ensure ok) fun _ => True := by
  unfold Checked.ensure
  rw [if_pos h]
  exact pure trivial

theorem emit {e : Event} (h : e.Sized) : Safe before (Session.emit e) fun _ => True := by
  intro w hw
  obtain ⟨tr,htr,hsized⟩ := hw.trace
  refine ⟨⟨hw.size,hw.clock,tr ++ [e],?_,?_⟩,trivial⟩
  · change w.trace ++ [e] = _
    rw [htr,List.append_assoc]
  · intro e' he'
    rcases List.mem_append.mp he' with he' | he'
    · exact hsized e' he'
    · rw [List.mem_singleton.mp he']
      exact h

theorem onStream {m : EStateM IoError Stream α} {Q : α → Prop}
    (h : ∀ s a s', m s = .ok a s' → Q a) : Safe before (Session.onStream m) Q := by
  intro w hw
  unfold Session.onStream
  cases hm : m w.stream with
  | ok a s => exact ⟨⟨hw.size,hw.clock,hw.trace⟩,h _ _ _ hm⟩
  | error e s => exact ⟨nofun,hw.size,hw.clock,hw.trace⟩

theorem readLine : Safe before Session.readLine fun _ => True :=
  (onStream fun _ _ _ _ => trivial).bind fun line _ =>
    (emit (e := .received line) trivial).bind fun _ _ => pure trivial

theorem readExact {n : Nat} (hn : InRange n) :
    Safe before (Session.readExact n) fun b => b.length = n := by
  apply bind (R := fun b => b.length = n)
  · exact onStream fun _ _ _ h => Stream.readExact_length h
  · intro b hb
    have hsized : (Event.receivedChunk b).Sized := by
      change InRange b.length
      rw [hb]
      exact hn
    exact (emit hsized).bind fun _ _ => pure hb

theorem writeLine (line : Text) : Safe before (Session.writeLine line) fun _ => True :=
  (emit (e := .sentLine line) trivial).bind fun _ _ => onStream fun _ _ _ _ => trivial

theorem writeChunk {bytes : Bytes} (h : InRange bytes.length) :
    Safe before (Session.writeChunk bytes) fun _ => True :=
  bind (emit h) fun _ _ => onStream fun _ _ _ _ => trivial

theorem instant : Safe before Session.instant fun ns => ns < 2^94 :=
  fun _ hw => ⟨⟨hw.size,fun i => hw.clock (i+1),hw.trace⟩,hw.clock 0⟩

theorem elapsed (start : Nat) : Safe before (Session.elapsed start) fun ns => ns < 2^94 :=
  instant.bind fun _ hns => pure (by omega)

theorem chunkSize : Safe before Session.chunkSize InRange := fun _ hw => ⟨hw,hw.size⟩

theorem setChunkSize {n : Nat} (h : InRange n) :
    Safe before (Session.setChunkSize n) fun _ => True :=
  fun _ hw => ⟨⟨h,hw.clock,hw.trace⟩,trivial⟩

theorem stats : Safe before Session.stats fun _ => True := fun _ hw => ⟨hw,trivial⟩

theorem updateStats (f : ConnStats → ConnStats) :
    Safe before (Session.updateStats f) fun _ => True :=
  fun _ hw => ⟨⟨hw.size,hw.clock,hw.trace⟩,trivial⟩

/-! ### Handlers -/

theorem withChunkSize {argChunk : Text} {m : Session Stream Unit}
    (h : Safe before m fun _ => True) :
    Safe before (withChunkSize argChunk m) fun _ => True := by
  unfold Rmbtd.withChunkSize
  split
  · exact h
  · cases hp : parseChunkSize argChunk maxChunkSize with
    | none => exact writeLine _
    | some n => exact (setChunkSize (parseChunkSize_inRange hp)).bind fun _ _ => h

theorem downloadBuf (randomChunk : RandomChunk) :
    Safe before (downloadBuf randomChunk) fun buf => InRange buf.length := by
  apply chunkSize.bind
  intro n hn
  have hle : n ≤ randomChunk.val.length := by
    rw [randomChunk.property]
    exact hn.2
  rw [if_pos hle]
  apply pure
  rw [List.length_take,Nat.min_eq_left hle]
  exact hn

theorem setLast {buf : Bytes} (h : InRange buf.length) (terminal : Bool) :
    Safe before (setLast buf terminal) fun chunk => InRange chunk.length := by
  have hpos : 0 < buf.length := lt_of_lt_of_le (by decide) h.1
  unfold Rmbtd.setLast
  rw [if_neg (List.length_pos_iff.mp hpos)]
  apply pure
  rw [List.length_append,List.length_dropLast,List.length_singleton,Nat.sub_add_cancel hpos]
  exact h

theorem acknowledge (start : Nat) : Safe before (acknowledge start) fun _ => True := by
  apply readLine.bind
  intro ack _
  split
  · exact writeLine _
  · exact (elapsed start).bind fun _ _ => writeLine _

theorem sendFor {buf : Bytes} (h : InRange buf.length) (start maxNs fuel : Nat) (sent : UInt64) :
    Safe before (sendFor buf start maxNs fuel sent) fun _ => True := by
  induction fuel generalizing sent with
  | zero => exact throw nofun
  | succ fuel ih =>
    apply (elapsed start).bind
    intro ns _
    apply (setLast h _).bind
    intro chunk hchunk
    apply (writeChunk hchunk).bind
    intro _ _
    apply chunkSize.bind
    intro n _
    split
    · exact pure trivial
    · exact ih _

theorem sendChunks {buf : Bytes} (h : InRange buf.length) (count : Nat) :
    Safe before (sendChunks buf count) fun _ => True := by
  induction count with
  | zero => exact pure trivial
  | succ left ih =>
    apply (setLast h _).bind
    intro chunk hchunk
    exact (writeChunk hchunk).bind fun _ _ => ih

theorem handleGettime (env : Env) (argSecs argChunk : Text) (fuel : Nat) :
    Safe before (Checked.handleGettime env argSecs argChunk fuel) fun _ => True := by
  apply withChunkSize
  cases hp : parseBounded argSecs maxSeconds with
  | none => exact writeLine _
  | some seconds =>
    have hseconds : seconds ≤ 30 := (parseBounded_le hp).2
    apply (ensure (by omega)).bind
    intro _ _
    apply instant.bind
    intro start _
    apply (downloadBuf env.randomChunk).bind
    intro buf hbuf
    apply (ensure hbuf.2).bind
    intro _ _
    apply (sendFor hbuf start _ fuel 0).bind
    intro sent _
    apply (elapsed start).bind
    intro ns _
    exact (updateStats _).bind fun _ _ => acknowledge start

theorem handleGetchunks (env : Env) (argCount argChunk : Text) :
    Safe before (Checked.handleGetchunks env argCount argChunk) fun _ => True := by
  apply withChunkSize
  cases hp : parseBounded argCount maxChunks with
  | none => exact writeLine _
  | some count =>
    have hcount : count ≤ 300000 := (parseBounded_le hp).2
    apply instant.bind
    intro start _
    apply (downloadBuf env.randomChunk).bind
    intro buf hbuf
    apply (ensure hbuf.2).bind
    intro _ _
    apply (sendChunks hbuf count).bind
    intro _ _
    apply chunkSize.bind
    intro n hn
    have hproduct : count * n < 2^64 :=
      lt_of_le_of_lt (Nat.mul_le_mul hcount hn.2) (by decide)
    apply (ensure hproduct).bind
    intro _ _
    apply (elapsed start).bind
    intro ns _
    exact (updateStats _).bind fun _ _ => acknowledge start

/-- The time of the last report: none yet, or a reading of the clock. -/
def LastReport (t : Int) : Prop := t = -2^127 ∨ 0 ≤ t ∧ t < 2^94

theorem report (start : Nat) (total : UInt64) {lastReport : Int} (h : LastReport lastReport) :
    Safe before (Checked.report start total lastReport) LastReport := by
  unfold LastReport at h
  apply (elapsed start).bind
  intro ns hns
  apply (ensure (by omega)).bind
  intro _ _
  apply (ensure (by omega)).bind
  intro _ _
  split
  · exact (writeLine _).bind fun _ _ => pure (Or.inr (by omega))
  · exact pure h

theorem receiveChunks (start : Nat) (sendIntermediate : Bool) (fuel : Nat) (total : UInt64)
    {lastReport : Int} (h : LastReport lastReport) :
    Safe before (Checked.receiveChunks start sendIntermediate fuel total lastReport)
      fun _ => True := by
  induction fuel generalizing total lastReport with
  | zero => exact throw nofun
  | succ fuel ih =>
    apply chunkSize.bind
    intro n hn
    have hpos : 0 < n := lt_of_lt_of_le (by decide) hn.1
    apply (ensure hpos).bind
    intro _ _
    apply (readExact hn).bind
    intro buf hbuf
    have htail {lastByte : UInt8} (t : UInt64) {r : Int} (hr : LastReport r) : Safe before
        (if lastByte = 0xFF then Pure.pure t
          else Checked.receiveChunks start sendIntermediate fuel t r) fun _ => True := by
      split
      · exact pure trivial
      · exact ih t hr
    rw [List.getElem?_eq_getElem (by omega)]
    dsimp only
    split
    · exact (report start _ h).bind fun r hr => htail _ hr
    · exact (pure h).bind fun r hr => htail _ hr

theorem handlePut (argChunk : Text) (sendIntermediate : Bool) (fuel : Nat) :
    Safe before (Checked.handlePut argChunk sendIntermediate fuel) fun _ => True := by
  apply withChunkSize
  apply (writeLine _).bind
  intro _ _
  apply instant.bind
  intro start _
  apply chunkSize.bind
  intro n hn
  apply (ensure hn.2).bind
  intro _ _
  apply (receiveChunks start sendIntermediate fuel 0 (Or.inl rfl)).bind
  intro total _
  apply (elapsed start).bind
  intro ns _
  exact (updateStats _).bind fun _ _ => writeLine _

theorem handlePing : Safe before handlePing fun _ => True := by
  apply instant.bind
  intro start _
  apply (writeLine _).bind
  intro _ _
  apply readLine.bind
  intro ack _
  split
  · exact writeLine _
  · apply (elapsed start).bind
    intro ns _
    exact (updateStats _).bind fun _ _ => writeLine _

theorem handler {env : Env} {fuel : Nat} {cmd arg1 arg2 : Text} {m : Session Stream Unit}
    (h : Checked.handler env fuel cmd arg1 arg2 = some m) : Safe before m fun _ => True := by
  unfold Checked.handler at h
  split at h
  · cases h; exact handleGettime env arg1 arg2 fuel
  split at h
  · cases h; exact handleGetchunks env arg1 arg2
  split at h
  · cases h; exact handlePut arg1 true fuel
  split at h
  · cases h; exact handlePut arg1 false fuel
  split at h
  · cases h; exact handlePing
  · cases h

theorem commandLoop (env : Env) (connId : Nat) (uuid : Text) (fuel : Nat) :
    Safe before (Checked.commandLoop env connId uuid fuel) fun _ => True := by
  have hlog (level : Level) (text : Text) (quoted : Option Text) :
      Safe before (Session.log level text quoted) fun _ => True := emit trivial
  induction fuel with
  | zero => exact throw nofun
  | succ fuel ih =>
    apply (writeLine _).bind
    intro _ _
    apply readLine.bind
    intro line _
    apply (hlog _ _ _).bind
    intro _ _
    apply chunkSize.bind
    intro n hn
    apply stats.bind
    intro s _
    apply (emit (e := .command (trim line) n s) hn).bind
    intro _ _
    dsimp only
    cases hh : (Checked.handler env fuel ((splitn 3 " " (trim line)).getD 0 [])
        (trim ((splitn 3 " " (trim line)).getD 1 []))
        (trim ((splitn 3 " " (trim line)).getD 2 [])) : Option (Session Stream Unit)) with
    | none =>
      dsimp only
      split
      · exact (writeLine _).bind fun _ _ => hlog _ _ _
      · apply (hlog _ _ _).bind
        intro _ _
        exact (writeLine _).bind fun _ _ => ih
    | some m =>
      apply (updateStats _).bind
      intro _ _
      exact (handler hh).bind fun _ _ => ih

end Safe

/-- The chunk size of a session stays in the range the greeting advertises, whatever lines and
data a client sends, and so do the sizes of all chunks. No slice or index panics, and a build that
checks every product and subtraction and the size of every buffer behaves the same. -/
theorem runCommands_chunkSize (env : Env) (connId : Nat) (uuid : Text) (fuel : Nat)
    (w : World Stream) (hclock : ∀ i, w.instants i < 2^94) :
    let run := runCommands env connId uuid fuel w
    Checked.runCommands env connId uuid fuel w = run ∧ (∀ w', run ≠ .error .panic w') ∧
      InRange (final run).chunkSize ∧ maxChunkSize ≤ env.randomChunk.val.length ∧
      ∃ tr, (final run).trace = w.trace ++ tr ∧ ∀ e ∈ tr, e.Sized := by
  intro run
  have hstart : Safe w.trace (Checked.commandLoop env connId uuid fuel) fun _ => True :=
    Safe.commandLoop env connId uuid fuel
  have hdefault : InRange defaultChunkSize := ⟨le_refl _,by decide⟩
  have hhealthy : Healthy w.trace
      { w with trace := w.trace ++ [.commandsStarted], chunkSize := defaultChunkSize } :=
    ⟨hdefault,hclock,[.commandsStarted],rfl,by simp [Event.Sized]⟩
  have hrun : Checked.runCommands env connId uuid fuel w = Checked.commandLoop env connId uuid fuel
      { w with trace := w.trace ++ [.commandsStarted], chunkSize := defaultChunkSize } := rfl
  have hsafe := hstart _ hhealthy
  rw [← hrun] at hsafe
  have hrefines := Checked.runCommands_refines env connId uuid fuel w w rfl
  cases hc : Checked.runCommands env connId uuid fuel w with
  | ok a w' =>
    rw [hc] at hsafe hrefines
    obtain ⟨_,_,heq,rfl,rfl⟩ := hrefines
    have heq : run = .ok a w' := heq
    rw [heq]
    exact ⟨rfl,nofun,hsafe.1.size,le_of_eq env.randomChunk.property.symm,hsafe.1.trace⟩
  | error e w' =>
    rw [hc] at hsafe hrefines
    rcases hrefines with hpanic | ⟨_,heq,rfl⟩
    · exact absurd hpanic hsafe.1
    · have heq : run = .error e w' := heq
      rw [heq]
      refine ⟨rfl,?_,hsafe.2.size,le_of_eq env.randomChunk.property.symm,hsafe.2.trace⟩
      intro w'' h
      cases h
      exact hsafe.1 rfl

def sizingConn : RawConn :=
  { goldenConn with input := utf8 "PUT +4194305\nGETCHUNKS 0 4194304\nQUIT\n" }

theorem runCommands_chunkSize_golden :
    InRange (final (runCommands goldenEnv 1 [] 4
      (World.start (Stream.raw sizingConn) (fun _ => 0) fun _ => 0))).chunkSize := by
  have hclock : ∀ i : Nat, (fun _ => 0 : Nat → Nat) i < 2^94 := fun _ => Nat.two_pow_pos 94
  exact (runCommands_chunkSize goldenEnv 1 [] 4
    (World.start (Stream.raw sizingConn) (fun _ => 0) fun _ => 0) hclock).2.2.1

end Rmbtd
