import Rmbtd.Protocol.Commands

/-!
# Rules for the command phase

A property of programs that holds of the basic operations and is closed under sequences holds of
every handler and of the command loop. What is special in a property is stated once, at the
operations.
-/

namespace Rmbtd

open Effect Session

variable {σ : Type} [LineStream σ]

/-! ## Properties of programs -/

/-- A property of programs that is closed under what the handlers are built from. -/
structure HandlerRules (P : ∀ {α : Type}, Session σ α → Prop) : Prop where
  pure : ∀ {α : Type} (a : α), P (Pure.pure a)
  panic : ∀ {α : Type}, P (throw .panic : Session σ α)
  outOfFuel : ∀ {α : Type}, P (throw .outOfFuel : Session σ α)
  bind : ∀ {α β : Type} {m : Session σ α} {f : α → Session σ β},
    P m → (∀ a, P (f a)) → P (m >>= f)
  readLine : P readLine
  readExact : ∀ n, P (readExact n)
  writeLine : ∀ line, P (writeLine line)
  writeChunk : ∀ bytes, P (writeChunk bytes)
  instant : P instant
  chunkSize : P chunkSize
  setChunkSize : ∀ n, P (setChunkSize n)
  updateStats : ∀ f, P (updateStats f)

/-- What the command loop of a connection needs besides, with the records it logs. -/
structure LoopRules (connId : Nat) (uuid : Text) (P : ∀ {α : Type}, Session σ α → Prop) : Prop
    extends HandlerRules P where
  stats : P stats
  command : ∀ line n s, P (emit (.command line n s))
  logCommand : ∀ line, P (log .debug (connTag connId ++ "command: ") (some line))
  logQuit : P (log .info (connTag connId ++ "QUIT received; uuid=" ++ uuid))
  logUnknown : ∀ cmd, P (log .error (connTag connId ++ "unknown command: ") (some cmd))

namespace HandlerRules

variable {P : ∀ {α : Type}, Session σ α → Prop}

omit [LineStream σ] in
private theorem branch {α : Type} {c : Prop} [Decidable c] {m n : Session σ α} (hm : P m)
    (hn : P n) : P (if c then m else n) := by
  split
  · exact hm
  · exact hn

variable (h : HandlerRules (σ := σ) P)
include h

theorem elapsed (start : Nat) : P (elapsed start : Session σ Nat) :=
  h.bind h.instant fun _ => h.pure _

theorem withChunkSize {argChunk : Text} {m : Session σ Unit} (hm : P m) :
    P (withChunkSize argChunk m) := by
  apply branch
  · exact hm
  · cases parseChunkSize argChunk maxChunkSize with
    | none => exact h.writeLine _
    | some n => exact h.bind (h.setChunkSize n) fun _ => hm

theorem downloadBuf (randomChunk : RandomChunk) : P (downloadBuf randomChunk : Session σ Bytes) :=
  h.bind h.chunkSize fun _ => branch (h.pure _) h.panic

theorem setLast (buf : Bytes) (terminal : Bool) : P (setLast buf terminal : Session σ Bytes) :=
  branch h.panic (h.pure _)

theorem acknowledge (start : Nat) : P (acknowledge start : Session σ Unit) := by
  apply h.bind h.readLine
  intro ack
  apply branch
  · exact h.writeLine _
  · exact h.bind (h.elapsed start) fun total => h.writeLine _

theorem sendFor (buf : Bytes) (start maxNs fuel : Nat) (sent : UInt64) :
    P (sendFor buf start maxNs fuel sent : Session σ UInt64) := by
  induction fuel generalizing sent with
  | zero => exact h.outOfFuel
  | succ fuel ih =>
    apply h.bind (h.elapsed start)
    intro ns
    apply h.bind (h.setLast buf _)
    intro chunk
    apply h.bind (h.writeChunk chunk)
    intro _
    apply h.bind h.chunkSize
    intro n
    exact branch (h.pure _) (ih _)

theorem sendChunks (buf : Bytes) (count : Nat) : P (sendChunks buf count : Session σ Unit) := by
  induction count with
  | zero => exact h.pure ()
  | succ left ih =>
    apply h.bind (h.setLast buf _)
    intro chunk
    exact h.bind (h.writeChunk chunk) fun _ => ih

theorem handleGettime (env : Env) (argSecs argChunk : Text) (fuel : Nat) :
    P (handleGettime env argSecs argChunk fuel : Session σ Unit) := by
  apply h.withChunkSize
  cases parseBounded argSecs maxSeconds with
  | none => exact h.writeLine _
  | some seconds =>
    apply h.bind h.instant
    intro start
    apply h.bind (h.downloadBuf env.randomChunk)
    intro buf
    apply h.bind (h.sendFor buf start _ fuel 0)
    intro sent
    apply h.bind (h.elapsed start)
    intro ns
    exact h.bind (h.updateStats _) fun _ => h.acknowledge start

theorem handleGetchunks (env : Env) (argCount argChunk : Text) :
    P (handleGetchunks env argCount argChunk : Session σ Unit) := by
  apply h.withChunkSize
  cases parseBounded argCount maxChunks with
  | none => exact h.writeLine _
  | some count =>
    apply h.bind h.instant
    intro start
    apply h.bind (h.downloadBuf env.randomChunk)
    intro buf
    apply h.bind (h.sendChunks buf count)
    intro _
    apply h.bind h.chunkSize
    intro n
    apply h.bind (h.elapsed start)
    intro ns
    exact h.bind (h.updateStats _) fun _ => h.acknowledge start

theorem report (start : Nat) (total : UInt64) (lastReport : Int) :
    P (report start total lastReport : Session σ Int) := by
  apply h.bind (h.elapsed start)
  intro ns
  apply branch
  · exact h.bind (h.writeLine _) fun _ => h.pure _
  · exact h.pure _

theorem receiveChunks (start : Nat) (sendIntermediate : Bool) (fuel : Nat) (total : UInt64)
    (lastReport : Int) :
    P (receiveChunks start sendIntermediate fuel total lastReport : Session σ UInt64) := by
  induction fuel generalizing total lastReport with
  | zero => exact h.outOfFuel
  | succ fuel ih =>
    apply h.bind h.chunkSize
    intro n
    apply h.bind (h.readExact n)
    intro buf
    cases buf[n-1]? with
    | none => exact h.panic
    | some lastByte =>
      have htail (last : Int) : P (if lastByte = 0xFF then Pure.pure (total + UInt64.ofNat n)
          else Rmbtd.receiveChunks start sendIntermediate fuel (total + UInt64.ofNat n) last :
            Session σ UInt64) := branch (h.pure _) (ih _ _)
      apply branch
      · exact h.bind (h.report start _ lastReport) htail
      · exact h.bind (h.pure _) htail

theorem handlePut (argChunk : Text) (sendIntermediate : Bool) (fuel : Nat) :
    P (handlePut argChunk sendIntermediate fuel : Session σ Unit) := by
  apply h.withChunkSize
  apply h.bind (h.writeLine _)
  intro _
  apply h.bind h.instant
  intro start
  apply h.bind (h.receiveChunks start sendIntermediate fuel 0 _)
  intro total
  apply h.bind (h.elapsed start)
  intro ns
  exact h.bind (h.updateStats _) fun _ => h.writeLine _

theorem handlePing : P (handlePing : Session σ Unit) := by
  apply h.bind h.instant
  intro start
  apply h.bind (h.writeLine _)
  intro _
  apply h.bind h.readLine
  intro ack
  apply branch
  · exact h.writeLine _
  · apply h.bind (h.elapsed start)
    intro ns
    exact h.bind (h.updateStats _) fun _ => h.writeLine _

theorem handler {env : Env} {fuel : Nat} {cmd arg1 arg2 : Text} {m : Session σ Unit}
    (hm : handler env fuel cmd arg1 arg2 = some m) : P m := by
  unfold Rmbtd.handler at hm
  split at hm
  · cases hm; exact h.handleGettime env arg1 arg2 fuel
  split at hm
  · cases hm; exact h.handleGetchunks env arg1 arg2
  split at hm
  · cases hm; exact h.handlePut arg1 true fuel
  split at hm
  · cases hm; exact h.handlePut arg1 false fuel
  split at hm
  · cases hm; exact h.handlePing
  · cases hm

end HandlerRules

namespace LoopRules

variable {connId : Nat} {uuid : Text} {P : ∀ {α : Type}, Session σ α → Prop}

theorem commandLoop (h : LoopRules (σ := σ) connId uuid P) (env : Env) (fuel : Nat) :
    P (commandLoop env connId uuid fuel : Session σ Unit) := by
  induction fuel with
  | zero => exact h.outOfFuel
  | succ fuel ih =>
    apply h.bind (h.writeLine _)
    intro _
    apply h.bind h.readLine
    intro line
    apply h.bind (h.logCommand _)
    intro _
    apply h.bind h.chunkSize
    intro n
    apply h.bind h.stats
    intro s
    apply h.bind (h.command _ n s)
    intro _
    dsimp only
    cases hm : (handler env fuel ((splitn 3 " " (trim line)).getD 0 [])
        (trim ((splitn 3 " " (trim line)).getD 1 []))
        (trim ((splitn 3 " " (trim line)).getD 2 [])) : Option (Session σ Unit)) with
    | some m =>
      apply h.bind (h.updateStats _)
      intro _
      exact h.bind (h.handler hm) fun _ => ih
    | none =>
      dsimp only
      split
      · exact h.bind (h.writeLine _) fun _ => h.logQuit
      · apply h.bind (h.logUnknown _)
        intro _
        exact h.bind (h.writeLine _) fun _ => ih

end LoopRules

/-! ## Events a program adds -/

/-- However a run ends, it adds to the trace and adds only such events. -/
def Appends (Q : Event → Prop) {α : Type} (m : Session σ α) : Prop :=
  ∀ w, ∃ tr, (final (m w)).trace = w.trace ++ tr ∧ ∀ e ∈ tr, Q e

namespace Appends

variable {Q : Event → Prop} {α β : Type}

omit [LineStream σ]

theorem silent {m : Session σ α} (h : ∀ w, (final (m w)).trace = w.trace) : Appends Q m :=
  fun w => ⟨[],by simp [h],by simp⟩

theorem emit {e : Event} (h : Q e) : Appends Q (emit e : Session σ Unit) :=
  fun w => ⟨[e],rfl,by simp [h]⟩

theorem bind {m : Session σ α} {f : α → Session σ β} (hm : Appends Q m)
    (hf : ∀ a, Appends Q (f a)) : Appends Q (m >>= f) := by
  intro w
  obtain ⟨tr,htr,hQ⟩ := hm w
  cases hw : m w with
  | ok a w' =>
    obtain ⟨tr',htr',hQ'⟩ := hf a w'
    rw [hw] at htr
    rw [bind_ok hw]
    refine ⟨tr ++ tr',by simp_all,?_⟩
    intro e he
    rcases List.mem_append.mp he with he | he
    · exact hQ e he
    · exact hQ' e he
  | error e w' =>
    rw [hw] at htr
    rw [bind_error hw]
    exact ⟨tr,htr,hQ⟩

theorem onStream (m : EStateM IoError σ α) : Appends Q (onStream m) := by
  apply silent
  intro w
  unfold Session.onStream
  cases m w.stream <;> rfl

theorem handlerRules [LineStream σ] (hreceived : ∀ line, Q (.received line))
    (hchunk : ∀ bytes, Q (.receivedChunk bytes)) (hline : ∀ line, Q (.sentLine line))
    (hbytes : ∀ bytes, Q (.sentChunk bytes)) : HandlerRules (σ := σ) (Appends Q) where
  pure _ := silent fun _ => rfl
  panic := silent fun _ => rfl
  outOfFuel := silent fun _ => rfl
  bind := bind
  readLine := (onStream _).bind fun line => (emit (hreceived line)).bind fun _ => silent fun _ => rfl
  readExact _ := (onStream _).bind fun bytes => (emit (hchunk bytes)).bind fun _ => silent fun _ => rfl
  writeLine line := (emit (hline line)).bind fun _ => onStream _
  writeChunk bytes := (emit (hbytes bytes)).bind fun _ => onStream _
  instant := silent fun _ => rfl
  chunkSize := silent fun _ => rfl
  setChunkSize _ := silent fun _ => rfl
  updateStats _ := silent fun _ => rfl

end Appends

end Rmbtd
