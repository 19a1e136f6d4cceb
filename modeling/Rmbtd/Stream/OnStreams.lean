import Rmbtd.Protocol.Transports
import Rmbtd.Server.Connection
import Rmbtd.Stream.Segmented
import Rmbtd.Stream.Transport

/-!
# Sessions on segmented input

Two sessions that differ in their stream alone. Where the operations of one stream simulate those
of the other, everything built from them does. So a session on a raw stream with its input in
segments runs as it does on a connection with the bytes in one piece.
-/

namespace Rmbtd

open Effect Session

/-- The two sessions agree but for their streams, which are related, and their chunk size is one of
`sizes`. -/
structure OnStreams {σ τ : Type} (R : σ → τ → Prop) (sizes : Nat → Prop) (w : World σ)
    (w' : World τ) : Prop where
  stream : R w.stream w'.stream
  instants : w.instants = w'.instants
  wall : w.wall = w'.wall
  stats : w.stats = w'.stats
  chunkSize : w.chunkSize = w'.chunkSize
  size : sizes w.chunkSize
  trace : w.trace = w'.trace

/-- No run is left out. -/
def Never {ε : Type} (_ : ε) : Prop := False

namespace OnStreams

variable {σ τ α : Type} {R : σ → τ → Prop} {sizes : Nat → Prop}

theorem onStream {m : EStateM IoError σ α} {n : EStateM IoError τ α}
    (h : Simulates R (fun _ => False) Eq m n) :
    Simulates (OnStreams R sizes) Never Eq (Session.onStream m) (Session.onStream n) := by
  intro w w' hw
  have h := h w.stream w'.stream hw.stream
  cases hm : m w.stream with
  | ok a s =>
    rw [hm] at h
    obtain ⟨b,t,hn,hv,hr⟩ := h
    rw [onStream_ok hm,onStream_ok hn]
    exact ⟨b,_,rfl,hv,{ hw with stream := hr }⟩
  | error e s =>
    rw [hm] at h
    obtain ⟨t,hn,hr⟩ := h.resolve_left id
    rw [onStream_error hm,onStream_error hn]
    exact Or.inr ⟨_,rfl,{ hw with stream := hr }⟩

theorem emit (e : Event) : Simulates (OnStreams R sizes) Never Eq (Session.emit e : Session σ Unit)
    (Session.emit e : Session τ Unit) :=
  fun _ _ hw => ⟨(),_,rfl,rfl,{ hw with trace := congrArg (· ++ [e]) hw.trace }⟩

theorem nowSecs : Simulates (OnStreams R sizes) Never Eq (Session.nowSecs : Session σ Int64)
    (Session.nowSecs : Session τ Int64) :=
  fun _ _ hw => ⟨_,_,rfl,congrFun hw.wall 0,
    { hw with wall := congrArg (fun f i => f (i+1)) hw.wall }⟩

theorem logged (m : Logged α) : Simulates (OnStreams R sizes) Never Eq
    (Session.logged m : Session σ α) (Session.logged m : Session τ α) := by
  intro w w' hw
  rw [logged_eq,logged_eq]
  exact ⟨_,_,rfl,rfl,{ hw with trace := congrArg (· ++ _) hw.trace }⟩

theorem liftExcept (x : Except IoError α) : Simulates (OnStreams R sizes) Never Eq
    (Session.liftExcept x : Session σ α) (Session.liftExcept x : Session τ α) := by
  cases x with
  | ok a => exact .pure rfl
  | error e => exact .throw _

theorem outcome_eq {m : Session σ α} {n : Session τ α}
    (h : Simulates (OnStreams R sizes) Never Eq m n) {w : World σ} {w' : World τ}
    (hw : OnStreams R sizes w w') :
    outcome (m w) = outcome (n w') ∧ (final (m w)).trace = (final (n w')).trace := by
  have h := h w w' hw
  cases hm : m w with
  | ok a w₁ =>
    rw [hm] at h
    obtain ⟨_,w₁',hn,rfl,hw₁⟩ := h
    rw [hn]
    exact ⟨rfl,hw₁.trace⟩
  | error e w₁ =>
    rw [hm] at h
    obtain ⟨w₁',hn,hw₁⟩ := h.resolve_left id
    rw [hn]
    exact ⟨rfl,hw₁.trace⟩

/-- The streams serve the protocol handlers alike. -/
structure Lines [LineStream σ] [LineStream τ] (R : σ → τ → Prop) : Prop where
  readLine : Simulates R (fun _ => False) Eq (LineStream.readLine : EStateM IoError σ Text)
    LineStream.readLine
  readExact : ∀ n, Simulates R (fun _ => False) Eq (LineStream.readExact n : EStateM IoError σ Bytes)
    (LineStream.readExact n)
  writeAll : ∀ data, Simulates R (fun _ => False) Eq (LineStream.writeAll data : EStateM IoError σ Unit)
    (LineStream.writeAll data)
  peerAddr : ∀ s t, R s t → LineStream.peerAddr s = LineStream.peerAddr t

section Lines
variable [LineStream σ] [LineStream τ] (h : Lines R)
include h

theorem greetingRelation : GreetingRelation (OnStreams R (minChunkSize ≤ ·)) Never Eq where
  sameLine := by
    rintro a _ rfl
    exact .refl a
  readLine := by
    apply (onStream h.readLine).bind
    rintro line _ rfl
    exact (emit _).bind fun _ _ _ => .pure rfl
  readExact n _ := by
    apply (onStream (h.readExact n)).bind
    rintro bytes _ rfl
    exact (emit _).bind fun _ _ _ => .pure rfl
  writeLine line := (emit _).bind fun _ _ _ => onStream (h.writeAll _)
  writeChunk bytes _ := (emit _).bind fun _ _ _ => onStream (h.writeAll _)
  instant := fun _ _ hw => ⟨_,_,rfl,congrFun hw.instants 0,
    { hw with instants := congrArg (fun f i => f (i+1)) hw.instants }⟩
  chunkSize := fun _ _ hw => ⟨_,_,rfl,⟨hw.chunkSize,hw.size⟩,hw⟩
  setChunkSize n hn := fun _ _ hw => ⟨_,_,rfl,rfl,{ hw with chunkSize := rfl, size := hn }⟩
  stats := fun _ _ hw => ⟨_,_,rfl,hw.stats,hw⟩
  updateStats f := fun _ _ hw => ⟨_,_,rfl,rfl,{ hw with stats := congrArg f hw.stats }⟩
  log _ := emit _
  started := emit _
  command _ _ _ := emit _
  peerAddr := fun _ _ hw => ⟨_,_,rfl,h.peerAddr _ _ hw.stream,hw⟩
  validationClock := fun _ _ hw => ⟨_,_,rfl,by rw [hw.wall],
    { hw with wall := congrArg (fun f i => f (i+2)) hw.wall }⟩
  sleep _ := emit _
  auth _ := emit _
  logLine level text a b hab := by
    subst hab
    exact emit _
  checked _ _ _ _ _ := emit _

omit h [LineStream σ] [LineStream τ] in
theorem attempt {m : Session σ α} {n : Session τ α}
    (hm : Simulates (OnStreams R sizes) Never Eq m n) :
    Simulates (OnStreams R sizes) Never Eq (Rmbtd.attempt m) (Rmbtd.attempt n) := by
  intro w w' hw
  have hm := hm w w' hw
  unfold Rmbtd.attempt
  cases hmw : m w with
  | ok a w₁ =>
    rw [hmw] at hm
    obtain ⟨_,w₁',hn,rfl,hw₁⟩ := hm
    rw [hn]
    exact ⟨_,_,rfl,rfl,hw₁⟩
  | error e w₁ =>
    rw [hmw] at hm
    obtain ⟨w₁',hn,hw₁⟩ := hm.resolve_left id
    rw [hn]
    cases e with
    | io e => exact ⟨_,_,rfl,rfl,hw₁⟩
    | panic => exact Or.inr ⟨_,rfl,hw₁⟩
    | outOfFuel => exact Or.inr ⟨_,rfl,hw₁⟩

theorem handleStream (env : Env) (connId : Nat) (config : Config) (keys : List SecretKey)
    (sink : Sink) (fuel : Nat) :
    Simulates (OnStreams R (minChunkSize ≤ ·)) Never Eq
      (Rmbtd.handleStream env connId config keys sink fuel : Session σ EndReason)
      (Rmbtd.handleStream env connId config keys sink fuel) := by
  have hr := greetingRelation h
  apply (attempt (hr.runGreeting env connId config keys sink fuel)).bind
  rintro result _ rfl
  cases result with
  | error e => exact (emit _).bind fun _ _ _ => .pure rfl
  | ok greeting =>
    apply (attempt (hr.runCommands env connId greeting.uuid fuel)).bind
    rintro result _ rfl
    cases result with
    | ok _ => exact .pure rfl
    | error e =>
      apply Simulates.ite
      · exact (emit _).bind fun _ _ _ => .pure rfl
      · exact .pure rfl

end Lines

end OnStreams

theorem BufConn.lines : OnStreams.Lines fun (r : BufConn) (conn : RawConn) => whole r = conn where
  readLine := refines_readLine
  readExact := refines_readExact
  writeAll := refines_writeAll
  peerAddr := by
    rintro r _ rfl
    rfl

/-- The segments the input comes in do not show in what a session returns or does. -/
theorem handleStream_segmented (env : Env) (connId : Nat) (config : Config) (keys : List SecretKey)
    (sink : Sink) (fuel : Nat) (r : BufConn) (instants : Nat → Nat) (wall : Nat → Int64) :
    outcome (handleStream env connId config keys sink fuel (.start r instants wall)) =
        outcome (handleStream env connId config keys sink fuel (.start (whole r) instants wall)) ∧
      (final (handleStream env connId config keys sink fuel (.start r instants wall))).trace =
        (final (handleStream env connId config keys sink fuel (.start (whole r) instants wall))).trace :=
  OnStreams.outcome_eq (OnStreams.handleStream BufConn.lines env connId config keys sink fuel)
    ⟨rfl,rfl,rfl,rfl,rfl,Nat.le_refl minChunkSize,rfl⟩

end Rmbtd
