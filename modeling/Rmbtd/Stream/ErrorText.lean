import Rmbtd.LogText
import Rmbtd.Stream.Messages
import Rmbtd.Stream.Transport

/-!
# The texts of transport errors

An operation of a stream fails with an error of the transport or with one of its own. None of the
texts holds what the client sent.
-/

namespace Rmbtd

open Effect

def RawConn.errors (conn : RawConn) : List IoError :=
  conn.inputEnd.toList ++ conn.faults.filterMap (Option.map Prod.snd)

def WebSocket.errors (ws : WebSocket) : List IoError :=
  readError ws.incomingEnd::ws.faults.filterMap (Option.map fun fault => writeError fault.2)

def Stream.errors : Stream → List IoError
  | .raw conn => conn.errors
  | .webSocket ws => ws.errors

variable {own : Text → Prop}

/-- The errors have messages of one line. -/
def Owned (own : Text → Prop) (errors : List IoError) : Prop := ∀ e ∈ errors, OneLine own e.message

section
variable {σ : Type} (errors : σ → List IoError)

/-- A failure has a message of one line, and no other errors can follow. -/
def Fine (own : Text → Prop) {α : Type} : EStateM.Result IoError σ α → Prop
  | .ok _ s => Owned own (errors s)
  | .error e s => OneLine own e.message ∧ Owned own (errors s)

/-- Every outcome of the operation is fine. -/
def Sound (own : Text → Prop) {α : Type} (m : EStateM IoError σ α) : Prop :=
  ∀ s, Owned own (errors s) → Fine errors own (m s)

variable {errors} {α β : Type}

theorem Sound.bind {m : EStateM IoError σ α} {f : α → EStateM IoError σ β}
    (hm : Sound errors own m) (hf : ∀ a, Sound errors own (f a)) : Sound errors own (m >>= f) := by
  intro s hs
  have h := hm s hs
  rw [bind_apply]
  cases hms : m s with
  | ok a t =>
    rw [hms] at h
    exact hf a t h
  | error e t =>
    rw [hms] at h
    exact h

end

namespace RawConn

theorem sound_readLine : Sound errors own readLine := by
  intro conn hconn
  unfold readLine
  dsimp only
  split
  · next e he =>
    unfold lineFault at he
    split at he
    · cases he
    · exact ⟨hconn e (by simp [errors,he]),hconn⟩
  split
  · exact ⟨.of_unbroken (by simp),hconn⟩
  split
  · exact ⟨.of_unbroken (by simp),hconn⟩
  split
  · exact hconn
  · exact ⟨.of_unbroken (by simp),hconn⟩

theorem sound_readExact (n : Nat) : Sound errors own (readExact n) := by
  intro conn hconn
  unfold readExact
  dsimp only
  split
  · exact hconn
  split
  · next e he => exact ⟨hconn e (by simp [errors,he]),hconn⟩
  · exact ⟨.of_unbroken (by simp),hconn⟩

theorem sound_readUpTo (n : Nat) : Sound errors own (readUpTo n) := by
  intro conn hconn
  unfold readUpTo
  dsimp only
  split
  · exact hconn
  split
  · next e he => exact ⟨hconn e (by simp [errors,he]),hconn⟩
  · exact hconn

private theorem owned_tail {conn : RawConn} (hconn : Owned own conn.errors) (output : Bytes) :
    Owned own { conn with output := output, faults := conn.faults.tail : RawConn }.errors := by
  intro e he
  apply hconn
  simp only [errors,List.mem_append,List.mem_filterMap] at he ⊢
  rcases he with he | ⟨fault,hfault,he⟩
  · exact Or.inl he
  · exact Or.inr ⟨fault,List.mem_of_mem_tail hfault,he⟩

theorem sound_writeAll (data : Bytes) : Sound errors own (writeAll data) := by
  intro conn hconn
  unfold writeAll
  split
  · next n e faults heq =>
    have htail := owned_tail hconn (conn.output ++ data.take n)
    rw [heq] at htail
    exact ⟨hconn e (by simp [errors,heq]),htail⟩
  · exact owned_tail hconn _

theorem sound_flush : Sound errors own flush := by
  intro conn hconn
  unfold flush
  split
  · next n e faults heq =>
    have htail := owned_tail hconn conn.output
    rw [heq] at htail
    exact ⟨hconn e (by simp [errors,heq]),htail⟩
  · exact owned_tail hconn _

end RawConn

namespace WebSocket

private theorem nextLine_error {end_ : WsError} {messages rest : List Message} {e : IoError}
    (h : nextLine end_ messages = (.error e,rest)) : e = readError end_ ∨ e = wsClose := by
  induction messages with
  | nil =>
    cases h
    exact Or.inl rfl
  | cons m messages ih =>
    cases m with
    | close =>
      cases h
      exact Or.inr rfl
    | ping => exact ih h
    | pong => exact ih h
    | frame => exact ih h
    | text t => simp [nextLine,lineOf] at h
    | binary b => simp [nextLine,lineOf] at h

private theorem fill_error {end_ : WsError} {n : Nat} {messages rest : List Message} {e : IoError}
    (h : fill end_ n messages = (.error e,rest)) : e = readError end_ ∨ e = wsClose := by
  induction messages generalizing n with
  | nil =>
    cases n with
    | zero => cases h
    | succ n =>
      cases h
      exact Or.inl rfl
  | cons m messages ih =>
    cases n with
    | zero => cases h
    | succ n =>
      by_cases hclose : m = .close
      · subst hclose
        cases h
        exact Or.inr rfl
      cases hm : payload m with
      | none =>
        rw [fill_control end_ n messages hm hclose] at h
        exact ih h
      | some d =>
        rw [fill_data end_ n messages hm] at h
        cases hf : fill end_ (n + 1 - d.length) messages with
        | mk filled rest' =>
          rw [hf] at h
          cases filled with
          | ok b => cases h
          | error e' =>
            cases h
            exact ih hf

private theorem oneLine_end {ws : WebSocket} (hws : Owned own ws.errors) {e : IoError}
    (he : e = readError ws.incomingEnd ∨ e = wsClose) : OneLine own e.message := by
  rcases he with rfl | rfl
  · exact hws _ List.mem_cons_self
  · exact .of_unbroken (by simp [wsClose])

theorem sound_readLine : Sound errors own readLine := by
  intro ws hws
  unfold readLine
  split
  · exact hws
  · next hnext => exact ⟨oneLine_end hws (nextLine_error hnext),hws⟩

theorem sound_readExact (n : Nat) : Sound errors own (readExact n) := by
  intro ws hws
  unfold readExact
  split
  · exact hws
  · next hfill => exact ⟨oneLine_end hws (fill_error hfill),hws⟩

theorem sound_writeAll (data : Bytes) : Sound errors own (writeAll data) := by
  intro ws hws
  have htail (sent : List Message) :
      Owned own { ws with sent := sent, faults := ws.faults.tail : WebSocket }.errors := by
    intro e he
    apply hws
    simp only [errors,List.mem_cons,List.mem_filterMap] at he ⊢
    rcases he with he | ⟨fault,hfault,he⟩
    · exact Or.inl he
    · exact Or.inr ⟨fault,List.mem_of_mem_tail hfault,he⟩
  unfold writeAll
  split
  · next delivered e faults heq =>
    rw [heq] at htail
    exact ⟨hws _ (by simp [errors,heq]),htail _⟩
  · exact htail _

end WebSocket

namespace Stream

private theorem sound_lift {α : Type} {onRaw : EStateM IoError RawConn α}
    {onWs : EStateM IoError WebSocket α} (hraw : Sound RawConn.errors own onRaw)
    (hws : Sound WebSocket.errors own onWs) : Sound errors own (lift onRaw onWs) := by
  intro s hs
  cases s with
  | raw conn =>
    have h := hraw conn hs
    simp only [lift]
    cases hr : onRaw conn with
    | ok a conn' => rw [hr] at h; exact h
    | error e conn' => rw [hr] at h; exact h
  | webSocket ws =>
    have h := hws ws hs
    simp only [lift]
    cases hr : onWs ws with
    | ok a ws' => rw [hr] at h; exact h
    | error e ws' => rw [hr] at h; exact h

theorem sound_readLine : Sound errors own (LineStream.readLine : EStateM IoError Stream Text) :=
  sound_lift RawConn.sound_readLine WebSocket.sound_readLine

theorem sound_readExact (n : Nat) : Sound errors own (LineStream.readExact n : EStateM IoError Stream Bytes) :=
  sound_lift (RawConn.sound_readExact n) (WebSocket.sound_readExact n)

theorem sound_writeAll (data : Bytes) :
    Sound errors own (LineStream.writeAll data : EStateM IoError Stream Unit) :=
  sound_lift (RawConn.sound_writeAll data) (WebSocket.sound_writeAll data)

end Stream

end Rmbtd
