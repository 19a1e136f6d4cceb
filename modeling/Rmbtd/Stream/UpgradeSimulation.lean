import Rmbtd.Library.TwoRuns
import Rmbtd.Stream.OnStreams
import Rmbtd.Stream.Upgrade

/-!
# Simulation of the HTTP phase

A relation between the states of two sessions that the operations on the transport preserve is
preserved by the HTTP phase, but for the answer to `/ip`, which looks at the client's address.
-/

namespace Rmbtd

open Effect Session

theorem readHead_simulates {σ τ : Type} [HttpTransport σ] [HttpTransport τ] {R : σ → τ → Prop}
    (hread : ∀ n, Simulates R (fun _ => False) Eq (HttpTransport.readExact n : EStateM IoError σ Bytes)
      (HttpTransport.readExact n)) (room : Nat) (buf : Bytes) :
    Simulates R (fun _ => False) Eq (readHead room buf : EStateM IoError σ Bytes) (readHead room buf) := by
  induction room generalizing buf with
  | zero =>
    rw [readHead,readHead]
    apply (hread 1).bind
    rintro tmp _ rfl
    exact .ite (.pure rfl) (.throw _)
  | succ room ih =>
    rw [readHead,readHead]
    apply (hread 1).bind
    rintro tmp _ rfl
    exact .ite (.pure rfl) (ih _)

/-- What the HTTP phase needs of a relation between the states of two sessions. -/
structure HttpRelation {σ τ : Type} [HttpTransport σ] [HttpTransport τ]
    (W : World σ → World τ → Prop) : Prop where
  readHead : Simulates W Never Eq (onStream (readHead maxHead [])) (onStream (readHead maxHead []))
  writeAll : ∀ data, Simulates W Never Eq (onStream (HttpTransport.writeAll data))
    (onStream (HttpTransport.writeAll data))
  flush : Simulates W Never Eq (onStream HttpTransport.flush) (onStream HttpTransport.flush)
  ignoredWrite : ∀ data, Simulates W Never Eq (ignored (HttpTransport.writeAll data))
    (ignored (HttpTransport.writeAll data))
  ignoredFlush : Simulates W Never Eq (ignored HttpTransport.flush) (ignored HttpTransport.flush)
  log : ∀ record, Simulates W Never Eq (emit (.logged record)) (emit (.logged record))

namespace HttpRelation

variable {σ τ : Type} [HttpTransport σ] [HttpTransport τ] {W : World σ → World τ → Prop}
  (h : HttpRelation W) (http : HttpEnv) (keys : List SecretKey) (connId : Nat) (addHsts : Bool)
include h

theorem version (head : Text) : Simulates W Never Eq (Version.handle http head addHsts)
    (Version.handle http head addHsts) :=
  (h.writeAll _).bind fun _ _ _ => h.flush.bind fun _ _ _ => .pure rfl

theorem webSocketHandshake (request : Text) : Simulates W Never Eq
    (webSocketHandshake http request addHsts) (webSocketHandshake http request addHsts) := by
  unfold Rmbtd.webSocketHandshake
  cases webSocketKey request with
  | none => exact .throw _
  | some key => exact (h.writeAll _).bind fun _ _ _ => h.flush.bind fun _ _ _ => .pure rfl

theorem refuse {record : LogRecord} {response : Bytes} {e : IoError} : Simulates W Never Eq
    (do
      emit (.logged record)
      ignored (HttpTransport.writeAll response)
      ignored HttpTransport.flush
      throw (.io e) : Session σ Upgrade)
    (do
      emit (.logged record)
      ignored (HttpTransport.writeAll response)
      ignored HttpTransport.flush
      throw (.io e)) :=
  (h.log _).bind fun _ _ _ => (h.ignoredWrite _).bind fun _ _ _ => h.ignoredFlush.bind fun _ _ _ =>
    .throw _

theorem answer {req : Text} {w : World σ} {w' : World τ} (hw : W w w')
    (hip : ipCheckMatches (requestTarget req) → Matched W Eq
      (HttpTransport.handle http keys connId req addHsts w)
      (HttpTransport.handle http keys connId req addHsts w')) :
    Matched W Eq (answer http keys connId req addHsts w) (answer http keys connId req addHsts w') := by
  have hnever {ε : Type} (e : ε) : ¬Never e := id
  unfold Rmbtd.answer
  by_cases htarget : ipCheckMatches (requestTarget req)
  · rw [if_pos htarget,if_pos htarget]
    apply (hip htarget).bind fun _ _ hw => hw
    rintro summary _ w₁ w₁' - - rfl hw₁
    exact .ok rfl hw₁
  rw [if_neg htarget,if_neg htarget]
  apply Simulates.matched ?_ hnever hw
  apply Simulates.ite
  · apply (h.version http addHsts req).bind
    rintro summary _ rfl
    exact .pure rfl
  apply Simulates.ite
  · exact h.refuse
  apply Simulates.ite
  · exact h.webSocketHandshake http addHsts req
  apply Simulates.ite
  · exact (h.writeAll _).bind fun _ _ _ => .pure rfl
  · exact h.refuse

end HttpRelation

end Rmbtd
