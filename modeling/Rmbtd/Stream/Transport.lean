import Rmbtd.Session

/-!
# Transports

The operations on a plain or TLS connection that only the HTTP phase uses, before the connection
becomes a stream.
-/

namespace Rmbtd

namespace RawConn

/-- `take(n)` read to its end: fewer bytes only where the input ends. -/
def readUpTo (n : Nat) : EStateM IoError RawConn Bytes := fun conn =>
  let next := { conn with input := conn.input.drop n }
  if n ≤ conn.input.length then .ok (conn.input.take n) next
  else match conn.inputEnd with
    | some e => .error e next
    | none => .ok conn.input next

def flush : EStateM IoError RawConn Unit := fun conn =>
  match conn.faults with
  | some (_,e)::faults => .error e { conn with faults := faults }
  | faults => .ok () { conn with faults := faults.tail }

theorem readUpTo_output {n : Nat} {conn conn' : RawConn} {bytes : Bytes}
    (h : readUpTo n conn = .ok bytes conn') : conn'.output = conn.output := by
  unfold readUpTo at h
  dsimp only at h
  repeat' split at h
  all_goals cases h
  all_goals rfl

theorem readUpTo_ok {n : Nat} {conn conn' : RawConn} {body : Bytes}
    (h : readUpTo n conn = .ok body conn') :
    body = conn.input.take n ∧ conn' = { conn with input := conn.input.drop n } := by
  unfold readUpTo at h
  dsimp only at h
  split at h
  · cases h
    exact ⟨rfl,rfl⟩
  · next hn =>
    split at h
    · cases h
    · cases h
      exact ⟨(List.take_of_length_le (Nat.le_of_lt (Nat.lt_of_not_le hn))).symm,rfl⟩

theorem writeAll_output {data : Bytes} {conn conn' : RawConn} {u : Unit}
    (h : writeAll data conn = .ok u conn') : conn'.output = conn.output ++ data := by
  unfold writeAll at h
  split at h
  · cases h
  · cases h
    rfl

theorem flush_output {conn conn' : RawConn} {u : Unit} (h : flush conn = .ok u conn') :
    conn'.output = conn.output := by
  unfold flush at h
  split at h
  · cases h
  · cases h
    rfl

end RawConn

namespace Session

variable {σ : Type}

def nowSecs : Session σ Int64 := fun w =>
  .ok (w.wall 0) { w with wall := fun i => w.wall (i+1) }

/-- Log what a computation logged and go on with its value. -/
def logged {α : Type} (m : Logged α) : Session σ α := do
  logAll m.records
  return m.val

def liftExcept {α : Type} : Except IoError α → Session σ α
  | .ok a => pure a
  | .error e => throw (.io e)

open Effect

theorem onStream_eq_ok {α : Type} {m : EStateM IoError σ α} {a : α} {w w' : World σ}
    (h : onStream m w = .ok a w') : ∃ s, m w.stream = .ok a s ∧ w' = { w with stream := s } := by
  unfold onStream at h
  cases hm : m w.stream with
  | ok a' s =>
    rw [hm] at h
    cases h
    exact ⟨s,rfl,rfl⟩
  | error e s =>
    rw [hm] at h
    cases h

theorem liftExcept_eq_ok {α : Type} {x : Except IoError α} {a : α} {w w' : World σ}
    (h : liftExcept x w = .ok a w') : x = .ok a ∧ w' = w := by
  cases x with
  | ok a' =>
    cases h
    exact ⟨rfl,rfl⟩
  | error e => cases h

theorem logAll_eq (records : List LogRecord) (w : World σ) :
    logAll records w = .ok () { w with trace := w.trace ++ records.map .logged } := by
  induction records generalizing w with
  | nil => simp [logAll,pure_apply]
  | cons record records ih =>
    have hemit : emit (.logged record) w = .ok () { w with trace := w.trace ++ [.logged record] } := rfl
    rw [logAll,bind_ok hemit,ih]
    simp

theorem logged_eq {α : Type} (m : Logged α) (w : World σ) :
    logged m w = .ok m.val { w with trace := w.trace ++ m.records.map .logged } := by
  rw [logged,bind_ok (logAll_eq m.records w)]
  rfl

end Session

end Rmbtd
