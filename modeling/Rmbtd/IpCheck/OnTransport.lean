import Rmbtd.IpCheck.Handle
import Rmbtd.Stream.Segmented

/-!
# Transports with their input in segments

What the HTTP phase asks of a transport, on one with its input in segments. It gets there what it gets
on a connection with the same input in one piece.
-/

namespace Rmbtd

open Effect Session

namespace RawConn

theorem readUpTo_of_end {n : Nat} {conn : RawConn}
    (h : conn.input.length < n → conn.inputEnd = none) :
    readUpTo n conn = .ok (conn.input.take n) { conn with input := conn.input.drop n } := by
  unfold readUpTo
  by_cases hn : n ≤ conn.input.length
  · simp [hn]
  · have hlen : conn.input.length < n := Nat.lt_of_not_le hn
    simp [hn,h hlen,List.take_of_length_le hlen.le]

theorem readUpTo_of_fault {n : Nat} {conn : RawConn} {e : IoError} (hlen : conn.input.length < n)
    (h : conn.inputEnd = some e) :
    readUpTo n conn = .error e { conn with input := conn.input.drop n } := by
  simp [readUpTo,Nat.not_le.mpr hlen,h]

end RawConn

namespace Transport

def flush : EStateM IoError Transport Unit := fun t =>
  match t.outgoing.faults with
  | some (_,e)::faults => .error e { t with outgoing := { t.outgoing with faults := faults } }
  | faults => .ok () { t with outgoing := { t.outgoing with faults := faults.tail } }

/-- The body is read into a buffer of its length. -/
instance : HttpTransport Transport where
  readExact := Reader.readExact unfilled
  readUpTo n := Reader.readUpTo (fun _ => n) n
  writeAll := writeAll
  flush := flush
  peerAddr t := t.outgoing.peer

theorem refines_readExact (n : Nat) :
    Refines (Reader.readExact unfilled n : EStateM IoError Transport Bytes) (RawConn.readExact n) :=
  Rmbtd.refines_readExact (Reader.readExact_spec unfilled n)

theorem refines_readUpTo (room : Nat → Nat) (n : Nat) :
    Refines (Reader.readUpTo room n : EStateM IoError Transport Bytes) (RawConn.readUpTo n) := by
  rintro t _ rfl
  have h := Reader.readUpTo_spec room n (Reader.pending t) t rfl
  have hnext : ∀ t' : Transport, Reader.pending t' = (Reader.pending t).drop n →
      whole t' = { whole t with input := (whole t).input.drop n } := fun _ ht' => whole_eq ht'
  cases hm : (Reader.readUpTo room n : EStateM IoError Transport Bytes) t with
  | ok got t' =>
    rw [hm] at h
    obtain ⟨rfl,hfault,ht'⟩ := h
    exact ⟨_,_,RawConn.readUpTo_of_end hfault,rfl,hnext t' ht'⟩
  | error e t' =>
    rw [hm] at h
    obtain ⟨hlen,hfault,ht'⟩ := h
    exact Or.inr ⟨_,RawConn.readUpTo_of_fault hlen hfault,hnext t' ht'⟩

theorem refines_flush : Refines flush RawConn.flush := by
  rintro ⟨segments,inputEnd,output,faults,peer⟩ _ rfl
  unfold flush RawConn.flush
  cases faults with
  | nil => exact ⟨(),_,rfl,rfl,rfl⟩
  | cons fault faults =>
    cases fault with
    | none => exact ⟨(),_,rfl,rfl,rfl⟩
    | some fault => exact Or.inr ⟨_,rfl,rfl⟩

end Transport

end Rmbtd
