import Rmbtd.Stream.Basic

/-!
# Messages

What a WebSocket serves a read of a given size from.
-/

namespace Rmbtd.WebSocket

def data (messages : List Message) : Bytes := messages.flatMap fun m => (payload m).getD []

@[simp] theorem data_nil : data [] = [] := rfl

@[simp] theorem data_cons (m : Message) (messages : List Message) :
    data (m::messages) = (payload m).getD [] ++ data messages := by
  simp [data]

@[simp] theorem data_append (m n : List Message) : data (m ++ n) = data m ++ data n := by
  simp [data]

theorem fill_data (end_ : WsError) (n : Nat) {m : Message} {b : Bytes} (rest : List Message)
    (hm : payload m = some b) :
    fill end_ (n+1) (m::rest) = match fill end_ (n + 1 - b.length) rest with
      | (filled,rest) => (filled.map (b.take (n+1) ++ ·),rest) := by
  have hsub : n + 1 - min b.length (n+1) = n + 1 - b.length := by omega
  have htake : b.take (min b.length (n+1)) = b.take (n+1) := by
    rw [Nat.min_comm]
    exact (List.take_eq_take_min ..).symm
  cases m <;> cases hm <;> simp only [fill,payload,hsub,htake]

theorem fill_control (end_ : WsError) (n : Nat) {m : Message} (rest : List Message)
    (hm : payload m = none) (hclose : m ≠ .close) :
    fill end_ (n+1) (m::rest) = fill end_ (n+1) rest := by
  cases m with
  | close => exact absurd rfl hclose
  | text t => cases hm
  | binary b => cases hm
  | _ => rfl

theorem fill_ok {end_ : WsError} {n : Nat} {messages rest : List Message} {b : Bytes}
    (h : fill end_ n messages = (.ok b,rest)) :
    ∃ used, messages = used ++ rest ∧ b = (data used).take n ∧ n ≤ (data used).length := by
  induction messages generalizing n b with
  | nil =>
    cases n with
    | zero =>
      cases h
      exact ⟨[],rfl,rfl,le_refl _⟩
    | succ n => cases h
  | cons m messages ih =>
    cases n with
    | zero =>
      cases h
      exact ⟨[],rfl,rfl,le_refl _⟩
    | succ n =>
      by_cases hclose : m = .close
      · subst hclose
        cases h
      cases hm : payload m with
      | none =>
        rw [fill_control end_ n messages hm hclose] at h
        obtain ⟨used,rfl,hb,hn⟩ := ih h
        exact ⟨m::used,rfl,by simpa [hm] using hb,by simpa [hm] using hn⟩
      | some d =>
        rw [fill_data end_ n messages hm] at h
        cases hf : fill end_ (n + 1 - d.length) messages with
        | mk filled rest' =>
          rw [hf] at h
          cases filled with
          | error e => cases h
          | ok b' =>
            cases h
            obtain ⟨used,rfl,hb,hn⟩ := ih hf
            refine ⟨m::used,rfl,?_,?_⟩
            · rw [data_cons,hm,Option.getD_some,List.take_append,hb]
            · rw [data_cons,hm,Option.getD_some,List.length_append]
              omega

/-- Messages that carry exactly the bytes of a read serve it; control frames after them stay. -/
theorem fill_exact (end_ : WsError) {used : List Message} (rest : List Message)
    (hclose : .close ∉ used) :
    ∃ left, left <:+ used ∧ data left = [] ∧
      fill end_ (data used).length (used ++ rest) = (.ok (data used),left ++ rest) := by
  induction used with
  | nil =>
    refine ⟨[],List.nil_suffix,rfl,?_⟩
    cases rest <;> rfl
  | cons m used ih =>
    simp only [List.mem_cons,not_or] at hclose
    obtain ⟨left,hsuffix,hleft,hf⟩ := ih hclose.2
    have hsuffix' := hsuffix.trans (List.suffix_cons m used)
    cases hn : (data (m::used)).length with
    | zero =>
      refine ⟨m::used,List.suffix_refl _,List.length_eq_zero_iff.mp hn,?_⟩
      rw [List.length_eq_zero_iff.mp hn]
      rfl
    | succ n =>
      rw [List.cons_append]
      cases hm : payload m with
      | none =>
        have hdata : data (m::used) = data used := by simp [hm]
        rw [fill_control end_ n _ hm (Ne.symm hclose.1),hdata]
        rw [hdata] at hn
        rw [hn] at hf
        exact ⟨left,hsuffix',hleft,hf⟩
      | some d =>
        have hdata : data (m::used) = d ++ data used := by simp [hm]
        rw [fill_data end_ n _ hm,hdata]
        rw [hdata,List.length_append] at hn
        rw [show n + 1 - d.length = (data used).length by omega,hf,
          List.take_of_length_le (by omega)]
        exact ⟨left,hsuffix',hleft,rfl⟩

end Rmbtd.WebSocket

namespace Rmbtd.Stream

theorem readExact_length {n : Nat} {s s' : Stream} {b : Bytes}
    (h : LineStream.readExact n s = .ok b s') : b.length = n := by
  cases s with
  | raw conn =>
    simp only [LineStream.readExact,lift,RawConn.readExact] at h
    by_cases hn : n ≤ conn.input.length
    · rw [if_pos hn] at h
      cases h
      rw [List.length_take,Nat.min_eq_left hn]
    · rw [if_neg hn] at h
      cases he : conn.inputEnd <;> rw [he] at h <;> cases h
  | webSocket ws =>
    simp only [LineStream.readExact,lift,WebSocket.readExact] at h
    cases hf : WebSocket.fill ws.incomingEnd n ws.incoming with
    | mk filled rest =>
      cases filled with
      | error e =>
        rw [hf] at h
        cases h
      | ok b' =>
        rw [hf] at h
        cases h
        obtain ⟨used,-,rfl,hlen⟩ := WebSocket.fill_ok hf
        rw [List.length_take,Nat.min_eq_left hlen]

end Rmbtd.Stream
