import Rmbtd.Library.Effect

/-!
# Readers

Reading from a source that delivers its bytes in parts of its own choice, as `std::io` does: the
default `read_exact`, a `Take` read to its end, a `BufReader`, and `read_until` on a `Take` of one.
What they return depends on the bytes still to come alone, not on the parts they come in.
-/

namespace Rmbtd

open Effect

variable {ρ β ε φ : Type}

/-- What is left to read: the bytes, the error after them, if any, and what reading leaves alone. -/
structure Pending (β ε φ : Type) where
  bytes : List β
  fault : Option ε
  side : φ

namespace Pending

def drop (p : Pending β ε φ) (n : Nat) : Pending β ε φ := { p with bytes := p.bytes.drop n }

@[simp] theorem drop_bytes (p : Pending β ε φ) (n : Nat) : (p.drop n).bytes = p.bytes.drop n := rfl

@[simp] theorem drop_fault (p : Pending β ε φ) (n : Nat) : (p.drop n).fault = p.fault := rfl

@[simp] theorem drop_zero (p : Pending β ε φ) : p.drop 0 = p := rfl

@[simp] theorem drop_drop (p : Pending β ε φ) (m n : Nat) : (p.drop m).drop n = p.drop (m + n) := by
  simp [drop]

theorem drop_of_bytes_nil {p : Pending β ε φ} (h : p.bytes = []) (n : Nat) : p.drop n = p := by
  cases p
  simp_all [drop]

end Pending

/-- A source of bytes. A read of at least one byte may return fewer than it asks for, but none only
at the end. -/
class Reader (ρ : Type) (β ε φ : outParam Type) where
  read : Nat → EStateM ε ρ (List β)
  pending : ρ → Pending β ε φ
  read_spec : ∀ n p, 0 < n → Triple (pending · = p) (read n)
    (fun got r => got <+: p.bytes ∧ got.length ≤ n ∧ (got = [] → p.bytes = [] ∧ p.fault = none) ∧
      pending r = p.drop got.length)
    (fun e r => p.bytes = [] ∧ p.fault = some e ∧ pending r = p)

namespace Reader

variable [Reader ρ β ε φ]

/-- The default `read_exact`. It fails with `eof` where nothing more is read. -/
def readExact (eof : ε) (n : Nat) : EStateM ε ρ (List β) :=
  if n = 0 then pure []
  else do
    let got ← read n
    if got.length = 0 then throw eof
    else return got ++ (← readExact eof (n - got.length))
termination_by n

/-- `take(limit)` read to its end, into buffers with `room` for more than one byte. -/
def readUpTo (room : Nat → Nat) (limit : Nat) : EStateM ε ρ (List β) :=
  if limit = 0 then pure []
  else do
    let got ← read (min limit (room 0 + 1))
    if got.length = 0 then pure []
    else return got ++ (← readUpTo (fun i => room (i+1)) (limit - got.length))
termination_by limit

/-- The rule for a read: it fails or ends with nothing left to read, or it goes on after some bytes. -/
theorem triple_read {α : Type} {n : Nat} {p : Pending β ε φ} (hn : 0 < n)
    {f : List β → EStateM ε ρ α} {Q : α → ρ → Prop} {E : ε → ρ → Prop}
    (hfault : ∀ e, p.bytes = [] → p.fault = some e → ∀ r, pending r = p → E e r)
    (hend : p.bytes = [] → p.fault = none → Triple (pending · = p) (f []) Q E)
    (hmore : ∀ got, got ≠ [] → got <+: p.bytes → got.length ≤ n →
      Triple (pending · = p.drop got.length) (f got) Q E) :
    Triple (pending · = p) (read n >>= f) Q E := by
  refine .bind ((read_spec n p hn).mono (fun _ h => h) (fun _ _ h => h) ?_) ?_
  · exact fun e r h => hfault e h.1 h.2.1 r h.2.2
  · intro got r h
    by_cases hgot : got = []
    · subst hgot
      exact hend (h.2.2.1 rfl).1 (h.2.2.1 rfl).2 r h.2.2.2
    · exact hmore got hgot h.1 h.2.1 r h.2.2.2

theorem append_take_drop {got bytes : List β} (h : got <+: bytes) {n : Nat} (hn : got.length ≤ n) :
    got ++ (bytes.drop got.length).take (n - got.length) = bytes.take n := by
  obtain ⟨rest,rfl⟩ := h
  rw [List.drop_left,List.take_append,List.take_of_length_le hn]

theorem readExact_spec (eof : ε) (n : Nat) (p : Pending β ε φ) :
    Triple (fun r : ρ => pending r = p) (readExact eof n)
      (fun got r => n ≤ p.bytes.length ∧ got = p.bytes.take n ∧ pending r = p.drop n)
      (fun e r => p.bytes.length < n ∧ e = p.fault.getD eof ∧ pending r = p.drop n) := by
  induction n using Nat.strongRecOn generalizing p with
  | ind n ih =>
    rw [readExact]
    split
    · next hn =>
      subst hn
      exact .pure fun r hr => ⟨Nat.zero_le _,rfl,hr⟩
    next hn =>
    have hpos : 0 < n := Nat.pos_of_ne_zero hn
    apply triple_read hpos
    · intro e hnil hfault r hr
      exact ⟨by simpa [hnil],by simp [hfault],by rw [hr,Pending.drop_of_bytes_nil hnil]⟩
    · intro hnil hfault
      rw [if_pos List.length_nil]
      exact .throw fun r hr =>
        ⟨by simpa [hnil],by simp [hfault],by rw [hr,Pending.drop_of_bytes_nil hnil]⟩
    · intro got hgot hinitial hle
      have hlength := hinitial.length_le
      rw [if_neg (by simpa using hgot)]
      have hlt : n - got.length < n := Nat.sub_lt hpos (List.length_pos_iff.mpr hgot)
      refine .bind ((ih _ hlt (p.drop got.length)).mono (fun _ h => h) (fun _ _ h => h) ?_)
        fun rest => .pure ?_
      · intro e r hr
        simpa [Nat.add_sub_cancel' hle,Nat.sub_lt_sub_iff_right hlength] using hr
      · intro r hr
        simp only [Pending.drop_bytes,List.length_drop,Pending.drop_drop] at hr
        exact ⟨by omega,by rw [hr.2.1,append_take_drop hinitial hle],
          by rw [hr.2.2,Nat.add_sub_cancel' hle]⟩

theorem readUpTo_spec (room : Nat → Nat) (limit : Nat) (p : Pending β ε φ) :
    Triple (fun r : ρ => pending r = p) (readUpTo room limit)
      (fun got r => got = p.bytes.take limit ∧ (p.bytes.length < limit → p.fault = none) ∧
        pending r = p.drop limit)
      (fun e r => p.bytes.length < limit ∧ p.fault = some e ∧ pending r = p.drop limit) := by
  induction limit using Nat.strongRecOn generalizing p room with
  | ind limit ih =>
    rw [readUpTo]
    split
    · next hlimit =>
      subst hlimit
      exact .pure fun r hr => ⟨rfl,by simp,hr⟩
    next hlimit =>
    have hpos : 0 < limit := Nat.pos_of_ne_zero hlimit
    apply triple_read (by omega)
    · intro e hnil hfault r hr
      exact ⟨by simpa [hnil],hfault,by rw [hr,Pending.drop_of_bytes_nil hnil]⟩
    · intro hnil hfault
      rw [if_pos List.length_nil]
      exact .pure fun r hr => ⟨by simp [hnil],fun _ => hfault,by rw [hr,Pending.drop_of_bytes_nil hnil]⟩
    · intro got hgot hinitial hle
      have hle : got.length ≤ limit := by omega
      have hlength := hinitial.length_le
      rw [if_neg (by simpa using hgot)]
      have hlt : limit - got.length < limit := Nat.sub_lt hpos (List.length_pos_iff.mpr hgot)
      refine .bind ((ih _ hlt _ (p.drop got.length)).mono (fun _ h => h) (fun _ _ h => h) ?_)
        fun rest => .pure ?_
      · intro e r hr
        simpa [Nat.add_sub_cancel' hle,Nat.sub_lt_sub_iff_right hlength] using hr
      · intro r hr
        simp only [Pending.drop_bytes,List.length_drop,Pending.drop_drop,Pending.drop_fault] at hr
        exact ⟨by rw [hr.1,append_take_drop hinitial hle],fun h => hr.2.1 (by omega),
          by rw [hr.2.2,Nat.add_sub_cancel' hle]⟩

end Reader

/-! ## Buffered readers -/

/-- The bytes up to and with the first `delim`, at most `limit` of them. -/
def upTo [DecidableEq β] (delim : β) : Nat → List β → List β
  | 0, _ => []
  | _+1, [] => []
  | limit+1, b::bs => if b = delim then [b] else b::upTo delim limit bs

section UpTo
variable [DecidableEq β] {delim : β} {limit i : Nat} {bs rest : List β}

@[simp] theorem upTo_nil : upTo delim limit [] = [] := by
  cases limit <;> rfl

theorem upTo_append_of_idxOf (h : bs.idxOf? delim = some i) (hlimit : bs.length ≤ limit) :
    upTo delim limit (bs ++ rest) = bs.take (i+1) := by
  induction bs generalizing limit i with
  | nil => simp at h
  | cons b bs ih =>
    cases limit with
    | zero => simp at hlimit
    | succ limit =>
      by_cases hb : b = delim
      · have hi : i = 0 := by simpa [List.idxOf?_cons,hb,eq_comm] using h
        simp [upTo,hb,hi]
      · obtain ⟨j,hj,rfl⟩ : ∃ j, bs.idxOf? delim = some j ∧ j + 1 = i := by
          simpa [List.idxOf?_cons,hb] using h
        simpa [upTo,hb] using ih hj (by simpa using hlimit)

theorem upTo_append_of_notMem (h : delim ∉ bs) (hlimit : bs.length ≤ limit) :
    upTo delim limit (bs ++ rest) = bs ++ upTo delim (limit - bs.length) rest := by
  induction bs generalizing limit with
  | nil => simp
  | cons b bs ih =>
    simp only [List.mem_cons,not_or] at h
    cases limit with
    | zero => simp at hlimit
    | succ limit => simpa [upTo,Ne.symm h.1] using ih h.2 (by simpa using hlimit)

theorem upTo_of_notMem (h : delim ∉ bs) (hlimit : bs.length ≤ limit) : upTo delim limit bs = bs := by
  have happend : upTo delim limit (bs ++ []) = bs ++ upTo delim (limit - bs.length) [] :=
    upTo_append_of_notMem h hlimit
  simpa using happend

end UpTo

private theorem idxOf?_eq_some [DecidableEq β] {delim : β} {bs : List β} {i : Nat}
    (h : bs.idxOf? delim = some i) : i < bs.length ∧ (bs.take (i+1)).getLast? = some delim := by
  obtain ⟨hi,hdelim,-⟩ := List.idxOf?_eq_some_iff.mp h
  refine ⟨hi,?_⟩
  rw [List.take_succ_eq_append_getElem hi,List.getLast?_concat,hdelim]

/-- `BufReader`: what it has read ahead, and the reader it reads from. -/
structure BufReader (ρ β : Type) where
  capacity : Nat
  capacity_pos : 0 < capacity
  buffer : List β
  inner : ρ

namespace BufReader

def new (inner : ρ) : BufReader ρ β where
  capacity := 8 * 1024
  capacity_pos := by decide
  buffer := []
  inner := inner

def onInner {α : Type} (m : EStateM ε ρ α) : EStateM ε (BufReader ρ β) α := fun r =>
  match m r.inner with
  | .ok a inner => .ok a { r with inner := inner }
  | .error e inner => .error e { r with inner := inner }

def consume (n : Nat) : EStateM ε (BufReader ρ β) Unit :=
  modify fun r => { r with buffer := r.buffer.drop n }

variable [Reader ρ β ε φ]

/-- The bytes read ahead, after a read where there are none. -/
def fillBuf : EStateM ε (BufReader ρ β) (List β) := do
  let r ← get
  if r.buffer.length = 0 then
    let got ← onInner (Reader.read r.capacity)
    modify fun r => { r with buffer := got }
    return got
  else return r.buffer

def read (n : Nat) : EStateM ε (BufReader ρ β) (List β) := do
  let r ← get
  if r.buffer.length = 0 ∧ r.capacity ≤ n then onInner (Reader.read n)
  else do
    let got := (← fillBuf).take n
    consume got.length
    return got

/-- What is left to read: first what is in the buffer. -/
def pending (r : BufReader ρ β) : Pending β ε φ :=
  { Reader.pending r.inner with bytes := r.buffer ++ (Reader.pending r.inner).bytes }

theorem pending_of_buffer_nil {r : BufReader ρ β} (h : r.buffer = []) :
    pending r = Reader.pending r.inner := by
  simp [pending,h]

theorem buffer_initial (r : BufReader ρ β) : r.buffer <+: (pending r).bytes := List.prefix_append ..

theorem triple_onInner {α : Type} {p : Pending β ε φ} {m : EStateM ε ρ α} {Q : α → ρ → Prop}
    {E : ε → ρ → Prop} (h : Triple (Reader.pending · = p) m Q E) :
    Triple (fun r : BufReader ρ β => r.buffer = [] ∧ pending r = p) (onInner m)
      (fun a r => r.buffer = [] ∧ Q a r.inner) (fun e r => r.buffer = [] ∧ E e r.inner) := by
  intro r hr
  have h := h r.inner ((pending_of_buffer_nil hr.1).symm.trans hr.2)
  unfold onInner
  cases hm : m r.inner with
  | ok a inner => simpa [hm,hr.1] using h
  | error e inner => simpa [hm,hr.1] using h

theorem pending_refill {p : Pending β ε φ} {got : List β} {r : BufReader ρ β}
    (hgot : got <+: p.bytes) (h : Reader.pending r.inner = p.drop got.length) :
    pending { r with buffer := got } = p := by
  obtain ⟨rest,hrest⟩ := hgot
  cases p
  cases hrest
  simp [pending,h,Pending.drop]

theorem fillBuf_spec (p : Pending β ε φ) :
    Triple (fun r : BufReader ρ β => pending r = p) fillBuf
      (fun available r => available = r.buffer ∧ pending r = p ∧
        (available = [] → p.bytes = [] ∧ p.fault = none))
      (fun e r => p.bytes = [] ∧ p.fault = some e ∧ pending r = p) := by
  apply Triple.get
  intro r hr
  split
  · next hlen =>
    have hbuffer : r.buffer = [] := List.length_eq_zero_iff.mp hlen
    have hread : Triple (fun r : ρ => Reader.pending r = p) (Reader.read r.capacity) _ _ :=
      Reader.read_spec r.capacity p r.capacity_pos
    refine .bind ((triple_onInner hread).mono (fun _ h => ?_) (fun _ _ h => h) ?_)
      fun got => .bind (.modify fun _ h => ?_) fun _ => .pure fun _ h => h
    · subst h
      exact ⟨hbuffer,hr⟩
    · exact fun e r h => ⟨h.2.1,h.2.2.1,(pending_of_buffer_nil h.1).trans h.2.2.2⟩
    · exact ⟨rfl,pending_refill h.2.1 h.2.2.2.2,h.2.2.2.1⟩
  · next hlen =>
    refine .pure fun _ h => ?_
    subst h
    exact ⟨rfl,hr,fun h => absurd (List.length_eq_zero_iff.mpr h) hlen⟩

theorem consume_pending {n : Nat} {r : BufReader ρ β} (h : n ≤ r.buffer.length) :
    pending { r with buffer := r.buffer.drop n } = (pending r).drop n := by
  simp [pending,Pending.drop,List.drop_append_of_le_length h]

theorem read_spec (n : Nat) (p : Pending β ε φ) (hn : 0 < n) :
    Triple (fun r : BufReader ρ β => pending r = p) (read n)
      (fun got r => got <+: p.bytes ∧ got.length ≤ n ∧ (got = [] → p.bytes = [] ∧ p.fault = none) ∧
        pending r = p.drop got.length)
      (fun e r => p.bytes = [] ∧ p.fault = some e ∧ pending r = p) := by
  apply Triple.get
  intro r hr
  split
  · next h =>
    have hbuffer : r.buffer = [] := List.length_eq_zero_iff.mp h.1
    have hread : Triple (fun r : ρ => Reader.pending r = p) (Reader.read n) _ _ :=
      Reader.read_spec n p hn
    refine (triple_onInner hread).mono (fun _ h => ?_) ?_ ?_
    · subst h
      exact ⟨hbuffer,hr⟩
    · exact fun _ _ h => ⟨h.2.1,h.2.2.1,h.2.2.2.1,(pending_of_buffer_nil h.1).trans h.2.2.2.2⟩
    · exact fun _ _ h => ⟨h.2.1,h.2.2.1,(pending_of_buffer_nil h.1).trans h.2.2.2⟩
  · refine .bind ((fillBuf_spec p).mono (fun _ h => h ▸ hr) (fun _ _ h => h) (fun _ _ h => h))
      fun available => .bind (.modify fun r h => ?_) fun _ => .pure fun _ h => h
    obtain ⟨rfl,hr,hend⟩ := h
    have hle : (r.buffer.take n).length ≤ r.buffer.length := (List.take_prefix ..).length_le
    refine ⟨?_,List.length_take_le ..,fun h => hend ?_,?_⟩
    · exact hr ▸ (List.take_prefix ..).trans (buffer_initial r)
    · simpa [Nat.ne_of_gt hn] using h
    · rw [consume_pending hle,hr]

instance : Reader (BufReader ρ β) β ε φ where
  read := read
  pending := pending
  read_spec := fun n p hn => read_spec n p hn

/-- `read_exact`, at once where the buffer holds enough. -/
def readExact (eof : ε) (n : Nat) : EStateM ε (BufReader ρ β) (List β) := do
  let r ← get
  if n ≤ r.buffer.length then do
    consume n
    return r.buffer.take n
  else Reader.readExact eof n

/-- `take(limit).read_until(delim)`. -/
def readUntil [DecidableEq β] (delim : β) (limit : Nat) : EStateM ε (BufReader ρ β) (List β) :=
  if limit = 0 then pure []
  else do
    let available := (← fillBuf).take limit
    match available.idxOf? delim with
    | some i => do
      consume (i+1)
      return available.take (i+1)
    | none => do
      consume available.length
      if available.length = 0 then return []
      else return available ++ (← readUntil delim (limit - available.length))
termination_by limit
decreasing_by exact Nat.sub_lt (Nat.pos_of_ne_zero ‹_›) (Nat.pos_of_ne_zero ‹_›)

theorem readExact_spec (eof : ε) (n : Nat) (p : Pending β ε φ) :
    Triple (fun r : BufReader ρ β => pending r = p) (readExact eof n)
      (fun got r => n ≤ p.bytes.length ∧ got = p.bytes.take n ∧ pending r = p.drop n)
      (fun e r => p.bytes.length < n ∧ e = p.fault.getD eof ∧ pending r = p.drop n) := by
  apply Triple.get
  intro r hr
  split
  · next hle =>
    refine .bind (.modify fun r' h => ?_) fun _ => .pure fun _ h => h
    subst h
    obtain ⟨rest,hrest⟩ := buffer_initial r'
    rw [hr] at hrest
    refine ⟨?_,?_,by rw [consume_pending hle,hr]⟩
    · rw [← hrest,List.length_append]
      omega
    · rw [← hrest,List.take_append_of_le_length hle]
  · refine (Reader.readExact_spec eof n p).mono (fun _ h => ?_) (fun _ _ h => h) (fun _ _ h => h)
    exact h ▸ hr

theorem readUntil_spec [DecidableEq β] (delim : β) (limit : Nat) (p : Pending β ε φ) :
    Triple (fun r : BufReader ρ β => pending r = p) (readUntil delim limit)
      (fun line r => line = upTo delim limit p.bytes ∧
        (line.length = limit ∨ line.getLast? = some delim ∨ p.fault = none) ∧
        pending r = p.drop line.length)
      (fun e r => delim ∉ p.bytes ∧ p.bytes.length < limit ∧ p.fault = some e ∧
        pending r = p.drop limit) := by
  induction limit using Nat.strongRecOn generalizing p with
  | ind limit ih =>
    rw [readUntil]
    split
    · next hlimit =>
      subst hlimit
      exact .pure fun r hr => ⟨rfl,Or.inl rfl,hr⟩
    next hlimit =>
    have hpos : 0 < limit := Nat.pos_of_ne_zero hlimit
    refine .bind ((fillBuf_spec p).mono (fun _ h => h) (fun _ _ h => h) ?_) fun buffer => ?_
    · intro e r ⟨hnil,hfault,hr⟩
      exact ⟨by simp [hnil],by simpa [hnil],hfault,by rw [hr,Pending.drop_of_bytes_nil hnil]⟩
    have havailable : ∀ r : BufReader ρ β, buffer = r.buffer → pending r = p →
        buffer.take limit <+: p.bytes ∧ (buffer.take limit).length ≤ r.buffer.length := by
      intro r hbuffer hr
      subst hbuffer
      exact ⟨hr ▸ (List.take_prefix ..).trans (buffer_initial r),(List.take_prefix ..).length_le⟩
    have hle : (buffer.take limit).length ≤ limit := List.length_take_le ..
    have hnil : buffer.take limit = [] → buffer = [] := by
      intro h
      simpa [hlimit] using h
    generalize buffer.take limit = available at havailable hle hnil ⊢
    cases hfound : available.idxOf? delim with
    | some i =>
      obtain ⟨hi,hlast⟩ := idxOf?_eq_some hfound
      simp only [hfound]
      refine .bind (.modify fun r h => ?_) fun _ => .pure fun _ h => h
      obtain ⟨hbuffer,hr,-⟩ := h
      obtain ⟨⟨rest,hrest⟩,hlen⟩ := havailable r hbuffer hr
      refine ⟨?_,Or.inr (Or.inl hlast),?_⟩
      · rw [← hrest,upTo_append_of_idxOf hfound hle]
      · rw [List.length_take,Nat.min_eq_left hi,consume_pending (by omega),hr]
    | none =>
      simp only [hfound]
      refine .bind (R := fun _ r => pending r = p.drop available.length ∧ available <+: p.bytes ∧
        (buffer = [] → p.bytes = [] ∧ p.fault = none)) (.modify fun r h => ?_) fun _ => ?_
      · obtain ⟨hbuffer,hr,hend⟩ := h
        obtain ⟨hinitial,hlen⟩ := havailable r hbuffer hr
        exact ⟨by rw [consume_pending hlen,hr],hinitial,hend⟩
      split
      · next hlen =>
        have havail : available = [] := List.length_eq_zero_iff.mp hlen
        refine .pure fun r h => ?_
        obtain ⟨hbytes,hfault⟩ := h.2.2 (hnil havail)
        exact ⟨by simp [hbytes],Or.inr (Or.inr hfault),by simpa [havail] using h.1⟩
      · next hlen =>
        rintro r ⟨hr,⟨rest,hrest⟩,-⟩
        have hopen : delim ∉ available := List.idxOf?_eq_none_iff.mp hfound
        have hlt : limit - available.length < limit := Nat.sub_lt hpos (Nat.pos_of_ne_zero hlen)
        have hbytes : (p.drop available.length).bytes = rest := by
          rw [Pending.drop_bytes,← hrest,List.drop_left]
        refine Triple.bind ((ih _ hlt (p.drop available.length)).mono (fun _ h => h) (fun _ _ h => h) ?_)
          (fun line => .pure fun r h => ?_) r hr
        · intro e r h
          rw [hbytes,Pending.drop_drop,Nat.add_sub_cancel' hle] at h
          refine ⟨?_,?_,h.2.2⟩
          · simp [← hrest,hopen,h.1]
          · rw [← hrest,List.length_append]
            omega
        · rw [hbytes,Pending.drop_drop] at h
          refine ⟨?_,h.2.1.imp ?_ (.imp ?_ id),by rw [h.2.2,List.length_append]⟩
          · rw [← hrest,upTo_append_of_notMem hopen hle,h.1]
          · intro hline
            rw [List.length_append,hline,Nat.add_sub_cancel' hle]
          · intro hlast
            simp [List.getLast?_append,hlast]

end BufReader

end Rmbtd
