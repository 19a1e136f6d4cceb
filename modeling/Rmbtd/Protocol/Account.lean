import Rmbtd.Protocol.Conversation

/-!
# The account of a session

The statistics of a connection against its conversation: what is due for each turn, whether the
turn was completed or a failure of the stream cut it. Only one failure leaves something out. In
`handle_put` a report that cannot be written after the terminal chunk ends the handler before the
upload is booked.
-/

namespace Rmbtd

open Effect Session

/-! ## Tallies -/

namespace Entry

def downloads (es : List Entry) : List (Nat × Nat) := es.filterMap fun
  | download bytes ns => some (bytes,ns)
  | _ => none

def uploads (es : List Entry) : List (Nat × Nat) := es.filterMap fun
  | upload bytes ns => some (bytes,ns)
  | _ => none

def pings (es : List Entry) : List Nat := es.filterMap fun
  | ping ns => some ns
  | _ => none

end Entry

/-- The size and the duration of all these transfers. -/
structure Total (transfers : List (Nat × Nat)) (bytes : UInt64) (ns : Nat) : Prop where
  bytes_eq : bytes = UInt64.ofNat (transfers.map Prod.fst).sum
  ns_eq : ns = (transfers.map Prod.snd).sum

/-- The number of these pings, and the shortest and the longest of them. Every duration of the
code is less than `2^128`. -/
structure Extremes (pings : List Nat) (count : UInt32) (shortest longest : Nat) : Prop where
  count_eq : count = UInt32.ofNat pings.length
  shortest_le : ∀ ns ∈ pings, shortest ≤ ns
  le_longest : ∀ ns ∈ pings, ns ≤ longest
  reached : pings ≠ [] → (∀ ns ∈ pings, ns < 2^128) → shortest ∈ pings ∧ longest ∈ pings
  initial : pings = [] → shortest = 2^128 - 1 ∧ longest = 0

/-- Statistics that show exactly these entries, up to the widths of the fields. -/
structure Tallied (es : List Entry) (s : ConnStats) : Prop where
  download : Total (Entry.downloads es) s.downloadBytes s.downloadNs
  upload : Total (Entry.uploads es) s.uploadBytes s.uploadNs
  ping : Extremes (Entry.pings es) s.pingCount s.pingMinNs s.pingMaxNs
  commands : s.commands = UInt32.ofNat (es.count .command)

private theorem Total.snoc {transfers : List (Nat × Nat)} {bytes : UInt64} {ns : Nat}
    (h : Total transfers bytes ns) (b d : Nat) :
    Total (transfers ++ [(b,d)]) (bytes + UInt64.ofNat b) (ns + d) := by
  constructor
  · rw [h.bytes_eq,List.map_append,List.sum_append,UInt64.ofNat_add]
    simp
  · rw [h.ns_eq,List.map_append,List.sum_append]
    simp

private theorem Extremes.snoc {pings : List Nat} {count : UInt32} {shortest longest : Nat}
    (h : Extremes pings count shortest longest) (ns : Nat) :
    Extremes (pings ++ [ns]) (count + 1) (if ns < shortest then ns else shortest)
      (if longest < ns then ns else longest) := by
  refine ⟨?_,?_,?_,?_,fun hnil => absurd hnil (by simp)⟩
  · rw [List.length_append,UInt32.ofNat_add,← h.count_eq]
    rfl
  · intro m hm
    rcases List.mem_append.mp hm with hm | hm
    · have := h.shortest_le m hm
      split <;> omega
    · rw [List.mem_singleton.mp hm]
      split <;> omega
  · intro m hm
    rcases List.mem_append.mp hm with hm | hm
    · have := h.le_longest m hm
      split <;> omega
    · rw [List.mem_singleton.mp hm]
      split <;> omega
  · intro _ hlt
    have hns : ns < 2^128 := hlt ns (by simp)
    by_cases hnone : pings = []
    · obtain ⟨rfl,rfl⟩ := h.initial hnone
      subst hnone
      have hmin : (if ns < 2^128 - 1 then ns else 2^128 - 1) = ns := by split <;> omega
      have hmax : (if 0 < ns then ns else 0) = ns := by split <;> omega
      rw [hmin,hmax]
      simp
    · obtain ⟨hmin,hmax⟩ := h.reached hnone fun m hm => hlt m (List.mem_append_left _ hm)
      constructor
      · split
        · simp
        · exact List.mem_append_left _ hmin
      · split
        · simp
        · exact List.mem_append_left _ hmax

private theorem Tallied.new : Tallied [] .new :=
  ⟨⟨rfl,rfl⟩,⟨rfl,rfl⟩,⟨rfl,nofun,nofun,fun h => absurd rfl h,fun _ => ⟨rfl,rfl⟩⟩,rfl⟩

private theorem Tallied.snoc {es : List Entry} {s : ConnStats} (h : Tallied es s) (e : Entry) :
    Tallied (es ++ [e]) (e.apply s) := by
  have hdownloads : Entry.downloads (es ++ [e]) = Entry.downloads es ++ Entry.downloads [e] :=
    List.filterMap_append
  have huploads : Entry.uploads (es ++ [e]) = Entry.uploads es ++ Entry.uploads [e] :=
    List.filterMap_append
  have hpings : Entry.pings (es ++ [e]) = Entry.pings es ++ Entry.pings [e] :=
    List.filterMap_append
  have hkeep {α : Type} (xs : List α) : xs ++ [] = xs := List.append_nil xs
  cases e with
  | command =>
    refine ⟨?_,?_,?_,?_⟩
    · rw [hdownloads]
      exact (hkeep _).symm ▸ h.download
    · rw [huploads]
      exact (hkeep _).symm ▸ h.upload
    · rw [hpings]
      exact (hkeep _).symm ▸ h.ping
    · rw [List.count_append,UInt32.ofNat_add,← h.commands]
      rfl
  | download bytes ns =>
    refine ⟨?_,?_,?_,?_⟩
    · rw [hdownloads]
      exact h.download.snoc bytes ns
    · rw [huploads]
      exact (hkeep _).symm ▸ h.upload
    · rw [hpings]
      exact (hkeep _).symm ▸ h.ping
    · rw [List.count_append]
      exact h.commands
  | upload bytes ns =>
    refine ⟨?_,?_,?_,?_⟩
    · rw [hdownloads]
      exact (hkeep _).symm ▸ h.download
    · rw [huploads]
      exact h.upload.snoc bytes ns
    · rw [hpings]
      exact (hkeep _).symm ▸ h.ping
    · rw [List.count_append]
      exact h.commands
  | ping ns =>
    refine ⟨?_,?_,?_,?_⟩
    · rw [hdownloads]
      exact (hkeep _).symm ▸ h.download
    · rw [huploads]
      exact (hkeep _).symm ▸ h.upload
    · rw [hpings]
      exact h.ping.snoc ns
    · rw [List.count_append]
      exact h.commands

def Op.isTerminal : Op → Bool
  | writeChunk c => c.getLast? = some 0xFF
  | readChunk c => c.getLast? = some 0xFF
  | _ => false

/-- What an answer of which `part` was performed has to book: a transfer whose terminal chunk went
through, a ping that was answered with `OK`. -/
def Answer.due {n : Nat} (part : List Op) : Answer n → List Entry
  | sending s => if part.any Op.isTerminal then [.download s.size s.duration] else []
  | receiving r => if part.any Op.isTerminal then [.upload r.size r.duration] else []
  | pong start (.time line _ now) => if .read line ∈ part then [.ping (now - start)] else []
  | _ => []

/-- What a turn of which `part` was performed has to book; a test command counts once it is read. -/
def Turn.due (t : Turn) (part : List Op) : List Entry :=
  (if .read t.line ∈ part ∧ IsTest t.line then [.command] else []) ++ t.answer.due part

/-- The terminal chunk of an upload was received, and then a report could not be written. -/
def Lost (part : List Op) (op : Op) : Prop :=
  (∃ c, .readChunk c ∈ part ∧ c.getLast? = some 0xFF) ∧ ∃ ns bytes, op = .write (reportLine ns bytes)

/-! ### Cuts -/

private def Cut (part next : List Op) : Prop :=
  ∀ op ∈ next.head?, op.isIo = true ∧ ¬Lost part op

private theorem entries_append (a b : List Op) : Op.entries (a ++ b) = Op.entries a ++ Op.entries b :=
  List.filterMap_append

private def Plain (ops : List Op) : Prop := ∀ op ∈ ops, op.isTerminal = false ∧ ∀ e, op ≠ .account e

private theorem Plain.append {a b : List Op} (ha : Plain a) (hb : Plain b) : Plain (a ++ b) :=
  fun op hop => (List.mem_append.mp hop).elim (ha op) (hb op)

private theorem Plain.entries {ops : List Op} (h : Plain ops) : Op.entries ops = [] := by
  apply List.filterMap_eq_nil_iff.mpr
  intro op hop
  cases op with
  | account e => exact absurd rfl ((h _ hop).2 e)
  | _ => rfl

private theorem Plain.terminal {ops : List Op} (h : Plain ops) : ops.any Op.isTerminal = false := by
  apply List.any_eq_false.mpr
  intro op hop
  rw [(h op hop).1]
  exact Bool.false_ne_true

private theorem skip {xs ys p q : List Op} (h : p ++ q = xs ++ ys) (hxs : ∀ x ∈ xs, x ∉ q.head?) :
    ∃ p', p = xs ++ p' ∧ p' ++ q = ys := by
  induction xs generalizing p with
  | nil => exact ⟨p,rfl,h⟩
  | cons x xs ih =>
    cases p with
    | nil =>
      rw [List.nil_append] at h
      have hx := hxs x List.mem_cons_self
      rw [h] at hx
      exact absurd rfl hx
    | cons y p =>
      rw [List.cons_append,List.cons_append,List.cons.injEq] at h
      obtain ⟨p',rfl,hp'⟩ := ih h.2 fun x hx => hxs x (List.mem_cons_of_mem _ hx)
      exact ⟨p',by rw [h.1,List.cons_append],hp'⟩

private theorem Cut.not_head {p q : List Op} (h : Cut p q) {x : Op} (hx : x.isIo = false) :
    x ∉ q.head? := by
  intro hmem
  have hio := (h x hmem).1
  rw [hx] at hio
  cases hio

/-! ### Chunks -/

private theorem plain_clocks (ts : List Nat) : Plain (ts.map .clock) := by
  intro op hop
  obtain ⟨t,-,rfl⟩ := List.mem_map.mp hop
  exact ⟨rfl,by simp⟩

private theorem plain_reports (rs : List (Nat × UInt64)) :
    Plain (rs.map fun r => .write (reportLine r.1 r.2)) := by
  intro op hop
  obtain ⟨r,-,rfl⟩ := List.mem_map.mp hop
  exact ⟨rfl,by simp⟩

private theorem plain_singleton {op : Op} (h : op.isTerminal = false) (he : ∀ e, op ≠ .account e) :
    Plain [op] := by
  intro op' hop
  rw [List.mem_singleton.mp hop]
  exact ⟨h,he⟩

private theorem sent_split {n : Nat} {chunks : List SentChunk}
    (h : Download n (chunks.map SentChunk.bytes)) :
    ∃ early c, chunks.flatMap SentChunk.ops = early ++ [.writeChunk c] ∧ Plain early ∧
      c.getLast? = some 0xFF := by
  induction chunks with
  | nil => cases h
  | cons chunk chunks ih =>
    rw [List.map_cons] at h
    generalize hbytes : chunks.map SentChunk.bytes = bytes at h ih
    cases h with
    | last length mark =>
      have hnil : chunks = [] := List.map_eq_nil_iff.mp hbytes
      subst hnil
      exact ⟨_,_,List.append_nil _,plain_clocks _,mark⟩
    | cons length mark rest =>
      obtain ⟨early,c,hops,hearly,hc⟩ := ih rest
      refine ⟨chunk.ops ++ early,c,?_,?_,hc⟩
      · rw [List.flatMap_cons,hops,List.append_assoc]
      · have hmark : (Op.writeChunk chunk.bytes).isTerminal = false := by
          rw [Op.isTerminal,mark]
          decide
        have hbytes : Plain [.writeChunk chunk.bytes] := plain_singleton hmark (by simp)
        exact ((plain_clocks _).append hbytes).append hearly

private theorem received_split {n : Nat} {chunks : List ReceivedChunk}
    (h : Upload n (chunks.map ReceivedChunk.bytes)) :
    ∃ (early : List Op) (c : ReceivedChunk), chunks.flatMap ReceivedChunk.ops = early ++ c.ops ∧
      Plain early ∧ c.bytes.getLast? = some 0xFF := by
  induction chunks with
  | nil => cases h
  | cons chunk chunks ih =>
    rw [List.map_cons] at h
    generalize hbytes : chunks.map ReceivedChunk.bytes = bytes at h ih
    cases h with
    | last length mark =>
      have hnil : chunks = [] := List.map_eq_nil_iff.mp hbytes
      subst hnil
      exact ⟨[],chunk,List.append_nil _,nofun,mark⟩
    | cons length mark rest =>
      obtain ⟨early,c,hops,hearly,hc⟩ := ih rest
      refine ⟨chunk.ops ++ early,c,?_,?_,hc⟩
      · rw [List.flatMap_cons,hops,List.append_assoc]
      · have hchunk : Plain [.readChunk chunk.bytes] := plain_singleton (by simpa [Op.isTerminal]) (by simp)
        exact ((hchunk.append (plain_clocks _)).append (plain_reports _)).append hearly

/-! ### Answers -/

private theorem sending_entries {n : Nat} (s : Sending n) {p q : List Op}
    (h : p ++ q = s.ops) (hcut : Cut p q) :
    Op.entries p = (Answer.sending s).due p := by
  obtain ⟨early,c,hops,hearly,hc⟩ := sent_split s.full
  have hreply : Plain (s.reply.ops s.start fun _ => []) := by
    cases s.reply with
    | time line ok now =>
      intro op hop
      simp only [Reply.ops,List.append_nil,List.mem_append,List.mem_cons,List.not_mem_nil,
        or_false] at hop
      rcases hop with (rfl | rfl) | rfl <;> exact ⟨rfl,by simp⟩
    | error line other =>
      intro op hop
      simp only [Reply.ops,List.mem_cons,List.not_mem_nil,or_false] at hop
      rcases hop with rfl | rfl <;> exact ⟨rfl,by simp⟩
  have hclock : Plain [.clock s.start] := plain_singleton rfl (by simp)
  have hstart : Plain (.clock s.start::early) := hclock.append hearly
  have hshape : p ++ q = (.clock s.start::early) ++ .writeChunk c::.clock s.finish::
      .account (.download s.size s.duration)::s.reply.ops s.start fun _ => [] := by
    rw [h,Sending.ops,hops]
    simp
  rcases List.append_eq_append_iff.mp hshape with ⟨a,ha,-⟩ | ⟨b,rfl,hb⟩
  · have hp : Plain p := fun op hop => hstart op (by rw [ha]; exact List.mem_append_left _ hop)
    rw [hp.entries,Answer.due,hp.terminal]
    rfl
  · cases b with
    | nil =>
      rw [List.append_nil,hstart.entries,Answer.due,hstart.terminal]
      rfl
    | cons op b =>
      rw [List.cons_append,List.cons.injEq] at hb
      obtain ⟨rfl,hb⟩ := hb
      have hskip : ∀ x ∈ ([.clock s.finish,.account (.download s.size s.duration)] : List Op),
          x ∉ q.head? := by
        intro x hx
        simp only [List.mem_cons,List.not_mem_nil,or_false] at hx
        rcases hx with rfl | rfl <;> exact hcut.not_head rfl
      have htail : b ++ q = [.clock s.finish,.account (.download s.size s.duration)] ++
          s.reply.ops s.start fun _ => [] := hb.symm
      obtain ⟨b,rfl,hlast⟩ := skip htail hskip
      have hrest : Plain b :=
        fun op hop => hreply op (by rw [← hlast]; exact List.mem_append_left _ hop)
      have hread : Op.writeChunk c ∈ (.clock s.start::early) ++ .writeChunk c::
          ([.clock s.finish,.account (.download s.size s.duration)] ++ b) := by simp
      have hentries : Op.entries (.writeChunk c::
          ([.clock s.finish,.account (.download s.size s.duration)] ++ b)) =
          .download s.size s.duration::Op.entries b := rfl
      rw [entries_append,hstart.entries,hentries,hrest.entries,Answer.due,
        if_pos (List.any_eq_true.mpr ⟨_,hread,by simp [Op.isTerminal,hc]⟩)]
      rfl

private theorem receiving_entries {n : Nat} (r : Receiving n) {p q : List Op}
    (h : p ++ q = r.ops) (hcut : Cut p q) :
    Op.entries p = (Answer.receiving r).due p := by
  obtain ⟨early,c,hops,hearly,hc⟩ := received_split r.full
  have hok : Plain [.write "OK\n",.clock r.start] := by
    intro op hop
    simp only [List.mem_cons,List.not_mem_nil,or_false] at hop
    rcases hop with rfl | rfl <;> exact ⟨rfl,by simp⟩
  have hstart := hok.append hearly
  have hshape : p ++ q = ([.write "OK\n",.clock r.start] ++ early) ++ .readChunk c.bytes::
      (c.sample.toList.map .clock ++ (c.report.toList.map fun r => .write (reportLine r.1 r.2)) ++
        [.clock r.finish,.account (.upload r.size r.duration),.write (timeLine r.duration)]) := by
    rw [h,Receiving.ops,hops,ReceivedChunk.ops]
    simp
  rcases List.append_eq_append_iff.mp hshape with ⟨a,ha,-⟩ | ⟨b,rfl,hb⟩
  · have hp : Plain p := fun op hop => hstart op (by rw [ha]; exact List.mem_append_left _ hop)
    rw [hp.entries,Answer.due,hp.terminal]
    rfl
  · cases b with
    | nil =>
      rw [List.append_nil,hstart.entries,Answer.due,hstart.terminal]
      rfl
    | cons op b =>
      rw [List.cons_append,List.cons.injEq] at hb
      obtain ⟨rfl,hb⟩ := hb
      have hread : Op.readChunk c.bytes ∈
          ([.write "OK\n",.clock r.start] ++ early) ++ .readChunk c.bytes::b := by simp
      -- after the terminal chunk no run is stopped before the upload is booked
      have hskip : ∀ x ∈ c.sample.toList.map .clock ++
          (c.report.toList.map fun r => .write (reportLine r.1 r.2)) ++
          ([.clock r.finish,.account (.upload r.size r.duration)] : List Op), x ∉ q.head? := by
        intro x hx
        simp only [List.mem_append,List.mem_cons,List.not_mem_nil,or_false] at hx
        rcases hx with (hx | hx) | rfl | rfl
        · obtain ⟨t,-,rfl⟩ := List.mem_map.mp hx
          exact hcut.not_head rfl
        · obtain ⟨report,-,rfl⟩ := List.mem_map.mp hx
          intro hmem
          exact (hcut _ hmem).2 ⟨⟨c.bytes,hread,hc⟩,report.1,report.2,rfl⟩
        · exact hcut.not_head rfl
        · exact hcut.not_head rfl
      have htail : b ++ q = (c.sample.toList.map .clock ++
          (c.report.toList.map fun r => .write (reportLine r.1 r.2)) ++
          ([.clock r.finish,.account (.upload r.size r.duration)] : List Op)) ++
          [.write (timeLine r.duration)] := by
        rw [← hb]
        simp
      obtain ⟨b,rfl,hlast⟩ := skip htail hskip
      have hplain : Plain [.write (timeLine r.duration)] := plain_singleton rfl (by simp)
      have hrest : Plain b :=
        fun op hop => hplain op (by rw [← hlast]; exact List.mem_append_left _ hop)
      rw [Answer.due,if_pos (List.any_eq_true.mpr ⟨_,hread,by simp [Op.isTerminal,hc]⟩)]
      have hbooked : Op.entries [.clock r.finish,.account (.upload r.size r.duration)] =
          [.upload r.size r.duration] := rfl
      have hchunk : Op.entries [.readChunk c.bytes] = [] := rfl
      rw [entries_append,hstart.entries,List.nil_append,← List.singleton_append,entries_append,hchunk,
        entries_append,entries_append,entries_append,(plain_clocks _).entries,
        (plain_reports _).entries,hbooked,hrest.entries]
      rfl

private theorem ping_line_ne {line ack : Text} (hcmd : field line 0 = "PING")
    (hok : trim ack = "OK") : ack ≠ line := by
  intro h
  subst h
  rw [field,hok] at hcmd
  exact absurd hcmd (by decide)

private theorem pong_entries {n start : Nat} (reply : Reply) {p q : List Op}
    (h : p ++ q = (Answer.pong (n := n) start reply).ops) (hcut : Cut p q) :
    Op.entries p = (Answer.pong (n := n) start reply).due p := by
  cases reply with
  | error line other =>
    have hops : Plain (Answer.pong (n := n) start (.error line other)).ops := by
      intro op hop
      simp only [Answer.ops,Reply.ops,List.mem_append,List.mem_cons,List.not_mem_nil,or_false] at hop
      rcases hop with (rfl | rfl) | rfl | rfl <;> exact ⟨rfl,by simp⟩
    have hp : Plain p := fun op hop => hops op (by rw [← h]; exact List.mem_append_left _ hop)
    rw [hp.entries]
    rfl
  | time line ok now =>
    have hshape : p ++ q = [.clock start,.write "PONG\n"] ++ [.read line,.clock now,
        .account (.ping (now - start)),.write (timeLine (now - start))] := h
    have hpong : Plain [.clock start,.write "PONG\n"] := by
      intro op hop
      simp only [List.mem_cons,List.not_mem_nil,or_false] at hop
      rcases hop with rfl | rfl <;> exact ⟨rfl,by simp⟩
    have hunread : .read line ∉ ([.clock start,.write "PONG\n"] : List Op) := by simp
    rcases List.append_eq_append_iff.mp hshape with ⟨a,ha,-⟩ | ⟨b,rfl,hb⟩
    · have hp : Plain p := fun op hop => hpong op (by rw [ha]; exact List.mem_append_left _ hop)
      have hread : .read line ∉ p :=
        fun hmem => hunread (by rw [ha]; exact List.mem_append_left _ hmem)
      rw [hp.entries,Answer.due,if_neg hread]
    · cases b with
      | nil =>
        rw [List.append_nil,hpong.entries,Answer.due,if_neg hunread]
      | cons op b =>
        rw [List.cons_append,List.cons.injEq] at hb
        obtain ⟨rfl,hb⟩ := hb
        have hskip : ∀ x ∈ ([.clock now,.account (.ping (now - start))] : List Op),
            x ∉ q.head? := by
          intro x hx
          simp only [List.mem_cons,List.not_mem_nil,or_false] at hx
          rcases hx with rfl | rfl <;> exact hcut.not_head rfl
        have htail : b ++ q = [.clock now,.account (.ping (now - start))] ++
            [.write (timeLine (now - start))] := hb.symm
        obtain ⟨b,rfl,hlast⟩ := skip htail hskip
        have hplain : Plain [.write (timeLine (now - start))] := plain_singleton rfl (by simp)
        have hrest : Plain b :=
          fun op hop => hplain op (by rw [← hlast]; exact List.mem_append_left _ hop)
        have hentries : Op.entries (.read line::([.clock now,.account (.ping (now - start))] ++ b)) =
            .ping (now - start)::Op.entries b := rfl
        rw [entries_append,hpong.entries,hentries,hrest.entries,Answer.due,if_pos (by simp)]
        rfl

private theorem Answer.entries {n : Nat} (a : Answer n) {p q : List Op} (h : p ++ q = a.ops)
    (hcut : Cut p q) : Op.entries p = a.due p := by
  have hline {line : Text} (h : p ++ q = [.write line]) : Op.entries p = [] := by
    have hplain : Plain [.write line] := plain_singleton rfl (by simp)
    have hp : Plain p := fun op hop => hplain op (by rw [← h]; exact List.mem_append_left _ hop)
    exact hp.entries
  cases a with
  | refused => exact hline h
  | bye => exact hline h
  | sending s => exact sending_entries s h hcut
  | receiving r => exact receiving_entries r h hcut
  | pong start reply => exact pong_entries reply h hcut

/-! ### Turns -/

private def Turn.head (t : Turn) : List Op :=
  [.write acceptLine,.read t.line] ++ if IsTest t.line then [.account .command] else []

private theorem Turn.due_head (t : Turn) (p : List Op) :
    t.answer.due (t.head ++ p) = t.answer.due p := by
  have hterminal : t.head.any Op.isTerminal = false := by
    unfold Turn.head
    split <;> rfl
  have hfits := t.fits
  cases ha : t.answer with
  | refused => rfl
  | bye => rfl
  | sending s => simp only [Answer.due,List.any_append,hterminal,Bool.false_or]
  | receiving r => simp only [Answer.due,List.any_append,hterminal,Bool.false_or]
  | pong start reply =>
    rw [ha] at hfits
    cases hfits with
    | ping hcmd =>
      cases reply with
      | error line other => rfl
      | time line ok now =>
        have hne := ping_line_ne hcmd ok
        have hmem : .read line ∈ t.head ++ p ↔ .read line ∈ p := by
          unfold Turn.head
          split <;> simp [hne]
        simp only [Answer.due,hmem]

private theorem Turn.due_unread (t : Turn) {p : List Op} (hp : Plain p)
    (hread : ∀ line, .read line ∉ p) : t.due p = [] := by
  rw [Turn.due,if_neg fun h => hread _ h.1,List.nil_append]
  cases t.answer with
  | refused => rfl
  | bye => rfl
  | sending s => rw [Answer.due,hp.terminal]; rfl
  | receiving r => rw [Answer.due,hp.terminal]; rfl
  | pong start reply =>
    cases reply with
    | error line other => rfl
    | time line ok now => exact if_neg (hread line)

private theorem Turn.entries (t : Turn) {p q : List Op} (h : p ++ q = t.ops) (hcut : Cut p q) :
    Op.entries p = t.due p := by
  have hshape : p ++ q = .write acceptLine::.read t.line::
      ((if IsTest t.line then [.account .command] else []) ++ t.answer.ops) := by
    rw [h,Turn.ops]
    simp
  have haccept : Plain [.write acceptLine] := plain_singleton rfl (by simp)
  cases p with
  | nil => exact (t.due_unread (List.forall_mem_nil _) fun _ => List.not_mem_nil).symm
  | cons op p =>
    rw [List.cons_append,List.cons.injEq] at hshape
    obtain ⟨rfl,hshape⟩ := hshape
    cases p with
    | nil => exact (t.due_unread haccept (by simp)).symm
    | cons op p =>
      rw [List.cons_append,List.cons.injEq] at hshape
      obtain ⟨rfl,hshape⟩ := hshape
      have hskip : ∀ x ∈ (if IsTest t.line then [.account .command] else [] : List Op),
          x ∉ q.head? := by
        intro x hx
        split at hx
        · rw [List.mem_singleton.mp hx]
          exact hcut.not_head rfl
        · cases hx
      obtain ⟨b,rfl,hb⟩ := skip hshape hskip
      have hpart : .write acceptLine::.read t.line::
          ((if IsTest t.line then [.account .command] else []) ++ b) = t.head ++ b := by
        simp [Turn.head]
      rw [hpart] at hcut ⊢
      have hhead : Op.entries t.head = if IsTest t.line then [.command] else [] := by
        unfold Turn.head
        split <;> rfl
      have hread : .read t.line ∈ t.head ++ b := by simp [Turn.head]
      have hcut' : Cut b q := by
        intro op hop
        refine ⟨(hcut op hop).1,fun hlost => (hcut op hop).2 ?_⟩
        obtain ⟨⟨c,hc,hmark⟩,hreport⟩ := hlost
        exact ⟨⟨c,List.mem_append_right _ hc,hmark⟩,hreport⟩
      rw [entries_append,hhead,t.answer.entries hb hcut',Turn.due,t.due_head]
      simp [hread]

/-! ### Runs -/

end Rmbtd
