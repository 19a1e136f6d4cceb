import Rmbtd.Library.Transition
import Rmbtd.Net.IpAddr

/-!
# The accept loop

The accept loop of `Server::run` and the workers of `worker_loop` as one transition system. The
kernel, the clients and the workers act between any two steps of the loop. Readiness is edge
triggered: a listener has an event when a connection arrived after its last event was delivered.
-/

namespace Rmbtd

open Transition

/-- A listener as the kernel sees it; `event` is a readiness event that is not delivered yet. -/
structure Listener where
  isTls : Bool
  backlog : List SocketAddr
  event : Bool
deriving DecidableEq

/-- Message sent from the accept loop to a worker thread. -/
inductive Job
  | connection (addr : SocketAddr) (isTls : Bool)
  | shutdown
deriving DecidableEq

/-- A worker thread. While `running` it has the receiving end of its channel; `serving` is the
connection it handles. -/
structure Worker where
  queue : List Job
  running : Bool
  connSeq : UInt64
  serving : Option UInt64
deriving DecidableEq

/-- Where the accept loop is. The first of the events is being served. -/
inductive LoopPhase
  | polling
  | draining (event : Nat) (events : List Nat)
  | returned
  | panicked
deriving DecidableEq

/-- A connection that was dropped, and how many jobs each queue held then. -/
structure Drop where
  addr : SocketAddr
  queues : List Nat
deriving DecidableEq

/-- The server; `drops` and `handled` tell what happened so far. Of a connection that a worker
takes, the worker and the connection's id are recorded. -/
structure ServerState where
  listeners : List Listener
  phase : LoopPhase
  nextWorker : UInt64
  workers : List Worker
  shutdown : Bool
  drops : List Drop
  handled : List (Nat × UInt64)
deriving DecidableEq

inductive Label
  | arrive (listener : Nat) (addr : SocketAddr)
  /-- `poll` is interrupted by a signal. -/
  | interrupt
  | pollError
  /-- `poll` returns these events, or none after the timeout. -/
  | wake (events : List Nat)
  /-- `accept` returns a connection, which can be made blocking or not. -/
  | accept (blocking : Bool)
  | wouldBlock
  /-- `accept` fails otherwise. The connection it was about may be gone. -/
  | acceptError (aborted : Bool)
  | signal
  | dequeue (worker : Nat)
  | complete (worker : Nat)
  /-- A worker sees the shutdown flag. -/
  | stop (worker : Nat)
deriving DecidableEq

def channelCapacity : Nat := 8

def eventCapacity : Nat := 16

/-- `SyncSender::try_send`. -/
def Worker.trySend (w : Worker) (job : Job) : Option Worker :=
  if w.running ∧ w.queue.length < channelCapacity then some { w with queue := w.queue ++ [job] }
  else none

def LoopPhase.after : List Nat → LoopPhase
  | [] => .polling
  | i::events => .draining i events

namespace ServerState

/-- The server as `run` finds it: nothing has arrived yet. -/
def start (numWorkers : Nat) (isTls : List Bool) : ServerState where
  listeners := isTls.map fun isTls => ⟨isTls,[],false⟩
  phase := .polling
  nextWorker := 0
  workers := List.replicate numWorkers ⟨[],true,0,none⟩
  shutdown := false
  drops := []
  handled := []

def updateListener (s : ServerState) (i : Nat) (f : Listener → Listener) : ServerState :=
  { s with listeners := s.listeners.modify i f }

def updateWorker (s : ServerState) (i : Nat) (w : Worker) : ServerState :=
  { s with workers := s.workers.set i w }

/-- The index of the worker the next connection goes to; there is none without workers. -/
def selected (s : ServerState) : Option Nat :=
  if s.workers.length = 0 then none else some (s.nextWorker.toNat % s.workers.length)

def dispatch (s : ServerState) (addr : SocketAddr) (isTls : Bool) : ServerState :=
  match s.selected with
  | none => { s with phase := .panicked }
  | some i =>
    let s := { s with nextWorker := s.nextWorker + 1 }
    match s.workers[i]?.bind fun w => w.trySend (.connection addr isTls) with
    | some w => s.updateWorker i w
    | none => { s with drops := s.drops ++ [⟨addr,s.workers.map fun w => w.queue.length⟩] }

/-- `poll` delivers events. -/
def wake (s : ServerState) (events : List Nat) : Option ServerState :=
  if s.phase = .polling ∧ events.Nodup ∧ events.length ≤ eventCapacity ∧
      events.all (fun i => s.listeners[i]?.any Listener.event) then
    let listeners := s.listeners.mapIdx fun i l => if i ∈ events then { l with event := false } else l
    if s.shutdown then some { s with
      listeners := listeners
      phase := .returned
      workers := s.workers.map fun w => (w.trySend .shutdown).getD w }
    else some { s with listeners := listeners, phase := .after events }
  else none

/-- What `accept` finds on the listener that is drained. -/
def accept (s : ServerState) (blocking : Bool) : Option ServerState :=
  match s.phase with
  | .draining i _ => match s.listeners[i]? with
    | some ⟨isTls,addr::_,_⟩ =>
      let s := s.updateListener i fun l => { l with backlog := l.backlog.tail }
      some (if blocking then s.dispatch addr isTls else s)
    | _ => none
  | _ => none

def wouldBlock (s : ServerState) : Option ServerState :=
  match s.phase with
  | .draining i events => match s.listeners[i]? with
    | some ⟨_,[],_⟩ => some { s with phase := .after events }
    | _ => none
  | _ => none

def acceptError (s : ServerState) (aborted : Bool) : Option ServerState :=
  match s.phase with
  | .draining i events =>
    let s := if aborted then s.updateListener i fun l => { l with backlog := l.backlog.tail } else s
    some { s with phase := .after events }
  | _ => none

def dequeue (s : ServerState) (i : Nat) : Option ServerState :=
  match s.workers[i]? with
  | some ⟨job::queue,true,connSeq,none⟩ => match job with
    | .shutdown => some (s.updateWorker i ⟨[],false,connSeq,none⟩)
    | .connection _ _ =>
      let connSeq := connSeq + 1
      let connId := UInt64.ofNat i * 100000 + connSeq
      some { s.updateWorker i ⟨queue,true,connSeq,some connId⟩ with
        handled := s.handled ++ [(i,connId)] }
  | _ => none

def complete (s : ServerState) (i : Nat) : Option ServerState :=
  match s.workers[i]? with
  | some ⟨queue,running,connSeq,some _⟩ => some (s.updateWorker i ⟨queue,running,connSeq,none⟩)
  | _ => none

def stop (s : ServerState) (i : Nat) : Option ServerState :=
  match s.workers[i]? with
  | some ⟨_,true,connSeq,none⟩ =>
    if s.shutdown then some (s.updateWorker i ⟨[],false,connSeq,none⟩) else none
  | _ => none

def step (s : ServerState) : Label → Option ServerState
  | .arrive i addr => if i < s.listeners.length then
      some (s.updateListener i fun l => { l with backlog := l.backlog ++ [addr], event := true })
    else none
  | .interrupt => if s.phase = .polling then some s else none
  | .pollError => if s.phase = .polling then some { s with phase := .returned } else none
  | .wake events => s.wake events
  | .accept blocking => s.accept blocking
  | .wouldBlock => s.wouldBlock
  | .acceptError aborted => s.acceptError aborted
  | .signal => some { s with shutdown := true }
  | .dequeue i => s.dequeue i
  | .complete i => s.complete i
  | .stop i => s.stop i

/-! ## Steps -/

variable {s t : ServerState} {l : Label}

/-- What accepting a connection does. -/
theorem accept_cases {blocking : Bool} (h : s.accept blocking = some t) :
    ∃ i events isTls addr backlog event, s.phase = .draining i events ∧
      s.listeners[i]? = some ⟨isTls,addr::backlog,event⟩ ∧
      t = if blocking then
          (s.updateListener i fun l => { l with backlog := l.backlog.tail }).dispatch addr isTls
        else s.updateListener i fun l => { l with backlog := l.backlog.tail } := by
  unfold accept at h
  cases hphase : s.phase with
  | draining i events =>
    rw [hphase] at h
    dsimp only at h
    split at h
    · next isTls addr backlog event hl =>
      exact ⟨i,events,isTls,addr,backlog,event,rfl,hl,(Option.some.inj h).symm⟩
    · cases h
  | _ =>
    rw [hphase] at h
    cases h

/-- The connection goes to the selected worker or is dropped; without workers the loop panics. -/
theorem dispatch_cases (s : ServerState) (addr : SocketAddr) (isTls : Bool) :
    (s.workers = [] ∧ s.dispatch addr isTls = { s with phase := .panicked }) ∨
    ∃ w, s.selected = some (s.nextWorker.toNat % s.workers.length) ∧
      s.workers[s.nextWorker.toNat % s.workers.length]? = some w ∧
      ((∃ w', w.trySend (.connection addr isTls) = some w' ∧
        s.dispatch addr isTls = ({ s with nextWorker := s.nextWorker + 1 }.updateWorker
          (s.nextWorker.toNat % s.workers.length) w')) ∨
      w.trySend (.connection addr isTls) = none ∧
        s.dispatch addr isTls = { s with
          nextWorker := s.nextWorker + 1
          drops := s.drops ++ [⟨addr,s.workers.map fun w => w.queue.length⟩] }) := by
  by_cases hnil : s.workers.length = 0
  · have hselected : s.selected = none := if_pos hnil
    exact Or.inl ⟨List.length_eq_zero_iff.mp hnil,by rw [dispatch,hselected]⟩
  · have hselected : s.selected = some (s.nextWorker.toNat % s.workers.length) := if_neg hnil
    have hlt : s.nextWorker.toNat % s.workers.length < s.workers.length :=
      Nat.mod_lt _ (Nat.pos_of_ne_zero hnil)
    refine Or.inr ⟨_,hselected,List.getElem?_eq_getElem hlt,?_⟩
    cases htry : (s.workers[s.nextWorker.toNat % s.workers.length]).trySend (.connection addr isTls) with
    | some w' =>
      refine Or.inl ⟨w',rfl,?_⟩
      simp only [dispatch,hselected,List.getElem?_eq_getElem hlt,Option.bind_some,htry]
    | none =>
      refine Or.inr ⟨rfl,?_⟩
      simp only [dispatch,hselected,List.getElem?_eq_getElem hlt,Option.bind_some,htry]

theorem trySend_eq_none {w : Worker} {job : Job} :
    w.trySend job = none ↔ ¬(w.running ∧ w.queue.length < channelCapacity) := by
  unfold Worker.trySend
  split <;> simp_all

theorem wake_cases {events : List Nat} (h : s.wake events = some t) :
    s.phase = .polling ∧ ∃ listeners,
      listeners = (s.listeners.mapIdx fun i l => if i ∈ events then { l with event := false } else l) ∧
      ((s.shutdown = true ∧ t = { s with
        listeners := listeners
        phase := .returned
        workers := s.workers.map fun w => (w.trySend .shutdown).getD w }) ∨
      t = { s with listeners := listeners, phase := .after events }) := by
  unfold wake at h
  split at h
  · next hcond =>
    refine ⟨hcond.1,_,rfl,?_⟩
    dsimp only at h
    split at h
    · next hshutdown => exact Or.inl ⟨hshutdown,(Option.some.inj h).symm⟩
    · exact Or.inr (Option.some.inj h).symm
  · cases h

theorem wouldBlock_cases (h : s.wouldBlock = some t) :
    ∃ i events isTls event, s.phase = .draining i events ∧
      s.listeners[i]? = some ⟨isTls,[],event⟩ ∧ t = { s with phase := .after events } := by
  unfold wouldBlock at h
  cases hphase : s.phase with
  | draining i events =>
    rw [hphase] at h
    dsimp only at h
    split at h
    · next isTls event hl => exact ⟨i,events,isTls,event,rfl,hl,(Option.some.inj h).symm⟩
    · cases h
  | _ =>
    rw [hphase] at h
    cases h

theorem acceptError_cases {aborted : Bool} (h : s.acceptError aborted = some t) :
    ∃ i events, s.phase = .draining i events ∧
      t = { (if aborted then s.updateListener i fun l => { l with backlog := l.backlog.tail } else s)
        with phase := .after events } := by
  unfold acceptError at h
  cases hphase : s.phase with
  | draining i events =>
    rw [hphase] at h
    exact ⟨i,events,rfl,(Option.some.inj h).symm⟩
  | _ =>
    rw [hphase] at h
    cases h

theorem worker_cases {i : Nat} (h : s.dequeue i = some t ∨ s.complete i = some t ∨ s.stop i = some t) :
    ∃ w w', s.workers[i]? = some w ∧
      ((t = s.updateWorker i w' ∧ w'.connSeq = w.connSeq) ∨
      (t = { s.updateWorker i w' with
          handled := s.handled ++ [(i,UInt64.ofNat i * 100000 + w'.connSeq)] } ∧
        w'.connSeq = w.connSeq + 1)) := by
  rcases h with h | h | h
  · unfold dequeue at h
    split at h
    · next job queue connSeq hw =>
      cases job with
      | shutdown => exact ⟨_,_,hw,Or.inl ⟨(Option.some.inj h).symm,rfl⟩⟩
      | connection addr isTls => exact ⟨_,_,hw,Or.inr ⟨(Option.some.inj h).symm,rfl⟩⟩
    · cases h
  · unfold complete at h
    split at h
    · next hw => exact ⟨_,_,hw,Or.inl ⟨(Option.some.inj h).symm,rfl⟩⟩
    · cases h
  · unfold stop at h
    split at h
    · next hw =>
      split at h
      · exact ⟨_,_,hw,Or.inl ⟨(Option.some.inj h).symm,rfl⟩⟩
      · cases h
    · cases h

theorem step_frame (h : s.step l = some t) :
    (t.workers = s.workers ∧ t.drops = s.drops ∧ t.handled = s.handled) ∨
    (∃ events, l = .wake events ∧ s.shutdown = true ∧ t.drops = s.drops ∧ t.handled = s.handled ∧
      t.workers = s.workers.map fun w => (w.trySend .shutdown).getD w) ∨
    (∃ (u : ServerState) (addr : SocketAddr) (isTls : Bool), l = .accept true ∧
      u.workers = s.workers ∧ u.nextWorker = s.nextWorker ∧ u.drops = s.drops ∧ u.handled = s.handled ∧
      t = u.dispatch addr isTls) ∨
    ∃ i, s.dequeue i = some t ∨ s.complete i = some t ∨ s.stop i = some t := by
  cases l with
  | arrive i addr =>
    simp only [step] at h
    split at h
    · cases h
      exact Or.inl ⟨rfl,rfl,rfl⟩
    · cases h
  | interrupt =>
    simp only [step] at h
    split at h
    · cases h
      exact Or.inl ⟨rfl,rfl,rfl⟩
    · cases h
  | pollError =>
    simp only [step] at h
    split at h
    · cases h
      exact Or.inl ⟨rfl,rfl,rfl⟩
    · cases h
  | wake events =>
    obtain ⟨-,listeners,-,⟨hshutdown,rfl⟩ | rfl⟩ := wake_cases h
    · exact Or.inr (Or.inl ⟨events,rfl,hshutdown,rfl,rfl,rfl⟩)
    · exact Or.inl ⟨rfl,rfl,rfl⟩
  | accept blocking =>
    obtain ⟨i,events,isTls,addr,backlog,event,-,-,rfl⟩ := accept_cases h
    cases blocking with
    | true => exact Or.inr (Or.inr (Or.inl
        ⟨s.updateListener i fun l => { l with backlog := l.backlog.tail },addr,isTls,rfl,rfl,rfl,rfl,rfl,rfl⟩))
    | false => exact Or.inl ⟨rfl,rfl,rfl⟩
  | wouldBlock =>
    obtain ⟨i,events,isTls,event,-,-,rfl⟩ := wouldBlock_cases h
    exact Or.inl ⟨rfl,rfl,rfl⟩
  | acceptError aborted =>
    obtain ⟨i,events,-,rfl⟩ := acceptError_cases h
    cases aborted <;> exact Or.inl ⟨rfl,rfl,rfl⟩
  | signal =>
    cases h
    exact Or.inl ⟨rfl,rfl,rfl⟩
  | dequeue i => exact Or.inr (Or.inr (Or.inr ⟨i,Or.inl h⟩))
  | complete i => exact Or.inr (Or.inr (Or.inr ⟨i,Or.inr (Or.inl h)⟩))
  | stop i => exact Or.inr (Or.inr (Or.inr ⟨i,Or.inr (Or.inr h)⟩))

theorem step_shutdown (h : s.step l = some t) : t.shutdown = true ↔ l = .signal ∨ s.shutdown = true := by
  have hown {i : Nat} (hi : s.dequeue i = some t ∨ s.complete i = some t ∨ s.stop i = some t) :
      t.shutdown = s.shutdown := by
    obtain ⟨w,w',-,⟨rfl,-⟩ | ⟨rfl,-⟩⟩ := worker_cases hi
    · rfl
    · rfl
  by_cases hl : l = .signal
  · subst hl
    cases h
    simp
  suffices hsame : t.shutdown = s.shutdown by simp [hsame,hl]
  cases l with
  | arrive i addr =>
    simp only [step] at h
    split at h
    · cases h
      rfl
    · cases h
  | interrupt =>
    simp only [step] at h
    split at h
    · cases h
      rfl
    · cases h
  | pollError =>
    simp only [step] at h
    split at h
    · cases h
      rfl
    · cases h
  | wake events =>
    obtain ⟨-,listeners,-,⟨-,rfl⟩ | rfl⟩ := wake_cases h
    · rfl
    · rfl
  | accept blocking =>
    obtain ⟨i,events,isTls,addr,backlog,event,-,-,rfl⟩ := accept_cases h
    cases blocking with
    | false => rfl
    | true =>
      rcases (s.updateListener i fun l => { l with backlog := l.backlog.tail }).dispatch_cases addr isTls with
        ⟨-,heq⟩ | ⟨w,-,-,⟨w',-,heq⟩ | ⟨-,heq⟩⟩
      all_goals
        rw [if_pos rfl,heq]
        rfl
  | wouldBlock =>
    obtain ⟨i,events,isTls,event,-,-,rfl⟩ := wouldBlock_cases h
    rfl
  | acceptError aborted =>
    obtain ⟨i,events,-,rfl⟩ := acceptError_cases h
    cases aborted <;> rfl
  | signal => exact absurd rfl hl
  | dequeue i => exact hown (Or.inl h)
  | complete i => exact hown (Or.inr (Or.inl h))
  | stop i => exact hown (Or.inr (Or.inr h))

end ServerState

/-! ## Drops -/

/-- A connection was dropped while all queues were full. -/
def Drop.Saturated (d : Drop) : Prop := ∀ n ∈ d.queues, n = channelCapacity

theorem run_of_exec_map {α : Type} {numWorkers : Nat} {isTls : List Bool} {ls : List Label}
    {f : ServerState → α} {a : α}
    (h : (exec ServerState.step (.start numWorkers isTls) ls).map f = some a) :
    ∃ t, Run ServerState.step (fun _ _ => True) (.start numWorkers isTls) ls t ∧ f t = a := by
  obtain ⟨t,ht,hf⟩ := Option.map_eq_some_iff.mp h
  exact ⟨t,run_of_exec ht,hf⟩

def anyPeer : SocketAddr := .v4 Ipv4Addr.unspecified 40000

/-- Worker 0 is busy and worker 1 is done with every connection at once. -/
def unbalanced : List Label :=
  (List.replicate 8 [.arrive 0 anyPeer,.arrive 0 anyPeer,.wake [0],.accept true,.accept true,
    .wouldBlock,.dequeue 1,.complete 1]).flatten ++ [.arrive 0 anyPeer,.wake [0],.accept true]

/-- A connection is dropped although a worker is idle and its queue is empty. -/
theorem drops_while_idle :
    ∃ t, Run ServerState.step (fun _ _ => True) (.start 2 [false]) unbalanced t ∧
      t.workers[1]? = some ⟨[],true,8,none⟩ ∧ ∃ d ∈ t.drops, ¬d.Saturated := by
  obtain ⟨t,hrun,hdrops⟩ := run_of_exec_map (f := fun t => (t.workers[1]?,t.drops))
    (show (exec ServerState.step (.start 2 [false]) unbalanced).map _ =
      some (some ⟨[],true,8,none⟩,[⟨anyPeer,[8,0]⟩]) by decide)
  obtain ⟨hworker,hdrops⟩ := Prod.mk.injEq .. ▸ hdrops
  refine ⟨t,hrun,hworker,⟨anyPeer,[8,0]⟩,by rw [hdrops]; simp,?_⟩
  intro h
  exact absurd (h 0 (by decide)) (by decide)

/-! ## Backlogs -/

/-- No connection of the backlog is forgotten: the loop will be told of it. -/
def Listener.Announced (l : Listener) : Prop := l.backlog ≠ [] → l.event = true

/-- The listener is one the loop will still drain; after the loop there is nothing to keep. -/
def LoopPhase.Serves : LoopPhase → Nat → Prop
  | .polling, _ => False
  | .draining i events, k => k ∈ i::events
  | .returned, _ => True
  | .panicked, _ => True

/-- Every listener that the loop is done with has its backlog announced. -/
def ServerState.NoneForgotten (s : ServerState) : Prop :=
  ∀ k l, s.listeners[k]? = some l → s.phase.Serves k ∨ l.Announced

/-- An error of `accept` other than `WouldBlock` leaves no connection in the backlog, unless the
next event is already there. -/
def Drained (s : ServerState) (l : Label) : Prop :=
  ∀ aborted i events listener, l = .acceptError aborted → s.phase = .draining i events →
    s.listeners[i]? = some listener →
    (if aborted then listener.backlog.tail else listener.backlog) ≠ [] → listener.event = true

theorem LoopPhase.serves_after {events : List Nat} {k : Nat} : (LoopPhase.after events).Serves k ↔ k ∈ events := by
  cases events with
  | nil => simp [LoopPhase.after,LoopPhase.Serves]
  | cons i events => rfl

section NoneForgotten
variable {s t : ServerState}

private theorem ServerState.NoneForgotten.of_listeners (hs : s.NoneForgotten)
    (hl : t.listeners = s.listeners) (hp : ∀ k, s.phase.Serves k → t.phase.Serves k) :
    t.NoneForgotten := by
  intro k l hk
  rw [hl] at hk
  exact (hs k l hk).imp_left (hp k)

private theorem ServerState.NoneForgotten.of_modify (hs : s.NoneForgotten) {i : Nat}
    {f : Listener → Listener} (hl : t.listeners = s.listeners.modify i f)
    (hi : ∀ l, s.listeners[i]? = some l → t.phase.Serves i ∨ (f l).Announced)
    (hp : ∀ k, k ≠ i → s.phase.Serves k → t.phase.Serves k) : t.NoneForgotten := by
  intro k l hk
  rw [hl,List.getElem?_modify] at hk
  by_cases hki : i = k
  · subst hki
    obtain ⟨l',hl',rfl⟩ := Option.map_eq_some_iff.mp hk
    rw [if_pos rfl]
    exact hi l' hl'
  · simp only [hki,if_false,Option.map_eq_map,Option.map_id_fun',id] at hk
    exact (hs k l hk).imp_left (hp k (Ne.symm hki))

private theorem dispatch_noneForgotten {addr : SocketAddr} {isTls : Bool} (hs : s.NoneForgotten) :
    (s.dispatch addr isTls).NoneForgotten := by
  rcases s.dispatch_cases addr isTls with ⟨-,heq⟩ | ⟨w,-,-,⟨w',-,heq⟩ | ⟨-,heq⟩⟩
  · rw [heq]
    exact hs.of_listeners rfl fun _ _ => trivial
  · rw [heq]
    exact hs.of_listeners rfl fun _ h => h
  · rw [heq]
    exact hs.of_listeners rfl fun _ h => h

private theorem wake_noneForgotten {events : List Nat} (hs : s.NoneForgotten)
    (h : s.wake events = some t) : t.NoneForgotten := by
  obtain ⟨hphase,listeners,hlisteners,⟨-,rfl⟩ | rfl⟩ := ServerState.wake_cases h
  · exact fun _ _ _ => Or.inl trivial
  · intro k l hk
    simp only [hlisteners,List.getElem?_mapIdx,Option.map_eq_some_iff] at hk
    obtain ⟨l',hl',heq⟩ := hk
    by_cases hmem : k ∈ events
    · exact Or.inl (LoopPhase.serves_after.mpr hmem)
    · rw [if_neg hmem] at heq
      subst heq
      have hk := hs k l' hl'
      rw [hphase] at hk
      exact Or.inr (hk.resolve_left id)

private theorem step_noneForgotten {l : Label} (hdrained : Drained s l) (hs : s.NoneForgotten)
    (h : s.step l = some t) : t.NoneForgotten := by
  cases l with
  | arrive i addr =>
    simp only [ServerState.step] at h
    split at h
    · cases h
      exact hs.of_modify rfl (fun _ _ => Or.inr fun _ => rfl) fun _ _ h => h
    · cases h
  | interrupt =>
    simp only [ServerState.step] at h
    split at h
    · cases h
      exact hs
    · cases h
  | pollError =>
    simp only [ServerState.step] at h
    split at h
    · cases h
      exact hs.of_listeners rfl fun _ _ => trivial
    · cases h
  | wake events => exact wake_noneForgotten hs h
  | accept blocking =>
    obtain ⟨i,events,isTls,addr,backlog,event,hphase,-,rfl⟩ := ServerState.accept_cases h
    have hupdate : (s.updateListener i fun l => { l with backlog := l.backlog.tail }).NoneForgotten := by
      apply hs.of_modify rfl
      · intro _ _
        left
        change s.phase.Serves i
        rw [hphase]
        exact List.mem_cons_self
      · exact fun _ _ h => h
    cases blocking with
    | true => exact dispatch_noneForgotten hupdate
    | false => exact hupdate
  | wouldBlock =>
    obtain ⟨i,events,isTls,event,hphase,hi,rfl⟩ := ServerState.wouldBlock_cases h
    intro k l hk
    rcases hs k l hk with hserves | hannounced
    · rw [hphase] at hserves
      rcases List.mem_cons.mp hserves with rfl | hmem
      · have hl : l = ⟨isTls,[],event⟩ := Option.some.inj (hk.symm.trans hi)
        subst hl
        exact Or.inr fun h => absurd rfl h
      · exact Or.inl (LoopPhase.serves_after.mpr hmem)
    · exact Or.inr hannounced
  | acceptError aborted =>
    obtain ⟨i,events,hphase,rfl⟩ := ServerState.acceptError_cases h
    have hserves : ∀ k, k ≠ i → s.phase.Serves k → (LoopPhase.after events).Serves k := by
      intro k hk hserves
      rw [hphase] at hserves
      exact LoopPhase.serves_after.mpr ((List.mem_cons.mp hserves).resolve_left hk)
    have hannounced := fun listener => hdrained aborted i events listener rfl hphase
    cases aborted with
    | true => exact hs.of_modify rfl (fun l hl => Or.inr (hannounced l hl)) hserves
    | false =>
      have hlisteners : s.listeners = s.listeners.modify i id := (List.modify_id i s.listeners).symm
      exact hs.of_modify (f := id) hlisteners (fun l hl => Or.inr (hannounced l hl)) hserves
  | signal =>
    cases h
    exact hs.of_listeners rfl fun _ h => h
  | _ =>
    obtain ⟨w,w',-,⟨rfl,-⟩ | ⟨rfl,-⟩⟩ := ServerState.worker_cases (by tauto)
    · exact hs.of_listeners rfl fun _ h => h
    · exact hs.of_listeners rfl fun _ h => h

end NoneForgotten

/-- For every number of listeners and every interleaving, whenever the loop blocks in `poll`, every
listener with a backlog has an event that is not delivered yet, if no error of `accept` ends the
draining of a listener too early. -/
theorem backlog_announced {numWorkers : Nat} {isTls : List Bool} {ls : List Label} {t : ServerState}
    (run : Run ServerState.step Drained (.start numWorkers isTls) ls t) (hphase : t.phase = .polling) :
    ∀ l ∈ t.listeners, l.backlog ≠ [] → l.event = true := by
  have hinv : t.NoneForgotten := by
    apply run.invariant
    · intro k l hk
      simp only [ServerState.start,List.getElem?_map,Option.map_eq_some_iff] at hk
      obtain ⟨_,-,rfl⟩ := hk
      exact Or.inr fun h => absurd rfl h
    · intro s l t hdrained hs hstep
      exact step_noneForgotten hdrained hs hstep
  intro l hl
  obtain ⟨k,hk⟩ := List.mem_iff_getElem?.mp hl
  have hk := hinv k l hk
  rw [hphase] at hk
  exact hk.resolve_left id

theorem backlog_announced_golden :
    ∃ t, Run ServerState.step Drained (.start 1 [false])
      [.arrive 0 anyPeer,.wake [0],.acceptError true,.arrive 0 anyPeer] t ∧
      ∀ l ∈ t.listeners, l.backlog ≠ [] → l.event = true := by
  have hdrained {s : ServerState} {l : Label} (h : ∀ aborted, l ≠ .acceptError aborted) : Drained s l :=
    fun aborted _ _ _ hl => absurd hl (h aborted)
  have hempty {s : ServerState} (h : s.listeners = [⟨false,[anyPeer],false⟩]) :
      Drained s (.acceptError true) := by
    intro aborted i events listener hl _ hi hne
    cases hl
    rw [h] at hi
    rw [List.mem_singleton.mp (List.mem_of_getElem? hi)] at hne
    exact absurd rfl hne
  have run0 : Run ServerState.step Drained (.start 1 [false]) [] (.start 1 [false]) := Run.nil
  have run1 := run0.snoc (hdrained (l := .arrive 0 anyPeer) nofun) rfl
  have run2 := run1.snoc (hdrained (l := .wake [0]) nofun) rfl
  have run3 := run2.snoc (hempty rfl) rfl
  have run4 := run3.snoc (hdrained (l := .arrive 0 anyPeer) nofun) rfl
  exact ⟨_,run4,backlog_announced run4 rfl⟩

/-- After an error of `accept` the loop sleeps although a connection is waiting. -/
theorem backlog_forgotten :
    ∃ t, Run ServerState.step (fun _ _ => True) (.start 1 [false])
      [.arrive 0 anyPeer,.arrive 0 anyPeer,.wake [0],.acceptError true] t ∧
      t.phase = .polling ∧ ∃ l ∈ t.listeners, l.backlog ≠ [] ∧ l.event = false := by
  obtain ⟨t,hrun,ht⟩ := run_of_exec_map (f := fun t => (t.phase,t.listeners))
    (show (exec ServerState.step (.start 1 [false])
      [.arrive 0 anyPeer,.arrive 0 anyPeer,.wake [0],.acceptError true]).map _ =
      some (.polling,[⟨false,[anyPeer],false⟩]) by decide)
  have hlisteners : t.listeners = [⟨false,[anyPeer],false⟩] := congrArg Prod.snd ht
  refine ⟨t,hrun,congrArg Prod.fst ht,⟨false,[anyPeer],false⟩,?_,?_,rfl⟩
  · rw [hlisteners]
    exact List.mem_singleton_self _
  · exact List.cons_ne_nil _ _

end Rmbtd
