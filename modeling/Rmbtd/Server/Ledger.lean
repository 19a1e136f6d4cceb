import Rmbtd.Library.Queues
import Rmbtd.Server.ConnIds
import Rmbtd.Server.Startup

/-!
# The ledger of connections

Every connection is followed from the backlog of a listener to the worker that takes it. The backlogs
and the channels of the workers are a bank of queues, so no connection is lost unseen, none is handled
twice, and none overtakes another on its way.
-/

namespace Rmbtd

open Transition

/-- A connection on its way to a worker. -/
structure Incoming where
  addr : SocketAddr
  isTls : Bool
deriving DecidableEq

/-- What happens to connections in one step. -/
inductive Fate
  | arrived (listener : Nat) (c : Incoming)
  /-- `accept` fails for the connection, or it cannot be made blocking. -/
  | refused (listener : Nat) (c : Incoming)
  | accepted (listener : Nat) (c : Incoming)
  | sent (worker : Nat) (c : Incoming)
  | dropped (worker : Nat) (c : Incoming)
  | taken (worker : Nat) (c : Incoming)
  /-- What is on the channel of a worker that stops. -/
  | discarded (worker : Nat) (cs : List Incoming)
deriving DecidableEq

def Job.incoming : Job → Option Incoming
  | .connection addr isTls => some ⟨addr,isTls⟩
  | .shutdown => none

def Worker.connections (w : Worker) : List Incoming := w.queue.filterMap Job.incoming

def Listener.connections (l : Listener) : List Incoming := l.backlog.map fun addr => ⟨addr,l.isTls⟩

namespace ServerState

def dispatchFates (s : ServerState) (c : Incoming) : List Fate :=
  match s.selected with
  | none => []
  | some k => match s.workers[k]?.bind fun w => w.trySend (.connection c.addr c.isTls) with
    | some _ => [.sent k c]
    | none => [.dropped k c]

/-- The listener that is drained and the first connection of its backlog. -/
def front (s : ServerState) : Option (Nat × Incoming) :=
  match s.phase with
  | .draining i _ => (s.listeners[i]?.bind fun l => l.connections.head?).map fun c => (i,c)
  | _ => none

/-- What a step does to connections. -/
def fates (s : ServerState) : Label → List Fate
  | .arrive i addr => (s.listeners[i]?.map fun l => Fate.arrived i ⟨addr,l.isTls⟩).toList
  | .accept blocking => match s.front with
    | some (i,c) => if blocking then .accepted i c::s.dispatchFates c else [.refused i c]
    | none => []
  | .acceptError true => match s.front with
    | some (i,c) => [.refused i c]
    | none => []
  | .dequeue k => match s.workers[k]? with
    | some w => match w.queue with
      | .connection addr isTls::_ => [.taken k ⟨addr,isTls⟩]
      | .shutdown::_ => [.discarded k w.connections]
      | [] => []
    | none => []
  | .stop k => (s.workers[k]?.map fun w => Fate.discarded k w.connections).toList
  | _ => []

def waitingAt (s : ServerState) (i : Nat) : List Incoming :=
  (s.listeners[i]?.map Listener.connections).getD []

def queuedAt (s : ServerState) (k : Nat) : List Incoming :=
  (s.workers[k]?.map Worker.connections).getD []

end ServerState

/-! ## The bank of queues -/

inductive Place
  | listener (i : Nat)
  | worker (k : Nat)
deriving DecidableEq

def Fate.ops : Fate → List (Queues.Op Place Incoming)
  | .arrived i c => [.put (.listener i) c]
  | .refused i c => [.take (.listener i) c]
  | .accepted i c => [.take (.listener i) c]
  | .sent k c => [.put (.worker k) c]
  | .dropped _ _ => []
  | .taken k c => [.take (.worker k) c]
  | .discarded k cs => [.discard (.worker k) cs]

def ServerState.bank (s : ServerState) : Queues.Bank Place Incoming
  | .listener i => s.waitingAt i
  | .worker k => s.queuedAt k

section Refinement
variable {s t : ServerState} {l : Label}

private theorem bank_updateListener (s : ServerState) (i : Nat) (f : Listener → Listener)
    {listener : Listener} (hi : s.listeners[i]? = some listener) :
    (s.updateListener i f).bank = s.bank.set (.listener i) (f listener).connections := by
  apply Eq.symm
  apply Queues.Bank.set_eq
  · simp [ServerState.bank,ServerState.waitingAt,ServerState.updateListener,hi]
  · rintro (j | k) hne
    · have hij : i ≠ j := fun h => hne (h ▸ rfl)
      simp [ServerState.bank,ServerState.waitingAt,ServerState.updateListener,hij]
    · rfl

private theorem bank_updateWorker (s : ServerState) (k : Nat) (w' : Worker) {w : Worker}
    (hk : s.workers[k]? = some w) :
    (s.updateWorker k w').bank = s.bank.set (.worker k) w'.connections := by
  have hlt : k < s.workers.length := (List.getElem?_eq_some_iff.mp hk).1
  apply Eq.symm
  apply Queues.Bank.set_eq
  · simp [ServerState.bank,ServerState.queuedAt,ServerState.updateWorker,hlt]
  · rintro (j | j) hne
    · rfl
    · have hkj : k ≠ j := fun h => hne (h ▸ rfl)
      simp [ServerState.bank,ServerState.queuedAt,ServerState.updateWorker,hkj]

private theorem bank_congr (hw : ∀ i, t.waitingAt i = s.waitingAt i) (hq : ∀ k, t.queuedAt k = s.queuedAt k) :
    t.bank = s.bank := by
  funext p
  cases p with
  | listener i => exact hw i
  | worker k => exact hq k

private theorem exec_one {q q' : Queues.Bank Place Incoming} {op : Queues.Op Place Incoming}
    (h : Queues.step q op = some q') : exec Queues.step q [op] = some q' := by
  rw [exec,h]
  rfl

private theorem take_front {i : Nat} {events : List Nat} {isTls event : Bool} {addr : SocketAddr}
    {backlog : List SocketAddr} (hphase : s.phase = .draining i events)
    (hi : s.listeners[i]? = some ⟨isTls,addr::backlog,event⟩) :
    s.front = some (i,⟨addr,isTls⟩) ∧ Queues.step s.bank (.take (.listener i) ⟨addr,isTls⟩) =
      some (s.updateListener i fun l => { l with backlog := l.backlog.tail }).bank := by
  have hbank : s.bank (.listener i) = ⟨addr,isTls⟩::backlog.map fun addr => ⟨addr,isTls⟩ := by
    simp [ServerState.bank,ServerState.waitingAt,hi,Listener.connections]
  constructor
  · simp [ServerState.front,hphase,hi,Listener.connections]
  · rw [bank_updateListener s i _ hi,Queues.step_take hbank]
    rfl

private theorem trySend_some {w w' : Worker} {job : Job} (h : w.trySend job = some w') :
    w'.connections = w.connections ++ job.incoming.toList ∧ w'.running = w.running ∧
      w'.serving = w.serving ∧ w.running = true := by
  unfold Worker.trySend at h
  split at h
  · next hcond =>
    cases h
    refine ⟨?_,rfl,rfl,hcond.1⟩
    cases job <;> simp [Worker.connections,Job.incoming]
  · cases h

private theorem dispatch_refines (s : ServerState) (c : Incoming) :
    exec Queues.step s.bank ((s.dispatchFates c).flatMap Fate.ops) =
      some (s.dispatch c.addr c.isTls).bank := by
  rcases s.dispatch_cases c.addr c.isTls with ⟨hnil,heq⟩ | ⟨w,hselected,hk,hcases⟩
  · have hselected : s.selected = none := by
      rw [ServerState.selected,hnil]
      rfl
    rw [heq,ServerState.dispatchFates,hselected]
    rfl
  · rw [ServerState.dispatchFates,hselected]
    dsimp only
    rw [hk,Option.bind_some]
    rcases hcases with ⟨w',htry,heq⟩ | ⟨htry,heq⟩
    · rw [htry,heq]
      apply exec_one
      have hbank := bank_updateWorker { s with nextWorker := s.nextWorker + 1 } _ w' hk
      rw [hbank,(trySend_some htry).1,Queues.step]
      simp [ServerState.bank,ServerState.queuedAt,hk,Job.incoming]
      rfl
    · rw [htry,heq]
      rfl

private theorem wake_refines {events : List Nat} (h : s.wake events = some t) : t.bank = s.bank := by
  obtain ⟨-,listeners,hlisteners,hcases⟩ := ServerState.wake_cases h
  have hwaiting (i : Nat) : ((listeners[i]?.map Listener.connections).getD [] : List Incoming) =
      s.waitingAt i := by
    rw [hlisteners,List.getElem?_mapIdx,ServerState.waitingAt]
    cases s.listeners[i]? with
    | none => rfl
    | some l =>
      dsimp only [Option.map_some,Option.getD_some]
      split <;> rfl
  rcases hcases with ⟨-,rfl⟩ | rfl
  · refine bank_congr (fun i => hwaiting i) ?_
    intro k
    simp only [ServerState.queuedAt,List.getElem?_map]
    cases s.workers[k]? with
    | none => rfl
    | some w =>
      cases htry : w.trySend .shutdown with
      | none => simp [htry]
      | some w' => simp [htry,(trySend_some htry).1,Job.incoming]
  · exact bank_congr (fun i => hwaiting i) fun _ => rfl

private theorem dequeue_refines {k : Nat} (h : s.dequeue k = some t) :
    exec Queues.step s.bank ((s.fates (.dequeue k)).flatMap Fate.ops) = some t.bank := by
  unfold ServerState.dequeue at h
  split at h
  · next job queue connSeq hk =>
    cases job with
    | connection addr isTls =>
      cases h
      have hbank : s.bank (.worker k) = ⟨addr,isTls⟩::queue.filterMap Job.incoming := by
        simp [ServerState.bank,ServerState.queuedAt,hk,Worker.connections,Job.incoming]
      have hnext := bank_updateWorker s k ⟨queue,true,connSeq + 1,some (UInt64.ofNat k * 100000 + (connSeq + 1))⟩ hk
      rw [ServerState.fates,hk]
      apply exec_one
      rw [Queues.step_take hbank]
      exact congrArg some hnext.symm
    | shutdown =>
      cases h
      have hbank : s.bank (.worker k) = (Worker.mk (.shutdown::queue) true connSeq none).connections := by
        simp [ServerState.bank,ServerState.queuedAt,hk]
      rw [ServerState.fates,hk]
      apply exec_one
      rw [← hbank,Queues.step_discard,bank_updateWorker s k _ hk]
      rfl
  · cases h

private theorem stop_refines {k : Nat} (h : s.stop k = some t) :
    exec Queues.step s.bank ((s.fates (.stop k)).flatMap Fate.ops) = some t.bank := by
  unfold ServerState.stop at h
  split at h
  · next queue connSeq hk =>
    split at h
    · cases h
      have hbank : s.bank (.worker k) = (Worker.mk queue true connSeq none).connections := by
        simp [ServerState.bank,ServerState.queuedAt,hk]
      rw [ServerState.fates,hk]
      apply exec_one
      rw [← hbank,Queues.step_discard,bank_updateWorker s k _ hk]
      rfl
    · cases h
  · cases h

theorem ServerState.complete_cases {k : Nat} (h : s.complete k = some t) : ∃ queue running connSeq id,
    s.workers[k]? = some ⟨queue,running,connSeq,some id⟩ ∧
      t = s.updateWorker k ⟨queue,running,connSeq,none⟩ := by
  unfold ServerState.complete at h
  split at h
  · next queue running connSeq id hk => exact ⟨queue,running,connSeq,id,hk,(Option.some.inj h).symm⟩
  · cases h

private theorem abort_refines {i : Nat} {events : List Nat} (hphase : s.phase = .draining i events) :
    exec Queues.step s.bank ((s.fates (.acceptError true)).flatMap Fate.ops) =
      some (s.updateListener i fun l => { l with backlog := l.backlog.tail }).bank := by
  have hempty (h : s.waitingAt i = []) : s.front = none := by
    unfold ServerState.waitingAt at h
    simp only [ServerState.front,hphase]
    cases hi : s.listeners[i]? with
    | none => simp
    | some l =>
      rw [hi] at h
      have hnil : l.connections = [] := h
      simp [hnil]
  cases hi : s.listeners[i]? with
  | none =>
    have hsame : (s.updateListener i fun l => { l with backlog := l.backlog.tail }).bank = s.bank := by
      refine bank_congr ?_ fun _ => rfl
      intro j
      by_cases hij : i = j
      · subst hij
        simp [ServerState.waitingAt,ServerState.updateListener,hi]
      · simp [ServerState.waitingAt,ServerState.updateListener,hij]
    rw [hsame,ServerState.fates,hempty (by simp [ServerState.waitingAt,hi])]
    rfl
  | some l =>
    obtain ⟨isTls,backlog,event⟩ := l
    cases backlog with
    | nil =>
      rw [bank_updateListener s i _ hi,ServerState.fates,
        hempty (by simp [ServerState.waitingAt,hi,Listener.connections])]
      refine congrArg some (Queues.Bank.set_eq ?_ fun _ _ => rfl).symm
      simp [ServerState.bank,ServerState.waitingAt,hi,Listener.connections]
    | cons addr backlog =>
      obtain ⟨hfront,htake⟩ := take_front hphase hi
      rw [ServerState.fates,hfront]
      exact exec_one htake

/-- Every step of the server is some operations on the bank of queues. -/
theorem step_refines (h : s.step l = some t) :
    exec Queues.step s.bank ((s.fates l).flatMap Fate.ops) = some t.bank := by
  cases l with
  | arrive i addr =>
    simp only [ServerState.step] at h
    split at h
    · next hlt =>
      cases h
      have hi := List.getElem?_eq_getElem hlt
      rw [ServerState.fates,hi]
      apply exec_one
      rw [bank_updateListener s i _ hi,Queues.step]
      simp [ServerState.bank,ServerState.waitingAt,hi,Listener.connections]
    · cases h
  | interrupt =>
    simp only [ServerState.step] at h
    split at h
    · cases h
      rfl
    · cases h
  | pollError =>
    simp only [ServerState.step] at h
    split at h
    · cases h
      rfl
    · cases h
  | wake events => exact congrArg some (wake_refines h).symm
  | accept blocking =>
    obtain ⟨i,events,isTls,addr,backlog,event,hphase,hi,rfl⟩ := ServerState.accept_cases h
    obtain ⟨hfront,htake⟩ := take_front hphase hi
    rw [ServerState.fates,hfront]
    cases blocking with
    | false => exact exec_one htake
    | true =>
      have hdispatch := dispatch_refines
        (s.updateListener i fun l => { l with backlog := l.backlog.tail }) ⟨addr,isTls⟩
      simp only [if_true,List.flatMap_cons]
      rw [exec_append,Fate.ops,exec_one htake]
      exact hdispatch
  | wouldBlock =>
    obtain ⟨i,events,isTls,event,-,-,rfl⟩ := ServerState.wouldBlock_cases h
    rfl
  | acceptError aborted =>
    obtain ⟨i,events,hphase,rfl⟩ := ServerState.acceptError_cases h
    cases aborted with
    | false => rfl
    | true => exact abort_refines hphase
  | signal =>
    cases h
    rfl
  | dequeue k => exact dequeue_refines h
  | complete k =>
    obtain ⟨queue,running,connSeq,id,hk,rfl⟩ := ServerState.complete_cases h
    have hsame : (s.updateWorker k ⟨queue,running,connSeq,none⟩).bank = s.bank := by
      rw [bank_updateWorker s k _ hk]
      apply Queues.Bank.set_eq
      · simp [ServerState.bank,ServerState.queuedAt,hk,Worker.connections]
      · exact fun _ _ => rfl
    exact congrArg some hsame.symm
  | stop k => exact stop_refines h

end Refinement

/-! ## The fates of a run -/

namespace Fate

def arrivedAt (i : Nat) : Fate → List Incoming
  | .arrived j c => if j = i then [c] else []
  | _ => []

def leftFrom (i : Nat) : Fate → List Incoming
  | .refused j c => if j = i then [c] else []
  | .accepted j c => if j = i then [c] else []
  | _ => []

def sentTo (k : Nat) : Fate → List Incoming
  | .sent j c => if j = k then [c] else []
  | _ => []

def takenBy (k : Nat) : Fate → List Incoming
  | .taken j c => if j = k then [c] else []
  | _ => []

def discardedBy (k : Nat) : Fate → List Incoming
  | .discarded j cs => if j = k then cs else []
  | _ => []

def acceptedOnes : Fate → List Incoming
  | .accepted _ c => [c]
  | _ => []

/-- The worker a connection is dispatched to, whether its channel has room or not. -/
def dispatched : Fate → List (Nat × Incoming)
  | .sent k c => [(k,c)]
  | .dropped k c => [(k,c)]
  | _ => []

private theorem into_listener (i : Nat) (f : Fate) :
    f.ops.flatMap (Queues.Op.into (.listener i)) = f.arrivedAt i := by
  cases f <;> simp [ops,Queues.Op.into,arrivedAt]

private theorem outOf_listener (i : Nat) (f : Fate) :
    f.ops.flatMap (Queues.Op.outOf (.listener i)) = f.leftFrom i := by
  cases f <;> simp [ops,Queues.Op.outOf,leftFrom]

private theorem into_worker (k : Nat) (f : Fate) :
    f.ops.flatMap (Queues.Op.into (.worker k)) = f.sentTo k := by
  cases f <;> simp [ops,Queues.Op.into,sentTo]

private theorem outOf_worker (k : Nat) (f : Fate) :
    f.ops.flatMap (Queues.Op.outOf (.worker k)) = f.takenBy k ++ f.discardedBy k := by
  cases f <;> simp [ops,Queues.Op.outOf,takenBy,discardedBy]

end Fate

section Run
variable {s t : ServerState} {l : Label} {ls : List Label} {numWorkers : Nat} {isTls : List Bool}

/-- The fates of all connections in a run. -/
def ServerState.history (s : ServerState) (ls : List Label) : List Fate :=
  shown ServerState.step ServerState.fates s ls

/-- The worker still has the receiving end of its channel. -/
def ServerState.Receives (s : ServerState) (k : Nat) : Prop :=
  ∃ w, s.workers[k]? = some w ∧ w.running = true

private theorem receives_set {k j : Nat} {w' : Worker} (hworkers : t.workers = s.workers.set k w')
    (h : t.Receives j) (hw' : w'.running = true → s.Receives k) : s.Receives j := by
  obtain ⟨w,hj,hrunning⟩ := h
  rw [hworkers,List.getElem?_set] at hj
  split at hj
  · next hkj =>
    split at hj
    · cases hj
      exact hkj ▸ hw' hrunning
    · cases hj
  · exact ⟨w,hj,hrunning⟩

theorem own_step {k : Nat} (h : s.dequeue k = some t ∨ s.complete k = some t ∨ s.stop k = some t) :
    ∃ w w', s.workers[k]? = some w ∧ t.workers = s.workers.set k w' ∧
      (w'.running = true → w.running = true) ∧ t.shutdown = s.shutdown := by
  rcases h with h | h | h
  · unfold ServerState.dequeue at h
    split at h
    · next job queue connSeq hk =>
      cases job with
      | shutdown =>
        cases h
        exact ⟨_,_,hk,rfl,fun _ => rfl,rfl⟩
      | connection addr isTls =>
        cases h
        exact ⟨_,_,hk,rfl,fun _ => rfl,rfl⟩
    · cases h
  · obtain ⟨queue,running,connSeq,id,hk,rfl⟩ := ServerState.complete_cases h
    exact ⟨_,_,hk,rfl,fun hrunning => hrunning,rfl⟩
  · unfold ServerState.stop at h
    split at h
    · next hk =>
      split at h
      · cases h
        exact ⟨_,_,hk,rfl,fun _ => rfl,rfl⟩
      · cases h
    · cases h

/-- The step is one a worker takes itself. -/
def Label.isWorkers : Label → Bool
  | .dequeue _ => true
  | .complete _ => true
  | .stop _ => true
  | _ => false

/-- The state of a worker that others do not change. -/
def ServerState.SameWorkers (s t : ServerState) : Prop :=
  ∀ (k : Nat) (w' : Worker), t.workers[k]? = some w' →
    ∃ w, s.workers[k]? = some w ∧ w'.running = w.running ∧ w'.serving = w.serving

private theorem sameWorkers_of_eq (h : t.workers = s.workers) : s.SameWorkers t := by
  intro k w hk
  rw [h] at hk
  exact ⟨w,hk,rfl,rfl⟩

private theorem dispatch_frame (s : ServerState) (c : Incoming) :
    s.SameWorkers (s.dispatch c.addr c.isTls) ∧ (s.dispatch c.addr c.isTls).handled = s.handled := by
  rcases s.dispatch_cases c.addr c.isTls with ⟨-,heq⟩ | ⟨w,-,hk,⟨w',htry,heq⟩ | ⟨-,heq⟩⟩
  · rw [heq]
    exact ⟨sameWorkers_of_eq rfl,rfl⟩
  · rw [heq]
    refine ⟨?_,rfl⟩
    intro j v hj
    simp only [ServerState.updateWorker,List.getElem?_set] at hj
    split at hj
    · next hkj =>
      split at hj
      · cases hj
        obtain ⟨-,hrunning,hserving,-⟩ := trySend_some htry
        exact ⟨w,hkj ▸ hk,hrunning,hserving⟩
      · cases hj
    · exact ⟨v,hj,rfl,rfl⟩
  · rw [heq]
    exact ⟨sameWorkers_of_eq rfl,rfl⟩

private theorem wake_frame {events : List Nat} (h : s.wake events = some t) :
    s.SameWorkers t ∧ t.handled = s.handled := by
  obtain ⟨-,listeners,-,⟨-,rfl⟩ | rfl⟩ := ServerState.wake_cases h
  · refine ⟨?_,rfl⟩
    intro k w' hk
    simp only [List.getElem?_map] at hk
    obtain ⟨w,hw,rfl⟩ := Option.map_eq_some_iff.mp hk
    refine ⟨w,hw,?_⟩
    cases htry : w.trySend .shutdown with
    | none => exact ⟨rfl,rfl⟩
    | some w' =>
      obtain ⟨-,hrunning,hserving,-⟩ := trySend_some htry
      exact ⟨hrunning,hserving⟩
  · exact ⟨sameWorkers_of_eq rfl,rfl⟩

theorem outside_frame (h : s.step l = some t) (hl : l.isWorkers = false) :
    s.SameWorkers t ∧ t.handled = s.handled := by
  cases l with
  | arrive i addr =>
    simp only [ServerState.step] at h
    split at h
    · cases h
      exact ⟨sameWorkers_of_eq rfl,rfl⟩
    · cases h
  | interrupt =>
    simp only [ServerState.step] at h
    split at h
    · cases h
      exact ⟨sameWorkers_of_eq rfl,rfl⟩
    · cases h
  | pollError =>
    simp only [ServerState.step] at h
    split at h
    · cases h
      exact ⟨sameWorkers_of_eq rfl,rfl⟩
    · cases h
  | wake events => exact wake_frame h
  | accept blocking =>
    obtain ⟨i,events,tls,addr,backlog,event,-,-,rfl⟩ := ServerState.accept_cases h
    cases blocking with
    | false => exact ⟨sameWorkers_of_eq rfl,rfl⟩
    | true =>
      exact dispatch_frame (s.updateListener i fun l => { l with backlog := l.backlog.tail }) ⟨addr,tls⟩
  | wouldBlock =>
    obtain ⟨i,events,tls,event,-,-,rfl⟩ := ServerState.wouldBlock_cases h
    exact ⟨sameWorkers_of_eq rfl,rfl⟩
  | acceptError aborted =>
    obtain ⟨i,events,-,rfl⟩ := ServerState.acceptError_cases h
    cases aborted with
    | true => exact ⟨sameWorkers_of_eq rfl,rfl⟩
    | false => exact ⟨sameWorkers_of_eq rfl,rfl⟩
  | signal =>
    cases h
    exact ⟨sameWorkers_of_eq rfl,rfl⟩
  | _ => cases hl

theorem own_label (h : s.step l = some t) (hl : l.isWorkers = true) :
    ∃ k, s.dequeue k = some t ∨ s.complete k = some t ∨ s.stop k = some t := by
  cases l with
  | dequeue k => exact ⟨k,Or.inl h⟩
  | complete k => exact ⟨k,Or.inr (Or.inl h)⟩
  | stop k => exact ⟨k,Or.inr (Or.inr h)⟩
  | _ => cases hl

private theorem receives_of_step {k : Nat} (h : s.step l = some t) (ht : t.Receives k) : s.Receives k := by
  cases hl : l.isWorkers with
  | true =>
    obtain ⟨j,hj⟩ := own_label h hl
    obtain ⟨w,w',hj,hworkers,hrunning,-⟩ := own_step hj
    exact receives_set hworkers ht fun h => ⟨w,hj,hrunning h⟩
  | false =>
    obtain ⟨w',hk,hrunning⟩ := ht
    obtain ⟨w,hw,hsame,-⟩ := (outside_frame h hl).1 k w' hk
    exact ⟨w,hw,hsame ▸ hrunning⟩

private theorem dispatchFates_worker (s : ServerState) (c : Incoming) (k : Nat) :
    (s.dispatchFates c).flatMap (Fate.takenBy k) = [] ∧ (s.dispatchFates c).flatMap (Fate.discardedBy k) = [] := by
  unfold ServerState.dispatchFates
  split
  · exact ⟨rfl,rfl⟩
  · split
    · exact ⟨rfl,rfl⟩
    · exact ⟨rfl,rfl⟩

private theorem not_receives_set {k : Nat} {w' : Worker} (hworkers : t.workers = s.workers.set k w')
    (hw' : w'.running = false) : ¬t.Receives k := by
  rintro ⟨w,hk,hrunning⟩
  rw [hworkers,List.getElem?_set,if_pos rfl] at hk
  split at hk
  · cases hk
    rw [hw'] at hrunning
    cases hrunning
  · cases hk

private theorem fates_of_worker {k : Nat} (h : s.step l = some t) :
    ((s.fates l).flatMap (Fate.takenBy k) = [] ∧ (s.fates l).flatMap (Fate.discardedBy k) = []) ∨
      s.Receives k ∧ ((∃ c, s.fates l = [.taken k c] ∧ l = .dequeue k) ∨
        (∃ cs, s.fates l = [.discarded k cs]) ∧ ¬t.Receives k) := by
  cases l with
  | arrive i addr =>
    left
    simp only [ServerState.fates]
    cases s.listeners[i]? with
    | none => exact ⟨rfl,rfl⟩
    | some l => exact ⟨rfl,rfl⟩
  | accept blocking =>
    left
    simp only [ServerState.fates]
    cases s.front with
    | none => exact ⟨rfl,rfl⟩
    | some p =>
      cases blocking with
      | true => exact dispatchFates_worker s p.2 k
      | false => exact ⟨rfl,rfl⟩
  | acceptError aborted =>
    left
    cases aborted with
    | false => exact ⟨rfl,rfl⟩
    | true =>
      simp only [ServerState.fates]
      cases s.front with
      | none => exact ⟨rfl,rfl⟩
      | some p => exact ⟨rfl,rfl⟩
  | dequeue j =>
    have h : s.dequeue j = some t := h
    unfold ServerState.dequeue at h
    split at h
    · next job queue connSeq hj =>
      have hreceives : s.Receives j := ⟨_,hj,rfl⟩
      cases job with
      | connection addr isTls =>
        have hfates : s.fates (.dequeue j) = [.taken j ⟨addr,isTls⟩] := by
          rw [ServerState.fates,hj]
        rw [hfates]
        by_cases hjk : j = k
        · subst hjk
          exact Or.inr ⟨hreceives,Or.inl ⟨_,rfl,rfl⟩⟩
        · exact Or.inl (by simp [Fate.takenBy,Fate.discardedBy,hjk])
      | shutdown =>
        cases h
        have hfates : s.fates (.dequeue j) =
            [.discarded j (Worker.mk (.shutdown::queue) true connSeq none).connections] := by
          rw [ServerState.fates,hj]
        rw [hfates]
        by_cases hjk : j = k
        · subst hjk
          exact Or.inr ⟨hreceives,Or.inr ⟨⟨_,rfl⟩,not_receives_set rfl rfl⟩⟩
        · exact Or.inl (by simp [Fate.takenBy,Fate.discardedBy,hjk])
    · cases h
  | stop j =>
    have h : s.stop j = some t := h
    unfold ServerState.stop at h
    split at h
    · next queue connSeq hj =>
      split at h
      · cases h
        have hfates : s.fates (.stop j) = [.discarded j (Worker.mk queue true connSeq none).connections] := by
          rw [ServerState.fates,hj]
          rfl
        rw [hfates]
        by_cases hjk : j = k
        · subst hjk
          exact Or.inr ⟨⟨_,hj,rfl⟩,Or.inr ⟨⟨_,rfl⟩,not_receives_set rfl rfl⟩⟩
        · exact Or.inl (by simp [Fate.takenBy,Fate.discardedBy,hjk])
      · cases h
    · cases h
  | _ => exact Or.inl ⟨rfl,rfl⟩

private theorem taken_before_discarded {k : Nat}
    (run : Run ServerState.step (fun _ _ => True) (.start numWorkers isTls) ls t) :
    let fates := (ServerState.start numWorkers isTls).history ls
    (t.Receives k → fates.flatMap (Fate.discardedBy k) = []) ∧
      fates.flatMap (fun f => f.takenBy k ++ f.discardedBy k) =
        fates.flatMap (Fate.takenBy k) ++ fates.flatMap (Fate.discardedBy k) := by
  apply run.invariant_shown (I := fun fates t => (t.Receives k → fates.flatMap (Fate.discardedBy k) = []) ∧
    fates.flatMap (fun f => f.takenBy k ++ f.discardedBy k) =
      fates.flatMap (Fate.takenBy k) ++ fates.flatMap (Fate.discardedBy k))
  · exact ⟨fun _ => rfl,rfl⟩
  · intro fates s l t _ ⟨hreceives,hsplit⟩ hstep
    simp only [List.flatMap_append,hsplit]
    rcases fates_of_worker hstep (k := k) with ⟨htaken,hdiscarded⟩ | ⟨hs,⟨c,hc,-⟩ | ⟨⟨cs,hcs⟩,ht⟩⟩
    · have hboth : (s.fates l).flatMap (fun f => f.takenBy k ++ f.discardedBy k) = [] := by
        rw [List.flatMap_eq_nil_iff] at htaken hdiscarded ⊢
        intro f hf
        rw [htaken f hf,hdiscarded f hf,List.append_nil]
      rw [hboth,htaken,hdiscarded]
      simp only [List.append_nil,and_true]
      exact fun ht => hreceives (receives_of_step hstep ht)
    · rw [hc,hreceives hs]
      simp [Fate.takenBy,Fate.discardedBy]
    · rw [hcs,hreceives hs]
      simp [Fate.takenBy,Fate.discardedBy,ht]

private theorem run_bank (run : Run ServerState.step (fun _ _ => True) (.start numWorkers isTls) ls t) :
    exec Queues.step Queues.Bank.empty
      (((ServerState.start numWorkers isTls).history ls).flatMap Fate.ops) = some t.bank := by
  apply run.invariant_shown (I := fun fates t =>
    exec Queues.step Queues.Bank.empty (fates.flatMap Fate.ops) = some t.bank)
  · refine congrArg some ?_
    funext p
    cases p with
    | listener i =>
      simp only [ServerState.bank,ServerState.waitingAt,ServerState.start,List.getElem?_map]
      cases isTls[i]? <;> rfl
    | worker k =>
      simp only [ServerState.bank,ServerState.queuedAt,ServerState.start,List.getElem?_replicate]
      split <;> rfl
  · intro fates s l t _ hs hstep
    rw [List.flatMap_append,exec_append,hs,Option.bind_some]
    exact step_refines hstep

private theorem dispatch_in_turn (s : ServerState) (c : Incoming) (hne : s.workers.length ≠ 0) :
    (s.dispatchFates c).flatMap Fate.dispatched = [(s.nextWorker.toNat % s.workers.length,c)] ∧
      (s.dispatchFates c).flatMap Fate.acceptedOnes = [] ∧
      (s.dispatch c.addr c.isTls).nextWorker = s.nextWorker + 1 := by
  rcases s.dispatch_cases c.addr c.isTls with ⟨hnil,-⟩ | ⟨w,hselected,hk,hcases⟩
  · exact absurd (List.length_eq_zero_iff.mpr hnil) hne
  · rw [ServerState.dispatchFates,hselected]
    dsimp only
    rw [hk,Option.bind_some]
    rcases hcases with ⟨w',htry,heq⟩ | ⟨htry,heq⟩
    · rw [htry,heq]
      exact ⟨rfl,rfl,rfl⟩
    · rw [htry,heq]
      exact ⟨rfl,rfl,rfl⟩

private theorem accepted_of_step (hne : s.workers.length ≠ 0) (h : s.step l = some t) :
    ((s.fates l).flatMap Fate.acceptedOnes = [] ∧ (s.fates l).flatMap Fate.dispatched = [] ∧
      t.nextWorker = s.nextWorker) ∨
    ∃ c, (s.fates l).flatMap Fate.acceptedOnes = [c] ∧
      (s.fates l).flatMap Fate.dispatched = [(s.nextWorker.toNat % s.workers.length,c)] ∧
      t.nextWorker = s.nextWorker + 1 := by
  cases l with
  | arrive i addr =>
    simp only [ServerState.step] at h
    split at h
    · cases h
      left
      simp only [ServerState.fates]
      cases s.listeners[i]? with
      | none => exact ⟨rfl,rfl,rfl⟩
      | some l => exact ⟨rfl,rfl,rfl⟩
    · cases h
  | interrupt =>
    simp only [ServerState.step] at h
    split at h
    · cases h
      exact Or.inl ⟨rfl,rfl,rfl⟩
    · cases h
  | pollError =>
    simp only [ServerState.step] at h
    split at h
    · cases h
      exact Or.inl ⟨rfl,rfl,rfl⟩
    · cases h
  | wake events =>
    obtain ⟨-,listeners,-,⟨-,rfl⟩ | rfl⟩ := ServerState.wake_cases h
    · exact Or.inl ⟨rfl,rfl,rfl⟩
    · exact Or.inl ⟨rfl,rfl,rfl⟩
  | accept blocking =>
    obtain ⟨i,events,tls,addr,backlog,event,hphase,hi,rfl⟩ := ServerState.accept_cases h
    have hfront := (take_front hphase hi).1
    cases blocking with
    | false =>
      left
      simp only [ServerState.fates,hfront]
      exact ⟨rfl,rfl,rfl⟩
    | true =>
      right
      obtain ⟨hdispatched,haccepted,hnext⟩ := dispatch_in_turn
        (s.updateListener i fun l => { l with backlog := l.backlog.tail }) ⟨addr,tls⟩ hne
      refine ⟨⟨addr,tls⟩,?_⟩
      have hsame : (s.updateListener i fun l => { l with backlog := l.backlog.tail }).dispatchFates
          ⟨addr,tls⟩ = s.dispatchFates ⟨addr,tls⟩ := rfl
      rw [hsame] at haccepted hdispatched
      simp only [ServerState.fates,hfront,if_true,List.flatMap_cons,haccepted,hdispatched]
      exact ⟨rfl,rfl,hnext⟩
  | wouldBlock =>
    obtain ⟨i,events,tls,event,-,-,rfl⟩ := ServerState.wouldBlock_cases h
    exact Or.inl ⟨rfl,rfl,rfl⟩
  | acceptError aborted =>
    obtain ⟨i,events,-,rfl⟩ := ServerState.acceptError_cases h
    left
    cases aborted with
    | false => exact ⟨rfl,rfl,rfl⟩
    | true =>
      simp only [ServerState.fates]
      cases s.front with
      | none => exact ⟨rfl,rfl,rfl⟩
      | some p => exact ⟨rfl,rfl,rfl⟩
  | signal =>
    cases h
    exact Or.inl ⟨rfl,rfl,rfl⟩
  | dequeue k =>
    left
    obtain ⟨w,w',-,hcases⟩ := ServerState.worker_cases (Or.inl h)
    have hnext : t.nextWorker = s.nextWorker := by
      rcases hcases with ⟨rfl,-⟩ | ⟨rfl,-⟩ <;> rfl
    simp only [ServerState.fates]
    split
    · split <;> exact ⟨rfl,rfl,hnext⟩
    · exact ⟨rfl,rfl,hnext⟩
  | complete k =>
    obtain ⟨queue,running,connSeq,id,-,rfl⟩ := ServerState.complete_cases h
    exact Or.inl ⟨rfl,rfl,rfl⟩
  | stop k =>
    left
    obtain ⟨w,w',-,hcases⟩ := ServerState.worker_cases (Or.inr (Or.inr h))
    have hnext : t.nextWorker = s.nextWorker := by
      rcases hcases with ⟨rfl,-⟩ | ⟨rfl,-⟩ <;> rfl
    simp only [ServerState.fates]
    cases s.workers[k]? with
    | none => exact ⟨rfl,rfl,hnext⟩
    | some w => exact ⟨rfl,rfl,hnext⟩

private structure InTurn (numWorkers : Nat) (fates : List Fate) (t : ServerState) : Prop where
  size : t.workers.length = numWorkers
  next : t.nextWorker.toNat = (fates.flatMap Fate.acceptedOnes).length % 2^64
  dispatched : fates.flatMap Fate.dispatched =
    (fates.flatMap Fate.acceptedOnes).mapIdx fun n c => (n % 2^64 % numWorkers,c)

private theorem run_dispatched (hpos : 0 < numWorkers)
    (run : Run ServerState.step (fun _ _ => True) (.start numWorkers isTls) ls t) :
    InTurn numWorkers ((ServerState.start numWorkers isTls).history ls) t := by
  apply run.invariant_shown (I := InTurn numWorkers)
  · exact ⟨List.length_replicate,rfl,rfl⟩
  · intro fates s l t _ hs hstep
    have hsize : t.workers.length = numWorkers := (step_workers_length hstep).trans hs.size
    rcases accepted_of_step (by rw [hs.size]; omega) hstep with ⟨haccepted,hdispatched,hnext⟩ |
      ⟨c,haccepted,hdispatched,hnext⟩
    · refine ⟨hsize,?_,?_⟩
      · rw [hnext,hs.next,List.flatMap_append,haccepted,List.append_nil]
      · rw [List.flatMap_append,List.flatMap_append,haccepted,hdispatched,List.append_nil,
          List.append_nil,hs.dispatched]
    · refine ⟨hsize,?_,?_⟩
      · rw [hnext,UInt64.toNat_add,hs.next,List.flatMap_append,haccepted,List.length_append]
        have hone : UInt64.toNat 1 = 1 := rfl
        simp only [List.length_singleton]
        omega
      · rw [List.flatMap_append,List.flatMap_append,haccepted,hdispatched,hs.dispatched,hs.size,hs.next,
          List.mapIdx_append]
        simp

private theorem handled_of_step (h : s.step l = some t) (hl : ∀ k, l ≠ .dequeue k) :
    t.handled = s.handled := by
  cases l with
  | dequeue k => exact absurd rfl (hl k)
  | complete k =>
    obtain ⟨queue,running,connSeq,id,-,rfl⟩ := ServerState.complete_cases h
    rfl
  | stop k =>
    have h : s.stop k = some t := h
    unfold ServerState.stop at h
    split at h
    · split at h
      · cases h
        rfl
      · cases h
    · cases h
  | _ => exact (outside_frame h rfl).2

private theorem taken_of_step (k : Nat) (h : s.step l = some t) :
    t.handledBy k = s.handledBy k + ((s.fates l).flatMap (Fate.takenBy k)).length := by
  by_cases hl : ∃ j, l = .dequeue j
  · obtain ⟨j,rfl⟩ := hl
    have h : s.dequeue j = some t := h
    unfold ServerState.dequeue at h
    split at h
    · next job queue connSeq hj =>
      cases job with
      | connection addr isTls =>
        cases h
        rw [ServerState.fates,hj]
        simp only [ServerState.handledBy,List.countP_append,List.countP_singleton,List.flatMap_singleton,
          Fate.takenBy]
        by_cases hjk : j = k <;> simp [hjk]
      | shutdown =>
        cases h
        rw [ServerState.fates,hj]
        rfl
    · cases h
  · have hl : ∀ j, l ≠ .dequeue j := fun j hj => hl ⟨j,hj⟩
    have htaken : (s.fates l).flatMap (Fate.takenBy k) = [] := by
      rcases fates_of_worker h (k := k) with ⟨htaken,-⟩ | ⟨-,⟨c,-,hj⟩ | ⟨⟨cs,hcs⟩,-⟩⟩
      · exact htaken
      · exact absurd hj (hl k)
      · rw [hcs]
        rfl
    rw [htaken,ServerState.handledBy,handled_of_step h hl]
    rfl

private theorem run_handledBy (k : Nat)
    (run : Run ServerState.step (fun _ _ => True) (.start numWorkers isTls) ls t) :
    t.handledBy k = (((ServerState.start numWorkers isTls).history ls).flatMap (Fate.takenBy k)).length := by
  apply run.invariant_shown (I := fun fates t => t.handledBy k = (fates.flatMap (Fate.takenBy k)).length)
  · rfl
  · intro fates s l t _ hs hstep
    rw [List.flatMap_append,List.length_append,taken_of_step k hstep,hs]

/-- No connection is lost unseen, handled twice or overtaken: in every run, what arrived at a listener
left its backlog in that order or is still there; what was accepted went to the workers in turn, or was
dropped there; and what was sent to a worker was taken by it in that order, except for what was thrown
away when it stopped or is still on its channel. The worker numbers what it takes. -/
theorem connections_conserved (hpos : 0 < numWorkers)
    (run : Run ServerState.step (fun _ _ => True) (.start numWorkers isTls) ls t) :
    let fates := (ServerState.start numWorkers isTls).history ls
    (∀ i, fates.flatMap (Fate.arrivedAt i) = fates.flatMap (Fate.leftFrom i) ++ t.waitingAt i) ∧
    fates.flatMap Fate.dispatched =
      (fates.flatMap Fate.acceptedOnes).mapIdx (fun n c => (n % 2^64 % numWorkers,c)) ∧
    ∀ k, fates.flatMap (Fate.sentTo k) =
        fates.flatMap (Fate.takenBy k) ++ (fates.flatMap (Fate.discardedBy k) ++ t.queuedAt k) ∧
      t.connIds k = (fates.flatMap (Fate.takenBy k)).mapIdx fun n _ =>
        UInt64.ofNat k * 100000 + UInt64.ofNat (n + 1) := by
  intro fates
  have hbank := run_bank run
  have hconserved (p : Place) := Queues.exec_conserves hbank p
  simp only [Queues.Bank.empty,List.nil_append,List.flatMap_assoc] at hconserved
  refine ⟨?_,(run_dispatched hpos run).dispatched,?_⟩
  · intro i
    have h := hconserved (.listener i)
    simp only [Fate.into_listener,Fate.outOf_listener] at h
    exact h
  · intro k
    constructor
    · have h := hconserved (.worker k)
      simp only [Fate.into_worker,Fate.outOf_worker,(taken_before_discarded run).2] at h
      rw [← List.append_assoc]
      exact h
    · rw [((ServerState.Numbered.of_run run) k).1,run_handledBy k run,firstIds]
      apply List.ext_getElem
      · rw [List.length_map,List.length_range,List.length_mapIdx]
      · intro n h₁ h₂
        rw [List.getElem_map,List.getElem_range,List.getElem_mapIdx]

end Run

/-- Two connections are sent to two workers. One takes its connection and the other one stops. -/
def stopping : List Label :=
  [.arrive 0 anyPeer,.arrive 0 anyPeer,.wake [0],.accept true,.accept true,.dequeue 0,.signal,.stop 1]

theorem connections_conserved_golden :
    ∃ t, Run ServerState.step (fun _ _ => True) (.start 2 [false]) stopping t ∧ t.connIds 0 = [1] ∧
      t.queuedAt 1 = [] := by
  obtain ⟨t,hrun,-⟩ := run_of_exec_map (f := ServerState.shutdown) (a := true)
    (show (exec ServerState.step (.start 2 [false]) stopping).map _ = some true by decide)
  obtain ⟨-,-,hworkers⟩ := connections_conserved (by decide) hrun
  have htaken : ((ServerState.start 2 [false]).history stopping).flatMap (Fate.takenBy 0) =
      [⟨anyPeer,false⟩] := by decide
  have hsent : ((ServerState.start 2 [false]).history stopping).flatMap (Fate.sentTo 1) =
      ((ServerState.start 2 [false]).history stopping).flatMap (Fate.takenBy 1) ++
        ((ServerState.start 2 [false]).history stopping).flatMap (Fate.discardedBy 1) := by decide
  refine ⟨t,hrun,?_,?_⟩
  · rw [(hworkers 0).2,htaken]
    rfl
  · have h := (hworkers 1).1
    rw [hsent] at h
    exact List.append_right_eq_self.mp (List.append_cancel_left h).symm

end Rmbtd
