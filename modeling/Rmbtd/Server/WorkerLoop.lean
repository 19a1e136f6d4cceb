import Rmbtd.Server.Ledger

/-!
# The loop of a worker

`worker_loop` step by step: the shutdown flag is looked at before each job is waited for. Seen from
outside, the steps are those of the workers of the accept loop's model. Once the flag is set, every
worker stops after at most one more connection.
-/

namespace Rmbtd

open Transition

inductive WorkerPhase
  | checking
  | receiving
  | serving
  | stopped
deriving DecidableEq

/-- The server with the phases of its workers. -/
structure LoopState where
  server : ServerState
  phases : List WorkerPhase
deriving DecidableEq

inductive LoopLabel
  /-- A step of the clients, the kernel, the accept loop or the signal handler. -/
  | outside (l : Label)
  | check (worker : Nat)
  /-- `recv_timeout` finds no job in time. -/
  | timeout (worker : Nat)
  | receive (worker : Nat)
  | complete (worker : Nat)
deriving DecidableEq

namespace LoopState

def start (numWorkers : Nat) (isTls : List Bool) : LoopState where
  server := .start numWorkers isTls
  phases := List.replicate numWorkers .checking

def moveTo (s : LoopState) (k : Nat) (phase : WorkerPhase) (server : Option ServerState) : Option LoopState :=
  server.map fun server => ⟨server,s.phases.set k phase⟩

def check (s : LoopState) (k : Nat) : Option LoopState :=
  if s.phases[k]? = some .checking then
    if s.server.shutdown then s.moveTo k .stopped (s.server.stop k)
    else s.moveTo k .receiving (some s.server)
  else none

def nextJob (s : LoopState) (k : Nat) : Option Job := s.server.workers[k]?.bind fun w => w.queue.head?

def timeout (s : LoopState) (k : Nat) : Option LoopState :=
  if s.phases[k]? = some .receiving ∧ s.nextJob k = none then s.moveTo k .checking (some s.server) else none

def receive (s : LoopState) (k : Nat) : Option LoopState :=
  if s.phases[k]? = some .receiving then
    match s.nextJob k with
    | some .shutdown => s.moveTo k .stopped (s.server.dequeue k)
    | some (.connection _ _) => s.moveTo k .serving (s.server.dequeue k)
    | none => none
  else none

def complete (s : LoopState) (k : Nat) : Option LoopState :=
  if s.phases[k]? = some .serving then s.moveTo k .checking (s.server.complete k) else none

def step (s : LoopState) : LoopLabel → Option LoopState
  | .outside l => if l.isWorkers then none else (s.server.step l).map fun server => { s with server := server }
  | .check k => s.check k
  | .timeout k => s.timeout k
  | .receive k => s.receive k
  | .complete k => s.complete k

/-- What a step is in the model of the accept loop. -/
def labels (s : LoopState) : LoopLabel → List Label
  | .outside l => [l]
  | .check k => if s.server.shutdown then [.stop k] else []
  | .timeout _ => []
  | .receive k => [.dequeue k]
  | .complete k => [.complete k]

end LoopState

/-- The step is one the worker takes itself. -/
def LoopLabel.isOwn (k : Nat) : LoopLabel → Bool
  | .outside _ => false
  | .check j => j == k
  | .timeout j => j == k
  | .receive j => j == k
  | .complete j => j == k

/-- How a worker gets from one phase to the next, and what becomes of the server. -/
inductive Move (s : LoopState) (k : Nat) : LoopLabel → WorkerPhase → WorkerPhase → ServerState → Prop
  | stop {server : ServerState} (shutdown : s.server.shutdown = true) (stops : s.server.stop k = some server) :
    Move s k (.check k) .checking .stopped server
  | wait {server : ServerState} (shutdown : s.server.shutdown = false) (same : server = s.server) :
    Move s k (.check k) .checking .receiving server
  | timeout {server : ServerState} (job : s.nextJob k = none) (same : server = s.server) :
    Move s k (.timeout k) .receiving .checking server
  | shutdown {server : ServerState} (job : s.nextJob k = some .shutdown)
      (dequeues : s.server.dequeue k = some server) : Move s k (.receive k) .receiving .stopped server
  | serve {server : ServerState} {addr : SocketAddr} {isTls : Bool}
      (job : s.nextJob k = some (.connection addr isTls)) (dequeues : s.server.dequeue k = some server) :
    Move s k (.receive k) .receiving .serving server
  | complete {server : ServerState} (completes : s.server.complete k = some server) :
    Move s k (.complete k) .serving .checking server

section Steps
variable {s t : LoopState} {l : LoopLabel}

private theorem moveTo_some {k : Nat} {phase : WorkerPhase} {server : Option ServerState}
    (h : s.moveTo k phase server = some t) :
    server = some t.server ∧ t.phases = s.phases.set k phase := by
  obtain ⟨server',rfl,rfl⟩ := Option.map_eq_some_iff.mp h
  exact ⟨rfl,rfl⟩

/-- A step comes from outside, or a worker moves. -/
theorem loopStep_cases (h : s.step l = some t) :
    (∃ o, l = .outside o ∧ o.isWorkers = false ∧ s.server.step o = some t.server ∧ t.phases = s.phases) ∨
    ∃ k phase phase', s.phases[k]? = some phase ∧ t.phases = s.phases.set k phase' ∧
      Move s k l phase phase' t.server := by
  cases l with
  | outside o =>
    simp only [LoopState.step] at h
    split at h
    · cases h
    · next ho =>
      obtain ⟨server,hserver,rfl⟩ := Option.map_eq_some_iff.mp h
      exact Or.inl ⟨o,rfl,Bool.eq_false_of_not_eq_true ho,hserver,rfl⟩
  | check k =>
    have h : s.check k = some t := h
    unfold LoopState.check at h
    split at h
    · next hk =>
      split at h
      · next hshutdown =>
        obtain ⟨hserver,hphases⟩ := moveTo_some h
        exact Or.inr ⟨k,_,_,hk,hphases,.stop hshutdown hserver⟩
      · next hshutdown =>
        obtain ⟨hserver,hphases⟩ := moveTo_some h
        exact Or.inr ⟨k,_,_,hk,hphases,
          .wait (Bool.eq_false_of_not_eq_true hshutdown) (Option.some.inj hserver).symm⟩
    · cases h
  | timeout k =>
    have h : s.timeout k = some t := h
    unfold LoopState.timeout at h
    split at h
    · next hcond =>
      obtain ⟨hserver,hphases⟩ := moveTo_some h
      exact Or.inr ⟨k,_,_,hcond.1,hphases,.timeout hcond.2 (Option.some.inj hserver).symm⟩
    · cases h
  | receive k =>
    have h : s.receive k = some t := h
    unfold LoopState.receive at h
    split at h
    · next hk =>
      split at h
      · next hjob =>
        obtain ⟨hserver,hphases⟩ := moveTo_some h
        exact Or.inr ⟨k,_,_,hk,hphases,.shutdown hjob hserver⟩
      · next addr isTls hjob =>
        obtain ⟨hserver,hphases⟩ := moveTo_some h
        exact Or.inr ⟨k,_,_,hk,hphases,.serve hjob hserver⟩
      · cases h
    · cases h
  | complete k =>
    have h : s.complete k = some t := h
    unfold LoopState.complete at h
    split at h
    · next hk =>
      obtain ⟨hserver,hphases⟩ := moveTo_some h
      exact Or.inr ⟨k,_,_,hk,hphases,.complete hserver⟩
    · cases h

/-- Every step is at most one step of the accept loop's model. -/
theorem loopStep_refines (h : s.step l = some t) :
    exec ServerState.step s.server (s.labels l) = some t.server := by
  have hone {o : Label} (ho : s.server.step o = some t.server) :
      exec ServerState.step s.server [o] = some t.server := by
    rw [exec,ho]
    rfl
  rcases loopStep_cases h with ⟨o,rfl,-,ho,-⟩ | ⟨k,phase,phase',-,-,hmove⟩
  · exact hone ho
  · cases hmove with
    | stop hshutdown hstop =>
      rw [LoopState.labels,if_pos hshutdown]
      exact hone hstop
    | wait hshutdown hsame =>
      rw [LoopState.labels,hshutdown,hsame]
      rfl
    | timeout _ hsame =>
      rw [hsame]
      rfl
    | shutdown _ hdequeue => exact hone hdequeue
    | serve _ hdequeue => exact hone hdequeue
    | complete hcomplete => exact hone hcomplete

/-! ## Phases and workers -/

/-- A phase fits the state of the worker. -/
def WorkerPhase.Fits (w : Worker) : WorkerPhase → Prop
  | .checking => w.running = true ∧ w.serving = none
  | .receiving => w.running = true ∧ w.serving = none
  | .serving => w.running = true ∧ w.serving.isSome
  | .stopped => w.running = false

theorem WorkerPhase.Fits.stopped {w : Worker} {phase : WorkerPhase} (h : phase.Fits w)
    (hrunning : w.running = false) : phase = .stopped := by
  cases phase with
  | stopped => rfl
  | _ =>
    rw [h.1] at hrunning
    cases hrunning

theorem WorkerPhase.Fits.serving {w : Worker} {phase : WorkerPhase} (h : phase.Fits w)
    (hrunning : w.running = true) (hserving : w.serving.isSome = true) : phase = .serving := by
  cases phase with
  | serving => rfl
  | stopped =>
    rw [show w.running = false from h] at hrunning
    cases hrunning
  | _ =>
    rw [h.2] at hserving
    cases hserving

structure LoopState.Consistent (s : LoopState) : Prop where
  size : s.phases.length = s.server.workers.length
  fits : ∀ (k : Nat) phase (w : Worker), s.phases[k]? = some phase → s.server.workers[k]? = some w → phase.Fits w

private theorem start_consistent (numWorkers : Nat) (isTls : List Bool) :
    (LoopState.start numWorkers isTls).Consistent := by
  constructor
  · simp [LoopState.start,ServerState.start]
  · intro k phase w hphase hw
    simp only [LoopState.start,ServerState.start] at hphase hw
    rw [List.eq_of_mem_replicate (List.mem_of_getElem? hphase),
      List.eq_of_mem_replicate (List.mem_of_getElem? hw)]
    exact ⟨rfl,rfl⟩

private theorem Move.fits {k : Nat} {phase phase' : WorkerPhase} {server : ServerState} {w : Worker}
    (hmove : Move s k l phase phase' server) (hw : s.server.workers[k]? = some w) (hfits : phase.Fits w) :
    ∃ w', server.workers = s.server.workers.set k w' ∧ phase'.Fits w' := by
  have hsame : s.server.workers = s.server.workers.set k w := by
    obtain ⟨hlt,hget⟩ := List.getElem?_eq_some_iff.mp hw
    rw [← hget,List.set_getElem_self]
  cases hmove with
  | stop hshutdown hstop =>
    unfold ServerState.stop at hstop
    split at hstop
    · rw [if_pos hshutdown] at hstop
      cases hstop
      exact ⟨_,rfl,rfl⟩
    · cases hstop
  | wait _ heq => exact ⟨w,heq ▸ hsame,hfits⟩
  | timeout _ heq => exact ⟨w,heq ▸ hsame,hfits⟩
  | shutdown hjob hdequeue =>
    rw [LoopState.nextJob,hw,Option.bind_some] at hjob
    unfold ServerState.dequeue at hdequeue
    split at hdequeue
    · next job queue connSeq hk =>
      rw [hw] at hk
      cases hk
      cases hjob
      cases hdequeue
      exact ⟨_,rfl,rfl⟩
    · cases hdequeue
  | serve hjob hdequeue =>
    rw [LoopState.nextJob,hw,Option.bind_some] at hjob
    unfold ServerState.dequeue at hdequeue
    split at hdequeue
    · next job queue connSeq hk =>
      rw [hw] at hk
      cases hk
      cases hjob
      cases hdequeue
      exact ⟨_,rfl,rfl,rfl⟩
    · cases hdequeue
  | complete hcomplete =>
    obtain ⟨queue,running,connSeq,id,hk,rfl⟩ := ServerState.complete_cases hcomplete
    rw [hw] at hk
    cases hk
    exact ⟨_,rfl,hfits.1,rfl⟩

theorem consistent_of_step (hs : s.Consistent) (h : s.step l = some t) : t.Consistent := by
  rcases loopStep_cases h with ⟨o,-,ho,hstep,hphases⟩ | ⟨k,phase,phase',hk,hphases,hmove⟩
  · constructor
    · rw [hphases,hs.size,step_workers_length hstep]
    · intro k phase w' hphase hw'
      obtain ⟨w,hw,hrunning,hserving⟩ := (outside_frame hstep ho).1 k w' hw'
      rw [hphases] at hphase
      have hfits := hs.fits k phase w hphase hw
      unfold WorkerPhase.Fits at hfits ⊢
      rw [hrunning,hserving]
      exact hfits
  · have hlt : k < s.server.workers.length := by
      rw [← hs.size]
      exact (List.getElem?_eq_some_iff.mp hk).1
    obtain ⟨w',hworkers,hfits⟩ := hmove.fits (List.getElem?_eq_getElem hlt)
      (hs.fits k phase _ hk (List.getElem?_eq_getElem hlt))
    constructor
    · rw [hphases,hworkers,List.length_set,List.length_set,hs.size]
    · intro j phase'' v hphase hv
      rw [hphases,List.getElem?_set] at hphase
      rw [hworkers,List.getElem?_set] at hv
      by_cases hkj : k = j
      · rw [if_pos hkj,if_pos (hs.size ▸ hlt)] at hphase
        rw [if_pos hkj,if_pos hlt] at hv
        cases hphase
        cases hv
        exact hfits
      · rw [if_neg hkj] at hphase hv
        exact hs.fits j phase'' v hphase hv

/-! ## After the signal -/

/-- How many steps a worker takes at most once the shutdown flag is set. -/
def WorkerPhase.stepsLeft : WorkerPhase → Nat
  | .receiving => 3
  | .serving => 2
  | .checking => 1
  | .stopped => 0

/-- How many jobs it may still take. -/
def WorkerPhase.jobsLeft : WorkerPhase → Nat
  | .receiving => 1
  | _ => 0

def LoopLabel.isReceive (k : Nat) : LoopLabel → Bool
  | .receive j => j == k
  | _ => false

/-- A measure of the phase of a worker. -/
def LoopState.left (f : WorkerPhase → Nat) (s : LoopState) (k : Nat) : Nat := (s.phases[k]?.map f).getD 0

theorem Move.cost {k : Nat} {phase phase' : WorkerPhase} {server : ServerState}
    (hmove : Move s k l phase phase' server) (hshutdown : s.server.shutdown = true) (j : Nat) :
    (l.isOwn j).toNat + (if k = j then phase'.stepsLeft else 0) ≤ (if k = j then phase.stepsLeft else 0) ∧
    (l.isReceive j).toNat + (if k = j then phase'.jobsLeft else 0) ≤ (if k = j then phase.jobsLeft else 0) := by
  cases hmove with
  | wait hflag =>
    rw [hshutdown] at hflag
    cases hflag
  | _ => by_cases hkj : k = j <;>
      simp [LoopLabel.isOwn,LoopLabel.isReceive,WorkerPhase.stepsLeft,WorkerPhase.jobsLeft,hkj]

theorem Move.keeps_flag {k : Nat} {phase phase' : WorkerPhase} {server : ServerState}
    (hmove : Move s k l phase phase' server) : server.shutdown = s.server.shutdown := by
  have hown (h : s.server.dequeue k = some server ∨ s.server.complete k = some server ∨
      s.server.stop k = some server) : server.shutdown = s.server.shutdown := by
    obtain ⟨w,w',-,-,-,hflag⟩ := own_step h
    exact hflag
  cases hmove with
  | stop _ hstop => exact hown (Or.inr (Or.inr hstop))
  | wait _ heq => rw [heq]
  | timeout _ heq => rw [heq]
  | shutdown _ hdequeue => exact hown (Or.inl hdequeue)
  | serve _ hdequeue => exact hown (Or.inl hdequeue)
  | complete hcomplete => exact hown (Or.inr (Or.inl hcomplete))

theorem cost_of_step (hs : s.server.shutdown = true) (h : s.step l = some t) (j : Nat) :
    t.server.shutdown = true ∧
    (l.isOwn j).toNat + t.left WorkerPhase.stepsLeft j ≤ s.left WorkerPhase.stepsLeft j ∧
    (l.isReceive j).toNat + t.left WorkerPhase.jobsLeft j ≤ s.left WorkerPhase.jobsLeft j := by
  rcases loopStep_cases h with ⟨o,rfl,ho,hstep,hphases⟩ | ⟨k,phase,phase',hk,hphases,hmove⟩
  · refine ⟨(ServerState.step_shutdown hstep).mpr (Or.inr hs),?_⟩
    unfold LoopState.left
    rw [hphases]
    simp [LoopLabel.isOwn,LoopLabel.isReceive]
  · refine ⟨hmove.keeps_flag.trans hs,?_⟩
    have hlt : k < s.phases.length := (List.getElem?_eq_some_iff.mp hk).1
    obtain ⟨hsteps,hjobs⟩ := hmove.cost hs j
    unfold LoopState.left
    rw [hphases,List.getElem?_set]
    by_cases hkj : k = j
    · subst hkj
      rw [if_pos rfl] at hsteps hjobs
      simp only [if_true,hlt,hk,Option.map_some,Option.getD_some]
      rw [if_pos rfl] at hsteps hjobs
      exact ⟨hsteps,hjobs⟩
    · rw [if_neg hkj,if_neg hkj] at hsteps hjobs
      rw [if_neg hkj]
      omega

theorem worker_enabled {k : Nat} (hs : s.Consistent) (hk : k < s.phases.length) :
    s.phases[k]? = some .stopped ∨ ∃ l t, LoopLabel.isOwn k l = true ∧ s.step l = some t := by
  obtain ⟨phase,hphase⟩ : ∃ phase, s.phases[k]? = some phase := ⟨_,List.getElem?_eq_getElem hk⟩
  obtain ⟨w,hw⟩ : ∃ w, s.server.workers[k]? = some w := ⟨_,List.getElem?_eq_getElem (hs.size ▸ hk)⟩
  have hfits := hs.fits k phase w hphase hw
  obtain ⟨queue,running,connSeq,serving⟩ := w
  have hown (l : LoopLabel) (hl : LoopLabel.isOwn k l = true) (ht : (s.step l).isSome = true) :
      s.phases[k]? = some .stopped ∨ ∃ l t, LoopLabel.isOwn k l = true ∧ s.step l = some t := by
    obtain ⟨t,ht⟩ := Option.isSome_iff_exists.mp ht
    exact Or.inr ⟨l,t,hl,ht⟩
  cases phase with
  | checking =>
    obtain ⟨hrunning,hserving⟩ : running = true ∧ serving = none := hfits
    subst hrunning hserving
    cases hshutdown : s.server.shutdown with
    | true =>
      exact hown (.check k) (beq_self_eq_true k)
        (by simp [LoopState.step,LoopState.check,hphase,hshutdown,ServerState.stop,hw,LoopState.moveTo])
    | false =>
      exact hown (.check k) (beq_self_eq_true k)
        (by simp [LoopState.step,LoopState.check,hphase,hshutdown,LoopState.moveTo])
  | receiving =>
    obtain ⟨hrunning,hserving⟩ : running = true ∧ serving = none := hfits
    subst hrunning hserving
    cases queue with
    | nil =>
      exact hown (.timeout k) (beq_self_eq_true k)
        (by simp [LoopState.step,LoopState.timeout,hphase,LoopState.nextJob,hw,LoopState.moveTo])
    | cons job queue =>
      cases job with
      | connection addr isTls =>
        exact hown (.receive k) (beq_self_eq_true k)
          (by simp [LoopState.step,LoopState.receive,hphase,LoopState.nextJob,hw,LoopState.moveTo,
            ServerState.dequeue])
      | shutdown =>
        exact hown (.receive k) (beq_self_eq_true k)
          (by simp [LoopState.step,LoopState.receive,hphase,LoopState.nextJob,hw,LoopState.moveTo,
            ServerState.dequeue])
  | serving =>
    obtain ⟨id,hid⟩ := Option.isSome_iff_exists.mp hfits.2
    have hid : serving = some id := hid
    subst hid
    exact hown (.complete k) (beq_self_eq_true k)
      (by simp [LoopState.step,LoopState.complete,hphase,ServerState.complete,hw,LoopState.moveTo])
  | stopped => exact Or.inl hphase

end Steps

section Runs
variable {s t : LoopState} {before after : List LoopLabel} {numWorkers : Nat} {isTls : List Bool}

theorem sum_toNat (p : LoopLabel → Bool) (ls : List LoopLabel) :
    (ls.map fun l => (p l).toNat).sum = ls.countP p := by
  induction ls with
  | nil => rfl
  | cons l ls ih =>
    rw [List.map_cons,List.sum_cons,ih,List.countP_cons]
    cases p l <;> simp [Nat.add_comm]

private theorem own_steps_le (run : Run LoopState.step (fun _ _ => True) s after t)
    (hs : s.server.shutdown = true) (k : Nat) :
    after.countP (LoopLabel.isOwn k) + t.left WorkerPhase.stepsLeft k ≤ s.left WorkerPhase.stepsLeft k ∧
    after.countP (LoopLabel.isReceive k) + t.left WorkerPhase.jobsLeft k ≤ s.left WorkerPhase.jobsLeft k := by
  rw [← sum_toNat,← sum_toNat]
  constructor
  · exact (run.cost_le (m := fun s => s.left WorkerPhase.stepsLeft k) hs fun _ _ _ _ hflag hstep =>
      ⟨(cost_of_step hflag hstep k).1,(cost_of_step hflag hstep k).2.1⟩).2
  · exact (run.cost_le (m := fun s => s.left WorkerPhase.jobsLeft k) hs fun _ _ _ _ hflag hstep =>
      ⟨(cost_of_step hflag hstep k).1,(cost_of_step hflag hstep k).2.2⟩).2

theorem run_consistent (run : Run LoopState.step (fun _ _ => True) (.start numWorkers isTls) before s) :
    s.Consistent :=
  run.invariant (start_consistent numWorkers isTls) fun _ _ _ _ hs hstep => consistent_of_step hs hstep

theorem run_phases (run : Run LoopState.step (fun _ _ => True) (.start numWorkers isTls) before s) :
    s.phases.length = numWorkers := by
  apply run.invariant (I := fun s => s.phases.length = numWorkers) List.length_replicate
  intro s l t _ hs hstep
  rcases loopStep_cases hstep with ⟨o,-,-,-,hphases⟩ | ⟨k,phase,phase',-,hphases,-⟩
  · rw [hphases,hs]
  · rw [hphases,List.length_set,hs]

def lastJob : List LoopLabel :=
  [.outside (.arrive 0 anyPeer),.check 0,.timeout 0,.check 0,.outside (.wake [0]),.outside (.accept true),
    .outside .signal]

/-- No worker is ever stuck. Once the shutdown flag is set, whatever the clients, the accept loop and the
other workers do, a worker takes at most one more job and at most three more steps, and then it has
stopped. -/
theorem workers_stop (reach : Run LoopState.step (fun _ _ => True) (.start numWorkers isTls) before s)
    (run : Run LoopState.step (fun _ _ => True) s after t) {k : Nat} (hk : k < numWorkers) :
    (t.phases[k]? = some .stopped ∨ ∃ l u, LoopLabel.isOwn k l = true ∧ t.step l = some u) ∧
    (s.server.shutdown = true → after.countP (LoopLabel.isReceive k) ≤ 1 ∧
      after.countP (LoopLabel.isOwn k) ≤ 3) := by
  constructor
  · apply worker_enabled (run_consistent (reach.trans run))
    rw [run_phases (reach.trans run)]
    exact hk
  · intro hshutdown
    obtain ⟨hsteps,hjobs⟩ := own_steps_le run hshutdown k
    have hleft : s.left WorkerPhase.stepsLeft k ≤ 3 ∧ s.left WorkerPhase.jobsLeft k ≤ 1 := by
      unfold LoopState.left
      cases s.phases[k]? with
      | none => exact ⟨by decide,by decide⟩
      | some phase => cases phase <;> exact ⟨by decide,by decide⟩
    omega

end Runs

theorem workers_stop_golden :
    ∃ s t, Run LoopState.step (fun _ _ => True) s [.receive 0,.complete 0,.check 0] t ∧
      s.server.shutdown = true ∧
      [LoopLabel.receive 0,.complete 0,.check 0].countP (LoopLabel.isOwn 0) ≤ 3 := by
  obtain ⟨s,hs,hshutdown,hafter⟩ : ∃ s, exec LoopState.step (.start 2 [false]) lastJob = some s ∧
      s.server.shutdown = true ∧
      (exec LoopState.step s [.receive 0,.complete 0,.check 0]).isSome = true :=
    ⟨_,rfl,by decide,by decide⟩
  obtain ⟨t,ht⟩ := Option.isSome_iff_exists.mp hafter
  exact ⟨s,t,run_of_exec ht,hshutdown,
    ((workers_stop (run_of_exec hs) (run_of_exec ht) (k := 0) (by decide)).2 hshutdown).2⟩

end Rmbtd
