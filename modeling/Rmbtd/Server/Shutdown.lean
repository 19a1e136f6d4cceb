import Rmbtd.Server.WorkerLoop

/-!
# Shutting down

Once the shutdown flag is set the whole server stops: the accept loop when it has drained what is waiting and
what still arrives meanwhile, every worker after the connection it serves.
-/

namespace Rmbtd

open Transition

def Label.isLoop : Label → Bool
  | .pollError => true
  | .wake _ => true
  | .accept _ => true
  | .wouldBlock => true
  | .acceptError _ => true
  | _ => false

def Label.isFault : Label → Bool
  | .pollError => true
  | .accept blocking => !blocking
  | .acceptError _ => true
  | _ => false

def Label.isArrive : Label → Bool
  | .arrive .. => true
  | _ => false

/-- How many steps the loop takes for its events, and to return from its next call of `poll`. -/
def LoopPhase.stepsLeft : LoopPhase → Nat
  | .polling => 1
  | .draining _ events => events.length + 2
  | .returned => 0
  | .panicked => 0

namespace ServerState

def waiting (s : ServerState) : Nat := (s.listeners.map fun l => l.backlog.length).sum

/-- The steps that the accept loop takes at most after the signal if nothing arrives. -/
def loopLeft (s : ServerState) : Nat := s.waiting + s.phase.stepsLeft

private theorem sum_map_modify {α : Type} {f : α → Nat} {g : α → α} {l : List α} {i : Nat} {a : α}
    (h : l[i]? = some a) : ((l.modify i g).map f).sum + f a = (l.map f).sum + f (g a) := by
  induction l generalizing i with
  | nil => cases h
  | cons b l ih =>
    cases i with
    | zero =>
      cases h
      simp only [List.modify_zero_cons,List.map_cons,List.sum_cons]
      omega
    | succ i =>
      have ih := ih (i := i) h
      simp only [List.modify_succ_cons,List.map_cons,List.sum_cons]
      omega

private theorem waiting_update {s : ServerState} {i : Nat} {l : Listener} {g : Listener → Listener}
    (h : s.listeners[i]? = some l) :
    (s.updateListener i g).waiting + l.backlog.length = s.waiting + (g l).backlog.length :=
  sum_map_modify (f := fun l : Listener => l.backlog.length) h

private theorem aborted_waiting (s : ServerState) (i : Nat) :
    (s.updateListener i fun l => { l with backlog := l.backlog.tail }).waiting ≤ s.waiting := by
  cases hl : s.listeners[i]? with
  | some l =>
    have hwaiting := waiting_update (g := fun l => { l with backlog := l.backlog.tail }) hl
    rw [List.length_tail] at hwaiting
    omega
  | none =>
    unfold waiting updateListener
    dsimp only
    rw [List.modify_eq_self (List.getElem?_eq_none_iff.mp hl)]

private theorem delivered_waiting (listeners : List Listener) (events : List Nat) :
    ((listeners.mapIdx fun i l => if i ∈ events then { l with event := false } else l).map fun l =>
      l.backlog.length) = listeners.map fun l => l.backlog.length := by
  apply List.ext_getElem
  · simp
  · intro i h₁ h₂
    rw [List.getElem_map,List.getElem_map,List.getElem_mapIdx]
    split <;> rfl

private theorem after_stepsLeft (events : List Nat) : (LoopPhase.after events).stepsLeft = events.length + 1 := by
  cases events <;> rfl

private theorem dispatch_left (s : ServerState) (addr : SocketAddr) (isTls : Bool) :
    (s.dispatch addr isTls).loopLeft ≤ s.loopLeft := by
  rcases s.dispatch_cases addr isTls with ⟨-,heq⟩ | ⟨w,-,-,⟨w',-,heq⟩ | ⟨-,heq⟩⟩
  · rw [heq]
    exact Nat.le_add_right _ _
  · rw [heq]
    exact Nat.le_refl _
  · rw [heq]
    exact Nat.le_refl _

variable {s t : ServerState} {l : Label}

private theorem own_left {i : Nat} (h : s.dequeue i = some t ∨ s.complete i = some t ∨ s.stop i = some t) :
    t.loopLeft = s.loopLeft := by
  obtain ⟨w,w',-,⟨rfl,-⟩ | ⟨rfl,-⟩⟩ := worker_cases h <;> rfl

/-- After the signal every step of the loop is paid for. -/
theorem loop_cost (hs : s.shutdown = true) (h : s.step l = some t) :
    l.isLoop.toNat + t.loopLeft ≤ s.loopLeft + l.isArrive.toNat := by
  cases l with
  | arrive i addr =>
    simp only [step] at h
    split at h
    · next hi =>
      cases h
      have hwaiting := waiting_update (g := fun l => { l with backlog := l.backlog ++ [addr], event := true })
        (List.getElem?_eq_getElem hi)
      simp only [List.length_append,List.length_singleton] at hwaiting
      have hphase : (s.updateListener i fun l => { l with backlog := l.backlog ++ [addr], event := true }).phase =
        s.phase := rfl
      simp only [Label.isLoop,Label.isArrive,Bool.toNat_false,Bool.toNat_true,loopLeft,hphase]
      omega
    · cases h
  | interrupt =>
    simp only [step] at h
    split at h
    · cases h
      simp [Label.isLoop]
    · cases h
  | pollError =>
    simp only [step] at h
    split at h
    · next hphase =>
      cases h
      simp only [Label.isLoop,Bool.toNat_true,loopLeft,hphase,LoopPhase.stepsLeft,waiting]
      omega
    · cases h
  | wake events =>
    have h : s.wake events = some t := h
    unfold wake at h
    split at h
    · next hcond =>
      cases h
      simp only [Label.isLoop,Bool.toNat_true,loopLeft,hcond.1,LoopPhase.stepsLeft,waiting,delivered_waiting]
      omega
    · cases h
  | accept blocking =>
    obtain ⟨i,events,isTls,addr,backlog,event,hphase,hl,rfl⟩ := accept_cases h
    have hwaiting := waiting_update (g := fun l => { l with backlog := l.backlog.tail }) hl
    have hleft : (s.updateListener i fun l => { l with backlog := l.backlog.tail }).loopLeft + 1 = s.loopLeft := by
      have hsame : (s.updateListener i fun l => { l with backlog := l.backlog.tail }).phase = s.phase := rfl
      simp only [List.tail_cons,List.length_cons] at hwaiting
      simp only [loopLeft,hsame]
      omega
    simp only [Label.isLoop,Bool.toNat_true]
    cases blocking with
    | true =>
      have hle := dispatch_left (s.updateListener i fun l => { l with backlog := l.backlog.tail }) addr isTls
      simp only [if_true]
      omega
    | false =>
      simp only [Bool.false_eq_true,if_false]
      omega
  | wouldBlock =>
    obtain ⟨i,events,isTls,event,hphase,-,rfl⟩ := wouldBlock_cases h
    simp only [Label.isLoop,Bool.toNat_true,loopLeft,hphase,waiting,after_stepsLeft]
    simp only [LoopPhase.stepsLeft]
    omega
  | acceptError aborted =>
    obtain ⟨i,events,hphase,rfl⟩ := acceptError_cases h
    have hwaiting : (if aborted then s.updateListener i fun l => { l with backlog := l.backlog.tail } else s).waiting ≤
        s.waiting := by
      cases aborted with
      | true => exact aborted_waiting s i
      | false => exact Nat.le_refl _
    simp only [waiting] at hwaiting
    simp only [Label.isLoop,Bool.toNat_true,loopLeft,hphase,waiting,after_stepsLeft]
    simp only [LoopPhase.stepsLeft]
    omega
  | signal =>
    cases h
    exact Nat.le_of_eq (Nat.zero_add _)
  | dequeue i => exact Nat.le_of_eq ((Nat.zero_add _).trans (own_left (Or.inl h)))
  | complete i => exact Nat.le_of_eq ((Nat.zero_add _).trans (own_left (Or.inr (Or.inl h))))
  | stop i => exact Nat.le_of_eq ((Nat.zero_add _).trans (own_left (Or.inr (Or.inr h))))

/-- The events that are still to be served are those of listeners. -/
def ServesListeners (s : ServerState) : Prop :=
  ∀ i events, s.phase = .draining i events → ∀ k ∈ i::events, k < s.listeners.length

private theorem ServesListeners.mono (hs : s.ServesListeners) (hlength : t.listeners.length = s.listeners.length)
    (hphase : ∀ i events, t.phase = .draining i events → ∃ j events',
      s.phase = .draining j events' ∧ ∀ k ∈ i::events, k ∈ j::events') : t.ServesListeners := by
  intro i events ht k hk
  obtain ⟨j,events',hs',hsub⟩ := hphase i events ht
  rw [hlength]
  exact hs j events' hs' k (hsub k hk)

private theorem after_serves {events : List Nat} {i : Nat} {events' : List Nat}
    (h : LoopPhase.after events = .draining i events') : events = i::events' := by
  cases events with
  | nil => cases h
  | cons j events =>
    cases h
    rfl

private theorem dispatch_servesListeners (hs : s.ServesListeners) (addr : SocketAddr) (isTls : Bool) :
    (s.dispatch addr isTls).ServesListeners := by
  rcases s.dispatch_cases addr isTls with ⟨-,heq⟩ | ⟨w,-,-,⟨w',-,heq⟩ | ⟨-,heq⟩⟩
  · rw [heq]
    intro i events hphase
    cases hphase
  · rw [heq]
    exact hs.mono rfl fun i events hphase => ⟨i,events,hphase,fun _ hk => hk⟩
  · rw [heq]
    exact hs.mono rfl fun i events hphase => ⟨i,events,hphase,fun _ hk => hk⟩

theorem step_servesListeners (hs : s.ServesListeners) (h : s.step l = some t) : t.ServesListeners := by
  have hsame (hlength : t.listeners.length = s.listeners.length) (hphase : t.phase = s.phase) :
      t.ServesListeners :=
    hs.mono hlength fun i events ht => ⟨i,events,hphase ▸ ht,fun _ hk => hk⟩
  have hupdate (i : Nat) (f : Listener → Listener) : (s.updateListener i f).ServesListeners :=
    hs.mono (List.length_modify ..) fun j events hphase => ⟨j,events,hphase,fun _ hk => hk⟩
  have hnext {i : Nat} {events : List Nat} (hphase : s.phase = .draining i events)
      (hlength : t.listeners.length = s.listeners.length) (ht : t.phase = .after events) : t.ServesListeners := by
    apply hs.mono hlength
    intro j events' hafter
    rw [ht] at hafter
    refine ⟨i,events,hphase,?_⟩
    rw [after_serves hafter]
    exact fun _ hk => List.mem_cons_of_mem i hk
  cases l with
  | arrive i addr =>
    simp only [step] at h
    split at h
    · cases h
      exact hupdate i _
    · cases h
  | interrupt =>
    simp only [step] at h
    split at h
    · cases h
      exact hs
    · cases h
  | pollError =>
    simp only [step] at h
    split at h
    · cases h
      intro i events hphase
      cases hphase
    · cases h
  | wake events =>
    have h : s.wake events = some t := h
    unfold wake at h
    split at h
    · next hcond =>
      dsimp only at h
      split at h
      · cases h
        intro i events' hphase
        cases hphase
      · cases h
        intro i events' hphase k hk
        rw [List.length_mapIdx]
        have hall := List.all_eq_true.mp hcond.2.2.2 k (after_serves hphase ▸ hk)
        cases hl : s.listeners[k]? with
        | none =>
          rw [hl] at hall
          cases hall
        | some l => exact (List.getElem?_eq_some_iff.mp hl).1
    · cases h
  | accept blocking =>
    obtain ⟨i,events,isTls,addr,backlog,event,hphase,-,rfl⟩ := accept_cases h
    cases blocking with
    | true => exact dispatch_servesListeners (hupdate i _) addr isTls
    | false => exact hupdate i _
  | wouldBlock =>
    obtain ⟨i,events,isTls,event,hphase,-,rfl⟩ := wouldBlock_cases h
    exact hnext hphase rfl rfl
  | acceptError aborted =>
    obtain ⟨i,events,hphase,rfl⟩ := acceptError_cases h
    apply hnext hphase ?_ rfl
    cases aborted with
    | true => exact List.length_modify ..
    | false => rfl
  | signal =>
    cases h
    exact hsame rfl rfl
  | _ =>
    obtain ⟨w,w',-,⟨rfl,-⟩ | ⟨rfl,-⟩⟩ := worker_cases (by tauto)
    · exact hsame rfl rfl
    · exact hsame rfl rfl

private theorem after_ne_panicked (events : List Nat) : LoopPhase.after events ≠ .panicked := by
  cases events <;> nofun

private theorem step_panics (h : s.step l = some t) (ht : t.phase = .panicked) :
    s.phase = .panicked ∨ s.workers = [] := by
  cases l with
  | arrive i addr =>
    simp only [step] at h
    split at h
    · cases h
      exact Or.inl ht
    · cases h
  | interrupt =>
    simp only [step] at h
    split at h
    · cases h
      exact Or.inl ht
    · cases h
  | pollError =>
    simp only [step] at h
    split at h
    · cases h
      cases ht
    · cases h
  | wake events =>
    obtain ⟨-,listeners,-,⟨-,rfl⟩ | rfl⟩ := wake_cases h
    · cases ht
    · exact absurd ht (after_ne_panicked events)
  | accept blocking =>
    obtain ⟨i,events,isTls,addr,backlog,event,hphase,-,rfl⟩ := accept_cases h
    cases blocking with
    | false => exact Or.inl ht
    | true =>
      rw [if_pos rfl] at ht
      rcases dispatch_cases (s.updateListener i fun l => { l with backlog := l.backlog.tail }) addr isTls with
        ⟨hnil,-⟩ | ⟨w,-,-,⟨w',-,heq⟩ | ⟨-,heq⟩⟩
      · exact Or.inr hnil
      · rw [heq] at ht
        exact Or.inl ht
      · rw [heq] at ht
        exact Or.inl ht
  | wouldBlock =>
    obtain ⟨i,events,isTls,event,-,-,rfl⟩ := wouldBlock_cases h
    exact absurd ht (after_ne_panicked events)
  | acceptError aborted =>
    obtain ⟨i,events,-,rfl⟩ := acceptError_cases h
    exact absurd ht (after_ne_panicked events)
  | signal =>
    cases h
    exact Or.inl ht
  | _ =>
    obtain ⟨w,w',-,⟨rfl,-⟩ | ⟨rfl,-⟩⟩ := worker_cases (by tauto)
    · exact Or.inl ht
    · exact Or.inl ht

/-- The loop has panicked only if there are no workers. -/
def PanicsAlone (s : ServerState) : Prop := s.phase = .panicked → s.workers = []

theorem step_panicsAlone (hs : s.PanicsAlone) (h : s.step l = some t) : t.PanicsAlone := by
  intro ht
  have hnil : s.workers = [] := (step_panics h ht).elim hs id
  apply List.length_eq_zero_iff.mp
  rw [step_workers_length h,hnil]
  rfl

/-- Until it returns or panics, the loop can go on without an error. -/
theorem loop_enabled (hs : s.ServesListeners) : s.phase = .returned ∨ s.phase = .panicked ∨
    ∃ l t, Label.isLoop l = true ∧ Label.isFault l = false ∧ s.step l = some t := by
  cases hphase : s.phase with
  | polling =>
    have hwake : (s.wake []).isSome = true := by
      rw [wake,if_pos ⟨hphase,List.nodup_nil,Nat.zero_le _,rfl⟩]
      dsimp only
      split <;> rfl
    obtain ⟨t,ht⟩ := Option.isSome_iff_exists.mp hwake
    exact Or.inr (Or.inr ⟨.wake [],t,rfl,rfl,ht⟩)
  | draining i events =>
    obtain ⟨⟨isTls,backlog,event⟩,hl⟩ : ∃ l, s.listeners[i]? = some l :=
      ⟨_,List.getElem?_eq_getElem (hs i events hphase i List.mem_cons_self)⟩
    cases backlog with
    | nil =>
      refine Or.inr (Or.inr ⟨.wouldBlock,{ s with phase := .after events },rfl,rfl,?_⟩)
      simp only [step,wouldBlock,hphase,hl]
    | cons addr backlog =>
      refine Or.inr (Or.inr ⟨.accept true,
        (s.updateListener i fun l => { l with backlog := l.backlog.tail }).dispatch addr isTls,rfl,rfl,?_⟩)
      simp only [step,accept,hphase,hl,if_true]
  | returned => exact Or.inl rfl
  | panicked => exact Or.inr (Or.inl rfl)

end ServerState

/-! ## The whole server -/

/-- A step the server takes by itself. -/
def LoopLabel.isServer : LoopLabel → Bool
  | .outside l => l.isLoop
  | .check _ => true
  | .timeout _ => true
  | .receive _ => true
  | .complete _ => true

def LoopLabel.isFault : LoopLabel → Bool
  | .outside l => l.isFault
  | _ => false

def LoopLabel.isArrive : LoopLabel → Bool
  | .outside l => l.isArrive
  | _ => false

/-- The steps that the workers take at most after the signal. -/
def LoopState.workersLeft (s : LoopState) : Nat := (s.phases.map WorkerPhase.stepsLeft).sum

section
variable {s t : LoopState} {l : LoopLabel}

private theorem sum_map_set {α : Type} {f : α → Nat} {l : List α} {i : Nat} {a b : α} (h : l[i]? = some a) :
    ((l.set i b).map f).sum + f a = (l.map f).sum + f b := by
  induction l generalizing i with
  | nil => cases h
  | cons c l ih =>
    cases i with
    | zero =>
      cases h
      simp only [List.set_cons_zero,List.map_cons,List.sum_cons]
      omega
    | succ i =>
      have ih := ih (i := i) h
      simp only [List.set_cons_succ,List.map_cons,List.sum_cons]
      omega

private theorem workersLeft_le (s : LoopState) : s.workersLeft ≤ 3 * s.phases.length := by
  have hphase (phase : WorkerPhase) : phase.stepsLeft ≤ 3 := by cases phase <;> decide
  unfold LoopState.workersLeft
  induction s.phases with
  | nil => exact Nat.le_refl _
  | cons phase phases ih =>
    have h := hphase phase
    simp only [List.map_cons,List.sum_cons,List.length_cons]
    omega

private theorem Move.server_left {k : Nat} {phase phase' : WorkerPhase} {server : ServerState}
    (hmove : Move s k l phase phase' server) : server.loopLeft = s.server.loopLeft := by
  cases hmove with
  | stop _ hstop => exact ServerState.own_left (Or.inr (Or.inr hstop))
  | wait _ heq => rw [heq]
  | timeout _ heq => rw [heq]
  | shutdown _ hdequeue => exact ServerState.own_left (Or.inl hdequeue)
  | serve _ hdequeue => exact ServerState.own_left (Or.inl hdequeue)
  | complete hcomplete => exact ServerState.own_left (Or.inr (Or.inl hcomplete))

private theorem Move.labels {k : Nat} {phase phase' : WorkerPhase} {server : ServerState}
    (hmove : Move s k l phase phase' server) :
    l.isServer = true ∧ l.isArrive = false ∧ l.isOwn k = true := by
  cases hmove <;> exact ⟨rfl,rfl,beq_self_eq_true k⟩

private theorem server_cost (hs : s.server.shutdown = true) (h : s.step l = some t) :
    t.server.shutdown = true ∧ l.isServer.toNat + (t.server.loopLeft + t.workersLeft) ≤
      (s.server.loopLeft + s.workersLeft) + l.isArrive.toNat := by
  rcases loopStep_cases h with ⟨o,rfl,ho,hstep,hphases⟩ | ⟨k,phase,phase',hk,hphases,hmove⟩
  · refine ⟨(ServerState.step_shutdown hstep).mpr (Or.inr hs),?_⟩
    have hcost := ServerState.loop_cost hs hstep
    simp only [LoopLabel.isServer,LoopLabel.isArrive,LoopState.workersLeft,hphases]
    omega
  · refine ⟨hmove.keeps_flag.trans hs,?_⟩
    obtain ⟨hserver,harrive,hown⟩ := hmove.labels
    have hsteps := (hmove.cost hs k).1
    rw [if_pos rfl,if_pos rfl,hown,Bool.toNat_true] at hsteps
    have hsum := sum_map_set (f := WorkerPhase.stepsLeft) (b := phase') hk
    rw [hserver,harrive,Bool.toNat_true,Bool.toNat_false,hmove.server_left]
    simp only [LoopState.workersLeft,hphases]
    omega

end

section
variable {s t : LoopState} {before after : List LoopLabel} {numWorkers : Nat} {isTls : List Bool}

private theorem run_servesListeners (run : Run LoopState.step (fun _ _ => True) (.start numWorkers isTls) before s) :
    s.server.ServesListeners := by
  apply run.invariant (I := fun s => s.server.ServesListeners)
  · intro i events hphase
    cases hphase
  · intro s l t _ hs hstep
    exact (run_of_exec (loopStep_refines hstep)).invariant (I := ServerState.ServesListeners) hs
      fun _ _ _ _ hs hstep => ServerState.step_servesListeners hs hstep

private theorem run_panicsAlone (run : Run LoopState.step (fun _ _ => True) (.start numWorkers isTls) before s)
    (h : s.server.phase = .panicked) : numWorkers = 0 := by
  have hnil : s.server.workers = [] := by
    refine run.invariant (I := fun s => s.server.PanicsAlone) nofun ?_ h
    intro s l t _ hs hstep
    exact (run_of_exec (loopStep_refines hstep)).invariant (I := ServerState.PanicsAlone) hs
      fun _ _ _ _ hs hstep => ServerState.step_panicsAlone hs hstep
  rw [← run_phases run,(run_consistent run).size,hnil]
  rfl

/-- Once the shutdown flag is set, the server takes no more steps than it has connections waiting, events to
serve, workers to stop and connections that still arrive; and until its accept loop has returned and all workers
have stopped, it can go on, without an error of the kernel. Without workers the loop may have panicked. -/
theorem server_stops (reach : Run LoopState.step (fun _ _ => True) (.start numWorkers isTls) before s)
    (hs : s.server.shutdown = true) (run : Run LoopState.step (fun _ _ => True) s after t) :
    after.countP LoopLabel.isServer ≤
      s.server.loopLeft + 3 * numWorkers + after.countP LoopLabel.isArrive ∧
    (((t.server.phase = .returned ∨ numWorkers = 0 ∧ t.server.phase = .panicked) ∧
        ∀ phase ∈ t.phases, phase = .stopped) ∨
      ∃ l u, LoopLabel.isServer l = true ∧ LoopLabel.isFault l = false ∧ t.step l = some u) := by
  constructor
  · obtain ⟨-,hle⟩ := run.cost_le_gain (m := fun s => s.server.loopLeft + s.workersLeft) hs
      fun _ _ _ _ hs hstep => server_cost hs hstep
    rw [sum_toNat,sum_toNat] at hle
    have hworkers := workersLeft_le s
    rw [run_phases reach] at hworkers
    omega
  · by_cases hstopped : ∀ phase ∈ t.phases, phase = .stopped
    · rcases ServerState.loop_enabled (run_servesListeners (reach.trans run)) with h | h | ⟨l,u,hloop,hfault,hu⟩
      · exact Or.inl ⟨Or.inl h,hstopped⟩
      · exact Or.inl ⟨Or.inr ⟨run_panicsAlone (reach.trans run) h,h⟩,hstopped⟩
      · have hworkers : l.isWorkers = false := by cases l <;> first | rfl | cases hloop
        refine Or.inr ⟨.outside l,{ t with server := u },hloop,hfault,?_⟩
        simp [LoopState.step,hworkers,hu]
    · push Not at hstopped
      obtain ⟨phase,hmem,hne⟩ := hstopped
      obtain ⟨k,hk⟩ := List.mem_iff_getElem?.mp hmem
      have hlt := (List.getElem?_eq_some_iff.mp hk).1
      rcases worker_enabled (run_consistent (reach.trans run)) hlt with h | ⟨l,u,hown,hu⟩
      · rw [hk] at h
        cases h
        exact absurd rfl hne
      · refine Or.inr ⟨l,u,?_,?_,hu⟩
        · cases l <;> first | rfl | cases hown
        · cases l <;> first | rfl | cases hown

end

def lastSteps : List LoopLabel :=
  [.outside .wouldBlock,.outside (.wake []),.receive 0,.complete 0,.check 0,.check 1]

theorem server_stops_golden :
    ∃ s t, Run LoopState.step (fun _ _ => True) s lastSteps t ∧ s.server.loopLeft = 2 ∧
      lastSteps.countP LoopLabel.isServer ≤ 2 + 3 * 2 + lastSteps.countP LoopLabel.isArrive ∧
      t.server.phase = .returned ∧ t.phases = [.stopped,.stopped] := by
  obtain ⟨s,hs,hshutdown,hleft,hafter⟩ : ∃ s, exec LoopState.step (.start 2 [false]) lastJob = some s ∧
      s.server.shutdown = true ∧ s.server.loopLeft = 2 ∧
      (exec LoopState.step s lastSteps).map (fun t => (t.server.phase,t.phases)) =
        some (.returned,[.stopped,.stopped]) := ⟨_,rfl,by decide,by decide,by decide⟩
  obtain ⟨t,ht,hstopped⟩ := Option.map_eq_some_iff.mp hafter
  have hbound := (server_stops (run_of_exec hs) hshutdown (run_of_exec ht)).1
  rw [hleft] at hbound
  exact ⟨s,t,run_of_exec ht,hleft,hbound,congrArg Prod.fst hstopped,congrArg Prod.snd hstopped⟩

end Rmbtd
