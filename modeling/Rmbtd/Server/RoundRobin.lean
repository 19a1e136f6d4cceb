import Rmbtd.Library.RoundRobin
import Rmbtd.Server.Ledger

/-!
# Round-robin dispatch

Which connections the accept loop drops before it is told to stop. The worker a connection goes to
does not depend on how busy the workers are: a full queue means that all are full only if the workers keep up with
the arrivals or with each other.
-/

namespace Rmbtd

open Transition RoundRobin

namespace ServerState

def load (s : ServerState) (k : Nat) : Nat := (s.workers[k]?.map fun w => w.queue.length).getD 0

def turn (s : ServerState) : Nat := s.nextWorker.toNat % s.workers.length

/-- The workers of a server that has not been told to stop. -/
structure Open (s : ServerState) : Prop where
  unflagged : s.shutdown = false
  working : ∀ w ∈ s.workers, w.running = true ∧ w.queue.length ≤ channelCapacity ∧ Job.shutdown ∉ w.queue

/-- What a step of such a server does to the queues. -/
inductive PoolStep (s : ServerState) (l : Label) (t : ServerState) : Prop
  | keep (load : t.load = s.load) (next : t.nextWorker = s.nextWorker) (drops : t.drops = s.drops)
      (handled : t.handled = s.handled)
  | send (accepts : l = .accept true) (room : s.load s.turn < channelCapacity)
      (load : ∀ k, t.load k = s.load k + if k = s.turn then 1 else 0)
      (next : t.nextWorker = s.nextWorker + 1) (drops : t.drops = s.drops) (handled : t.handled = s.handled)
  | drop (addr : SocketAddr) (accepts : l = .accept true) (full : s.load s.turn = channelCapacity)
      (load : t.load = s.load) (next : t.nextWorker = s.nextWorker + 1)
      (drops : t.drops = s.drops ++ [⟨addr,s.workers.map fun w => w.queue.length⟩])
      (handled : t.handled = s.handled)
  | take (k : Nat) (id : UInt64) (load : s.load k = t.load k + 1) (others : ∀ j, j ≠ k → t.load j = s.load j)
      (next : t.nextWorker = s.nextWorker) (drops : t.drops = s.drops)
      (handled : t.handled = s.handled ++ [(k,id)])

variable {s t : ServerState} {l : Label}

private theorem load_eq {k : Nat} {w : Worker} (hk : s.workers[k]? = some w) : s.load k = w.queue.length := by
  rw [load,hk]
  rfl

private theorem load_set {k : Nat} {w w' : Worker} (hk : s.workers[k]? = some w)
    (ht : t.workers = s.workers.set k w') (j : Nat) :
    t.load j = if j = k then w'.queue.length else s.load j := by
  unfold load
  rw [ht]
  split
  · next hjk =>
    rw [hjk,List.getElem?_set_self (List.getElem?_eq_some_iff.mp hk).1]
    rfl
  · next hjk => rw [List.getElem?_set_ne (Ne.symm hjk)]

private theorem Open.set (hs : s.Open) {k : Nat} {w' : Worker} (hflag : t.shutdown = s.shutdown)
    (ht : t.workers = s.workers.set k w')
    (hw' : w'.running = true ∧ w'.queue.length ≤ channelCapacity ∧ Job.shutdown ∉ w'.queue) : t.Open := by
  refine ⟨hflag.trans hs.unflagged,?_⟩
  intro w hw
  rw [ht] at hw
  rcases List.mem_or_eq_of_mem_set hw with hw | rfl
  · exact hs.working w hw
  · exact hw'

private theorem Open.congr (hs : s.Open) (hflag : t.shutdown = s.shutdown) (ht : t.workers = s.workers) :
    t.Open :=
  ⟨hflag.trans hs.unflagged,ht ▸ hs.working⟩

theorem dispatch_send {addr : SocketAddr} {isTls : Bool} {w w' : Worker} (hk : s.workers[s.turn]? = some w)
    (htry : w.trySend (.connection addr isTls) = some w') :
    s.dispatch addr isTls = { s with nextWorker := s.nextWorker + 1 }.updateWorker s.turn w' := by
  rcases s.dispatch_cases addr isTls with ⟨hnil,-⟩ | ⟨v,-,hv,hcases⟩
  · rw [hnil] at hk
    cases hk
  cases hk.symm.trans hv
  rw [htry] at hcases
  rcases hcases with ⟨v',⟨⟩,heq⟩ | ⟨⟨⟩,-⟩
  exact heq

theorem dispatch_drop {addr : SocketAddr} {isTls : Bool} {w : Worker} (hk : s.workers[s.turn]? = some w)
    (htry : w.trySend (.connection addr isTls) = none) : s.dispatch addr isTls = { s with
      nextWorker := s.nextWorker + 1
      drops := s.drops ++ [⟨addr,s.workers.map fun w => w.queue.length⟩] } := by
  rcases s.dispatch_cases addr isTls with ⟨hnil,-⟩ | ⟨v,-,hv,hcases⟩
  · rw [hnil] at hk
    cases hk
  cases hk.symm.trans hv
  rw [htry] at hcases
  rcases hcases with ⟨v',⟨⟩,-⟩ | ⟨-,heq⟩
  exact heq

private theorem dispatch_pool (hs : s.Open) (addr : SocketAddr) (isTls : Bool) :
    (s.dispatch addr isTls).Open ∧ PoolStep s (.accept true) (s.dispatch addr isTls) := by
  rcases s.dispatch_cases addr isTls with ⟨-,heq⟩ | ⟨w,-,hk,hcases⟩
  · rw [heq]
    exact ⟨hs.congr rfl rfl,.keep rfl rfl rfl rfl⟩
  obtain ⟨hrunning,hle,hjobs⟩ := hs.working w (List.mem_of_getElem? hk)
  have hk : s.workers[s.turn]? = some w := hk
  have hload : s.load s.turn = w.queue.length := load_eq hk
  rcases hcases with ⟨w',htry,heq⟩ | ⟨htry,heq⟩
  · unfold Worker.trySend at htry
    split at htry
    · next hroom =>
      cases htry
      rw [heq]
      constructor
      · refine hs.set rfl rfl ⟨hrunning,?_,?_⟩
        · rw [List.length_append]
          exact hroom.2
        · simp [hjobs]
      · refine .send rfl (hload ▸ hroom.2) ?_ rfl rfl rfl
        intro k
        refine (load_set hk rfl k).trans ?_
        split
        · next hkt =>
          rw [hkt,hload,List.length_append]
          rfl
        · rfl
    · cases htry
  · have hnot : ¬w.queue.length < channelCapacity := fun h => trySend_eq_none.mp htry ⟨hrunning,h⟩
    have hfull : w.queue.length = channelCapacity := Nat.le_antisymm hle (Nat.le_of_not_lt hnot)
    rw [heq]
    exact ⟨hs.congr rfl rfl,.drop addr rfl (hload.trans hfull) rfl rfl rfl rfl⟩

private theorem dequeue_pool (hs : s.Open) {k : Nat} (h : s.dequeue k = some t) :
    t.Open ∧ PoolStep s l t := by
  unfold dequeue at h
  split at h
  · next job queue connSeq hk =>
    obtain ⟨-,hle,hjobs⟩ := hs.working _ (List.mem_of_getElem? hk)
    cases job with
    | shutdown => exact absurd List.mem_cons_self hjobs
    | connection addr isTls =>
      cases h
      constructor
      · refine hs.set rfl rfl ⟨rfl,?_,fun hmem => hjobs (List.mem_cons_of_mem _ hmem)⟩
        exact Nat.le_of_succ_le hle
      · refine .take k _ ?_ ?_ rfl rfl rfl
        · rw [load_eq hk,load_set hk rfl,if_pos rfl]
          rfl
        · intro j hj
          rw [load_set hk rfl,if_neg hj]
  · cases h

/-- Every step of a server that is not told to stop is one of these. -/
theorem step_pool (hs : s.Open) (hl : l ≠ .signal) (h : s.step l = some t) : t.Open ∧ PoolStep s l t := by
  cases l with
  | arrive i addr =>
    simp only [step] at h
    split at h
    · cases h
      exact ⟨hs.congr rfl rfl,.keep rfl rfl rfl rfl⟩
    · cases h
  | interrupt =>
    simp only [step] at h
    split at h
    · cases h
      exact ⟨hs,.keep rfl rfl rfl rfl⟩
    · cases h
  | pollError =>
    simp only [step] at h
    split at h
    · cases h
      exact ⟨hs.congr rfl rfl,.keep rfl rfl rfl rfl⟩
    · cases h
  | wake events =>
    obtain ⟨-,listeners,-,⟨hflag,-⟩ | rfl⟩ := wake_cases h
    · rw [hs.unflagged] at hflag
      cases hflag
    · exact ⟨hs.congr rfl rfl,.keep rfl rfl rfl rfl⟩
  | accept blocking =>
    obtain ⟨i,events,isTls,addr,backlog,event,-,-,rfl⟩ := accept_cases h
    have hupdate : (s.updateListener i fun l => { l with backlog := l.backlog.tail }).Open := hs.congr rfl rfl
    cases blocking with
    | false => exact ⟨hupdate,.keep rfl rfl rfl rfl⟩
    | true =>
      obtain ⟨hopen,hstep⟩ := dispatch_pool hupdate addr isTls
      refine ⟨hopen,?_⟩
      cases hstep with
      | keep hload hnext hdrops hhandled => exact .keep hload hnext hdrops hhandled
      | send _ hroom hload hnext hdrops hhandled => exact .send rfl hroom hload hnext hdrops hhandled
      | drop addr _ hfull hload hnext hdrops hhandled => exact .drop addr rfl hfull hload hnext hdrops hhandled
      | take k id hload hothers hnext hdrops hhandled => exact .take k id hload hothers hnext hdrops hhandled
  | wouldBlock =>
    obtain ⟨i,events,isTls,event,-,-,rfl⟩ := wouldBlock_cases h
    exact ⟨hs.congr rfl rfl,.keep rfl rfl rfl rfl⟩
  | acceptError aborted =>
    obtain ⟨i,events,-,rfl⟩ := acceptError_cases h
    cases aborted <;> exact ⟨hs.congr rfl rfl,.keep rfl rfl rfl rfl⟩
  | signal => exact absurd rfl hl
  | dequeue k => exact dequeue_pool hs h
  | complete k =>
    obtain ⟨queue,running,connSeq,id,hk,rfl⟩ := complete_cases h
    have hworking := hs.working _ (List.mem_of_getElem? hk)
    refine ⟨hs.set rfl rfl hworking,.keep ?_ rfl rfl rfl⟩
    funext j
    rw [load_set hk rfl]
    split
    · next hjk => rw [hjk,load_eq hk]
    · rfl
  | stop k =>
    have h : s.stop k = some t := h
    unfold stop at h
    split at h
    · rw [hs.unflagged] at h
      cases h
    · cases h

/-! ## Turns and loads -/

def sent (s : ServerState) (k : Nat) : Nat := s.load k + s.handledBy k

/-- What the turns tell of the connections the workers have been sent. -/
structure Counted (s : ServerState) : Prop where
  bound : ∀ k, s.sent k ≤ turns s.workers.length s.nextWorker.toNat k
  ordered : Ordered s.workers.length s.nextWorker.toNat s.sent

private theorem Open.load_le (hs : s.Open) (k : Nat) : s.load k ≤ channelCapacity := by
  unfold load
  cases hk : s.workers[k]? with
  | none => exact Nat.zero_le _
  | some w => exact (hs.working w (List.mem_of_getElem? hk)).2.1

private theorem PoolStep.sent_take {k : Nat} {id : UInt64} (hload : s.load k = t.load k + 1)
    (hothers : ∀ j, j ≠ k → t.load j = s.load j) (hhandled : t.handled = s.handled ++ [(k,id)]) :
    t.sent = s.sent := by
  funext j
  rw [sent,sent,handledBy,handledBy,hhandled,List.countP_append,List.countP_singleton]
  by_cases hjk : j = k
  · subst hjk
    simp only [decide_true,if_true]
    omega
  · have hkj : ¬k = j := fun h => hjk h.symm
    simp only [hkj,decide_false,Bool.false_eq_true,if_false,Nat.add_zero]
    rw [hothers j hjk]

private theorem PoolStep.counted (hstep : PoolStep s l t) (hsize : t.workers.length = s.workers.length)
    (hpos : 0 < s.workers.length) (hfit : l = .accept true → s.nextWorker.toNat + 1 < 2^64)
    (hequal : l = .accept true → s.load s.turn = channelCapacity →
      ∀ k < s.workers.length, s.sent k = s.sent s.turn) (hs : s.Counted) : t.Counted := by
  have hnext (hl : l = .accept true) : (s.nextWorker + 1).toNat = s.nextWorker.toNat + 1 := by
    rw [UInt64.toNat_add]
    exact Nat.mod_eq_of_lt (hfit hl)
  have hmono (k : Nat) : turns s.workers.length s.nextWorker.toNat k ≤
      turns s.workers.length (s.nextWorker.toNat + 1) k := turns_mono (Nat.le_succ _)
  have hsame (hsent : t.sent = s.sent) (hn : t.nextWorker = s.nextWorker) : t.Counted := by
    constructor
    · rw [hsize,hn,hsent]
      exact hs.bound
    · rw [hsize,hn,hsent]
      exact hs.ordered
  have hcongr (hload : t.load = s.load) (hhandled : t.handled = s.handled) : t.sent = s.sent := by
    funext k
    rw [sent,hload,handledBy,hhandled]
    rfl
  cases hstep with
  | keep hload hn _ hhandled => exact hsame (hcongr hload hhandled) hn
  | send hl hroom hload hn _ hhandled =>
    have hsent : t.sent = fun k => s.sent k + if k = s.turn then 1 else 0 := by
      funext k
      rw [sent,hload,handledBy,hhandled,Nat.add_right_comm]
      rfl
    constructor
    · intro k
      have hbound := hs.bound k
      have hle := hmono k
      rw [hsize,hn,hnext hl,hsent]
      dsimp only
      split
      · next hk =>
        have hself : turns s.workers.length (s.nextWorker.toNat + 1) s.turn =
            turns s.workers.length s.nextWorker.toNat s.turn + 1 := turns_succ_self _
        subst hk
        omega
      · omega
    · rw [hsize,hn,hnext hl,hsent]
      exact hs.ordered.take hpos
  | drop addr hl hfull hload hn _ hhandled =>
    have hsent := hcongr hload hhandled
    constructor
    · intro k
      rw [hsize,hn,hnext hl,hsent]
      exact Nat.le_trans (hs.bound k) (hmono k)
    · rw [hsize,hsent]
      exact .of_eq hpos (hequal hl hfull)
  | take k id hload hothers hn _ hhandled => exact hsame (sent_take hload hothers hhandled) hn

end ServerState

/-! ## The condition -/

/-- Every connection is taken from its queue before the `lag`-th one after it is dispatched. -/
def ServerState.KeepsUp (lag : Nat) (s : ServerState) : Prop :=
  ∀ k < s.workers.length, turns s.workers.length (s.nextWorker.toNat + 1 - lag) k ≤ s.handledBy k

/-- All workers have taken equally many connections. -/
def ServerState.Even (s : ServerState) : Prop :=
  ∀ j < s.workers.length, ∀ k < s.workers.length, s.handledBy j = s.handledBy k

/-- The server is not told to stop. A connection is dispatched while the workers keep up with the arrivals or
with each other, unless there is only one of them; and the counter does not wrap. -/
def Serves (lag : Nat) (s : ServerState) (l : Label) : Prop :=
  l ≠ .signal ∧ (l = .accept true → s.workers.length ≤ 1 ∨
    s.nextWorker.toNat + 1 < 2^64 ∧ (s.KeepsUp lag ∨ s.Even))

instance (lag : Nat) (s : ServerState) : Decidable (s.KeepsUp lag) := inferInstanceAs (Decidable (∀ k < _, _))

instance (s : ServerState) : Decidable s.Even := inferInstanceAs (Decidable (∀ j < _, ∀ k < _, _))

instance (lag : Nat) (s : ServerState) (l : Label) : Decidable (Serves lag s l) :=
  inferInstanceAs (Decidable (_ ∧ _))

namespace ServerState
variable {s t : ServerState} {l : Label} {lag : Nat}

private theorem KeepsUp.room (hkeeps : s.KeepsUp lag) (hs : s.Counted) (hpos : 0 < s.workers.length)
    (hlag : s.nextWorker.toNat < channelCapacity * s.workers.length ∨ lag ≤ channelCapacity * s.workers.length) :
    s.load s.turn < channelCapacity := by
  have hbound := hs.bound s.turn
  have hcurrent : turns s.workers.length s.nextWorker.toNat s.turn = s.nextWorker.toNat / s.workers.length :=
    turns_current hpos _
  unfold sent at hbound
  by_cases hfirst : s.nextWorker.toNat < channelCapacity * s.workers.length
  · have hdiv := (Nat.div_lt_iff_lt_mul hpos).mpr hfirst
    omega
  · have hlag := hlag.resolve_left hfirst
    have hkept := hkeeps s.turn (Nat.mod_lt _ hpos)
    have hmono : turns s.workers.length (s.nextWorker.toNat + 1 - channelCapacity * s.workers.length) s.turn ≤
        turns s.workers.length (s.nextWorker.toNat + 1 - lag) s.turn := turns_mono (by omega)
    -- the connection that took the last place in the queue was dispatched as many rounds ago
    have hrounds := turns_add_mul hpos (s.nextWorker.toNat + 1 - channelCapacity * s.workers.length)
      channelCapacity s.turn
    rw [Nat.sub_add_cancel (by omega)] at hrounds
    have hself : turns s.workers.length (s.nextWorker.toNat + 1) s.turn =
        turns s.workers.length s.nextWorker.toNat s.turn + 1 := turns_succ_self _
    omega

private theorem Even.full (heven : s.Even) (hs : s.Counted) (hopen : s.Open)
    (hfull : s.load s.turn = channelCapacity) {k : Nat} (hk : k < s.workers.length) :
    s.load k = channelCapacity := by
  have hleast : s.sent s.turn ≤ s.sent k := hs.ordered.least hk
  have hle := hopen.load_le k
  have htaken : s.handledBy k = s.handledBy s.turn := heven k hk _ (Nat.mod_lt _ (by omega))
  unfold sent at hleast
  omega

private theorem saturated_of_load (addr : SocketAddr) (h : ∀ k < s.workers.length, s.load k = channelCapacity) :
    Drop.Saturated ⟨addr,s.workers.map fun w => w.queue.length⟩ := by
  intro n hn
  obtain ⟨w,hw,rfl⟩ := List.mem_map.mp hn
  obtain ⟨k,hk⟩ := List.mem_iff_getElem?.mp hw
  rw [← h k (List.getElem?_eq_some_iff.mp hk).1,load_eq hk]

private structure Fair (numWorkers : Nat) (s : ServerState) : Prop where
  opened : s.Open
  size : s.workers.length = numWorkers
  counted : 1 < numWorkers → s.Counted
  saturated : ∀ d ∈ s.drops, d.Saturated

private theorem start_fair (numWorkers : Nat) (isTls : List Bool) : Fair numWorkers (.start numWorkers isTls) := by
  have hsent (k : Nat) : (start numWorkers isTls).sent k = 0 := by
    unfold sent load start
    rw [List.getElem?_replicate]
    split <;> rfl
  have hlength : (start numWorkers isTls).workers.length = numWorkers := List.length_replicate
  refine ⟨⟨rfl,?_⟩,hlength,fun hpool => ⟨?_,?_⟩,List.forall_mem_nil _⟩
  · intro w hw
    rw [List.eq_of_mem_replicate hw]
    exact ⟨rfl,Nat.zero_le _,List.not_mem_nil⟩
  · intro k
    rw [hsent]
    exact Nat.zero_le _
  · exact .of_eq (by omega) fun k _ => hsent k

private theorem step_fair {numWorkers : Nat}
    (hcond : numWorkers ≤ 1 ∨ lag ≤ channelCapacity * numWorkers ∨ 2^64 ≤ channelCapacity * numWorkers + 1)
    (hserves : Serves lag s l) (hs : Fair numWorkers s) (h : s.step l = some t) : Fair numWorkers t := by
  obtain ⟨hopen,hsize,hcounted,hsaturated⟩ := hs
  obtain ⟨hopen',hstep⟩ := step_pool hopen hserves.1 h
  have hlength := step_workers_length h
  have hmany (hpool : 1 < numWorkers) (hl : l = .accept true) := (hserves.2 hl).resolve_left (by omega)
  have hall (hl : l = .accept true) (hfull : s.load s.turn = channelCapacity) (k : Nat)
      (hk : k < s.workers.length) : s.load k = channelCapacity := by
    by_cases hpool : 1 < numWorkers
    · obtain ⟨hfit,hkeeps | heven⟩ := hmany hpool hl
      · have hroom := hkeeps.room (hcounted hpool) (by omega) (by rw [hsize]; omega)
        omega
      · exact heven.full (hcounted hpool) hopen hfull hk
    · have hturn : s.turn < s.workers.length := Nat.mod_lt _ (by omega)
      have hkt : k = s.turn := by omega
      rw [hkt,hfull]
  refine ⟨hopen',hlength.trans hsize,fun hpool => hstep.counted hlength (by omega) (fun hl => (hmany hpool hl).1)
    ?_ (hcounted hpool),?_⟩
  · intro hl hfull k hk
    obtain ⟨hfit,hkeeps | heven⟩ := hmany hpool hl
    · have hroom := hkeeps.room (hcounted hpool) (by omega) (by rw [hsize]; omega)
      omega
    · have htaken : s.handledBy k = s.handledBy s.turn := heven k hk _ (Nat.mod_lt _ (by omega))
      rw [sent,sent,hall hl hfull k hk,hfull,htaken]
  · cases hstep with
    | keep _ _ hdrops => rwa [hdrops]
    | send _ _ _ _ hdrops => rwa [hdrops]
    | take k id _ _ _ hdrops => rwa [hdrops]
    | drop addr hl hfull _ _ hdrops =>
      rw [hdrops]
      intro d hd
      rcases List.mem_append.mp hd with hd | hd
      · exact hsaturated d hd
      · rw [List.mem_singleton.mp hd]
        exact saturated_of_load addr (hall hl hfull)

end ServerState

/-! ## Workers that do not keep up -/

section Overload
variable {numWorkers m j lag : Nat} {backlog : List SocketAddr}

private def arrived (numWorkers m : Nat) : ServerState :=
  { ServerState.start numWorkers [false] with listeners := [⟨false,List.replicate m anyPeer,decide (0 < m)⟩] }

private def queued (turns : Nat) : Worker := ⟨List.replicate turns (.connection anyPeer false),true,0,none⟩

private def overload (numWorkers : Nat) (backlog : List SocketAddr) (j : Nat) : ServerState where
  listeners := [⟨false,backlog,false⟩]
  phase := .draining 0 []
  nextWorker := UInt64.ofNat j
  workers := (List.range numWorkers).map fun k => queued (turns numWorkers j k)
  shutdown := false
  drops := []
  handled := []

private theorem serves_early {s : ServerState} {l : Label} (hl : l ≠ .signal) (hfit : s.nextWorker.toNat + 1 < 2^64)
    (hlag : s.nextWorker.toNat + 1 ≤ lag) : Serves lag s l := by
  refine ⟨hl,fun _ => Or.inr ⟨hfit,Or.inl ?_⟩⟩
  intro k _
  rw [Nat.sub_eq_zero_of_le hlag,turns_zero]
  exact Nat.zero_le _

private theorem arrived_run (hlag : 0 < lag) (m : Nat) : Run ServerState.step (Serves lag) (.start numWorkers [false])
    (List.replicate m (.arrive 0 anyPeer)) (arrived numWorkers m) := by
  induction m with
  | zero => exact .nil
  | succ m ih =>
    rw [List.replicate_succ']
    refine ih.snoc (serves_early (by simp) (show 0 + 1 < 2^64 by decide) hlag) ?_
    simp [arrived,ServerState.start,ServerState.step,ServerState.updateListener,List.replicate_succ']

private theorem wake_arrived (hm : 0 < m) : (arrived numWorkers m).step (.wake [0]) =
    some (overload numWorkers (List.replicate m anyPeer) 0) := by
  simp [arrived,overload,queued,ServerState.start,ServerState.step,ServerState.wake,LoopPhase.after,eventCapacity,
    hm,turns_zero]

private theorem nextWorker_overload (hfit : j < 2^64) : (overload numWorkers backlog j).nextWorker.toNat = j :=
  UInt64.toNat_ofNat_of_lt' hfit

private theorem length_overload : (overload numWorkers backlog j).workers.length = numWorkers := by simp [overload]

private theorem turn_overload (hfit : j < 2^64) : (overload numWorkers backlog j).turn = j % numWorkers := by
  rw [ServerState.turn,nextWorker_overload hfit,length_overload]

private theorem getElem?_overload {k : Nat} (hk : k < numWorkers) :
    (overload numWorkers backlog j).workers[k]? = some (queued (turns numWorkers j k)) := by
  simp [overload,hk]

private theorem trySend_queued {n : Nat} : (queued n).trySend (.connection anyPeer false) =
    if n < channelCapacity then some (queued (n + 1)) else none := by
  simp [queued,Worker.trySend,List.replicate_succ']

private theorem set_overload : (overload numWorkers backlog j).workers.set (j % numWorkers)
    (queued (turns numWorkers j (j % numWorkers) + 1)) = (overload numWorkers backlog (j + 1)).workers := by
  apply List.ext_getElem?
  intro k
  by_cases hk : k < numWorkers
  · rw [getElem?_overload hk,List.getElem?_set,length_overload]
    split
    · next hkj => rw [if_pos (hkj ▸ hk),← hkj,turns_succ_self]
    · next hkj => rw [getElem?_overload hk,turns_succ_other hk (Ne.symm hkj)]
  · rw [List.getElem?_eq_none (by rw [List.length_set,length_overload]; omega),
      List.getElem?_eq_none (by rw [length_overload]; omega)]

private theorem dispatch_overload (hpos : 0 < numWorkers) (hj : j < channelCapacity * numWorkers) (hfit : j < 2^64) :
    (overload numWorkers backlog j).dispatch anyPeer false = overload numWorkers backlog (j + 1) := by
  have hturn : (overload numWorkers backlog j).turn = j % numWorkers := turn_overload hfit
  have hroom : turns numWorkers j (j % numWorkers) < channelCapacity := by
    rw [turns_current hpos]
    exact (Nat.div_lt_iff_lt_mul hpos).mpr hj
  have hqueue : (overload numWorkers backlog j).workers[(overload numWorkers backlog j).turn]? =
      some (queued (turns numWorkers j (j % numWorkers))) := by
    rw [hturn]
    exact getElem?_overload (Nat.mod_lt j hpos)
  have hset : (overload numWorkers backlog j).workers.set (j % numWorkers)
      (queued (turns numWorkers j (j % numWorkers) + 1)) = (overload numWorkers backlog (j + 1)).workers :=
    set_overload
  rw [ServerState.dispatch_send hqueue (trySend_queued.trans (if_pos hroom)),hturn,ServerState.updateWorker,hset]
  simp [overload,UInt64.ofNat_add]

private theorem overload_run (hpos : 0 < numWorkers) (hfit : channelCapacity * numWorkers + 1 < 2^64)
    (hlag : channelCapacity * numWorkers < lag) (hj : j ≤ channelCapacity * numWorkers) (left : Nat) :
    ∃ ls, Run ServerState.step (Serves lag) (.start numWorkers [false]) ls
      (overload numWorkers (List.replicate (left + 1) anyPeer) j) := by
  induction j generalizing left with
  | zero =>
    have harrived : Run ServerState.step (Serves lag) (.start numWorkers [false]) _ (arrived numWorkers (left + 1)) :=
      arrived_run (by omega) (left + 1)
    have hwake := harrived.snoc
      (serves_early (l := .wake [0]) (by simp) (show 0 + 1 < 2^64 by decide) (show 0 + 1 ≤ lag by omega))
      (wake_arrived (Nat.succ_pos left))
    exact ⟨_,hwake⟩
  | succ j ih =>
    obtain ⟨ls,hrun⟩ := ih (by omega) (left + 1)
    have hnext : (overload numWorkers (List.replicate (left + 1 + 1) anyPeer) j).nextWorker.toNat = j :=
      nextWorker_overload (by omega)
    have hserves : Serves lag (overload numWorkers (List.replicate (left + 1 + 1) anyPeer) j) (.accept true) :=
      serves_early (by simp) (by omega) (by omega)
    have hdispatch : (overload numWorkers (List.replicate (left + 1) anyPeer) j).dispatch anyPeer false =
        overload numWorkers (List.replicate (left + 1) anyPeer) (j + 1) :=
      dispatch_overload hpos (by omega) (by omega)
    exact ⟨_,hrun.snoc hserves (congrArg some hdispatch)⟩

private def begun (connId : UInt64) : Worker :=
  ⟨List.replicate 7 (.connection anyPeer false),true,1,some connId⟩

private theorem overload_drops (hmany : 1 < numWorkers) (hfit : channelCapacity * numWorkers + 1 < 2^64)
    (hlag : channelCapacity * numWorkers < lag) :
    ∃ ls t, Run ServerState.step (Serves lag) (.start numWorkers [false]) ls t ∧ ∃ d ∈ t.drops, ¬d.Saturated := by
  obtain ⟨ls,hrun⟩ := overload_run (by omega) hfit hlag (Nat.le_refl _) 0
  have hnext : (overload numWorkers [anyPeer] (channelCapacity * numWorkers)).nextWorker.toNat =
      channelCapacity * numWorkers := nextWorker_overload (by omega)
  have hturn : (overload numWorkers [anyPeer] (channelCapacity * numWorkers)).turn =
      channelCapacity * numWorkers % numWorkers := turn_overload (by omega)
  rw [Nat.mul_mod_left] at hturn
  have hfull {k : Nat} (hk : k < numWorkers) :
      (overload numWorkers [anyPeer] (channelCapacity * numWorkers)).workers[k]? = some (queued channelCapacity) := by
    have hturns : turns numWorkers (0 + channelCapacity * numWorkers) k =
        turns numWorkers 0 k + channelCapacity := turns_add_mul (by omega) 0 channelCapacity k
    rw [Nat.zero_add,turns_zero,Nat.zero_add] at hturns
    rw [getElem?_overload hk,hturns]
  have hrun : Run ServerState.step (Serves lag) (.start numWorkers [false]) ls
    (overload numWorkers [anyPeer] (channelCapacity * numWorkers)) := hrun
  generalize hs : overload numWorkers [anyPeer] (channelCapacity * numWorkers) = s at *
  have hlisteners : s.listeners = [⟨false,[anyPeer],false⟩] := by rw [← hs]; rfl
  have hphase : s.phase = .draining 0 [] := by rw [← hs]; rfl
  have hlength : s.workers.length = numWorkers := by rw [← hs,length_overload]
  let u : ServerState := { s.updateWorker 1 (begun 100001) with handled := s.handled ++ [(1,100001)] }
  have hdequeue : s.step (.dequeue 1) = some u := by
    rw [ServerState.step,ServerState.dequeue,hfull hmany]
    rfl
  have hu := hrun.snoc (serves_early (l := .dequeue 1) (by simp) (by omega) (by omega)) hdequeue
  let v : ServerState := u.updateListener 0 fun l => { l with backlog := l.backlog.tail }
  have haccept : u.step (.accept true) = some (v.dispatch anyPeer false) := by
    simp [u,v,ServerState.step,ServerState.accept,ServerState.updateWorker,hphase,hlisteners]
  have hvturn : v.turn = 0 := by
    change s.nextWorker.toNat % (s.workers.set 1 _).length = 0
    rw [List.length_set]
    exact hturn
  have hbusy : v.workers[v.turn]? = some (queued channelCapacity) := by
    rw [hvturn]
    change (s.workers.set 1 _)[0]? = _
    rw [List.getElem?_set_ne (by decide),hfull (by omega)]
  rw [ServerState.dispatch_drop hbusy (by rw [trySend_queued,if_neg (by decide)])] at haccept
  refine ⟨_,_,hu.snoc (serves_early (l := .accept true) (by simp) (show s.nextWorker.toNat + 1 < 2^64 by omega)
    (show s.nextWorker.toNat + 1 ≤ lag by omega)) haccept,_,List.mem_append_right _ (List.mem_singleton_self _),?_⟩
  intro hsaturated
  have hseven : 7 ∈ (s.workers.set 1 (begun 100001)).map fun w => w.queue.length :=
    List.mem_map.mpr ⟨begun 100001,List.mem_set (by omega) _,rfl⟩
  exact absurd (hsaturated 7 hseven) (by decide)

end Overload

/-! ## Pools that drop only at saturation -/

/-- Of the conditions that every connection is taken before the `lag`-th one after it is dispatched, those make
every drop of every run saturated that allow a delay of at most one full queue for each worker. A single worker needs
none; the last case is that of a pool whose queues cannot be filled before the counter wraps. -/
theorem drops_saturated_iff (numWorkers lag : Nat) :
    (∀ isTls ls t, Run ServerState.step (Serves lag) (.start numWorkers isTls) ls t → ∀ d ∈ t.drops, d.Saturated) ↔
      numWorkers ≤ 1 ∨ lag ≤ channelCapacity * numWorkers ∨ 2^64 ≤ channelCapacity * numWorkers + 1 := by
  constructor
  · intro hall
    by_contra hnot
    simp only [not_or,not_le] at hnot
    obtain ⟨hmany,hlag,hfit⟩ := hnot
    obtain ⟨ls,t,hrun,d,hd,hdrop⟩ := overload_drops hmany hfit hlag
    exact hdrop (hall _ ls t hrun d hd)
  · intro hcond isTls ls t hrun
    exact (hrun.invariant (ServerState.start_fair numWorkers isTls)
      fun _ _ _ hserves hs hstep => ServerState.step_fair hcond hserves hs hstep).saturated

/-- Two workers that take one connection each: the next to be dropped finds both queues full again. -/
def evenly : List Label :=
  List.replicate 19 (.arrive 0 anyPeer) ++ [.wake [0]] ++ List.replicate 16 (.accept true) ++
    [.dequeue 0,.dequeue 1] ++ List.replicate 3 (.accept true)

theorem drops_saturated_iff_golden :
    ∃ t, Run ServerState.step (Serves 16) (.start 2 [false]) evenly t ∧ t.drops = [⟨anyPeer,[8,8]⟩] ∧
      ∀ d ∈ t.drops, d.Saturated := by
  obtain ⟨t,ht,hdrops⟩ := Option.map_eq_some_iff.mp (show (execIf ServerState.step (Serves 16) (.start 2 [false])
    evenly).map ServerState.drops = some [⟨anyPeer,[8,8]⟩] by decide +kernel)
  have hrun := run_of_execIf ht
  exact ⟨t,hrun,hdrops,(drops_saturated_iff 2 16).mpr (by decide) _ _ t hrun⟩

end Rmbtd
