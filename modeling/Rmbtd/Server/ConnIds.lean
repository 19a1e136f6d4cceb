import Rmbtd.Server.AcceptLoop
import Mathlib.Data.List.Nodup

/-!
# Connection ids

Every worker numbers its connections from its own base, with a counter that is neither reset nor
bounded. The ids are unique as long as no worker runs into the numbers of another one.
-/

namespace Rmbtd

open Transition

private theorem nodup_map_iff_groups {α β γ : Type} [DecidableEq β] {key : α → β} {g : α → γ}
    {l : List α} : (l.map g).Nodup ↔
      (∀ k, ((l.filter fun a => key a = k).map g).Nodup) ∧
      ∀ a ∈ l, ∀ b ∈ l, key a ≠ key b → g a ≠ g b := by
  constructor
  · intro h
    refine ⟨fun k => (List.filter_sublist.map g).nodup h,?_⟩
    intro a ha b hb hkey heq
    exact hkey (congrArg key (List.inj_on_of_nodup_map h ha hb heq))
  · rintro ⟨hgroup,hacross⟩
    induction l with
    | nil => exact List.nodup_nil
    | cons a l ih =>
      apply List.nodup_cons.mpr
      constructor
      · intro hmem
        obtain ⟨b,hb,hba⟩ := List.mem_map.mp hmem
        by_cases hkey : key b = key a
        · have hnodup := hgroup (key a)
          rw [List.filter_cons_of_pos (by simp),List.map_cons] at hnodup
          apply (List.nodup_cons.mp hnodup).1
          rw [← hba]
          exact List.mem_map_of_mem (List.mem_filter.mpr ⟨hb,by simpa using hkey⟩)
        · exact hacross b (List.mem_cons_of_mem a hb) a List.mem_cons_self hkey hba
      · apply ih
        · intro k
          exact (((List.sublist_cons_self a l).filter _).map g).nodup (hgroup k)
        · intro b hb c hc
          exact hacross b (List.mem_cons_of_mem a hb) c (List.mem_cons_of_mem a hc)

/-! ## Numbering from a base -/

/-- The ids of a worker's first `n` connections. -/
def firstIds (base : UInt64) (n : Nat) : List UInt64 :=
  (List.range n).map fun k => base + UInt64.ofNat (k + 1)

theorem firstIds_succ (base : UInt64) (n : Nat) :
    firstIds base (n + 1) = firstIds base n ++ [base + UInt64.ofNat (n + 1)] := by
  rw [firstIds,List.range_succ,List.map_append]
  rfl

theorem mem_firstIds {base id : UInt64} {n : Nat} :
    id ∈ firstIds base n ↔ ∃ k < n, base + UInt64.ofNat (k + 1) = id := by
  simp only [firstIds,List.mem_map,List.mem_range]

private theorem toNat_id (base : UInt64) (k : Nat) :
    (base + UInt64.ofNat (k + 1)).toNat = (base.toNat + (k + 1)) % 2^64 := by
  rw [UInt64.toNat_add,UInt64.toNat_ofNat']
  omega

theorem nodup_firstIds {base : UInt64} {n : Nat} : (firstIds base n).Nodup ↔ n ≤ 2^64 := by
  rw [firstIds,List.nodup_map_iff_inj_on List.nodup_range]
  constructor
  · intro hinj
    by_contra hn
    have h := hinj 0 (List.mem_range.mpr (by omega)) (2^64) (List.mem_range.mpr (by omega)) (by congr 1)
    omega
  · intro hn i hi j hj heq
    have heq := congrArg UInt64.toNat heq
    rw [toNat_id,toNat_id] at heq
    have hi := List.mem_range.mp hi
    have hj := List.mem_range.mp hj
    omega

/-- Two ranges of ids are disjoint if and only if none of them reaches the start of the other. -/
theorem disjoint_firstIds {b c : UInt64} {m n : Nat} :
    List.Disjoint (firstIds b m) (firstIds c n) ↔
      (n = 0 ∨ m ≤ (c - b).toNat) ∧ (m = 0 ∨ n ≤ (b - c).toNat) := by
  have hgap (b c : UInt64) : (c - b).toNat = (2^64 - b.toNat + c.toNat) % 2^64 := UInt64.toNat_sub c b
  have hreach {b c : UInt64} {m n : Nat} (h : List.Disjoint (firstIds b m) (firstIds c n)) :
      n = 0 ∨ m ≤ (c - b).toNat := by
    by_contra hnot
    obtain ⟨hn,hm⟩ := not_or.mp hnot
    apply h (mem_firstIds.mpr ⟨(c - b).toNat,by omega,rfl⟩)
    refine mem_firstIds.mpr ⟨0,by omega,?_⟩
    apply UInt64.toNat.inj
    rw [toNat_id,toNat_id,hgap]
    have hb := b.toNat_lt
    have hc := c.toNat_lt
    omega
  constructor
  · intro h
    exact ⟨hreach h,hreach (List.disjoint_comm.mp h)⟩
  · intro ⟨hm,hn⟩ id hb hc
    obtain ⟨k,hk,rfl⟩ := mem_firstIds.mp hb
    obtain ⟨k',hk',heq⟩ := mem_firstIds.mp hc
    have heq := congrArg UInt64.toNat heq
    rw [toNat_id,toNat_id] at heq
    rw [hgap] at hm hn
    have hb := b.toNat_lt
    have hc := c.toNat_lt
    omega

/-! ## The connections of a worker -/

namespace ServerState

def connIds (s : ServerState) (worker : Nat) : List UInt64 :=
  (s.handled.filter fun h => h.1 = worker).map Prod.snd

def handledBy (s : ServerState) (worker : Nat) : Nat :=
  s.handled.countP fun h => h.1 = worker

theorem mem_connIds {s : ServerState} {i : Nat} {id : UInt64} :
    id ∈ s.connIds i ↔ (i,id) ∈ s.handled := by
  unfold connIds
  simp

/-- Every worker's ids are the first ones from its base, and its counter tells how many. -/
def Numbered (s : ServerState) : Prop :=
  ∀ i, s.connIds i = firstIds (UInt64.ofNat i * 100000) (s.handledBy i) ∧
    ∀ w, s.workers[i]? = some w → w.connSeq = UInt64.ofNat (s.handledBy i)

variable {s t : ServerState}

private theorem Numbered.of_handled (hs : s.Numbered) (hhandled : t.handled = s.handled)
    (hworkers : ∀ (i : Nat) (w : Worker), t.workers[i]? = some w →
      ∃ w' : Worker, s.workers[i]? = some w' ∧ w.connSeq = w'.connSeq) : t.Numbered := by
  intro i
  have hi := hs i
  simp only [connIds,handledBy,hhandled] at hi ⊢
  refine ⟨hi.1,?_⟩
  intro w hw
  obtain ⟨w',hw',heq⟩ := hworkers i w hw
  rw [heq]
  exact hi.2 w' hw'

private theorem getElem?_updateWorker {i j : Nat} {v w w' : Worker} (hw : s.workers[i]? = some w)
    (hj : (s.updateWorker i w').workers[j]? = some v) :
    (i = j ∧ v = w') ∨ (i ≠ j ∧ s.workers[j]? = some v) := by
  change (s.workers.set i w')[j]? = some v at hj
  by_cases hij : i = j
  · subst hij
    rw [List.getElem?_set_self (List.getElem?_eq_some_iff.mp hw).1] at hj
    exact Or.inl ⟨rfl,(Option.some.inj hj).symm⟩
  · rw [List.getElem?_set_ne hij] at hj
    exact Or.inr ⟨hij,hj⟩

private theorem Numbered.update (hs : s.Numbered) {i : Nat} {w w' : Worker}
    (hw : s.workers[i]? = some w) (hseq : w'.connSeq = w.connSeq) : (s.updateWorker i w').Numbered := by
  have hhandled : (s.updateWorker i w').handled = s.handled := rfl
  apply hs.of_handled hhandled
  intro j v hv
  rcases getElem?_updateWorker hw hv with ⟨rfl,rfl⟩ | ⟨-,hv⟩
  · exact ⟨w,hw,hseq⟩
  · exact ⟨v,hv,rfl⟩

private theorem Numbered.take (hs : s.Numbered) {i : Nat} {w w' : Worker} (hw : s.workers[i]? = some w)
    (hseq : w'.connSeq = w.connSeq + 1) :
    Numbered { s.updateWorker i w' with
      handled := s.handled ++ [(i,UInt64.ofNat i * 100000 + w'.connSeq)] } := by
  intro j
  by_cases hij : i = j
  · subst hij
    obtain ⟨hids,hcount⟩ := hs i
    have hnext : w'.connSeq = UInt64.ofNat (s.handledBy i + 1) := by
      rw [hseq,hcount w hw,UInt64.ofNat_add]
      rfl
    have hhandledBy : handledBy { s.updateWorker i w' with
        handled := s.handled ++ [(i,UInt64.ofNat i * 100000 + w'.connSeq)] } i = s.handledBy i + 1 := by
      simp [handledBy]
    constructor
    · rw [hhandledBy,firstIds_succ,← hids,← hnext]
      simp [connIds]
    · intro v hv
      rw [hhandledBy]
      rcases getElem?_updateWorker hw hv with ⟨-,rfl⟩ | ⟨hne,-⟩
      · exact hnext
      · exact absurd rfl hne
  · have hj := hs j
    simp only [connIds,handledBy] at hj ⊢
    simp only [List.filter_append,List.countP_append,List.map_append]
    simp only [List.filter_cons,hij,decide_false,List.countP_cons]
    refine ⟨by simpa using hj.1,?_⟩
    intro v hv
    rcases getElem?_updateWorker hw hv with ⟨heq,-⟩ | ⟨-,hv⟩
    · exact absurd heq hij
    · simpa using hj.2 v hv

private theorem connSeq_trySend {w w' : Worker} {job : Job} (h : w.trySend job = some w') :
    w'.connSeq = w.connSeq := by
  unfold Worker.trySend at h
  split at h
  · cases h
    rfl
  · cases h

private theorem step_numbered {l : Label} (hs : s.Numbered) (h : s.step l = some t) : t.Numbered := by
  rcases step_frame h with ⟨hw,-,hhandled⟩ | ⟨_,-,-,-,hhandled,hworkers⟩ |
    ⟨u,addr,isTls,-,hw,-,-,hhandled,rfl⟩ | ⟨i,hi⟩
  · apply hs.of_handled hhandled
    intro i w hi
    rw [hw] at hi
    exact ⟨w,hi,rfl⟩
  · apply hs.of_handled hhandled
    intro i w hi
    rw [hworkers,List.getElem?_map] at hi
    obtain ⟨w',hw',rfl⟩ := Option.map_eq_some_iff.mp hi
    refine ⟨w',hw',?_⟩
    cases hsend : w'.trySend .shutdown with
    | none => rfl
    | some v => exact connSeq_trySend hsend
  · have hu : u.Numbered := hs.of_handled hhandled fun i w hi => ⟨w,by rwa [hw] at hi,rfl⟩
    rcases u.dispatch_cases addr isTls with ⟨-,heq⟩ | ⟨w,-,hi,⟨w',hsend,heq⟩ | ⟨-,heq⟩⟩
    · rw [heq]
      exact hu
    · rw [heq]
      exact hu.update hi (connSeq_trySend hsend)
    · rw [heq]
      exact hu
  · obtain ⟨w,w',hw,⟨rfl,hseq⟩ | ⟨rfl,hseq⟩⟩ := worker_cases hi
    · exact hs.update hw hseq
    · exact hs.take hw hseq

theorem Numbered.of_run {numWorkers : Nat} {isTls : List Bool} {ls : List Label}
    (run : Run step (fun _ _ => True) (.start numWorkers isTls) ls t) : t.Numbered := by
  apply run.invariant
  · intro i
    refine ⟨rfl,?_⟩
    intro w hw
    rw [(List.mem_replicate.mp (List.mem_of_getElem? hw)).2]
    rfl
  · intro s l t _ hs hstep
    exact step_numbered hs hstep

end ServerState

/-! ## Uniqueness -/

/-- How many ids a worker can give out before it reaches the first one of another worker. -/
def idsBefore (worker other : Nat) : Nat :=
  (UInt64.ofNat other * 100000 - UInt64.ofNat worker * 100000).toNat

private theorem groups_disjoint_iff {s : ServerState} :
    (∀ a ∈ s.handled, ∀ b ∈ s.handled, a.1 ≠ b.1 → a.2 ≠ b.2) ↔
      ∀ i j, i ≠ j → List.Disjoint (s.connIds i) (s.connIds j) := by
  constructor
  · intro h i j hij id hi hj
    exact h _ (ServerState.mem_connIds.mp hi) _ (ServerState.mem_connIds.mp hj) hij rfl
  · intro h a ha b hb hne heq
    refine h a.1 b.1 hne (ServerState.mem_connIds.mpr ha) (ServerState.mem_connIds.mpr ?_)
    rw [heq]
    exact hb

/-- No worker took more connections than there are numbers, or than there are before the first id of
another worker that took a connection. -/
def ServerState.WithinIds (s : ServerState) : Prop :=
  (∀ i, s.handledBy i ≤ 2^64) ∧ ∀ i j, i ≠ j → s.handledBy j = 0 ∨ s.handledBy i ≤ idsBefore i j

theorem ServerState.Numbered.nodup_iff {s : ServerState} (hs : s.Numbered) :
    (s.handled.map Prod.snd).Nodup ↔ s.WithinIds := by
  have hblock (i : Nat) : ((s.handled.filter fun h => h.1 = i).map Prod.snd).Nodup ↔
      s.handledBy i ≤ 2^64 := by
    rw [← nodup_firstIds,← (hs i).1]
    rfl
  have hpair (i j : Nat) : List.Disjoint (s.connIds i) (s.connIds j) ↔
      (s.handledBy j = 0 ∨ s.handledBy i ≤ idsBefore i j) ∧
        (s.handledBy i = 0 ∨ s.handledBy j ≤ idsBefore j i) := by
    rw [(hs i).1,(hs j).1]
    exact disjoint_firstIds
  rw [@nodup_map_iff_groups _ _ _ _ Prod.fst,groups_disjoint_iff]
  apply and_congr (forall_congr' hblock)
  constructor
  · intro h i j hij
    exact ((hpair i j).mp (h i j hij)).1
  · intro h i j hij
    exact (hpair i j).mpr ⟨h i j hij,h j i hij.symm⟩

/-- For every number of workers and every run, the connections have different ids if and only if
no worker took more connections than there are numbers, or than there are before the first id of
another worker that took a connection. -/
theorem connIds_nodup_iff {numWorkers : Nat} {isTls : List Bool} {ls : List Label} {t : ServerState}
    (run : Run ServerState.step (fun _ _ => True) (.start numWorkers isTls) ls t) :
    (t.handled.map Prod.snd).Nodup ↔ (∀ i, t.handledBy i ≤ 2^64) ∧
      ∀ i j, i ≠ j → t.handledBy j = 0 ∨ t.handledBy i ≤ idsBefore i j :=
  (ServerState.Numbered.of_run run).nodup_iff

theorem connIds_nodup_iff_golden :
    ∃ t, Run ServerState.step (fun _ _ => True) (.start 2 [false])
      [.arrive 0 anyPeer,.arrive 0 anyPeer,.wake [0],.accept true,.accept true,.dequeue 0,.dequeue 1] t ∧
      t.handled = [(0,1),(1,100001)] ∧ t.handledBy 1 ≤ 2^64 := by
  obtain ⟨t,hrun,hhandled⟩ := run_of_exec_map (f := ServerState.handled) (a := [(0,1),(1,100001)])
    (show (exec ServerState.step (.start 2 [false]) [.arrive 0 anyPeer,.arrive 0 anyPeer,.wake [0],
      .accept true,.accept true,.dequeue 0,.dequeue 1]).map ServerState.handled = _ by decide)
  refine ⟨t,hrun,hhandled,((connIds_nodup_iff hrun).mp ?_).1 1⟩
  rw [hhandled]
  decide

/-! ## Worker 0 reaches the ids of worker 1 -/

def roundLabels : List Label :=
  [.arrive 0 anyPeer,.arrive 0 anyPeer,.wake [0],.accept true,.accept true,.wouldBlock,
    .dequeue 0,.complete 0,.dequeue 1,.complete 1]

def betweenRounds (nextWorker connSeq : UInt64) (handled : List (Nat × UInt64)) : ServerState where
  listeners := [⟨false,[],false⟩]
  phase := .polling
  nextWorker := nextWorker
  workers := [⟨[],true,connSeq,none⟩,⟨[],true,connSeq,none⟩]
  shutdown := false
  drops := []
  handled := handled

private theorem exec_round {n seq : UInt64} {handled : List (Nat × UInt64)} (hn : n.toNat % 2 = 0) :
    exec ServerState.step (betweenRounds n seq handled) roundLabels =
      some (betweenRounds (n + 1 + 1) (seq + 1)
        (handled ++ [(0,seq + 1),(1,100000 + (seq + 1))])) := by
  have hn' : (n.toNat + 1) % 2 = 1 := by omega
  simp [exec,roundLabels,betweenRounds,ServerState.step,ServerState.updateListener,ServerState.wake,
    ServerState.accept,ServerState.dispatch,ServerState.selected,ServerState.wouldBlock,ServerState.dequeue,
    ServerState.complete,ServerState.updateWorker,Worker.trySend,LoopPhase.after,eventCapacity,channelCapacity,hn,hn']

private theorem exec_rounds (m : Nat) : ∃ n handled,
    exec ServerState.step (.start 2 [false]) (List.replicate m roundLabels).flatten =
      some (betweenRounds n (UInt64.ofNat m) handled) ∧
    n.toNat % 2 = 0 ∧
    ∀ k < m, (0,UInt64.ofNat (k + 1)) ∈ handled ∧ (1,100000 + UInt64.ofNat (k + 1)) ∈ handled := by
  induction m with
  | zero => exact ⟨0,[],rfl,rfl,fun k hk => absurd hk (Nat.not_lt_zero k)⟩
  | succ m ih =>
    obtain ⟨n,handled,hexec,hn,hmem⟩ := ih
    have hseq : UInt64.ofNat (m + 1) = UInt64.ofNat m + 1 := UInt64.ofNat_add m 1
    refine ⟨n + 1 + 1,handled ++ [(0,UInt64.ofNat (m + 1)),(1,100000 + UInt64.ofNat (m + 1))],?_,?_,?_⟩
    · rw [List.replicate_succ',List.flatten_append,exec_append,hexec,List.flatten_singleton]
      rw [Option.bind_some,exec_round hn,hseq]
    · rw [UInt64.toNat_add,UInt64.toNat_add]
      have h1 : UInt64.toNat 1 = 1 := rfl
      omega
    · intro k hk
      rcases Nat.lt_succ_iff_lt_or_eq.mp hk with hk | rfl
      · exact (hmem k hk).imp (List.mem_append_left _) (List.mem_append_left _)
      · exact ⟨List.mem_append_right _ (by simp),List.mem_append_right _ (by simp)⟩

/-- The connection 100001 of worker 0 has the id of the first connection of worker 1. -/
theorem connIds_clash :
    ∃ ls t, Run ServerState.step (fun _ _ => True) (.start 2 [false]) ls t ∧
      (0,100001) ∈ t.handled ∧ (1,100001) ∈ t.handled ∧ ¬(t.handled.map Prod.snd).Nodup := by
  obtain ⟨n,handled,hexec,-,hmem⟩ := exec_rounds 100001
  have hfirst : (0,100001) ∈ handled := (hmem 100000 (by decide)).1
  have hsecond : (1,100001) ∈ handled := (hmem 0 (by decide)).2
  refine ⟨_,_,run_of_exec hexec,hfirst,hsecond,?_⟩
  intro hnodup
  have h := List.inj_on_of_nodup_map hnodup hfirst hsecond rfl
  exact absurd (congrArg Prod.fst h) (by decide)

end Rmbtd
