import Rmbtd.Server.WorkerLoop

/-!
# Which runs of the server the workers' loops have

The model of the accept loop lets a worker take a job whenever it is idle. The loops look at the shutdown
flag first, which is seen from outside in one thing only: after the signal, a worker that completed a
connection takes no other job. All other runs of that model are runs of the loops.
-/

namespace Rmbtd

open Transition

/-- After the signal, a worker completes a connection and takes another job. -/
def TakesLateJob (ls : List Label) : Prop :=
  ∃ k, [Label.signal,.complete k,.dequeue k].Sublist ls

private theorem sublist_snoc {α : Type} {xs ys : List α} {x y : α} :
    (xs ++ [x]).Sublist (ys ++ [y]) ↔ (xs ++ [x]).Sublist ys ∨ xs.Sublist ys ∧ x = y := by
  rw [← List.reverse_sublist,← @List.reverse_sublist _ _ ys]
  simp only [List.reverse_append,List.reverse_singleton,List.singleton_append,List.sublist_cons_iff]
  constructor
  · rintro (h | ⟨r,hr,h⟩)
    · exact Or.inl h
    · cases hr
      exact Or.inr ⟨List.reverse_sublist.mp h,rfl⟩
  · rintro (h | ⟨h,rfl⟩)
    · exact Or.inl h
    · exact Or.inr ⟨_,rfl,List.reverse_sublist.mpr h⟩

section Late
variable {ls : List Label} {o : Label} {k : Nat}

private theorem completes_snoc : [Label.signal,.complete k].Sublist (ls ++ [o]) ↔
    [Label.signal,.complete k].Sublist ls ∨ .signal ∈ ls ∧ .complete k = o := by
  rw [show [Label.signal,.complete k] = [.signal] ++ [.complete k] from rfl,sublist_snoc,
    List.singleton_sublist]

private theorem takesLateJob_snoc : TakesLateJob (ls ++ [o]) ↔
    TakesLateJob ls ∨ ∃ k, [Label.signal,.complete k].Sublist ls ∧ .dequeue k = o := by
  unfold TakesLateJob
  rw [← exists_or]
  apply exists_congr
  intro k
  exact @sublist_snoc _ [Label.signal,.complete k] ls _ _

private theorem completes_snoc_other (ho : ∀ j, Label.complete j ≠ o) :
    [Label.signal,.complete k].Sublist (ls ++ [o]) ↔ [Label.signal,.complete k].Sublist ls := by
  rw [completes_snoc]
  exact or_iff_left fun h => ho k h.2

private theorem takesLateJob_snoc_other (ho : ∀ j, Label.dequeue j ≠ o) :
    TakesLateJob (ls ++ [o]) ↔ TakesLateJob ls := by
  rw [takesLateJob_snoc]
  apply or_iff_left
  rintro ⟨j,-,h⟩
  exact ho j h

private theorem signal_of_completes (h : [Label.signal,.complete k].Sublist ls) : .signal ∈ ls :=
  h.subset List.mem_cons_self

end Late

/-! ## What the loops show -/

section Shows
variable {s t : LoopState} {ls : List Label} {l : LoopLabel}

private structure LoopState.Tells (s : LoopState) (ls : List Label) : Prop where
  flag : .signal ∈ ls → s.server.shutdown = true
  phase : ∀ k, [Label.signal,.complete k].Sublist ls →
    s.phases[k]? = some .checking ∨ s.phases[k]? = some .stopped
  timely : ¬TakesLateJob ls

private theorem LoopState.Tells.phase_set {k : Nat} {phase' : WorkerPhase} (hs : s.Tells ls) (hk : k < s.phases.length)
    (h : [Label.signal,.complete k].Sublist ls → phase' = .checking ∨ phase' = .stopped) :
    ∀ j, [Label.signal,.complete j].Sublist ls →
      (s.phases.set k phase')[j]? = some .checking ∨ (s.phases.set k phase')[j]? = some .stopped := by
  intro j hj
  rw [List.getElem?_set]
  split
  · next hkj =>
    subst hkj
    rcases h hj with rfl | rfl
    · exact Or.inl rfl
    · exact Or.inr rfl
  · exact hs.phase j hj

private theorem tells_of_step (hs : s.Tells ls) (h : s.step l = some t) : t.Tells (ls ++ s.labels l) := by
  rcases loopStep_cases h with ⟨o,rfl,ho,hstep,hphases⟩ | ⟨k,phase,phase',hk,hphases,hmove⟩
  · have hcomplete (j : Nat) : Label.complete j ≠ o := fun heq => by subst heq; cases ho
    have hdequeue (j : Nat) : Label.dequeue j ≠ o := fun heq => by subst heq; cases ho
    refine ⟨?_,?_,(takesLateJob_snoc_other hdequeue).not.mpr hs.timely⟩
    · intro hmem
      apply (ServerState.step_shutdown hstep).mpr
      rcases List.mem_append.mp hmem with hmem | hmem
      · exact Or.inr (hs.flag hmem)
      · exact Or.inl (List.mem_singleton.mp hmem).symm
    · intro j hj
      rw [hphases]
      exact hs.phase j ((completes_snoc_other hcomplete).mp hj)
  · have hlt : k < s.phases.length := (List.getElem?_eq_some_iff.mp hk).1
    have hflag := hmove.keeps_flag
    have hsignal : .signal ∈ ls ++ s.labels l → t.server.shutdown = true := by
      intro hmem
      rcases List.mem_append.mp hmem with hmem | hmem
      · rw [hflag]
        exact hs.flag hmem
      · cases hmove <;> simp [LoopState.labels] at hmem
    cases hmove with
    | stop hshutdown hstop =>
      have hlabels : s.labels (.check k) = [.stop k] := if_pos hshutdown
      rw [hlabels] at hsignal ⊢
      refine ⟨hsignal,?_,(takesLateJob_snoc_other (by simp)).not.mpr hs.timely⟩
      intro j hj
      rw [hphases]
      exact hs.phase_set hlt (fun _ => Or.inr rfl) j ((completes_snoc_other (by simp)).mp hj)
    | wait hshutdown hsame =>
      have hlabels : s.labels (.check k) = [] := by
        rw [LoopState.labels,hshutdown]
        rfl
      rw [hlabels,List.append_nil] at hsignal ⊢
      refine ⟨hsignal,?_,hs.timely⟩
      rw [hphases]
      apply hs.phase_set hlt
      intro hj
      rw [hs.flag (signal_of_completes hj)] at hshutdown
      cases hshutdown
    | timeout _ hsame =>
      have hlabels : s.labels (.timeout k) = [] := rfl
      rw [hlabels,List.append_nil] at hsignal ⊢
      refine ⟨hsignal,?_,hs.timely⟩
      rw [hphases]
      exact hs.phase_set hlt fun _ => Or.inl rfl
    | complete hcomplete =>
      refine ⟨hsignal,?_,(takesLateJob_snoc_other (by simp)).not.mpr hs.timely⟩
      intro j hj
      rw [hphases]
      rcases completes_snoc.mp hj with hj | ⟨-,heq⟩
      · exact hs.phase_set hlt (fun _ => Or.inl rfl) j hj
      · cases heq
        rw [List.getElem?_set_self hlt]
        exact Or.inl rfl
    | _ =>
      -- A worker that waits for a job completed no connection after the signal.
      have hnone : ¬[Label.signal,.complete k].Sublist ls := by
        intro hj
        rcases hs.phase k hj with h | h
        · rw [hk] at h
          cases h
        · rw [hk] at h
          cases h
      refine ⟨hsignal,?_,?_⟩
      · intro j hj
        rw [hphases]
        exact hs.phase_set hlt (fun h => absurd h hnone) j ((completes_snoc_other (by simp)).mp hj)
      · intro hlate
        rcases takesLateJob_snoc.mp hlate with hlate | ⟨j,hj,heq⟩
        · exact hs.timely hlate
        · cases heq
          exact hnone hj

end Shows

/-! ## Every other run is one of the loops -/

section Realised
variable {s t u : ServerState} {ls : List Label} {phases : List WorkerPhase}

private structure Possible (ls : List Label) (s : ServerState) (v : LoopState) : Prop where
  server : v.server = s
  consistent : v.Consistent
  timely : ¬TakesLateJob ls
  waits : ∀ k, v.phases[k]? = some .receiving → ¬[Label.signal,.complete k].Sublist ls

private theorem checked (s : ServerState) (hshutdown : s.shutdown = false) (done : List WorkerPhase)
    (h : ∀ phase ∈ phases, phase = .checking ∨ phase = .receiving) :
    ∃ before,
      exec LoopState.step ⟨s,done ++ List.replicate phases.length .checking⟩ before = some ⟨s,done ++ phases⟩ ∧
      shown LoopState.step LoopState.labels ⟨s,done ++ List.replicate phases.length .checking⟩ before = [] := by
  induction phases generalizing done with
  | nil => exact ⟨[],rfl,rfl⟩
  | cons phase phases ih =>
    obtain ⟨hphase,hphases⟩ := List.forall_mem_cons.mp h
    obtain ⟨before,hexec,hshown⟩ := ih (done ++ [phase]) hphases
    rw [List.append_assoc,List.append_assoc,List.singleton_append,List.singleton_append] at hexec
    rw [List.append_assoc,List.singleton_append] at hshown
    rcases hphase with rfl | rfl
    · exact ⟨before,hexec,hshown⟩
    · have hstep : LoopState.step
          ⟨s,done ++ List.replicate (WorkerPhase.receiving::phases).length .checking⟩ (.check done.length) =
          some ⟨s,done ++ .receiving::List.replicate phases.length .checking⟩ := by
        simp [LoopState.step,LoopState.check,LoopState.moveTo,hshutdown,List.replicate_succ]
      refine ⟨.check done.length::before,?_,?_⟩
      · rw [exec,hstep]
        exact hexec
      · rw [shown,hstep]
        simp [LoopState.labels,hshutdown,hshown]

private theorem start_possible {numWorkers : Nat} {isTls : List Bool} {v : LoopState}
    (h : Possible [] (.start numWorkers isTls) v) :
    ∃ before, exec LoopState.step (.start numWorkers isTls) before = some v ∧
      shown LoopState.step LoopState.labels (.start numWorkers isTls) before = [] := by
  obtain ⟨server,phases⟩ := v
  obtain ⟨rfl,⟨hsize,hfits⟩,-,-⟩ := h
  have hsize : phases.length = numWorkers := by
    rw [hsize]
    exact List.length_replicate
  subst hsize
  apply checked _ rfl []
  intro phase hmem
  obtain ⟨k,hk,rfl⟩ := List.getElem_of_mem hmem
  have hw : (ServerState.start phases.length isTls).workers[k]? = some ⟨[],true,0,none⟩ := by
    simp [ServerState.start,hk]
  have hfit := hfits k _ _ (List.getElem?_eq_getElem hk) hw
  cases hphase : phases[k] with
  | checking => exact Or.inl rfl
  | receiving => exact Or.inr rfl
  | serving =>
    rw [hphase] at hfit
    cases hfit.2
  | stopped =>
    rw [hphase] at hfit
    cases hfit

private inductive OwnStep (shutdown : Bool) (k : Nat) : Label → Worker → Worker → Prop
  | refuse {queue : List Job} {connSeq : UInt64} :
    OwnStep shutdown k (.dequeue k) ⟨.shutdown::queue,true,connSeq,none⟩ ⟨[],false,connSeq,none⟩
  | take {addr : SocketAddr} {isTls : Bool} {queue : List Job} {connSeq id : UInt64} :
    OwnStep shutdown k (.dequeue k) ⟨.connection addr isTls::queue,true,connSeq,none⟩
      ⟨queue,true,connSeq + 1,some id⟩
  | complete {queue : List Job} {running : Bool} {connSeq id : UInt64} :
    OwnStep shutdown k (.complete k) ⟨queue,running,connSeq,some id⟩ ⟨queue,running,connSeq,none⟩
  | stop {queue : List Job} {connSeq : UInt64} (flag : shutdown = true) :
    OwnStep shutdown k (.stop k) ⟨queue,true,connSeq,none⟩ ⟨[],false,connSeq,none⟩

private theorem ownStep_of_step {l : Label} (h : s.step l = some t) (hl : l.isWorkers = true) :
    ∃ k w w', s.workers[k]? = some w ∧ t.workers = s.workers.set k w' ∧ t.shutdown = s.shutdown ∧
      OwnStep s.shutdown k l w w' := by
  cases l with
  | dequeue k =>
    have h : s.dequeue k = some t := h
    unfold ServerState.dequeue at h
    split at h
    · next job queue connSeq hk =>
      cases job with
      | shutdown =>
        cases h
        exact ⟨k,_,_,hk,rfl,rfl,.refuse⟩
      | connection addr isTls =>
        cases h
        exact ⟨k,_,_,hk,rfl,rfl,.take⟩
    · cases h
  | complete k =>
    obtain ⟨queue,running,connSeq,id,hk,rfl⟩ := ServerState.complete_cases h
    exact ⟨k,_,_,hk,rfl,rfl,.complete⟩
  | stop k =>
    have h : s.stop k = some t := h
    unfold ServerState.stop at h
    split at h
    · next hk =>
      split at h
      · next hflag =>
        cases h
        exact ⟨k,_,_,hk,rfl,rfl,.stop hflag⟩
      · cases h
    · cases h
  | _ => cases hl

private structure Accounted (ls : List Label) (s : ServerState) : Prop where
  serves : ∀ (k : Nat) (w : Worker), s.workers[k]? = some w → w.serving.isSome = true → w.running = true
  flag : s.shutdown = true → .signal ∈ ls

private theorem run_accounted {numWorkers : Nat} {isTls : List Bool}
    (run : Run ServerState.step (fun _ _ => True) (.start numWorkers isTls) ls s) : Accounted ls s := by
  induction run with
  | nil =>
    constructor
    · intro k w hk hserving
      rw [List.eq_of_mem_replicate (List.mem_of_getElem? hk)] at hserving
      cases hserving
    · intro h
      cases h
  | @snoc ls l s t run _ h ih =>
    constructor
    · intro k w' hk hserving
      cases hl : l.isWorkers with
      | false =>
        obtain ⟨w,hw,hrunning,hsame⟩ := (outside_frame h hl).1 k w' hk
        rw [hrunning]
        exact ih.serves k w hw (hsame ▸ hserving)
      | true =>
        obtain ⟨j,w,v,hj,hworkers,-,hown⟩ := ownStep_of_step h hl
        rw [hworkers,List.getElem?_set] at hk
        split at hk
        · split at hk
          · cases hk
            cases hown with
            | take => rfl
            | _ => cases hserving
          · cases hk
        · exact ih.serves k w' hk hserving
    · intro hflag
      rcases (ServerState.step_shutdown h).mp hflag with rfl | hflag
      · exact List.mem_append_right _ (List.mem_singleton_self _)
      · exact List.mem_append_left _ (ih.flag hflag)

private theorem Possible.back {v : LoopState} {l : Label} {k : Nat} {w w' : Worker} (phase : WorkerPhase)
    (hv : Possible (ls ++ [l]) t v) (hk : s.workers[k]? = some w) (hworkers : t.workers = s.workers.set k w')
    (hfits : phase.Fits w) (hwaits : phase = .receiving → ¬[Label.signal,.complete k].Sublist ls) :
    Possible ls s ⟨s,v.phases.set k phase⟩ := by
  have hlt : k < s.workers.length := (List.getElem?_eq_some_iff.mp hk).1
  have hsize : v.phases.length = s.workers.length := by
    rw [hv.consistent.size,hv.server,hworkers,List.length_set]
  refine ⟨rfl,⟨?_,?_⟩,?_,?_⟩
  · rw [List.length_set]
    exact hsize
  · intro j phase' x hphase hx
    simp only [List.getElem?_set] at hphase
    split at hphase
    · next hkj =>
      rw [if_pos (hsize ▸ hlt)] at hphase
      have hx : s.workers[j]? = some x := hx
      rw [← hkj,hk] at hx
      cases hphase
      cases hx
      exact hfits
    · next hkj =>
      apply hv.consistent.fits j phase' x hphase
      rw [hv.server,hworkers,List.getElem?_set_ne hkj]
      exact hx
  · intro hlate
    exact hv.timely (takesLateJob_snoc.mpr (Or.inl hlate))
  · intro j hphase
    simp only [List.getElem?_set] at hphase
    split at hphase
    · next hkj =>
      rw [if_pos (hsize ▸ hlt)] at hphase
      exact hkj ▸ hwaits (Option.some.inj hphase)
    · exact fun hj => hv.waits j hphase (completes_snoc.mpr (Or.inl hj))

private theorem Possible.frame {v : LoopState} {l : Label} (hv : Possible (ls ++ [l]) t v)
    (h : s.step l = some t) (hl : l.isWorkers = false) : Possible ls s ⟨s,v.phases⟩ := by
  refine ⟨rfl,⟨?_,?_⟩,?_,?_⟩
  · rw [hv.consistent.size,hv.server,step_workers_length h]
  · intro k phase w hphase hw
    have hw : s.workers[k]? = some w := hw
    have hlt : k < t.workers.length := by
      rw [step_workers_length h]
      exact (List.getElem?_eq_some_iff.mp hw).1
    obtain ⟨w₀,hw₀,hrunning,hserving⟩ := (outside_frame h hl).1 k _ (List.getElem?_eq_getElem hlt)
    rw [hw] at hw₀
    cases hw₀
    have hfits := hv.consistent.fits k phase _ hphase (by rw [hv.server,List.getElem?_eq_getElem hlt])
    unfold WorkerPhase.Fits at hfits ⊢
    rw [← hrunning,← hserving]
    exact hfits
  · intro hlate
    exact hv.timely (takesLateJob_snoc.mpr (Or.inl hlate))
  · intro k hphase hk
    exact hv.waits k hphase (completes_snoc.mpr (Or.inl hk))

private theorem Possible.idle {v : LoopState} {k : Nat} (hv : Possible (ls ++ [.dequeue k]) t v) :
    ¬[Label.signal,.complete k].Sublist ls :=
  fun hj => hv.timely (takesLateJob_snoc.mpr (Or.inr ⟨k,hj,rfl⟩))

private theorem one_step {v v' : LoopState} {m : LoopLabel} {os : List Label} (h : v.step m = some v')
    (hlabels : v.labels m = os) :
    exec LoopState.step v [m] = some v' ∧ shown LoopState.step LoopState.labels v [m] = os := by
  rw [exec,shown,h,hlabels]
  exact ⟨rfl,List.append_nil os⟩

private def Job.phase : Job → WorkerPhase
  | .shutdown => .stopped
  | .connection _ _ => .serving

private theorem step_realised {v : LoopState} {l : Label} (hs : Accounted ls s) (h : s.step l = some t)
    (hv : Possible (ls ++ [l]) t v) :
    ∃ u before, Possible ls s u ∧ exec LoopState.step u before = some v ∧
      shown LoopState.step LoopState.labels u before = [l] := by
  obtain ⟨server,phases⟩ := v
  obtain rfl : server = t := hv.server
  cases hl : l.isWorkers with
  | false =>
    have hstep : LoopState.step ⟨s,phases⟩ (.outside l) = some ⟨server,phases⟩ := by
      rw [LoopState.step,if_neg (Bool.eq_false_iff.mp hl),h]
      rfl
    exact ⟨_,_,hv.frame h hl,one_step hstep rfl⟩
  | true =>
    obtain ⟨k,w,w',hk,hworkers,hflag,hown⟩ := ownStep_of_step h hl
    have hlt : k < phases.length := by
      have hsize : phases.length = server.workers.length := hv.consistent.size
      rw [hsize,hworkers,List.length_set]
      exact (List.getElem?_eq_some_iff.mp hk).1
    have hw' : server.workers[k]? = some w' := by
      rw [hworkers,List.getElem?_set_self (List.getElem?_eq_some_iff.mp hk).1]
    have hfits := hv.consistent.fits k phases[k] w' (List.getElem?_eq_getElem hlt) hw'
    have hset {phase : WorkerPhase} : (phases.set k phase).set k phases[k] = phases := by
      rw [List.set_set,List.set_getElem_self]
    have hat {phase : WorkerPhase} : (phases.set k phase)[k]? = some phase := List.getElem?_set_self hlt
    have hreceive {job : Job} {queue : List Job} {connSeq : UInt64} (hk : s.workers[k]? =
        some ⟨job::queue,true,connSeq,none⟩) (hdequeue : s.dequeue k = some server)
        (hphase : phases[k] = job.phase) :
        LoopState.step ⟨s,phases.set k .receiving⟩ (.receive k) = some ⟨server,phases⟩ := by
      cases job
      all_goals
        simp only [Job.phase] at hphase
        simp only [LoopState.step,LoopState.receive,LoopState.nextJob,hat,hk,if_true,Option.bind_some,
          List.head?_cons,LoopState.moveTo,hdequeue,Option.map_some]
        rw [← hphase,hset]
    cases hown with
    | refuse =>
      exact ⟨_,_,hv.back .receiving hk hworkers ⟨rfl,rfl⟩ (fun _ => hv.idle),
        one_step (hreceive hk h (hfits.stopped rfl)) rfl⟩
    | take =>
      exact ⟨_,_,hv.back .receiving hk hworkers ⟨rfl,rfl⟩ (fun _ => hv.idle),
        one_step (hreceive hk h (hfits.serving rfl rfl)) rfl⟩
    | @complete queue running connSeq id =>
      have hrunning : running = true := hs.serves k _ hk rfl
      have hstep : LoopState.step ⟨s,phases.set k .serving⟩ (.complete k) =
          some ⟨server,phases.set k .checking⟩ := by
        have hcomplete : s.complete k = some server := h
        simp only [LoopState.step,LoopState.complete,hat,if_true,LoopState.moveTo,hcomplete,Option.map_some,
          List.set_set]
      have hback : Possible ls s ⟨s,phases.set k .serving⟩ :=
        hv.back .serving hk hworkers ⟨hrunning,rfl⟩ (by simp)
      cases hphase : phases[k] with
      | checking =>
        rw [← hphase,List.set_getElem_self] at hstep
        exact ⟨_,_,hback,one_step hstep rfl⟩
      | receiving =>
        -- The worker has looked at the flag since: the signal had not come.
        have hsignal : Label.signal ∉ ls := fun hmem =>
          hv.waits k ((List.getElem?_eq_getElem hlt).trans (congrArg some hphase))
            (completes_snoc.mpr (Or.inr ⟨hmem,rfl⟩))
        have hshutdown : server.shutdown = false := by
          rw [hflag]
          exact Bool.eq_false_iff.mpr fun hflag => hsignal (hs.flag hflag)
        have hcheck : LoopState.step ⟨server,phases.set k .checking⟩ (.check k) = some ⟨server,phases⟩ := by
          simp only [LoopState.step,LoopState.check,hat,if_true,hshutdown,Bool.false_eq_true,if_false,
            LoopState.moveTo,Option.map_some]
          rw [← hphase,hset]
        refine ⟨_,[.complete k,.check k],hback,?_,?_⟩
        · rw [exec,hstep]
          exact (one_step hcheck rfl).1
        · rw [shown,hstep]
          simp [shown,hcheck,LoopState.labels,hshutdown]
      | serving =>
        rw [hphase] at hfits
        cases hfits.2
      | stopped =>
        rw [hphase] at hfits
        rw [hrunning] at hfits
        cases hfits
    | stop hshutdown =>
      have hphase : phases[k] = .stopped := hfits.stopped rfl
      have hstep : LoopState.step ⟨s,phases.set k .checking⟩ (.check k) = some ⟨server,phases⟩ := by
        have hstop : s.stop k = some server := h
        simp only [LoopState.step,LoopState.check,hat,if_true,hshutdown,LoopState.moveTo,hstop,
          Option.map_some]
        rw [← hphase,hset]
      exact ⟨_,_,hv.back .checking hk hworkers ⟨rfl,rfl⟩ (by simp),one_step hstep (if_pos hshutdown)⟩

private def Worker.latestPhase (w : Worker) : WorkerPhase :=
  if w.running then if w.serving.isSome then .serving else .checking else .stopped

private theorem possible_latest (htimely : ¬TakesLateJob ls) :
    Possible ls s ⟨s,s.workers.map Worker.latestPhase⟩ := by
  refine ⟨rfl,⟨List.length_map _,?_⟩,htimely,?_⟩
  · intro k phase w hphase hw
    have hw : s.workers[k]? = some w := hw
    simp only [List.getElem?_map,hw,Option.map_some,Option.some.injEq] at hphase
    subst hphase
    unfold Worker.latestPhase
    obtain ⟨queue,running,connSeq,serving⟩ := w
    cases running <;> cases serving <;> simp [WorkerPhase.Fits]
  · intro k hphase
    simp only [List.getElem?_map,Option.map_eq_some_iff] at hphase
    obtain ⟨w,-,hw⟩ := hphase
    unfold Worker.latestPhase at hw
    split at hw
    · split at hw <;> cases hw
    · cases hw

end Realised

section Runs
variable {numWorkers : Nat} {isTls : List Bool} {ls : List Label} {u : ServerState}

/-- Seen from outside, the workers' loops have exactly the runs of the accept loop's model in which no
worker takes another job after it completed a connection after the signal. -/
theorem workers_refine :
    (∃ before s, Run LoopState.step (fun _ _ => True) (.start numWorkers isTls) before s ∧
      shown LoopState.step LoopState.labels (.start numWorkers isTls) before = ls ∧ s.server = u) ↔
    Run ServerState.step (fun _ _ => True) (.start numWorkers isTls) ls u ∧ ¬TakesLateJob ls := by
  constructor
  · rintro ⟨before,s,run,rfl,rfl⟩
    refine ⟨run_of_exec (run.simulates fun _ _ _ hstep => loopStep_refines hstep),?_⟩
    have htells : s.Tells (shown LoopState.step LoopState.labels (.start numWorkers isTls) before) := by
      apply run.invariant_shown (I := fun ls s => s.Tells ls)
      · exact ⟨by simp,by simp,by simp [TakesLateJob]⟩
      · exact fun _ _ _ _ _ hs hstep => tells_of_step hs hstep
    exact htells.timely
  · rintro ⟨run,htimely⟩
    obtain ⟨before,hexec,hshown⟩ := run.realised (R := Possible) (fun _ hv => start_possible hv)
      (fun _ _ _ _ _ run hstep hv => step_realised (run_accounted run) hstep hv) _ (possible_latest htimely)
    exact ⟨before,_,run_of_exec hexec,hshown,rfl⟩

end Runs

end Rmbtd
