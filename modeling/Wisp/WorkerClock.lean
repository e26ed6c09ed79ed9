import Wisp.KeepAlive
import Wisp.Worker

/-! The worker and its clock. The loop that moves messages leaves open what the clock says, and
the timed one what the queues hold; here they take their steps together, each time with what the
other one knows. Both are at the same place of the same loop all along, so that what is proved of
the timed loop holds of the worker. -/
namespace Wisp

open Transition

namespace Worker

/-- The timed loop is at the same place; while the queues are drained it stands still. -/
def Point.Matches (point : Point) (timed : KeepAlive.Point) : Prop :=
  match point with
  | .top => timed = .top
  | .receive => timed = .receive
  | .online _ | .accept _ | .drainControl | .drainOutbound | .place _ | .release | .gate | .drainEncoded
  | .checkControl | .checkOutbound | .checkEncoded | .look | .beat => timed = .sync
  | .publish => timed = .stamp
  | .keepAlive => timed = .look
  | .expire => ∃ now, timed = .expire now
  | .offline => timed = .offline
  | .ended => timed = .ended

/-- Inside the condition for the heartbeat of a `sync`. -/
def Point.Asking : Point → Prop
  | .checkOutbound | .checkEncoded | .look | .beat => True
  | _ => False

/-- Between what came in and the condition for a `sync`. -/
def Point.Draining : Point → Prop
  | .online _ | .accept _ | .drainControl | .drainOutbound | .place _ | .release | .gate | .drainEncoded => True
  | _ => False

/-- The steps of the timed loop that one step of the loop stands for. -/
def follows (pipe : List Bool) (ready : Bool) (w : Worker) : List KeepAlive.Label :=
  match w.point with
  | .receive => [.loop (ready && !w.inbound.isEmpty)]
  | .top | .publish | .expire | .offline => [.loop false]
  | .checkControl | .checkOutbound | .checkEncoded | .look =>
    if (w.runLoop pipe ready).point = .keepAlive then [.loop false] else []
  | .beat => [.loop true]
  -- the look at the clock, and the heartbeat
  | .keepAlive => if ready then [.loop false,.loop false] else [.loop false]
  | .online _ | .accept _ | .drainControl | .drainOutbound | .place _ | .release | .gate | .drainEncoded | .ended => []

structure InStep (before : Nat) (w : Worker) (k : KeepAlive) : Prop where
  running : k.running = w.running
  isOnline : k.isOnline = w.isOnline
  heartbeats : w.heartbeatsSent = before + k.heartbeats.length
  asking : w.point.Asking → w.isOnline = true
  point : w.point.Matches k.point

variable {config : KeepAlive.Config} {before : Nat} {w : Worker} {k : KeepAlive}

/-- A step that the timed loop has no part in. -/
theorem InStep.stands (inStep : InStep before w k) {w' : Worker} (running : w'.running = w.running)
    (isOnline : w'.isOnline = w.isOnline) (heartbeats : w'.heartbeatsSent = w.heartbeatsSent)
    (asking : w'.point.Asking → w.isOnline = true) (place : w'.point.Matches k.point) : InStep before w' k :=
  ⟨inStep.running.trans running.symm,inStep.isOnline.trans isOnline.symm,heartbeats.trans inStep.heartbeats,
    fun asks => isOnline.trans (asking asks),place⟩

/-- A step inside the condition, or past it to the look at the clock. -/
theorem InStep.passes (inStep : InStep before w k) (sync : k.point = .sync) {w' : Worker} (running : w'.running = w.running)
    (isOnline : w'.isOnline = w.isOnline) (heartbeats : w'.heartbeatsSent = w.heartbeatsSent)
    (place : w'.point = .keepAlive ∨ w'.point.Asking ∧ w.isOnline = true) :
    InStep before w' (run (KeepAlive.step config) (if w'.point = .keepAlive then [.loop false] else []) k).state := by
  split
  next there =>
    have looks : (KeepAlive.loop config false k).state = { k with point := .look } := by
      rw [KeepAlive.loop,sync,Bool.and_false]
      rfl
    dsimp only [run,KeepAlive.step]
    rw [looks]
    refine ⟨inStep.running.trans running.symm,inStep.isOnline.trans isOnline.symm,heartbeats.trans inStep.heartbeats,?_,?_⟩
    · rw [there]
      exact False.elim
    · rw [there]
      rfl
  next elsewhere =>
    obtain ⟨asks,online⟩ := place.resolve_left elsewhere
    refine inStep.stands running isOnline heartbeats (fun _ => online) ?_
    rw [sync]
    cases point : w'.point <;> rw [point] at asks <;> first | rfl | exact asks.elim

/-- Where the queues are drained, the loop does nothing that the clock has to do with. -/
theorem runLoop_drains (pipe : List Bool) (ready : Bool) (draining : w.point.Draining) :
    (w.runLoop pipe ready).running = w.running ∧ (w.runLoop pipe ready).isOnline = w.isOnline ∧
      (w.runLoop pipe ready).heartbeatsSent = w.heartbeatsSent ∧ (w.runLoop pipe ready).point.Matches .sync ∧
      ¬(w.runLoop pipe ready).point.Asking := by
  rw [runLoop]
  cases here : w.point with
  | online reply => exact ⟨rfl,rfl,rfl,rfl,id⟩
  | accept reply =>
    dsimp only [Worker.accept]
    split_ifs <;> exact ⟨rfl,rfl,rfl,rfl,id⟩
  | drainControl => exact ⟨rfl,rfl,rfl,rfl,id⟩
  | drainOutbound =>
    dsimp only
    split_ifs <;> exact ⟨rfl,rfl,rfl,rfl,id⟩
  | place batch =>
    dsimp only [Worker.place]
    split_ifs <;> simp [goto,putBatch,put,hold,Point.Matches,Point.Asking]
  | release =>
    dsimp only
    split_ifs <;> exact ⟨rfl,rfl,rfl,rfl,id⟩
  | gate =>
    dsimp only
    split_ifs <;> exact ⟨rfl,rfl,rfl,rfl,id⟩
  | drainEncoded => exact ⟨rfl,rfl,rfl,rfl,id⟩
  | _ =>
    rw [here] at draining
    exact draining.elim

theorem InStep.drains (inStep : InStep before w k) (pipe : List Bool) (ready : Bool) (draining : w.point.Draining) :
    InStep before (w.runLoop pipe ready) (run (KeepAlive.step config) (w.follows pipe ready) k).state := by
  obtain ⟨running,isOnline,heartbeats,place,early⟩ := runLoop_drains pipe ready draining
  have still : w.follows pipe ready = [] ∧ k.point = .sync := by
    have point := inStep.point
    rw [follows]
    cases here : w.point <;> rw [here] at draining point <;> first | exact ⟨rfl,point⟩ | exact draining.elim
  rw [still.1]
  refine inStep.stands running isOnline heartbeats (fun asks => absurd asks early) ?_
  rwa [still.2]

/-- The condition for a `sync` is looked at part by part. -/
theorem InStep.checks (inStep : InStep before w k) (pipe : List Bool) (ready : Bool)
    (checking : w.point = .checkControl ∨ w.point = .checkOutbound ∨ w.point = .checkEncoded ∨ w.point = .look) :
    InStep before (w.runLoop pipe ready) (run (KeepAlive.step config) (w.follows pipe ready) k).state := by
  have passes := @InStep.passes config before w k inStep
  obtain ⟨-,-,-,asking,point⟩ := inStep
  rw [follows]
  rcases checking with here | here | here | here
  · rw [here] at point ⊢
    dsimp only
    rw [Worker.runLoop,here]
    dsimp only
    split
    next free => exact passes point rfl rfl rfl (.inr ⟨trivial,free.1⟩)
    · exact passes point rfl rfl rfl (.inl rfl)
  all_goals
    rw [here] at point asking ⊢
    dsimp only
    rw [Worker.runLoop,here]
    dsimp only
    split
    · exact passes point rfl rfl rfl (.inr ⟨trivial,asking trivial⟩)
    · exact passes point rfl rfl rfl (.inl rfl)

/-- The heartbeat of a `sync`, and that of a turn in which one is due. -/
theorem InStep.beats (inStep : InStep before w k) (pipe : List Bool) {point : Point} {k' : KeepAlive}
    (running : k'.running = k.running) (isOnline : k'.isOnline = k.isOnline)
    (beats : k'.heartbeats = k.heartbeats ++ [k.clock]) (asking : ¬point.Asking) (place : point.Matches k'.point) :
    InStep before ((w.sendHeartbeat pipe).goto point) k' := by
  refine ⟨running.trans inStep.running,isOnline.trans inStep.isOnline,?_,fun asks => absurd asks asking,place⟩
  change w.heartbeatsSent + 1 = _
  rw [inStep.heartbeats,beats,List.length_append]
  rfl

theorem InStep.receives (inStep : InStep before w k) (pipe : List Bool) (ready : Bool) (here : w.point = .receive) :
    InStep before (w.runLoop pipe ready) (run (KeepAlive.step config) (w.follows pipe ready) k).state := by
  obtain ⟨running,isOnline,heartbeats,-,point⟩ := inStep
  rw [here] at point
  rw [follows,Worker.runLoop,here]
  simp only [run,KeepAlive.step,KeepAlive.loop,show k.point = .receive from point]
  cases arrived : w.inbound with
  | nil =>
    rw [List.isEmpty_nil,Bool.not_true,Bool.and_false]
    exact ⟨running,isOnline,heartbeats,False.elim,rfl⟩
  | cons reply rest =>
    rw [List.isEmpty_cons,Bool.not_false,Bool.and_true]
    dsimp only
    split
    · refine ⟨running,rfl,heartbeats,?_,?_⟩ <;> dsimp only <;> split <;> first | exact False.elim | rfl
    · exact ⟨running,isOnline,heartbeats,False.elim,rfl⟩

/-- A `sync` gets this far only online. -/
theorem InStep.asks (inStep : InStep before w k) (pipe : List Bool) (ready : Bool) (here : w.point = .beat) :
    InStep before (w.runLoop pipe ready) (run (KeepAlive.step config) (w.follows pipe ready) k).state := by
  have point := inStep.point
  have asking := inStep.asking
  rw [here] at point asking
  have online : k.isOnline = true := inStep.isOnline.trans (asking trivial)
  have sends : (KeepAlive.loop config true k).state =
      { k with heartbeats := k.heartbeats ++ [k.clock], point := .stamp } := by
    rw [KeepAlive.loop,show k.point = .sync from point,online]
    rfl
  rw [follows,Worker.runLoop,here]
  dsimp only [run,KeepAlive.step]
  rw [sends]
  exact inStep.beats pipe rfl rfl rfl id rfl

theorem InStep.looks (inStep : InStep before w k) (pipe : List Bool) {ready : Bool} (here : w.point = .keepAlive)
    (due : ready = decide (k.clock - k.lastHeartbeat > config.heartbeatInterval)) :
    InStep before (w.runLoop pipe ready) (run (KeepAlive.step config) (w.follows pipe ready) k).state := by
  have point := inStep.point
  rw [here] at point
  rw [follows,Worker.runLoop,here]
  cases ready with
  | true =>
    have late : k.clock - k.lastHeartbeat > config.heartbeatInterval := of_decide_eq_true due.symm
    simp only [run,KeepAlive.step,KeepAlive.loop,show k.point = .look from point,late,if_true]
    exact inStep.beats pipe rfl rfl rfl id ⟨_,rfl⟩
  | false =>
    have early : ¬k.clock - k.lastHeartbeat > config.heartbeatInterval := of_decide_eq_false due.symm
    simp only [run,KeepAlive.step,KeepAlive.loop,show k.point = .look from point,early,if_false,Bool.false_eq_true]
    exact ⟨inStep.running,inStep.isOnline,inStep.heartbeats,False.elim,⟨_,rfl⟩⟩

theorem InStep.expires (inStep : InStep before w k) (pipe : List Bool) {ready : Bool} (here : w.point = .expire)
    (silent : ∀ now, k.point = .expire now → ready = decide (now - k.lastRxTime > config.serverTimeout)) :
    InStep before (w.runLoop pipe ready) (run (KeepAlive.step config) (w.follows pipe ready) k).state := by
  obtain ⟨running,isOnline,heartbeats,-,point⟩ := inStep
  rw [here] at point
  obtain ⟨now,place⟩ := point
  have read := silent now place
  rw [follows,Worker.runLoop,here]
  simp only [run,KeepAlive.step,KeepAlive.loop,place,isOnline,← read,Bool.and_eq_true]
  split
  · exact ⟨running,rfl,heartbeats,False.elim,rfl⟩
  · exact ⟨running,rfl,heartbeats,False.elim,rfl⟩

/-- One case for each point of the loop. -/
theorem InStep.runLoop (inStep : InStep before w k) (pipe : List Bool) (ready : Bool)
    (due : w.point = .keepAlive → ready = decide (k.clock - k.lastHeartbeat > config.heartbeatInterval))
    (silent : ∀ now, w.point = .expire → k.point = .expire now →
      ready = decide (now - k.lastRxTime > config.serverTimeout)) :
    InStep before (w.runLoop pipe ready) (run (KeepAlive.step config) (w.follows pipe ready) k).state := by
  have point := inStep.point
  cases here : w.point with
  | online | accept | drainControl | drainOutbound | place | release | gate | drainEncoded =>
    apply inStep.drains
    rw [here]
    trivial
  | checkControl | checkOutbound | checkEncoded | look =>
    apply inStep.checks
    simp [here]
  | receive => exact inStep.receives pipe ready here
  | beat => exact inStep.asks pipe ready here
  | keepAlive => exact inStep.looks pipe here (due here)
  | expire => exact inStep.expires pipe here fun now => silent now here
  | top =>
    rw [here] at point
    rw [follows,Worker.runLoop,here]
    simp only [run,KeepAlive.step,KeepAlive.loop,show k.point = .top from point,inStep.running]
    split
    · exact ⟨rfl,inStep.isOnline,inStep.heartbeats,False.elim,rfl⟩
    · exact ⟨rfl,inStep.isOnline,inStep.heartbeats,False.elim,rfl⟩
  | publish =>
    rw [here] at point
    rw [follows,Worker.runLoop,here]
    simp only [run,KeepAlive.step,KeepAlive.loop,show k.point = .stamp from point]
    exact ⟨inStep.running,inStep.isOnline,inStep.heartbeats,False.elim,rfl⟩
  | offline =>
    rw [here] at point
    rw [follows,Worker.runLoop,here]
    simp only [run,KeepAlive.step,KeepAlive.loop,show k.point = .offline from point]
    exact ⟨inStep.running,inStep.isOnline,inStep.heartbeats,False.elim,rfl⟩
  | ended =>
    have same : w.runLoop pipe ready = w := by rw [Worker.runLoop,here]
    rw [follows,here,same]
    exact inStep

/-- What other threads and the broker do. -/
def Label.Apart : Label → Prop
  | .loop .. | .stop | .start => False
  | _ => True

theorem step_apart {label : Label} (apart : label.Apart) :
    (step label w).state.running = w.running ∧ (step label w).state.isOnline = w.isOnline ∧
      (step label w).state.heartbeatsSent = w.heartbeatsSent ∧ (step label w).state.point = w.point := by
  have syncs {label : Label} (syncs : label.Syncs) : (step label w).state.running = w.running ∧
      (step label w).state.isOnline = w.isOnline ∧ (step label w).state.heartbeatsSent = w.heartbeatsSent ∧
      (step label w).state.point = w.point := by
    obtain ⟨_,_,_,same,-⟩ := step_syncs w syncs
    rw [same]
    exact ⟨rfl,rfl,rfl,rfl⟩
  cases label with
  | writeControlMessage env | writeMessage env | writeEncoded env =>
    simp only [step,writeControlMessage,writeMessage,writeEncoded,enqueue]
    split <;> exact ⟨rfl,rfl,rfl,rfl⟩
  | process =>
    rw [step,process]
    split <;> exact ⟨rfl,rfl,rfl,rfl⟩
  | notify reply =>
    rw [step]
    split <;> exact ⟨rfl,rfl,rfl,rfl⟩
  | lose position | loseReply position => exact ⟨rfl,rfl,rfl,rfl⟩
  | call | request | await expired => exact syncs trivial
  | loop | stop | start => exact apart.elim

theorem InStep.apart (inStep : InStep before w k) {label : Label} (apart : label.Apart) :
    InStep before (step label w).state k := by
  obtain ⟨running,isOnline,heartbeats,point⟩ := @step_apart w label apart
  exact inStep.stands running isOnline heartbeats (point ▸ inStep.asking) (point ▸ inStep.point)

theorem follows_loops (pipe : List Bool) (ready : Bool) :
    ∀ label ∈ w.follows pipe ready, ∃ ready, label = .loop ready := by
  unfold follows
  split
  · exact fun label member => ⟨_,List.mem_singleton.mp member⟩
  all_goals first | (simp; done) | (split <;> simp)

/-- The loop goes offline only where it has found the broker silent. -/
theorem runLoop_online (pipe : List Bool) {ready : Bool} (online : w.isOnline = true)
    (heard : w.point = .expire → ready = false) : (w.runLoop pipe ready).isOnline = true := by
  cases here : w.point with
  | online | accept | drainControl | drainOutbound | place | release | gate | drainEncoded =>
    have draining : w.point.Draining := by
      rw [here]
      trivial
    rw [(runLoop_drains pipe ready draining).2.1]
    exact online
  | expire =>
    rw [runLoop,here,heard here]
    simp [goto,online]
  | receive =>
    rw [runLoop,here]
    dsimp only
    split
    · exact online
    · split
      · rfl
      · exact online
  | keepAlive =>
    rw [runLoop,here]
    cases ready <;> exact online
  | _ =>
    rw [runLoop,here]
    dsimp only
    first | exact online | (split <;> exact online)

end Worker

/-- The worker with the clock its loop reads, and the heartbeats of its loops before this one. -/
structure ClockedWorker where
  worker : Worker
  timed : KeepAlive
  before : Nat := 0

namespace ClockedWorker

inductive Label where
  | pass (ms : Nat)
  | act (label : Worker.Label)

def start (config : KeepAlive.Config) (clock : Nat) : ClockedWorker := ⟨.initial,.start config clock,0⟩

/-- What the poll says, or the clock where the loop looks at that. -/
def reads (config : KeepAlive.Config) (ready : Bool) (s : ClockedWorker) : Bool :=
  match s.worker.point,s.timed.point with
  | .keepAlive,_ => decide (s.timed.clock - s.timed.lastHeartbeat > config.heartbeatInterval)
  | .expire,.expire now => decide (now - s.timed.lastRxTime > config.serverTimeout)
  | _,_ => ready

def step (config : KeepAlive.Config) : Label → ClockedWorker → Outcome ClockedWorker KeepAlive.Status
  | .pass ms,s => ⟨{ s with timed := (KeepAlive.step config (.pass ms) s.timed).state },[]⟩
  | .act (.loop pipe ready),s =>
    let ready := s.reads config ready
    let next := run (KeepAlive.step config) (s.worker.follows pipe ready) s.timed
    ⟨{ s with worker := s.worker.runLoop pipe ready, timed := next.state },next.events⟩
  | .act .stop,s =>
    ⟨{ s with worker := (Worker.step .stop s.worker).state, timed := (KeepAlive.step config .stop s.timed).state },[]⟩
  | .act .start,s =>
    if s.worker.point = .ended then ⟨⟨s.worker.restart,.start config s.timed.clock,s.worker.heartbeatsSent⟩,[]⟩ else ⟨s,[]⟩
  | .act label,s => ⟨{ s with worker := (Worker.step label s.worker).state },[]⟩

variable {config : KeepAlive.Config} {s : ClockedWorker}

/-- The two loops agree on where they are, on the connection and on the heartbeats sent. -/
def InStep (s : ClockedWorker) : Prop := s.worker.InStep s.before s.timed

theorem step_loop_inStep (inStep : s.InStep) (pipe : List Bool) (ready : Bool) :
    (step config (.act (.loop pipe ready)) s).state.InStep := by
  refine Worker.InStep.runLoop inStep pipe (s.reads config ready) (fun here => ?_) fun now here there => ?_
  · rw [reads,here]
  · rw [reads,here,there]

theorem step_inStep (inStep : s.InStep) (label : Label) : (step config label s).state.InStep := by
  cases label with
  | pass ms => exact ⟨inStep.running,inStep.isOnline,inStep.heartbeats,inStep.asking,inStep.point⟩
  | act label =>
    cases label with
    | loop pipe ready => exact step_loop_inStep inStep pipe ready
    | stop => exact ⟨rfl,inStep.isOnline,inStep.heartbeats,inStep.asking,inStep.point⟩
    | start =>
      rw [step]
      split
      next ended =>
        unfold InStep
        rw [Worker.restart,if_pos ended]
        exact ⟨rfl,rfl,rfl,False.elim,rfl⟩
      · exact inStep
    | _ => exact Worker.InStep.apart inStep trivial

/-- Each of the two takes the steps of its own model. -/
structure Runs (config : KeepAlive.Config) (s : ClockedWorker) : Prop where
  worker : ∃ labels, s.worker = (run Worker.step labels .initial).state
  timed : ∃ begun labels, s.timed = (run (KeepAlive.step config) labels (.start config begun)).state
  inStep : s.InStep

theorem step_runs (runs : Runs config s) (label : Label) : Runs config (step config label s).state := by
  have inStep := @step_inStep config s runs.inStep label
  obtain ⟨⟨labels,worker⟩,⟨begun,ticks,timed⟩,-⟩ := runs
  have works (label : Worker.Label) : ∃ labels, (Worker.step label s.worker).state = (run Worker.step labels .initial).state :=
    ⟨labels ++ [label],by rw [run_append,worker]; rfl⟩
  have ticking (more : List KeepAlive.Label) : ∃ begun labels, (run (KeepAlive.step config) more s.timed).state =
      (run (KeepAlive.step config) labels (.start config begun)).state :=
    ⟨begun,ticks ++ more,by rw [run_append,timed]⟩
  cases label with
  | pass ms => exact ⟨⟨labels,worker⟩,ticking [.pass ms],inStep⟩
  | act label =>
    cases label with
    | loop pipe ready => exact ⟨works (.loop pipe _),ticking _,inStep⟩
    | stop => exact ⟨works .stop,ticking [.stop],inStep⟩
    | start =>
      rw [step] at inStep ⊢
      split
      next ended =>
        rw [if_pos ended] at inStep
        exact ⟨works .start,⟨s.timed.clock,[],rfl⟩,inStep⟩
      next on =>
        rw [if_neg on] at inStep
        exact ⟨⟨labels,worker⟩,⟨begun,ticks,timed⟩,inStep⟩
    | _ => exact ⟨works _,⟨begun,ticks,timed⟩,inStep⟩

/-- The worker and the timed loop each run as their own models say, and they stay together. -/
theorem run_runs (config : KeepAlive.Config) (clock : Nat) (schedule : List Label) :
    Runs config (run (step config) schedule (start config clock)).state :=
  run_preserves (step config) (Runs config) (fun _ label runs => step_runs runs label) schedule _
    ⟨⟨[],rfl⟩,⟨clock,[],rfl⟩,rfl,rfl,rfl,False.elim,rfl⟩

open KeepAlive (Pacing Brisk Answered period)

variable {turn : Nat}

/-- A step of the loop leaves the pacing alone, whatever the queues hold. -/
theorem follows_paced (pacing : Pacing config turn s.timed) (pipe : List Bool) (ready : Bool) :
    Pacing config turn (run (KeepAlive.step config) (s.worker.follows pipe ready) s.timed).state := by
  have loops : Always (KeepAlive.step config) (fun _ label => ∃ ready, label = .loop ready) (s.worker.follows pipe ready) s.timed :=
    Always.of_labels _ (s.worker.follows_loops pipe ready) _
  refine run_invariant (KeepAlive.step config) _ ?_ _ _ loops pacing
  rintro k label ⟨ready,rfl⟩ pacing
  exact KeepAlive.loop_paced pacing ready

theorem step_paced {label : Label} (brisk : Brisk turn (step config label s).state.timed) (pacing : Pacing config turn s.timed) :
    Pacing config turn (step config label s).state.timed := by
  cases label with
  | pass ms => exact KeepAlive.step_paced brisk pacing
  | act label =>
    cases label with
    | loop pipe ready => exact follows_paced pacing pipe _
    | stop => exact KeepAlive.step_paced brisk pacing
    | start =>
      rw [step]
      split
      · exact KeepAlive.start_paced config turn _
      · exact pacing
    | _ => exact pacing

/-- A step along which something came in a short time ago does not end the connection. -/
theorem step_online (inStep : s.InStep) (on : s.worker.point ≠ .ended) (online : s.worker.isOnline = true)
    (lively : ∀ now, s.timed.point = .expire now → now ≤ s.timed.lastRxTime + config.serverTimeout) (label : Label) :
    (step config label s).state.worker.isOnline = true := by
  cases label with
  | pass ms => exact online
  | act label =>
    cases label with
    | loop pipe ready =>
      refine Worker.runLoop_online pipe online fun here => ?_
      have point := inStep.point
      rw [here] at point
      obtain ⟨now,there⟩ := point
      have soon := lively now there
      rw [reads,here,there]
      exact decide_eq_false (by omega)
    | start =>
      rw [step,if_neg on]
      exact online
    -- the timed loop stands still
    | _ => exact (step_inStep inStep _).isOnline.symm.trans (inStep.isOnline.trans online)

/-- As long as the heartbeats are answered often enough for the timeout, no step of the worker
takes it offline, whatever its queues hold and whoever calls it meanwhile. -/
theorem worker_stays_online (config : KeepAlive.Config) (turn delay lost clock : Nat) (schedule : List Label)
    (tolerable : delay + (lost + 1) * period config turn ≤ config.serverTimeout)
    (healthy : Always (step config) (fun s label =>
      Brisk turn (step config label s).state.timed ∧ Answered delay lost s.timed) schedule (start config clock)) :
    Always (step config) (fun s label => s.worker.point ≠ .ended → s.worker.isOnline = true →
      (step config label s).state.worker.isOnline = true) schedule (start config clock) := by
  have start : (start config clock).InStep ∧ Pacing config turn (start config clock).timed :=
    ⟨⟨rfl,rfl,rfl,False.elim,rfl⟩,KeepAlive.start_paced config turn clock⟩
  generalize ClockedWorker.start config clock = s at healthy start ⊢
  induction schedule generalizing s with
  | nil => trivial
  | cons label schedule ih =>
    obtain ⟨⟨brisk,answered⟩,later⟩ := healthy
    obtain ⟨inStep,pacing⟩ := start
    refine ⟨fun on online => step_online inStep on online (fun now there => ?_) label,
      ih _ later ⟨step_inStep inStep label,step_paced brisk pacing⟩⟩
    have recent := pacing.lively (by rw [there]; nofun) answered
    have placed := pacing.placed
    rw [there] at placed
    have read := placed.2.2
    omega

end ClockedWorker

end Wisp
