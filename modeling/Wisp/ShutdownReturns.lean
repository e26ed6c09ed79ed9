import Wisp.Shutdown

/-! Every `shutdown` returns. What the threads are in the middle of is work that each move
lessens; where nobody can move no call is left, since a callback's thread only ever waits for
an instance younger than its own. -/
namespace Wisp

open Transition

namespace Lifecycle

/-- A step of a thread that goes on with what it is in the middle of: a call or its loop. -/
def Label.goesOn : Label → Bool
  | .release _ | .teardown _ | .processingLoop _ => true
  | _ => false

/-- The loop has something to do: it is not over, and does not wait for a message. -/
def Instance.busy (inst : Instance) : Bool :=
  match inst.point with
  | .popping => !inst.queue.queue.isEmpty || inst.queue.stop
  | .finished => false
  | _ => true

/-- The step takes its thread on. It does not if the thread has to wait, or has nothing to go on with. -/
def Label.moves (s : Lifecycle) : Label → Bool
  | .release thread =>
    match s.calls thread with
    | some (.holding _) => true
    | _ => false
  | .teardown thread =>
    match s.calls thread with
    | some (.stopping id .join _) =>
      (s.instances id).joined || decide (thread ≠ .processing id ∧ (s.instances id).point = .finished)
    | some (.stopping _ _ _) => true
    | _ => false
  | .processingLoop id => decide (id < s.created ∧ s.calls (.processing id) = none) && (s.instances id).busy
  | _ => false

/-- How many moves a call has left; the last owner of an instance has its destructor to run. -/
def Call.left : Option Call → Nat
  | none => 0
  | some (.stopping _ .worker true) => 1
  | some (.stopping _ .join true) => 2
  | some (.stopping _ .stop true) => 3
  | some (.holding _) => 4
  | some (.stopping _ .worker false) => 4
  | some (.stopping _ .join false) => 5
  | some (.stopping _ .stop false) => 6

/-- How many moves a loop has left if nothing more comes in. -/
def Instance.left (inst : Instance) : Nat :=
  8 * inst.queue.queue.length + match inst.point with
    | .finished => 0
    | .popping => 1
    | .popped _ => 8
    | .admitted _ none => 7
    | .handling _ none => 6
    | .draining => 5
    | .admitted _ (some rest) => 4 * rest.length + 5
    | .handling _ (some rest) => 4 * rest.length + 4
    | .batch rest => 4 * rest.length + 2

theorem advance_left (inst : Instance) : inst.advance.1.left + (if inst.busy then 1 else 0) ≤ inst.left := by
  unfold Instance.advance Instance.busy
  split
  next popping =>
    split
    next env queue queued =>
      simp only [Instance.left,popping,queued,List.length_cons,List.isEmpty_cons,Bool.not_false,Bool.true_or,if_true]
      omega
    next empty =>
      split
      next stopped => simp [Instance.left,popping,empty,stopped]
      next waits => simp [popping,empty,waits]
  next env popped =>
    cases inst.running <;> simp [Instance.left,popped]
  next env rest admitted =>
    cases rest <;> simp only [Instance.left,admitted,if_true] <;> omega
  next env handling =>
    simp only [Instance.left,handling,if_true]
    omega
  next env rest handling =>
    simp only [Instance.left,handling,if_true]
    omega
  next draining =>
    simp only [Instance.left,draining,List.length_nil,if_true]
    omega
  next batch =>
    simp only [Instance.left,batch,List.length_nil,if_true]
    omega
  next env rest batch =>
    split <;> simp only [Instance.left,batch,List.length_cons,if_true] <;> omega
  next finished => simp [finished]

/-- How many moves are left of what these threads and the loops are in the middle of. -/
def work (threads : List Thread) (s : Lifecycle) : Nat :=
  tally (fun thread => Call.left (s.calls thread)) threads + tally (fun id => (s.instances id).left) (List.range s.created)

/-- No other thread is in a call. -/
def Complete (threads : List Thread) (s : Lifecycle) : Prop := ∀ thread, s.calls thread ≠ none → thread ∈ threads

/-- The thread whose call a step is. -/
def Label.caller : Label → Option Thread
  | .init thread | .shutdown thread | .getInstance thread | .release thread | .teardown thread => some thread
  | .receive _ _ | .processingLoop _ => none

def callers (schedule : List Label) : List Thread := (schedule.filterMap Label.caller).dedup

section

variable {threads : List Thread} {s : Lifecycle} {thread : Thread}

theorem step_calls {label : Label} (apart : label.caller ≠ some thread) :
    (step label s).state.calls thread = s.calls thread := by
  have entered {caller : Thread} (different : some caller ≠ some thread) (call : Option Call) (s : Lifecycle) :
      (s.enter caller call).calls thread = s.calls thread :=
    (enter_calls s caller call thread).trans (if_neg fun same => different (congrArg some same.symm))
  cases label with
  | init caller =>
    rw [step]
    unfold init
    split <;> rfl
  | shutdown caller =>
    rw [step]
    unfold shutdown
    split
    · split
      · rfl
      · exact entered apart _ _
    · rfl
  | getInstance caller =>
    rw [step]
    unfold getInstance
    split
    · exact entered apart _ _
    · rfl
  | release caller =>
    rw [step]
    unfold release
    split
    · exact entered apart _ _
    · rfl
  | teardown caller =>
    rw [step]
    unfold teardown
    split
    · exact entered apart _ _
    · split
      · exact entered apart _ _
      · split
        · rfl
        · split
          · exact entered apart _ _
          · rfl
    · exact entered apart _ _
    · exact entered apart _ _
    · rfl
  | receive id env =>
    rw [step]
    unfold receive
    split <;> rfl
  | processingLoop id =>
    rw [step]
    unfold processingLoop
    split <;> rfl

/-- Only the threads of a schedule's calls are in one. -/
theorem run_complete (schedule : List Label) : Complete (callers schedule) (run step schedule initial).state := by
  have others (schedule : List Label) (s : Lifecycle) (thread : Thread) (apart : thread ∉ schedule.filterMap Label.caller) :
      (run step schedule s).state.calls thread = s.calls thread := by
    induction schedule generalizing s with
    | nil => rfl
    | cons label rest ih =>
      rw [List.mem_filterMap] at apart
      refine (ih _ fun member => apart ?_).trans (step_calls fun here => apart ⟨label,List.mem_cons_self,here⟩)
      obtain ⟨later,within,here⟩ := List.mem_filterMap.mp member
      exact ⟨later,List.mem_cons_of_mem _ within,here⟩
  intro thread busy
  by_contra apart
  rw [callers,List.mem_dedup] at apart
  exact busy (others schedule initial thread apart)

/-- A thread in no call has none to go on with. -/
theorem step_idle {label : Label} (goesOn : label.goesOn = true) (idle : s.calls thread = none) :
    (step label s).state.calls thread = none := by
  by_cases here : label.caller = some thread
  · cases label with
    | release caller =>
      cases here
      rw [step,release,idle]
      exact idle
    | teardown caller =>
      cases here
      rw [step,teardown,idle]
      exact idle
    | init _ | shutdown _ | getInstance _ => cases goesOn
    | receive _ _ | processingLoop _ => cases here
  · exact (step_calls here).trans idle

theorem Complete.step (complete : Complete threads s) {label : Label} (goesOn : label.goesOn = true) :
    Complete threads (step label s).state :=
  fun thread busy => complete thread fun idle => busy (step_idle goesOn idle)

/-- One thread goes on with its call, and no loop is touched. -/
theorem work_enters (nodup : threads.Nodup) (complete : Complete threads s) {call : Option Call} (s' : Lifecycle)
    (busy : s.calls thread ≠ none) (same : s'.calls = s.calls) (created : s'.created = s.created)
    (loops : ∀ id, (s'.instances id).left = (s.instances id).left)
    (less : Call.left call + 1 ≤ Call.left (s.calls thread)) :
    work threads (s'.enter thread call) + 1 ≤ work threads s := by
  have change := tally_update (fun thread => Call.left (s.calls thread))
    (fun other => Call.left ((s'.enter thread call).calls other)) nodup (complete thread busy) fun other apart => by
      rw [enter_calls,if_neg apart,same]
  have here : (s'.enter thread call).calls thread = call := (enter_calls s' thread call thread).trans (if_pos rfl)
  have kept : tally (fun id => (s'.instances id).left) (List.range s'.created) =
      tally (fun id => (s.instances id).left) (List.range s.created) := by
    rw [created]
    exact tally_congr fun id _ => loops id
  simp only [work,enter_instances,enter_created,here] at change ⊢
  omega

theorem update_left {id : Nat} {inst : Instance} (same : inst.left = (s.instances id).left) (other : Nat) :
    ((s.update id inst).instances other).left = (s.instances other).left := by
  rw [update_instances]
  split
  next here =>
    subst here
    exact same
  · rfl

theorem drop_work (nodup : threads.Nodup) (complete : Complete threads s) {id : Nat} (owner : Owner)
    (more : Call.left (s.calls thread) = 4) : work threads (s.drop thread id owner) + 1 ≤ work threads s := by
  refine work_enters nodup complete (s.update id ((s.instances id).without owner)) (fun idle => ?_) rfl rfl (update_left rfl) ?_
  · rw [idle] at more
    cases more
  · rw [more]
    split <;> simp [Call.left]

theorem release_work (nodup : threads.Nodup) (complete : Complete threads s) (thread : Thread) :
    work threads (release thread s) + (if (Label.release thread).moves s then 1 else 0) ≤ work threads s := by
  cases call : s.calls thread with
  | none => simp [release,Label.moves,call]
  | some held =>
    cases held with
    | holding id =>
      simp only [release,Label.moves,call,if_true]
      apply drop_work nodup complete
      rw [call,Call.left]
    | stopping id stage destructor => simp [release,Label.moves,call]

theorem teardown_work (nodup : threads.Nodup) (complete : Complete threads s) (thread : Thread) :
    work threads (teardown thread s).state + (if (Label.teardown thread).moves s then 1 else 0) ≤ work threads s := by
  cases call : s.calls thread with
  | none => simp [teardown,Label.moves,call]
  | some held =>
    have busy : s.calls thread ≠ none := call ▸ Option.some_ne_none held
    cases held with
    | holding id => simp [teardown,Label.moves,call]
    | stopping id stage destructor =>
      cases stage with
      | stop =>
        simp only [teardown,Label.moves,call,if_true]
        apply work_enters nodup complete (s.update id (s.instances id).halted) busy rfl rfl (update_left rfl)
        rw [call]
        cases destructor <;> simp [Call.left]
      | join =>
        have less : Call.left (some (.stopping id .worker destructor)) + 1 ≤ Call.left (s.calls thread) := by
          rw [call]
          cases destructor <;> simp [Call.left]
        simp only [teardown,Label.moves,call]
        split
        next joined =>
          simp only [joined,Bool.true_or,if_true]
          exact work_enters nodup complete s busy rfl rfl (fun _ => rfl) less
        next joinable =>
          split
          next self => simp [joinable,self]
          next other =>
            split
            next finished =>
              simp only [finished,other,ne_eq,not_false_eq_true,and_self,decide_true,Bool.or_true,if_true]
              exact work_enters nodup complete (s.update id (s.instances id).afterJoin) busy rfl rfl (update_left rfl) less
            next waits => simp [joinable,waits]
      | worker =>
        cases destructor with
        | false =>
          simp only [teardown,Label.moves,call,if_true]
          apply drop_work nodup complete
          rw [call,Call.left]
        | true =>
          simp only [teardown,Label.moves,call,if_true]
          apply work_enters nodup complete s busy rfl rfl (fun _ => rfl)
          rw [call]
          simp [Call.left]

theorem processingLoop_work (threads : List Thread) (s : Lifecycle) (id : Nat) :
    work threads (processingLoop id s).state + (if (Label.processingLoop id).moves s then 1 else 0) ≤ work threads s := by
  unfold processingLoop
  split
  next runs =>
    have change := tally_update (fun id => (s.instances id).left)
      (fun other => ((s.update id (s.instances id).advance.1).instances other).left) List.nodup_range
      (List.mem_range.mpr runs.1) fun other apart => by rw [update_instances,if_neg apart]
    have less := advance_left (s.instances id)
    rw [update_instances,if_pos rfl] at change
    have moves : (Label.processingLoop id).moves s = (s.instances id).busy := by simp [Label.moves,runs]
    simp only [work,moves,update_created,update_calls]
    omega
  next waits => simp [Label.moves,waits]

/-- A step of a thread that goes on takes back no work, and a move does some. -/
theorem step_work (nodup : threads.Nodup) (s : Lifecycle) (label : Label) (goesOn : label.goesOn = true)
    (complete : Complete threads s) : Complete threads (step label s).state ∧
      work threads (step label s).state + (if label.moves s then 1 else 0) ≤ work threads s := by
  refine ⟨complete.step goesOn,?_⟩
  cases label with
  | init _ | shutdown _ | getInstance _ | receive _ _ => cases goesOn
  | release thread => exact release_work nodup complete thread
  | teardown thread => exact teardown_work nodup complete thread
  | processingLoop id => exact processingLoop_work threads s id

theorem goesOn_of_moves (s : Lifecycle) (label : Label) (moves : label.moves s = true) : label.goesOn = true := by
  cases label with
  | init _ | shutdown _ | getInstance _ | receive _ _ => cases moves
  | release _ | teardown _ | processingLoop _ => rfl

/-- Nobody can go on. -/
def Rests (s : Lifecycle) : Prop := ∀ label : Label, label.moves s = false

/-- At rest a thread can at most wait for a loop that is not over. -/
theorem Rests.waiting (rests : Rests s) (sound : Sound s) {call : Call} (busy : s.calls thread = some call) :
    ∃ id, call = .stopping id .join false ∧ (s.instances id).point ≠ .finished := by
  have released := rests (.release thread)
  have torn := rests (.teardown thread)
  simp only [Label.moves,busy] at released torn
  cases call with
  | holding id => cases released
  | stopping id stage destructor =>
    cases stage with
    | stop | worker => cases torn
    | join =>
      simp only [Bool.or_eq_false_iff,decide_eq_false_iff_not] at torn
      cases destructor with
      | true =>
        rw [(sound.destroying thread id .join busy).2.1] at torn
        cases torn.1
      | false =>
        refine ⟨id,rfl,fun finished => torn.2 ⟨?_,finished⟩⟩
        rintro rfl
        exact Nat.lt_irrefl id (sound.rising id id .join busy)

/-- And such a loop is kept up by a call of its own, of a younger instance. -/
theorem Rests.younger (rests : Rests s) (sound : Sound s) {id : Nat} (busy : s.calls thread = some (.stopping id .join false))
    (unfinished : (s.instances id).point ≠ .finished) :
    ∃ target, id < target ∧ s.calls (.processing id) = some (.stopping target .join false) ∧
      (s.instances target).point ≠ .finished := by
  have known := (sound.known busy).1
  have stopped := sound.stopped thread id .join false busy (by rintro ⟨⟩)
  have active : (s.instances id).busy = true := by
    unfold Instance.busy
    split
    · simp [stopped]
    next finished => exact absurd finished unfinished
    · rfl
  have held : s.calls (.processing id) ≠ none := by
    intro free
    have loops := rests (.processingLoop id)
    simp [Label.moves,known,free,active] at loops
  obtain ⟨call,here⟩ := Option.ne_none_iff_exists'.mp held
  obtain ⟨target,rfl,runs⟩ := rests.waiting sound here
  exact ⟨target,sound.rising id target .join here,here,runs⟩

/-- So nobody waits: the calls that would keep each other up are of ever younger instances. -/
theorem Rests.idle (rests : Rests s) (sound : Sound s) (thread : Thread) : s.calls thread = none := by
  have never (bound : Nat) {thread : Thread} {id : Nat} (busy : s.calls thread = some (.stopping id .join false))
      (unfinished : (s.instances id).point ≠ .finished) (near : s.created ≤ id + bound) : False := by
    induction bound generalizing thread id with
    | zero =>
      have known := (sound.known busy).1
      omega
    | succ bound ih =>
      obtain ⟨target,above,held,runs⟩ := rests.younger sound busy unfinished
      exact ih held runs (by omega)
  cases busy : s.calls thread with
  | none => rfl
  | some call =>
    obtain ⟨id,rfl,unfinished⟩ := rests.waiting sound busy
    exact (never s.created busy unfinished (Nat.le_add_left _ _)).elim

/-- A thread leaves its `shutdown` with the report that it is done. -/
theorem step_inside {id : Nat} {stage : Stage} (label : Label) (inside : s.calls thread = some (.stopping id stage false)) :
    (∃ stage, (step label s).state.calls thread = some (.stopping id stage false)) ∨
      .tornDown thread id ∈ (step label s).events := by
  have taken : s.free thread = false := by
    rw [← Bool.not_eq_true]
    intro free
    rw [free_call free] at inside
    cases inside
  have entered (next : Stage) (s : Lifecycle) :
      ∃ stage, (s.enter thread (some (.stopping id next false))).calls thread = some (.stopping id stage false) :=
    ⟨next,(enter_calls s thread _ thread).trans (if_pos rfl)⟩
  by_cases here : label.caller = some thread
  · cases label with
    | init caller | shutdown caller | getInstance caller | release caller =>
      cases here
      refine .inl ⟨stage,?_⟩
      simp [step,init,shutdown,getInstance,release,taken,inside]
    | teardown caller =>
      cases here
      rw [step,teardown,inside]
      cases stage with
      | stop => exact .inl (entered _ _)
      | join =>
        dsimp only
        split
        · exact .inl (entered _ _)
        · split
          · exact .inl ⟨.join,inside⟩
          · split
            · exact .inl (entered _ _)
            · exact .inl ⟨.join,inside⟩
      | worker => exact .inr (List.mem_singleton_self _)
    | receive _ _ | processingLoop _ => cases here
  · exact .inl ⟨stage,(step_calls here).trans inside⟩

theorem run_inside {id : Nat} {stage : Stage} (later : List Label) (inside : s.calls thread = some (.stopping id stage false)) :
    (∃ stage, (run step later s).state.calls thread = some (.stopping id stage false)) ∨
      .tornDown thread id ∈ (run step later s).events := by
  refine run_reports step (fun s trace => (∃ stage, s.calls thread = some (.stopping id stage false)) ∨
    .tornDown thread id ∈ trace) (fun s trace label before => ?_) later s (.inl ⟨stage,inside⟩)
  rcases before with ⟨stage,inside⟩ | done
  · exact (step_inside label inside).imp_right (List.mem_append_right _)
  · exact .inr (List.mem_append_left _ done)

end

/-- However a run has gone, nobody waits in vain. If from then on the threads only go on with
what they are in the middle of, callbacks included, then they come to rest, in whatever order
they go on and after no more moves than are left; and then a thread that was in `shutdown` has
got out of it. -/
theorem shutdown_returns (schedule : List Label) (thread : Thread) (id : Nat) (stage : Stage)
    (inside : (run step schedule initial).state.calls thread = some (.stopping id stage false)) :
    let now := (run step schedule initial).state
    (∃ later, (∀ label ∈ later, label.goesOn = true) ∧ Rests (run step later now).state) ∧
      ∀ later, (∀ label ∈ later, label.goesOn = true) →
        moved step (fun s label => label.moves s) later now ≤ work (callers schedule) now ∧
          (Rests (run step later now).state →
            .tornDown thread id ∈ (run step later now).events ∧ (run step later now).state.calls thread = none) := by
  intro now
  have complete := run_complete schedule
  have lowers := step_work (List.nodup_dedup (schedule.filterMap Label.caller))
  refine ⟨run_rests step _ _ _ lowers goesOn_of_moves now complete,fun later only => ⟨?_,fun rests => ?_⟩⟩
  · exact (Nat.le_add_left _ _).trans (run_ranked step _ _ _ lowers later now only complete)
  · have sound : Sound (run step later now).state :=
      run_preserves step Sound (fun _ label held => step_sound held label) later now (run_sound schedule)
    have idle := rests.idle sound thread
    rcases run_inside later inside with ⟨stage,still⟩ | done
    · rw [idle] at still
      cases still
    · exact ⟨done,idle⟩

/-- An application's thread shuts the first instance down while a callback of it starts
another and shuts that one down. -/
def nested : List Label :=
  let env : Envelope := ⟨{ handlerKey := str "chat" },[]⟩
  [.init (.app 0),.receive 0 env,.processingLoop 0,.processingLoop 0,.processingLoop 0,.shutdown (.app 0),
    .init (.processing 0),.shutdown (.processing 0)]

theorem shutdown_returns_nested :
    (run step nested initial).state.calls (.processing 0) = some (.stopping 1 .stop false) ∧
      work (callers nested) (run step nested initial).state = 19 ∧
      (∃ later, (∀ label ∈ later, label.goesOn = true) ∧ Rests (run step later (run step nested initial).state).state) ∧
      ∀ later, (∀ label ∈ later, label.goesOn = true) →
        moved step (fun s label => label.moves s) later (run step nested initial).state ≤
            work (callers nested) (run step nested initial).state ∧
          (Rests (run step later (run step nested initial).state).state →
            .tornDown (.app 0) 0 ∈ (run step later (run step nested initial).state).events ∧
              (run step later (run step nested initial).state).state.calls (.app 0) = none) :=
  ⟨by decide,by decide,shutdown_returns nested (.app 0) 0 .stop (by decide)⟩

end Lifecycle

end Wisp
