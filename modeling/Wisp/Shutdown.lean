import Wisp.Lifecycle

/-! Shutting an instance down. Messages are handled in the order of their arrival, at most one
more once a `shutdown` has begun and none when it is done; and no thread joins itself. -/
namespace Wisp

open Transition

namespace Lifecycle

def Event.receivedBy (id : Nat) : Event → List Envelope
  | .received target env => if target = id then [env] else []
  | _ => []

def Event.handledBy (id : Nat) : Event → List Envelope
  | .handled target env => if target = id then [env] else []
  | _ => []

/-- What the loop has taken from the queue and not yet started to handle. -/
def Point.taken : Point → List Envelope
  | .popped env => [env]
  | .admitted env rest => env :: rest.getD []
  | .handling _ rest => rest.getD []
  | .batch rest => rest
  | _ => []

/-- The message that the loop handles next, whatever `m_running` says by then. -/
def Point.imminent : Point → List Envelope
  | .admitted env _ => [env]
  | _ => []

def Instance.waiting (inst : Instance) : List Envelope := inst.point.taken ++ inst.queue.queue

/-- What a step means for the messages of one instance. -/
inductive Change (id : Nat) (s : Lifecycle) (done : Outcome Lifecycle Event) : Prop
  | same (created : id < s.created ↔ id < done.state.created)
      (point : (done.state.instances id).point = (s.instances id).point)
      (queue : (done.state.instances id).queue.queue = (s.instances id).queue.queue)
      (running : (done.state.instances id).running = true → (s.instances id).running = true)
      (received : done.events.flatMap (Event.receivedBy id) = []) (handled : done.events.flatMap (Event.handledBy id) = [])
  | born (unborn : ¬id < s.created) (created : id < done.state.created) (fresh : done.state.instances id = {})
      (received : done.events.flatMap (Event.receivedBy id) = []) (handled : done.events.flatMap (Event.handledBy id) = [])
  | given (env : Envelope) (known : id < s.created) (created : done.state.created = s.created)
      (instance' : done.state.instances id = (s.instances id).given env)
      (received : done.events.flatMap (Event.receivedBy id) = [env]) (handled : done.events.flatMap (Event.handledBy id) = [])
  | advanced (known : id < s.created) (created : done.state.created = s.created)
      (instance' : done.state.instances id = (s.instances id).advance.1)
      (received : done.events.flatMap (Event.receivedBy id) = [])
      (handled : done.events.flatMap (Event.handledBy id) = (s.instances id).advance.2)

theorem Change.apart {id : Nat} {s : Lifecycle} {done : Outcome Lifecycle Event}
    (created : id < s.created ↔ id < done.state.created) (untouched : done.state.instances id = s.instances id)
    (received : done.events.flatMap (Event.receivedBy id) = []) (handled : done.events.flatMap (Event.handledBy id) = []) :
    Change id s done := by
  refine .same created ?_ ?_ ?_ received handled
  · rw [untouched]
  · rw [untouched]
  · rw [untouched]
    exact fun still => still

/-- An instance whose place and queue stay as they are, and others besides. -/
theorem Change.elsewhere {id target : Nat} {s s' : Lifecycle} {inst : Instance} {events : List Event}
    (created : s'.created = s.created) (instances : s'.instances = (s.update target inst).instances)
    (point : inst.point = (s.instances target).point) (queue : inst.queue.queue = (s.instances target).queue.queue)
    (running : inst.running = true → (s.instances target).running = true)
    (received : events.flatMap (Event.receivedBy id) = []) (handled : events.flatMap (Event.handledBy id) = []) :
    Change id s ⟨s',events⟩ := by
  have found := congrFun instances id
  rw [update_instances] at found
  split at found
  next here =>
    subst here
    refine .same (by rw [created]) ?_ ?_ ?_ received handled
    · rw [found,point]
    · rw [found,queue]
    · rw [found]
      exact running
  · exact .apart (by rw [created]) found received handled

theorem Change.still (id : Nat) {s : Lifecycle} {events : List Event}
    (received : events.flatMap (Event.receivedBy id) = []) (handled : events.flatMap (Event.handledBy id) = []) :
    Change id s ⟨s,events⟩ := .same Iff.rfl rfl rfl (fun still => still) received handled

theorem drop_change (thread : Thread) (target : Nat) (owner : Owner) {id : Nat} {s : Lifecycle} {events : List Event}
    (received : events.flatMap (Event.receivedBy id) = []) (handled : events.flatMap (Event.handledBy id) = []) :
    Change id s ⟨s.drop thread target owner,events⟩ :=
  .elsewhere rfl rfl rfl rfl (fun still => still) received handled

theorem step_change (id : Nat) (label : Label) (s : Lifecycle) : Change id s (step label s) := by
  cases label with
  | init thread =>
    rw [step]
    unfold init
    split
    · by_cases here : id = s.created
      · subst here
        refine .born (Nat.lt_irrefl _) (Nat.lt_succ_self _) ?_ rfl rfl
        exact (update_instances s.created {} s s.created).trans (if_pos rfl)
      · refine .apart ?_ ((update_instances s.created {} s id).trans (if_neg here)) rfl rfl
        change id < s.created ↔ id < s.created + 1
        omega
    · exact .still id rfl rfl
  | shutdown thread =>
    rw [step]
    unfold shutdown
    split
    · split
      · exact .still id rfl rfl
      · exact .elsewhere rfl rfl rfl rfl (by rintro ⟨⟩) rfl rfl
    · exact .still id rfl rfl
  | getInstance thread =>
    rw [step]
    unfold getInstance
    split
    · exact .elsewhere rfl rfl rfl rfl (fun still => still) rfl rfl
    · exact .still id rfl rfl
  | release thread =>
    rw [step]
    unfold release
    split
    · exact drop_change thread _ _ rfl rfl
    · exact .still id rfl rfl
  | teardown thread =>
    rw [step]
    unfold teardown
    split
    · exact .elsewhere rfl rfl rfl rfl (by rintro ⟨⟩) rfl rfl
    · split
      · exact .same Iff.rfl rfl rfl (fun still => still) rfl rfl
      · split
        · exact .still id rfl rfl
        · split
          · exact .elsewhere rfl rfl rfl rfl (fun still => still) rfl rfl
          · exact .still id rfl rfl
    · exact drop_change thread _ _ rfl rfl
    · exact .same Iff.rfl rfl rfl (fun still => still) rfl rfl
    · exact .still id rfl rfl
  | receive target env =>
    rw [step]
    unfold receive
    split
    next ready =>
      by_cases here : id = target
      · subst here
        refine .given env ready.1 rfl ?_ ?_ rfl
        · exact (update_instances id _ s id).trans (if_pos rfl)
        · simp [Event.receivedBy]
      · refine .apart Iff.rfl ((update_instances target _ s id).trans (if_neg here)) ?_ rfl
        simp [Event.receivedBy,Ne.symm here]
    · exact .still id rfl rfl
  | processingLoop target =>
    rw [step]
    unfold processingLoop
    split
    next ready =>
      have received : ((s.instances target).advance.2.map (Event.handled target)).flatMap (Event.receivedBy id) = [] := by
        simp [List.flatMap_map,Event.receivedBy]
      by_cases here : id = target
      · subst here
        refine .advanced ready.1 rfl ?_ received ?_
        · exact (update_instances id _ s id).trans (if_pos rfl)
        · simp [List.flatMap_map,Event.handledBy]
      · refine .apart Iff.rfl ((update_instances target _ s id).trans (if_neg here)) received ?_
        simp [List.flatMap_map,Event.handledBy,Ne.symm here]
    · exact .still id rfl rfl

/-- One move of the loop starts to handle what it takes out of the way, and nothing is lost to
a running instance. -/
theorem advance_waiting {inst : Instance} (running : inst.running = true) :
    inst.waiting = inst.advance.2 ++ inst.advance.1.waiting := by
  unfold Instance.advance
  split
  next popping =>
    split
    next env queue found => simp [Instance.waiting,Point.taken,popping,found]
    next found => split <;> simp [Instance.waiting,Point.taken,popping,found]
  next env popped => simp [Instance.waiting,Point.taken,popped,running]
  next env rest admitted => simp [Instance.waiting,Point.taken,admitted]
  next env handling => simp [Instance.waiting,Point.taken,handling]
  next env rest handling => simp [Instance.waiting,Point.taken,handling]
  next draining => simp [Instance.waiting,Point.taken,draining]
  next batch => simp [Instance.waiting,Point.taken,batch]
  next env rest batch => simp [Instance.waiting,Point.taken,batch,running]
  next finished => rfl

/-- Once `m_running` is false, only the message already let through is handled. -/
theorem advance_imminent {inst : Instance} (stopped : inst.running = false) :
    inst.point.imminent = inst.advance.2 ++ inst.advance.1.point.imminent := by
  unfold Instance.advance
  split
  next popping =>
    split
    next env queue found => simp [Point.imminent,popping]
    next found => split <;> simp [Point.imminent,popping]
  next env popped => simp [Point.imminent,popped,stopped]
  next env rest admitted => simp [Point.imminent,admitted]
  next env handling => simp [Point.imminent,handling]
  next env rest handling => simp [Point.imminent,handling]
  next draining => simp [Point.imminent,draining]
  next batch => simp [Point.imminent,batch]
  next env rest batch => simp [Point.imminent,batch,stopped]
  next finished => simp

theorem imminent_taken (point : Point) : point.imminent <+: point.taken := by
  cases point with
  | admitted env rest => exact ⟨rest.getD [],rfl⟩
  | _ => exact List.nil_prefix

/-- The messages of an instance so far: those handled come first, and while it runs the rest waits. -/
structure Ordered (born : Prop) (inst : Instance) (received handled : List Envelope) : Prop where
  unborn : ¬born → received = [] ∧ handled = []
  running : born → inst.running = true → received = handled ++ inst.waiting
  stopped : born → handled ++ inst.point.imminent <+: received

theorem Ordered.step {id : Nat} {s : Lifecycle} {received handled : List Envelope}
    (ordered : Ordered (id < s.created) (s.instances id) received handled) (label : Label) :
    Ordered (id < (step label s).state.created) ((step label s).state.instances id)
      (received ++ (step label s).events.flatMap (Event.receivedBy id))
      (handled ++ (step label s).events.flatMap (Event.handledBy id)) := by
  obtain ⟨unborn,running,stopped⟩ := ordered
  cases step_change id label s with
  | same created point queue still noneReceived noneHandled =>
    rw [noneReceived,noneHandled,List.append_nil,List.append_nil,← created]
    refine ⟨unborn,?_,?_⟩
    · rw [Instance.waiting,point,queue]
      exact fun known runs => running known (still runs)
    · rw [point]
      exact stopped
  | born fresh created inst noneReceived noneHandled =>
    obtain ⟨rfl,rfl⟩ := unborn fresh
    rw [noneReceived,noneHandled,inst]
    exact ⟨fun before => absurd created before,fun _ _ => rfl,fun _ => List.nil_prefix⟩
  | given env known created inst gets noneHandled =>
    rw [gets,noneHandled,inst,created,List.append_nil]
    refine ⟨absurd known,fun _ runs => ?_,fun _ => ?_⟩
    · rw [running known runs,List.append_assoc,Instance.waiting,List.append_assoc]
      rfl
    · exact (stopped known).trans (List.prefix_append received [env])
  | advanced known created inst noneReceived starts =>
    rw [noneReceived,starts,inst,created,List.append_nil]
    have keeps := (advance_keeps (s.instances id)).1
    refine ⟨absurd known,?_,fun _ => ?_⟩
    · rw [keeps]
      intro _ runs
      rw [running known runs,advance_waiting runs,List.append_assoc]
    · rw [List.append_assoc]
      cases runs : (s.instances id).running with
      | true =>
        -- while it runs, what is let through is the first that waits
        rw [running known runs,advance_waiting runs]
        apply (List.prefix_append_right_inj handled).mpr
        apply (List.prefix_append_right_inj _).mpr
        exact (imminent_taken _).trans (List.prefix_append _ _)
      | false =>
        rw [← advance_imminent runs]
        exact stopped known

theorem run_ordered (id : Nat) (schedule : List Label) :
    Ordered (id < (run step schedule initial).state.created) ((run step schedule initial).state.instances id)
      ((run step schedule initial).events.flatMap (Event.receivedBy id))
      ((run step schedule initial).events.flatMap (Event.handledBy id)) := by
  refine run_reports step (fun s trace => Ordered (id < s.created) (s.instances id)
    (trace.flatMap (Event.receivedBy id)) (trace.flatMap (Event.handledBy id)))
    (fun s trace label ordered => ?_) schedule initial ?_
  · rw [List.flatMap_append,List.flatMap_append]
    exact ordered.step label
  · exact ⟨fun _ => ⟨rfl,rfl⟩,fun born => absurd born (Nat.not_lt_zero id),fun born => absurd born (Nat.not_lt_zero id)⟩

/-- From where an instance no longer runs, at most the message let through is handled. -/
theorem run_stopped {id : Nat} {s : Lifecycle} (known : id < s.created) (stopped : (s.instances id).running = false)
    (later : List Label) :
    (run step later s).events.flatMap (Event.handledBy id) <+: (s.instances id).point.imminent := by
  induction later generalizing s with
  | nil => exact List.nil_prefix
  | cons label rest ih =>
    rw [run,List.flatMap_append]
    cases step_change id label s with
    | same created point queue still noneReceived noneHandled =>
      have idle : ((step label s).state.instances id).running = false := by
        rw [← Bool.not_eq_true]
        intro runs
        rw [still runs] at stopped
        cases stopped
      rw [noneHandled,List.nil_append,← point]
      exact ih (created.mp known) idle
    | born fresh => exact absurd known fresh
    | given env known created inst gets noneHandled =>
      have onward := ih (created ▸ known) (by rw [inst]; exact stopped)
      rw [noneHandled,List.nil_append]
      rwa [inst] at onward
    | advanced known created inst noneReceived starts =>
      have onward := ih (created ▸ known) (by rw [inst,(advance_keeps _).1]; exact stopped)
      rw [starts,advance_imminent stopped]
      rw [inst] at onward
      exact (List.prefix_append_right_inj _).mpr onward

/-- What has to be the case for a report. -/
inductive Mark (s : Lifecycle) (done : Lifecycle) : Event → Prop
  | received (id : Nat) (env : Envelope) : Mark s done (.received id env)
  | handled (id : Nat) (env : Envelope) : Mark s done (.handled id env)
  | refused (thread : Thread) : Mark s done (.refused thread)
  | stopping (thread : Thread) {id : Nat} (current : s.current = some id) (created : done.created = s.created)
      (stopped : (done.instances id).running = false) : Mark s done (.stopping thread id)
  | tornDown {thread : Thread} {id : Nat} (call : s.calls thread = some (.stopping id .worker false)) :
      Mark s done (.tornDown thread id)
  | destroyed (thread : Thread) (id : Nat) : Mark s done (.destroyed thread id)
  | terminated {id : Nat} {destructor : Bool} (call : s.calls (.processing id) = some (.stopping id .join destructor))
      (joinable : (s.instances id).joined = false) : Mark s done (.terminated (.processing id))

theorem step_marks {label : Label} {s : Lifecycle} {event : Event} (member : event ∈ (step label s).events) :
    Mark s (step label s).state event := by
  cases label with
  | init thread | getInstance thread | release thread => cases member
  | shutdown thread =>
    rw [step] at member ⊢
    unfold shutdown at member ⊢
    split at member
    next id ready current =>
      split at member
      · rw [List.mem_singleton.mp member]
        exact .refused thread
      next different =>
        rw [List.mem_singleton.mp member,if_neg different]
        refine .stopping thread current rfl ?_
        have found := update_instances id ((s.instances id).takenOver thread) s id
        rw [if_pos rfl] at found
        exact congrArg Instance.running found
    · cases member
  | teardown thread =>
    rw [step] at member ⊢
    generalize (teardown thread s).state = done
    unfold teardown at member
    split at member
    · cases member
    next id destructor call =>
      split at member
      · cases member
      next joinable =>
        split at member
        next self =>
          subst self
          rw [List.mem_singleton.mp member]
          exact .terminated call (Bool.eq_false_iff.mpr joinable)
        · split at member <;> cases member
    next id call =>
      rw [List.mem_singleton.mp member]
      exact .tornDown call
    next id call =>
      rw [List.mem_singleton.mp member]
      exact .destroyed thread id
    · cases member
  | receive id env =>
    rw [step] at member ⊢
    generalize (receive id env s).state = done
    unfold receive at member
    split at member
    · rw [List.mem_singleton.mp member]
      exact .received id env
    · cases member
  | processingLoop id =>
    rw [step] at member ⊢
    generalize (processingLoop id s).state = done
    unfold processingLoop at member
    split at member
    · obtain ⟨env,-,rfl⟩ := List.mem_map.mp member
      exact .handled id env
    · cases member

/-- What a step never undoes. -/
theorem step_settled {id : Nat} (label : Label) {s : Lifecycle} (known : id < s.created) :
    id < (step label s).state.created ∧
      ((s.instances id).running = false → ((step label s).state.instances id).running = false) ∧
      ((s.instances id).point = .finished → ((step label s).state.instances id).point = .finished) := by
  cases step_change id label s with
  | same created point queue still =>
    refine ⟨created.mp known,fun stopped => ?_,fun finished => point.trans finished⟩
    rw [← Bool.not_eq_true]
    intro runs
    rw [still runs] at stopped
    cases stopped
  | born fresh => exact absurd known fresh
  | given env known created inst =>
    rw [inst,created]
    exact ⟨known,fun stopped => stopped,fun finished => finished⟩
  | advanced known created inst =>
    obtain ⟨running,-,-,-,ended⟩ := advance_keeps (s.instances id)
    rw [inst,created,running]
    refine ⟨known,fun stopped => stopped,fun finished => ?_⟩
    rw [ended finished]
    exact finished

/-- What the reports so far say of the instances. -/
structure Recorded (s : Lifecycle) (trace : List Event) : Prop where
  sound : Sound s
  stopping : ∀ thread id, .stopping thread id ∈ trace → id < s.created ∧ (s.instances id).running = false
  tornDown : ∀ thread id, .tornDown thread id ∈ trace → id < s.created ∧ (s.instances id).running = false ∧
    (s.instances id).point = .finished
  never : ∀ thread, .terminated thread ∉ trace

theorem Recorded.step {s : Lifecycle} {trace : List Event} (recorded : Recorded s trace) (label : Label) :
    Recorded (step label s).state (trace ++ (step label s).events) := by
  obtain ⟨sound,stopping,tornDown,never⟩ := recorded
  refine ⟨step_sound sound label,?_,?_,?_⟩
  · intro thread id member
    rcases List.mem_append.mp member with before | now
    · obtain ⟨known,stopped⟩ := stopping thread id before
      obtain ⟨still,idle,-⟩ := step_settled label known
      exact ⟨still,idle stopped⟩
    · cases step_marks now with
      | stopping _ current created stopped =>
        have latest := sound.latest id current
        exact ⟨by omega,stopped⟩
  · intro thread id member
    rcases List.mem_append.mp member with before | now
    · obtain ⟨known,stopped,finished⟩ := tornDown thread id before
      obtain ⟨still,idle,ended⟩ := step_settled label known
      exact ⟨still,idle stopped,ended finished⟩
    · cases step_marks now with
      | tornDown call =>
        obtain ⟨known,old⟩ := sound.known call
        obtain ⟨still,idle,ended⟩ := step_settled label known
        have stopped : (s.instances id).running = false := by
          rw [← Bool.not_eq_true,sound.running id known]
          exact old
        exact ⟨still,idle stopped,ended (sound.joined id known (sound.waited thread id false call))⟩
  · intro thread member
    rcases List.mem_append.mp member with before | now
    · exact never thread before
    · cases step_marks now with
      | @terminated id destructor call joinable =>
        cases destructor with
        | false => exact Nat.lt_irrefl id (sound.rising id id .join call)
        | true =>
          rw [(sound.destroying _ id .join call).2.1] at joinable
          cases joinable

theorem run_recorded (schedule : List Label) :
    Recorded (run step schedule initial).state (run step schedule initial).events := by
  refine run_reports step Recorded (fun s trace label recorded => recorded.step label) schedule initial ?_
  exact ⟨initial_sound,by rintro thread id ⟨⟩,by rintro thread id ⟨⟩,by rintro thread ⟨⟩⟩

/-- Whoever starts, uses and shuts down instances, from callbacks or not: no thread joins
itself; every instance handles what it received in order, all of it while it is the current
one; once a `shutdown` has begun at most one more message is handled, and none after it. -/
theorem shutdown_is_orderly (schedule : List Label) :
    (∀ thread, .terminated thread ∉ (run step schedule initial).events) ∧ ∀ id,
      (run step schedule initial).events.flatMap (Event.handledBy id) <+:
        (run step schedule initial).events.flatMap (Event.receivedBy id) ∧
      ((run step schedule initial).state.current = some id →
        (run step schedule initial).events.flatMap (Event.receivedBy id) =
          (run step schedule initial).events.flatMap (Event.handledBy id) ++
            ((run step schedule initial).state.instances id).waiting) ∧
      ∀ thread later,
        (.stopping thread id ∈ (run step schedule initial).events →
          ((run step later (run step schedule initial).state).events.flatMap (Event.handledBy id)).length ≤ 1) ∧
        (.tornDown thread id ∈ (run step schedule initial).events →
          (run step later (run step schedule initial).state).events.flatMap (Event.handledBy id) = []) := by
  obtain ⟨sound,stopping,tornDown,never⟩ := run_recorded schedule
  refine ⟨never,fun id => ?_⟩
  obtain ⟨unborn,running,stopped⟩ := run_ordered id schedule
  refine ⟨?_,fun current => ?_,fun thread later => ⟨fun begun => ?_,fun done => ?_⟩⟩
  · by_cases born : id < (run step schedule initial).state.created
    · exact (List.prefix_append _ _).trans (stopped born)
    · rw [(unborn born).2]
      exact List.nil_prefix
  · have latest := sound.latest id current
    have born : id < (run step schedule initial).state.created := by omega
    exact running born ((sound.running id born).mpr current)
  · obtain ⟨known,idle⟩ := stopping thread id begun
    refine (run_stopped known idle later).length_le.trans ?_
    cases ((run step schedule initial).state.instances id).point <;> simp [Point.imminent]
  · obtain ⟨known,idle,finished⟩ := tornDown thread id done
    have silent := run_stopped known idle later
    rw [finished] at silent
    exact List.prefix_nil.mp silent

end Lifecycle

end Wisp
