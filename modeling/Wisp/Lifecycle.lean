import Wisp.Flow
import Wisp.SafeQueue
import Wisp.WireFrame

/-! The life of the client's singleton. Any thread may start an instance, use it or shut it
down, the threads that run message callbacks included; each instance has such a thread of its
own. What `s_initMutex` guards is one step, and so is each part of a call outside of it. -/
namespace Wisp

open Transition

/-- A thread of the application, or the one that runs an instance's callbacks. -/
inductive Thread where
  | app (number : Nat)
  | processing (id : Nat)
  deriving DecidableEq, Repr

namespace Lifecycle

/-- Where `processingLoop` is. The rest is that of a batch, behind the first message of a turn
there is none yet. -/
inductive Point where
  | popping
  | popped (env : Envelope)
  | admitted (env : Envelope) (rest : Option (List Envelope))
  | handling (env : Envelope) (rest : Option (List Envelope))
  | draining
  | batch (rest : List Envelope)
  | finished
  deriving DecidableEq, Repr

/-- The holders of an instance: `s_instance`, the `tmp` of a `shutdown`, a snapshot. -/
inductive Owner where
  | static
  | temporary (thread : Thread)
  | snapshot (thread : Thread)
  deriving DecidableEq, Repr

structure Instance where
  running : Bool := true
  queue : SafeQueue Envelope := .new 5000
  point : Point := .popping
  /-- `m_processingThread` is no longer joinable. -/
  joined : Bool := false
  owners : List Owner := [.static]

/-- What is left of a `teardown`. -/
inductive Stage where
  | stop
  | join
  | worker
  deriving DecidableEq, Repr

/-- What a thread is in the middle of: a call on a snapshot, or a `teardown`, of `shutdown` or
of the destructor. -/
inductive Call where
  | holding (id : Nat)
  | stopping (id : Nat) (stage : Stage) (destructor : Bool)
  deriving DecidableEq, Repr

end Lifecycle

structure Lifecycle where
  /-- The instances in the order of their creation. -/
  instances : Nat → Lifecycle.Instance
  created : Nat
  current : Option Nat
  calls : Thread → Option Lifecycle.Call

namespace Lifecycle

def initial : Lifecycle := ⟨fun _ => {},0,none,fun _ => none⟩

inductive Label where
  | init (thread : Thread)
  | shutdown (thread : Thread)
  | getInstance (thread : Thread)
  | release (thread : Thread)
  | teardown (thread : Thread)
  | receive (id : Nat) (env : Envelope)
  | processingLoop (id : Nat)
  deriving DecidableEq, Repr

inductive Event where
  | received (id : Nat) (env : Envelope)
  | handled (id : Nat) (env : Envelope)
  | refused (thread : Thread)
  | stopping (thread : Thread) (id : Nat)
  | tornDown (thread : Thread) (id : Nat)
  | destroyed (thread : Thread) (id : Nat)
  /-- A thread joins itself, which throws out of a destructor or a `shutdown`. -/
  | terminated (thread : Thread)
  deriving DecidableEq, Repr

/-- Callbacks are running: a RESET is answered without any. -/
def Point.inCallback : Point → Bool
  | .handling env _ => env.header.handlerKey != Keys.reset
  | _ => false

/-- The thread runs the application's code, and is in no call. -/
def free (thread : Thread) (s : Lifecycle) : Bool :=
  (s.calls thread).isNone && match thread with
    | .app _ => true
    | .processing id => decide (id < s.created) && (s.instances id).point.inCallback

def update (id : Nat) (inst : Instance) (s : Lifecycle) : Lifecycle :=
  { s with instances := Function.update s.instances id inst }

def enter (thread : Thread) (call : Option Call) (s : Lifecycle) : Lifecycle :=
  { s with calls := Function.update s.calls thread call }

/-- `s_instance` is assigned a new instance, or reset. -/
def publish (s : Lifecycle) : Lifecycle := { s with created := s.created + 1, current := some s.created }

def retire (s : Lifecycle) : Lifecycle := { s with current := none }

/-- The owner in `s_instance` is exchanged for another. -/
def Instance.takenOver (thread : Thread) (inst : Instance) : Instance :=
  { inst with running := false, owners := inst.owners.erase .static ++ [.temporary thread] }

def Instance.lent (thread : Thread) (inst : Instance) : Instance :=
  { inst with owners := inst.owners ++ [.snapshot thread] }

def Instance.without (owner : Owner) (inst : Instance) : Instance := { inst with owners := inst.owners.erase owner }

def Instance.halted (inst : Instance) : Instance :=
  { inst with running := false, queue := { inst.queue with stop := true } }

def Instance.afterJoin (inst : Instance) : Instance := { inst with joined := true }

def Instance.given (env : Envelope) (inst : Instance) : Instance :=
  { inst with queue := { inst.queue with queue := inst.queue.queue ++ [env] } }

def init (thread : Thread) (s : Lifecycle) : Lifecycle :=
  if s.free thread && s.current.isNone then (s.update s.created {}).publish else s

/-- The part of `shutdown` under the lock. -/
def shutdown (thread : Thread) (s : Lifecycle) : Outcome Lifecycle Event :=
  match s.free thread, s.current with
  | true, some id =>
    if thread = .processing id then ⟨s,[.refused thread]⟩
    else
      ⟨((s.update id ((s.instances id).takenOver thread)).enter thread (some (.stopping id .stop false))).retire,
        [.stopping thread id]⟩
  | _, _ => ⟨s,[]⟩

def getInstance (thread : Thread) (s : Lifecycle) : Lifecycle :=
  match s.free thread, s.current with
  | true, some id => (s.update id ((s.instances id).lent thread)).enter thread (some (.holding id))
  | _, _ => s

/-- A holder lets go of an instance; the last one destroys it. -/
def drop (thread : Thread) (id : Nat) (owner : Owner) (s : Lifecycle) : Lifecycle :=
  let inst := (s.instances id).without owner
  (s.update id inst).enter thread (if inst.owners = [] then some (.stopping id .stop true) else none)

def release (thread : Thread) (s : Lifecycle) : Lifecycle :=
  match s.calls thread with
  | some (.holding id) => s.drop thread id (.snapshot thread)
  | _ => s

/-- The next part of `teardown`. -/
def teardown (thread : Thread) (s : Lifecycle) : Outcome Lifecycle Event :=
  match s.calls thread with
  | some (.stopping id .stop destructor) =>
    ⟨(s.update id (s.instances id).halted).enter thread (some (.stopping id .join destructor)),[]⟩
  | some (.stopping id .join destructor) =>
    if (s.instances id).joined then ⟨s.enter thread (some (.stopping id .worker destructor)),[]⟩
    else if thread = .processing id then ⟨s,[.terminated thread]⟩
    else if (s.instances id).point = .finished then
      ⟨(s.update id (s.instances id).afterJoin).enter thread (some (.stopping id .worker destructor)),[]⟩
    else ⟨s,[]⟩
  | some (.stopping id .worker false) => ⟨s.drop thread id (.temporary thread),[.tornDown thread id]⟩
  | some (.stopping id .worker true) => ⟨s.enter thread none,[.destroyed thread id]⟩
  | _ => ⟨s,[]⟩

/-- The worker hands a message over; it waits while the queue is full. -/
def receive (id : Nat) (env : Envelope) (s : Lifecycle) : Outcome Lifecycle Event :=
  if id < s.created ∧ (s.instances id).queue.stop = false ∧
      (s.instances id).queue.queue.length < (s.instances id).queue.maxSize then
    ⟨s.update id ((s.instances id).given env),[.received id env]⟩
  else ⟨s,[]⟩

/-- One move of the loop, and the message it starts to handle. -/
def Instance.advance (inst : Instance) : Instance × List Envelope :=
  match inst.point with
  | .popping =>
    match inst.queue.queue with
    | env :: queue => ({ inst with queue := { inst.queue with queue }, point := .popped env },[])
    | [] => (if inst.queue.stop then { inst with point := .finished } else inst,[])
  | .popped env => ({ inst with point := if inst.running then .admitted env none else .finished },[])
  | .admitted env rest => ({ inst with point := .handling env rest },[env])
  | .handling _ none => ({ inst with point := .draining },[])
  | .handling _ (some rest) => ({ inst with point := .batch rest },[])
  | .draining => ({ inst with queue := { inst.queue with queue := [] }, point := .batch inst.queue.queue },[])
  | .batch [] => ({ inst with point := .popping },[])
  | .batch (env :: rest) => ({ inst with point := if inst.running then .admitted env (some rest) else .popping },[])
  | .finished => (inst,[])

/-- A callback that is in a call does not return. -/
def processingLoop (id : Nat) (s : Lifecycle) : Outcome Lifecycle Event :=
  if id < s.created ∧ s.calls (.processing id) = none then
    ⟨s.update id (s.instances id).advance.1,(s.instances id).advance.2.map (.handled id)⟩
  else ⟨s,[]⟩

def step : Label → Lifecycle → Outcome Lifecycle Event
  | .init thread,s => ⟨init thread s,[]⟩
  | .shutdown thread,s => shutdown thread s
  | .getInstance thread,s => ⟨getInstance thread s,[]⟩
  | .release thread,s => ⟨release thread s,[]⟩
  | .teardown thread,s => teardown thread s
  | .receive id env,s => receive id env s
  | .processingLoop id,s => processingLoop id s

section

variable (id : Nat) (inst : Instance) (s : Lifecycle) (thread : Thread) (call : Option Call)

theorem update_instances (other : Nat) :
    (s.update id inst).instances other = if other = id then inst else s.instances other :=
  Function.update_apply s.instances id inst other

theorem enter_calls (other : Thread) :
    (s.enter thread call).calls other = if other = thread then call else s.calls other :=
  Function.update_apply s.calls thread call other

@[simp] theorem update_created : (s.update id inst).created = s.created := rfl

@[simp] theorem update_current : (s.update id inst).current = s.current := rfl

@[simp] theorem update_calls : (s.update id inst).calls = s.calls := rfl

@[simp] theorem enter_instances : (s.enter thread call).instances = s.instances := rfl

@[simp] theorem enter_created : (s.enter thread call).created = s.created := rfl

@[simp] theorem enter_current : (s.enter thread call).current = s.current := rfl

@[simp] theorem retire_calls : s.retire.calls = s.calls := rfl

end

/-- What the threads' calls and the instances have to do with each other. -/
structure Sound (s : Lifecycle) : Prop where
  latest : ∀ id, s.current = some id → id + 1 = s.created
  static : ∀ id, s.current = some id → .static ∈ (s.instances id).owners
  running : ∀ id, id < s.created → ((s.instances id).running = true ↔ s.current = some id)
  joined : ∀ id, id < s.created → (s.instances id).joined = true → (s.instances id).point = .finished
  /-- Until its thread is joined, somebody answers for an instance. -/
  charge : ∀ id, id < s.created → (s.instances id).joined = true ∨ s.current = some id ∨
    ∃ thread stage, s.calls thread = some (.stopping id stage false)
  holding : ∀ thread id, s.calls thread = some (.holding id) → id < s.created
  stopping : ∀ thread id stage, s.calls thread = some (.stopping id stage false) →
    id < s.created ∧ s.current ≠ some id ∧ .temporary thread ∈ (s.instances id).owners
  single : ∀ thread other id stage stage', s.calls thread = some (.stopping id stage false) →
    s.calls other = some (.stopping id stage' false) → thread = other
  /-- A callback's thread only ever waits for an instance that is younger than its own. -/
  rising : ∀ own id stage, s.calls (.processing own) = some (.stopping id stage false) → own < id
  destroying : ∀ thread id stage, s.calls thread = some (.stopping id stage true) →
    id < s.created ∧ (s.instances id).joined = true ∧ s.current ≠ some id
  stopped : ∀ thread id stage destructor, s.calls thread = some (.stopping id stage destructor) → stage ≠ .stop →
    (s.instances id).queue.stop = true
  waited : ∀ thread id destructor, s.calls thread = some (.stopping id .worker destructor) → (s.instances id).joined = true

theorem initial_sound : Sound initial := by
  constructor <;> simp [initial]

/-- An instance moves on: nothing of what its threads and owners rely on is taken back. -/
theorem Sound.updates {s : Lifecycle} (sound : Sound s) {id : Nat} {inst : Instance}
    (running : inst.running = (s.instances id).running)
    (joined : (s.instances id).joined = true → inst.joined = true)
    (stop : (s.instances id).queue.stop = true → inst.queue.stop = true)
    (finished : inst.joined = true → inst.point = .finished)
    (static : s.current = some id → .static ∈ inst.owners)
    (temporary : ∀ thread stage, s.calls thread = some (.stopping id stage false) → .temporary thread ∈ inst.owners) :
    Sound (s.update id inst) := by
  have kept (other : Nat) : ((s.update id inst).instances other).running = (s.instances other).running ∧
      ((s.instances other).joined = true → ((s.update id inst).instances other).joined = true) ∧
      ((s.instances other).queue.stop = true → ((s.update id inst).instances other).queue.stop = true) := by
    rw [update_instances]
    split
    next here =>
      subst here
      exact ⟨running,joined,stop⟩
    · exact ⟨rfl,fun held => held,fun held => held⟩
  constructor
  case latest => exact sound.latest
  case holding => exact sound.holding
  case single => exact sound.single
  case rising => exact sound.rising
  case static =>
    intro other now
    rw [update_instances]
    split
    next here => exact static (here ▸ now)
    · exact sound.static other now
  case running =>
    intro other known
    rw [(kept other).1]
    exact sound.running other known
  case joined =>
    intro other known done
    rw [update_instances] at done ⊢
    split at done
    next here =>
      rw [if_pos here]
      exact finished done
    next here =>
      rw [if_neg here]
      exact sound.joined other known done
  case charge =>
    intro other known
    rcases sound.charge other known with done | rest
    · exact .inl ((kept other).2.1 done)
    · exact .inr rest
  case stopping =>
    intro thread other stage call
    obtain ⟨known,old,owner⟩ := sound.stopping thread other stage call
    refine ⟨known,old,?_⟩
    rw [update_instances]
    split
    next here =>
      subst here
      exact temporary thread stage call
    · exact owner
  case destroying =>
    intro thread other stage call
    obtain ⟨known,done,old⟩ := sound.destroying thread other stage call
    exact ⟨known,(kept other).2.1 done,old⟩
  case stopped =>
    intro thread other stage destructor call later
    exact (kept other).2.2 (sound.stopped thread other stage destructor call later)
  case waited =>
    intro thread other destructor call
    exact (kept other).2.1 (sound.waited thread other destructor call)

/-- What a thread may go on to: it starts no `shutdown`, and gives none up before its time. -/
structure Proceeds (s : Lifecycle) (thread : Thread) (call : Option Call) : Prop where
  holding : ∀ id, call = some (.holding id) → id < s.created
  goesOn : ∀ id stage, s.calls thread = some (.stopping id stage false) →
    (s.instances id).joined = true ∨ ∃ next, call = some (.stopping id next false)
  stopping : ∀ id stage, call = some (.stopping id stage false) →
    ∃ before, s.calls thread = some (.stopping id before false)
  destroying : ∀ id stage, call = some (.stopping id stage true) →
    id < s.created ∧ (s.instances id).joined = true ∧ s.current ≠ some id
  stopped : ∀ id stage destructor, call = some (.stopping id stage destructor) → stage ≠ .stop →
    (s.instances id).queue.stop = true
  waited : ∀ id destructor, call = some (.stopping id .worker destructor) → (s.instances id).joined = true

theorem Sound.enters {s : Lifecycle} (sound : Sound s) {thread : Thread} {call : Option Call}
    (proceeds : Proceeds s thread call) : Sound (s.enter thread call) := by
  -- every call of a `shutdown` was one before
  have before {other : Thread} {id : Nat} {stage : Stage}
      (now : (s.enter thread call).calls other = some (.stopping id stage false)) :
      ∃ earlier, s.calls other = some (.stopping id earlier false) := by
    rw [enter_calls] at now
    split at now
    next here =>
      subst here
      exact proceeds.stopping id stage now
    · exact ⟨stage,now⟩
  constructor
  case latest => exact sound.latest
  case static => exact sound.static
  case running => exact sound.running
  case joined => exact sound.joined
  case charge =>
    intro id known
    rcases sound.charge id known with done | current | ⟨other,stage,held⟩
    · exact .inl done
    · exact .inr (.inl current)
    · by_cases here : other = thread
      · subst here
        rcases proceeds.goesOn id stage held with done | ⟨next,continues⟩
        · exact .inl done
        · exact .inr (.inr ⟨other,next,by rw [enter_calls,if_pos rfl,continues]⟩)
      · exact .inr (.inr ⟨other,stage,by rw [enter_calls,if_neg here,held]⟩)
  case holding =>
    intro other id now
    rw [enter_calls] at now
    split at now
    · exact proceeds.holding id now
    · exact sound.holding other id now
  case stopping =>
    intro other id stage now
    obtain ⟨earlier,held⟩ := before now
    exact sound.stopping other id earlier held
  case single =>
    intro one other id stage stage' first second
    obtain ⟨earlier,held⟩ := before first
    obtain ⟨earlier',held'⟩ := before second
    exact sound.single one other id earlier earlier' held held'
  case rising =>
    intro own id stage now
    obtain ⟨earlier,held⟩ := before now
    exact sound.rising own id earlier held
  case destroying =>
    intro other id stage now
    rw [enter_calls] at now
    split at now
    · exact proceeds.destroying id stage now
    · exact sound.destroying other id stage now
  case stopped =>
    intro other id stage destructor now later
    rw [enter_calls] at now
    split at now
    · exact proceeds.stopped id stage destructor now later
    · exact sound.stopped other id stage destructor now later
  case waited =>
    intro other id destructor now
    rw [enter_calls] at now
    split at now
    · exact proceeds.waited id destructor now
    · exact sound.waited other id destructor now

theorem Proceeds.returns {s : Lifecycle} {thread : Thread}
    (done : ∀ id stage, s.calls thread = some (.stopping id stage false) → (s.instances id).joined = true) :
    Proceeds s thread none := by
  constructor <;> intros <;> first | contradiction | exact .inl (done _ _ (by assumption))

theorem free_call {thread : Thread} {s : Lifecycle} (free : s.free thread = true) : s.calls thread = none := by
  simp only [Lifecycle.free,Bool.and_eq_true,Option.isNone_iff_eq_none] at free
  exact free.1

theorem free_created {id : Nat} {s : Lifecycle} (free : s.free (.processing id) = true) : id < s.created := by
  simp only [Lifecycle.free,Bool.and_eq_true,decide_eq_true_eq] at free
  exact free.2.1

theorem Sound.known {s : Lifecycle} (sound : Sound s) {thread : Thread} {id : Nat} {stage : Stage} {destructor : Bool}
    (call : s.calls thread = some (.stopping id stage destructor)) : id < s.created ∧ s.current ≠ some id := by
  cases destructor with
  | false => exact ⟨(sound.stopping thread id stage call).1,(sound.stopping thread id stage call).2.1⟩
  | true => exact ⟨(sound.destroying thread id stage call).1,(sound.destroying thread id stage call).2.2⟩

theorem init_sound {s : Lifecycle} (sound : Sound s) (thread : Thread) : Sound (init thread s) := by
  unfold init
  split
  next ready =>
    rw [Bool.and_eq_true,Option.isNone_iff_eq_none] at ready
    have none := ready.2
    have older {id : Nat} (known : id < s.created) : (s.update s.created {}).instances id = s.instances id := by
      rw [update_instances,if_neg (by omega)]
    have split {id : Nat} (known : id < s.created + 1) : id < s.created ∨ id = s.created := by omega
    have self : (s.update s.created {}).instances s.created = {} := by rw [update_instances,if_pos rfl]
    constructor
    case latest =>
      rintro id ⟨⟩
      rfl
    case static =>
      rintro id ⟨⟩
      change _ ∈ ((s.update s.created {}).instances s.created).owners
      rw [self]
      exact List.mem_singleton_self _
    case running =>
      intro id known
      change ((s.update s.created {}).instances id).running = true ↔ some s.created = some id
      rcases split known with old | rfl
      · rw [older old,sound.running id old,none]
        constructor
        · rintro ⟨⟩
        · rintro ⟨⟩
          omega
      · rw [self]
        exact ⟨fun _ => rfl,fun _ => rfl⟩
    case joined =>
      intro id known done
      change ((s.update s.created {}).instances id).joined = true at done
      change ((s.update s.created {}).instances id).point = .finished
      rcases split known with old | rfl
      · rw [older old] at done ⊢
        exact sound.joined id old done
      · rw [self] at done
        cases done
    case charge =>
      intro id known
      rcases split known with old | rfl
      · change ((s.update s.created {}).instances id).joined = true ∨ _
        rw [older old]
        rcases sound.charge id old with done | current | stopping
        · exact .inl done
        · rw [none] at current
          cases current
        · exact .inr (.inr stopping)
      · exact .inr (.inl rfl)
    case holding =>
      intro other id call
      exact Nat.lt_succ_of_lt (sound.holding other id call)
    case stopping =>
      intro other id stage call
      obtain ⟨known,-,owner⟩ := sound.stopping other id stage call
      refine ⟨Nat.lt_succ_of_lt known,?_,?_⟩
      · rintro ⟨⟩
        exact Nat.lt_irrefl _ known
      · change _ ∈ ((s.update s.created {}).instances id).owners
        rwa [older known]
    case single => exact sound.single
    case rising => exact sound.rising
    case destroying =>
      intro other id stage call
      obtain ⟨known,done,-⟩ := sound.destroying other id stage call
      refine ⟨Nat.lt_succ_of_lt known,?_,?_⟩
      · change ((s.update s.created {}).instances id).joined = true
        rwa [older known]
      · rintro ⟨⟩
        exact Nat.lt_irrefl _ known
    case stopped =>
      intro other id stage destructor call later
      change ((s.update s.created {}).instances id).queue.stop = true
      rw [older (sound.known call).1]
      exact sound.stopped other id stage destructor call later
    case waited =>
      intro other id destructor call
      change ((s.update s.created {}).instances id).joined = true
      rw [older (sound.known call).1]
      exact sound.waited other id destructor call
  · exact sound

section Takes

/-! The instance a `shutdown` takes over is the current one, which no call was about. -/

variable {s : Lifecycle} {thread : Thread} {id : Nat} {inst : Instance}

/-- What is taken over: the thread is in its `shutdown`, and `s_instance` is empty. -/
def taken (thread : Thread) (id : Nat) (inst : Instance) (s : Lifecycle) : Lifecycle :=
  ((s.update id inst).enter thread (some (.stopping id .stop false))).retire

/-- A call is the new one, or one that was there before. -/
theorem taken_calls {other : Thread} {call : Call} (now : (s.taken thread id inst).calls other = some call) :
    other = thread ∧ call = .stopping id .stop false ∨ s.calls other = some call := by
  rw [taken,retire_calls,enter_calls] at now
  split at now
  next here => exact .inl ⟨here,(Option.some.inj now).symm⟩
  · exact .inr now

theorem taken_same {α : Type} (field : Instance → α) (same : field inst = field (s.instances id)) (other : Nat) :
    field ((s.taken thread id inst).instances other) = field (s.instances other) := by
  change field ((s.update id inst).instances other) = _
  rw [update_instances]
  split
  next here =>
    subst here
    exact same
  · rfl

theorem Sound.unclaimed (sound : Sound s) (current : s.current = some id) {other : Thread} {stage : Stage} {destructor : Bool} :
    s.calls other ≠ some (.stopping id stage destructor) :=
  fun call => (sound.known call).2 current

theorem taken_running (sound : Sound s) (current : s.current = some id) (running : inst.running = false) {other : Nat}
    (known : other < s.created) : ((s.taken thread id inst).instances other).running = false := by
  change ((s.update id inst).instances other).running = false
  rw [update_instances]
  split
  · exact running
  next elsewhere =>
    rw [← Bool.not_eq_true,sound.running other known,current]
    exact fun same => elsewhere (Option.some.inj same).symm

theorem taken_charge (sound : Sound s) (current : s.current = some id) (idle : s.calls thread = none)
    (joined : inst.joined = (s.instances id).joined) {other : Nat} (known : other < s.created) :
    ((s.taken thread id inst).instances other).joined = true ∨
      ∃ holder stage, (s.taken thread id inst).calls holder = some (.stopping other stage false) := by
  rw [taken_same Instance.joined joined other]
  rcases sound.charge other known with done | now | ⟨holder,stage,held⟩
  · exact .inl done
  · obtain rfl := Option.some.inj (now.symm.trans current)
    exact .inr ⟨thread,.stop,by rw [taken,retire_calls,enter_calls,if_pos rfl]⟩
  · refine .inr ⟨holder,stage,?_⟩
    rw [taken,retire_calls,enter_calls,if_neg]
    · exact held
    · rintro rfl
      rw [idle] at held
      cases held

theorem taken_stopping (sound : Sound s) (current : s.current = some id) (owner : .temporary thread ∈ inst.owners)
    {other : Thread} {target : Nat} {stage : Stage}
    (now : (s.taken thread id inst).calls other = some (.stopping target stage false)) :
    target < s.created ∧ .temporary other ∈ ((s.taken thread id inst).instances target).owners := by
  change target < s.created ∧ _ ∈ ((s.update id inst).instances target).owners
  rw [update_instances]
  rcases taken_calls now with ⟨rfl,⟨⟩⟩ | before
  · have latest := sound.latest id current
    rw [if_pos rfl]
    exact ⟨by omega,owner⟩
  · obtain ⟨known,-,held⟩ := sound.stopping other target stage before
    rw [if_neg]
    · exact ⟨known,held⟩
    · rintro rfl
      exact sound.unclaimed current before

theorem taken_single (sound : Sound s) (current : s.current = some id) {one other : Thread} {target : Nat} {stage stage' : Stage}
    (first : (s.taken thread id inst).calls one = some (.stopping target stage false))
    (second : (s.taken thread id inst).calls other = some (.stopping target stage' false)) : one = other := by
  rcases taken_calls first with ⟨rfl,⟨⟩⟩ | before
  · rcases taken_calls second with ⟨rfl,-⟩ | before
    · rfl
    · exact absurd before (sound.unclaimed current)
  · rcases taken_calls second with ⟨rfl,⟨⟩⟩ | before'
    · exact absurd before (sound.unclaimed current)
    · exact sound.single one other target stage stage' before before'

theorem Sound.takes (sound : Sound s) (current : s.current = some id) (idle : s.calls thread = none)
    (younger : ∀ own, thread = .processing own → own < id) (running : inst.running = false)
    (joined : inst.joined = (s.instances id).joined) (point : inst.point = (s.instances id).point)
    (stop : inst.queue.stop = (s.instances id).queue.stop) (owner : .temporary thread ∈ inst.owners) :
    Sound (s.taken thread id inst) := by
  have done (other : Nat) : ((s.taken thread id inst).instances other).joined = (s.instances other).joined :=
    taken_same Instance.joined joined other
  constructor
  case latest => rintro other ⟨⟩
  case static => rintro other ⟨⟩
  case running =>
    intro other known
    rw [taken_running sound current running known]
    constructor <;> rintro ⟨⟩
  case joined =>
    intro other known
    rw [done,taken_same Instance.point point]
    exact sound.joined other known
  case charge => exact fun other known => (taken_charge sound current idle joined known).imp_right .inr
  case holding =>
    intro other held now
    rcases taken_calls now with ⟨-,⟨⟩⟩ | before
    exact sound.holding other held before
  case stopping =>
    intro other target stage now
    obtain ⟨known,held⟩ := taken_stopping sound current owner now
    exact ⟨known,by rintro ⟨⟩,held⟩
  case single => exact fun one other target stage stage' => taken_single sound current
  case rising =>
    intro own target stage now
    rcases taken_calls now with ⟨here,⟨⟩⟩ | before
    · exact younger own here.symm
    · exact sound.rising own target stage before
  case destroying =>
    intro other target stage now
    rcases taken_calls now with ⟨-,⟨⟩⟩ | before
    obtain ⟨known,ended,-⟩ := sound.destroying other target stage before
    exact ⟨known,(done target).trans ended,by rintro ⟨⟩⟩
  case stopped =>
    intro other target stage destructor now later
    rw [taken_same (fun inst => inst.queue.stop) stop]
    rcases taken_calls now with ⟨-,⟨⟩⟩ | before
    · exact absurd rfl later
    · exact sound.stopped other target stage destructor before later
  case waited =>
    intro other target destructor now
    rcases taken_calls now with ⟨-,⟨⟩⟩ | before
    exact (done target).trans (sound.waited other target destructor before)

end Takes

theorem shutdown_sound {s : Lifecycle} (sound : Sound s) (thread : Thread) : Sound (shutdown thread s).state := by
  unfold shutdown
  split
  next id ready current =>
    split
    · exact sound
    next different =>
      refine sound.takes current (free_call ready) (fun own here => ?_) rfl rfl rfl rfl ?_
      · subst here
        have known := free_created ready
        have latest := sound.latest id current
        have other : own ≠ id := fun same => different (congrArg _ same)
        omega
      · exact List.mem_append_right _ (List.mem_singleton_self _)
  · exact sound

theorem getInstance_sound {s : Lifecycle} (sound : Sound s) (thread : Thread) : Sound (getInstance thread s) := by
  unfold getInstance
  split
  next id ready current =>
    have latest := sound.latest id current
    have lent : Sound (s.update id ((s.instances id).lent thread)) := by
      refine sound.updates rfl (fun done => done) (fun held => held) (sound.joined id (by omega)) (fun _ => ?_) ?_
      · exact List.mem_append_left _ (sound.static id current)
      · exact fun other stage call => List.mem_append_left _ (sound.stopping other id stage call).2.2
    refine lent.enters ⟨?_,?_,?_,?_,?_,?_⟩
    · rintro other ⟨⟩
      change id < s.created
      omega
    · intro other stage call
      rw [update_calls,free_call ready] at call
      cases call
    · rintro other stage ⟨⟩
    · rintro other stage ⟨⟩
    · rintro other stage destructor ⟨⟩
    · rintro other destructor ⟨⟩
  · exact sound

/-- Who lets go last finds the thread joined. -/
theorem drop_sound {s : Lifecycle} (sound : Sound s) {thread : Thread} {id : Nat} {owner : Owner} (known : id < s.created)
    (shared : owner ≠ .static)
    (own : ∀ holder stage, owner = .temporary holder → s.calls holder = some (.stopping id stage false) →
      holder = thread ∧ (s.instances id).joined = true)
    (done : ∀ target stage, s.calls thread = some (.stopping target stage false) → (s.instances target).joined = true) :
    Sound (s.drop thread id owner) := by
  have static (current : s.current = some id) : .static ∈ ((s.instances id).without owner).owners :=
    (List.mem_erase_of_ne shared.symm).mpr (sound.static id current)
  have others {other : Thread} {stage : Stage} (call : s.calls other = some (.stopping id stage false))
      (kept : owner ≠ .temporary other) : .temporary other ∈ ((s.instances id).without owner).owners :=
    (List.mem_erase_of_ne kept.symm).mpr (sound.stopping other id stage call).2.2
  have proceeds : Proceeds s thread
      (if ((s.instances id).without owner).owners = [] then some (.stopping id .stop true) else none) := by
    split
    next last =>
      -- nobody is left to answer for the instance, so its thread is joined
      have unpublished : s.current ≠ some id := fun current => by simp [last] at static; exact static current
      have joined : (s.instances id).joined = true := by
        rcases sound.charge id known with joined | current | ⟨other,stage,call⟩
        · exact joined
        · exact absurd current unpublished
        · by_cases temporary : owner = .temporary other
          · exact (own other stage temporary call).2
          · have left := others call temporary
            rw [last] at left
            cases left
      refine ⟨?_,fun target stage call => .inl (done target stage call),?_,?_,?_,?_⟩
      · rintro target ⟨⟩
      · rintro target stage ⟨⟩
      · rintro target stage ⟨⟩
        exact ⟨known,joined,unpublished⟩
      · rintro target stage destructor ⟨⟩ later
        exact absurd rfl later
      · rintro target destructor ⟨⟩
    · exact .returns done
  refine Sound.updates (sound.enters proceeds) rfl (fun held => held) (fun held => held) (sound.joined id known) static ?_
  intro other stage call
  rw [enter_calls] at call
  split at call
  · split at call <;> cases call
  next different =>
    refine others call ?_
    rintro rfl
    exact different (own other stage rfl call).1

theorem release_sound {s : Lifecycle} (sound : Sound s) (thread : Thread) : Sound (release thread s) := by
  unfold release
  split
  next id call =>
    refine drop_sound sound (sound.holding thread id call) (by rintro ⟨⟩) ?_ ?_
    · rintro holder stage ⟨⟩
    · intro target stage stopping
      rw [call] at stopping
      cases stopping
  · exact sound

/-- A `teardown` that goes on about the same instance. -/
theorem Proceeds.next {s : Lifecycle} (sound : Sound s) {thread : Thread} {id : Nat} {stage later : Stage} {destructor : Bool}
    (call : s.calls thread = some (.stopping id stage destructor))
    (stopped : later ≠ .stop → (s.instances id).queue.stop = true)
    (waited : later = .worker → (s.instances id).joined = true) :
    Proceeds s thread (some (.stopping id later destructor)) := by
  refine ⟨?_,?_,?_,?_,?_,?_⟩
  · rintro target ⟨⟩
  · intro target before held
    rw [call] at held
    cases held
    exact .inr ⟨later,rfl⟩
  · rintro target next ⟨⟩
    exact ⟨stage,call⟩
  · rintro target next ⟨⟩
    exact sound.destroying thread id stage call
  · rintro target next kind ⟨⟩ past
    exact stopped past
  · rintro target kind ⟨⟩
    exact waited rfl

theorem teardown_sound {s : Lifecycle} (sound : Sound s) (thread : Thread) : Sound (teardown thread s).state := by
  unfold teardown
  split
  next id destructor call =>
    obtain ⟨known,old⟩ := sound.known call
    have idle : (s.instances id).running = false := by
      rw [← Bool.not_eq_true,sound.running id known]
      exact old
    have halted : Sound (s.update id (s.instances id).halted) :=
      sound.updates idle.symm (fun done => done) (fun _ => rfl) (sound.joined id known)
        (fun current => absurd current old) fun other stage held => (sound.stopping other id stage held).2.2
    refine halted.enters (.next halted call (fun _ => ?_) (by rintro ⟨⟩))
    rw [update_instances,if_pos rfl]
    rfl
  next id destructor call =>
    have stopped := sound.stopped thread id .join destructor call (by rintro ⟨⟩)
    split
    next joined => exact sound.enters (.next sound call (fun _ => stopped) fun _ => joined)
    · split
      · exact sound
      · split
        next finished =>
          have joined : Sound (s.update id (s.instances id).afterJoin) :=
            sound.updates rfl (fun _ => rfl) (fun held => held) (fun _ => finished)
              (fun current => absurd current (sound.known call).2)
              fun other stage held => (sound.stopping other id stage held).2.2
          refine joined.enters (.next joined call (fun _ => ?_) fun _ => ?_)
          · rw [update_instances,if_pos rfl]
            exact stopped
          · rw [update_instances,if_pos rfl]
            rfl
        · exact sound
  next id call =>
    have joined := sound.waited thread id false call
    refine drop_sound sound (sound.known call).1 (by rintro ⟨⟩) ?_ ?_
    · rintro holder stage ⟨⟩ _
      exact ⟨rfl,joined⟩
    · intro target stage stopping
      rw [call] at stopping
      cases stopping
      exact joined
  next id call =>
    refine sound.enters (.returns fun target stage stopping => ?_)
    rw [call] at stopping
    cases stopping
  · exact sound

theorem receive_sound {s : Lifecycle} (sound : Sound s) (id : Nat) (env : Envelope) : Sound (receive id env s).state := by
  unfold receive
  split
  next ready =>
    exact sound.updates rfl (fun done => done) (fun held => held) (sound.joined id ready.1) (sound.static id)
      fun other stage held => (sound.stopping other id stage held).2.2
  · exact sound

/-- The loop touches the queue and its own place, and ends for good. -/
theorem advance_keeps (inst : Instance) : inst.advance.1.running = inst.running ∧ inst.advance.1.joined = inst.joined ∧
    inst.advance.1.owners = inst.owners ∧ inst.advance.1.queue.stop = inst.queue.stop ∧
    (inst.point = .finished → inst.advance.1 = inst) := by
  unfold Instance.advance
  split
  · split
    · simp_all
    · split <;> simp_all
  all_goals simp_all

theorem processingLoop_sound {s : Lifecycle} (sound : Sound s) (id : Nat) : Sound (processingLoop id s).state := by
  unfold processingLoop
  split
  next ready =>
    obtain ⟨running,joined,owners,stop,ended⟩ := advance_keeps (s.instances id)
    refine sound.updates running ?_ ?_ ?_ ?_ ?_
    · rw [joined]
      exact fun done => done
    · rw [stop]
      exact fun held => held
    · rw [joined]
      intro done
      have finished := sound.joined id ready.1 done
      rw [ended finished]
      exact finished
    · rw [owners]
      exact sound.static id
    · rw [owners]
      exact fun other stage held => (sound.stopping other id stage held).2.2
  · exact sound

theorem step_sound {s : Lifecycle} (sound : Sound s) (label : Label) : Sound (step label s).state := by
  cases label with
  | init thread => exact init_sound sound thread
  | shutdown thread => exact shutdown_sound sound thread
  | getInstance thread => exact getInstance_sound sound thread
  | release thread => exact release_sound sound thread
  | teardown thread => exact teardown_sound sound thread
  | receive id env => exact receive_sound sound id env
  | processingLoop id => exact processingLoop_sound sound id

theorem run_sound (schedule : List Label) : Sound (run step schedule initial).state :=
  run_preserves step Sound (fun _ label sound => step_sound sound label) schedule initial initial_sound

end Lifecycle

end Wisp
