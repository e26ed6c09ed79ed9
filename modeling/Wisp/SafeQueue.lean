import Mathlib.Logic.Function.Basic
import Wisp.Transition

/-! The bounded queue every worker, client and broker hands its messages through, as any
number of threads use it. A critical section is one step: a call that must wait gives up
the lock, and goes on in a later step when its thread wakes and finds what it waits for. -/
namespace Wisp

open Transition

structure SafeQueue (T : Type) where
  queue : List T
  stop : Bool
  maxSize : Nat

namespace SafeQueue

variable {T : Type}

def new (maxSize : Nat) : SafeQueue T := ⟨[],false,maxSize⟩

/-- What a finished critical section did or returned. -/
inductive Event (T : Type) where
  | pushed (thread : Nat) (value : T) (wasEmpty : Bool)
  | refused (thread : Nat) (value : T)
  | popped (thread : Nat) (value : T)
  | exhausted (thread : Nat)
  | missed (thread : Nat)
  | drained (values : List T)
  | emptiness (answer : Bool)
  | stopped
  | reopened
  deriving DecidableEq, Repr

/-- What a push waits for. -/
def hasRoom (q : SafeQueue T) : Bool := decide (q.queue.length < q.maxSize) || q.stop

/-- What a pop waits for. -/
def hasWork (q : SafeQueue T) : Bool := !q.queue.isEmpty || q.stop

/-- The rest of a push whose wait is over. -/
def pushInternal (thread : Nat) (value : T) (q : SafeQueue T) : Outcome (SafeQueue T) (Event T) :=
  if q.stop then ⟨q,[.refused thread value]⟩
  else ⟨{ q with queue := q.queue ++ [value] },[.pushed thread value q.queue.isEmpty]⟩

/-- The rest of a pop whose wait is over. -/
def pop (thread : Nat) (q : SafeQueue T) : Outcome (SafeQueue T) (Event T) :=
  match q.queue with
  | [] => ⟨q,[.exhausted thread]⟩
  | value :: rest => ⟨{ q with queue := rest },[.popped thread value]⟩

def tryPop (thread : Nat) (q : SafeQueue T) : Outcome (SafeQueue T) (Event T) :=
  match q.queue with
  | [] => ⟨q,[.missed thread]⟩
  | value :: rest => ⟨{ q with queue := rest },[.popped thread value]⟩

def drainTo (q : SafeQueue T) : Outcome (SafeQueue T) (Event T) :=
  ⟨{ q with queue := [] },[.drained q.queue]⟩

/-- A call that may have to wait; a timed push may give up. -/
inductive Waiting (T : Type) where
  | push (value : T) (timed : Bool)
  | pop
  deriving DecidableEq, Repr

def Waiting.ready (q : SafeQueue T) : Waiting T → Bool
  | .push _ _ => q.hasRoom
  | .pop => q.hasWork

def Waiting.proceed (thread : Nat) (q : SafeQueue T) : Waiting T → Outcome (SafeQueue T) (Event T)
  | .push value _ => q.pushInternal thread value
  | .pop => q.pop thread

/-- The queue and the calls its threads are blocked in. -/
structure Shared (T : Type) where
  q : SafeQueue T
  blocked : Nat → Option (Waiting T)

def Shared.new (maxSize : Nat) : Shared T := ⟨.new maxSize,fun _ => none⟩

inductive Label (T : Type) where
  | push (thread : Nat) (value : T) (timed : Bool)
  | pop (thread : Nat)
  | wake (thread : Nat)
  | expire (thread : Nat)
  | tryPop (thread : Nat)
  | drainTo
  | empty
  | stop
  | reset
  deriving DecidableEq, Repr

/-- A thread with the lock looks whether its call can go on, and waits if it cannot. -/
def attempt (thread : Nat) (call : Waiting T) (s : Shared T) : Outcome (Shared T) (Event T) :=
  if call.ready s.q then
    ⟨⟨(call.proceed thread s.q).state,Function.update s.blocked thread none⟩,(call.proceed thread s.q).events⟩
  else ⟨{ s with blocked := Function.update s.blocked thread (some call) },[]⟩

/-- A thread calls; one that is blocked already cannot. -/
def enter (thread : Nat) (call : Waiting T) (s : Shared T) : Outcome (Shared T) (Event T) :=
  match s.blocked thread with
  | some _ => ⟨s,[]⟩
  | none => attempt thread call s

/-- A blocked thread, notified or not, looks at its predicate again. -/
def wake (thread : Nat) (s : Shared T) : Outcome (Shared T) (Event T) :=
  match s.blocked thread with
  | some call => attempt thread call s
  | none => ⟨s,[]⟩

/-- The time of a timed push is up; its predicate still has the last word. -/
def expire (thread : Nat) (s : Shared T) : Outcome (Shared T) (Event T) :=
  match s.blocked thread with
  | some (.push value true) =>
    if s.q.hasRoom then attempt thread (.push value true) s
    else ⟨{ s with blocked := Function.update s.blocked thread none },[.refused thread value]⟩
  | _ => ⟨s,[]⟩

def step : Label T → Shared T → Outcome (Shared T) (Event T)
  | .push thread value timed, s => enter thread (.push value timed) s
  | .pop thread, s => enter thread .pop s
  | .wake thread, s => wake thread s
  | .expire thread, s => expire thread s
  | .tryPop thread, s => ⟨{ s with q := (s.q.tryPop thread).state },(s.q.tryPop thread).events⟩
  | .drainTo, s => ⟨{ s with q := s.q.drainTo.state },s.q.drainTo.events⟩
  | .empty, s => ⟨s,[.emptiness s.q.queue.isEmpty]⟩
  | .stop, s => ⟨{ s with q := { s.q with stop := true } },[.stopped]⟩
  | .reset, s => ⟨{ s with q := { s.q with stop := false } },[.reopened]⟩

/-- Everything the critical section of a label can do to the queue. -/
inductive Effect (q : SafeQueue T) : Label T → List (Event T) → SafeQueue T → Prop where
  | waits (label : Label T) : Effect q label [] q
  | pushed (label : Label T) (thread : Nat) (value : T) (running : q.stop = false)
    (room : q.queue.length < q.maxSize) :
    Effect q label [.pushed thread value q.queue.isEmpty] { q with queue := q.queue ++ [value] }
  | refused (label : Label T) (thread : Nat) (value : T) : Effect q label [.refused thread value] q
  | popped (label : Label T) (thread : Nat) (value : T) (rest : List T) (front : q.queue = value :: rest) :
    Effect q label [.popped thread value] { q with queue := rest }
  | exhausted (label : Label T) (thread : Nat) (stopped : q.stop = true) (none : q.queue = []) :
    Effect q label [.exhausted thread] q
  | missed (thread : Nat) (none : q.queue = []) : Effect q (.tryPop thread) [.missed thread] q
  | drained : Effect q .drainTo [.drained q.queue] { q with queue := [] }
  | emptiness : Effect q .empty [.emptiness q.queue.isEmpty] q
  | stopped : Effect q .stop [.stopped] { q with stop := true }
  | reopened : Effect q .reset [.reopened] { q with stop := false }

theorem pushInternal_effect (label : Label T) (thread : Nat) (value : T) (q : SafeQueue T)
    (room : q.hasRoom = true) :
    Effect q label (q.pushInternal thread value).events (q.pushInternal thread value).state := by
  unfold pushInternal
  split
  · exact .refused label thread value
  next running =>
    rw [Bool.not_eq_true] at running
    rw [hasRoom,running,Bool.or_false,decide_eq_true_iff] at room
    exact .pushed label thread value running room

theorem pop_effect (label : Label T) (thread : Nat) (q : SafeQueue T) (work : q.hasWork = true) :
    Effect q label (q.pop thread).events (q.pop thread).state := by
  unfold pop
  cases queued : q.queue with
  | nil =>
    rw [hasWork,queued] at work
    exact .exhausted label thread work queued
  | cons value rest => exact .popped label thread value rest queued

theorem tryPop_effect (thread : Nat) (q : SafeQueue T) :
    Effect q (.tryPop thread) (q.tryPop thread).events (q.tryPop thread).state := by
  unfold tryPop
  cases queued : q.queue with
  | nil => exact .missed thread queued
  | cons value rest => exact .popped _ thread value rest queued

theorem attempt_effect (label : Label T) (thread : Nat) (call : Waiting T) (s : Shared T) :
    Effect s.q label (attempt thread call s).events (attempt thread call s).state.q := by
  unfold attempt
  split
  next ready =>
    cases call with
    | push value timed => exact pushInternal_effect label thread value s.q ready
    | pop => exact pop_effect label thread s.q ready
  · exact .waits label

theorem enter_effect (label : Label T) (thread : Nat) (call : Waiting T) (s : Shared T) :
    Effect s.q label (enter thread call s).events (enter thread call s).state.q := by
  unfold enter
  split
  · exact .waits label
  · exact attempt_effect label thread call s

theorem wake_effect (thread : Nat) (s : Shared T) :
    Effect s.q (.wake thread) (wake thread s).events (wake thread s).state.q := by
  unfold wake
  split
  · exact attempt_effect _ thread _ s
  · exact .waits _

theorem expire_effect (thread : Nat) (s : Shared T) :
    Effect s.q (.expire thread) (expire thread s).events (expire thread s).state.q := by
  unfold expire
  split
  · split
    · exact attempt_effect _ thread _ s
    · exact .refused _ thread _
  · exact .waits _

theorem step_effect (label : Label T) (s : Shared T) :
    Effect s.q label (step label s).events (step label s).state.q := by
  cases label with
  | push thread value timed => exact enter_effect _ thread _ s
  | pop thread => exact enter_effect _ thread _ s
  | wake thread => exact wake_effect thread s
  | expire thread => exact expire_effect thread s
  | tryPop thread => exact tryPop_effect thread s.q
  | drainTo => exact .drained
  | empty => exact .emptiness
  | stop => exact .stopped
  | reset => exact .reopened

/-- The value a successful push put in. -/
def Event.given : Event T → List T
  | .pushed _ value _ => [value]
  | _ => []

/-- The values a call handed out. -/
def Event.taken : Event T → List T
  | .popped _ value => [value]
  | .drained values => values
  | _ => []

/-- What was pushed is what was handed out and then what is queued, never more than fits. -/
structure Accounts (maxSize : Nat) (q : SafeQueue T) (trace : List (Event T)) : Prop where
  ledger : trace.flatMap Event.given = trace.flatMap Event.taken ++ q.queue
  bounded : q.queue.length ≤ maxSize
  limit : q.maxSize = maxSize

variable {maxSize : Nat} {label : Label T} {q after : SafeQueue T} {events trace : List (Event T)}

theorem Effect.accounts (effect : Effect q label events after) (accounts : Accounts maxSize q trace) :
    Accounts maxSize after (trace ++ events) := by
  have ledger := accounts.ledger
  have bounded := accounts.bounded
  have limit := accounts.limit
  cases effect with
  | waits => exact ⟨by simpa using ledger,bounded,limit⟩
  | pushed label thread value running room =>
    refine ⟨by simp [Event.given,Event.taken,ledger],?_,limit⟩
    rw [List.length_append,List.length_singleton]
    omega
  | popped label thread value rest front =>
    rw [front] at ledger bounded
    refine ⟨by simp [Event.given,Event.taken,ledger],?_,limit⟩
    rw [List.length_cons] at bounded
    exact Nat.le_of_succ_le bounded
  | drained => exact ⟨by simp [Event.given,Event.taken,ledger],Nat.zero_le _,limit⟩
  | refused | exhausted | missed | emptiness | stopped | reopened =>
    exact ⟨by simpa [Event.given,Event.taken] using ledger,bounded,limit⟩

theorem run_accounts (maxSize : Nat) (schedule : List (Label T)) :
    Accounts maxSize (run step schedule (Shared.new maxSize)).state.q
      (run step schedule (Shared.new maxSize)).events :=
  run_reports step (fun s trace => Accounts maxSize s.q trace)
    (fun s _ label accounts => (step_effect label s).accounts accounts) schedule _ ⟨rfl,Nat.zero_le _,rfl⟩

/-- What is done to a stopped queue: nothing is put in, and only `reset` opens it. -/
theorem Effect.closed (effect : Effect q label events after) (stopped : q.stop = true) :
    (∀ event ∈ events, event.given = []) ∧ (after.stop = true ∨ label = .reset) := by
  cases effect with
  | pushed label thread value running room =>
    rw [stopped] at running
    cases running
  | reopened => exact ⟨by simp [Event.given],.inr rfl⟩
  | stopped => exact ⟨by simp [Event.given],.inl rfl⟩
  | waits | refused | popped | exhausted | missed | drained | emptiness =>
    exact ⟨by simp [Event.given],.inl stopped⟩

/-- What a report of a push or of a failed pop says about the queue it met. -/
theorem Effect.report (effect : Effect q label events after) :
    (∀ thread value wasEmpty, .pushed thread value wasEmpty ∈ events →
      q.stop = false ∧ (wasEmpty = true ↔ q.queue = []) ∧ after.queue = q.queue ++ [value]) ∧
    (∀ thread value, .refused thread value ∈ events → after.queue = q.queue) ∧
    ∀ thread, .exhausted thread ∈ events → q.stop = true ∧ q.queue = [] := by
  cases effect with
  | pushed label thread value running room =>
    refine ⟨?_,by simp,by simp⟩
    intro reporter reported wasEmpty member
    rw [List.mem_singleton,Event.pushed.injEq] at member
    obtain ⟨rfl,rfl,rfl⟩ := member
    exact ⟨running,List.isEmpty_iff,rfl⟩
  | refused label thread value => exact ⟨by simp,fun _ _ _ => rfl,by simp⟩
  | exhausted label thread stopped none => exact ⟨by simp,by simp,fun _ _ => ⟨stopped,none⟩⟩
  | waits | popped | missed | drained | emptiness | stopped | reopened => simp

theorem run_stopped (later : List (Label T)) (s : Shared T) (stopped : s.q.stop = true)
    (closed : Label.reset ∉ later) : ∀ event ∈ (run step later s).events, event.given = [] := by
  induction later generalizing s with
  | nil => simp
  | cons label rest ih =>
    rw [List.mem_cons,not_or] at closed
    obtain ⟨quiet,still⟩ := (step_effect label s).closed stopped
    have still := still.resolve_right fun reset => closed.1 reset.symm
    intro event member
    rw [run,List.mem_append] at member
    rcases member with now | after
    · exact quiet event now
    · exact ih _ still closed.2 event after

/-- For any threads and any interleaving of their calls: pushed values come out once each
and in order, the bound is kept, a push that fails changes nothing, a stopped queue takes
nothing until it is reset, a pop fails only on a stopped and empty queue, and a push knows
whether it found the queue empty. -/
theorem queue_loses_and_reorders_nothing (maxSize : Nat) (schedule : List (Label T)) :
    let reached := run step schedule (Shared.new maxSize)
    let q := reached.state.q
    reached.events.flatMap Event.given = reached.events.flatMap Event.taken ++ q.queue ∧
    q.queue.length ≤ maxSize ∧
    (∀ label, let next := step label reached.state
      (∀ thread value wasEmpty, .pushed thread value wasEmpty ∈ next.events →
        q.stop = false ∧ (wasEmpty = true ↔ q.queue = []) ∧ next.state.q.queue = q.queue ++ [value]) ∧
      (∀ thread value, .refused thread value ∈ next.events → next.state.q.queue = q.queue) ∧
      ∀ thread, .exhausted thread ∈ next.events → q.stop = true ∧ q.queue = []) ∧
    ∀ later, Label.reset ∉ later →
      ∀ event ∈ (run step (.stop :: later) reached.state).events, event.given = [] := by
  intro reached q
  have accounts := run_accounts maxSize schedule
  refine ⟨accounts.ledger,accounts.bounded,fun label => ?_,fun later closed => ?_⟩
  · exact (step_effect label reached.state).report
  · intro event member
    rw [run,List.mem_append] at member
    rcases member with now | after
    · rw [List.mem_singleton.mp now]
      rfl
    · exact run_stopped later _ rfl closed event after

end SafeQueue

end Wisp
