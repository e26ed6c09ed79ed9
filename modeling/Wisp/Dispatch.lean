import Wisp.ConnectionManager
import Wisp.ListTable
import Wisp.Transition

/-! What a client makes of a delivered message. The table of `ConnectionManager` with the
functions in it and the count of scoped registrations that decides whether a message is
classified at all. -/
namespace Wisp

open ListTable

/-- A `CallbackEntry`; an empty `std::function` is stored like any other and never called. -/
structure Callback (φ : Type) where
  owner : Nat
  func : Option φ
  scope : Origin
  deriving DecidableEq, Repr

namespace Callback

variable {φ : Type}

/-- Asked for one origin only. -/
def narrow (entry : Callback φ) : Bool := entry.scope ≠ .any

def bare (entry : Callback φ) : CallbackEntry := ⟨entry.owner,entry.scope⟩

/-- The table's list without its functions. -/
def bareList (callbacks : Filled (Callback φ)) : CallbackList :=
  ⟨callbacks.val.map bare,by simpa using callbacks.property⟩

theorem bareList_without (owner : Nat) (callbacks : Filled (Callback φ)) :
    (bareList callbacks).without owner =
      if gone : callbacks.val.filter (·.owner ≠ owner) = [] then none else some (bareList ⟨_,gone⟩) := by
  have kept : (bareList callbacks).entries.filter (·.owner ≠ owner) =
      (callbacks.val.filter (·.owner ≠ owner)).map bare := by
    rw [bareList,List.filter_map]
    rfl
  unfold CallbackList.without
  simp only [kept,List.map_eq_nil_iff]
  rfl

end Callback

/-- One call of a user's function; `replyTopic` is what `t_currentReplyTopic` holds meanwhile. -/
structure Invocation (φ : Type) where
  func : φ
  data : Str
  replyTopic : Str
  deriving DecidableEq, Repr

structure Dispatcher (φ : Type) where
  clientId : Str
  handlers : Table Str (Callback φ) := ∅
  connected : Bool := false
  /-- Each registration it counts is stored, so 64 bits hold it. -/
  scopedHandlers : Nat := 0

namespace Dispatcher

open Callback

variable {φ : Type}

def createControlEnvelope (controlKey topic : Str) (d : Dispatcher φ) : Envelope :=
  Wire.makeControl controlKey d.clientId topic

def createSubscribeEnvelope (key : Str) (d : Dispatcher φ) : Envelope :=
  { Wire.makeControl Keys.subscribe d.clientId key with
    payload := (d.handlers.lookup key).elim [] fun callbacks => encodeSubscribeScope (bareList callbacks).unionScope }

def performRegistration (key : Str) (callback : Option φ) (owner : Nat) (scope : Origin) (d : Dispatcher φ) :
    Dispatcher φ × List Envelope :=
  let next := listed key d.handlers ++ [⟨owner,callback,scope⟩]
  let d := { d with
    handlers := d.handlers.insert key ⟨next,List.append_ne_nil_of_right_ne_nil _ (List.cons_ne_nil _ _)⟩
    scopedHandlers := if scope ≠ .any then d.scopedHandlers + 1 else d.scopedHandlers }
  (d,if d.connected then [d.createSubscribeEnvelope key] else [])

/-- The loop of `performUnregistration`: what stays of a list, and the count behind it;
`none` where the count would go below 0. -/
def release (owner : Nat) : List (Callback φ) → Nat → Option (List (Callback φ) × Nat)
  | [],scopedHandlers => some ([],scopedHandlers)
  | entry :: rest,scopedHandlers =>
    if entry.owner ≠ owner then
      (release owner rest scopedHandlers).map fun (next,left) => (entry :: next,left)
    else if entry.scope ≠ .any then
      match scopedHandlers with
      | 0 => none
      | left + 1 => release owner rest left
    else release owner rest scopedHandlers

def performUnregistration (key : Str) (owner : Nat) (d : Dispatcher φ) : Option (Dispatcher φ × List Envelope) :=
  match d.handlers.lookup key with
  | none => some (d,[])
  | some callbacks =>
    (release owner callbacks.val d.scopedHandlers).map fun (next,scopedHandlers) =>
      if gone : next = [] then
        -- unlike SUBSCRIBE, sent while offline too
        ({ d with handlers := d.handlers.erase key, scopedHandlers },[d.createControlEnvelope Keys.unsubscribe key])
      else
        let d := { d with handlers := d.handlers.insert key ⟨next,gone⟩, scopedHandlers }
        (d,if d.connected = true ∧ (bareList ⟨next,gone⟩).unionScope ≠ (bareList callbacks).unionScope then
          [d.createSubscribeEnvelope key] else [])

def resubscribeAll (d : Dispatcher φ) : List Envelope := d.handlers.keys.map d.createSubscribeEnvelope

def statusHandler (connected : Bool) (d : Dispatcher φ) : Dispatcher φ × List Envelope :=
  let d := { d with connected }
  (d,if connected then d.createControlEnvelope Keys.connect [] :: d.resubscribeAll else [])

/-- What `m_brokerId` holds after these messages: the name the broker last gave itself. -/
def brokerId (received : List Envelope) : Str :=
  received.foldl (fun known inbound =>
    if inbound.header.handlerKey = Keys.heartbeatAck ∨ inbound.header.handlerKey = Keys.reset then
      if inbound.header.senderId.isEmpty then known else inbound.header.senderId
    else known) []

/-- The loop of `dispatch`; a function that throws is caught and the loop goes on. -/
def dispatch (data replyTopic : Str) (isLocal : Bool) : List (Callback φ) → List (Invocation φ)
  | [] => []
  | entry :: rest =>
    if !scopeAccepts entry.scope isLocal then dispatch data replyTopic isLocal rest
    else
      match entry.func with
      | none => dispatch data replyTopic isLocal rest
      | some func => ⟨func,data,replyTopic⟩ :: dispatch data replyTopic isLocal rest

/-- `worker` is the broker id it knows, empty while it knows none; without a worker, or when
nobody asks, a message counts as local. -/
def classify (asked : Bool) (worker : Option Str) (env : Envelope) : Bool :=
  match worker with
  | none => true
  | some brokerId => if asked then brokerId.isEmpty || env.header.originBrokerId == brokerId else true

/-- `handleMessage` behind the decision whether to classify. -/
def handle (asked : Bool) (worker : Option Str) (env : Envelope) (d : Dispatcher φ) : List (Invocation φ) :=
  let topic := env.header.topic
  let callbacks := d.handlers.lookup topic
  let wildcardCallbacks := if topic ≠ Keys.wildcardTopic then d.handlers.lookup Keys.wildcardTopic else none
  if callbacks.isNone && wildcardCallbacks.isNone then []
  else
    let isLocal := classify asked worker env
    let each (list : Option (Filled (Callback φ))) :=
      dispatch env.payload env.header.replyTopic isLocal (list.elim [] Subtype.val)
    each callbacks ++ each wildcardCallbacks

def handleMessage (worker : Option Str) (env : Envelope) (d : Dispatcher φ) : List (Invocation φ) :=
  d.handle (decide (d.scopedHandlers > 0)) worker env

/-- Without the fast path. -/
def handleClassified (worker : Option Str) (env : Envelope) (d : Dispatcher φ) : List (Invocation φ) :=
  d.handle true worker env

/-- The registrations a message is for, in the order in which they are asked. -/
def addressed (env : Envelope) (d : Dispatcher φ) : List (Callback φ) :=
  listed env.header.topic d.handlers ++
    if env.header.topic ≠ Keys.wildcardTopic then listed Keys.wildcardTopic d.handlers else []

def invocation (env : Envelope) (entry : Callback φ) : Option (Invocation φ) :=
  entry.func.map fun func => ⟨func,env.payload,env.header.replyTopic⟩

variable {d : Dispatcher φ}

theorem dispatch_eq (env : Envelope) (isLocal : Bool) (entries : List (Callback φ)) :
    dispatch env.payload env.header.replyTopic isLocal entries =
      (entries.filter fun entry => scopeAccepts entry.scope isLocal).filterMap (invocation env) := by
  induction entries with
  | nil => rfl
  | cons entry rest ih =>
    rw [dispatch,List.filter_cons]
    cases accepted : scopeAccepts entry.scope isLocal with
    | false => simpa using ih
    | true => cases called : entry.func <;> simp [invocation,called,ih]

/-- A message goes to the registrations it is for that want its origin. -/
theorem handle_eq (asked : Bool) (worker : Option Str) (env : Envelope) : d.handle asked worker env =
    ((d.addressed env).filter fun entry => scopeAccepts entry.scope (classify asked worker env)).filterMap
      (invocation env) := by
  unfold handle addressed listed
  dsimp only
  by_cases plain : env.header.topic ≠ Keys.wildcardTopic
  · rw [if_pos plain,if_pos plain]
    cases d.handlers.lookup env.header.topic <;> cases d.handlers.lookup Keys.wildcardTopic <;> simp [dispatch_eq]
  · rw [if_neg plain,if_neg plain]
    cases d.handlers.lookup env.header.topic <;> simp [dispatch_eq]

theorem addressed_stored {env : Envelope} {entry : Callback φ} (member : entry ∈ d.addressed env) :
    entry ∈ stored d.handlers := by
  rcases List.mem_append.mp member with exactly | wildcard
  · exact mem_stored exactly
  · split at wildcard
    · exact mem_stored wildcard
    · cases wildcard

/-- The count is that of the stored registrations that are not for everything. -/
def Counted (d : Dispatcher φ) : Prop := d.scopedHandlers = (stored d.handlers).countP narrow

theorem Counted.fast_path (counted : d.Counted) (worker : Option Str) (env : Envelope) :
    d.handleMessage worker env = d.handleClassified worker env := by
  by_cases asked : d.scopedHandlers > 0
  · rw [handleMessage,decide_eq_true asked,handleClassified]
  · have none : (stored d.handlers).countP narrow = 0 := by
      rw [← counted]
      omega
    have wide (isLocal : Bool) : ∀ entry ∈ d.addressed env, scopeAccepts entry.scope isLocal = true := by
      intro entry member
      have any := List.countP_eq_zero.mp none entry (addressed_stored member)
      simp only [narrow,ne_eq,decide_not,Bool.not_eq_true',decide_eq_false_iff_not,not_not] at any
      rw [any,scopeAccepts_any]
    rw [handleMessage,handleClassified,handle_eq,handle_eq,List.filter_eq_self.mpr (wide _),
      List.filter_eq_self.mpr (wide _)]

theorem performRegistration_counted (counted : d.Counted) (key : Str) (callback : Option φ) (owner : Nat)
    (scope : Origin) : (d.performRegistration key callback owner scope).1.Counted := by
  have erased := countP_stored_erase narrow key d.handlers
  unfold Counted at counted ⊢
  simp only [performRegistration]
  rw [countP_stored_insert,List.countP_append,List.countP_singleton]
  by_cases any : scope = .any
  · rw [if_neg (by simp [any]),if_neg (by simp [narrow,any])]
    omega
  · rw [if_pos any,if_pos (by simp [narrow,any])]
    omega

/-- A registration goes behind the others of its topic. -/
theorem performRegistration_listed (key : Str) (callback : Option φ) (owner : Nat) (scope : Origin) (topic : Str) :
    listed topic (d.performRegistration key callback owner scope).1.handlers =
      listed topic d.handlers ++ if key = topic then [⟨owner,callback,scope⟩] else [] := by
  rw [performRegistration,listed_insert]
  split
  next same => rw [same]
  · rw [List.append_nil]

/-- The loop takes one from the count for each scoped registration that leaves. -/
theorem release_eq (owner : Nat) (entries : List (Callback φ)) (left : Nat) :
    release owner entries (left + (entries.filter (·.owner = owner)).countP narrow) =
      some (entries.filter (·.owner ≠ owner),left) := by
  induction entries generalizing left with
  | nil => rfl
  | cons entry rest ih =>
    unfold release
    by_cases own : entry.owner = owner
    · rw [if_neg (not_not.mpr own),List.filter_cons_of_pos (by simpa using own),
        List.filter_cons_of_neg (by simpa using own),List.countP_cons]
      by_cases any : entry.scope = .any
      · rw [if_neg (not_not.mpr any),if_neg (by simp [narrow,any]),Nat.add_zero]
        exact ih left
      · rw [if_pos any,if_pos (by simp [narrow,any])]
        exact ih left
    · rw [if_pos own,List.filter_cons_of_neg (by simpa using own),ih left,
        List.filter_cons_of_pos (by simpa using own)]
      rfl

theorem Counted.release (counted : d.Counted) {key : Str} {callbacks : Filled (Callback φ)}
    (here : d.handlers.lookup key = some callbacks) (owner : Nat) :
    ∃ left, release owner callbacks.val d.scopedHandlers = some (callbacks.val.filter (·.owner ≠ owner),left) ∧
      (stored (d.handlers.erase key)).countP narrow + (callbacks.val.filter (·.owner ≠ owner)).countP narrow = left := by
  have parts : callbacks.val.countP narrow = (callbacks.val.filter (·.owner ≠ owner)).countP narrow +
      (callbacks.val.filter (·.owner = owner)).countP narrow := by
    simpa using List.countP_eq_countP_filter_add callbacks.val narrow (·.owner ≠ owner)
  have erased := countP_stored_erase narrow key d.handlers
  rw [listed,here,Option.elim_some,← counted,parts] at erased
  refine ⟨_,?_,rfl⟩
  rw [← erased,← Nat.add_assoc]
  exact release_eq owner callbacks.val _

/-- A withdrawal never takes the count below 0, and leaves it right. -/
theorem performUnregistration_counted (counted : d.Counted) (key : Str) (owner : Nat) :
    ∃ next sent, d.performUnregistration key owner = some (next,sent) ∧ next.Counted := by
  unfold performUnregistration
  cases here : d.handlers.lookup key with
  | none => exact ⟨d,[],rfl,counted⟩
  | some callbacks =>
    obtain ⟨left,released,rest⟩ := counted.release here owner
    dsimp only
    rw [released,Option.map_some]
    dsimp only
    by_cases gone : callbacks.val.filter (·.owner ≠ owner) = []
    · rw [dif_pos gone]
      refine ⟨_,_,rfl,?_⟩
      rw [gone] at rest
      exact rest.symm
    · rw [dif_neg gone]
      refine ⟨_,_,rfl,?_⟩
      show left = (stored (d.handlers.insert key ⟨_,gone⟩)).countP narrow
      rw [← rest,countP_stored_insert,Nat.add_comm]

/-- One section of the table's lock. -/
inductive Call (φ : Type) where
  | register (key : Str) (callback : Option φ) (owner : Nat) (scope : Origin)
  | unregister (key : Str) (owner : Nat)
  | status (connected : Bool)

def perform (call : Call φ) (d : Dispatcher φ) : Option (Dispatcher φ × List Envelope) :=
  match call with
  | .register key callback owner scope => some (d.performRegistration key callback owner scope)
  | .unregister key owner => d.performUnregistration key owner
  | .status connected => some (d.statusHandler connected)

/-- What a row of calls leaves and queues; `none` if the count went below 0 on the way. -/
def run : List (Call φ) → Dispatcher φ → Option (Dispatcher φ × List Envelope)
  | [],d => some (d,[])
  | call :: rest,d =>
    (d.perform call).bind fun (next,sent) => (run rest next).map fun (last,later) => (last,sent ++ later)

theorem perform_counted (counted : d.Counted) (call : Call φ) :
    ∃ next sent, d.perform call = some (next,sent) ∧ next.Counted := by
  cases call with
  | register key callback owner scope => exact ⟨_,_,rfl,performRegistration_counted counted key callback owner scope⟩
  | unregister key owner => exact performUnregistration_counted counted key owner
  | status connected => exact ⟨_,_,rfl,counted⟩

theorem run_counted (counted : d.Counted) (calls : List (Call φ)) :
    ∃ last sent, run calls d = some (last,sent) ∧ last.Counted := by
  induction calls generalizing d with
  | nil => exact ⟨d,[],rfl,counted⟩
  | cons call rest ih =>
    obtain ⟨next,sent,performed,still⟩ := perform_counted counted call
    obtain ⟨last,later,ran,ends⟩ := ih still
    refine ⟨last,sent ++ later,?_,ends⟩
    simp [run,performed,ran]

/-- Whatever was registered and withdrawn before, skipping the classification of a message
changes nothing. -/
theorem run_fast_path (clientId : Str) (calls : List (Call φ)) :
    ∃ d sent, run calls { clientId } = some (d,sent) ∧
      d.scopedHandlers = (stored d.handlers).countP narrow ∧
      ∀ worker env, d.handleMessage worker env = d.handleClassified worker env := by
  have fresh : Counted { clientId : Dispatcher φ } := rfl
  obtain ⟨d,sent,ran,counted⟩ := run_counted fresh calls
  exact ⟨d,sent,ran,counted,counted.fast_path⟩

/-- The same table without its functions. -/
structure Represents (d : Dispatcher φ) (c : ConnectionManager) : Prop where
  clientId : c.clientId = d.clientId
  connected : c.connected = d.connected
  keys : c.handlers.keys = d.handlers.keys
  lookup : ∀ key, c.handlers.lookup key = (d.handlers.lookup key).map bareList

namespace Represents

variable {c : ConnectionManager} (same : d.Represents c)

include same

theorem insert (key : Str) (callbacks : Filled (Callback φ)) (scopedHandlers : Nat) :
    Represents { d with handlers := d.handlers.insert key callbacks, scopedHandlers }
      { c with handlers := c.handlers.insert key (bareList callbacks) } := by
  refine ⟨same.clientId,same.connected,?_,fun other => ?_⟩
  · dsimp only
    rw [AList.keys_insert,AList.keys_insert,same.keys]
  · by_cases here : other = key
    · subst here
      simp
    · simp [AList.lookup_insert_ne here,same.lookup]

theorem erase (key : Str) (scopedHandlers : Nat) :
    Represents { d with handlers := d.handlers.erase key, scopedHandlers } { c with handlers := c.handlers.erase key } := by
  refine ⟨same.clientId,same.connected,?_,fun other => ?_⟩
  · dsimp only
    rw [AList.keys_erase,AList.keys_erase,same.keys]
  · by_cases here : other = key
    · subst here
      simp
    · simp [AList.lookup_erase_ne here,same.lookup]

theorem controls (controlKey topic : Str) :
    d.createControlEnvelope controlKey topic = c.createControlEnvelope controlKey topic := by
  rw [createControlEnvelope,ConnectionManager.createControlEnvelope,same.clientId]

theorem subscribes (key : Str) : d.createSubscribeEnvelope key = c.createSubscribeEnvelope key := by
  rw [createSubscribeEnvelope,ConnectionManager.createSubscribeEnvelope,same.clientId,same.lookup]
  cases d.handlers.lookup key <;> rfl

theorem registers (key : Str) (callback : Option φ) (owner : Nat) (scope : Origin) :
    (d.performRegistration key callback owner scope).1.Represents (c.performRegistration key owner scope).1 ∧
      (d.performRegistration key callback owner scope).2 = (c.performRegistration key owner scope).2 := by
  have pushed : CallbackList.push (c.handlers.lookup key) ⟨owner,scope⟩ =
      bareList ⟨listed key d.handlers ++ [⟨owner,callback,scope⟩],
        List.append_ne_nil_of_right_ne_nil _ (List.cons_ne_nil _ _)⟩ := by
    rw [same.lookup]
    cases here : d.handlers.lookup key <;> simp [CallbackList.push,bareList,listed,here,bare]
  unfold performRegistration ConnectionManager.performRegistration
  dsimp only
  rw [pushed]
  refine ⟨same.insert key _ _,?_⟩
  rw [(same.insert key _ _).subscribes key,same.connected]

/-- The owner's registrations leave both lists. -/
theorem unregisters (counted : d.Counted) (key : Str) (owner : Nat) :
    ∃ next, d.performUnregistration key owner = some (next,(c.performUnregistration key owner).2) ∧
      next.Represents (c.performUnregistration key owner).1 := by
  unfold performUnregistration ConnectionManager.performUnregistration
  rw [same.lookup]
  cases here : d.handlers.lookup key with
  | none => exact ⟨d,rfl,same⟩
  | some callbacks =>
    obtain ⟨left,released,_⟩ := counted.release here owner
    have left_over := bareList_without owner callbacks
    dsimp only [Option.map_some]
    rw [released,left_over,Option.map_some]
    dsimp only
    by_cases gone : callbacks.val.filter (·.owner ≠ owner) = []
    · rw [dif_pos gone,dif_pos gone]
      exact ⟨_,by rw [same.controls],same.erase key left⟩
    · rw [dif_neg gone,dif_neg gone]
      have next := same.insert key ⟨_,gone⟩ left
      refine ⟨_,?_,next⟩
      rw [next.subscribes key,same.connected]

theorem reports (connected : Bool) : (d.statusHandler connected).1.Represents (c.statusHandler connected).1 ∧
    (d.statusHandler connected).2 = (c.statusHandler connected).2 := by
  have next : Represents { d with connected } { c with connected } := ⟨same.clientId,rfl,same.keys,same.lookup⟩
  refine ⟨next,?_⟩
  cases connected with
  | false => rfl
  | true =>
    have told : d.handlers.keys.map (createSubscribeEnvelope · { d with connected := true }) =
        c.handlers.keys.map (ConnectionManager.createSubscribeEnvelope · { c with connected := true }) := by
      rw [same.keys]
      exact List.map_congr_left fun topic _ => next.subscribes topic
    exact congrArg₂ List.cons (next.controls Keys.connect []) told

end Represents

/-- What a call is to the table without functions. -/
def Call.manage (call : Call φ) (c : ConnectionManager) : Transition.Outcome ConnectionManager Envelope :=
  let (next,sent) :=
    match call with
    | .register key _ owner scope => c.performRegistration key owner scope
    | .unregister key owner => c.performUnregistration key owner
    | .status connected => c.statusHandler connected
  ⟨next,sent⟩

theorem Represents.performs {c : ConnectionManager} (same : d.Represents c) (counted : d.Counted) (call : Call φ) :
    ∃ next, d.perform call = some (next,(call.manage c).events) ∧ next.Represents (call.manage c).state := by
  cases call with
  | register key callback owner scope =>
    obtain ⟨next,sent⟩ := same.registers key callback owner scope
    exact ⟨_,congrArg some (Prod.ext rfl sent),next⟩
  | unregister key owner => exact same.unregisters counted key owner
  | status connected =>
    obtain ⟨next,sent⟩ := same.reports connected
    exact ⟨_,congrArg some (Prod.ext rfl sent),next⟩

/-- Every row of calls does to the two tables the same, and queues the same. -/
theorem Represents.runs {c : ConnectionManager} (same : d.Represents c) (counted : d.Counted) (calls : List (Call φ)) :
    ∃ last, run calls d = some (last,(Transition.run Call.manage calls c).events) ∧
      last.Represents (Transition.run Call.manage calls c).state := by
  induction calls generalizing d c with
  | nil => exact ⟨d,rfl,same⟩
  | cons call rest ih =>
    obtain ⟨next,performed,still⟩ := same.performs counted call
    obtain ⟨counted_next,sent,again,counts⟩ := perform_counted counted call
    obtain rfl : next = counted_next := congrArg Prod.fst (Option.some.inj (performed.symm.trans again))
    obtain ⟨last,ran,ends⟩ := ih still counts
    refine ⟨last,?_,ends⟩
    simp [run,performed,ran,Transition.run]

/-- A broker that gives no name in its answers stays unknown. -/
theorem brokerId_unnamed {received : List Envelope}
    (unnamed : ∀ answer ∈ received, answer.header.handlerKey = Keys.heartbeatAck ∨ answer.header.handlerKey = Keys.reset →
      answer.header.senderId = []) : brokerId received = [] := by
  unfold brokerId
  induction received with
  | nil => rfl
  | cons answer rest ih =>
    rw [List.forall_mem_cons] at unnamed
    rw [List.foldl_cons]
    split
    next answers =>
      rw [unnamed.1 answers]
      exact ih unnamed.2
    · exact ih unnamed.2

theorem filter_filterMap_eq_iff {α β : Type} (p : α → Bool) (f : α → Option β) (list : List α) :
    (list.filter p).filterMap f = list.filterMap f ↔ ∀ element ∈ list, (f element).isSome = true → p element = true := by
  induction list with
  | nil => simp
  | cons element rest ih =>
    rw [List.forall_mem_cons,← ih]
    cases kept : p element with
    | true => cases image : f element <;> simp [kept,image]
    | false =>
      cases image : f element with
      | none => simp [kept,image]
      | some value =>
        rw [List.filter_cons_of_neg (Bool.eq_false_iff.mp kept),List.filterMap_cons_some image]
        refine iff_of_false (fun same => ?_) fun both => Bool.false_ne_true (both.1 rfl)
        have shorter := ((List.filter_sublist (p := p) (l := rest)).filterMap f).length_le
        rw [same,List.length_cons] at shorter
        omega

/-- Against a broker that never names itself every message counts as local: all callbacks
are called if and only if none of them waits for the mesh. -/
theorem unknown_broker_calls_all_iff (received : List Envelope)
    (unnamed : ∀ answer ∈ received, answer.header.handlerKey = Keys.heartbeatAck ∨ answer.header.handlerKey = Keys.reset →
      answer.header.senderId = []) (env : Envelope) (d : Dispatcher φ) :
    d.handleMessage (some (brokerId received)) env = (d.addressed env).filterMap (invocation env) ↔
      ∀ entry ∈ d.addressed env, entry.func.isSome = true → entry.scope ≠ .mesh := by
  have here (asked : Bool) : classify asked (some []) env = true := by cases asked <;> rfl
  rw [brokerId_unnamed unnamed,handleMessage,handle_eq,here,filter_filterMap_eq_iff]
  refine forall₂_congr fun entry member => ?_
  rw [invocation,Option.isSome_map]
  cases entry.scope <;> simp

/-- A callback for the mesh under the topic of a message from another broker, and one for
everything under the wildcard. -/
def meshOnly : List (Call Nat) :=
  [.register (str "t") (some 7) 1 .mesh,.register Keys.wildcardTopic (some 8) 2 .any]

def fromElsewhere : Envelope :=
  { header := { handlerKey := str "t", topic := str "t", originBrokerId := str "b2" }, payload := [1] }

theorem unknown_broker_calls_all_iff_any :
    (({ clientId := [1] } : Dispatcher Nat).performRegistration (str "t") (some 7) 1 .local).1.handleMessage
      (some (brokerId [Wire.makeControl Keys.heartbeatAck [] []])) fromElsewhere = [⟨7,[1],[]⟩] := by
  refine ((unknown_broker_calls_all_iff _ ?_ _ _).mpr ?_).trans ?_ <;> decide

/-- The callback for the mesh is not called for a message that may have crossed it. -/
theorem unknown_broker_silences_mesh :
    (run meshOnly { clientId := [1] }).map (fun ran =>
      (ran.1.handleMessage (some (brokerId [Wire.makeControl Keys.heartbeatAck [] []])) fromElsewhere,
        (ran.1.addressed fromElsewhere).filterMap (invocation fromElsewhere))) =
      some ([⟨8,[1],[]⟩],[⟨7,[1],[]⟩,⟨8,[1],[]⟩]) := by
  decide

end Dispatcher

end Wisp
