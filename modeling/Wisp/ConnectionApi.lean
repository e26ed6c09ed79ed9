import Wisp.BrokerRun
import Wisp.Dispatch

/-! Registrations through the C interface, and the scope a subscription ends up with: read
by the broker from a SUBSCRIBE, and by the client from an int. -/
namespace Wisp

open ListTable

/-- Only 1 and 2 narrow a subscription; whatever else a payload holds leaves it wide. -/
def documentedScope (payload : Str) : Origin :=
  if payload = [1] then .local else if payload = [2] then .mesh else .any

def documentedOrigin (scope : Int32) : Origin :=
  if scope = 1 then .local else if scope = 2 then .mesh else .any

theorem masked (byte : UInt8) : byte &&& 3 = 0 ∨ byte &&& 3 = 1 ∨ byte &&& 3 = 2 ∨ byte &&& 3 = 3 := by
  have small : (byte &&& 3).toNat = byte.toNat % 4 := by
    rw [UInt8.toNat_and]
    exact Nat.and_two_pow_sub_one_eq_mod byte.toNat 2
  simp only [← UInt8.toNat_inj,small]
  have zero : (0 : UInt8).toNat = 0 := rfl
  have one : (1 : UInt8).toNat = 1 := rfl
  have two : (2 : UInt8).toNat = 2 := rfl
  have three : (3 : UInt8).toNat = 3 := rfl
  omega

/-- A rule that narrows for 1 and 2 only is kept where it narrows, and for bytes whose two
lowest bits are equal. -/
theorem decodeSubscribeScope_eq_iff {first : UInt8} (rest : Str) {isLocal isMesh : Prop} [Decidable isLocal]
    [Decidable isMesh] (one : isLocal → first = 1) (two : isMesh → first = 2) :
    decodeSubscribeScope (first :: rest) = (if isLocal then .local else if isMesh then .mesh else .any) ↔
      isLocal ∨ isMesh ∨ first &&& 3 = 0 ∨ first &&& 3 = 3 := by
  by_cases here : isLocal
  · have narrows : decodeSubscribeScope (first :: rest) = .local := by rw [one here]; rfl
    simp [narrows,here]
  by_cases there : isMesh
  · have narrows : decodeSubscribeScope (first :: rest) = .mesh := by rw [two there]; rfl
    simp [narrows,here,there]
  have bits : Origin.any.bits = 3 := rfl
  rcases masked first with zero | low | high | both
  · simp [decodeSubscribeScope,bits,here,there,zero]
  · simp [decodeSubscribeScope,bits,here,there,low,Origin.ofBits]
  · simp [decodeSubscribeScope,bits,here,there,high,Origin.ofBits]
  · simp [decodeSubscribeScope,bits,here,there,both,Origin.ofBits]

theorem decodeSubscribeScope_documented_iff (payload : Str) : decodeSubscribeScope payload = documentedScope payload ↔
    payload = [1] ∨ payload = [2] ∨ ∀ first ∈ payload.head?, first &&& 3 = 0 ∨ first &&& 3 = 3 := by
  cases payload with
  | nil => simp [decodeSubscribeScope,documentedScope]
  | cons first rest =>
    rw [documentedScope,decodeSubscribeScope_eq_iff rest (fun same => (List.cons.inj same).1)
      fun same => (List.cons.inj same).1]
    simp

theorem Broker.subscribe_stores {b : Broker} {senderId : Str} {env : Envelope} (m : Moment)
    (asks : env.header.handlerKey = Keys.subscribe) (taken : ¬b.Refuses senderId env.header.topic) :
    (b.processMessage env senderId false m).state.subscriptions.scopeOf senderId env.header.topic =
      some (decodeSubscribeScope env.payload) := by
  rw [(subscribe_routing env senderId m b asks).2 taken,Routing.subscribe_scopes]
  exact if_pos ⟨rfl,rfl⟩

/-- The function a C callback is wrapped in. -/
structure CCallback (ψ : Type) where
  callback : ψ
  userData : Nat
  topic : Str
  deriving DecidableEq, Repr

/-- `s_instance`, `s_pendingMsgCallbacks` and the thread's `t_lastError`. -/
structure ConnectionApi (ψ : Type) where
  manager : Option (Dispatcher (CCallback ψ)) := none
  pending : List (Str × Callback (CCallback ψ)) := []
  lastError : Str := []

namespace ConnectionApi

variable {ψ : Type}

def registerInternal (key : Str) (callback : CCallback ψ) (owner : Nat) (scope : Origin) (a : ConnectionApi ψ) :
    ConnectionApi ψ × List Envelope :=
  match a.manager with
  | some d =>
    let (next,sent) := d.performRegistration key (some callback) owner scope
    ({ a with manager := some next },sent)
  | none => ({ a with pending := a.pending ++ [(key,⟨owner,some callback,scope⟩)] },[])

/-- What waited is registered in its order; a second `init` does nothing. -/
def init (clientId : Str) (a : ConnectionApi ψ) : ConnectionApi ψ :=
  match a.manager with
  | some _ => a
  | none =>
    { a with
      manager := some (a.pending.foldl
        (fun d waiting => (d.performRegistration waiting.1 waiting.2.func waiting.2.owner waiting.2.scope).1) { clientId })
      pending := [] }

def scopeByte (scope : Int32) : UInt8 := (scope.toUInt32 &&& 0xff).toUInt8

/-- A null topic or callback is refused. -/
def registerCallbackScoped (topic : Option Str) (callback : Option ψ) (userData : Nat) (scope : Int32)
    (a : ConnectionApi ψ) : ConnectionApi ψ × List Envelope :=
  match topic,callback with
  | some topic,some callback =>
    let (next,sent) :=
      a.registerInternal topic ⟨callback,userData,topic⟩ userData (decodeSubscribeScope [scopeByte scope])
    ({ next with lastError := [] },sent)
  | _,_ => ({ a with lastError := str "topic and callback must be non-null" },[])

/-- The registrations of a topic, stored or waiting. -/
def registrations (key : Str) (a : ConnectionApi ψ) : List (Callback (CCallback ψ)) :=
  match a.manager with
  | some d => listed key d.handlers
  | none => (a.pending.filter fun waiting => waiting.1 = key).map Prod.snd

variable {a : ConnectionApi ψ}

/-- One registration more for its topic, behind the others. -/
theorem registrations_registerInternal (key : Str) (callback : CCallback ψ) (owner : Nat) (scope : Origin) (topic : Str) :
    (a.registerInternal key callback owner scope).1.registrations topic =
      a.registrations topic ++ if key = topic then [⟨owner,some callback,scope⟩] else [] := by
  unfold registerInternal registrations
  cases a.manager with
  | some d => exact d.performRegistration_listed key (some callback) owner scope topic
  | none =>
    simp only [List.filter_append,List.map_append]
    split
    next same => simp [same]
    next other => simp [other]

/-- What was registered before `init` is registered behind it. -/
theorem registrations_init (clientId topic : Str) : (a.init clientId).registrations topic = a.registrations topic := by
  have flushed (pending : List (Str × Callback (CCallback ψ))) (d : Dispatcher (CCallback ψ)) :
      listed topic (pending.foldl (fun d waiting =>
        (d.performRegistration waiting.1 waiting.2.func waiting.2.owner waiting.2.scope).1) d).handlers =
      listed topic d.handlers ++ (pending.filter fun waiting => waiting.1 = topic).map Prod.snd := by
    induction pending generalizing d with
    | nil => simp
    | cons waiting rest ih =>
      rw [List.foldl_cons,ih,d.performRegistration_listed,List.filter_cons]
      by_cases same : waiting.1 = topic <;> simp [same]
  unfold init registrations
  cases held : a.manager with
  | some d => simp only [held]
  | none => exact flushed a.pending { clientId }

end ConnectionApi

/-- A subscription is as wide as documented, through a SUBSCRIBE that the broker takes and
through the C interface, for these bytes and ints alone. -/
theorem scope_documented_iff (b : Broker) (senderId : Str) (env : Envelope) (m : Moment)
    (asks : env.header.handlerKey = Keys.subscribe) (taken : ¬b.Refuses senderId env.header.topic)
    {ψ : Type} (a : ConnectionApi ψ) (topic : Str) (callback : ψ) (userData : Nat) (scope : Int32) :
    ((b.processMessage env senderId false m).state.subscriptions.scopeOf senderId env.header.topic =
        some (documentedScope env.payload) ↔
      env.payload = [1] ∨ env.payload = [2] ∨ ∀ first ∈ env.payload.head?, first &&& 3 = 0 ∨ first &&& 3 = 3) ∧
    ((a.registerCallbackScoped (some topic) (some callback) userData scope).1.registrations topic =
        a.registrations topic ++ [⟨userData,some ⟨callback,userData,topic⟩,documentedOrigin scope⟩] ↔
      scope = 1 ∨ scope = 2 ∨ ConnectionApi.scopeByte scope &&& 3 = 0 ∨ ConnectionApi.scopeByte scope &&& 3 = 3) := by
  constructor
  · rw [Broker.subscribe_stores m asks taken,Option.some.injEq]
    exact decodeSubscribeScope_documented_iff env.payload
  · have stored := a.registrations_registerInternal topic ⟨callback,userData,topic⟩ userData
      (decodeSubscribeScope [ConnectionApi.scopeByte scope]) topic
    rw [if_pos rfl] at stored
    have decided : decodeSubscribeScope [ConnectionApi.scopeByte scope] = documentedOrigin scope ↔ _ :=
      decodeSubscribeScope_eq_iff [] (by rintro rfl; rfl) (by rintro rfl; rfl)
    rw [← decided]
    refine (Eq.congr_left stored).trans ?_
    simp

/-- A SUBSCRIBE for `t`. -/
def subscribing (payload : Str) : Envelope := { Wire.makeControl Keys.subscribe [1] (str "t") with payload }

theorem subscribing_taken (payload : Str) :
    ¬(Broker.new [9] (str "c") none).Refuses [1] (subscribing payload).header.topic := by
  have taken : ¬(Broker.new [9] (str "c") none).Refuses [1] (str "t") := (Broker.accepts_iff _ _ _).mp (by decide)
  exact taken

theorem scope_documented_iff_mesh :
    ((Broker.new [9] (str "c") none).processMessage (subscribing [2]) [1] false (.roomy [])).state.subscriptions.scopeOf
        [1] (str "t") = some .mesh ∧
      (({} : ConnectionApi Nat).registerCallbackScoped (some (str "t")) (some 7) 3 2).1.registrations (str "t") =
        [⟨3,some ⟨7,3,str "t"⟩,.mesh⟩] := by
  have both := scope_documented_iff (Broker.new [9] (str "c") none) [1] (subscribing [2]) (.roomy []) rfl
    (subscribing_taken [2]) ({} : ConnectionApi Nat) (str "t") 7 3 2
  exact ⟨both.1.mpr (.inr (.inl rfl)),both.2.mpr (.inr (.inl rfl))⟩

/-- An unknown bit beside 1, and a second byte behind it, are read as 1. -/
theorem unreadable_scope_narrows :
    (∀ payload ∈ [[5],[1,2]],
      ((Broker.new [9] (str "c") none).processMessage (subscribing payload) [1] false
        (.roomy [])).state.subscriptions.scopeOf [1] (str "t") = some .local ∧ documentedScope payload = .any) ∧
    ∀ scope ∈ [(5 : Int32),257],
      (({} : ConnectionApi Nat).registerCallbackScoped (some (str "t")) (some 7) 3 scope).1.registrations (str "t") =
        [⟨3,some ⟨7,3,str "t"⟩,.local⟩] ∧ documentedOrigin scope = .any := by
  refine ⟨fun payload member => ?_,List.forall_mem_cons.mpr ⟨by decide,List.forall_mem_singleton.mpr (by decide)⟩⟩
  have stored := Broker.subscribe_stores (.roomy []) rfl (subscribing_taken payload)
  have narrowed : ∀ payload ∈ [[5],[1,2]], decodeSubscribeScope payload = .local ∧ documentedScope payload = .any := by
    decide
  refine ⟨stored.trans ?_,(narrowed payload member).2⟩
  exact congrArg some (narrowed payload member).1

end Wisp
