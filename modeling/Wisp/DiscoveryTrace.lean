import Mathlib.Data.List.Chain
import Mathlib.Logic.Relation
import Wisp.BeaconFormat
import Wisp.Transition

/-! Discovery over any sequence of its calls, whatever the datagrams hold: the dials and
drops it calls back with keep step with its table. -/
namespace Wisp

open Transition

namespace Discovery

inductive Call where
  | onDatagram (senderIp datagram : Str) (now : Nat)
  | expireStale (now : Nat)
  | setCluster (cluster : Str)

/-- The callbacks of a call, after the beacon it took in. -/
inductive Report where
  | accepted (heard : Beacon) (now : Nat)
  | dial (uuid address : Str)
  | drop (uuid : Str)
  deriving DecidableEq, Repr

/-- The beacon enters its sender into the table, or refreshes it there. -/
def accepts (heard : Beacon) (d : Discovery) : Bool :=
  decide (d.selfUuid < heard.uuid) && heard.cluster == d.cluster &&
    (decide (heard.uuid ∈ d.dialed) || decide (d.dialed.keys.length < maxDialedPeers))

def call : Call → Discovery → Outcome Discovery Report
  | .onDatagram senderIp datagram now, d =>
    match Beacon.decode datagram with
    | none => ⟨d,[]⟩
    | some heard =>
      ⟨(d.onDatagram senderIp heard now).1,
        (if d.accepts heard then [.accepted heard now] else []) ++
          (d.onDatagram senderIp heard now).2.toList.map fun (uuid,address) => .dial uuid address⟩
  | .expireStale now, d => ⟨(d.expireStale now).1,(d.expireStale now).2.map .drop⟩
  | .setCluster cluster, d => ⟨(d.setCluster cluster).1,(d.setCluster cluster).2.map .drop⟩

theorem onDatagram_eq (senderIp : Str) (heard : Beacon) (now : Nat) (d : Discovery) :
    d.onDatagram senderIp heard now =
      if d.accepts heard then
        ({ d with dialed := d.dialed.insert heard.uuid ⟨heard.address senderIp,now⟩ },
          if heard.uuid ∈ d.dialed then none else some (heard.uuid,heard.address senderIp))
      else (d,none) := by
  unfold onDatagram accepts
  dsimp only
  split
  next own =>
    have below : ¬d.selfUuid < d.selfUuid := List.lt_irrefl _
    simp [own,below]
  next =>
    split
    next smaller => simp [smaller]
    next greater =>
      split
      next foreign => simp [foreign]
      next same =>
        split
        next known => simp_all [Beacon.address]
        next unknown =>
          split
          next full => simp_all
          next room =>
            have below : d.dialed.keys.length < maxDialedPeers := by omega
            simp_all [Beacon.address]

/-- The uuids that expire are those of the table not heard for longer than the timeout. -/
theorem mem_lost (now : Nat) (d : Discovery) (uuid : Str) : uuid ∈ (d.expireStale now).2 ↔
    ∃ entry, d.dialed.lookup uuid = some entry ∧ now - entry.lastSeen > peerTimeout := by
  simp only [expireStale,List.mem_filter]
  cases found : d.dialed.lookup uuid with
  | none => simp
  | some entry =>
    have listed : uuid ∈ d.dialed.keys := AList.mem_keys.mp (AList.lookup_isSome.mp (by simp [found]))
    simp [listed]

theorem lookup_foldl_erase (lost : List Str) (dialed : AList fun _ : Str => PeerEntry) (uuid : Str)
    (stays : uuid ∉ lost) :
    (lost.foldl (fun dialed uuid => dialed.erase uuid) dialed).lookup uuid = dialed.lookup uuid := by
  induction lost generalizing dialed with
  | nil => rfl
  | cons first rest ih =>
    rw [List.mem_cons,not_or] at stays
    rw [List.foldl_cons,ih _ stays.2,AList.lookup_erase_ne stays.1]

/-- What a sweep or a swap does: some entries leave, each is reported once, and the
others stay as they are. -/
structure Leaves (d : Discovery) (lost : List Str) (d' : Discovery) : Prop where
  once : lost.Nodup
  dialed : ∀ uuid ∈ lost, uuid ∈ d.dialed
  remain : ∀ uuid, uuid ∈ d'.dialed ↔ uuid ∉ lost ∧ uuid ∈ d.dialed
  unchanged : ∀ uuid ∈ d'.dialed, d'.dialed.lookup uuid = d.dialed.lookup uuid
  selfUuid : d'.selfUuid = d.selfUuid
  cluster : ∀ uuid ∈ d'.dialed, d'.cluster = d.cluster

theorem expireStale_leaves (now : Nat) (d : Discovery) :
    Leaves d (d.expireStale now).2 (d.expireStale now).1 where
  once := d.dialed.keys_nodup.filter _
  dialed _ lost := AList.mem_keys.mpr (List.mem_of_mem_filter lost)
  remain := d.mem_expireStale now
  unchanged uuid stays := lookup_foldl_erase _ _ _ ((d.mem_expireStale now uuid).mp stays).1
  selfUuid := rfl
  cluster _ _ := rfl

theorem setCluster_leaves (cluster : Str) (d : Discovery) :
    Leaves d (d.setCluster cluster).2 (d.setCluster cluster).1 := by
  unfold setCluster
  split
  · exact ⟨List.nodup_nil,fun _ lost => (List.not_mem_nil lost).elim,by simp,fun _ _ => rfl,rfl,fun _ _ => rfl⟩
  · have none (uuid : Str) : uuid ∉ (∅ : AList fun _ : Str => PeerEntry) := AList.notMem_empty uuid
    exact ⟨d.dialed.keys_nodup,fun _ => AList.mem_keys.mpr,fun uuid => by simp [AList.mem_keys],
      fun uuid stays => absurd stays (none uuid),rfl,fun uuid stays => absurd stays (none uuid)⟩

/-- The callbacks made for a uuid, a dial as true. -/
def callbacksOf (uuid : Str) (trace : List Report) : List Bool :=
  trace.filterMap fun
    | .dial other _ => if other = uuid then some true else none
    | .drop other => if other = uuid then some false else none
    | .accepted _ _ => none

/-- The beacon of a uuid that was accepted last, and when. -/
def lastAccepted (uuid : Str) (trace : List Report) : Option (Beacon × Nat) :=
  (trace.filterMap fun
    | .accepted heard now => if heard.uuid = uuid then some (heard,now) else none
    | _ => none).getLast?

/-- Dial, drop, dial, and so on. -/
def Alternating (callbacks : List Bool) : Prop :=
  callbacks.head? ≠ some false ∧ callbacks.IsChain (· ≠ ·)

theorem Alternating.dial {callbacks : List Bool} (alternating : Alternating callbacks)
    (closed : callbacks.getLast? ≠ some true) : Alternating (callbacks ++ [true]) := by
  constructor
  · cases callbacks with
    | nil => simp
    | cons first rest => exact alternating.1
  · refine List.isChain_append.mpr ⟨alternating.2,List.isChain_singleton _,fun last isLast next isNext same => ?_⟩
    obtain rfl : next = true := by simpa using isNext.symm
    exact closed (same ▸ isLast)

theorem Alternating.drop {callbacks : List Bool} (alternating : Alternating callbacks)
    (dialed : callbacks.getLast? = some true) : Alternating (callbacks ++ [false]) := by
  constructor
  · cases callbacks with
    | nil => simp at dialed
    | cons first rest => exact alternating.1
  · refine List.isChain_append.mpr ⟨alternating.2,List.isChain_singleton _,fun last isLast next isNext same => ?_⟩
    obtain rfl : next = false := by simpa using isNext.symm
    rw [dialed] at isLast
    cases same
    cases isLast

theorem callbacksOf_append (uuid : Str) (trace later : List Report) :
    callbacksOf uuid (trace ++ later) = callbacksOf uuid trace ++ callbacksOf uuid later :=
  List.filterMap_append

theorem callbacksOf_drops (uuid : Str) {lost : List Str} (once : lost.Nodup) :
    callbacksOf uuid (lost.map .drop) = if uuid ∈ lost then [false] else [] := by
  induction lost with
  | nil => rfl
  | cons first rest ih =>
    rw [List.nodup_cons] at once
    have later := ih once.2
    unfold callbacksOf at later ⊢
    by_cases same : first = uuid
    · subst same
      simp [later,once.1]
    · simp [later,same,Ne.symm same]

/-- Callbacks leave the last beacon as it was. -/
theorem lastAccepted_callbacks {α : Type} (uuid : Str) (trace : List Report) (callback : α → Report) (xs : List α)
    (other : ∀ x heard now, callback x ≠ .accepted heard now) :
    lastAccepted uuid (trace ++ xs.map callback) = lastAccepted uuid trace := by
  have none : (xs.map callback).filterMap (fun
      | .accepted heard now => if heard.uuid = uuid then some (heard,now) else none
      | _ => none) = [] := by
    rw [List.filterMap_map]
    apply List.filterMap_eq_nil_iff.mpr
    intro x _
    cases said : callback x with
    | accepted heard now => exact (other x heard now said).elim
    | dial | drop => simp [said]
  rw [lastAccepted,List.filterMap_append,none,List.append_nil]
  rfl

/-- The table and everything reported so far. -/
structure Tracked (selfUuid : Str) (d : Discovery) (trace : List Report) : Prop where
  self : d.selfUuid = selfUuid
  alternating : ∀ uuid, Alternating (callbacksOf uuid trace)
  current : ∀ uuid, (callbacksOf uuid trace).getLast? = some true ↔ uuid ∈ d.dialed
  few : d.dialed.keys.length ≤ maxDialedPeers
  greater : ∀ uuid ∈ d.dialed, selfUuid < uuid
  heard : ∀ uuid entry, d.dialed.lookup uuid = some entry →
    ∃ beacon, lastAccepted uuid trace = some (beacon,entry.lastSeen) ∧ beacon.cluster = d.cluster

variable {selfUuid : Str} {d d' : Discovery} {trace : List Report}

theorem initial_tracked (cluster selfUuid : Str) : Tracked selfUuid ⟨cluster,selfUuid,∅⟩ [] where
  self := rfl
  alternating _ := ⟨by simp [callbacksOf],List.isChain_nil⟩
  current uuid := by simp [callbacksOf,AList.notMem_empty]
  few := Nat.zero_le _
  greater uuid dialed := absurd dialed (AList.notMem_empty uuid)
  heard uuid entry found := by simp at found

theorem keys_length_le {dialed : AList fun _ : Str => PeerEntry} {uuids : List Str}
    (within : ∀ uuid ∈ dialed, uuid ∈ uuids) : dialed.keys.length ≤ uuids.length :=
  (List.subperm_of_subset dialed.keys_nodup fun _ listed => within _ (AList.mem_keys.mpr listed)).length_le

theorem Tracked.leave {lost : List Str} (tracked : Tracked selfUuid d trace) (leaves : Leaves d lost d') :
    Tracked selfUuid d' (trace ++ lost.map .drop) where
  self := leaves.selfUuid.trans tracked.self
  alternating uuid := by
    rw [callbacksOf_append,callbacksOf_drops uuid leaves.once]
    split
    next dropped =>
      have dialed := (tracked.current uuid).mpr (leaves.dialed uuid dropped)
      exact (tracked.alternating uuid).drop dialed
    · rw [List.append_nil]
      exact tracked.alternating uuid
  current uuid := by
    rw [callbacksOf_append,callbacksOf_drops uuid leaves.once,leaves.remain]
    split
    next dropped => simp [dropped]
    next stays => simp [stays,tracked.current]
  few := (keys_length_le fun uuid stays => AList.mem_keys.mp ((leaves.remain uuid).mp stays).2).trans tracked.few
  greater uuid dialed := tracked.greater uuid ((leaves.remain uuid).mp dialed).2
  heard uuid entry found := by
    have stays : uuid ∈ d'.dialed := AList.lookup_isSome.mp (by simp [found])
    rw [leaves.unchanged uuid stays] at found
    rw [lastAccepted_callbacks uuid trace .drop _ (by simp),leaves.cluster uuid stays]
    exact tracked.heard uuid entry found

theorem lastAccepted_accept (uuid : Str) (trace : List Report) (heard : Beacon) (now : Nat) (dials : List (Str × Str)) :
    lastAccepted uuid (trace ++ .accepted heard now :: dials.map fun (uuid,address) => .dial uuid address) =
      if heard.uuid = uuid then some (heard,now) else lastAccepted uuid trace := by
  rw [List.append_cons,lastAccepted_callbacks uuid _ _ dials (by simp),lastAccepted,List.filterMap_append]
  split_ifs with same <;> simp [lastAccepted,same]

/-- An accepted beacon fills a place in the table only if its sender has none yet. -/
theorem accept_few {heard : Beacon} (accepted : d.accepts heard = true) (entry : PeerEntry)
    (few : d.dialed.keys.length ≤ maxDialedPeers) :
    (d.dialed.insert heard.uuid entry).keys.length ≤ maxDialedPeers := by
  simp only [accepts,Bool.and_eq_true,Bool.or_eq_true,decide_eq_true_eq] at accepted
  rcases accepted.2 with known | room
  · refine (keys_length_le fun uuid stays => ?_).trans few
    rcases (AList.mem_insert _).mp stays with rfl | old
    · exact AList.mem_keys.mp known
    · exact AList.mem_keys.mp old
  · have grown : (d.dialed.insert heard.uuid entry).keys.length ≤ (heard.uuid :: d.dialed.keys).length := by
      apply keys_length_le
      intro uuid stays
      rcases (AList.mem_insert _).mp stays with rfl | old
      · exact List.mem_cons_self ..
      · exact List.mem_cons_of_mem _ (AList.mem_keys.mp old)
    rw [List.length_cons] at grown
    omega

theorem Tracked.accept {heard : Beacon} (tracked : Tracked selfUuid d trace) (senderIp : Str) (now : Nat)
    (accepted : d.accepts heard = true) :
    Tracked selfUuid { d with dialed := d.dialed.insert heard.uuid ⟨heard.address senderIp,now⟩ }
      (trace ++ .accepted heard now ::
        (if heard.uuid ∈ d.dialed then none else some (heard.uuid,heard.address senderIp)).toList.map
          fun (uuid,address) => .dial uuid address) := by
  have same : d.selfUuid < heard.uuid ∧ heard.cluster = d.cluster := by
    simp only [accepts,Bool.and_eq_true,decide_eq_true_eq,beq_iff_eq] at accepted
    exact accepted.1
  have added (uuid : Str) : callbacksOf uuid (trace ++ .accepted heard now ::
      (if heard.uuid ∈ d.dialed then none else some (heard.uuid,heard.address senderIp)).toList.map
        fun (uuid,address) => .dial uuid address) =
      if heard.uuid = uuid ∧ heard.uuid ∉ d.dialed then callbacksOf uuid trace ++ [true]
      else callbacksOf uuid trace := by
    rw [callbacksOf_append]
    by_cases own : heard.uuid = uuid
    · subst own
      by_cases known : heard.uuid ∈ d.dialed <;> simp [callbacksOf,known]
    · by_cases known : heard.uuid ∈ d.dialed <;> simp [callbacksOf,known,own]
  refine ⟨tracked.self,fun uuid => ?_,fun uuid => ?_,accept_few accepted _ tracked.few,fun uuid dialed => ?_,
    fun uuid entry found => ?_⟩
  · rw [added]
    split
    next dials =>
      have unopened : (callbacksOf uuid trace).getLast? ≠ some true := by
        rw [ne_eq,tracked.current,← dials.1]
        exact dials.2
      exact (tracked.alternating uuid).dial unopened
    · exact tracked.alternating uuid
  · rw [added]
    split
    next dials => simp [← dials.1]
    next refreshes =>
      rw [tracked.current]
      refine ⟨fun dialed => (AList.mem_insert _).mpr (.inr dialed),fun dialed => ?_⟩
      rcases (AList.mem_insert _).mp dialed with rfl | old
      · exact not_not.mp fun unknown => refreshes ⟨rfl,unknown⟩
      · exact old
  · rcases (AList.mem_insert _).mp dialed with rfl | old
    · rw [← tracked.self]
      exact same.1
    · exact tracked.greater uuid old
  · rw [lastAccepted_accept]
    by_cases own : heard.uuid = uuid
    · subst own
      rw [AList.lookup_insert,Option.some_inj] at found
      rw [if_pos rfl,← found]
      exact ⟨heard,rfl,same.2⟩
    · rw [AList.lookup_insert_ne (Ne.symm own)] at found
      rw [if_neg own]
      exact tracked.heard uuid entry found

theorem call_tracked (tracked : Tracked selfUuid d trace) (next : Call) :
    Tracked selfUuid (call next d).state (trace ++ (call next d).events) := by
  cases next with
  | onDatagram senderIp datagram now =>
    simp only [call]
    split
    · rwa [List.append_nil]
    next heard _ =>
      rw [onDatagram_eq]
      split
      next accepted => exact tracked.accept senderIp now accepted
      next ignored => simpa using tracked
  | expireStale now => exact tracked.leave (expireStale_leaves now d)
  | setCluster cluster => exact tracked.leave (setCluster_leaves cluster d)

theorem run_tracked (cluster selfUuid : Str) (calls : List Call) :
    Tracked selfUuid (run call calls ⟨cluster,selfUuid,∅⟩).state (run call calls ⟨cluster,selfUuid,∅⟩).events :=
  run_reports call (Tracked selfUuid) (fun _ _ next tracked => call_tracked tracked next) calls _
    (initial_tracked cluster selfUuid)

/-- A peer is dropped by a swap, or because it has been silent for too long. -/
theorem Tracked.dropped (tracked : Tracked selfUuid d trace) {next : Call} {uuid : Str}
    (drops : .drop uuid ∈ (call next d).events) :
    (∃ cluster, next = .setCluster cluster ∧ cluster ≠ d.cluster) ∨
    ∃ now heard last, next = .expireStale now ∧ lastAccepted uuid trace = some (heard,last) ∧
      now - last > peerTimeout := by
  cases next with
  | onDatagram senderIp datagram now =>
    simp only [call] at drops
    split at drops
    · cases drops
    · rw [List.mem_append] at drops
      rcases drops with taken | dialed
      · split at taken <;> simp at taken
      · simp at dialed
  | expireStale now =>
    obtain ⟨other,lost,same⟩ := List.mem_map.mp drops
    obtain rfl := Report.drop.inj same
    obtain ⟨entry,found,silent⟩ := (mem_lost now d other).mp lost
    obtain ⟨heard,last,-⟩ := tracked.heard other entry found
    exact .inr ⟨now,heard,entry.lastSeen,rfl,last,silent⟩
  | setCluster cluster =>
    refine .inl ⟨cluster,rfl,fun same => ?_⟩
    simp [call,setCluster,same] at drops

/-- Whoever dials only greater uuids is not dialed back, however many steps away. -/
theorem dials_acyclic {brokers : Type} (selfUuid : brokers → Str) (dialed : brokers → AList fun _ : Str => PeerEntry)
    (greater : ∀ i, ∀ uuid ∈ dialed i, selfUuid i < uuid) (i : brokers) :
    ¬Relation.TransGen (fun i j => selfUuid j ∈ dialed i) i i := by
  have ascends {i j : brokers} (path : Relation.TransGen (fun i j => selfUuid j ∈ dialed i) i j) :
      selfUuid i < selfUuid j := by
    induction path with
    | single hop => exact greater _ _ hop
    | tail _ hop ih => exact List.lt_trans ih (greater _ _ hop)
  exact fun cycle => List.lt_irrefl _ (ascends cycle)

/-- The callbacks keep step with the table, and the table with the beacons accepted. -/
theorem callbacks_track_table (cluster selfUuid : Str) (calls : List Call) :
    let d := (run call calls ⟨cluster,selfUuid,∅⟩).state
    let trace := (run call calls ⟨cluster,selfUuid,∅⟩).events
    (∀ uuid, Alternating (callbacksOf uuid trace)) ∧
    (∀ uuid, (callbacksOf uuid trace).getLast? = some true ↔ uuid ∈ d.dialed) ∧
    d.dialed.keys.length ≤ maxDialedPeers ∧
    (∀ uuid ∈ d.dialed, selfUuid < uuid) ∧
    (∀ uuid ∈ d.dialed, ∃ heard now, lastAccepted uuid trace = some (heard,now) ∧ heard.cluster = d.cluster) ∧
    (∀ next uuid, .drop uuid ∈ (call next d).events →
      (∃ cluster, next = .setCluster cluster ∧ cluster ≠ d.cluster) ∨
      ∃ now heard last, next = .expireStale now ∧ lastAccepted uuid trace = some (heard,last) ∧
        now - last > peerTimeout) ∧
    (∀ (brokers : Type) (cluster self : brokers → Str) (calls : brokers → List Call),
      let dials := fun i j => self j ∈ (run call (calls i) ⟨cluster i,self i,∅⟩).state.dialed
      (∀ i, ¬Relation.TransGen dials i i) ∧ ∀ i j, dials i j → ¬dials j i) := by
  intro d trace
  have tracked := run_tracked cluster selfUuid calls
  refine ⟨tracked.alternating,tracked.current,tracked.few,tracked.greater,fun uuid dialed => ?_,
    fun _ _ => tracked.dropped,fun brokers cluster self calls => ?_⟩
  · obtain ⟨entry,found⟩ := Option.isSome_iff_exists.mp (AList.lookup_isSome.mpr dialed)
    obtain ⟨heard,last,same⟩ := tracked.heard uuid entry found
    exact ⟨heard,entry.lastSeen,last,same⟩
  · have acyclic := dials_acyclic self (fun i => (run call (calls i) ⟨cluster i,self i,∅⟩).state.dialed)
      fun i => (run_tracked (cluster i) (self i) (calls i)).greater
    exact ⟨acyclic,fun i j out back => acyclic i (.tail (.single out) back)⟩

/-- The last beacon of a uuid that any datagram carried, accepted or not. -/
def lastHeard (uuid : Str) (calls : List Call) : Option Beacon :=
  (calls.filterMap fun
    | .onDatagram _ datagram _ => (Beacon.decode datagram).filter fun heard => heard.uuid = uuid
    | _ => none).getLast?

/-- A dialed peer that moves to another cluster stays in the table until it has been
silent for long enough: its beacons are those of another mesh by then. -/
theorem dialed_peer_heard_elsewhere :
    let calls : List Call := [.onDatagram (str "10.0.0.2") (Beacon.encode (str "a") (str "X") 5555 0) 0,
      .onDatagram (str "10.0.0.2") (Beacon.encode (str "b") (str "X") 5555 0) 1000]
    let d := (run call calls ⟨str "a",str "A",∅⟩).state
    str "X" ∈ d.dialed ∧ d.cluster = str "a" ∧
      (lastHeard (str "X") calls).map Beacon.cluster = some (str "b") := by
  decide +kernel

end Discovery

end Wisp
