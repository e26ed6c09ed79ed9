import Mathlib.Data.List.FinRange
import Wisp.Threads

/-! What the threads of a broker's process wait for: its owner, the broker thread, the
discovery thread and the worker of each peer link. Of each function only its mutexes, the
threads it starts, stops and joins are kept, in their order; which way a branch goes and how
often a loop runs is left open. Every other wait in these functions has a time limit. -/
namespace Wisp.BrokerThreads

open Transition Threads

/-- Each `ZmqWorker` has mutexes of its own, those of its queues included. -/
inductive Mutex (n : Nat) where
  | discovery
  | interest
  | peers
  | inbound
  | control (link : Fin n)
  | outbound (link : Fin n)
  | encoded (link : Fin n)
  | wake (link : Fin n)
  | sync (link : Fin n)
  | brokerId (link : Fin n)
  | log
  deriving DecidableEq, Repr

/-- A broker that is started again has new threads. -/
inductive Thread (n g : Nat) where
  | owner
  | broker (generation : Fin g)
  | discovery (generation : Fin g)
  | worker (link : Fin n)
  deriving DecidableEq, Repr

variable {n g : Nat}

abbrev Lines (n g : Nat) := Script (Mutex n) (Thread n g)

/-- `Logger::Log`. -/
def log : Lines n g := locked .log []

def logIf (due : Bool) : Lines n g := if due then log else []

/-- One `enqueue` on a worker: `SafeQueue::push` lets go of its mutex as often as it waits for
room, and the worker is pinged if its queue was empty. -/
structure Write (n : Nat) where
  link : Fin n
  waits : Nat := 0
  pings : Bool := true
  deriving DecidableEq, Repr

def push (queue : Mutex n) (waits : Nat) : Lines n g := (List.range (waits + 1)).flatMap fun _ => locked queue []

def enqueue (queue : Fin n → Mutex n) (w : Write n) : Lines n g :=
  push (queue w.link) w.waits ++ if w.pings then locked (.wake w.link) [] else []

def writeControlMessage (w : Write n) : Lines n g := enqueue .control w

/-- A refused message is reported now and then, by `notePeerDrop`. -/
def writeEncoded (w : Write n × Bool) : Lines n g := enqueue .encoded w.1 ++ logIf w.2

/-- `ZmqWorker::stop` on a worker that was started. -/
def stopWorker (link : Fin n) : Lines n g := .tell (.worker link) :: (locked (.sync link) [] ++ [.join (.worker link)])

/-- And on one that has no thread to join, as its destructor does. -/
def discardWorker (link : Fin n) : Lines n g := .tell (.worker link) :: locked (.sync link) []

def startWorker (link : Fin n) : Lines n g := locked (.wake link) [] ++ [.start (.worker link)]

def sendInterestTo (writes : List (Write n)) : Lines n g := locked .interest [] ++ writes.flatMap writeControlMessage

/-- How a call of `addPeer` comes out; what throws leaves at most a worker to destroy. -/
inductive Dial where
  | unopened (constructed : Bool)
  | sameKey
  | sameAddress
  | unstarted
  | opened
  deriving DecidableEq, Repr

def addPeer (link : Fin n) (writes : List (Write n)) : Dial → Lines n g
  | .unopened constructed => (if constructed then discardWorker link else []) ++ log
  | .sameKey => sendInterestTo writes ++ locked .peers [] ++ discardWorker link
  | .sameAddress => sendInterestTo writes ++ locked .peers log ++ discardWorker link
  | .unstarted => sendInterestTo writes ++ locked .peers (locked (.wake link) []) ++ discardWorker link ++ log
  | .opened => sendInterestTo writes ++ locked .peers (startWorker link) ++ log

/-- The farewell goes to the link that was found. -/
def closePeer (farewell : Write n) : Lines n g := writeControlMessage farewell ++ stopWorker farewell.link

/-- The worker is destroyed on the way out. -/
def removePeer : Option (Write n) → Lines n g
  | none => locked .peers []
  | some farewell => locked .peers [] ++ closePeer farewell ++ log ++ discardWorker farewell.link

/-- What `onDatagram` makes of a datagram; the cap is reported now and then. -/
inductive Datagram (n : Nat) where
  | ignored
  | otherCluster
  | refreshed
  | capped (reported : Bool)
  | dialed (link : Fin n) (writes : List (Write n)) (dial : Dial)
  deriving DecidableEq, Repr

/-- A peer is dialed with the mutex held. -/
def onDatagram : Datagram n → Lines n g
  | .ignored => []
  | .otherCluster | .refreshed => locked .discovery []
  | .capped reported => locked .discovery (logIf reported)
  | .dialed link writes dial => locked .discovery (addPeer link writes dial)

def expireStale (lost : List (Option (Write n))) : Lines n g := locked .discovery [] ++ lost.flatMap removePeer

def setCluster (dropped : List (Option (Write n))) : Lines n g := locked .discovery [] ++ dropped.flatMap removePeer

/-- `BrokerDiscovery::run` up to its loop. -/
def openDiscovery (opened : Bool) : Lines n g := if opened then locked .discovery log else log ++ log

/-- One turn of `BrokerDiscovery::run`. -/
def discoveryTurn (beacon : Option (List (Option (Write n)))) (datagram : Option (Datagram n)) : Lines n g :=
  (beacon.elim [] fun lost => locked .discovery [] ++ expireStale lost) ++ datagram.elim [] onDatagram

/-- What a change of interest comes to; saturation is reported. -/
inductive Noted (n : Nat) where
  | unpropagatable
  | unchanged
  | changed (saturates : Bool) (writes : List (Write n))
  deriving DecidableEq, Repr

def tellPeers (writes : List (Write n)) : Lines n g := locked .peers (writes.flatMap writeControlMessage)

def noteTopicSubscribed : Noted n → Lines n g
  | .unpropagatable => []
  | .unchanged => locked .interest []
  | .changed saturates writes => locked .interest (logIf saturates) ++ tellPeers writes

def noteTopicUnsubscribed : Noted n → Lines n g
  | .unpropagatable => []
  | .unchanged => locked .interest []
  | .changed _ writes => locked .interest [] ++ tellPeers writes

def noteMeshInterestChange (wantedNow : Bool) (noted : Noted n) : Lines n g :=
  if wantedNow then noteTopicSubscribed noted else noteTopicUnsubscribed noted

def removeClient (topics : List (Noted n)) : Lines n g := log ++ topics.flatMap (noteMeshInterestChange false)

def unlinkInboundPeers (inboundLinks : List (List (Noted n))) : Lines n g :=
  inboundLinks.flatMap removeClient ++ logIf !inboundLinks.isEmpty

def floodPeers (writes : List (Write n × Bool)) : Lines n g := locked .peers (writes.flatMap writeEncoded)

/-- What a client's message asks for. -/
inductive Request (n : Nat) where
  | disconnect (topics : List (Noted n))
  | keepAlive
  /-- A refused one is reported, or changes nothing. -/
  | refused (reported : Bool)
  | subscribe (wantedNow : Bool) (noted : Noted n)
  | unsubscribe (wantedNow : Bool) (noted : Noted n)
  | setCluster (inboundLinks : List (List (Noted n))) (dropped : List (Option (Write n)))
  deriving DecidableEq, Repr

def handleRequest : Request n → Lines n g
  | .disconnect topics => removeClient topics
  | .keepAlive => []
  | .refused reported => logIf reported
  | .subscribe wantedNow noted | .unsubscribe wantedNow noted => log ++ noteMeshInterestChange wantedNow noted
  | .setCluster inboundLinks dropped => log ++ unlinkInboundPeers inboundLinks ++ setCluster dropped

/-- A message of a client, which may be new, of a peer, or one that cannot be read. -/
inductive Message (n : Nat) where
  | malformed (reported : Bool)
  | dropped
  | handled (greeted : Bool) (request : Request n)
  | routed (greeted : Bool) (writes : List (Write n × Bool))
  deriving DecidableEq, Repr

def processMessage : Message n → Lines n g
  | .malformed reported => logIf reported
  | .dropped => []
  | .handled greeted request => logIf greeted ++ handleRequest request
  | .routed greeted writes => logIf greeted ++ floodPeers writes

/-- One turn of `Broker::run`: the clients' messages, those of the peers, the sweep, and the
statistics with their count of peers. -/
def brokerTurn (drained peerBatch : List (Message n)) (swept : List (List (Noted n))) (stats : Bool) : Lines n g :=
  drained.flatMap processMessage ++ locked .inbound [] ++ peerBatch.flatMap processMessage ++ swept.flatMap removeClient ++
    if stats then locked .peers [] else []

/-- What the callback of a peer link gets. -/
inductive Inbound (n : Nat) where
  | heartbeatAck
  | unlink (first : Bool)
  | reset (writes : List (Write n))
  | message (waits : Nat) (reported : Bool)
  deriving DecidableEq, Repr

def received (link : Fin n) : Inbound n → Lines n g
  | .heartbeatAck => locked (.brokerId link) [] ++ locked (.sync link) []
  | .unlink first => logIf first
  | .reset writes => locked (.brokerId link) [] ++ sendInterestTo writes
  | .message waits reported => push .inbound waits ++ logIf reported

/-- What the rest of a turn of `ZmqWorker::runLoop` takes, one mutex at a time: those of its
queues, the one `sync` is waited for with, and the logger's for a send that was refused. -/
inductive Section where
  | control
  | outbound
  | encoded
  | sync
  | log
  deriving DecidableEq, Repr

def Section.mutex (link : Fin n) : Section → Mutex n
  | .control => .control link
  | .outbound => .outbound link
  | .encoded => .encoded link
  | .sync => .sync link
  | .log => .log

def workerTurn (link : Fin n) (inbound : Option (Inbound n)) (sections : List Section) : Lines n g :=
  inbound.elim [] (received link) ++ sections.flatMap fun part => locked (part.mutex link) []

/-- `Broker::start`; without an address to announce, discovery stays off. -/
def start (generation : Fin g) (discovers reported : Bool) : Lines n g :=
  locked .inbound [] ++ (if discovers then [.start (.discovery generation)] else logIf reported) ++ [.start (.broker generation)]

/-- `Broker::stop`. -/
def stop (generation : Fin g) (discovers : Bool) (farewells : List (Write n)) : Lines n g :=
  .tell (.broker generation) ::
    ((if discovers then [.tell (.discovery generation),.join (.discovery generation)] else []) ++ locked .inbound [] ++
      [.join (.broker generation)]) ++
    (locked .peers [] ++ farewells.flatMap closePeer ++ farewells.flatMap fun farewell => discardWorker farewell.link)

inductive Op (n g : Nat) where
  | start (generation : Fin g) (discovers reported : Bool)
  | startAgain
  | stop (generation : Fin g) (discovers : Bool) (farewells : List (Write n))
  | connectToPeer (link : Fin n) (writes : List (Write n)) (dial : Dial)
  | disconnectFromPeer (found : Option (Write n))
  | bind (generation : Fin g) (reports : Nat)
  | brokerTurn (generation : Fin g) (drained peerBatch : List (Message n)) (swept : List (List (Noted n))) (stats : Bool)
  | openDiscovery (generation : Fin g) (opened : Bool)
  | discoveryTurn (generation : Fin g) (beacon : Option (List (Option (Write n)))) (datagram : Option (Datagram n))
  | workerTurn (link : Fin n) (inbound : Option (Inbound n)) (sections : List Section)

/-- A worker drains its control queue once more when its loop has ended. -/
def program (n g : Nat) : Program (Mutex n) (Thread n g) (Op n g) where
  actor
    | .start .. | .startAgain | .stop .. | .connectToPeer .. | .disconnectFromPeer _ => .owner
    | .bind generation _ | .brokerTurn generation .. => .broker generation
    | .openDiscovery generation _ | .discoveryTurn generation .. => .discovery generation
    | .workerTurn link .. => .worker link
  script
    | .start generation discovers reported => start generation discovers reported
    | .startAgain => log
    | .stop generation discovers farewells => stop generation discovers farewells
    | .connectToPeer link writes dial => addPeer link writes dial
    | .disconnectFromPeer found => removePeer found
    | .bind _ reports => (List.range reports).flatMap fun _ => log
    | .brokerTurn _ drained peerBatch swept stats => brokerTurn drained peerBatch swept stats
    | .openDiscovery _ opened => openDiscovery opened
    | .discoveryTurn _ beacon datagram => discoveryTurn beacon datagram
    | .workerTurn link inbound sections => workerTurn link inbound sections
  epilogue
    | .worker link => locked (.control link) []
    | .owner | .broker _ | .discovery _ => []

/-- Before `Broker::start`: the owner alone is running. -/
def initial (n g : Nat) : System (Mutex n) (Thread n g) where
  code _ := []
  holder _ := none
  started
    | .owner => true
    | .broker _ | .discovery _ | .worker _ => false
  told _ := false
  leaving _ := false

/-- The order in which mutexes are taken. -/
def rank : Mutex n → Nat
  | .discovery => 0
  | .interest => 1
  | .peers => 2
  | .inbound | .control _ | .outbound _ | .encoded _ | .wake _ | .sync _ | .brokerId _ => 3
  | .log => 4

/-- Who may wait for whom. -/
def grade : Thread n g → Nat
  | .worker _ => 0
  | .broker _ | .discovery _ => 1
  | .owner => 2

section Rules

variable {t : Thread n g} {held : List (Mutex n)}

/-- By the rules, for whoever holds nothing of rank `bound` or above. -/
def Below (bound : Nat) (t : Thread n g) (script : Lines n g) : Prop :=
  ∀ held, (∀ mutex ∈ held, rank mutex < bound) → Balanced rank grade t held script

theorem Below.nil (bound : Nat) : Below bound t [] := fun _ _ => .nil

theorem Below.append {bound : Nat} {first second : Lines n g} (below : Below bound t first) (follows : Below bound t second) :
    Below bound t (first ++ second) :=
  fun held under => (below held under).append (follows held under)

theorem Below.flatMap {bound : Nat} {α : Type} {script : α → Lines n g} (each : ∀ x, Below bound t (script x)) (xs : List α) :
    Below bound t (xs.flatMap script) :=
  fun held under => .flatMap (fun x => each x held under) xs

/-- What is held with the mutex is below it or the mutex itself. -/
theorem Below.locked {bound inner : Nat} {body : Lines n g} (mutex : Mutex n) (below : Below inner t body)
    (low : bound ≤ rank mutex) (higher : rank mutex < inner) : Below bound t (locked mutex body) := by
  intro held under
  have outside (other : Mutex n) (member : other ∈ held) : rank other < rank mutex :=
    Nat.lt_of_lt_of_le (under other member) low
  refine .locked outside (below _ fun other member => ?_)
  rcases List.mem_cons.mp member with rfl | outer
  · exact higher
  · exact Nat.lt_trans (outside other outer) higher

theorem Below.empty {bound : Nat} (mutex : Mutex n) (low : bound ≤ rank mutex) : Below bound t (Threads.locked mutex []) :=
  (Below.nil (rank mutex + 1)).locked mutex low (Nat.lt_succ_self _)

theorem log_below {bound : Nat} (low : bound ≤ 4) : Below bound t log := .empty .log low

theorem logIf_below {bound : Nat} (low : bound ≤ 4) (due : Bool) : Below bound t (logIf due) := by
  cases due with
  | false => exact .nil bound
  | true => exact log_below low

theorem push_below {bound : Nat} {queue : Mutex n} (low : bound ≤ rank queue) (waits : Nat) : Below bound t (push queue waits) :=
  .flatMap (fun _ => .empty queue low) _

theorem enqueue_below {bound : Nat} {queue : Fin n → Mutex n} (low : bound ≤ 3) (three : ∀ link, rank (queue link) = 3)
    (w : Write n) : Below bound t (enqueue queue w) := by
  refine (push_below (by rw [three]; exact low) w.waits).append ?_
  split
  · exact .empty (.wake w.link) low
  · exact .nil bound

theorem writeControlMessage_below {bound : Nat} (low : bound ≤ 3) (w : Write n) : Below bound t (writeControlMessage w) :=
  enqueue_below low (fun _ => rfl) w

theorem writeEncoded_below {bound : Nat} (low : bound ≤ 3) (w : Write n × Bool) : Below bound t (writeEncoded w) :=
  (enqueue_below low (fun _ => rfl) w.1).append (logIf_below (Nat.le_succ_of_le low) w.2)

theorem tellPeers_below {bound : Nat} (low : bound ≤ 2) (writes : List (Write n)) : Below bound t (tellPeers writes) :=
  (Below.flatMap (writeControlMessage_below (Nat.le_refl 3)) writes).locked .peers low (Nat.lt_succ_self 2)

theorem discardWorker_below {bound : Nat} (low : bound ≤ 3) (link : Fin n) : Below bound t (discardWorker link) :=
  fun held under => (Balanced.tell (.worker link)).append (Below.empty (.sync link) low held under)

theorem startWorker_below {bound : Nat} (low : bound ≤ 3) (link : Fin n) : Below bound t (startWorker link) :=
  (Below.empty (.wake link) low).append fun _ _ => Balanced.start _

theorem sendInterestTo_below {bound : Nat} (low : bound ≤ 1) (writes : List (Write n)) : Below bound t (sendInterestTo writes) :=
  (Below.empty .interest low).append (.flatMap (writeControlMessage_below (by omega)) writes)

theorem addPeer_below {bound : Nat} (low : bound ≤ 1) (link : Fin n) (writes : List (Write n)) (dial : Dial) :
    Below bound t (addPeer link writes dial) := by
  have sends := sendInterestTo_below (t := t) low writes
  have discards := discardWorker_below (t := t) (show bound ≤ 3 by omega) link
  have reports := log_below (n := n) (t := t) (show bound ≤ 4 by omega)
  -- what is done with the table of peers locked takes mutexes above it only
  have peers {body : Lines n g} (below : Below 3 t body) : Below bound t (locked .peers body) :=
    below.locked .peers (show bound ≤ 2 by omega) (Nat.lt_succ_self 2)
  cases dial with
  | unopened constructed =>
    refine .append ?_ reports
    split
    · exact discards
    · exact .nil bound
  | sameKey => exact (sends.append (peers (.nil 3))).append discards
  | sameAddress => exact (sends.append (peers (log_below (by decide)))).append discards
  | unstarted => exact ((sends.append (peers (.empty (.wake link) (Nat.le_refl 3)))).append discards).append reports
  | opened => exact (sends.append (peers (startWorker_below (Nat.le_refl 3) link))).append reports

theorem onDatagram_below (datagram : Datagram n) : Below 0 t (onDatagram datagram) := by
  have inside {body : Lines n g} (below : Below 1 t body) : Below 0 t (locked .discovery body) :=
    below.locked .discovery (Nat.le_refl 0) Nat.zero_lt_one
  cases datagram with
  | ignored => exact .nil 0
  | otherCluster => exact inside (.nil 1)
  | refreshed => exact inside (.nil 1)
  | capped reported => exact inside (logIf_below (by decide) reported)
  | dialed link writes dial => exact inside (addPeer_below (Nat.le_refl 1) link writes dial)

/-- Nothing is held while a worker is waited for. -/
theorem closePeer_below (senior : 0 < grade t) (farewell : Write n) : Below 0 t (closePeer farewell) := by
  intro held under
  obtain rfl : held = [] := List.eq_nil_iff_forall_not_mem.mpr fun mutex member => Nat.not_lt_zero _ (under mutex member)
  refine (writeControlMessage_below (Nat.zero_le 3) farewell [] under).append (.join senior ?_)
  exact Below.empty (.sync farewell.link) (Nat.zero_le 3) [] under

theorem removePeer_below (senior : 0 < grade t) (found : Option (Write n)) : Below 0 t (removePeer found) := by
  have takes : Below 0 t (locked .peers []) := .empty .peers (Nat.zero_le 2)
  cases found with
  | none => exact takes
  | some farewell =>
    exact ((takes.append (closePeer_below senior farewell)).append (log_below (Nat.zero_le 4))).append
      (discardWorker_below (Nat.zero_le 3) farewell.link)

theorem dropPeers_below (senior : 0 < grade t) (dropped : List (Option (Write n))) :
    Below 0 t (locked .discovery [] ++ dropped.flatMap removePeer) :=
  (Below.empty .discovery (Nat.le_refl 0)).append (.flatMap (removePeer_below senior) dropped)

theorem noteTopicSubscribed_below {bound : Nat} (low : bound ≤ 1) (noted : Noted n) :
    Below bound t (noteTopicSubscribed noted) := by
  cases noted with
  | unpropagatable => exact .nil bound
  | unchanged => exact .empty .interest low
  | changed saturates writes =>
    exact ((logIf_below (Nat.le_refl 4) saturates).locked .interest low (show 1 < 4 by decide)).append
      (tellPeers_below (by omega) writes)

theorem noteTopicUnsubscribed_below {bound : Nat} (low : bound ≤ 1) (noted : Noted n) :
    Below bound t (noteTopicUnsubscribed noted) := by
  cases noted with
  | unpropagatable => exact .nil bound
  | unchanged => exact .empty .interest low
  | changed saturates writes => exact (Below.empty .interest low).append (tellPeers_below (by omega) writes)

theorem noteMeshInterestChange_below {bound : Nat} (low : bound ≤ 1) (wantedNow : Bool) (noted : Noted n) :
    Below bound t (noteMeshInterestChange wantedNow noted) := by
  unfold noteMeshInterestChange
  split
  · exact noteTopicSubscribed_below low noted
  · exact noteTopicUnsubscribed_below low noted

theorem removeClient_below {bound : Nat} (low : bound ≤ 1) (topics : List (Noted n)) : Below bound t (removeClient topics) :=
  (log_below (by omega)).append (.flatMap (noteMeshInterestChange_below low false) topics)

theorem handleRequest_below (senior : 0 < grade t) (request : Request n) : Below 0 t (handleRequest request) := by
  have reports := log_below (n := n) (t := t) (Nat.zero_le 4)
  have removes := removeClient_below (n := n) (t := t) (Nat.zero_le 1)
  have notes (wantedNow : Bool) (noted : Noted n) := noteMeshInterestChange_below (t := t) (Nat.zero_le 1) wantedNow noted
  cases request with
  | disconnect topics => exact removes topics
  | keepAlive => exact .nil 0
  | refused reported => exact logIf_below (Nat.zero_le 4) reported
  | subscribe wantedNow noted => exact reports.append (notes wantedNow noted)
  | unsubscribe wantedNow noted => exact reports.append (notes wantedNow noted)
  | setCluster inboundLinks dropped =>
    have unlinks := (Below.flatMap removes inboundLinks).append (logIf_below (Nat.zero_le 4) !inboundLinks.isEmpty)
    exact (reports.append unlinks).append (dropPeers_below senior dropped)

theorem processMessage_below (senior : 0 < grade t) (message : Message n) : Below 0 t (processMessage message) := by
  have greets (greeted : Bool) := logIf_below (n := n) (t := t) (Nat.zero_le 4) greeted
  cases message with
  | malformed reported => exact greets reported
  | dropped => exact .nil 0
  | handled greeted request => exact (greets greeted).append (handleRequest_below senior request)
  | routed greeted writes =>
    exact (greets greeted).append
      ((Below.flatMap (writeEncoded_below (Nat.le_refl 3)) writes).locked .peers (Nat.zero_le 2) (Nat.lt_succ_self 2))

theorem brokerTurn_below (senior : 0 < grade t) (drained peerBatch : List (Message n)) (swept : List (List (Noted n)))
    (stats : Bool) : Below 0 t (brokerTurn drained peerBatch swept stats) := by
  have messages (batch : List (Message n)) : Below 0 t (batch.flatMap processMessage) :=
    .flatMap (processMessage_below senior) batch
  have sweeps : Below 0 t (swept.flatMap removeClient) := .flatMap (removeClient_below (Nat.zero_le 1)) swept
  have drains : Below 0 t (locked .inbound []) := .empty .inbound (Nat.zero_le 3)
  refine ((((messages drained).append drains).append (messages peerBatch)).append sweeps).append ?_
  split
  · exact .empty .peers (Nat.zero_le 2)
  · exact .nil 0

theorem discoveryTurn_below (senior : 0 < grade t) (beacon : Option (List (Option (Write n)))) (datagram : Option (Datagram n)) :
    Below 0 t (discoveryTurn beacon datagram) := by
  refine .append ?_ ?_
  · cases beacon with
    | none => exact .nil 0
    | some lost => exact (Below.empty .discovery (Nat.le_refl 0)).append (dropPeers_below senior lost)
  · cases datagram with
    | none => exact .nil 0
    | some datagram => exact onDatagram_below datagram

theorem workerTurn_below (link : Fin n) (inbound : Option (Inbound n)) (sections : List Section) :
    Below 0 t (workerTurn link inbound sections) := by
  have own (mutex : Mutex n) : Below 0 t (locked mutex []) := .empty mutex (Nat.zero_le _)
  refine .append ?_ (.flatMap (fun part => own (part.mutex link)) sections)
  cases inbound with
  | none => exact .nil 0
  | some inbound =>
    cases inbound with
    | heartbeatAck => exact (own _).append (own _)
    | unlink first => exact logIf_below (Nat.zero_le 4) first
    | reset writes => exact (own _).append (sendInterestTo_below (Nat.zero_le 1) writes)
    | message waits reported => exact (push_below (Nat.zero_le _) waits).append (logIf_below (Nat.zero_le 4) reported)

theorem stop_balanced (generation : Fin g) (discovers : Bool) (farewells : List (Write n)) :
    Balanced rank grade (.owner : Thread n g) [] (stop generation discovers farewells) := by
  have low : ∀ mutex ∈ ([] : List (Mutex n)), rank mutex < 0 := nofun
  have own (mutex : Mutex n) : Below 0 (.owner : Thread n g) (locked mutex []) := .empty mutex (Nat.zero_le _)
  refine .append (.join (show 1 < 2 by decide) (.append ?_ (own .inbound [] low))) ?_
  · cases discovers with
    | false => exact .nil
    | true => exact .join (show 1 < 2 by decide) .nil
  · exact ((own .peers).append (.flatMap (closePeer_below (t := .owner) (show 0 < 2 by decide)) farewells)).append
      (.flatMap (fun farewell => discardWorker_below (Nat.zero_le 3) farewell.link) farewells) [] low

end Rules

theorem program_orderly : (program n g).Orderly rank grade := by
  have low : ∀ mutex ∈ ([] : List (Mutex n)), rank mutex < 0 := nofun
  refine ⟨fun op => ?_,fun t => ?_⟩
  · cases op with
    | start generation discovers reported =>
      refine .append (.append (Below.empty .inbound (Nat.zero_le 3) [] low) ?_) (.start _)
      cases discovers with
      | false => exact logIf_below (Nat.zero_le 4) reported [] low
      | true => exact .start _
    | startAgain => exact log_below (Nat.zero_le 4) [] low
    | stop generation discovers farewells => exact stop_balanced generation discovers farewells
    | connectToPeer link writes dial => exact addPeer_below (Nat.zero_le 1) link writes dial [] low
    | disconnectFromPeer found => exact removePeer_below (t := .owner) (show 0 < 2 by decide) found [] low
    | bind generation reports => exact Below.flatMap (fun _ => log_below (Nat.zero_le 4)) _ [] low
    | brokerTurn generation drained peerBatch swept stats =>
      exact brokerTurn_below (t := .broker generation) (show 0 < 1 by decide) drained peerBatch swept stats [] low
    | openDiscovery generation opened =>
      cases opened with
      | false => exact ((log_below (Nat.zero_le 4)).append (log_below (Nat.zero_le 4))) [] low
      | true => exact (log_below (Nat.le_refl 4)).locked .discovery (Nat.le_refl 0) (show 0 < 4 by decide) [] low
    | discoveryTurn generation beacon datagram => exact discoveryTurn_below (t := .discovery generation) (show 0 < 1 by decide) beacon datagram [] low
    | workerTurn link inbound sections => exact workerTurn_below link inbound sections [] low
  · cases t with
    | worker link => exact Below.empty (.control link) (Nat.zero_le 3) [] low
    | owner => exact .nil
    | broker generation => exact .nil
    | discovery generation => exact .nil

theorem initial_orderly : Orderly rank grade (initial n g) :=
  fun _ => ⟨[],[],⟨[],rfl⟩,nofun,fun _ => ⟨nofun,nofun⟩,List.nodup_nil⟩

theorem rank_le (mutex : Mutex n) : rank mutex ≤ 4 := by
  cases mutex <;> simp [rank]

theorem reachable_orderly (labels : List (Threads.Label (Thread n g) (Op n g))) :
    Orderly rank grade (run (step (program n g)) labels (initial n g)).state :=
  run_orderly program_orderly initial_orderly labels

/-- However the owner, the broker thread, discovery and the links' workers interleave, with
links opened, dropped and told to stop at any time: as long as one of them is in the middle
of an operation, some thread goes on. -/
theorem never_deadlocks (labels : List (Threads.Label (Thread n g) (Op n g))) {t : Thread n g}
    (busy : (run (step (program n g)) labels (initial n g)).state.code t ≠ []) :
    ∃ u, Moves (program n g) u (run (step (program n g)) labels (initial n g)).state :=
  exists_moves (reachable_orderly labels) rank_le busy

/-- The owner stops the broker while discovery, with its mutex held, dials a peer. -/
def stoppedWhileDialing : List (Threads.Label (Thread 1 1) (Op 1 1)) :=
  let first : Fin 1 := ⟨0,Nat.one_pos⟩
  [.enter (.start first true false)] ++ List.replicate 4 (.advance .owner) ++
    [.enter (.discoveryTurn first none (some (.dialed first [] .opened)))] ++ List.replicate 2 (.advance (.discovery first)) ++
    [.enter (.stop first true [])] ++ List.replicate 3 (.advance .owner)

theorem never_deadlocks_dialing :
    ∃ u, Moves (program 1 1) u (run (step (program 1 1)) stoppedWhileDialing (initial 1 1)).state :=
  never_deadlocks stoppedWhileDialing (t := .owner) (by decide +kernel)

/-- Every thread there is. -/
def everyThread (n g : Nat) : List (Thread n g) :=
  .owner :: ((List.finRange g).map .broker ++ (List.finRange g).map .discovery ++ (List.finRange n).map .worker)

theorem everyThread_nodup : (everyThread n g).Nodup := by
  simp [everyThread,List.nodup_append,List.nodup_map_iff_inj_on,List.nodup_finRange,or_imp,forall_and]

theorem mem_everyThread (t : Thread n g) : t ∈ everyThread n g := by
  cases t <;> simp [everyThread]

/-- From any moment on, if nobody enters anything new: the threads come to rest after no more
moves than they have actions left, however they are scheduled, and when nobody can go on every
operation has returned and whoever was told to stop has ended. -/
theorem operations_finish (labels : List (Threads.Label (Thread n g) (Op n g))) (schedule : List (Thread n g)) :
    let now := (run (step (program n g)) labels (initial n g)).state
    let later := run (step (program n g)) (schedule.map .advance) now
    later.events.length ≤ work (program n g) (everyThread n g) now ∧
      ((∀ u, ¬ Moves (program n g) u later.state) →
        ∀ t, later.state.code t = [] ∧ (later.state.told t = true → later.state.ended t = true)) := by
  intro now later
  have counted := run_work (P := program n g) everyThread_nodup mem_everyThread schedule now
  refine ⟨counted ▸ Nat.le_add_left _ _,fun still t => ?_⟩
  have orderly : Orderly rank grade later.state := run_orderly program_orderly (reachable_orderly labels) _
  have done : later.state.code t = [] := by
    by_contra busy
    obtain ⟨u,moves⟩ := exists_moves (P := program n g) orderly rank_le busy
    exact still u moves
  exact ⟨done,ended_of_told (still t) done⟩

end Wisp.BrokerThreads
