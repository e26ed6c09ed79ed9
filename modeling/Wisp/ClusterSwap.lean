import Wisp.BrokerTurn
import Wisp.DiscoveryTrace

/-! The two threads that work on the dialed peers. `setCluster` and `expireStale` take
uuids off the table under its lock and call the drops afterwards, one by one; a beacon
is looked up and dialed within one locked section. Each section and each drop is one
step; the discovery thread hears no beacon before its drops are through. -/
namespace Wisp

open Transition

namespace Routing

def removePeer (key : Str) (r : Routing) : Routing := { r with peers := r.peers.filter fun link => link.key != key }

theorem mem_removePeer {key : Str} {r : Routing} {link : PeerLink} :
    link ∈ (r.removePeer key).peers ↔ link ∈ r.peers ∧ link.key ≠ key := by
  simp [removePeer]

theorem mem_removePeers {keys : List Str} {r : Routing} {link : PeerLink} :
    link ∈ (keys.foldl (fun r key => r.removePeer key) r).peers ↔ link ∈ r.peers ∧ link.key ∉ keys := by
  induction keys generalizing r with
  | nil => simp
  | cons key rest ih =>
    rw [List.foldl_cons,ih,mem_removePeer,List.mem_cons]
    tauto

end Routing

theorem Broker.removePeer_routing (key : Str) (b : Broker) :
    (b.removePeer key).state.toRouting = b.toRouting.removePeer key := by
  unfold removePeer
  split
  next missing =>
    have all : b.peers.filter (fun link => link.key != key) = b.peers := by
      refine List.filter_eq_self.mpr fun link member => ?_
      simpa using List.find?_eq_none.mp missing link member
    rw [Routing.removePeer,all]
  · rfl

theorem Broker.removePeers_routing (keys : List Str) (b : Broker) :
    (b.removePeers keys).state.toRouting = keys.foldl (fun r key => r.removePeer key) b.toRouting := by
  rw [removePeers_state]
  exact (List.foldl_hom Broker.toRouting fun b key => (removePeer_routing key b).symm).symm

theorem Broker.mem_removePeers {keys : List Str} {b : Broker} {link : PeerLink} :
    link ∈ (b.removePeers keys).state.peers ↔ link ∈ b.peers ∧ link.key ∉ keys := by
  rw [removePeers_routing]
  exact Routing.mem_removePeers

/-- The link table and the dialed peers, and the drops that each thread has still to call. -/
structure Swapping extends Routing where
  discovery : Discovery
  /-- Left of the broker thread's `setCluster`. -/
  dropping : List Str
  /-- Left of the discovery thread's `expireStale`. -/
  expiring : List Str

namespace Swapping

inductive Label where
  | setCluster (cluster : Str)
  | drop
  | datagram (senderIp : Str) (heard : Beacon) (now : Nat)
  | expireStale (now : Nat)
  | dropStale

/-- The dial callback, if the datagram leads to one. -/
def dial (target : Option (Str × Str)) (s : Swapping) : Swapping :=
  match target with
  | none => s
  | some (uuid,address) => { s with toRouting := s.toRouting.addPeer s.discovery.selfUuid uuid address }

def act : Label → Swapping → Swapping
  | .setCluster cluster, s =>
    if s.dropping = [] then
      { s with discovery := (s.discovery.setCluster cluster).1, dropping := (s.discovery.setCluster cluster).2 }
    else s
  | .drop, s =>
    match s.dropping with
    | [] => s
    | uuid :: rest => { s with toRouting := s.toRouting.removePeer uuid, dropping := rest }
  | .datagram senderIp heard now, s =>
    if s.expiring = [] then
      dial (s.discovery.onDatagram senderIp heard now).2
        { s with discovery := (s.discovery.onDatagram senderIp heard now).1 }
    else s
  | .expireStale now, s =>
    if s.expiring = [] then
      { s with discovery := (s.discovery.expireStale now).1, expiring := (s.discovery.expireStale now).2 }
    else s
  | .dropStale, s =>
    match s.expiring with
    | [] => s
    | uuid :: rest => { s with toRouting := s.toRouting.removePeer uuid, expiring := rest }

def step (label : Label) (s : Swapping) : Outcome Swapping Empty := ⟨s.act label,[]⟩

/-- Not interrupted, the sections of a swap are the broker's own operation. -/
theorem setCluster_atomic {s : Swapping} (idle : s.dropping = []) (cluster : Str) {b : Broker} (same : b.toRouting = s.toRouting) :
    (run step (.setCluster cluster :: (s.discovery.setCluster cluster).2.map fun _ => .drop) s).state.toRouting =
      (b.removePeers (s.discovery.setCluster cluster).2).state.toRouting := by
  have drops (keys : List Str) (s : Swapping) (listed : s.dropping = keys) :
      (run step (keys.map fun _ => .drop) s).state.toRouting = keys.foldl (fun r key => r.removePeer key) s.toRouting := by
    induction keys generalizing s with
    | nil => rfl
    | cons key rest ih =>
      have dropped : s.act .drop = { s with toRouting := s.toRouting.removePeer key, dropping := rest } := by
        simp [act,listed]
      rw [List.map_cons,run,step,dropped,List.foldl_cons]
      exact ih _ rfl
  have taken : s.act (.setCluster cluster) =
      { s with discovery := (s.discovery.setCluster cluster).1, dropping := (s.discovery.setCluster cluster).2 } := by
    simp [act,idle]
  rw [Broker.removePeers_routing,same,run,step,taken]
  exact drops _ _ rfl

/-- No link under another key has the address that a beacon came from. -/
def Apart (s : Swapping) : Label → Prop
  | .datagram senderIp heard _ => ∀ link ∈ s.peers, link.address = heard.address senderIp → link.key = heard.uuid
  | _ => True

/-- No beacon enters a peer into the table whose drop is still to be called. -/
def Settled (s : Swapping) : Label → Prop
  | .datagram _ heard _ => s.discovery.accepts heard = true → heard.uuid ∉ s.discovery.dialed → heard.uuid ∉ s.dropping
  | _ => True

instance (s : Swapping) (label : Label) : Decidable (s.Apart label ∧ s.Settled label) :=
  match label with
  | .datagram _ _ _ => inferInstanceAs (Decidable ((∀ _ ∈ _, _) ∧ (_ → _ → _)))
  | .setCluster _ | .drop | .expireStale _ | .dropStale => isTrue ⟨trivial,trivial⟩

/-- A dial that no address stands in the way of leaves a link under the key. -/
theorem mem_dial {uuid address : Str} {s : Swapping}
    (apart : ∀ link ∈ s.peers, link.address = address → link.key = uuid) :
    (∃ link ∈ (s.dial (some (uuid,address))).peers, link.key = uuid) ∧
      (∀ link ∈ s.peers, link ∈ (s.dial (some (uuid,address))).peers) ∧
      ∀ link ∈ (s.dial (some (uuid,address))).peers, link ∈ s.peers ∨ link.key = uuid := by
  unfold dial Routing.addPeer
  dsimp only
  split
  next linked =>
    refine ⟨?_,fun _ => id,fun _ => .inl⟩
    obtain ⟨link,member,same⟩ := List.any_eq_true.mp linked
    simp only [Bool.or_eq_true,beq_iff_eq] at same
    exact ⟨link,member,same.elim id (apart link member)⟩
  · refine ⟨⟨_,List.mem_append_right _ (List.mem_singleton_self _),rfl⟩,
      fun link member => List.mem_append_left _ member,fun link member => ?_⟩
    rcases List.mem_append.mp member with old | new
    · exact .inl old
    · rw [List.mem_singleton.mp new]
      exact .inr rfl

/-- The links that are not among the ones there were to begin with belong to the
dialed peers and to the drops to come, and these are not dialed. -/
structure Matched (manual : List Str) (s : Swapping) : Prop where
  linked : ∀ uuid ∈ s.discovery.dialed, ∃ link ∈ s.peers, link.key = uuid
  listed : ∀ link ∈ s.peers, link.key ∈ manual ∨ link.key ∈ s.discovery.dialed ∨
    link.key ∈ s.dropping ∨ link.key ∈ s.expiring
  gone : ∀ uuid, uuid ∈ s.dropping ∨ uuid ∈ s.expiring → uuid ∉ s.discovery.dialed

section

variable {manual : List Str} {s : Swapping} (matched : Matched manual s)

include matched

/-- A drop takes the link of a peer that is not dialed. -/
theorem Matched.dropped {uuid : Str} {dropping expiring : List Str} (gone : uuid ∉ s.discovery.dialed)
    (fewer : ∀ other, other ∈ dropping ∨ other ∈ expiring → other ∈ s.dropping ∨ other ∈ s.expiring)
    (most : ∀ other, other ∈ s.dropping ∨ other ∈ s.expiring → other = uuid ∨ other ∈ dropping ∨ other ∈ expiring) :
    Matched manual { s with toRouting := s.toRouting.removePeer uuid, dropping, expiring } := by
  refine ⟨fun other dialed => ?_,fun link member => ?_,fun other pending => matched.gone other (fewer other pending)⟩
  · obtain ⟨link,member,rfl⟩ := matched.linked other dialed
    refine ⟨link,Routing.mem_removePeer.mpr ⟨member,?_⟩,rfl⟩
    rintro rfl
    exact gone dialed
  · obtain ⟨old,other⟩ := Routing.mem_removePeer.mp member
    refine (matched.listed link old).imp_right (Or.imp_right fun pending => ?_)
    exact (most link.key pending).resolve_left other

theorem Matched.datagram {senderIp : Str} {heard : Beacon} {now : Nat} (idle : s.expiring = [])
    (apart : s.Apart (.datagram senderIp heard now)) (settled : s.Settled (.datagram senderIp heard now)) :
    Matched manual (dial (s.discovery.onDatagram senderIp heard now).2
      { s with discovery := (s.discovery.onDatagram senderIp heard now).1 }) := by
  have kept (uuid : Str) (entry : PeerEntry) (dialed : uuid ∈ s.discovery.dialed.insert heard.uuid entry)
      (other : uuid ≠ heard.uuid) : uuid ∈ s.discovery.dialed :=
    ((AList.mem_insert _).mp dialed).resolve_left other
  rw [s.discovery.onDatagram_eq]
  split
  next accepted =>
    split
    next known =>
      refine ⟨fun uuid dialed => ?_,fun link member => ?_,fun uuid pending dialed => ?_⟩
      · by_cases here : uuid = heard.uuid
        · exact matched.linked uuid (here ▸ known)
        · exact matched.linked uuid (kept uuid _ dialed here)
      · exact (matched.listed link member).imp_right (Or.imp_left fun dialed => (AList.mem_insert _).mpr (.inr dialed))
      · by_cases here : uuid = heard.uuid
        · exact matched.gone uuid pending (here ▸ known)
        · exact matched.gone uuid pending (kept uuid _ dialed here)
    next unknown =>
      have free : heard.uuid ∉ s.dropping := settled accepted unknown
      have entered := @mem_dial _ _ { s with discovery := { s.discovery with
        dialed := s.discovery.dialed.insert heard.uuid ⟨heard.address senderIp,now⟩ } } apart
      refine ⟨fun uuid dialed => ?_,fun link member => ?_,fun uuid pending dialed => ?_⟩
      · by_cases here : uuid = heard.uuid
        · rw [here]
          exact entered.1
        · obtain ⟨link,member,key⟩ := matched.linked uuid (kept uuid _ dialed here)
          exact ⟨link,entered.2.1 link member,key⟩
      · rcases entered.2.2 link member with old | new
        · exact (matched.listed link old).imp_right (Or.imp_left fun dialed => (AList.mem_insert _).mpr (.inr dialed))
        · exact .inr (.inl ((AList.mem_insert _).mpr (.inl new)))
      · have other : uuid ≠ heard.uuid := by
          rintro rfl
          rcases pending with dropping | expiring
          · exact free dropping
          · simp [dial,idle] at expiring
        exact matched.gone uuid pending (kept uuid _ dialed other)
  · exact matched

theorem Matched.act (label : Label) (apart : s.Apart label) (settled : s.Settled label) : Matched manual (s.act label) := by
  cases label with
  | setCluster cluster =>
    simp only [Swapping.act]
    split
    next idle =>
      unfold Discovery.setCluster
      split
      · exact ⟨matched.linked,fun link member => by simpa [idle] using matched.listed link member,
          fun uuid pending => matched.gone uuid (by simpa [idle] using pending)⟩
      · refine ⟨fun uuid dialed => ?_,fun link member => ?_,fun uuid _ => ?_⟩
        · exact absurd dialed (AList.notMem_empty _)
        · have listed := matched.listed link member
          simp only [idle,List.not_mem_nil,false_or] at listed
          refine listed.imp_right (Or.elim · (fun dialed => ?_) fun expiring => ?_)
          · exact .inr (.inl (AList.mem_keys.mpr dialed))
          · exact .inr (.inr expiring)
        · exact AList.notMem_empty _
    · exact matched
  | drop =>
    simp only [Swapping.act]
    split
    · exact matched
    next uuid rest listed =>
      refine matched.dropped (matched.gone uuid (.inl (by simp [listed]))) (fun other pending => ?_) fun other pending => ?_
      · exact pending.imp_left fun member => listed ▸ List.mem_cons_of_mem _ member
      · rw [listed,List.mem_cons,or_assoc] at pending
        exact pending
  | datagram senderIp heard now =>
    simp only [Swapping.act]
    split
    next idle => exact matched.datagram idle apart settled
    · exact matched
  | expireStale now =>
    simp only [Swapping.act]
    split
    next idle =>
      refine ⟨fun uuid dialed => ?_,fun link member => ?_,fun uuid pending dialed => ?_⟩
      · exact matched.linked uuid ((s.discovery.mem_expireStale now uuid).mp dialed).2
      · have listed := matched.listed link member
        simp only [idle,List.not_mem_nil,or_false] at listed
        refine listed.imp_right (Or.elim · (fun dialed => ?_) fun dropping => .inr (.inl dropping))
        by_cases lost : link.key ∈ (s.discovery.expireStale now).2
        · exact .inr (.inr lost)
        · exact .inl ((s.discovery.mem_expireStale now link.key).mpr ⟨lost,dialed⟩)
      · obtain ⟨kept,old⟩ := (s.discovery.mem_expireStale now uuid).mp dialed
        exact pending.elim (fun dropping => matched.gone uuid (.inl dropping) old) kept
    · exact matched
  | dropStale =>
    simp only [Swapping.act]
    split
    · exact matched
    next uuid rest listed =>
      refine matched.dropped (matched.gone uuid (.inr (by simp [listed]))) (fun other pending => ?_) fun other pending => ?_
      · exact pending.imp_right fun member => listed ▸ List.mem_cons_of_mem _ member
      · rw [listed,List.mem_cons,or_left_comm] at pending
        exact pending

end

/-- Nothing is dialed and nothing is pending; the links there are were made by hand. -/
def Undialed (s : Swapping) : Prop := s.discovery.dialed = ∅ ∧ s.dropping = [] ∧ s.expiring = []

/-- In every interleaving in which no beacon leads to a dial of a peer whose drop is still
to be called, the dialed peers and the links under their keys are the same whenever no
callback is pending. -/
theorem swap_keeps_peers_linked (s : Swapping) (undialed : s.Undialed) (schedule : List Label)
    (always : Always step (fun s label => s.Apart label ∧ s.Settled label) schedule s)
    (called : (run step schedule s).state.dropping = [] ∧ (run step schedule s).state.expiring = []) :
    (∀ uuid ∈ (run step schedule s).state.discovery.dialed,
        ∃ link ∈ (run step schedule s).state.peers, link.key = uuid) ∧
      ∀ link ∈ (run step schedule s).state.peers,
        link.key ∈ (run step schedule s).state.discovery.dialed ∨ link.key ∈ s.peers.map PeerLink.key := by
  have begun : Matched (s.peers.map PeerLink.key) s := by
    refine ⟨fun uuid dialed => ?_,fun link member => .inl (List.mem_map_of_mem member),fun uuid _ => ?_⟩
    · rw [undialed.1] at dialed
      exact absurd dialed (AList.notMem_empty _)
    · rw [undialed.1]
      exact AList.notMem_empty _
  have matched := run_invariant step (Matched (s.peers.map PeerLink.key))
    (fun s label met matched => matched.act label met.1 met.2) schedule s always begun
  refine ⟨matched.linked,fun link member => ?_⟩
  have listed := matched.listed link member
  simp only [called,List.not_mem_nil,or_false] at listed
  exact listed.symm

/-- A broker of the cluster `a`, and what it hears of a broker that may have moved. -/
def alone : Swapping := { Routing.empty with discovery := ⟨str "a",str "A",∅⟩, dropping := [], expiring := [] }

def hears (cluster : String) : Label := .datagram (str "ip") ⟨str cluster,str "X",1,0⟩ 0

/-- The peer is dialed again once its drop was called. -/
def inTurn : List Label := [hears "a",.setCluster (str "b"),.drop,hears "b"]

theorem swap_keeps_peers_linked_in_turn : str "X" ∈ (run step inTurn alone).state.discovery.dialed ∧
    ∃ link ∈ (run step inTurn alone).state.peers, link.key = str "X" := by
  have dialed : str "X" ∈ (run step inTurn alone).state.discovery.dialed := by decide +kernel
  exact ⟨dialed,(swap_keeps_peers_linked alone ⟨rfl,rfl,rfl⟩ inTurn (by decide +kernel) (by decide +kernel)).1 _ dialed⟩

/-- The beacon of the new cluster is heard before the drop is called. -/
theorem swap_drops_redialed_peer :
    let reached := (run step [hears "a",.setCluster (str "b"),hears "b",.drop] alone).state
    reached.dropping = [] ∧ reached.expiring = [] ∧ str "X" ∈ reached.discovery.dialed ∧
      ¬∃ link ∈ reached.peers, link.key = str "X" := by
  refine ⟨?_,?_,?_,?_⟩ <;> decide +kernel

end Swapping

end Wisp
