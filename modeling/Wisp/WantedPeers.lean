import Wisp.AssignLog
import Wisp.ClusterSwap
import Wisp.DiscoveryTrace

/-! Discovery's table and the link table side by side. Links are opened to the peers that
beacons announce and to addresses given by hand; a link is found by the key it was opened
under, a duplicate of it by its address. Every operation runs to its end before the next. -/
namespace Wisp

open Transition AssignLog

namespace Routing

def Linked (address : Str) (r : Routing) : Prop := ∃ link ∈ r.peers, link.address = address

def Free (key : Str) (r : Routing) : Prop := ∀ link ∈ r.peers, link.key ≠ key

/-- No address has two links. -/
def OneEach (r : Routing) : Prop :=
  ∀ link ∈ r.peers, ∀ other ∈ r.peers, link.address = other.address → link = other

instance (address : Str) (r : Routing) : Decidable (r.Linked address) :=
  inferInstanceAs (Decidable (∃ _ ∈ _, _))

instance (key : Str) (r : Routing) : Decidable (r.Free key) :=
  inferInstanceAs (Decidable (∀ _ ∈ _, _))

/-- What `addPeer` does: nothing, if the key or the address is taken, or it adds one link. -/
inductive Adds (key address : Str) (r : Routing) : Routing → Prop
  | refused (taken : ¬r.Free key ∨ r.Linked address) : Adds key address r r
  | added (free : r.Free key) (unlinked : ¬r.Linked address) (link : PeerLink)
      (named : link.key = key) (located : link.address = address) :
      Adds key address r { r with peers := r.peers ++ [link] }

theorem addPeer_adds (brokerId key address : Str) (r : Routing) :
    Adds key address r (r.addPeer brokerId key address) := by
  unfold addPeer
  split
  next taken =>
    obtain ⟨link,member,same⟩ := List.any_eq_true.mp taken
    simp only [Bool.or_eq_true,beq_iff_eq] at same
    apply Adds.refused
    rcases same with named | located
    · exact .inl fun free => free link member named
    · exact .inr ⟨link,member,located⟩
  next clear =>
    rw [List.any_eq_true] at clear
    apply Adds.added
    · exact fun link member named => clear ⟨link,member,by simp [named]⟩
    · rintro ⟨link,member,located⟩
      exact clear ⟨link,member,by simp [located]⟩
    · rfl
    · rfl

section

variable {key address : Str} {r r' : Routing} (adds : Adds key address r r')

include adds

theorem Adds.kept {link : PeerLink} (member : link ∈ r.peers) : link ∈ r'.peers := by
  cases adds with
  | refused => exact member
  | added => exact List.mem_append_left _ member

theorem Adds.linked : r'.Linked address ↔ r.Linked address ∨ r.Free key := by
  cases adds with
  | refused taken => tauto
  | added free unlinked link named located =>
    exact ⟨fun _ => .inr free,fun _ => ⟨link,List.mem_append_right _ (List.mem_singleton_self _),located⟩⟩

theorem Adds.oneEach (oneEach : r.OneEach) : r'.OneEach := by
  cases adds with
  | refused => exact oneEach
  | added free unlinked link named located =>
    have apart {old : PeerLink} (member : old ∈ r.peers) : old.address ≠ link.address := fun same =>
      unlinked ⟨old,member,same.trans located⟩
    intro first inFirst second inSecond same
    rcases List.mem_append.mp inFirst with old | new <;> rcases List.mem_append.mp inSecond with old' | new'
    · exact oneEach first old second old' same
    · rw [List.mem_singleton.mp new'] at same
      exact absurd same (apart old)
    · rw [List.mem_singleton.mp new] at same
      exact absurd same.symm (apart old')
    · exact (List.mem_singleton.mp new).trans (List.mem_singleton.mp new').symm

end

end Routing

structure Peering extends Routing where
  discovery : Discovery
  /-- Passed to `connectToPeer` and not since to `disconnectFromPeer`. -/
  manual : Finset Str

namespace Peering

/-- `opens` says whether a link can be opened; what is thrown if it cannot is caught by
`addPeer`. -/
inductive Operation where
  | call (next : Discovery.Call) (opens : Bool)
  | connectToPeer (address : Str) (opens : Bool)
  | disconnectFromPeer (address : Str)

def addPeer (key address : Str) (opens : Bool) (s : Peering) : Peering :=
  if opens then { s with toRouting := s.toRouting.addPeer s.discovery.selfUuid key address } else s

def removePeer (key : Str) (s : Peering) : Peering := { s with toRouting := s.toRouting.removePeer key }

/-- The callbacks of discovery as the broker sets them. -/
def callback (opens : Bool) (s : Peering) : Discovery.Report → Peering
  | .dial uuid address => s.addPeer uuid address opens
  | .drop uuid => s.removePeer uuid
  | .accepted _ _ => s

/-- The address that a beacon was accepted from. -/
def sighting (next : Discovery.Call) (d : Discovery) : List (Assign Str Str) :=
  match next with
  | .onDatagram senderIp datagram _ =>
    match Beacon.decode datagram with
    | none => []
    | some heard => if d.accepts heard then [⟨heard.uuid,some (heard.address senderIp)⟩] else []
  | .expireStale _ | .setCluster _ => []

def step : Operation → Peering → Outcome Peering (Assign Str Str)
  | .call next opens, s =>
    let called := Discovery.call next s.discovery
    ⟨called.events.foldl (callback opens) { s with discovery := called.state },sighting next s.discovery⟩
  | .connectToPeer address opens, s => ⟨{ s with manual := insert address s.manual }.addPeer address address opens,[]⟩
  | .disconnectFromPeer address, s => ⟨{ s with manual := s.manual.erase address }.removePeer address,[]⟩

def start (r : Routing) (cluster selfUuid : Str) : Peering :=
  { r with peers := [], discovery := ⟨cluster,selfUuid,∅⟩, manual := ∅ }

/-- A link to the address is due to a dialed peer, or was asked for by hand. -/
def Wants (address : Str) (s : Peering) : Prop :=
  address ∈ s.manual ∨ ∃ entry ∈ s.discovery.dialed.entries, entry.2.address = address

/-- No link that is dropped leads to an address that is wanted afterwards. -/
def Spares (lost : List Str) (s after : Peering) : Prop :=
  ∀ link ∈ s.peers, link.key ∈ lost → ¬after.Wants link.address

/-- What an operation may find: an address that comes to be wanted is linked or can be
linked under its key, and no dropped link leads to an address that somebody else wants. -/
def Sound (s : Peering) : Operation → Prop
  | .call (.onDatagram senderIp datagram _) opens =>
    ∀ heard ∈ Beacon.decode datagram, s.discovery.accepts heard = true →
      s.Linked (heard.address senderIp) ∨ heard.uuid ∉ s.discovery.dialed ∧ opens = true ∧ s.Free heard.uuid
  | .call (.expireStale now) _ =>
    s.Spares (s.discovery.expireStale now).2 { s with discovery := (s.discovery.expireStale now).1 }
  | .call (.setCluster cluster) _ =>
    s.Spares (s.discovery.setCluster cluster).2 { s with discovery := (s.discovery.setCluster cluster).1 }
  | .connectToPeer address opens => s.Linked address ∨ opens = true ∧ s.Free address
  | .disconnectFromPeer address => s.Spares [address] { s with manual := s.manual.erase address }

instance (address : Str) (s : Peering) : Decidable (s.Wants address) :=
  inferInstanceAs (Decidable (_ ∨ ∃ _ ∈ _, _))

instance (lost : List Str) (s after : Peering) : Decidable (s.Spares lost after) :=
  inferInstanceAs (Decidable (∀ _ ∈ _, _))

instance (s : Peering) (operation : Operation) : Decidable (s.Sound operation) :=
  match operation with
  | .call (.onDatagram _ _ _) _ => inferInstanceAs (Decidable (∀ _ ∈ _, _))
  | .call (.expireStale _) _ | .call (.setCluster _) _ | .disconnectFromPeer _ =>
    inferInstanceAs (Decidable (Spares _ _ _))
  | .connectToPeer _ _ => inferInstanceAs (Decidable (_ ∨ _))

@[simp] theorem addPeer_discovery (key address : Str) (opens : Bool) (s : Peering) :
    (s.addPeer key address opens).discovery = s.discovery := by
  unfold addPeer
  split <;> rfl

@[simp] theorem addPeer_manual (key address : Str) (opens : Bool) (s : Peering) :
    (s.addPeer key address opens).manual = s.manual := by
  unfold addPeer
  split <;> rfl

@[simp] theorem addPeer_wants (key address : Str) (opens : Bool) (s : Peering) (other : Str) :
    (s.addPeer key address opens).Wants other ↔ s.Wants other := by
  simp [Wants]

theorem addPeer_kept (key address : Str) (opens : Bool) {s : Peering} {link : PeerLink} (member : link ∈ s.peers) :
    link ∈ (s.addPeer key address opens).peers := by
  unfold addPeer
  split
  · exact (s.toRouting.addPeer_adds _ key address).kept member
  · exact member

theorem addPeer_linked (key address : Str) (opens : Bool) (s : Peering) :
    (s.addPeer key address opens).Linked address ↔ s.Linked address ∨ opens = true ∧ s.Free key := by
  unfold addPeer
  split
  next opened =>
    simp only [opened,true_and]
    exact (s.toRouting.addPeer_adds _ key address).linked
  next closed => simp [closed]

theorem addPeer_oneEach (key address : Str) (opens : Bool) {s : Peering} (oneEach : s.OneEach) :
    (s.addPeer key address opens).OneEach := by
  unfold addPeer
  split
  · exact (s.toRouting.addPeer_adds _ key address).oneEach oneEach
  · exact oneEach

theorem foldl_drops (opens : Bool) (lost : List Str) (s : Peering) :
    (lost.map Discovery.Report.drop).foldl (callback opens) s =
      { s with toRouting := lost.foldl (fun r key => r.removePeer key) s.toRouting } := by
  induction lost generalizing s with
  | nil => rfl
  | cons uuid rest ih =>
    rw [List.map_cons,List.foldl_cons,ih]
    rfl

/-- What an operation does, and what it takes for it to be sound. A beacon of a dialed
peer opens no link. -/
inductive Effect (s : Peering) (operation : Operation) : Outcome Peering (Assign Str Str) → Prop
  | idle (sound : s.Sound operation) : Effect s operation ⟨s,[]⟩
  | heard (uuid address : Str) (now : Nat) (opens : Bool)
      (sound : s.Sound operation ↔ s.Linked address ∨ opens = true ∧ s.Free uuid) :
      Effect s operation
        ⟨{ s with discovery := { s.discovery with dialed := s.discovery.dialed.insert uuid ⟨address,now⟩ } }.addPeer
          uuid address opens,[⟨uuid,some address⟩]⟩
  | connected (address : Str) (opens : Bool)
      (sound : s.Sound operation ↔ s.Linked address ∨ opens = true ∧ s.Free address) :
      Effect s operation ⟨{ s with manual := insert address s.manual }.addPeer address address opens,[]⟩
  | left (lost : List Str) (d : Discovery) (leaves : Discovery.Leaves s.discovery lost d)
      (sound : s.Sound operation ↔ s.Spares lost { s with discovery := d }) :
      Effect s operation
        ⟨{ s with discovery := d, toRouting := lost.foldl (fun r key => r.removePeer key) s.toRouting },[]⟩
  | disconnected (address : Str)
      (sound : s.Sound operation ↔ s.Spares [address] { s with manual := s.manual.erase address }) :
      Effect s operation ⟨{ s with manual := s.manual.erase address }.removePeer address,[]⟩

theorem datagram_effect (senderIp datagram : Str) (now : Nat) (opens : Bool) (s : Peering) :
    Effect s (.call (.onDatagram senderIp datagram now) opens)
      (step (.call (.onDatagram senderIp datagram now) opens) s) := by
  cases decoded : Beacon.decode datagram with
  | none =>
    have sound : s.Sound (.call (.onDatagram senderIp datagram now) opens) := by simp [Sound,decoded]
    simpa only [step,Discovery.call,sighting,decoded,List.foldl_nil] using Effect.idle sound
  | some heard =>
    by_cases accepted : s.discovery.accepts heard = true
    · by_cases known : heard.uuid ∈ s.discovery.dialed
      · have sound : s.Sound (.call (.onDatagram senderIp datagram now) opens) ↔
            s.Linked (heard.address senderIp) ∨ false = true ∧ s.Free heard.uuid := by
          simp [Sound,decoded,accepted,known]
        simpa [step,Discovery.call,sighting,decoded,Discovery.onDatagram_eq,accepted,known,callback,addPeer] using
          Effect.heard heard.uuid (heard.address senderIp) now false sound
      · have sound : s.Sound (.call (.onDatagram senderIp datagram now) opens) ↔
            s.Linked (heard.address senderIp) ∨ opens = true ∧ s.Free heard.uuid := by
          simp [Sound,decoded,accepted,known]
        simpa [step,Discovery.call,sighting,decoded,Discovery.onDatagram_eq,accepted,known,callback] using
          Effect.heard heard.uuid (heard.address senderIp) now opens sound
    · have sound : s.Sound (.call (.onDatagram senderIp datagram now) opens) := by simp [Sound,decoded,accepted]
      simpa [step,Discovery.call,sighting,decoded,Discovery.onDatagram_eq,accepted] using Effect.idle sound

theorem step_effect (operation : Operation) (s : Peering) : Effect s operation (step operation s) := by
  cases operation with
  | connectToPeer address opens => exact .connected address opens Iff.rfl
  | disconnectFromPeer address => exact .disconnected address Iff.rfl
  | call next opens =>
    cases next with
    | onDatagram senderIp datagram now => exact datagram_effect senderIp datagram now opens s
    | expireStale now =>
      simp only [step,Discovery.call,foldl_drops]
      exact .left _ _ (Discovery.expireStale_leaves now _) Iff.rfl
    | setCluster cluster =>
      simp only [step,Discovery.call,foldl_drops]
      exact .left _ _ (Discovery.setCluster_leaves cluster _) Iff.rfl

/-- Every wanted address is linked. -/
def AllLinked (s : Peering) : Prop := ∀ address, s.Wants address → s.Linked address

section

variable {s after : Peering}

/-- One address comes to be wanted, and a link to it is opened or not. -/
theorem AllLinked.enters (all : s.AllLinked) (same : after.peers = s.peers) (key : Str) {address : Str} (opens : Bool)
    (wanted : after.Wants address) (most : ∀ other, after.Wants other → other = address ∨ s.Wants other) :
    (after.addPeer key address opens).AllLinked ↔ after.Linked address ∨ opens = true ∧ after.Free key := by
  rw [← addPeer_linked]
  refine ⟨fun every => every address ((addPeer_wants ..).mpr wanted),fun linked other wants => ?_⟩
  rcases most other ((addPeer_wants ..).mp wants) with rfl | old
  · exact linked
  · obtain ⟨link,member,located⟩ := all other old
    rw [← same] at member
    exact ⟨link,addPeer_kept key address opens member,located⟩

/-- The links under some keys go, and no address comes to be wanted. -/
theorem AllLinked.leaves (all : s.AllLinked) (oneEach : s.OneEach) {lost : List Str} {before : Peering}
    (same : ∀ address, after.Wants address ↔ before.Wants address)
    (fewer : ∀ address, after.Wants address → s.Wants address)
    (remain : ∀ link, link ∈ after.peers ↔ link ∈ s.peers ∧ link.key ∉ lost) :
    after.AllLinked ↔ s.Spares lost before := by
  constructor
  · intro every link member dropped wants
    obtain ⟨other,present,located⟩ := every link.address ((same _).mpr wants)
    obtain ⟨old,stays⟩ := (remain other).mp present
    rw [oneEach other old link member located] at stays
    exact stays dropped
  · intro spares address wants
    obtain ⟨link,member,located⟩ := all address (fewer address wants)
    refine ⟨link,(remain link).mpr ⟨member,fun dropped => ?_⟩,located⟩
    apply spares link member dropped
    rw [located]
    exact (same address).mp wants

end

theorem mem_entries {uuid : Str} {entry : PeerEntry} {d : Discovery} :
    ⟨uuid,entry⟩ ∈ d.dialed.entries ↔ d.dialed.lookup uuid = some entry :=
  AList.mem_lookup_iff.symm

theorem heard_wants {uuid address : Str} {now : Nat} {s : Peering} (other : Str)
    (wants : { s with discovery := { s.discovery with
      dialed := s.discovery.dialed.insert uuid ⟨address,now⟩ } }.Wants other) : other = address ∨ s.Wants other := by
  rcases wants with manual | ⟨⟨name,entry⟩,listed,located⟩
  · exact .inr (.inl manual)
  · rw [mem_entries] at listed
    by_cases same : name = uuid
    · rw [same,AList.lookup_insert,Option.some_inj] at listed
      rw [← listed] at located
      exact .inl located.symm
    · rw [AList.lookup_insert_ne same] at listed
      exact .inr (.inr ⟨⟨name,entry⟩,mem_entries.mpr listed,located⟩)

theorem left_wants {lost : List Str} {s : Peering} {d : Discovery} (leaves : Discovery.Leaves s.discovery lost d)
    (address : Str) (wants : { s with discovery := d }.Wants address) : s.Wants address := by
  refine wants.imp_right ?_
  rintro ⟨⟨uuid,entry⟩,listed,located⟩
  rw [mem_entries] at listed
  have stays : uuid ∈ d.dialed := AList.lookup_isSome.mp (by simp [listed])
  rw [leaves.unchanged uuid stays] at listed
  exact ⟨⟨uuid,entry⟩,mem_entries.mpr listed,located⟩

/-- A step from a state with every wanted address linked leads to one just when it is sound. -/
theorem step_allLinked_iff (s : Peering) (operation : Operation) (oneEach : s.OneEach) (all : s.AllLinked) :
    (step operation s).state.AllLinked ↔ s.Sound operation := by
  have effect := step_effect operation s
  generalize step operation s = outcome at effect
  cases effect with
  | idle sound => exact ⟨fun _ => sound,fun _ => all⟩
  | heard uuid address now opens sound =>
    rw [sound]
    apply all.enters
    · rfl
    · exact .inr ⟨⟨uuid,⟨address,now⟩⟩,mem_entries.mpr (AList.lookup_insert _),rfl⟩
    · exact heard_wants
  | connected address opens sound =>
    rw [sound]
    apply all.enters
    · rfl
    · exact .inl (Finset.mem_insert_self _ _)
    · rintro other (manual | dialed)
      · exact (Finset.mem_insert.mp manual).imp_right .inl
      · exact .inr (.inr dialed)
  | left lost d leaves sound =>
    rw [sound]
    exact all.leaves oneEach (fun _ => Iff.rfl) (left_wants leaves) fun link => Routing.mem_removePeers
  | disconnected address sound =>
    rw [sound]
    refine all.leaves oneEach (fun _ => Iff.rfl) (fun other wants => ?_) fun link => ?_
    · exact wants.imp_left Finset.mem_of_mem_erase
    · rw [List.mem_singleton]
      exact Routing.mem_removePeer

theorem step_oneEach (s : Peering) (operation : Operation) (oneEach : s.OneEach) :
    (step operation s).state.OneEach := by
  have effect := step_effect operation s
  generalize step operation s = outcome at effect
  cases effect with
  | idle => exact oneEach
  | heard uuid address now opens => exact addPeer_oneEach uuid address opens oneEach
  | connected address opens => exact addPeer_oneEach address address opens oneEach
  | left lost d =>
    intro link member other present
    exact oneEach link (Routing.mem_removePeers.mp member).1 other (Routing.mem_removePeers.mp present).1
  | disconnected address =>
    intro link member other present
    exact oneEach link (Routing.mem_removePeer.mp member).1 other (Routing.mem_removePeer.mp present).1

/-- The table has the address of the last beacon accepted from each of its peers. -/
def Recorded (s : Peering) (trace : List (Assign Str Str)) : Prop :=
  ∀ uuid entry, s.discovery.dialed.lookup uuid = some entry → settle none trace uuid = some entry.address

theorem step_recorded {s : Peering} {trace : List (Assign Str Str)} (operation : Operation) (recorded : s.Recorded trace) :
    (step operation s).state.Recorded (trace ++ (step operation s).events) := by
  have effect := step_effect operation s
  generalize step operation s = outcome at effect
  cases effect with
  | idle => simpa using recorded
  | heard uuid address now opens =>
    intro name entry found
    rw [addPeer_discovery] at found
    rw [settle_append,settle_cons,settle_nil]
    by_cases same : uuid = name
    · subst same
      rw [AList.lookup_insert,Option.some_inj] at found
      rw [if_pos rfl,← found]
    · rw [AList.lookup_insert_ne (Ne.symm same)] at found
      rw [if_neg same]
      exact recorded name entry found
  | connected address opens =>
    intro name entry found
    rw [addPeer_discovery] at found
    rw [List.append_nil]
    exact recorded name entry found
  | left lost d leaves =>
    intro name entry found
    have stays : name ∈ d.dialed := AList.lookup_isSome.mp (by simp [found])
    rw [leaves.unchanged name stays] at found
    rw [List.append_nil]
    exact recorded name entry found
  | disconnected address =>
    rw [List.append_nil]
    exact recorded

theorem run_recorded (schedule : List Operation) (r : Routing) (cluster selfUuid : Str) :
    (run step schedule (start r cluster selfUuid)).state.Recorded (run step schedule (start r cluster selfUuid)).events :=
  run_reports step Recorded (fun _ _ operation recorded => step_recorded operation recorded) schedule _
    fun uuid entry found => by simp [start] at found

theorem Recorded.allLinked_iff {s : Peering} {trace : List (Assign Str Str)} (recorded : s.Recorded trace) :
    ((∀ uuid ∈ s.discovery.dialed, ∃ address, settle none trace uuid = some address ∧ s.Linked address) ∧
      ∀ address ∈ s.manual, s.Linked address) ↔ s.AllLinked := by
  constructor
  · rintro ⟨dialed,manual⟩ address (asked | ⟨⟨uuid,entry⟩,listed,rfl⟩)
    · exact manual address asked
    · rw [mem_entries] at listed
      obtain ⟨address,last,linked⟩ := dialed uuid (AList.lookup_isSome.mp (by simp [listed]))
      rw [recorded uuid entry listed,Option.some_inj] at last
      exact last ▸ linked
  · intro all
    refine ⟨fun uuid dialed => ?_,fun address asked => all address (.inl asked)⟩
    obtain ⟨entry,found⟩ := Option.isSome_iff_exists.mp (AList.lookup_isSome.mpr dialed)
    exact ⟨entry.address,recorded uuid entry found,all _ (.inr ⟨⟨uuid,entry⟩,mem_entries.mpr found,rfl⟩)⟩

/-- Along a run, every peer in discovery's table is linked at the address of its last
accepted beacon and every address asked for by hand is linked, just when every operation
is sound where it runs. -/
theorem wanted_peers_linked_iff (r : Routing) (cluster selfUuid : Str) (schedule : List Operation) :
    (∀ front, front <+: schedule →
      let reached := run step front (start r cluster selfUuid)
      (∀ uuid ∈ reached.state.discovery.dialed, ∃ address,
        settle none reached.events uuid = some address ∧ reached.state.Linked address) ∧
      ∀ address ∈ reached.state.manual, reached.state.Linked address) ↔
    Always step Sound schedule (start r cluster selfUuid) := by
  have each (front : List Operation) := (run_recorded front r cluster selfUuid).allLinked_iff
  simp only [each]
  apply run_holds_iff step (fun s => s.OneEach) AllLinked
  · exact step_oneEach
  · exact step_allLinked_iff
  · exact fun link member => (List.not_mem_nil member).elim
  · rintro address (asked | ⟨entry,listed,-⟩)
    · exact absurd asked (Finset.notMem_empty address)
    · exact (List.not_mem_nil listed).elim

/-- What a broker of the cluster `a` hears of another one at an address. -/
def hears (uuid ip : String) (opens : Bool) : Operation :=
  .call (.onDatagram (str ip) (Beacon.encode (str "a") (str uuid) 1 0) 0) opens

def there : Str := str "tcp://i:1"

/-- A peer announced where a link was made by hand needs no link of its own. -/
def inStep : List Operation :=
  [.connectToPeer there true,hears "X" "i" true,hears "Y" "j" true,hears "X" "i" false,.call (.expireStale 3) true]

theorem wanted_peers_linked_in_step :
    let reached := (run step inStep (start .empty (str "a") (str "A"))).state
    str "X" ∈ reached.discovery.dialed ∧ str "Y" ∈ reached.discovery.dialed ∧
      there ∈ reached.manual ∧ reached.Linked there := by
  have sound : Always step Sound inStep (start .empty (str "a") (str "A")) := by decide +kernel
  have linked := (wanted_peers_linked_iff .empty (str "a") (str "A") inStep).mpr sound inStep List.prefix_rfl
  have asked : there ∈ (run step inStep (start .empty (str "a") (str "A"))).state.manual := by decide +kernel
  exact ⟨by decide +kernel,by decide +kernel,asked,linked.2 there asked⟩

/-- A dial that fails is not tried again, a peer that moves is not dialed where it moved
to, and a link that two parties want goes when one of them leaves. -/
theorem wanted_peers_unlinked :
    (∀ schedule ∈ [[hears "X" "i" false],[hears "X" "j" true,hears "X" "i" true],
        [.connectToPeer there true,hears "X" "i" true,.disconnectFromPeer there]],
      let reached := run step schedule (start .empty (str "a") (str "A"))
      str "X" ∈ reached.state.discovery.dialed ∧ settle none reached.events (str "X") = some there ∧
        ¬reached.state.Linked there) ∧
    let reached := (run step [hears "X" "i" true,.connectToPeer there true,.call (.expireStale 6000) true]
      (start .empty (str "a") (str "A"))).state
    there ∈ reached.manual ∧ ¬reached.Linked there := by
  decide +kernel

end Peering

end Wisp
