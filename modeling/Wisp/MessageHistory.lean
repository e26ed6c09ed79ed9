import Mathlib.Algebra.Group.Nat.Defs
import Wisp.MessageKeys
import Wisp.OpenAddressing
import Wisp.RotatingWindow

/-! The dedup history of a broker: two generations of an insert-only table of
128-bit ids. It refines the rotating window over the ids accepted so far. -/
namespace Wisp

open OpenAddressing RotatingWindow

structure MessageId where
  hi : UInt64
  lo : UInt64
  deriving DecidableEq, Repr

def MessageId.vacant : MessageId := ⟨0,0⟩

def loadWord (bytes : Str) : UInt64 := bytes.foldr (fun byte word => word * 256 + byte.toUInt64) 0

def messageIdFrom (uuid : Str) : MessageId :=
  if uuid.length = 16 then ⟨loadWord (uuid.take 8),loadWord (uuid.drop 8)⟩
  else
    ⟨uuid.foldl (fun (h : UInt64) c => (h ^^^ c.toUInt64) * 1099511628211) 14695981039346656037,
      uuid.foldl (fun (h : UInt64) c => (h ^^^ c.toUInt64) * 0x9e3779b97f4a7c15) 0x2545f4914f6cdd1d⟩

/-- The id dedup works with: the empty-slot sentinel is remapped. -/
def dedupId (uuid : Str) : MessageId :=
  let id := messageIdFrom uuid
  if id.hi = 0 ∧ id.lo = 0 then { id with lo := 1 } else id

theorem dedupId_ne_vacant (uuid : Str) : dedupId uuid ≠ .vacant := by
  unfold dedupId
  dsimp only
  split
  next zero => simp [MessageId.vacant]
  next nonzero =>
    intro same
    exact nonzero ⟨congrArg MessageId.hi same,congrArg MessageId.lo same⟩

def messageIdHash (id : MessageId) : UInt64 := id.hi ^^^ (id.lo * 0x9e3779b97f4a7c15)

def dedupSetCapacity : Nat := 32768
def maxHistorySize : Nat := 10000

/-- A table of `capacity` slots, a power of two. -/
structure MessageIdSet where
  capacity : Nat
  slots : Nat → MessageId
  count : Nat

namespace MessageIdSet

def new (capacity : Nat) : MessageIdSet := ⟨capacity,fun _ => .vacant,0⟩

/-- Where the probe for `id` ends; it has none in a table full of other ids, which
the walk would circle for ever. -/
def slotOf (set : MessageIdSet) (id : MessageId) : Option Nat :=
  probe .vacant (fun index => (index + 1) &&& (set.capacity - 1)) set.slots id set.capacity
    ((messageIdHash id).toNat &&& (set.capacity - 1))

def contains (set : MessageIdSet) (id : MessageId) : Bool :=
  match set.slotOf id with
  | none => false
  | some index => set.slots index != .vacant

def insert (set : MessageIdSet) (id : MessageId) : MessageIdSet :=
  match set.slotOf id with
  | none => set
  | some index =>
    if set.slots index = .vacant then
      { set with slots := Function.update set.slots index id, count := set.count + 1 }
    else set

def clear (set : MessageIdSet) : MessageIdSet := { set with slots := fun _ => .vacant, count := 0 }

/-- A table of `2 ^ bits` slots that holds exactly these ids. -/
structure Tabulates (bits : Nat) (set : MessageIdSet) (members : List MessageId) : Prop where
  capacity : set.capacity = 2 ^ bits
  count : set.count = members.length
  stores : Stores .vacant (2 ^ bits) (fun id => (messageIdHash id).toNat) set.slots members

variable {bits : Nat} {set : MessageIdSet} {members : List MessageId} {id : MessageId}

theorem new_tabulates (bits : Nat) : Tabulates bits (new (2 ^ bits)) [] :=
  ⟨rfl,rfl,cleared_stores _ _ _⟩

theorem Tabulates.clear (table : Tabulates bits set members) : Tabulates bits set.clear [] :=
  ⟨table.capacity,rfl,cleared_stores _ _ _⟩

/-- Every probe of a table with a free slot ends. -/
theorem Tabulates.slotOf_stops (table : Tabulates bits set members) (spare : members.length < 2 ^ bits)
    (proper : id ≠ .vacant) :
    ∃ d, d < 2 ^ bits ∧
      set.slotOf id = some (walk (2 ^ bits) (fun id => (messageIdHash id).toNat) id d) ∧
      (∀ e, e < d → set.slots (walk (2 ^ bits) (fun id => (messageIdHash id).toNat) id e) ≠ .vacant) ∧
      (id ∈ members ∧ set.slots (walk (2 ^ bits) (fun id => (messageIdHash id).toNat) id d) = id ∨
        id ∉ members ∧ set.slots (walk (2 ^ bits) (fun id => (messageIdHash id).toNat) id d) = .vacant) := by
  have stops := table.stores.probe_stops (fun index => Nat.and_two_pow_sub_one_eq_mod (index + 1) bits)
    spare id proper
  unfold slotOf
  rw [table.capacity,Nat.and_two_pow_sub_one_eq_mod]
  exact stops

theorem Tabulates.contains_iff (table : Tabulates bits set members) (spare : members.length < 2 ^ bits)
    (proper : id ≠ .vacant) : set.contains id = true ↔ id ∈ members := by
  obtain ⟨d,_,stop,_,hit | miss⟩ := table.slotOf_stops spare proper
  · simp [contains,stop,hit.1,hit.2,proper]
  · simp [contains,stop,miss.1,miss.2]

theorem Tabulates.insert_member (table : Tabulates bits set members) (spare : members.length < 2 ^ bits)
    (proper : id ≠ .vacant) (member : id ∈ members) : set.insert id = set := by
  obtain ⟨d,_,stop,_,hit | miss⟩ := table.slotOf_stops spare proper
  · simp [insert,stop,hit.2,proper]
  · exact (miss.1 member).elim

theorem Tabulates.insert_fresh (table : Tabulates bits set members) (spare : members.length < 2 ^ bits)
    (proper : id ≠ .vacant) (fresh : id ∉ members) : Tabulates bits (set.insert id) (id :: members) := by
  obtain ⟨d,within,stop,path,hit | miss⟩ := table.slotOf_stops spare proper
  · exact (fresh hit.1).elim
  · have written : set.insert id = { set with
        slots := Function.update set.slots
          (walk (2 ^ bits) (fun id => (messageIdHash id).toNat) id d) id
        count := set.count + 1 } := by
      simp [insert,stop,miss.2]
    rw [written]
    exact ⟨table.capacity,by simp [table.count],
      table.stores.write id proper fresh d within miss.2 path⟩

theorem Tabulates.slotOf_isSome (table : Tabulates bits set members) (spare : members.length < 2 ^ bits)
    (proper : id ≠ .vacant) : (set.slotOf id).isSome = true := by
  obtain ⟨d,-,stop,-⟩ := table.slotOf_stops spare proper
  rw [stop]
  rfl

end MessageIdSet

/-- `m_seenCurrent` and `m_seenPrevious`. -/
structure MessageHistory where
  current : MessageIdSet
  previous : MessageIdSet

namespace MessageHistory

def new : MessageHistory := ⟨.new dedupSetCapacity,.new dedupSetCapacity⟩

def isDuplicate (uuid : Str) (h : MessageHistory) : MessageHistory × Bool :=
  let id := dedupId uuid
  if h.current.contains id || h.previous.contains id then (h,true)
  else
    let current := h.current.insert id
    if current.count ≥ maxHistorySize then (⟨h.previous.clear,current⟩,false)
    else (⟨current,h.previous⟩,false)

/-- The accepted ids, newest first, and the tables that remember the recent ones. -/
def Recollects (h : MessageHistory) (accepted : List MessageId) : Prop :=
  ∃ w : Window MessageId, h.current.Tabulates 15 w.current ∧ h.previous.Tabulates 15 w.previous ∧
    Recalls maxHistorySize accepted w

theorem new_recollects : Recollects new [] :=
  ⟨empty,MessageIdSet.new_tabulates _,MessageIdSet.new_tabulates _,empty_recalls _ (by decide)⟩

theorem previous_spare {w : Window MessageId} (recalls : Recalls maxHistorySize accepted w) :
    w.previous.length < 2 ^ 15 := by
  obtain ⟨_,_,full | ⟨none,_⟩⟩ := recalls.held
  · rw [full]; decide
  · rw [none,List.length_nil]; decide

variable {h : MessageHistory} {accepted newer older : List MessageId} {uuid : Str}

theorem isDuplicate_iff {w : Window MessageId} (current : h.current.Tabulates 15 w.current)
    (previous : h.previous.Tabulates 15 w.previous) (recalls : Recalls maxHistorySize accepted w) :
    (h.isDuplicate uuid).2 = true ↔ w.Remembers (dedupId uuid) := by
  have proper := dedupId_ne_vacant uuid
  have spare : w.current.length < 2 ^ 15 := Nat.lt_trans recalls.room (by decide)
  have hits : (h.current.contains (dedupId uuid) || h.previous.contains (dedupId uuid)) = true ↔
      w.Remembers (dedupId uuid) := by
    rw [Bool.or_eq_true,current.contains_iff spare proper,previous.contains_iff (previous_spare recalls) proper,
      Window.Remembers]
  rw [← hits]
  unfold isDuplicate
  dsimp only
  split
  next found => simp [found]
  next missed => split <;> simpa using missed

theorem isDuplicate_same (duplicate : (h.isDuplicate uuid).2 = true) : (h.isDuplicate uuid).1 = h := by
  unfold isDuplicate at duplicate ⊢
  dsimp only at duplicate ⊢
  split
  · rfl
  next missed =>
    rw [if_neg missed] at duplicate
    split at duplicate <;> simp at duplicate

theorem Recollects.accept (recollects : Recollects h accepted) (fresh : (h.isDuplicate uuid).2 = false) :
    Recollects (h.isDuplicate uuid).1 (dedupId uuid :: accepted) := by
  obtain ⟨w,current,previous,recalls⟩ := recollects
  have proper := dedupId_ne_vacant uuid
  have spare : w.current.length < 2 ^ 15 := Nat.lt_trans recalls.room (by decide)
  have unknown : ¬w.Remembers (dedupId uuid) := by
    rw [← isDuplicate_iff current previous recalls,fresh]
    simp
  have inserted := current.insert_fresh spare proper fun member => unknown (.inl member)
  refine ⟨w.enter maxHistorySize (dedupId uuid),?_,?_,recalls.enter _ unknown⟩
  all_goals
    unfold isDuplicate at fresh ⊢
    dsimp only at fresh ⊢
    split at fresh
    · simp at fresh
    next missed =>
      rw [if_neg missed]
      have size := inserted.count
      rw [List.length_cons] at size
      unfold Window.enter
      simp only [size,ge_iff_le]
      split
      · first | exact previous.clear | exact inserted
      · first | exact inserted | exact previous

/-- A repeat is recognized only if it was accepted before. -/
theorem Recollects.seen (recollects : Recollects h accepted) (duplicate : (h.isDuplicate uuid).2 = true) :
    dedupId uuid ∈ accepted := by
  obtain ⟨w,current,previous,recalls⟩ := recollects
  exact recalls.in_history _ ((isDuplicate_iff current previous recalls).mp duplicate)

/-- An id is recognized as long as fewer than `maxHistorySize` different others were
accepted after it. -/
theorem Recollects.recognized (recollects : Recollects h (newer ++ dedupId uuid :: older))
    (few : (newer.filter (· ≠ dedupId uuid)).dedup.length < maxHistorySize) :
    (h.isDuplicate uuid).2 = true := by
  obtain ⟨w,current,previous,recalls⟩ := recollects
  exact (isDuplicate_iff current previous recalls).mpr (recalls.remembers_since few)

end MessageHistory

end Wisp
