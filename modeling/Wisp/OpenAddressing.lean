import Mathlib.Data.List.Nodup
import Mathlib.Data.Nat.Find
import Mathlib.Logic.Function.Basic

/-! Linear probing in a fixed table. `vacant` marks an unused slot; a probe walks
from an element's home slot, wrapping around, to the element or to the first
unused slot. The table is never grown, so every result asks for a free slot. -/
namespace OpenAddressing

variable {α : Type}

/-- The slot the walk for `x` stops at, or nothing when `fuel` slots were all taken
by other elements. -/
def probe [DecidableEq α] (vacant : α) (next : Nat → Nat) (slots : Nat → α) (x : α) : Nat → Nat → Option Nat
  | 0, _ => none
  | fuel + 1, index =>
    if slots index = vacant ∨ slots index = x then some index
    else probe vacant next slots x fuel (next index)

/-- Slot `distance` steps after the home slot of `x`. -/
def walk (capacity : Nat) (home : α → Nat) (x : α) (distance : Nat) : Nat :=
  (home x + distance) % capacity

/-- The table holds exactly `members`: each is reachable from its home slot over
used slots only, and nothing is held twice. -/
structure Stores (vacant : α) (capacity : Nat) (home : α → Nat) (slots : Nat → α)
    (members : List α) : Prop where
  nodup : members.Nodup
  proper : vacant ∉ members
  filled : ∀ i, i < capacity → slots i ≠ vacant → slots i ∈ members
  once : ∀ i j, i < capacity → j < capacity → slots i = slots j → slots i ≠ vacant → i = j
  found : ∀ x ∈ members, ∃ d, d < capacity ∧ slots (walk capacity home x d) = x ∧
    ∀ e, e < d → slots (walk capacity home x e) ≠ vacant

variable {vacant : α} {capacity : Nat} {home : α → Nat} {slots : Nat → α} {next : Nat → Nat}
  {members : List α}

theorem cleared_stores (vacant : α) (capacity : Nat) (home : α → Nat) :
    Stores vacant capacity home (fun _ => vacant) [] where
  nodup := List.nodup_nil
  proper := by simp
  filled := by intro i _ used; exact (used rfl).elim
  once := by intro i j _ _ _ used; exact (used rfl).elim
  found := by simp

theorem walk_lt (positive : 0 < capacity) (x : α) (distance : Nat) :
    walk capacity home x distance < capacity := Nat.mod_lt _ positive

theorem next_walk (cyclic : ∀ i, next i = (i + 1) % capacity) (x : α) (distance : Nat) :
    next (walk capacity home x distance) = walk capacity home x (distance + 1) := by
  rw [cyclic,walk,walk,Nat.mod_add_mod,Nat.add_assoc]

theorem probe_walk [DecidableEq α] (cyclic : ∀ i, next i = (i + 1) % capacity) (x : α) (distance : Nat)
    (stop : slots (walk capacity home x distance) = vacant ∨ slots (walk capacity home x distance) = x)
    (first start fuel : Nat) (reach : start + first = distance) (enough : first < fuel)
    (before : ∀ e, e < distance → start ≤ e → slots (walk capacity home x e) ≠ vacant ∧
      slots (walk capacity home x e) ≠ x) :
    probe vacant next slots x fuel (walk capacity home x start) = some (walk capacity home x distance) := by
  induction first generalizing start fuel with
  | zero =>
    obtain ⟨fuel,rfl⟩ : ∃ k, fuel = k + 1 := ⟨fuel - 1,by omega⟩
    obtain rfl : start = distance := by omega
    simp [probe,stop]
  | succ first ih =>
    obtain ⟨fuel,rfl⟩ : ∃ k, fuel = k + 1 := ⟨fuel - 1,by omega⟩
    have passed := before start (by omega) (Nat.le_refl _)
    simp only [probe,passed.1,passed.2,or_self,↓reduceIte]
    rw [next_walk cyclic]
    exact ih (start + 1) fuel (by omega) (by omega) (fun e below above => before e below (by omega))

/-- Fewer members than slots leave an unused slot. -/
theorem Stores.vacancy (stores : Stores vacant capacity home slots members)
    (spare : members.length < capacity) : ∃ i, i < capacity ∧ slots i = vacant := by
  by_contra full
  have used : ∀ i, i < capacity → slots i ≠ vacant := fun i bound free => full ⟨i,bound,free⟩
  have distinct : ((List.range capacity).map slots).Nodup := by
    refine List.Nodup.map_on ?_ List.nodup_range
    intro i hi j hj same
    exact stores.once i j (List.mem_range.mp hi) (List.mem_range.mp hj) same
      (used i (List.mem_range.mp hi))
  have inside : (List.range capacity).map slots ⊆ members := by
    intro x member
    obtain ⟨i,hi,rfl⟩ := List.mem_map.mp member
    exact stores.filled i (List.mem_range.mp hi) (used i (List.mem_range.mp hi))
  have bound := List.Nodup.length_le_of_subset distinct inside
  simp only [List.length_map,List.length_range] at bound
  omega

theorem walk_onto (home : α → Nat) (x : α) (i : Nat) (bound : i < capacity) :
    ∃ d, d < capacity ∧ walk capacity home x d = i := by
  refine ⟨(i + capacity - home x % capacity) % capacity,Nat.mod_lt _ (by omega),?_⟩
  have below := Nat.mod_lt (home x) (Nat.lt_of_le_of_lt (Nat.zero_le i) bound)
  rw [walk,Nat.add_mod_mod,← Nat.mod_add_mod]
  have cancel : home x % capacity + (i + capacity - home x % capacity) = i + capacity := by omega
  rw [cancel,Nat.add_mod_right,Nat.mod_eq_of_lt bound]

/-- With a spare slot the walk for `x` stops within `capacity` slots: at `x` when it
is a member, and otherwise at the first unused slot on its way. -/
theorem Stores.probe_stops [DecidableEq α] (stores : Stores vacant capacity home slots members)
    (cyclic : ∀ i, next i = (i + 1) % capacity) (spare : members.length < capacity)
    (x : α) (proper : x ≠ vacant) :
    ∃ d, d < capacity ∧
      probe vacant next slots x capacity (home x % capacity) = some (walk capacity home x d) ∧
      (∀ e, e < d → slots (walk capacity home x e) ≠ vacant) ∧
      (x ∈ members ∧ slots (walk capacity home x d) = x ∨
        x ∉ members ∧ slots (walk capacity home x d) = vacant) := by
  obtain ⟨free,bound,unused⟩ := stores.vacancy spare
  obtain ⟨reach,within,at_free⟩ := walk_onto home x free bound
  have exists_stop : ∃ d, slots (walk capacity home x d) = vacant ∨
      slots (walk capacity home x d) = x := ⟨reach,.inl (by rw [at_free,unused])⟩
  classical
  let d := Nat.find exists_stop
  have least : ∀ e, e < d → ¬(slots (walk capacity home x e) = vacant ∨
      slots (walk capacity home x e) = x) := fun e below => Nat.find_min exists_stop below
  have dle : d ≤ reach := Nat.find_min' exists_stop (.inl (by rw [at_free,unused]))
  have stopped : slots (walk capacity home x d) = vacant ∨ slots (walk capacity home x d) = x :=
    Nat.find_spec exists_stop
  refine ⟨d,by omega,?_,fun e below taken => least e below (.inl taken),?_⟩
  · have start : home x % capacity = walk capacity home x 0 := by simp [walk]
    rw [start]
    refine probe_walk cyclic x d stopped d 0 capacity (by omega) (by omega) ?_
    intro e below _
    exact not_or.mp (least e below)
  · by_cases member : x ∈ members
    · obtain ⟨k,_,atk,path⟩ := stores.found x member
      refine .inl ⟨member,stopped.resolve_left fun free => ?_⟩
      have later : k < d := by
        by_contra notLater
        rcases Nat.lt_or_ge d k with before | same
        · exact path d before free
        · obtain rfl : k = d := by omega
          exact proper (atk.symm.trans free)
      exact least k later (.inr atk)
    · refine .inr ⟨member,stopped.resolve_right fun hit => ?_⟩
      have inside := stores.filled _ (walk_lt (by omega) x d) (by rw [hit]; exact proper)
      rw [hit] at inside
      exact member inside

/-- Writing a new element at the unused slot its walk stops at stores it. -/
theorem Stores.write (stores : Stores vacant capacity home slots members)
    (x : α) (proper : x ≠ vacant) (fresh : x ∉ members) (d : Nat) (within : d < capacity)
    (free : slots (walk capacity home x d) = vacant)
    (path : ∀ e, e < d → slots (walk capacity home x e) ≠ vacant) :
    Stores vacant capacity home (Function.update slots (walk capacity home x d) x) (x :: members) := by
  have keep : ∀ i, slots i ≠ vacant → Function.update slots (walk capacity home x d) x i = slots i := by
    intro i used
    rw [Function.update_of_ne]
    rintro rfl
    exact used free
  refine ⟨List.nodup_cons.mpr ⟨fresh,stores.nodup⟩,?_,?_,?_,?_⟩
  · simp [proper.symm,stores.proper]
  · intro i bound used
    by_cases here : i = walk capacity home x d
    · simp [here]
    · rw [Function.update_of_ne here] at used ⊢
      exact List.mem_cons_of_mem _ (stores.filled i bound used)
  · intro i j bi bj same used
    by_cases hi : i = walk capacity home x d <;> by_cases hj : j = walk capacity home x d
    · rw [hi,hj]
    · rw [hi,Function.update_self,Function.update_of_ne hj] at same
      exact (fresh (same ▸ stores.filled j bj (by rw [← same]; exact proper))).elim
    · rw [hj,Function.update_self,Function.update_of_ne hi] at same
      exact (fresh (same ▸ stores.filled i bi (by rw [same]; exact proper))).elim
    · rw [Function.update_of_ne hi,Function.update_of_ne hj] at same
      rw [Function.update_of_ne hi] at used
      exact stores.once i j bi bj same used
  · intro y member
    rcases List.mem_cons.mp member with rfl | old
    · refine ⟨d,within,Function.update_self .., fun e below => ?_⟩
      rw [keep _ (path e below)]
      exact path e below
    · obtain ⟨k,bound,atk,before⟩ := stores.found y old
      refine ⟨k,bound,?_,fun e below => ?_⟩
      · rw [keep,atk]
        rw [atk]
        rintro rfl
        exact stores.proper old
      · rw [keep _ (before e below)]
        exact before e below

end OpenAddressing
