import Mathlib.Data.List.AList

/-! A table from keys to nonempty lists, and what changing the list of one key makes of
everything that is stored. -/
namespace ListTable

variable {κ ε : Type}

abbrev Filled (ε : Type) := { list : List ε // list ≠ [] }

/-- A key stays in the table as long as its list has an element. -/
abbrev Table (κ ε : Type) := AList fun _ : κ => Filled ε

def stored (t : Table κ ε) : List ε := t.entries.flatMap fun entry => entry.2.val

variable [DecidableEq κ]

/-- A key that is not in the table has the empty list. -/
def listed (key : κ) (t : Table κ ε) : List ε := (t.lookup key).elim [] Subtype.val

theorem mem_stored {t : Table κ ε} {key : κ} {element : ε} (member : element ∈ listed key t) : element ∈ stored t := by
  unfold listed at member
  cases here : t.lookup key with
  | none =>
    rw [here] at member
    cases member
  | some list =>
    rw [here] at member
    exact List.mem_flatMap.mpr ⟨⟨key,list⟩,AList.mem_lookup_iff.mp here,member⟩

theorem listed_insert (key other : κ) (list : Filled ε) (t : Table κ ε) :
    listed other (t.insert key list) = if key = other then list.val else listed other t := by
  unfold listed
  split
  next same =>
    subst same
    rw [AList.lookup_insert]
    rfl
  next different => rw [AList.lookup_insert_ne (Ne.symm different)]

theorem listed_erase (key other : κ) (t : Table κ ε) :
    listed other (t.erase key) = if key = other then [] else listed other t := by
  unfold listed
  split
  next same =>
    subst same
    rw [AList.lookup_erase]
    rfl
  next different => rw [AList.lookup_erase_ne (Ne.symm different)]

theorem countP_stored_erase (p : ε → Bool) (key : κ) (t : Table κ ε) :
    (stored (t.erase key)).countP p + (listed key t).countP p = (stored t).countP p := by
  by_cases member : key ∈ t
  · obtain ⟨list,front,back,_,split,erased⟩ := List.exists_of_kerase (AList.mem_keys.mp member)
    have here : t.lookup key = some list := by
      refine AList.mem_lookup_iff.mpr ?_
      rw [split]
      simp
    have entries : (t.erase key).entries = front ++ back := erased
    simp only [stored,listed,here,entries,split,Option.elim_some,List.flatMap_append,List.flatMap_cons,List.countP_append]
    omega
  · have absent : t.erase key = t := AList.ext (List.kerase_of_notMem_keys member)
    rw [absent,listed,AList.lookup_eq_none.mpr member]
    rfl

theorem countP_stored_insert (p : ε → Bool) (key : κ) (list : Filled ε) (t : Table κ ε) :
    (stored (t.insert key list)).countP p = list.val.countP p + (stored (t.erase key)).countP p := by
  rw [stored,AList.entries_insert,List.flatMap_cons,List.countP_append]
  rfl

end ListTable
