/-!
Finite maps that keep the order in which their keys were first entered.

The view of a map is `get?`; the order is that of `entries`.
-/

namespace NameBinding

structure OrderedMap (κ ν : Type) where
  entries : List (κ × ν) := []
deriving DecidableEq

namespace OrderedMap

variable {κ ν : Type} [DecidableEq κ]

def empty : OrderedMap κ ν := ⟨[]⟩

def get? (m : OrderedMap κ ν) (k : κ) : Option ν := m.entries.lookup k

def contains (m : OrderedMap κ ν) (k : κ) : Bool := (m.get? k).isSome

def keys (m : OrderedMap κ ν) : List κ := m.entries.map (·.1)

def values (m : OrderedMap κ ν) : List ν := m.entries.map (·.2)

def size (m : OrderedMap κ ν) : Nat := m.entries.length

def isEmpty (m : OrderedMap κ ν) : Bool := m.entries.isEmpty

/-- Enters a new key at the end; a key that is there already keeps its value. -/
def insertIfNew (m : OrderedMap κ ν) (k : κ) (v : ν) : OrderedMap κ ν :=
  if m.contains k then m else ⟨m.entries ++ [(k, v)]⟩

/-- Enters a new key at the end; a key that is there already takes the new value in its place. -/
def insert (m : OrderedMap κ ν) (k : κ) (v : ν) : OrderedMap κ ν :=
  if m.contains k then ⟨m.entries.map fun e => if e.1 = k then (k, v) else e⟩
  else ⟨m.entries ++ [(k, v)]⟩

/-- The same keys with the same values, in any order. -/
def sameEntries [DecidableEq ν] (m m' : OrderedMap κ ν) : Bool :=
  m.size == m'.size && m.entries.all fun e => m'.get? e.1 == some e.2

@[simp] theorem get?_empty (k : κ) : (empty : OrderedMap κ ν).get? k = none := rfl

theorem lookup_cons_ite (k a : κ) (b : ν) (es : List (κ × ν)) :
    ((a, b) :: es).lookup k = if k = a then some b else es.lookup k := by
  by_cases h : k = a
  · simp [h]
  · have : (k == a) = false := by simpa using h
    simp [List.lookup_cons, this, h]

theorem lookup_map_replace (es : List (κ × ν)) (k k' : κ) (v : ν) :
    (es.map fun e => if e.1 = k then (k, v) else e).lookup k' =
      if k' = k then (es.lookup k).map fun _ => v else es.lookup k' := by
  induction es with
  | nil => simp
  | cons e es ih =>
    obtain ⟨a, b⟩ := e
    rw [List.map_cons]
    by_cases ha : a = k
    · subst ha
      simp only [if_true, lookup_cons_ite, ih]
      by_cases h : k' = a <;> simp [h]
    · simp only [ha, if_false, lookup_cons_ite, ih]
      by_cases h : k' = k
      · have hk : ¬ k = a := fun h => ha h.symm
        simp [h, hk]
      · simp [h]

theorem get?_insertIfNew (m : OrderedMap κ ν) (k k' : κ) (v : ν) :
    (m.insertIfNew k v).get? k' = (m.get? k').or (if k' = k then some v else none) := by
  unfold insertIfNew contains
  by_cases h : (m.get? k).isSome
  · rw [if_pos h]
    by_cases hk : k' = k
    · subst hk
      simp [Option.or_of_isSome h]
    · simp [hk]
  · rw [if_neg h]
    simp [get?, List.lookup_append, lookup_cons_ite]

theorem get?_insert (m : OrderedMap κ ν) (k k' : κ) (v : ν) :
    (m.insert k v).get? k' = if k' = k then some v else m.get? k' := by
  unfold insert contains
  by_cases h : (m.get? k).isSome
  · rw [if_pos h]
    obtain ⟨w, hw⟩ := Option.isSome_iff_exists.mp h
    have hw' : m.entries.lookup k = some w := hw
    simp [get?, lookup_map_replace, hw']
  · rw [if_neg h]
    have hn : m.entries.lookup k = none := Option.not_isSome_iff_eq_none.mp h
    by_cases hk : k' = k
    · subst hk
      simp [get?, List.lookup_append, hn]
    · simp [get?, List.lookup_append, lookup_cons_ite, hk]

/-- A new key stands at the end, and no key moves. -/
theorem keys_insert (m : OrderedMap κ ν) (k : κ) (v : ν) :
    (m.insert k v).keys = if m.contains k then m.keys else m.keys ++ [k] := by
  unfold insert
  by_cases h : m.contains k
  · simp only [h, if_true, keys, List.map_map]
    apply List.map_congr_left
    intro e _
    by_cases he : e.1 = k <;> simp [he]
  · simp [h, keys]

end OrderedMap

end NameBinding
