/-!
Names: each distinct text gets the next key, counted from zero, and keeps it.
-/

namespace NameBinding

structure Name where
  key : Nat
deriving DecidableEq

structure NameTable where
  texts : Array String := #[]
deriving DecidableEq

namespace NameTable

/-- The name of a text that has been entered. -/
def find? (t : NameTable) (text : String) : Option Name :=
  (t.texts.toList.idxOf? text).map Name.mk

def text? (t : NameTable) (n : Name) : Option String := t.texts[n.key]?

def size (t : NameTable) : Nat := t.texts.size

/-- The name of a text, which is entered if it is new. -/
def intern (t : NameTable) (text : String) : Name × NameTable :=
  match t.find? text with
  | some n => (n, t)
  | none => (⟨t.texts.size⟩, ⟨t.texts.push text⟩)

theorem text?_of_find? {t : NameTable} {text : String} {n : Name} (h : t.find? text = some n) :
    t.text? n = some text := by
  obtain ⟨i, hi, rfl⟩ := Option.map_eq_some_iff.mp h
  obtain ⟨hlt, heq, -⟩ := List.findIdx?_eq_some_iff_getElem.mp hi
  simp only [text?, ← Array.getElem?_toList]
  rw [List.getElem?_eq_getElem hlt]
  simpa using heq

/-- The name of a text has that text. -/
@[simp] theorem text?_intern (t : NameTable) (text : String) :
    (t.intern text).2.text? (t.intern text).1 = some text := by
  unfold intern
  split
  · next n h => exact text?_of_find? h
  · simp [text?]

end NameTable

end NameBinding
