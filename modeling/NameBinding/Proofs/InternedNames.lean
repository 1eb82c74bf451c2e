import NameBinding.Proofs.OfferedNames

/-!
Names stand for texts, and scopes compare names only. Along any history of a table of names, the
keys count the distinct texts in the order in which they came; a text keeps its name, a name keeps
its text, and asking for either enters nothing.
-/

namespace NameBinding

/-! ### Histories -/

/-- What a table of names can be asked. -/
inductive NameRequest
  | intern (text : String)
  | find (text : String)
  | read (n : Name)
  | count

inductive NameAnswer
  | name (n : Name)
  | found (n : Option Name)
  | text (text : Option String)
  | size (count : Nat)
deriving DecidableEq

/-- The text that a request interns. -/
def NameRequest.interned? : NameRequest → Option String
  | intern text => some text
  | _ => none

namespace NameTable

/-- The answer to a request, and the table after it. -/
def serve (t : NameTable) : NameRequest → NameAnswer × NameTable
  | .intern text => (.name (t.intern text).1, (t.intern text).2)
  | .find text => (.found (t.find? text), t)
  | .read n => (.text (t.text? n), t)
  | .count => (.size t.size, t)

/-- The table that requests lead to from the empty one. -/
def after (rs : List NameRequest) : NameTable := rs.foldl (fun t r => (t.serve r).2) {}

/-- The texts that were interned, in order and with repetitions. -/
def interned (rs : List NameRequest) : List String := rs.filterMap NameRequest.interned?

variable {t : NameTable} {n : Name} {text : String} {rs : List NameRequest}

lemma after_concat (rs : List NameRequest) (r : NameRequest) :
    after (rs ++ [r]) = ((after rs).serve r).2 := by
  simp [after, List.foldl_append]

lemma interned_append (rs rs' : List NameRequest) :
    interned (rs ++ rs') = interned rs ++ interned rs' :=
  List.filterMap_append

/-- A request interns a text, or leaves the table as it is. -/
lemma serve_cases (t : NameTable) (r : NameRequest) :
    (∃ text, r = .intern text) ∨ r.interned? = none ∧ (t.serve r).2 = t := by
  cases r with
  | intern text => exact .inl ⟨text, rfl⟩
  | _ => exact .inr ⟨rfl, rfl⟩

/-! ### One text is interned -/

lemma isSome_find?_iff : (t.find? text).isSome ↔ text ∈ t.texts.toList := by
  rw [find?, Option.isSome_map, ← not_iff_not, ← List.idxOf?_eq_none_iff,
    Bool.not_eq_true, Option.isSome_eq_false_iff, Option.isNone_iff_eq_none]

lemma isSome_text?_iff : (t.text? n).isSome ↔ n.key < t.size := by
  simp [text?, size]

lemma intern_of_some (h : t.find? text = some n) : t.intern text = (n, t) := by
  simp only [intern, h]

lemma intern_of_none (h : t.find? text = none) :
    t.intern text = (⟨t.size⟩, ⟨t.texts.push text⟩) := by
  simp only [intern, h, size]

/-- The texts after one was interned. -/
lemma mem_texts_intern {x : String} :
    x ∈ (t.intern text).2.texts.toList ↔ x ∈ t.texts.toList ∨ x = text := by
  cases h : t.find? text with
  | some n =>
    have hmem : text ∈ t.texts.toList := isSome_find?_iff.mp (by rw [h]; rfl)
    rw [intern_of_some h]
    exact ⟨.inl, fun hx => hx.elim id fun hx => hx ▸ hmem⟩
  | none =>
    rw [intern_of_none h]
    simp

lemma text?_intern_of_some (h : t.text? n = some text) (x : String) :
    (t.intern x).2.text? n = some text := by
  cases hx : t.find? x with
  | some m => rwa [intern_of_some hx]
  | none =>
    have hlt : n.key < t.texts.size := (Array.getElem?_eq_some_iff.mp h).1
    rw [intern_of_none hx]
    simp only [text?, Array.getElem?_push_lt hlt]
    simpa only [text?, Array.getElem?_eq_getElem hlt] using h

/-! ### Whole histories -/

lemma distinct_after (rs : List NameRequest) : (after rs).Distinct := by
  induction rs using List.reverseRecOn with
  | nil => simp [after, Distinct]
  | append_singleton rs r ih =>
    rw [after_concat]
    obtain ⟨text, rfl⟩ | ⟨-, h⟩ := serve_cases (after rs) r
    · exact ih.intern text
    · rwa [h]

/-- The table holds the texts that were interned. -/
lemma mem_texts_after : text ∈ (after rs).texts.toList ↔ text ∈ interned rs := by
  induction rs using List.reverseRecOn with
  | nil => simp [after, interned]
  | append_singleton rs r ih =>
    rw [after_concat, interned_append, List.mem_append, ← ih]
    obtain ⟨x, rfl⟩ | ⟨hnone, h⟩ := serve_cases (after rs) r
    · exact mem_texts_intern.trans (by simp [interned, NameRequest.interned?])
    · rw [h]
      simp [interned, hnone]

lemma size_after (rs : List NameRequest) : (after rs).size = (interned rs).toFinset.card := by
  have hsame : (after rs).texts.toList.toFinset = (interned rs).toFinset := by
    ext text
    simp [List.mem_toFinset, ← mem_texts_after]
  rw [← hsame, List.toFinset_card_of_nodup (distinct_after rs), Array.length_toList, size]

/-- What a name stands for, it stands for ever after. -/
lemma text?_after_append (h : (after rs).text? n = some text) (later : List NameRequest) :
    (after (rs ++ later)).text? n = some text := by
  induction later using List.reverseRecOn with
  | nil => rwa [List.append_nil]
  | append_singleton later r ih =>
    rw [← List.append_assoc, after_concat]
    obtain ⟨x, rfl⟩ | ⟨-, hsame⟩ := serve_cases (after (rs ++ later)) r
    · exact text?_intern_of_some ih x
    · rwa [hsame]

lemma find?_eq_some_iff_text? : (after rs).find? text = some n ↔ (after rs).text? n = some text :=
  ⟨text?_of_find?, (distinct_after rs).find?_of_text?⟩

/-- The name that a text was given is found in every later table. -/
lemma find?_after_intern (earlier later : List NameRequest) (text : String) :
    (after (earlier ++ .intern text :: later)).find? text =
      some ((after earlier).intern text).1 := by
  have hstart : (after (earlier ++ [.intern text])).text? ((after earlier).intern text).1 =
      some text := by
    rw [after_concat]
    exact text?_intern _ _
  rw [find?_eq_some_iff_text?, List.append_cons]
  exact text?_after_append hstart later

/-- A text that was interned was interned a first time. -/
lemma exists_first (h : text ∈ interned rs) : ∃ earlier later,
    rs = earlier ++ .intern text :: later ∧ text ∉ interned earlier := by
  induction rs using List.reverseRecOn with
  | nil => simp [interned] at h
  | append_singleton rs r ih =>
    by_cases hrs : text ∈ interned rs
    · obtain ⟨earlier, later, rfl, hnew⟩ := ih hrs
      exact ⟨earlier, later ++ [r], by simp, hnew⟩
    · rw [interned_append, List.mem_append] at h
      have hr : text ∈ interned [r] := h.resolve_left hrs
      obtain ⟨x, rfl⟩ | ⟨hnone, -⟩ := serve_cases (after rs) r
      · obtain rfl : text = x := by simpa [interned, NameRequest.interned?] using hr
        exact ⟨rs, [], rfl, hrs⟩
      · simp [interned, hnone] at hr

lemma key_intern_of_new (h : text ∉ interned rs) :
    ((after rs).intern text).1.key = (interned rs).toFinset.card := by
  have hnone : (after rs).find? text = none := by
    rwa [← mem_texts_after, ← isSome_find?_iff, Bool.not_eq_true, Option.isSome_eq_false_iff,
      Option.isNone_iff_eq_none] at h
  rw [intern_of_none hnone, size_after]

lemma takeWhile_of_new {earlier : List NameRequest} (h : text ∉ interned earlier)
    (rest : List String) : (interned earlier ++ rest).takeWhile (· ≠ text) =
      interned earlier ++ rest.takeWhile (· ≠ text) := by
  refine List.takeWhile_append_of_pos fun x hx => ?_
  have hne : x ≠ text := fun heq => h (heq ▸ hx)
  simpa using hne

/-- The key of a text is the number of distinct texts before it came first. -/
lemma key_intern_after (rs : List NameRequest) (text : String) :
    ((after rs).intern text).1.key = ((interned rs).takeWhile (· ≠ text)).toFinset.card := by
  by_cases h : text ∈ interned rs
  · obtain ⟨earlier, later, rfl, hnew⟩ := exists_first h
    rw [intern_of_some (find?_after_intern earlier later text), key_intern_of_new hnew,
      interned_append, takeWhile_of_new hnew]
    simp [interned, NameRequest.interned?]
  · have hall := takeWhile_of_new h []
    rw [List.append_nil, List.takeWhile_nil, List.append_nil] at hall
    rw [key_intern_of_new h, hall]

/-- Only the texts that were interned make the table. -/
lemma after_eq_interned (rs : List NameRequest) : after rs = after ((interned rs).map .intern) := by
  induction rs using List.reverseRecOn with
  | nil => rfl
  | append_singleton rs r ih =>
    obtain ⟨text, rfl⟩ | ⟨hnone, hsame⟩ := serve_cases (after rs) r
    · rw [after_concat, ih, interned_append, List.map_append]
      exact (after_concat _ _).symm
    · rw [after_concat, hsame, interned_append, ih]
      simp [interned, hnone]

/-- **Names are dense and stable.** The name of a text has for its key the number of distinct texts
that were interned before the text came first. Ever after, the text has that name, the name has that
text, and neither asking for them nor interning the text again changes the table. A text has a name
if and only if it was interned, no two texts have the same, and the keys of names are the numbers
below the number of distinct texts. Nothing but interning makes the table. -/
theorem names_dense_and_stable :
    (∀ earlier text, ∃ n, ((after earlier).serve (.intern text)).1 = .name n ∧
      n.key = ((interned earlier).takeWhile (· ≠ text)).toFinset.card ∧
      ∀ later, let t := after (earlier ++ .intern text :: later)
        t.serve (.intern text) = (.name n, t) ∧ t.serve (.read n) = (.text (some text), t) ∧
        t.serve (.find text) = (.found (some n), t)) ∧
    ∀ rs, after rs = after ((interned rs).map .intern) ∧
      (after rs).size = (interned rs).toFinset.card ∧
      Set.InjOn (after rs).find? {text | text ∈ interned rs} ∧
      (∀ text, ((after rs).find? text).isSome ↔ text ∈ interned rs) ∧
      (∀ text n, (after rs).find? text = some n ↔ (after rs).text? n = some text) ∧
      ∀ n, ((after rs).text? n).isSome ↔ n.key < (after rs).size := by
  refine ⟨fun earlier text => ⟨_, rfl, key_intern_after earlier text, fun later => ?_⟩,
    fun rs => ⟨after_eq_interned rs, size_after rs, ?_, fun text => ?_,
      fun text n => find?_eq_some_iff_text?, fun n => isSome_text?_iff⟩⟩
  · have hfind := find?_after_intern earlier later text
    simp only [serve, intern_of_some hfind, hfind, text?_of_find? hfind, and_self]
  · intro a ha b _ hab
    have hsome : ((after rs).find? a).isSome := isSome_find?_iff.mpr (mem_texts_after.mpr ha)
    obtain ⟨n, hn⟩ := Option.isSome_iff_exists.mp hsome
    have hb := text?_of_find? (hab.symm.trans hn)
    exact Option.some.inj ((text?_of_find? hn).symm.trans hb)
  · exact isSome_find?_iff.trans mem_texts_after

end NameTable

end NameBinding
