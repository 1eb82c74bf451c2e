import NameBinding.Options.Document
import NameBinding.Proofs.Numerals

/-!
Documents that set options. A document of lines `key = value`, in any order, sets what its lines say
and leaves the rest at the defaults, if no key is set twice and each value is one that its field can
have; otherwise, and whenever an unknown key is set, it is refused.
-/

namespace NameBinding

/-! ### Values as they are written -/

namespace Setting

/-- A value as it is written: a number in decimal digits, or a truth value. -/
def Value.text : Value → String
  | integer n => toString n
  | flag b => if b then "true" else "false"

/-- The values that can be read: numbers of 64 bits, and truth values. -/
def Value.InRange : Value → Prop
  | integer n => -2 ^ 63 ≤ n ∧ n ≤ 2 ^ 63 - 1
  | flag _ => True

instance : (v : Value) → Decidable v.InRange
  | .integer _ => inferInstanceAs (Decidable (_ ∧ _))
  | .flag _ => inferInstanceAs (Decidable True)

lemma inRange_iff (n : Int) : inRange n = true ↔ (Value.integer n).InRange := by
  have hmin : Int64.minValue.toInt = -2 ^ 63 := by decide
  have hmax : Int64.maxValue.toInt = 2 ^ 63 - 1 := by decide
  simp only [inRange, hmin, hmax, Bool.and_eq_true, decide_eq_true_eq, Value.InRange]

lemma split_eq_splitOn (c : Char) (cs : List Char) : split c cs = cs.splitOn c := by
  induction cs with
  | nil => rfl
  | cons d ds ih =>
    have hne := List.splitOn_ne_nil c ds
    have hcons : (d :: ds).splitOn c =
        if d == c then [] :: ds.splitOn c else (ds.splitOn c).modifyHead (d :: ·) :=
      List.splitOnP_cons_eq_if_modifyHead ..
    rw [split, ih, hcons]
    by_cases hd : d = c
    · simp [hd]
    · cases h : ds.splitOn c with
      | nil => exact absurd h hne
      | cons piece pieces => simp [hd]

lemma split_of_notMem {c : Char} {cs : List Char} (h : c ∉ cs) : split c cs = [cs] := by
  have hsplit : ([c].intercalate [cs]).splitOn c = [cs] :=
    List.splitOn_intercalate c (by simpa using h) (by simp)
  rwa [List.intercalate_singleton, ← split_eq_splitOn] at hsplit

lemma grouped?_toDigits (n : Nat) : grouped? 10 (Nat.toDigits 10 n) = some n := by
  simp [grouped?, split_of_notMem Nat.underscore_not_in_toDigits, Numeral.value?_toDigits]

lemma decimal?_toDigits (n : Nat) : decimal? (Nat.toDigits 10 n) = some n := by
  unfold decimal?
  split
  · next c cs hcs =>
    have hn : n ≠ 0 := by
      rintro rfl
      simp at hcs
    have hhead := Numeral.head?_toDigits_ne (b := 10) (by decide) (Nat.pos_of_ne_zero hn)
    simp [hcs] at hhead
  · exact grouped?_toDigits n

lemma integer?_toDigits (n : Nat) : integer? (Nat.toDigits 10 n) = some (n : Int) := by
  have hdigit : ∀ c ∈ Nat.toDigits 10 n, c.isDigit = true := fun c =>
    Nat.isDigit_of_mem_toDigits (by decide) (by decide)
  unfold integer?
  split
  case h_6 => rw [decimal?_toDigits]; rfl
  -- the other forms begin with a sign or have a letter
  all_goals next h => simp [h] at hdigit

lemma integer?_toString (n : Int) : integer? (toString n).toList = some n := by
  have htext : toString n = n.repr := rfl
  rw [htext, Int.repr_eq_if]
  split
  · next hn => rw [Nat.toList_repr, integer?_toDigits, Int.toNat_of_nonneg hn]
  · next hn =>
    have hneg : ("-" ++ (-n).toNat.repr).toList = '-' :: Nat.toDigits 10 (-n).toNat := by simp
    rw [hneg, integer?, decimal?_toDigits]
    simp
    omega

/-- The characters of a value may stand in a bare key. -/
lemma isBareKeyChar_of_mem_text {v : Value} {c : Char} (hc : c ∈ v.text.toList) :
    isBareKeyChar c = true := by
  have hdigits : ∀ n, c ∈ Nat.toDigits 10 n → isBareKeyChar c = true := fun n h => by
    have hdigit := Nat.isDigit_of_mem_toDigits (by decide) (by decide) h
    simp [isBareKeyChar, Char.isAlphanum, hdigit]
  cases v with
  | flag b =>
    cases b with
    | true =>
      have hletter : c = 't' ∨ c = 'r' ∨ c = 'u' ∨ c = 'e' := by simpa [Value.text] using hc
      rcases hletter with rfl | rfl | rfl | rfl <;> decide
    | false =>
      have hletter : c = 'f' ∨ c = 'a' ∨ c = 'l' ∨ c = 's' ∨ c = 'e' := by
        simpa [Value.text] using hc
      rcases hletter with rfl | rfl | rfl | rfl | rfl <;> decide
  | integer n =>
    have htext : (Value.integer n).text = n.repr := rfl
    rw [htext, Int.repr_eq_if] at hc
    split at hc
    · exact hdigits _ (by simpa using hc)
    · have hsign : c = '-' ∨ c ∈ Nat.toDigits 10 (-n).toNat := by simpa using hc
      rcases hsign with rfl | hc
      · decide
      · exact hdigits _ hc

/-- A value is read back if it is in range. -/
lemma value?_text (v : Value) : value? v.text.toList = if v.InRange then some v else none := by
  cases v with
  | flag b => cases b <;> rfl
  | integer n =>
    have hread : integer? (Value.integer n).text.toList = some n := integer?_toString n
    have hword : ∀ word, integer? word = none → (Value.integer n).text.toList ≠ word := by
      rintro word hnone rfl
      rw [hread] at hnone
      cases hnone
    rw [value?, if_neg (hword _ rfl), if_neg (hword _ rfl), hread, Option.bind_some]
    simp only [inRange_iff]

/-! ### Lines -/

/-- A key that may stand without quotes. -/
def IsBareKey (k : String) : Prop := k ≠ "" ∧ ∀ c ∈ k.toList, isBareKeyChar c = true

instance (k : String) : Decidable (IsBareKey k) := inferInstanceAs (Decidable (_ ∧ _))

lemma ne_of_isBareKeyChar {c d : Char} (hc : isBareKeyChar c = true)
    (hd : isBareKeyChar d = false) : c ≠ d := by
  rintro rfl
  rw [hc] at hd
  cases hd

lemma isBlank_of_isBareKeyChar {c : Char} (hc : isBareKeyChar c = true) : isBlank c = false := by
  have hspace : c ≠ ' ' := ne_of_isBareKeyChar hc (by decide)
  have htab : c ≠ '\t' := ne_of_isBareKeyChar hc (by decide)
  simp [isBlank, hspace, htab]

lemma key?_bare {k : String} (hk : IsBareKey k) (r : List Char) :
    key? (k.toList ++ ' ' :: r) = some (k.toList, ' ' :: r) := by
  obtain ⟨hne, hchars⟩ := hk
  have htake : (k.toList ++ ' ' :: r).takeWhile isBareKeyChar = k.toList := by
    rw [List.takeWhile_append_of_pos hchars, List.takeWhile_cons_of_neg (by decide),
      List.append_nil]
  have hdrop : (k.toList ++ ' ' :: r).dropWhile isBareKeyChar = ' ' :: r := by
    rw [List.dropWhile_append_of_pos hchars, List.dropWhile_cons_of_neg (by decide)]
  cases hlist : k.toList with
  | nil => exact absurd (String.toList_eq_nil_iff.mp hlist) hne
  | cons c cs =>
    have hc := hchars c (by simp [hlist])
    rw [hlist] at htake hdrop
    unfold key?
    split
    · next h => exact absurd (List.cons.inj h).1 (ne_of_isBareKeyChar hc (by decide))
    · next h => exact absurd (List.cons.inj h).1 (ne_of_isBareKeyChar hc (by decide))
    · rw [htake, hdrop]

/-- A line with a bare key sets it, unless the value cannot be read. -/
lemma line?_bare {k : String} (hk : IsBareKey k) (w : List Char) :
    line? (k.toList ++ ' ' :: '=' :: w) =
      (assigned? (' ' :: '=' :: w)).map fun v => some (k, v) := by
  obtain ⟨c, cs, hlist⟩ := List.exists_cons_of_ne_nil (mt String.toList_eq_nil_iff.mp hk.1)
  have hc := hk.2 c (by simp [hlist])
  have hdrop : (k.toList ++ ' ' :: '=' :: w).dropWhile isBlank = k.toList ++ ' ' :: '=' :: w := by
    rw [hlist, List.cons_append, List.dropWhile_cons_of_neg (by simp [isBlank_of_isBareKeyChar hc])]
  have htail : isTail (k.toList ++ ' ' :: '=' :: w) = false := by
    rw [isTail, hdrop, hlist, List.cons_append]
    split
    · next h => cases h
    · next h => exact absurd (List.cons.inj h).1 (ne_of_isBareKeyChar hc (by decide))
    · rfl
  rw [line?, htail, hdrop, key?_bare hk]
  simp

/-- What follows the equals sign is read as a value, if nothing in it ends a value. -/
lemma assigned?_eq {w : List Char} (hw : ∀ c ∈ w, isBlank c = false ∧ c ≠ '#') :
    assigned? (' ' :: '=' :: ' ' :: w) = value? w := by
  have hblank : w.dropWhile isBlank = w := by
    cases w with
    | nil => rfl
    | cons c cs => rw [List.dropWhile_cons_of_neg (by simp [hw c (by simp)])]
  have hends : ∀ c ∈ w, (!(isBlank c || decide (c = '#'))) = true := fun c hc => by
    simp [hw c hc]
  have htake : w.takeWhile (fun c => !(isBlank c || decide (c = '#'))) = w :=
    List.takeWhile_eq_self_iff.mpr hends
  have hdrop : w.dropWhile (fun c => !(isBlank c || decide (c = '#'))) = [] :=
    List.dropWhile_eq_nil_iff.mpr hends
  have hequals : (' ' :: '=' :: ' ' :: w).dropWhile isBlank = '=' :: ' ' :: w := rfl
  have hspace : (' ' :: w).dropWhile isBlank = w := hblank
  simp only [assigned?, hequals, hspace, htake, hdrop]
  rfl

/-! ### Documents -/

/-- The text of a document with these lines. -/
def document (ls : List String) : String := "\n".intercalate ls

lemma stripMark_of_head? {cs : List Char} (h : cs.head? ≠ some '\uFEFF') : stripMark cs = cs := by
  unfold stripMark
  split
  · simp at h
  · rfl

lemma head?_intercalate_ne {c : Char} (hc : c ≠ '\n') {ls : List (List Char)}
    (h : ∀ l ∈ ls, l.head? ≠ some c) : (['\n'].intercalate ls).head? ≠ some c := by
  cases ls with
  | nil => simp
  | cons l ls =>
    have hl := h l (by simp)
    cases ls with
    | nil => simpa using hl
    | cons l' ls =>
      rw [List.intercalate_cons_cons]
      cases l with
      | nil => simpa using hc.symm
      | cons d ds => simpa using hl

/-- The lines of a document are read as they are written, up to a carriage return at the end. -/
lemma lines_document {ls : List String} (hne : ls ≠ []) (hfeed : ∀ l ∈ ls, '\n' ∉ l.toList)
    (hmark : ∀ l ∈ ls, l.toList.head? ≠ some '\uFEFF') :
    lines (stripMark (document ls).toList) = (ls.map String.toList).dropLast.map stripReturn ++
      (ls.map String.toList).getLast?.toList := by
  have htext : (document ls).toList = ['\n'].intercalate (ls.map String.toList) := by
    simp [document, String.toList_intercalate]
  have hhead : (document ls).toList.head? ≠ some '\uFEFF' := by
    rw [htext]
    exact head?_intercalate_ne (by decide) (by simpa using hmark)
  rw [stripMark_of_head? hhead, htext, lines, split_eq_splitOn,
    List.splitOn_intercalate _ (by simpa using hfeed) (by simpa using hne)]

lemma all?_document {ls : List String} (hfeed : ∀ l ∈ ls, '\n' ∉ l.toList ∧ '\r' ∉ l.toList)
    (hmark : ∀ l ∈ ls, l.toList.head? ≠ some '\uFEFF') :
    all? (document ls) = ((ls.map String.toList).mapM line?).map (·.filterMap id) := by
  by_cases hne : ls = []
  · subst hne
    rfl
  have hstrip : ∀ l ∈ (ls.map String.toList).dropLast, stripReturn l = l := by
    intro l hl
    obtain ⟨text, htext, rfl⟩ := List.mem_map.mp (List.mem_of_mem_dropLast hl)
    have hlast : text.toList.getLast? ≠ some '\r' := fun h =>
      (hfeed text htext).2 (List.mem_of_getLast? h)
    simp [stripReturn, hlast]
  have hlines : (ls.map String.toList).dropLast ++ (ls.map String.toList).getLast?.toList =
      ls.map String.toList := by
    rw [List.getLast?_eq_some_getLast (by simpa using hne), Option.toList_some,
      List.dropLast_append_getLast]
  rw [all?, lines_document hne (fun l hl => (hfeed l hl).1) hmark, List.map_congr_left hstrip,
    List.map_id', hlines]

end Setting

/-! ### Fields -/

namespace Options

open Setting

/-- What a document can set. -/
inductive Field
  | maxSuggestions
  | maxSuggestionDistance
  | maxErrors
  | validateSwitches
deriving DecidableEq

namespace Field

def key : Field → String
  | maxSuggestions => "max_suggestions"
  | maxSuggestionDistance => "max_suggestion_distance"
  | maxErrors => "max_errors"
  | validateSwitches => "validate_switches"

/-- The values that a field can be set to: counts of 63 bits, and truth values for the flag. -/
def Fits : Field → Value → Prop
  | validateSwitches, .flag _ => True
  | validateSwitches, .integer _ => False
  | _, .integer n => 0 ≤ n ∧ n ≤ 2 ^ 63 - 1
  | _, .flag _ => False

instance : (f : Field) → (v : Value) → Decidable (f.Fits v)
  | validateSwitches, .flag _ => inferInstanceAs (Decidable True)
  | validateSwitches, .integer _ => inferInstanceAs (Decidable False)
  | maxSuggestions, .integer _ | maxSuggestionDistance, .integer _ | maxErrors, .integer _ =>
    inferInstanceAs (Decidable (_ ∧ _))
  | maxSuggestions, .flag _ | maxSuggestionDistance, .flag _ | maxErrors, .flag _ =>
    inferInstanceAs (Decidable False)

lemma key_injective : Function.Injective key := by
  intro f g h
  cases f <;> cases g <;> first | rfl | simp [key] at h

lemma isBareKey_key (f : Field) : IsBareKey f.key := by
  cases f <;> simp [IsBareKey, key, isBareKeyChar, Char.isAlphanum, Char.isAlpha, Char.isLower]

lemma Fits.inRange {f : Field} {v : Value} (h : f.Fits v) : v.InRange := by
  cases v with
  | flag b => trivial
  | integer n =>
    have hn : 0 ≤ n ∧ n ≤ 2 ^ 63 - 1 := by cases f <;> first | exact h | exact h.elim
    exact ⟨by omega, hn.2⟩

end Field

/-- The value of a field. -/
def get (o : Options) : Field → Value
  | .maxSuggestions => .integer o.maxSuggestions
  | .maxSuggestionDistance => .integer o.maxSuggestionDistance
  | .maxErrors => .integer o.maxErrors
  | .validateSwitches => .flag o.validateSwitches

variable {o : Options} {f : Field} {v : Value}

/-- Setting a field to a value that fits changes that field only. -/
lemma set?_of_fits (o : Options) (h : f.Fits v) : ∃ o', o.set? f.key v = some o' ∧
    ∀ g, o'.get g = if g = f then v else o.get g := by
  cases v with
  | flag b =>
    cases f with
    | validateSwitches =>
      refine ⟨{ o with validateSwitches := b }, rfl, fun g => ?_⟩
      cases g <;> rfl
    | _ => exact h.elim
  | integer n =>
    have hn : 0 ≤ n := by cases f <;> first | exact h.1 | exact h.elim
    have hcast : ((n.toNat : Nat) : Int) = n := Int.toNat_of_nonneg hn
    cases f with
    | validateSwitches => exact h.elim
    | maxSuggestions =>
      refine ⟨{ o with maxSuggestions := n.toNat }, ?_, fun g => ?_⟩
      · simp [set?, Field.key, not_lt.mpr hn]
      · cases g <;> simp [get, hcast]
    | maxSuggestionDistance =>
      refine ⟨{ o with maxSuggestionDistance := n.toNat }, ?_, fun g => ?_⟩
      · simp [set?, Field.key, not_lt.mpr hn]
      · cases g <;> simp [get, hcast]
    | maxErrors =>
      refine ⟨{ o with maxErrors := n.toNat }, ?_, fun g => ?_⟩
      · simp [set?, Field.key, not_lt.mpr hn]
      · cases g <;> simp [get, hcast]

lemma set?_of_not_fits (o : Options) (hrange : v.InRange) (h : ¬ f.Fits v) :
    o.set? f.key v = none := by
  cases v with
  | flag b =>
    cases f with
    | validateSwitches => exact absurd trivial h
    | _ => rfl
  | integer n =>
    by_cases hn : n < 0
    · simp [set?, hn]
    · cases f with
      | validateSwitches => simp [set?, Field.key]
      | _ => exact absurd ⟨not_lt.mp hn, hrange.2⟩ h

lemma set?_unknown (o : Options) {k : String} (hk : ∀ f : Field, k ≠ f.key) (v : Value) :
    o.set? k v = none := by
  cases v with
  | flag b => exact if_neg (hk .validateSwitches)
  | integer n =>
    have hsuggestions : k ≠ "max_suggestions" := hk .maxSuggestions
    have hdistance : k ≠ "max_suggestion_distance" := hk .maxSuggestionDistance
    have herrors : k ≠ "max_errors" := hk .maxErrors
    rw [set?, if_neg hsuggestions, if_neg hdistance, if_neg herrors, ite_self]

/-! ### Settings -/

/-- Settings of fields, by their keys. -/
def keyed (ss : List (Field × Value)) : List (String × Value) := ss.map fun s => (s.1.key, s.2)

lemma nodup_keyed_iff {ss : List (Field × Value)} :
    ((keyed ss).map (·.1)).Nodup ↔ (ss.map (·.1)).Nodup := by
  have hkeys : (keyed ss).map (·.1) = (ss.map (·.1)).map Field.key := by
    simp [keyed, Function.comp_def]
  rw [hkeys, List.nodup_map_iff Field.key_injective]

/-- One setting that is refused refuses all. -/
lemma ofSettings?_of_refused {ss : List (String × Value)} {s : String × Value} (hs : s ∈ ss)
    (h : ∀ o : Options, o.set? s.1 s.2 = none) : ofSettings? ss = none := by
  have hfold : ∀ o : Options, ss.foldlM (fun o s => o.set? s.1 s.2) o = none := by
    induction ss with
    | nil => simp at hs
    | cons x xs ih =>
      intro o
      rw [List.foldlM_cons]
      rcases List.mem_cons.mp hs with rfl | hs
      · rw [h]
        rfl
      · cases o.set? x.1 x.2 with
        | none => rfl
        | some o' => exact ih hs o'
  rw [ofSettings?, hfold, ite_self]

lemma foldlM_of_fits {ss : List (Field × Value)} (hnodup : (ss.map (·.1)).Nodup)
    (hfits : ∀ s ∈ ss, s.1.Fits s.2) (o : Options) :
    ∃ o', (keyed ss).foldlM (fun o s => o.set? s.1 s.2) o = some o' ∧
      ∀ f, o'.get f = (ss.lookup f).getD (o.get f) := by
  induction ss generalizing o with
  | nil => exact ⟨o, rfl, fun f => rfl⟩
  | cons s ss ih =>
    obtain ⟨g, v⟩ := s
    obtain ⟨hg, hnodup⟩ := List.nodup_cons.mp hnodup
    obtain ⟨hfit, hfits⟩ := List.forall_mem_cons.mp hfits
    obtain ⟨o₁, hset, hget₁⟩ := set?_of_fits o hfit
    obtain ⟨o₂, hfold, hget₂⟩ := ih hnodup hfits o₁
    refine ⟨o₂, ?_, fun f => ?_⟩
    · simpa [keyed, hset] using hfold
    · rw [hget₂, hget₁, List.lookup_cons]
      by_cases hf : f = g
      · subst hf
        have hnone : ss.lookup f = none := by
          refine List.lookup_eq_none_iff.mpr fun x hx => ?_
          have hne : f ≠ x.1 := fun h => hg (List.mem_map.mpr ⟨x, hx, h.symm⟩)
          simpa using hne
        simp [hnone]
      · rw [if_neg hf, beq_false_of_ne hf]

lemma ofSettings?_keyed_eq_none {ss : List (Field × Value)} (hrange : ∀ s ∈ ss, s.2.InRange)
    (h : ¬ ((ss.map (·.1)).Nodup ∧ ∀ s ∈ ss, s.1.Fits s.2)) : ofSettings? (keyed ss) = none := by
  by_cases hnodup : (ss.map (·.1)).Nodup
  · obtain ⟨s, hs, hfit⟩ : ∃ s ∈ ss, ¬ s.1.Fits s.2 := by
      by_contra hall
      exact h ⟨hnodup, fun s hs => by_contra fun hfit => hall ⟨s, hs, hfit⟩⟩
    exact ofSettings?_of_refused (List.mem_map_of_mem hs) fun o =>
      set?_of_not_fits o (hrange s hs) hfit
  · rw [ofSettings?, if_neg (mt nodup_keyed_iff.mp hnodup)]

/-! ### Documents of settings -/

/-- A line that sets a key. -/
def settingLine (key value : String) : String := key ++ " = " ++ value

/-- A line that sets a field, or an empty line. -/
def lineText : Option (Field × Value) → String
  | none => ""
  | some (f, v) => settingLine f.key v.text

lemma toList_settingLine (key value : String) :
    (settingLine key value).toList = key.toList ++ ' ' :: '=' :: ' ' :: value.toList := by
  simp [settingLine]

lemma line?_settingLine (f : Field) (v : Value) : line? (settingLine f.key v.text).toList =
    if v.InRange then some (some (f.key, v)) else none := by
  have hchars : ∀ c ∈ v.text.toList, isBlank c = false ∧ c ≠ '#' := fun c hc =>
    have hbare := isBareKeyChar_of_mem_text hc
    ⟨isBlank_of_isBareKeyChar hbare, ne_of_isBareKeyChar hbare (by decide)⟩
  rw [toList_settingLine, line?_bare f.isBareKey_key, assigned?_eq hchars, value?_text]
  split <;> rfl

/-- Nothing in such a line ends it, and it does not begin with a mark. -/
lemma lineText_plain (x : Option (Field × Value)) :
    ('\n' ∉ (lineText x).toList ∧ '\r' ∉ (lineText x).toList) ∧
      (lineText x).toList.head? ≠ some '\uFEFF' := by
  have hchars : ∀ c ∈ (lineText x).toList, isBareKeyChar c = true ∨ c = ' ' ∨ c = '=' := by
    intro c hc
    cases x with
    | none => simp [lineText] at hc
    | some s =>
      rw [lineText, toList_settingLine] at hc
      simp only [List.mem_append, List.mem_cons] at hc
      rcases hc with hc | rfl | rfl | rfl | hc
      · exact .inl (s.1.isBareKey_key.2 c hc)
      · exact .inr (.inl rfl)
      · exact .inr (.inr rfl)
      · exact .inr (.inl rfl)
      · exact .inl (isBareKeyChar_of_mem_text hc)
  have hplain : ∀ d, isBareKeyChar d = false → d ≠ ' ' → d ≠ '=' → d ∉ (lineText x).toList :=
    fun d hd hspace hequals hmem => by
      rcases hchars d hmem with h | h | h
      · exact ne_of_isBareKeyChar h hd rfl
      · exact hspace h
      · exact hequals h
  refine ⟨⟨?_, ?_⟩, fun h => ?_⟩
  · exact hplain _ (by decide) (by decide) (by decide)
  · exact hplain _ (by decide) (by decide) (by decide)
  · exact hplain _ (by decide) (by decide) (by decide) (List.mem_of_head? h)

/-- The settings of a document are those of its lines, if all values are in range. -/
lemma all?_lineText (doc : List (Option (Field × Value))) :
    all? (document (doc.map lineText)) =
      if ∀ s ∈ doc.reduceOption, s.2.InRange then some (keyed doc.reduceOption) else none := by
  rw [all?_document (by simpa using fun x _ => (lineText_plain x).1)
    (by simpa using fun x _ => (lineText_plain x).2)]
  induction doc with
  | nil => rfl
  | cons x doc ih =>
    rw [List.map_cons, List.map_cons, List.mapM_cons]
    generalize (List.map String.toList (List.map lineText doc)).mapM line? = rest at ih
    cases x with
    | none =>
      have hline : line? (lineText none).toList = some none := rfl
      rw [hline, List.reduceOption_cons_of_none, ← ih]
      cases rest <;> rfl
    | some s =>
      rw [lineText, line?_settingLine, List.reduceOption_cons_of_some]
      simp only [List.forall_mem_cons]
      by_cases hv : s.2.InRange
      · by_cases hdoc : ∀ s ∈ doc.reduceOption, s.2.InRange
        · rw [if_pos hdoc] at ih
          obtain ⟨xs, rfl, hxs⟩ := Option.map_eq_some_iff.mp ih
          rw [if_pos hv, if_pos ⟨hv, hdoc⟩]
          exact congrArg (fun ss => some ((s.1.key, s.2) :: ss)) hxs
        · rw [if_neg hdoc] at ih
          rw [if_pos hv, if_neg fun h => hdoc h.2, Option.map_eq_none_iff.mp ih]
          rfl
      · rw [if_neg hv, if_neg fun h => hv h.1]
        rfl

lemma settingLine_plain {k v : String} (hk : IsBareKey k) (hv : '\n' ∉ v.toList) :
    '\n' ∉ (settingLine k v).toList ∧ (settingLine k v).toList.head? ≠ some '\uFEFF' := by
  obtain ⟨c, cs, hlist⟩ := List.exists_cons_of_ne_nil (mt String.toList_eq_nil_iff.mp hk.1)
  have hchars := hk.2
  have hkey : '\n' ∉ k.toList := fun h => ne_of_isBareKeyChar (hchars _ h) (by decide) rfl
  have hhead : c ≠ '\uFEFF' := ne_of_isBareKeyChar (hchars c (by simp [hlist])) (by decide)
  rw [toList_settingLine]
  refine ⟨?_, ?_⟩
  · simp [hkey, hv]
  · simpa [hlist] using hhead

/-- Every line of a document is read, up to a carriage return at its end. -/
lemma exists_mem_lines {k v : String} {ls : List String} (hmem : settingLine k v ∈ ls)
    (hfeed : ∀ l ∈ ls, '\n' ∉ l.toList) (hmark : ∀ l ∈ ls, l.toList.head? ≠ some '\uFEFF') :
    ∃ w, k.toList ++ ' ' :: '=' :: w ∈ lines (stripMark (document ls).toList) := by
  have hne : ls ≠ [] := List.ne_nil_of_mem hmem
  have hne' : ls.map String.toList ≠ [] := by simpa using hne
  have hmap : (settingLine k v).toList ∈ ls.map String.toList := List.mem_map_of_mem hmem
  rw [← List.dropLast_append_getLast hne', List.mem_append, List.mem_singleton,
    toList_settingLine] at hmap
  rw [lines_document hne hfeed hmark]
  rcases hmap with hmap | hmap
  · -- the carriage return can only be taken from the value
    obtain ⟨w, hw⟩ : ∃ w, stripReturn (k.toList ++ ' ' :: '=' :: ' ' :: v.toList) =
        k.toList ++ ' ' :: '=' :: w := by
      unfold stripReturn
      split
      · next hlast =>
        have hv : v.toList ≠ [] := fun hv => by simp [hv] at hlast
        refine ⟨' ' :: v.toList.dropLast, ?_⟩
        rw [List.dropLast_append_of_ne_nil (by simp)]
        simp [List.dropLast_cons_of_ne_nil hv]
      · exact ⟨_, rfl⟩
    exact ⟨w, List.mem_append_left _ (List.mem_map.mpr ⟨_, hmap, hw⟩)⟩
  · refine ⟨' ' :: v.toList, List.mem_append_right _ ?_⟩
    rw [List.getLast?_eq_some_getLast hne', ← hmap]
    simp

lemma exists_of_mapM {α β : Type} {f : α → Option β} {xs : List α} {ys : List β}
    (h : xs.mapM f = some ys) : ∀ x ∈ xs, ∃ y ∈ ys, f x = some y := by
  induction xs generalizing ys with
  | nil => simp
  | cons x xs ih =>
    rw [List.mapM_cons] at h
    obtain ⟨y, hy, h⟩ := Option.bind_eq_some_iff.mp h
    obtain ⟨ys', hys, h⟩ := Option.bind_eq_some_iff.mp h
    obtain rfl := Option.some.inj h
    intro z hz
    rcases List.mem_cons.mp hz with rfl | hz
    · exact ⟨y, by simp, hy⟩
    · obtain ⟨w, hw, hfz⟩ := ih hys z hz
      exact ⟨w, by simp [hw], hfz⟩

/-- A document in which a line sets an unknown key is refused. -/
lemma ofDocument_of_unknown {ls : List String} {k : String} {w : List Char} (hk : IsBareKey k)
    (hnew : ∀ f : Field, k ≠ f.key)
    (hmem : k.toList ++ ' ' :: '=' :: w ∈ lines (stripMark (document ls).toList)) :
    ofDocument (document ls) = .error .malformed := by
  have hnone : (all? (document ls)).bind ofSettings? = none := by
    cases hall : all? (document ls) with
    | none => rfl
    | some ss =>
      obtain ⟨xs, hxs, rfl⟩ := Option.map_eq_some_iff.mp hall
      obtain ⟨x, hx, hline⟩ := exists_of_mapM hxs _ hmem
      rw [line?_bare hk] at hline
      obtain ⟨value, -, rfl⟩ := Option.map_eq_some_iff.mp hline
      exact ofSettings?_of_refused (List.mem_filterMap.mpr ⟨_, hx, rfl⟩) fun o =>
        set?_unknown o hnew value
  rw [ofDocument, hnone]

/-- **Documents override defaults.** A document of lines that set fields, in any order and with
empty lines anywhere, is accepted if no field is set twice and every value fits its field: counts
from zero to `2 ^ 63 - 1`, and truth values for the flag. Each field then has the value that its
line says, or else its default. Any other document of such lines is refused, and so is one with a
line that sets an unknown key to anything. -/
theorem document_overrides_defaults :
    (∀ doc : List (Option (Field × Value)), (doc.reduceOption.map (·.1)).Nodup →
      (∀ s ∈ doc.reduceOption, s.1.Fits s.2) →
      ∃ o, ofDocument (document (doc.map lineText)) = .ok o ∧
        ∀ f, o.get f = (doc.reduceOption.lookup f).getD (get {} f)) ∧
    (∀ doc : List (Option (Field × Value)),
      ¬ ((doc.reduceOption.map (·.1)).Nodup ∧ ∀ s ∈ doc.reduceOption, s.1.Fits s.2) →
      ofDocument (document (doc.map lineText)) = .error .malformed) ∧
    ∀ (before after : List (Option (Field × Value))) (k v : String), IsBareKey k →
      (∀ f : Field, k ≠ f.key) → '\n' ∉ v.toList →
      ofDocument (document (before.map lineText ++ settingLine k v :: after.map lineText)) =
        .error .malformed := by
  refine ⟨fun doc hnodup hfits => ?_, fun doc h => ?_, fun before after k v hk hnew hv => ?_⟩
  · obtain ⟨o, hfold, hget⟩ := foldlM_of_fits hnodup hfits {}
    have hsettings : ofSettings? (keyed doc.reduceOption) = some o := by
      rw [ofSettings?, if_pos (nodup_keyed_iff.mpr hnodup), hfold]
    refine ⟨o, ?_, hget⟩
    rw [ofDocument, all?_lineText, if_pos fun s hs => (hfits s hs).inRange, Option.bind_some,
      hsettings]
  · rw [ofDocument, all?_lineText]
    by_cases hrange : ∀ s ∈ doc.reduceOption, s.2.InRange
    · rw [if_pos hrange, Option.bind_some, ofSettings?_keyed_eq_none hrange h]
    · rw [if_neg hrange, Option.bind_none]
  · set ls := before.map lineText ++ settingLine k v :: after.map lineText with hls
    have hplain : ∀ l ∈ ls, '\n' ∉ l.toList ∧ l.toList.head? ≠ some '\uFEFF' := by
      intro l hl
      have hfield : ∀ x, '\n' ∉ (lineText x).toList ∧ (lineText x).toList.head? ≠ some '\uFEFF' :=
        fun x => ⟨(lineText_plain x).1.1, (lineText_plain x).2⟩
      simp only [hls, List.mem_append, List.mem_cons, List.mem_map] at hl
      rcases hl with ⟨x, -, rfl⟩ | rfl | ⟨x, -, rfl⟩
      · exact hfield x
      · exact settingLine_plain hk hv
      · exact hfield x
    obtain ⟨w, hw⟩ := exists_mem_lines (k := k) (v := v) (by simp [hls])
      (fun l hl => (hplain l hl).1) fun l hl => (hplain l hl).2
    exact ofDocument_of_unknown hk hnew hw

/-- A flag and a count are set, and the last line ends in a line feed. -/
def lenient : List (Option (Field × Value)) :=
  [some (.validateSwitches, .flag false), some (.maxErrors, .integer 0), none]

theorem lenient_overrides_defaults :
    document (lenient.map lineText) = "validate_switches = false\nmax_errors = 0\n" ∧
    (∃ o, ofDocument (document (lenient.map lineText)) = .ok o ∧
      o.get .maxErrors = .integer 0 ∧ o.get .maxSuggestions = .integer 3) ∧
    ofDocument (document ([some (.maxErrors, .integer (2 ^ 63))].map lineText)) =
      .error .malformed ∧
    ofDocument (document (lenient.map lineText ++ settingLine "max_warnings" "5" ::
      [].map lineText)) = .error .malformed := by
  obtain ⟨haccepted, hrefused, hunknown⟩ := document_overrides_defaults
  obtain ⟨o, ho, hget⟩ := haccepted lenient (by decide) (by decide)
  have hbare : IsBareKey "max_warnings" := by
    simp [IsBareKey, isBareKeyChar, Char.isAlphanum, Char.isAlpha, Char.isLower]
  exact ⟨by decide, ⟨o, ho, hget .maxErrors, hget .maxSuggestions⟩, hrefused _ (by decide),
    hunknown lenient [] "max_warnings" "5" hbare (fun f => by cases f <;> decide) (by decide)⟩

end Options

end NameBinding
