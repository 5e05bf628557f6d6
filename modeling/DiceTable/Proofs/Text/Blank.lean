import DiceTable.Text.Blank
import Mathlib.Data.List.DropRight

/-!
# Trimmed texts, words and phrases

A text is trimmed if neither end of it is blank; these are the texts that trimming leaves as they
are.  Slashes may be cut off its end as well, and that may uncover a blank:

```text
x//        x          trimmed again
x/ /       x/ + blank
```

It does so exactly if the text ends in a blank, slashes and perhaps more blanks, and holds something
else before them (`BlankBeforeSlashes`).

Words hold no blank, and phrases are words with single blanks between them.  Both are trimmed, and a
phrase is cut into the words that it was made of (`words_intercalate`).
-/

namespace DiceTable.Text

/-! ## The ends of a text -/

section Tails

variable {p : Char → Bool} {cs tail : List Char} {c : Char}

theorem dropTail_append (htail : ∀ c ∈ tail, p c = true) :
    dropTail p (cs ++ tail) = dropTail p cs := by
  have hcut : ∀ c ∈ tail.reverse, p c = true := fun c hc => htail c (List.mem_reverse.mp hc)
  rw [dropTail, List.reverse_append, List.dropWhile_append_of_pos hcut, dropTail]

theorem exists_dropTail (p : Char → Bool) (cs : List Char) :
    ∃ cut, cs = dropTail p cs ++ cut ∧ ∀ c ∈ cut, p c = true :=
  ⟨cs.rtakeWhile p, List.rdropWhile_append_rtakeWhile.symm, fun _ => List.mem_rtakeWhile_imp⟩

theorem head?_of_dropTail (h : (dropTail p cs).head? = some c) : cs.head? = some c := by
  obtain ⟨cut, hcut, -⟩ := exists_dropTail p cs
  rw [hcut, List.head?_append, h]
  rfl

end Tails

/-- Neither end of the text is blank. -/
structure IsTrimmed (s : String) : Prop where
  head : ∀ c, s.toList.head? = some c → isBlank c = false
  last : ∀ c, s.toList.getLast? = some c → isBlank c = false

section Trim

variable {s : String} {blank : Char}

theorem IsTrimmed.head?_ne (h : IsTrimmed s) (hblank : isBlank blank = true) :
    s.toList.head? ≠ some blank := by
  intro hhead
  rw [h.head blank hhead] at hblank
  cases hblank

theorem IsTrimmed.getLast?_ne (h : IsTrimmed s) (hblank : isBlank blank = true) :
    s.toList.getLast? ≠ some blank := by
  intro hlast
  rw [h.last blank hlast] at hblank
  cases hblank

@[simp] theorem toList_trim (s : String) :
    (trim s).toList = dropTail isBlank (s.toList.dropWhile isBlank) := String.toList_ofList

@[simp] theorem toList_dropSlashes (s : String) :
    (dropSlashes s).toList = dropTail (· == '/') s.toList := String.toList_ofList

theorem isTrimmed_trim (s : String) : IsTrimmed (trim s) where
  head c hc := by
    rw [toList_trim] at hc
    have hnot := List.head?_dropWhile_not isBlank s.toList
    rwa [head?_of_dropTail hc] at hnot
  last c hc := by
    rw [toList_trim] at hc
    exact not_getLast?_dropTail hc

theorem trim_eq_self (h : IsTrimmed s) : trim s = s := by
  have hhead : s.toList.dropWhile isBlank = s.toList := by
    cases hs : s.toList with
    | nil => rfl
    | cons c cs =>
        have hc : isBlank c = false := h.head c (by rw [hs, List.head?_cons])
        simp [hc]
  have hkept : (trim s).toList = s.toList := by rw [toList_trim, hhead, dropTail_eq_self h.last]
  exact String.toList_injective hkept

/-- A text is what is left when it is trimmed, and blanks around that. -/
theorem exists_trim (s : String) : ∃ before after,
    s.toList = before ++ (trim s).toList ++ after ∧ ∀ c ∈ after, isBlank c = true := by
  obtain ⟨after, hafter, hblank⟩ := exists_dropTail isBlank (s.toList.dropWhile isBlank)
  refine ⟨s.toList.takeWhile isBlank, after, ?_, hblank⟩
  rw [toList_trim, List.append_assoc, ← hafter, List.takeWhile_append_dropWhile]

end Trim

/-! ## Slashes behind a trimmed text -/

/-- A text in four parts: something that is not all blank, a blank, slashes, and perhaps blanks. -/
structure SlashedParts (s : String) (front : List Char) (blank : Char)
    (slashes after : List Char) : Prop where
  toList_eq : s.toList = front ++ blank :: slashes ++ after
  front : ∃ c ∈ front, isBlank c = false
  blank : isBlank blank = true
  slashes_ne_nil : slashes ≠ []
  slashes : ∀ c ∈ slashes, c = '/'
  after : ∀ c ∈ after, isBlank c = true

/-- The text ends in a blank, slashes and perhaps more blanks, and what is before them is not all
blank. -/
def BlankBeforeSlashes (s : String) : Prop :=
  ∃ front blank slashes after, SlashedParts s front blank slashes after

section Slashes

variable {s : String}

theorem getLast?_dropSlashes_ne (s : String) : (dropSlashes s).toList.getLast? ≠ some '/' := by
  intro h
  rw [toList_dropSlashes] at h
  have hnot := not_getLast?_dropTail h
  simp at hnot

theorem dropSlashes_eq_self (h : s.toList.getLast? ≠ some '/') : dropSlashes s = s := by
  have hkept : (dropSlashes s).toList = s.toList := by
    rw [toList_dropSlashes]
    refine dropTail_eq_self fun c hc => ?_
    rw [beq_eq_false_iff_ne]
    rintro rfl
    exact h hc
  exact String.toList_injective hkept

/-- To cut slashes off does not uncover a blank at the beginning. -/
theorem head?_dropSlashes_trim {c : Char} (h : (dropSlashes (trim s)).toList.head? = some c) :
    isBlank c = false := by
  rw [toList_dropSlashes] at h
  exact (isTrimmed_trim s).head c (head?_of_dropTail h)

namespace SlashedParts

variable {front slashes after : List Char} {blank : Char}

/-- Trimming stops at the last slash. -/
theorem toList_trim (h : SlashedParts s front blank slashes after) :
    (trim s).toList = front.dropWhile isBlank ++ blank :: slashes := by
  have hsolid : ¬ (front.dropWhile isBlank).isEmpty = true := by
    obtain ⟨c, hc, hfree⟩ := h.front
    rw [List.isEmpty_iff, List.dropWhile_eq_nil_iff]
    intro hall
    simp [hall c hc] at hfree
  have hlead : s.toList.dropWhile isBlank =
      front.dropWhile isBlank ++ blank :: slashes ++ after := by
    rw [h.toList_eq, List.append_assoc, List.dropWhile_append, if_neg hsolid, List.append_assoc]
  rw [Text.toList_trim, hlead, dropTail_append h.after]
  refine dropTail_eq_self fun c hc => ?_
  rw [← List.singleton_append, ← List.append_assoc,
    List.getLast?_append_of_ne_nil _ h.slashes_ne_nil] at hc
  rw [h.slashes c (List.mem_of_getLast? hc)]
  rfl

/-- The slashes are cut off, and the blank before them stays. -/
theorem toList_dropSlashes_trim (h : SlashedParts s front blank slashes after) :
    (dropSlashes (trim s)).toList = front.dropWhile isBlank ++ [blank] := by
  have hcut : ∀ c ∈ slashes, (c == '/') = true := fun c hc => beq_iff_eq.mpr (h.slashes c hc)
  have hblank : blank ≠ '/' := by
    rintro rfl
    have hslash := h.blank
    simp [isBlank] at hslash
  rw [toList_dropSlashes, h.toList_trim, ← List.singleton_append, ← List.append_assoc,
    dropTail_append hcut]
  refine dropTail_eq_self fun c hc => ?_
  obtain rfl : blank = c := by simpa using hc
  exact beq_eq_false_iff_ne.mpr hblank

theorem length_lt (h : SlashedParts s front blank slashes after) :
    (dropSlashes (trim s)).length < s.length := by
  have hshorter : (front.dropWhile isBlank).length ≤ front.length :=
    (List.dropWhile_suffix isBlank).length_le
  have hslash : 0 < slashes.length := List.length_pos_iff.mpr h.slashes_ne_nil
  rw [← String.length_toList, ← String.length_toList, h.toList_dropSlashes_trim, h.toList_eq]
  simp only [List.length_append, List.length_cons, List.length_nil]
  omega

end SlashedParts

/-- A text whose slashes hide a blank gets shorter when they are cut off. -/
theorem BlankBeforeSlashes.length_lt (h : BlankBeforeSlashes s) :
    (dropSlashes (trim s)).length < s.length := by
  obtain ⟨_, _, _, _, hparts⟩ := h
  exact hparts.length_lt

/-- A blank that comes to stand at the end was before slashes. -/
theorem blankBeforeSlashes_of_last {blank : Char}
    (hlast : (dropSlashes (trim s)).toList.getLast? = some blank) (hblank : isBlank blank = true) :
    BlankBeforeSlashes s := by
  obtain ⟨front, hfront⟩ := List.getLast?_eq_some_iff.mp hlast
  obtain ⟨slashes, htrim, hslashes⟩ := exists_dropTail (· == '/') (trim s).toList
  obtain ⟨before, after, hs, hafter⟩ := exists_trim s
  rw [← toList_dropSlashes, hfront] at htrim
  refine ⟨before ++ front, blank, slashes, after, ?_, ?_, hblank, ?_,
    fun c hc => beq_iff_eq.mp (hslashes c hc), hafter⟩
  · rw [hs, htrim]
    simp
  · cases front with
    | nil => exact absurd (by simp [htrim]) ((isTrimmed_trim s).head?_ne hblank)
    | cons c front => exact ⟨c, by simp, (isTrimmed_trim s).head c (by simp [htrim])⟩
  · rintro rfl
    exact (isTrimmed_trim s).getLast?_ne hblank (by simp [htrim])

theorem isTrimmed_dropSlashes_trim_iff :
    IsTrimmed (dropSlashes (trim s)) ↔ ¬ BlankBeforeSlashes s := by
  constructor
  · rintro h ⟨front, blank, slashes, after, hparts⟩
    refine h.getLast?_ne hparts.blank ?_
    rw [hparts.toList_dropSlashes_trim, List.getLast?_concat]
  · refine fun h => ⟨fun c hc => head?_dropSlashes_trim hc, fun c hc => ?_⟩
    by_contra hblank
    exact h (blankBeforeSlashes_of_last hc (by simpa using hblank))

/-- Exactly the trimmed texts that do not end in a slash stay as they are. -/
theorem dropSlashes_trim_eq_self_iff :
    dropSlashes (trim s) = s ↔ IsTrimmed s ∧ s.toList.getLast? ≠ some '/' := by
  constructor
  · intro h
    have hlast := getLast?_dropSlashes_ne (trim s)
    rw [h] at hlast
    refine ⟨?_, hlast⟩
    rw [← h, isTrimmed_dropSlashes_trim_iff]
    intro hblank
    have hshorter := hblank.length_lt
    rw [h] at hshorter
    exact absurd hshorter (Nat.lt_irrefl _)
  · rintro ⟨htrimmed, hlast⟩
    rw [trim_eq_self htrimmed, dropSlashes_eq_self hlast]

end Slashes

/-! ## Words and phrases -/

/-- The text is a word: not empty, and no character of it is blank. -/
def IsWord (s : String) : Prop := s ≠ "" ∧ ∀ c ∈ s.toList, isBlank c = false

/-- The text is one word or several, with single blanks between them. -/
def IsPhrase (s : String) : Prop :=
  ∃ ws, ws ≠ [] ∧ (∀ w ∈ ws, IsWord w) ∧ String.intercalate " " ws = s

section Words

variable {s : String} {ws : List String}

instance (s : String) : Decidable (IsWord s) :=
  decidable_of_iff (s ≠ "" ∧ (s.toList.all fun c => !isBlank c) = true) (by simp [IsWord])

theorem IsWord.toList_ne_nil (h : IsWord s) : s.toList ≠ [] := fun hs =>
  h.1 (String.toList_eq_nil_iff.mp hs)

theorem IsWord.isPhrase (h : IsWord s) : IsPhrase s :=
  ⟨[s], List.cons_ne_nil _ _, List.forall_mem_singleton.mpr h, String.intercalate_singleton⟩

theorem toList_phrase_ne_nil (hne : ws ≠ []) (hws : ∀ w ∈ ws, IsWord w) :
    (String.intercalate " " ws).toList ≠ [] := by
  cases ws with
  | nil => exact absurd rfl hne
  | cons w ws =>
      have hw : w.toList ≠ [] := (List.forall_mem_cons.mp hws).1.toList_ne_nil
      cases ws <;> simp [hw]

/-- A phrase begins with its first word and ends with its last one. -/
theorem isTrimmed_phrase (hws : ∀ w ∈ ws, IsWord w) : IsTrimmed (String.intercalate " " ws) := by
  induction ws with
  | nil => exact ⟨by simp, by simp⟩
  | cons w ws ih =>
      obtain ⟨hw, hrest⟩ := List.forall_mem_cons.mp hws
      have hfree : ∀ c ∈ w.toList, isBlank c = false := hw.2
      by_cases hone : ws = []
      · rw [hone, String.intercalate_singleton]
        exact ⟨fun c hc => hfree c (List.mem_of_head? hc),
          fun c hc => hfree c (List.mem_of_getLast? hc)⟩
      · rw [String.intercalate_cons_of_ne_nil hone]
        refine ⟨fun c hc => ?_, fun c hc => ?_⟩
        · rw [String.toList_append, String.toList_append, List.append_assoc,
            List.head?_append_of_ne_nil _ hw.toList_ne_nil] at hc
          exact hfree c (List.mem_of_head? hc)
        · rw [String.toList_append,
            List.getLast?_append_of_ne_nil _ (toList_phrase_ne_nil hone hrest)] at hc
          exact (ih hrest).last c hc

theorem IsPhrase.ne_empty (h : IsPhrase s) : s ≠ "" := by
  obtain ⟨ws, hne, hws, rfl⟩ := h
  exact fun hempty => toList_phrase_ne_nil hne hws (String.toList_eq_nil_iff.mpr hempty)

theorem IsPhrase.trim_eq (h : IsPhrase s) : trim s = s := by
  obtain ⟨ws, -, hws, rfl⟩ := h
  exact trim_eq_self (isTrimmed_phrase hws)

/-- What is not blank belongs to the word that is being read. -/
theorem wordsAfter_append {word cs rest : List Char} (hcs : ∀ c ∈ cs, isBlank c = false) :
    wordsAfter word (cs ++ rest) = wordsAfter (cs.reverse ++ word) rest := by
  induction cs generalizing word with
  | nil => rfl
  | cons c cs ih =>
      obtain ⟨hc, hcs⟩ := List.forall_mem_cons.mp hcs
      rw [List.cons_append, wordsAfter, hc, if_neg Bool.false_ne_true, ih hcs]
      simp

/-- A phrase is cut into the words that it was made of. -/
theorem words_intercalate (hws : ∀ w ∈ ws, IsWord w) : words (String.intercalate " " ws) = ws := by
  induction ws with
  | nil => rfl
  | cons w ws ih =>
      obtain ⟨hw, hrest⟩ := List.forall_mem_cons.mp hws
      have hne : ¬ w.toList.reverse.isEmpty = true := by simp [hw.1]
      by_cases hone : ws = []
      · rw [hone, String.intercalate_singleton, words, ← List.append_nil w.toList,
          wordsAfter_append hw.2, List.append_nil, wordsAfter, if_neg hne]
        simp
      · have hcut : wordsAfter [] (String.intercalate " " (w :: ws)).toList =
            w.toList :: wordsAfter [] (String.intercalate " " ws).toList := by
          rw [String.intercalate_cons_of_ne_nil hone, String.toList_append, String.toList_append,
            List.append_assoc, wordsAfter_append hw.2, List.append_nil]
          show wordsAfter w.toList.reverse (' ' :: _) = _
          rw [wordsAfter, if_pos (by decide), if_neg hne, List.reverse_reverse]
          rfl
        rw [words, hcut, List.map_cons, String.ofList_toList]
        exact congrArg (w :: ·) (ih hrest)

end Words

end DiceTable.Text
