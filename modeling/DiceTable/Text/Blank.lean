/-!
# Blanks, trimming and words

A *blank* is a character with the Unicode property `White_Space`.  A zero-width space, a byte
order mark and the separators `U+001C` to `U+001F` are not blank.  Text is trimmed of blanks at
both ends and cut into words at runs of them.
-/

namespace DiceTable.Text

/-- Whether `c` has the Unicode property `White_Space`. -/
def isBlank (c : Char) : Bool :=
  let n := c.toNat
  (0x09 ≤ n && n ≤ 0x0D) || n == 0x20 || n == 0x85 || n == 0xA0 || n == 0x1680 ||
    (0x2000 ≤ n && n ≤ 0x200A) || n == 0x2028 || n == 0x2029 || n == 0x202F || n == 0x205F ||
    n == 0x3000

/-- Every character that the core library calls white space is blank. -/
theorem isBlank_of_isWhitespace {c : Char} (h : c.isWhitespace = true) : isBlank c = true := by
  simp only [Char.isWhitespace, Bool.or_eq_true, decide_eq_true_eq] at h
  rcases h with ((rfl | rfl) | rfl) | rfl <;> rfl

theorem isBlank_of_isDigit {c : Char} (h : c.isDigit = true) : isBlank c = false := by
  have hlow : 48 ≤ c.toNat := (Char.isDigit_iff_toNat.mp h).1
  have hhigh : c.toNat ≤ 57 := (Char.isDigit_iff_toNat.mp h).2
  simp only [isBlank, Bool.or_eq_false_iff, Bool.and_eq_false_iff, decide_eq_false_iff_not,
    beq_eq_false_iff_ne]
  omega

/-- The characters without the longest run of `p` at the end. -/
def dropTail (p : Char → Bool) (cs : List Char) : List Char :=
  (cs.reverse.dropWhile p).reverse

/-- What is left does not end in a character that would be cut. -/
theorem not_getLast?_dropTail {p : Char → Bool} {cs : List Char} {c : Char}
    (h : (dropTail p cs).getLast? = some c) : p c = false := by
  have hhead : (cs.reverse.dropWhile p).head? = some c := by
    simpa [dropTail, List.getLast?_reverse] using h
  simpa [hhead] using List.head?_dropWhile_not p cs.reverse

/-- Nothing is cut from characters that do not end in one that would be cut. -/
theorem dropTail_eq_self {p : Char → Bool} {cs : List Char}
    (h : ∀ c, cs.getLast? = some c → p c = false) : dropTail p cs = cs := by
  have hkeep : cs.reverse.dropWhile p = cs.reverse := by
    cases hr : cs.reverse with
    | nil => rfl
    | cons c rest =>
      have hc : p c = false := h c (by rw [← List.head?_reverse, hr, List.head?_cons])
      simp [hc]
  simp [dropTail, hkeep]

/-- The characters without the blanks at both ends. -/
def trimBlanks (cs : List Char) : List Char :=
  dropTail isBlank (cs.dropWhile isBlank)

/-- The text without the blanks at both ends. -/
def trim (s : String) : String := String.ofList (trimBlanks s.toList)

/-- The text without the slashes at its end. -/
def dropSlashes (s : String) : String := String.ofList (dropTail (· == '/') s.toList)

/-- Whether the text holds nothing but blanks. -/
def allBlank (s : String) : Bool := s.toList.all isBlank

/-- The words of `cs`, when the characters `word` have just been read and belong to one word. -/
def wordsAfter (word : List Char) : List Char → List (List Char)
  | [] => if word.isEmpty then [] else [word.reverse]
  | c :: cs =>
    if isBlank c then
      if word.isEmpty then wordsAfter [] cs else word.reverse :: wordsAfter [] cs
    else wordsAfter (c :: word) cs

/-- The maximal runs of characters that are not blank, in order. -/
def words (s : String) : List String := (wordsAfter [] s.toList).map String.ofList

private theorem word_of_mem_wordsAfter {word cs w : List Char}
    (hword : ∀ c ∈ word, isBlank c = false) (h : w ∈ wordsAfter word cs) :
    w ≠ [] ∧ ∀ c ∈ w, isBlank c = false := by
  induction cs generalizing word with
  | nil =>
    cases word with
    | nil => simp [wordsAfter] at h
    | cons d word =>
      obtain rfl : w = (d :: word).reverse := by simpa [wordsAfter] using h
      exact ⟨by simp, fun c hc => hword c (List.mem_reverse.mp hc)⟩
  | cons c cs ih =>
    rw [wordsAfter] at h
    split at h
    · split at h
      · exact ih (by simp) h
      · rename_i hsome
        rcases List.mem_cons.mp h with rfl | h
        · refine ⟨fun hnil => hsome ?_, fun c hc => hword c (List.mem_reverse.mp hc)⟩
          simpa using hnil
        · exact ih (by simp) h
    · rename_i hc
      refine ih (fun d hd => ?_) h
      rcases List.mem_cons.mp hd with rfl | hd
      · simpa using hc
      · exact hword d hd

/-- A word is not empty, and no character of it is blank. -/
theorem word_of_mem_words {s w : String} (h : w ∈ words s) :
    w ≠ "" ∧ ∀ c ∈ w.toList, isBlank c = false := by
  obtain ⟨cs, hcs, rfl⟩ := List.mem_map.mp h
  obtain ⟨hne, hfree⟩ := word_of_mem_wordsAfter (by simp) hcs
  refine ⟨fun hempty => hne ?_, by simpa using hfree⟩
  simpa using congrArg String.toList hempty

end DiceTable.Text
