import DiceTable.Timestamp.Reader
import Mathlib.Algebra.Group.Nat.Defs
import Mathlib.Tactic.SplitIfs

/-!
# Timestamps are read back

An instant of the calendar is read back from its text (`ofText?_text`), and whatever is read from a
text is an instant of the calendar (`isValid_of_ofText?`).

Every field is written with a fixed number of digits, which is also the greatest number that is read
for it; only a year of more than four digits has to be ended by what follows, a minus sign.
-/

namespace DiceTable

/-- Calendar and clock have this instant.  A leap second may end any minute. -/
structure Timestamp.IsValid (t : Timestamp) : Prop where
  date : t.date.isValid = true
  hour : t.hour ≤ 23
  minute : t.minute ≤ 59
  second : t.second ≤ 60
  nanosecond : t.nanosecond < 1000000000

namespace Timestamp

open DiceTable.Text (isBlank isBlank_of_isDigit)

/-! ## Digits -/

theorem length_padded {width n : Nat} (hwidth : 0 < width) (h : n < 10 ^ width) :
    (padded width n).length = width := by
  have hlength := (Nat.length_toDigits_le_iff (by decide) hwidth).mpr h
  rw [padded, List.length_append, List.length_replicate]
  omega

theorem isDigit_of_mem_padded {width n : Nat} {c : Char} (h : c ∈ padded width n) :
    c.isDigit = true := by
  rcases List.mem_append.mp h with hzero | hdigit
  · rw [List.eq_of_mem_replicate hzero]
    rfl
  · exact Nat.isDigit_of_mem_toDigits (by decide) (by decide) hdigit

theorem ofDigitChars_padded (width n : Nat) : Nat.ofDigitChars 10 (padded width n) 0 = n := by
  rw [padded, Nat.ofDigitChars_append, Nat.ofDigitChars_replicate_zero, Nat.mul_zero,
    Nat.ofDigitChars_ten_toDigits]

theorem exists_padded_cons (width n : Nat) :
    ∃ c cs, padded width n = c :: cs ∧ c.isDigit = true := by
  have hne : padded width n ≠ [] := List.append_ne_nil_of_right_ne_nil _ Nat.toDigits_ne_nil
  obtain ⟨c, cs, hcons⟩ := List.exists_cons_of_ne_nil hne
  exact ⟨c, cs, hcons, isDigit_of_mem_padded (hcons ▸ List.mem_cons_self)⟩

/-- Digits are read up to the greatest number that is read, or up to what is no digit. -/
theorem number?_append {width : Nat} {digits rest : List Char}
    (hdigits : ∀ c ∈ digits, c.isDigit = true) (hne : digits ≠ []) (hwidth : digits.length ≤ width)
    (hend : digits.length = width ∨ ∀ c ∈ rest.head?, c.isDigit = false) :
    number? width (digits ++ rest) = some (Nat.ofDigitChars 10 digits 0, rest) := by
  have hrest : (rest.take (width - digits.length)).takeWhile Char.isDigit = [] := by
    rcases hend with heq | hhead
    · rw [heq, Nat.sub_self, List.take_zero, List.takeWhile_nil]
    · cases rest with
      | nil => rw [List.take_nil, List.takeWhile_nil]
      | cons c rest =>
          cases width - digits.length with
          | zero => rfl
          | succ more => exact List.takeWhile_cons_of_neg (by simp [hhead c rfl])
  have hread : ((digits ++ rest).take width).takeWhile Char.isDigit = digits := by
    rw [List.take_append, List.take_of_length_le hwidth, List.takeWhile_append_of_pos hdigits,
      hrest, List.append_nil]
  rw [number?, hread, List.drop_left]
  exact if_neg (by simpa using hne)

theorem number?_padded {width n : Nat} (hwidth : 0 < width) (h : n < 10 ^ width)
    (rest : List Char) : number? width (padded width n ++ rest) = some (n, rest) := by
  have hlength := length_padded hwidth h
  obtain ⟨c, cs, hcons, -⟩ := exists_padded_cons width n
  rw [number?_append (fun _ => isDigit_of_mem_padded) (hcons ▸ List.cons_ne_nil c cs)
    (Nat.le_of_eq hlength) (.inl hlength), ofDigitChars_padded]

/-! ## Fields -/

theorem skipBlanks_cons {c : Char} (h : isBlank c = false) (rest : List Char) :
    skipBlanks (c :: rest) = c :: rest := by
  rw [skipBlanks, List.dropWhile_cons_of_neg (by simp [h])]

theorem skipBlanks_padded (width n : Nat) (rest : List Char) :
    skipBlanks (padded width n ++ rest) = padded width n ++ rest := by
  obtain ⟨c, cs, hcons, hdigit⟩ := exists_padded_cons width n
  rw [hcons, List.cons_append, skipBlanks_cons (isBlank_of_isDigit hdigit)]

theorem field?_padded {low high n : Nat} (hlow : low ≤ n) (hhigh : n ≤ high) (hpair : high < 100)
    (rest : List Char) : field? low high (padded 2 n ++ rest) = some (n, rest) := by
  rw [field?, skipBlanks_padded, number?_padded (by decide) (by omega)]
  exact if_pos ⟨hlow, hhigh⟩

theorem separator?_cons {c : Char} (h : isBlank c = false) (rest : List Char) :
    separator? c (c :: rest) = some rest := by
  rw [separator?, skipBlanks_cons h]
  exact if_pos rfl

theorem year?_yearText (y : Int) (rest : List Char) :
    year? (yearText y ++ '-' :: rest) = some (y, '-' :: rest) := by
  unfold yearText
  split
  next hshort =>
    have hread : number? 4 (padded 4 y.toNat ++ '-' :: rest) = some (y.toNat, '-' :: rest) :=
      number?_padded (by decide) (by omega) _
    have hy : (y.toNat : Int) = y := by omega
    obtain ⟨c, cs, hcons, hdigit⟩ := exists_padded_cons 4 y.toNat
    rw [year?, skipBlanks_padded]
    rw [hcons, List.cons_append] at hread ⊢
    split
    next heq =>
      obtain ⟨rfl, -⟩ := List.cons.inj heq
      exact absurd hdigit (by decide)
    next heq =>
      obtain ⟨rfl, -⟩ := List.cons.inj heq
      exact absurd hdigit (by decide)
    next => simp only [hread, Option.map_some, hy]
  next hlong =>
    -- Behind the sign, the minus sign that parts year and month ends the digits.
    have hread : number? (padded 4 y.natAbs ++ '-' :: rest).length
        (padded 4 y.natAbs ++ '-' :: rest) = some (y.natAbs, '-' :: rest) := by
      obtain ⟨c, cs, hcons, -⟩ := exists_padded_cons 4 y.natAbs
      rw [number?_append (fun _ => isDigit_of_mem_padded) (hcons ▸ List.cons_ne_nil c cs)
        (by rw [List.length_append]; omega) (.inr ?_), ofDigitChars_padded]
      rintro d ⟨⟩
      rfl
    by_cases hneg : y < 0
    · have hy : -(y.natAbs : Int) = y := by omega
      rw [if_pos hneg, List.cons_append, year?, skipBlanks_cons rfl]
      simp only [hread, Option.map_some, hy]
    · have hy : (y.natAbs : Int) = y := by omega
      rw [if_neg hneg, List.cons_append, year?, skipBlanks_cons rfl]
      simp only [hread, Option.map_some, hy]

/-! ## The fraction of a second -/

/-- A fraction is read from its digits and as many zeros as are missing to nine. -/
theorem fraction?_padded {width missing n : Nat} (hwidth : 0 < width) (hnine : width + missing = 9)
    (h : n < 10 ^ width) :
    fraction? ('.' :: padded width n ++ ['Z']) = some (10 ^ missing * n, ['Z']) := by
  have hlength := length_padded hwidth h
  obtain ⟨c, cs, hcons, -⟩ := exists_padded_cons width n
  have hread : (padded width n ++ ['Z']).takeWhile Char.isDigit = padded width n := by
    rw [List.takeWhile_append_of_pos fun _ => isDigit_of_mem_padded,
      List.takeWhile_cons_of_neg (by decide), List.append_nil]
  have hzeros : (padded width n ++ List.replicate 9 '0').take 9 =
      padded width n ++ List.replicate missing '0' := by
    rw [List.take_append, List.take_of_length_le (by omega), hlength, List.take_replicate]
    congr 2
    omega
  have hvalue : Nat.ofDigitChars 10 (padded width n ++ List.replicate missing '0') 0 =
      10 ^ missing * n := by
    rw [Nat.ofDigitChars_append, ofDigitChars_padded, Nat.ofDigitChars_replicate_zero]
  rw [List.cons_append, fraction?]
  simp only [hread, hzeros, hvalue, List.drop_left]
  exact if_neg (by simp [hcons])

theorem fraction?_fractionText {nano : Nat} (h : nano < 1000000000) :
    fraction? (fractionText nano ++ ['Z']) = some (nano, ['Z']) := by
  unfold fractionText
  split_ifs with hzero hmillis hmicros
  · subst hzero
    rfl
  · rw [fraction?_padded (by decide) (show 3 + 6 = 9 from rfl) (by omega)]
    congr 2
    omega
  · rw [fraction?_padded (by decide) (show 6 + 3 = 9 from rfl) (by omega)]
    congr 2
    omega
  · rw [fraction?_padded (by decide) (show 9 + 0 = 9 from rfl) (by omega), Nat.pow_zero,
      Nat.one_mul]

/-! ## Instants -/

theorem ofLocal?_zero {t : Timestamp} (h : t.IsValid) : ofLocal? t 0 = some t := by
  have hhour := h.hour
  have hminute := h.minute
  have hday : ((t.hour * 60 + t.minute : Nat) - 0 : Int) / 1440 = 0 := by omega
  have hofDay : (((t.hour * 60 + t.minute : Nat) - 0 : Int) % 1440).toNat =
      t.hour * 60 + t.minute := by omega
  have hhours : (t.hour * 60 + t.minute) / 60 = t.hour := by omega
  have hminutes : (t.hour * 60 + t.minute) % 60 = t.minute := by omega
  simp only [ofLocal?, hday, hofDay, hhours, hminutes]
  rfl

theorem bounds_of_isValid {d : Day} (h : d.isValid = true) :
    1 ≤ d.month ∧ d.month ≤ 12 ∧ 1 ≤ d.day ∧ d.day ≤ 31 := by
  simp only [Day.isValid, Bool.and_eq_true, decide_eq_true_eq] at h
  obtain ⟨⟨-, hfirst⟩, hlast⟩ := h
  unfold Day.daysInMonth at hlast
  split at hlast
  all_goals first | omega | (split at hlast <;> omega)

/-- An instant is read back from its text. -/
theorem ofText?_text {t : Timestamp} (h : t.IsValid) : ofText? t.text = some t := by
  obtain ⟨hmonth, hlastMonth, hday, hlastDay⟩ := bounds_of_isValid h.date
  have hdash : isBlank '-' = false := rfl
  have hcolon : isBlank ':' = false := rfl
  rw [ofText?, text, String.toList_ofList, chars, clockChars]
  simp only [List.append_assoc, List.cons_append]
  -- One step for each field and separator, from the year to the offset.
  refine Option.bind_eq_some_iff.mpr ⟨_, year?_yearText t.date.year _, ?_⟩
  refine Option.bind_eq_some_iff.mpr ⟨_, separator?_cons hdash _, ?_⟩
  refine Option.bind_eq_some_iff.mpr ⟨_, field?_padded hmonth hlastMonth (by decide) _, ?_⟩
  refine Option.bind_eq_some_iff.mpr ⟨_, separator?_cons hdash _, ?_⟩
  refine Option.bind_eq_some_iff.mpr ⟨_, field?_padded hday hlastDay (by decide) _, ?_⟩
  refine Option.bind_eq_some_iff.mpr ⟨_, rfl, ?_⟩
  refine Option.bind_eq_some_iff.mpr ⟨_, field?_padded (Nat.zero_le _) h.hour (by decide) _, ?_⟩
  refine Option.bind_eq_some_iff.mpr ⟨_, separator?_cons hcolon _, ?_⟩
  refine Option.bind_eq_some_iff.mpr ⟨_, field?_padded (Nat.zero_le _) h.minute (by decide) _, ?_⟩
  refine Option.bind_eq_some_iff.mpr ⟨_, separator?_cons hcolon _, ?_⟩
  refine Option.bind_eq_some_iff.mpr ⟨_, field?_padded (Nat.zero_le _) h.second (by decide) _, ?_⟩
  refine Option.bind_eq_some_iff.mpr ⟨_, fraction?_fractionText h.nanosecond, ?_⟩
  refine Option.bind_eq_some_iff.mpr ⟨(0, []), rfl, ?_⟩
  show (if (t.date.isValid && true) = true then ofLocal? t 0 else none) = some t
  rw [h.date, Bool.and_self, if_pos rfl, ofLocal?_zero h]

/-! ## What is read is valid -/

theorem isValid_of_shift? {d e : Day} {days : Int} (hd : d.isValid = true)
    (h : d.shift? days = some e) : e.isValid = true := by
  unfold Day.shift? at h
  split_ifs at h
  · cases h
    exact hd
  · obtain ⟨hvalid, heq⟩ := Option.ite_none_right_eq_some.mp h
    cases heq
    exact hvalid
  · obtain ⟨hvalid, heq⟩ := Option.ite_none_right_eq_some.mp h
    cases heq
    exact hvalid

theorem isValid_of_ofLocal? {t u : Timestamp} {offset : Int} (ht : t.IsValid)
    (h : ofLocal? t offset = some u) : u.IsValid := by
  obtain ⟨date, hdate, heq⟩ := Option.bind_eq_some_iff.mp h
  cases heq
  refine ⟨isValid_of_shift? ht.date hdate, ?_, ?_, ht.second, ht.nanosecond⟩
  · show _ / 60 ≤ 23
    omega
  · show _ % 60 ≤ 59
    omega

theorem bounds_of_field? {low high n : Nat} {cs rest : List Char}
    (h : field? low high cs = some (n, rest)) : low ≤ n ∧ n ≤ high := by
  unfold field? at h
  obtain ⟨⟨m, after⟩, -, h⟩ := Option.bind_eq_some_iff.mp h
  obtain ⟨hbounds, heq⟩ := Option.ite_none_right_eq_some.mp h
  cases heq
  exact hbounds

theorem ofDigitChars_lt {cs : List Char} (h : ∀ c ∈ cs, c.isDigit = true) (init : Nat) :
    Nat.ofDigitChars 10 cs init < 10 ^ cs.length * (init + 1) := by
  induction cs generalizing init with
  | nil => simp
  | cons c cs ih =>
      have hdigit : c.toNat - '0'.toNat < 10 := by
        have hhigh : c.toNat ≤ 57 := (Char.isDigit_iff_toNat.mp (h c List.mem_cons_self)).2
        show c.toNat - 48 < 10
        omega
      calc Nat.ofDigitChars 10 (c :: cs) init
          = Nat.ofDigitChars 10 cs (10 * init + (c.toNat - '0'.toNat)) := Nat.ofDigitChars_cons
        _ < 10 ^ cs.length * (10 * init + (c.toNat - '0'.toNat) + 1) :=
            ih (fun d hd => h d (List.mem_cons_of_mem c hd)) _
        _ ≤ 10 ^ cs.length * (10 * (init + 1)) := Nat.mul_le_mul_left _ (by omega)
        _ = 10 ^ (c :: cs).length * (init + 1) := by
            rw [List.length_cons, Nat.pow_succ, Nat.mul_assoc]

theorem lt_of_fraction? {n : Nat} {cs rest : List Char} (h : fraction? cs = some (n, rest)) :
    n < 1000000000 := by
  unfold fraction? at h
  split at h
  next after =>
    obtain ⟨-, heq⟩ := Option.ite_none_left_eq_some.mp h
    cases heq
    have hdigits : ∀ c ∈ (after.takeWhile Char.isDigit ++ List.replicate 9 '0').take 9,
        c.isDigit = true := by
      intro c hc
      rcases List.mem_append.mp (List.mem_of_mem_take hc) with hread | hzero
      · exact List.all_eq_true.mp List.all_takeWhile c hread
      · rw [List.eq_of_mem_replicate hzero]
        rfl
    refine Nat.lt_of_lt_of_eq (ofDigitChars_lt hdigits 0) ?_
    have hlength : ((after.takeWhile Char.isDigit ++ List.replicate 9 '0').take 9).length = 9 := by
      rw [List.length_take, List.length_append, List.length_replicate]
      omega
    rw [hlength]
    decide
  next =>
    cases h
    decide

/-- A text is read as an instant of the calendar. -/
theorem isValid_of_ofText? {s : String} {t : Timestamp} (h : ofText? s = some t) : t.IsValid := by
  obtain ⟨⟨year, _⟩, -, h⟩ := Option.bind_eq_some_iff.mp h
  obtain ⟨_, -, h⟩ := Option.bind_eq_some_iff.mp h
  obtain ⟨⟨month, _⟩, -, h⟩ := Option.bind_eq_some_iff.mp h
  obtain ⟨_, -, h⟩ := Option.bind_eq_some_iff.mp h
  obtain ⟨⟨day, _⟩, -, h⟩ := Option.bind_eq_some_iff.mp h
  obtain ⟨_, -, h⟩ := Option.bind_eq_some_iff.mp h
  obtain ⟨⟨hour, _⟩, hhour, h⟩ := Option.bind_eq_some_iff.mp h
  obtain ⟨_, -, h⟩ := Option.bind_eq_some_iff.mp h
  obtain ⟨⟨minute, _⟩, hminute, h⟩ := Option.bind_eq_some_iff.mp h
  obtain ⟨_, -, h⟩ := Option.bind_eq_some_iff.mp h
  obtain ⟨⟨second, _⟩, hsecond, h⟩ := Option.bind_eq_some_iff.mp h
  obtain ⟨⟨nano, _⟩, hnano, h⟩ := Option.bind_eq_some_iff.mp h
  obtain ⟨⟨offset, rest⟩, -, h⟩ := Option.bind_eq_some_iff.mp h
  obtain ⟨hvalid, hlocal⟩ := Option.ite_none_right_eq_some.mp h
  obtain ⟨hdate, -⟩ := Bool.and_eq_true_iff.mp hvalid
  refine isValid_of_ofLocal? ?_ hlocal
  exact ⟨hdate, (bounds_of_field? hhour).2, (bounds_of_field? hminute).2,
    (bounds_of_field? hsecond).2, lt_of_fraction? hnano⟩

end Timestamp

end DiceTable
