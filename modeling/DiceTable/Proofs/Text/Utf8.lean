import DiceTable.Text.Utf8

/-!
# Reading UTF-8

The octets of a text are read as its characters (`symbols_encode`).  A character beyond `U+007F` has
a leading octet, which states the range of the octet behind it, and one to three more octets, from
which the bits of the code point are put together again (`exists_lead`).

In the other direction, the ranges are narrow enough that octets put together to a character are the
octets of this character (`utf8EncodeChar_of_lead?`), so that nothing else is well formed throughout
(`decode?_eq_some_iff`).
-/

namespace DiceTable.Text.Utf8

/-! ## What was written is read -/

/-- One more octet, of those with six bits of the code point. -/
theorem continue?_cons {more low high bits six : Nat} {rest : List UInt8} (hsix : six < 64)
    (hlow : low ≤ six + 128) (hhigh : six + 128 ≤ high) :
    continue? (more + 1) low high bits (UInt8.ofNat (six + 128) :: rest) =
      continue? more 0x80 0xBF (bits * 64 + six) rest := by
  have hoctet : (UInt8.ofNat (six + 128)).toNat = six + 128 := by
    rw [UInt8.toNat_ofNat']
    omega
  rw [continue?, hoctet, if_pos ⟨hlow, hhigh⟩, Nat.add_sub_cancel]

theorem lead?_two {five : Nat} (hlow : 2 ≤ five) (hhigh : five < 32) :
    lead? (five + 192) = some ⟨1, 0x80, 0xBF, five⟩ := by
  rw [lead?, if_pos (by omega), Nat.add_sub_cancel]

/-- The leading octet of three keeps out what fits in two octets, and the surrogates. -/
theorem lead?_three {four : Nat} (h : four < 16) :
    lead? (four + 224) =
      some ⟨2, if four = 0 then 0xA0 else 0x80, if four = 13 then 0x9F else 0xBF, four⟩ := by
  simp only [lead?]
  rcases Nat.lt_or_ge 0 four with hpos | hzero
  · by_cases hthirteen : four = 13
    · subst hthirteen
      rfl
    · rw [if_neg (by omega), if_neg (by omega), if_neg (by omega), if_pos (by omega),
        if_neg (by omega), if_neg hthirteen, Nat.add_sub_cancel]
  · obtain rfl : four = 0 := Nat.le_zero.mp hzero
    rfl

/-- The leading octet of four keeps out what fits in three octets, and what is no code point. -/
theorem lead?_four {three : Nat} (h : three < 5) :
    lead? (three + 240) =
      some ⟨3, if three = 0 then 0x90 else 0x80, if three = 4 then 0x8F else 0xBF, three⟩ := by
  match three, h with
  | 0, _ => rfl
  | 1, _ => rfl
  | 2, _ => rfl
  | 3, _ => rfl
  | 4, _ => rfl

/-- The octets of a character beyond the first 128 are a leading octet and as many more as it
says. -/
theorem exists_lead {c : Char} (h : 0x80 ≤ c.toNat) (rest : List UInt8) :
    ∃ octet more lead, String.utf8EncodeChar c = octet :: more ∧ 0x80 ≤ octet.toNat ∧
      lead? octet.toNat = some lead ∧ lead.more = more.length ∧
      continue? lead.more lead.low lead.high lead.bits (more ++ rest) = some c.toNat := by
  have hvalid : c.toNat < 0xD800 ∨ 0xDFFF < c.toNat ∧ c.toNat < 0x110000 := c.valid
  have hvalue : c.val.toNat = c.toNat := rfl
  generalize c.toNat = n at *
  rw [String.utf8EncodeChar.eq_1, hvalue, if_neg (by omega)]
  split
  next hsmall =>
    have hoctet : (UInt8.ofNat (n / 64 % 32 + 192)).toNat = n / 64 % 32 + 192 := by
      rw [UInt8.toNat_ofNat']
      omega
    refine ⟨_, _, _, rfl, by omega, by rw [hoctet, lead?_two (by omega) (by omega)], rfl, ?_⟩
    simp only [List.cons_append, List.nil_append]
    rw [continue?_cons (by omega) (by omega) (by omega), continue?]
    congr 1
    omega
  next =>
    split
    next hmiddle =>
      have hoctet : (UInt8.ofNat (n / 4096 % 16 + 224)).toNat = n / 4096 % 16 + 224 := by
        rw [UInt8.toNat_ofNat']
        omega
      refine ⟨_, _, _, rfl, by omega, by rw [hoctet, lead?_three (by omega)], rfl, ?_⟩
      simp only [List.cons_append, List.nil_append]
      rw [continue?_cons (by omega) (by split <;> omega) (by split <;> omega),
        continue?_cons (by omega) (by omega) (by omega), continue?]
      congr 1
      omega
    next =>
      have hoctet : (UInt8.ofNat (n / 262144 % 8 + 240)).toNat = n / 262144 % 8 + 240 := by
        rw [UInt8.toNat_ofNat']
        omega
      refine ⟨_, _, _, rfl, by omega, by rw [hoctet, lead?_four (by omega)], rfl, ?_⟩
      simp only [List.cons_append, List.nil_append]
      rw [continue?_cons (by omega) (by split <;> omega) (by split <;> omega),
        continue?_cons (by omega) (by omega) (by omega),
        continue?_cons (by omega) (by omega) (by omega), continue?]
      congr 1
      omega

theorem symbolsAfter_append (taken rest : List UInt8) :
    symbolsAfter taken.length (taken ++ rest) = symbolsAfter 0 rest := by
  induction taken with
  | nil => rfl
  | cons octet taken ih => exact ih

/-- A character is read from its octets, and the others are left. -/
theorem symbols_utf8EncodeChar_append (c : Char) (rest : List UInt8) :
    symbols (String.utf8EncodeChar c ++ rest) = some c :: symbols rest := by
  by_cases h : c.toNat < 0x80
  · have hvalue : c.val.toNat = c.toNat := rfl
    have hoctet : (UInt8.ofNat c.toNat).toNat = c.toNat := by
      rw [UInt8.toNat_ofNat']
      omega
    rw [String.utf8EncodeChar.eq_1, hvalue, if_pos (by omega), List.singleton_append, symbols,
      symbolsAfter, head, hoctet, if_pos h, Char.ofNat_toNat]
    rfl
  · obtain ⟨octet, more, lead, hoctets, hlarge, hlead, hmore, hpoint⟩ :=
      exists_lead (Nat.not_lt.mp h) rest
    have hhead : head octet (more ++ rest) = (some c, more.length) := by
      rw [head, if_neg (by omega), hlead]
      simp only [hpoint, hmore.symm, Char.ofNat_toNat]
    rw [hoctets, List.cons_append, symbols, symbolsAfter, hhead, symbolsAfter_append]
    rfl

/-- The octets of a text are read as its characters. -/
theorem symbols_encode (cs : List Char) : symbols (encode cs) = cs.map some := by
  induction cs with
  | nil => rfl
  | cons c cs ih =>
      rw [encode, List.flatMap_cons, symbols_utf8EncodeChar_append, List.map_cons]
      exact congrArg (some c :: ·) ih

/-! ## What is read was written -/

/-- What a leading octet says.  It states a range of its own for the next octet where another
sequence would be shorter, or the code point a surrogate or too large. -/
theorem lead?_eq_some {b : Nat} {l : Lead} (h : lead? b = some l) :
    0x80 ≤ l.low ∧ l.high ≤ 0xBF ∧
      (l.more = 1 ∧ 0xC2 ≤ b ∧ b ≤ 0xDF ∧ l.bits = b - 0xC0 ∨
        l.more = 2 ∧ 0xE0 ≤ b ∧ b ≤ 0xEF ∧ l.bits = b - 0xE0 ∧ (b = 0xE0 → l.low = 0xA0) ∧
          (b = 0xED → l.high = 0x9F) ∨
        l.more = 3 ∧ 0xF0 ≤ b ∧ b ≤ 0xF4 ∧ l.bits = b - 0xF0 ∧ (b = 0xF0 → l.low = 0x90) ∧
          (b = 0xF4 → l.high = 0x8F)) := by
  rw [lead?] at h
  repeat' split at h
  all_goals
    cases h
    try (dsimp only; omega)

/-- One more octet, and the six bits that it carries. -/
theorem exists_of_continue? {more low high bits point : Nat} {rest : List UInt8}
    (h : continue? (more + 1) low high bits rest = some point) :
    ∃ octet left, rest = octet :: left ∧ low ≤ octet.toNat ∧ octet.toNat ≤ high ∧
      continue? more 0x80 0xBF (bits * 64 + (octet.toNat - 0x80)) left = some point := by
  cases rest with
  | nil => cases h
  | cons octet left =>
      rw [continue?] at h
      split at h
      next hrange => exact ⟨octet, left, rfl, hrange.1, hrange.2, h⟩
      next => cases h

theorem toNat_val_ofNat {n : Nat} (h : n < 0xD800 ∨ 0xDFFF < n ∧ n < 0x110000) :
    (Char.ofNat n).val.toNat = n := by
  have hvalid : n.isValidChar := h
  rw [Char.ofNat, dif_pos hvalid]
  rfl

theorem ofNat_eq_of_eq_toNat (octet : UInt8) {n : Nat} (h : n = octet.toNat) :
    UInt8.ofNat n = octet := by
  rw [h, UInt8.ofNat_toNat]

/-- A sequence of several octets is that of the character that it is read as. -/
theorem utf8EncodeChar_of_lead? {octet : UInt8} {rest : List UInt8} {l : Lead} {point : Nat}
    (hlead : lead? octet.toNat = some l)
    (hpoint : continue? l.more l.low l.high l.bits rest = some point) :
    ∃ more left, rest = more ++ left ∧
      String.utf8EncodeChar (Char.ofNat point) = octet :: more := by
  obtain ⟨hlow, hhigh, htwo | hthree | hfour⟩ := lead?_eq_some hlead
  · obtain ⟨hmore, hfrom, hto, hbits⟩ := htwo
    rw [hmore] at hpoint
    obtain ⟨second, left, rfl, hsecond, hsecond', hpoint⟩ := exists_of_continue? hpoint
    rw [continue?, Option.some.injEq] at hpoint
    refine ⟨[second], left, rfl, ?_⟩
    rw [String.utf8EncodeChar.eq_1, toNat_val_ofNat (by omega), if_neg (by omega),
      if_pos (by omega), ofNat_eq_of_eq_toNat octet (by omega),
      ofNat_eq_of_eq_toNat second (by omega)]
  · obtain ⟨hmore, hfrom, hto, hbits, hshort, hsurrogate⟩ := hthree
    rw [hmore] at hpoint
    obtain ⟨second, left, rfl, hsecond, hsecond', hpoint⟩ := exists_of_continue? hpoint
    obtain ⟨third, left, rfl, hthird, hthird', hpoint⟩ := exists_of_continue? hpoint
    rw [continue?, Option.some.injEq] at hpoint
    refine ⟨[second, third], left, rfl, ?_⟩
    rw [String.utf8EncodeChar.eq_1, toNat_val_ofNat (by omega), if_neg (by omega),
      if_neg (by omega), if_pos (by omega), ofNat_eq_of_eq_toNat octet (by omega),
      ofNat_eq_of_eq_toNat second (by omega), ofNat_eq_of_eq_toNat third (by omega)]
  · obtain ⟨hmore, hfrom, hto, hbits, hshort, hlarge⟩ := hfour
    rw [hmore] at hpoint
    obtain ⟨second, left, rfl, hsecond, hsecond', hpoint⟩ := exists_of_continue? hpoint
    obtain ⟨third, left, rfl, hthird, hthird', hpoint⟩ := exists_of_continue? hpoint
    obtain ⟨fourth, left, rfl, hfourth, hfourth', hpoint⟩ := exists_of_continue? hpoint
    rw [continue?, Option.some.injEq] at hpoint
    refine ⟨[second, third, fourth], left, rfl, ?_⟩
    rw [String.utf8EncodeChar.eq_1, toNat_val_ofNat (by omega), if_neg (by omega),
      if_neg (by omega), if_neg (by omega), ofNat_eq_of_eq_toNat octet (by omega),
      ofNat_eq_of_eq_toNat second (by omega), ofNat_eq_of_eq_toNat third (by omega),
      ofNat_eq_of_eq_toNat fourth (by omega)]

/-- A symbol that is a character is read from the octets of this character. -/
theorem exists_of_head {octet : UInt8} {rest : List UInt8} {c : Char}
    (h : (head octet rest).1 = some c) :
    ∃ left, octet :: rest = String.utf8EncodeChar c ++ left := by
  rw [head] at h
  split at h
  next hsmall =>
    cases h
    refine ⟨rest, ?_⟩
    rw [String.utf8EncodeChar.eq_1, toNat_val_ofNat (by omega), if_pos (by omega),
      UInt8.ofNat_toNat, List.singleton_append]
  next =>
    split at h
    next => cases h
    next hlead =>
      split at h
      next => cases h
      next hpoint =>
        cases h
        obtain ⟨more, left, rfl, hencode⟩ := utf8EncodeChar_of_lead? hlead hpoint
        exact ⟨left, by rw [hencode, List.cons_append]⟩

/-- Octets whose symbols are the characters of a text are the octets of this text. -/
theorem eq_encode_of_symbols {octets : List UInt8} {cs : List Char}
    (h : symbols octets = cs.map some) : octets = encode cs := by
  induction cs generalizing octets with
  | nil =>
      cases octets with
      | nil => rfl
      | cons octet rest => cases h
  | cons c cs ih =>
      cases octets with
      | nil => cases h
      | cons octet rest =>
          obtain ⟨left, hleft⟩ := exists_of_head (List.cons.inj h).1
          rw [hleft, symbols_utf8EncodeChar_append] at h
          rw [hleft, ih (List.cons.inj h).2, encode, encode, List.flatMap_cons]

theorem mapM_id_eq_some_iff {symbols : List Symbol} {cs : List Char} :
    symbols.mapM id = some cs ↔ symbols = cs.map some := by
  induction symbols generalizing cs with
  | nil => cases cs <;> simp
  | cons x symbols ih =>
      cases x with
      | none => cases cs <;> simp
      | some c =>
          cases cs with
          | nil => simp [Option.bind_eq_some_iff]
          | cons d cs => simpa [Option.bind_eq_some_iff, ih] using and_comm

/-- **Octets are well formed throughout exactly if they are the octets of a text**, and are read as
this text. -/
theorem decode?_eq_some_iff {octets : List UInt8} {cs : List Char} :
    decode? octets = some cs ↔ octets = encode cs := by
  rw [decode?, mapM_id_eq_some_iff]
  exact ⟨eq_encode_of_symbols, fun h => h ▸ symbols_encode cs⟩

/-- The octets of a text are read as this text. -/
theorem decode?_encode (cs : List Char) : decode? (encode cs) = some cs :=
  decode?_eq_some_iff.mpr rfl

/-- Different texts have different octets. -/
theorem encode_injective : Function.Injective encode := by
  intro cs cs' h
  exact Option.some.inj (by rw [← decode?_encode cs, h, decode?_encode])

end DiceTable.Text.Utf8
