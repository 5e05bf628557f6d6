import DiceTable.Console.Command
import DiceTable.Proofs.Text.Blank

/-!
# What can be typed

A line is cut into words, and a word is neither empty nor has it a blank.  So what a line says of
a roll or of a connection needs no normalizing any more.  The requests that can be typed are those
of three words and perhaps a phrase for the weapon (`exists_parse_roll_iff`), and the connections
that can be asked for are those of two words (`exists_parse_connect_iff`).
-/

namespace DiceTable

open Text (IsWord IsPhrase)

/-! ## Lines -/

/-- The request is one that can be typed: words, and a phrase for the weapon. -/
structure RollRequest.IsTypeable (r : RollRequest) : Prop where
  formula : IsWord r.formula
  character : IsWord r.character
  rollType : IsWord r.rollType
  weapon : ∀ w, r.weapon = some w → IsPhrase w

/-- Nothing is left to normalize in it. -/
theorem RollRequest.IsTypeable.normalized {r : RollRequest} (h : r.IsTypeable) :
    r.normalized = .ok r := by
  have hformula : Text.trim r.formula = r.formula := h.formula.isPhrase.trim_eq
  have hcharacter : Text.trim r.character = r.character := h.character.isPhrase.trim_eq
  have hrollType : Text.trim r.rollType = r.rollType := h.rollType.isPhrase.trim_eq
  have hweapon : (r.weapon.bind fun w => nonempty? (Text.trim w)) = r.weapon := by
    cases hw : r.weapon with
    | none => rfl
    | some w =>
        have hphrase := h.weapon w hw
        rw [Option.bind_some, hphrase.trim_eq, nonempty?, if_neg]
        simpa using hphrase.ne_empty
  rw [RollRequest.normalized, hformula, hcharacter, hrollType, hweapon, if_neg, if_neg]
  · simpa using h.character.1
  · simpa using h.formula.1

namespace Console

variable {verb apiKey table line : String} {rest words : List String} {request : RollRequest}

theorem ofWords_eq_roll_iff :
    Command.ofWords verb rest = .ok (.roll request) ↔
      verb = "roll" ∧ requestOfWords rest = .ok request := by
  constructor
  · intro h
    unfold Command.ofWords at h
    split at h
    case h_2 =>
      cases hrequest : requestOfWords rest with
      | error e => rw [hrequest] at h; cases h
      | ok r => rw [hrequest] at h; cases h; exact ⟨rfl, rfl⟩
    case h_1 => split at h <;> cases h
    all_goals cases h
  · rintro ⟨rfl, h⟩
    rw [Command.ofWords, h]
    rfl

theorem ofWords_eq_connect_iff :
    Command.ofWords verb rest = .ok (.connect apiKey table) ↔
      verb = "connect" ∧ ∃ more, rest = apiKey :: table :: more := by
  constructor
  · intro h
    unfold Command.ofWords at h
    split at h
    case h_1 =>
      split at h
      · cases h
        exact ⟨rfl, _, rfl⟩
      · cases h
    case h_2 => cases hrequest : requestOfWords rest <;> rw [hrequest] at h <;> cases h
    all_goals cases h
  · rintro ⟨rfl, more, rfl⟩
    rfl

/-- Any words can be typed. -/
theorem exists_parse_iff {command : Command} :
    (∃ line, Command.parse line = .ok command) ↔
      ∃ verb rest, (∀ w ∈ verb :: rest, IsWord w) ∧ Command.ofWords verb rest = .ok command := by
  constructor
  · rintro ⟨line, h⟩
    have hline : ∀ w ∈ Text.words line, IsWord w := fun w => Text.word_of_mem_words
    unfold Command.parse at h
    split at h
    · cases h
    · rename_i verb rest hwords
      rw [hwords] at hline
      exact ⟨verb, rest, hline, h⟩
  · rintro ⟨verb, rest, hwords, h⟩
    refine ⟨String.intercalate " " (verb :: rest), ?_⟩
    rw [Command.parse, Text.words_intercalate hwords]
    exact h

theorem isTypeable_of_words (hwords : ∀ w ∈ words, IsWord w)
    (h : requestOfWords words = .ok request) : request.IsTypeable := by
  match words, h with
  | formula :: character :: rest, h =>
      obtain rfl := Except.ok.inj h
      simp only [List.forall_mem_cons] at hwords
      obtain ⟨hformula, hcharacter, hrest⟩ := hwords
      have hdefault : IsWord defaultRollType := by decide
      cases rest with
      | nil => exact ⟨hformula, hcharacter, hdefault, fun w hw => nomatch hw⟩
      | cons rollType weapon =>
          rw [List.forall_mem_cons] at hrest
          refine ⟨hformula, hcharacter, hrest.1, fun w hw => ?_⟩
          cases weapon with
          | nil => cases hw
          | cons first weapon =>
              obtain rfl := Option.some.inj hw
              exact ⟨first :: weapon, List.cons_ne_nil _ _, hrest.2, rfl⟩

theorem exists_words_of_isTypeable (h : request.IsTypeable) :
    ∃ words, (∀ w ∈ words, IsWord w) ∧ requestOfWords words = .ok request := by
  obtain ⟨formula, character, rollType, _ | w⟩ := request
  · refine ⟨[formula, character, rollType], ?_, rfl⟩
    simp only [List.forall_mem_cons]
    exact ⟨h.formula, h.character, h.rollType, fun w hw => nomatch hw⟩
  · obtain ⟨ws, hne, hws, hw⟩ := h.weapon w rfl
    refine ⟨formula :: character :: rollType :: ws, ?_, ?_⟩
    · simp only [List.forall_mem_cons]
      exact ⟨h.formula, h.character, h.rollType, hws⟩
    · simp [requestOfWords, hne, hw]

/-- Exactly the requests of words can be typed. -/
theorem exists_parse_roll_iff :
    (∃ line, Command.parse line = .ok (.roll request)) ↔ request.IsTypeable := by
  rw [exists_parse_iff]
  constructor
  · rintro ⟨verb, rest, hwords, h⟩
    exact isTypeable_of_words (List.forall_mem_cons.mp hwords).2 (ofWords_eq_roll_iff.mp h).2
  · intro h
    obtain ⟨words, hwords, hrequest⟩ := exists_words_of_isTypeable h
    have hroll : IsWord "roll" := by decide
    exact ⟨"roll", words, List.forall_mem_cons.mpr ⟨hroll, hwords⟩,
      ofWords_eq_roll_iff.mpr ⟨rfl, hrequest⟩⟩

/-- Exactly the connections with two words can be asked for. -/
theorem exists_parse_connect_iff :
    (∃ line, Command.parse line = .ok (.connect apiKey table)) ↔ IsWord apiKey ∧ IsWord table := by
  rw [exists_parse_iff]
  constructor
  · rintro ⟨verb, rest, hwords, h⟩
    obtain ⟨-, more, rfl⟩ := ofWords_eq_connect_iff.mp h
    simp only [List.forall_mem_cons] at hwords
    exact ⟨hwords.2.1, hwords.2.2.1⟩
  · rintro ⟨hkey, htable⟩
    have hconnect : IsWord "connect" := by decide
    refine ⟨"connect", [apiKey, table], ?_, ofWords_eq_connect_iff.mpr ⟨rfl, [], rfl⟩⟩
    simp only [List.forall_mem_cons]
    exact ⟨hconnect, hkey, htable, fun w hw => nomatch hw⟩

end Console

/-- Two words are kept as credentials, and are valid. -/
theorem Credentials.ofTexts_of_isWord {apiKey table : String} (hkey : IsWord apiKey)
    (htable : IsWord table) :
    ofTexts apiKey table = ⟨apiKey, table⟩ ∧ (ofTexts apiKey table).validate = .ok () := by
  have hkept : ofTexts apiKey table = ⟨apiKey, table⟩ := by
    rw [ofTexts, hkey.isPhrase.trim_eq, htable.isPhrase.trim_eq]
  refine ⟨hkept, ?_⟩
  rw [hkept, validate, if_neg (by simpa using hkey.1), if_neg (by simpa using htable.1)]

end DiceTable
