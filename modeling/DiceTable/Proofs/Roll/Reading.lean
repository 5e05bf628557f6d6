import DiceTable.Roll.Record
import Mathlib.Data.List.Forall2

/-!
# How a record is read

The same payload is read in more than one way.  A record inside a message is read by a decoder
that takes more spellings for the names of dice and modifiers than the decoder for a record by
itself, and a record without a timestamp is dated to the moment at which it is read.  Neither
makes a difference that matters: a decoder that takes more spellings gives the same on those that
the other takes (`Extends`), and two readings of one payload differ in their dates at most
(`Redated`).  Both are said at once by `RollRecord.decode_again`.
-/

namespace DiceTable

namespace Json

variable {α : Type} {lenient strict : Decoder α}

/-- What the strict decoder takes, the lenient one takes with the same result. -/
def Extends (lenient strict : Decoder α) : Prop := ∀ t x, strict t = some x → lenient t = some x

namespace Decode

theorem Hollow.eq_null_of_admits {t : Tree} (h : Hollow.null.admits t = true) : t = .null := by
  cases t with
  | null => rfl
  | _ => simp [admits] at h

theorem extends_name (hollow : Hollow) (read : String → Option α) :
    Extends (name hollow read) (name .null read) := by
  intro t x h
  unfold name at h ⊢
  split at h
  · exact h
  next key content =>
    obtain ⟨hcontent, hread⟩ := Option.ite_none_right_eq_some.mp h
    have hadmits : hollow.admits content = true := by
      rw [Hollow.eq_null_of_admits hcontent]
      cases hollow <;> rfl
    exact (if_pos hadmits).trans hread
  · cases h

theorem extends_list (h : Extends lenient strict) : Extends (list lenient) (list strict) := by
  intro t xs hxs
  cases t with
  | array items =>
      show items.mapM lenient = some xs
      replace hxs : items.mapM strict = some xs := hxs
      induction items generalizing xs with
      | nil => exact hxs
      | cons item items ih =>
          simp only [List.mapM_cons, Option.bind_eq_bind, Option.bind_eq_some_iff] at hxs ⊢
          obtain ⟨x, hx, rest, hrest, heq⟩ := hxs
          exact ⟨x, h item x hx, rest, ih rest hrest, heq⟩
  | _ => cases hxs

theorem withDefault_of_extends (h : Extends lenient strict) {default x : α} {field : Option Tree}
    (hx : withDefault default strict field = some x) :
    withDefault default lenient field = some x := by
  cases field with
  | none => exact hx
  | some t => exact h t x hx

end Decode

end Json

open Json (Extends)
open Json.Decode

theorem Die.extends_decode (hollow : Hollow) : Extends (decode hollow) (decode .null) := by
  intro t d h
  simp only [decode, Option.bind_eq_bind, Option.bind_eq_some_iff] at h
  obtain ⟨fields, hfields, h⟩ := h
  split at h
  next sides value kind =>
    simp only [Option.bind_eq_some_iff] at h
    obtain ⟨_, hsides, _, hvalue, _, hkind, heq⟩ := h
    cases heq
    have hkind := withDefault_of_extends (extends_name hollow _) hkind
    simp [decode, hfields, hsides, hvalue, hkind]
  next => cases h

theorem Modifier.extends_decode (hollow : Hollow) : Extends (decode hollow) (decode .null) := by
  intro t m h
  simp only [decode, Option.bind_eq_bind, Option.bind_eq_some_iff] at h
  obtain ⟨fields, hfields, h⟩ := h
  split at h
  next kind magnitude origin =>
    simp only [Option.bind_eq_some_iff] at h
    obtain ⟨_, hkind, _, hmagnitude, _, horigin, heq⟩ := h
    cases heq
    have hkind := withDefault_of_extends (extends_name hollow _) hkind
    simp [decode, hfields, hkind, hmagnitude, horigin]
  next => cases h

namespace RollRecord

/-- The second record is the first one as it is read later: the same, or, if the first is dated to
the moment at which it was read, perhaps dated to the later one. -/
def Redated (now later : Timestamp) (r s : RollRecord) : Prop :=
  s = r ∨ r.timestamp = now ∧ s = { r with timestamp := later }

theorem Redated.refl (now later : Timestamp) (r : RollRecord) : Redated now later r r := .inl rfl

/-- Read at the same moment, it is the same record. -/
theorem Redated.eq {now : Timestamp} {r s : RollRecord} (h : Redated now now r s) : s = r := by
  rcases h with rfl | ⟨hnow, hs⟩
  · rfl
  · rw [hs, ← hnow]

theorem Redated.id_eq {now later : Timestamp} {r s : RollRecord} (h : Redated now later r s) :
    s.id = r.id := by
  rcases h with rfl | ⟨-, rfl⟩ <;> rfl

/-- A record is read again at any time and among any other spellings. -/
theorem decode_again (hollow : Hollow) {now : Timestamp} (later : Timestamp) {t : Json.Tree}
    {r : RollRecord} (h : decode .null now t = some r) :
    ∃ s, decode hollow later t = some s ∧ Redated now later r s := by
  simp only [decode, Option.bind_eq_bind, Option.bind_eq_some_iff] at h
  obtain ⟨fields, hfields, h⟩ := h
  split at h
  next id formula dice modifiers total context source timestamp =>
    simp only [Option.bind_eq_some_iff] at h
    obtain ⟨_, hid, _, hformula, _, hdice, _, hmodifiers, _, htotal, _, hcontext, _, hsource, _,
      htimestamp, heq⟩ := h
    cases heq
    have hdice := withDefault_of_extends (extends_list (Die.extends_decode hollow)) hdice
    have hmodifiers :=
      withDefault_of_extends (extends_list (Modifier.extends_decode hollow)) hmodifiers
    -- Only the timestamp looks at the time, and only if it is missing.
    cases timestamp with
    | none =>
        cases htimestamp
        have hdated : withDefault later Timestamp.decode none = some later := rfl
        refine ⟨_, ?_, .inr ⟨rfl, rfl⟩⟩
        simp [decode, hfields, hid, hformula, hdice, hmodifiers, htotal, hcontext, hsource, hdated]
    | some stamp =>
        replace htimestamp : withDefault later Timestamp.decode (some stamp) = _ := htimestamp
        refine ⟨_, ?_, .inl rfl⟩
        simp [decode, hfields, hid, hformula, hdice, hmodifiers, htotal, hcontext, hsource,
          htimestamp]
  next => cases h

/-- What is a record at one time is one at any time. -/
theorem rel_decode (now later : Timestamp) (t : Json.Tree) :
    Option.Rel (Redated now later) (decode .null now t) (decode .null later t) := by
  cases hnow : decode .null now t with
  | some r =>
      obtain ⟨s, hlater, hrs⟩ := decode_again .null later hnow
      rw [hlater]
      exact .some hrs
  | none =>
      cases hlater : decode .null later t with
      | none => exact .none
      | some s =>
          obtain ⟨r, hr, -⟩ := decode_again .null now hlater
          rw [hnow] at hr
          cases hr

end RollRecord

end DiceTable
