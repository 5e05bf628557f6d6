import DiceTable.Proofs.Json.Record

/-!
# Surviving on the wire

A type survives on the wire (`Survives`) if whatever its decoder gives has some property
(`Ensures`), and every value with the property is plain as JSON and is decoded from what is
written for it (`Restores`).  Both are put together from the same for the fields.
-/

namespace DiceTable.Json

variable {α : Type} {decode : Decoder α} {encode : α → Value} {P : α → Prop} {f : Value → Value}

/-- Whatever the decoder gives has the property. -/
def Ensures (decode : Decoder α) (P : α → Prop) : Prop :=
  ∀ t x, decode t = some x → P x

/-- What has the property is decoded from what is written for it, in whatever order its members
stand. -/
def Restores (decode : Decoder α) (encode : α → Value) (P : α → Prop) : Prop :=
  ∀ {f : Value → Value}, Value.Arranges f → ∀ {x : α}, P x → decode (f (encode x)).toTree = some x

/-- The type survives on the wire: what is read from some text is read again from the text written
for it, and the values that can be read at all are those with the property. -/
structure Survives (decode again : Decoder α) (encode : α → Value) (P : α → Prop) : Prop where
  kept (octets : List UInt8) (x : α) : (Tree.ofOctets? octets).bind decode = some x →
    (Tree.ofOctets? (Text.Utf8.encode (encode x).compact.toList)).bind again = some x
  read_iff (x : α) : (∃ octets, (Tree.ofOctets? octets).bind decode = some x) ↔ P x

theorem survives {again : Decoder α} (hensures : Ensures decode P)
    (hplain : ∀ {x}, P x → (encode x).Plain greatestDepth)
    (hdecode : ∀ {x}, P x → decode (encode x).toTree = some x)
    (hagain : ∀ {x}, P x → again (encode x).toTree = some x) :
    Survives decode again encode P := by
  have hread {octets : List UInt8} {x : α} (h : (Tree.ofOctets? octets).bind decode = some x) :
      P x := by
    obtain ⟨t, -, ht⟩ := Option.bind_eq_some_iff.mp h
    exact hensures t x ht
  have hwritten {x : α} (hx : P x) :
      Tree.ofOctets? (Text.Utf8.encode (encode x).compact.toList) = some (encode x).toTree :=
    Tree.ofOctets?_compact (hplain hx)
  constructor
  · intro octets x h
    rw [hwritten (hread h), Option.bind_some, hagain (hread h)]
  · intro x
    constructor
    · rintro ⟨octets, h⟩
      exact hread h
    · intro hx
      refine ⟨Text.Utf8.encode (encode x).compact.toList, ?_⟩
      rw [hwritten hx, Option.bind_some, hdecode hx]

theorem survives_self (hensures : Ensures decode P)
    (hplain : ∀ {x}, P x → (encode x).Plain greatestDepth)
    (hdecode : ∀ {x}, P x → decode (encode x).toTree = some x) :
    Survives decode decode encode P :=
  survives hensures hplain hdecode hdecode

namespace Decode

/-! ## What the fields of a record ensure -/

theorem of_required {field : Option Tree} {x : α} (h : required decode field = some x)
    (hdecode : Ensures decode P) : P x := by
  obtain ⟨t, -, ht⟩ := Option.bind_eq_some_iff.mp h
  exact hdecode t x ht

theorem of_withDefault {field : Option Tree} {default x : α}
    (h : withDefault default decode field = some x) (hdefault : P default)
    (hdecode : Ensures decode P) : P x := by
  cases field with
  | none =>
      cases h
      exact hdefault
  | some t => exact hdecode t x h

theorem of_optional {field : Option Tree} {o : Option α} (h : optional decode field = some o)
    (hdecode : Ensures decode P) : ∀ x ∈ o, P x := by
  have hnullable : Ensures (nullable decode) fun o => ∀ x ∈ o, P x := by
    intro t o ht
    unfold nullable at ht
    split at ht
    · cases ht
      rintro x ⟨⟩
    · obtain ⟨y, hy, rfl⟩ := Option.map_eq_some_iff.mp ht
      rintro x ⟨⟩
      exact hdecode _ y hy
  exact of_withDefault h (by rintro x ⟨⟩) hnullable

theorem forall_of_mapM (hdecode : Ensures decode P) {items : List Tree} {xs : List α}
    (h : items.mapM decode = some xs) : ∀ x ∈ xs, P x := by
  induction items generalizing xs with
  | nil =>
      cases h
      exact List.forall_mem_nil P
  | cons t items ih =>
      rw [List.mapM_cons] at h
      obtain ⟨y, hy, h⟩ := Option.bind_eq_some_iff.mp h
      obtain ⟨ys, hys, heq⟩ := Option.bind_eq_some_iff.mp h
      cases heq
      exact List.forall_mem_cons.mpr ⟨hdecode t y hy, ih hys⟩

theorem ensures_list (hdecode : Ensures decode P) :
    Ensures (list decode) fun xs => ∀ x ∈ xs, P x := by
  intro t xs h
  cases t with
  | array items => exact forall_of_mapM hdecode h
  | _ => cases h

theorem ensures_int (low high : Int) : Ensures (int low high) fun n => low ≤ n ∧ n ≤ high := by
  intro t n h
  unfold int at h
  split at h
  · obtain ⟨hbounds, heq⟩ := Option.ite_none_right_eq_some.mp h
    cases heq
    exact hbounds
  · cases h

theorem ensures_signed64 : Ensures signed64 (Word.isSigned64 · = true) := by
  intro t n h
  exact Word.isSigned64_iff.mpr (ensures_int _ _ t n h)

theorem ensures_toNat (high : Nat) :
    Ensures (fun t => (int 0 high t).map Int.toNat) (· ≤ high) := by
  intro t n h
  obtain ⟨m, hm, rfl⟩ := Option.map_eq_some_iff.mp h
  have hbounds := ensures_int _ _ t m hm
  omega

theorem ensures_unsigned32 : Ensures unsigned32 (· ≤ Word.maxUnsigned32) := ensures_toNat _

theorem ensures_unsigned64 : Ensures unsigned64 (· ≤ Word.maxUnsigned64) := ensures_toNat _

/-! ## What is restored -/

theorem restores_string : Restores string Value.string fun _ => True := by
  intro f hf s _
  rw [hf.string]
  rfl

theorem restores_name {read : String → Option α} {write : α → String}
    (hread : ∀ x, read (write x) = some x) (hollow : Hollow) :
    Restores (name hollow read) (fun x => Value.string (write x)) fun _ => True := by
  intro f hf x _
  rw [hf.string]
  exact hread x

theorem restores_signed64 : Restores signed64 Value.ofInt (Word.isSigned64 · = true) := by
  intro f hf n hn
  rw [Value.ofInt, hf.number]
  exact if_pos (Word.isSigned64_iff.mp hn)

theorem restores_toNat (high : Nat) :
    Restores (fun t => (int 0 high t).map Int.toNat) Value.ofNat (· ≤ high) := by
  intro f hf n hn
  have hbounds : (0 : Int) ≤ n ∧ (n : Int) ≤ high := ⟨by omega, by omega⟩
  rw [Value.ofNat, hf.number]
  show (int 0 high (.number (.whole n))).map Int.toNat = some n
  rw [int, if_pos hbounds, Option.map_some, Int.toNat_natCast]

theorem restores_unsigned32 : Restores unsigned32 Value.ofNat (· ≤ Word.maxUnsigned32) :=
  restores_toNat _

theorem restores_unsigned64 : Restores unsigned64 Value.ofNat (· ≤ Word.maxUnsigned64) :=
  restores_toNat _

theorem restores_list (h : Restores decode encode P) :
    Restores (list decode) (fun xs => Value.array (xs.map encode)) fun xs => ∀ x ∈ xs, P x := by
  intro f hf xs hxs
  rw [hf.array, Value.toTree, Value.toTrees_eq_map, list]
  induction xs with
  | nil => rfl
  | cons x xs ih =>
      obtain ⟨hx, hxs⟩ := List.forall_mem_cons.mp hxs
      rw [List.map_cons, List.map_cons, List.map_cons, List.mapM_cons, h hf hx, ih hxs]
      rfl

theorem optional_restored (h : Restores decode encode P) (hnull : decode .null = none)
    (hf : Value.Arranges f) {o : Option α} (ho : ∀ x ∈ o, P x) :
    optional decode ((o.map encode).map fun v => (f v).toTree) = some o := by
  cases o with
  | none => rfl
  | some x =>
      have hx := h hf (ho x rfl)
      rw [Option.map_some, Option.map_some, optional, withDefault, nullable, hx, Option.map_some]
      intro hnone
      rw [hnone, hnull] at hx
      cases hx

end Decode

end DiceTable.Json
