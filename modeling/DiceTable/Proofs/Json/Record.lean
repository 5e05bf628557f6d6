import DiceTable.Proofs.Json.Compact
import Mathlib.Data.List.Nodup

/-!
# The fields of a record

A record is written as an object with one member for each field that is present.  Its fields are
found again whatever the order of the members (`Value.Arranges.fields?_record`), which matters for
the entries of a list that is read leniently: their members are sorted first.
-/

namespace DiceTable.Json

namespace Value

/-! ## Records -/

/-- The members of a record with these keys and fields: those that are present. -/
def present (keys : List String) (fields : List (Option Value)) : List (String × Value) :=
  ((keys.zip fields).map fun m => m.2.map (m.1, ·)).reduceOption

/-- The object with these keys and fields. -/
def record (keys : List String) (fields : List (Option Value)) : Value :=
  .object (present keys fields)

theorem record_eq_ofFields (keys : List String) (fields : List (Option Value)) :
    record keys fields = .ofFields ((keys.zip fields).map fun m => m.2.map (m.1, ·)) := rfl

theorem mem_present {keys : List String} {fields : List (Option Value)} {m : String × Value}
    (h : m ∈ present keys fields) : m.1 ∈ keys ∧ some m.2 ∈ fields := by
  obtain ⟨⟨key, field⟩, hmem, hm⟩ := List.mem_map.mp (List.reduceOption_mem_iff.mp h)
  obtain ⟨v, rfl, rfl⟩ := Option.map_eq_some_iff.mp hm
  exact List.of_mem_zip hmem

theorem present_cons (key : String) (field : Option Value) (keys : List String)
    (fields : List (Option Value)) :
    present (key :: keys) (field :: fields) =
      (field.map (key, ·)).toList ++ present keys fields := by
  cases field <;> rfl

theorem nodup_keys_present {keys : List String} (hkeys : keys.Nodup)
    (fields : List (Option Value)) : ((present keys fields).map Prod.fst).Nodup := by
  induction keys generalizing fields with
  | nil => exact List.nodup_nil
  | cons key keys ih =>
      obtain ⟨hkey, hkeys⟩ := List.nodup_cons.mp hkeys
      cases fields with
      | nil => exact List.nodup_nil
      | cons field fields =>
          rw [present_cons]
          cases field with
          | none => exact ih hkeys fields
          | some v =>
              refine List.nodup_cons.mpr ⟨?_, ih hkeys fields⟩
              intro hmem
              obtain ⟨m, hm, rfl⟩ := List.mem_map.mp hmem
              exact hkey (mem_present hm).1

theorem plain_record {depth : Nat} {keys : List String} {fields : List (Option Value)}
    (h : fields.Forall fun field => ∀ v ∈ field, v.Plain depth) :
    (record keys fields).Plain (depth + 1) :=
  Plain.object fun m hm =>
    List.forall_iff_forall_mem.mp h (some m.2) (mem_present hm).2 m.2 rfl

theorem plain_some {depth : Nat} {v : Value} (h : v.Plain depth) :
    ∀ w ∈ some v, w.Plain depth := by
  rintro w ⟨⟩
  exact h

theorem plain_map {α : Type} {depth : Nat} {encode : α → Value} {o : Option α}
    (h : ∀ x ∈ o, (encode x).Plain depth) : ∀ v ∈ o.map encode, v.Plain depth := by
  intro v hv
  obtain ⟨x, hx, rfl⟩ := Option.map_eq_some_iff.mp hv
  exact h x hx

theorem plain_array {α : Type} {depth : Nat} {encode : α → Value} {xs : List α}
    (h : ∀ x ∈ xs, (encode x).Plain depth) : (array (xs.map encode)).Plain (depth + 1) :=
  Plain.array (List.forall_mem_map.mpr h)

theorem plain_ofInt {depth : Nat} {n : Int} (h : Word.isSigned64 n = true) :
    (ofInt n).Plain depth := by
  obtain ⟨hlow, hhigh⟩ := Word.isSigned64_iff.mp h
  refine Plain.whole hlow ?_
  simp only [Word.maxSigned64] at hhigh
  simp only [Word.maxUnsigned64]
  omega

theorem plain_ofNat {depth n : Nat} (h : n ≤ Word.maxUnsigned64) : (ofNat n).Plain depth := by
  refine Plain.whole ?_ (Int.ofNat_le.mpr h)
  simp only [Word.minSigned64]
  omega

/-! ## Finding the fields -/

theorem single?_congr {key : String} {ms ns : List (String × Value)}
    (h : ms.filter (·.1 == key) = ns.filter (·.1 == key)) : single? key ms = single? key ns := by
  rw [single?, h, single?]

theorem single?_append {key : String} {front : List (String × Value)}
    (h : ∀ m ∈ front, m.1 ≠ key) (ms : List (String × Value)) :
    single? key (front ++ ms) = single? key ms := by
  have hfront : front.filter (·.1 == key) = [] :=
    List.filter_eq_nil_iff.mpr fun m hm => by simpa using h m hm
  exact single?_congr (by rw [List.filter_append, hfront, List.nil_append])

theorem single?_of_forall_ne {key : String} {ms : List (String × Value)}
    (h : ∀ m ∈ ms, m.1 ≠ key) : single? key ms = some none := by
  rw [← List.append_nil ms, single?_append h]
  rfl

theorem single?_toList_append {key : String} {ms : List (String × Value)}
    (h : ∀ m ∈ ms, m.1 ≠ key) (field : Option Value) :
    single? key ((field.map (key, ·)).toList ++ ms) = some field := by
  cases field with
  | none => exact single?_of_forall_ne h
  | some v =>
      have hrest : ms.filter (·.1 == key) = [] :=
        List.filter_eq_nil_iff.mpr fun m hm => by simpa using h m hm
      have hfound : ((key, v) :: ms).filter (·.1 == key) = [(key, v)] := by
        rw [List.filter_cons, if_pos (beq_self_eq_true key), hrest]
      rw [Option.map_some, Option.toList_some, List.singleton_append, single?, hfound]

/-- Members with other keys in front do not matter. -/
theorem mapM_single?_present {keys : List String} (hkeys : keys.Nodup)
    {fields : List (Option Value)} (hlength : fields.length = keys.length)
    {front : List (String × Value)} (hfront : ∀ m ∈ front, m.1 ∉ keys) :
    keys.mapM (single? · (front ++ present keys fields)) = some fields := by
  induction keys generalizing fields front with
  | nil =>
      rw [List.length_nil, List.length_eq_zero_iff] at hlength
      rw [hlength]
      rfl
  | cons key keys ih =>
      obtain ⟨field, fields, rfl⟩ := List.exists_cons_of_length_eq_add_one hlength
      obtain ⟨hkey, hkeys⟩ := List.nodup_cons.mp hkeys
      have hothers : ∀ m ∈ present keys fields, m.1 ≠ key := by
        rintro m hm rfl
        exact hkey (mem_present hm).1
      have hfirst :
          single? key (front ++ present (key :: keys) (field :: fields)) = some field := by
        rw [single?_append fun m hm heq => hfront m hm (heq ▸ List.mem_cons_self), present_cons,
          single?_toList_append hothers]
      have hrest : keys.mapM (single? · (front ++ present (key :: keys) (field :: fields))) =
          some fields := by
        rw [present_cons, ← List.append_assoc]
        refine ih hkeys (Nat.succ.inj hlength) fun m hm => ?_
        rcases List.mem_append.mp hm with hm | hm
        · exact fun hmem => hfront m hm (List.mem_cons_of_mem key hmem)
        · cases field with
          | none => cases hm
          | some v =>
              rw [List.mem_singleton.mp hm]
              exact hkey
      rw [List.mapM_cons, hfirst, hrest]
      rfl

theorem fields?_record {keys : List String} (hkeys : keys.Nodup) {fields : List (Option Value)}
    (hlength : fields.length = keys.length) :
    (record keys fields).fields? keys = some fields :=
  mapM_single?_present hkeys hlength fun _ hm => absurd hm List.not_mem_nil

/-! ## Sorted members -/

theorem putMember_perm {key : String} {ms : List (String × Value)} (h : ∀ m ∈ ms, m.1 ≠ key)
    (v : Value) : (putMember key v ms).Perm ((key, v) :: ms) := by
  induction ms with
  | nil => exact .refl _
  | cons m ms ih =>
      unfold putMember
      rw [if_neg (h m List.mem_cons_self).symm]
      split
      · exact .refl _
      · have hrest := ih fun n hn => h n (List.mem_cons_of_mem m hn)
        exact (hrest.cons m).trans (.swap _ _ _)

theorem foldl_putMember_perm {ms sorted : List (String × Value)}
    (h : ((sorted ++ ms).map Prod.fst).Nodup) :
    (ms.foldl (fun sorted m => putMember m.1 m.2 sorted) sorted).Perm (sorted ++ ms) := by
  induction ms generalizing sorted with
  | nil =>
      rw [List.append_nil]
      exact .refl _
  | cons m ms ih =>
      have hother : ∀ n ∈ sorted, n.1 ≠ m.1 := by
        rw [List.map_append, List.map_cons, List.nodup_append] at h
        exact fun n hn => h.2.2 n.1 (List.mem_map_of_mem hn) m.1 List.mem_cons_self
      have hput : (putMember m.1 m.2 sorted).Perm (m :: sorted) := putMember_perm hother m.2
      have hsame : (putMember m.1 m.2 sorted ++ ms).Perm (sorted ++ m :: ms) :=
        (hput.append_right ms).trans List.perm_middle.symm
      exact (ih ((hsame.map Prod.fst).nodup_iff.mpr h)).trans hsame

/-- Sorting members that repeat no key only changes their order. -/
theorem sortMembers_perm {ms : List (String × Value)} (h : (ms.map Prod.fst).Nodup) :
    (sortMembers ms).Perm ms :=
  foldl_putMember_perm h

theorem single?_perm {ms ns : List (String × Value)} (h : ms.Perm ns)
    (hkeys : (ns.map Prod.fst).Nodup) (key : String) : single? key ms = single? key ns := by
  have hfound := h.filter (·.1 == key)
  refine single?_congr ?_
  match hns : ns.filter (·.1 == key) with
  | [] => exact (List.perm_nil.mp (hns ▸ hfound)).trans hns.symm
  | [m] => exact (List.perm_singleton.mp (hns ▸ hfound)).trans hns.symm
  | m :: n :: rest =>
      -- Both have this key, which only one member may have.
      have hm : m ∈ ns.filter (·.1 == key) := hns ▸ List.mem_cons_self
      have hn : n ∈ ns.filter (·.1 == key) := hns ▸ List.mem_cons_of_mem m List.mem_cons_self
      have hsame : m.1 = n.1 := by
        rw [eq_of_beq (List.mem_filter.mp hm).2, eq_of_beq (List.mem_filter.mp hn).2]
      have hfilter := hkeys.sublist ((List.filter_sublist (p := (·.1 == key))).map Prod.fst)
      rw [hns, List.map_cons, List.map_cons, List.nodup_cons] at hfilter
      exact absurd (hsame ▸ List.mem_cons_self) hfilter.1

/-! ## Arrangements -/

/-- Of a value whose objects repeat no key, `f` changes nothing but the order of members. -/
structure Arranges (f : Value → Value) : Prop where
  null : f .null = .null
  bool (b : Bool) : f (.bool b) = .bool b
  string (s : String) : f (.string s) = .string s
  number (n : Number) : f (.number n) = .number n
  array (items : List Value) : f (.array items) = .array (items.map f)
  object (members : List (String × Value)) (keys : List String) :
    (members.map Prod.fst).Nodup →
      (f (.object members)).fields? keys =
        ((Value.object members).fields? keys).map (List.map (Option.map f))

theorem arranges_id : Arranges id where
  null := rfl
  bool _ := rfl
  string _ := rfl
  number _ := rfl
  array items := by rw [List.map_id]; rfl
  object members keys _ := by
    rw [Option.map_id_fun, List.map_id_fun, Option.map_id_fun]
    rfl

theorem sortedItems_eq_map (vs : List Value) : sortedItems vs = vs.map sorted := by
  induction vs with
  | nil => rfl
  | cons v vs ih => rw [sortedItems, ih, List.map_cons]

theorem sortedValues_eq_map (ms : List (String × Value)) :
    sortedValues ms = ms.map fun m => (m.1, m.2.sorted) := by
  induction ms with
  | nil => rfl
  | cons m ms ih => rw [sortedValues, ih, List.map_cons]

theorem single?_map (f : Value → Value) (key : String) (ms : List (String × Value)) :
    single? key (ms.map fun m => (m.1, f m.2)) = (single? key ms).map (Option.map f) := by
  have hfilter : (ms.map fun m => (m.1, f m.2)).filter (·.1 == key) =
      (ms.filter (·.1 == key)).map fun m => (m.1, f m.2) := List.filter_map
  rw [single?, single?, hfilter]
  generalize ms.filter (·.1 == key) = found
  -- One case each for no member with this key, for one, and for more.
  rcases found with _ | ⟨m, _ | ⟨n, rest⟩⟩ <;> rfl

theorem arranges_sorted : Arranges sorted where
  null := rfl
  bool _ := rfl
  string _ := rfl
  number _ := rfl
  array items := by rw [sorted, sortedItems_eq_map]
  object members keys hkeys := by
    have hvalues : ((members.map fun m => (m.1, m.2.sorted)).map Prod.fst).Nodup := by
      rwa [List.map_map]
    have hsingle (key : String) : single? key (sortMembers (sortedValues members)) =
        (single? key members).map (Option.map sorted) := by
      rw [sortedValues_eq_map, single?_perm (sortMembers_perm hvalues) hvalues, single?_map]
    rw [sorted, fields?, fields?]
    exact mapM_eq_map hsingle keys

/-- The fields of a record are found again, each of them arranged. -/
theorem Arranges.fields?_record {f : Value → Value} (hf : Arranges f) {keys : List String}
    (hkeys : keys.Nodup) {fields : List (Option Value)} (hlength : fields.length = keys.length) :
    (f (record keys fields)).toTree.fields? keys =
      some (fields.map (Option.map fun v => (f v).toTree)) := by
  have hfound : (record keys fields).fields? keys = some fields :=
    Value.fields?_record hkeys hlength
  rw [fields?_toTree, record, hf.object _ keys (nodup_keys_present hkeys fields), ← record, hfound,
    Option.map_some, Option.map_some, List.map_map, Option.map_comp_map]
  rfl

theorem fields?_toTree_record {keys : List String} (hkeys : keys.Nodup)
    {fields : List (Option Value)} (hlength : fields.length = keys.length) :
    (record keys fields).toTree.fields? keys = some (fields.map (Option.map toTree)) :=
  arranges_id.fields?_record hkeys hlength

end Value

end DiceTable.Json
