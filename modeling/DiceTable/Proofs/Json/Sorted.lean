import DiceTable.Proofs.Json.Record

/-!
# Values that were read

The objects of a value that was read list their members in the order of their keys, and repeat
none: each member was put into its place by `putMember`.  To sort such a value again changes
nothing, since every member is put behind those before it.  So "`v.sorted = v`" is what tells the
values that can be read from those that can only be written down, and every value that is read has
this property (`sorted_of_ofTree?`).
-/

namespace DiceTable.Json.Value

/-- The members stand in the order of their keys, and no key is repeated. -/
def Ascending (ms : List (String × Value)) : Prop := ms.Pairwise fun m n => m.1 < n.1

/-! ## Putting members in their place -/

theorem mem_putMember {key : String} {v : Value} {ms : List (String × Value)} {m : String × Value}
    (h : m ∈ putMember key v ms) : m = (key, v) ∨ m ∈ ms := by
  induction ms with
  | nil => exact .inl (List.mem_singleton.mp h)
  | cons n ms ih =>
      unfold putMember at h
      split at h
      · exact (List.mem_cons.mp h).imp_right (List.mem_cons_of_mem n)
      · split at h
        · exact List.mem_cons.mp h
        · rcases List.mem_cons.mp h with rfl | h
          · exact .inr List.mem_cons_self
          · exact (ih h).imp_right (List.mem_cons_of_mem n)

theorem ascending_putMember {ms : List (String × Value)} (h : Ascending ms) (key : String)
    (v : Value) : Ascending (putMember key v ms) := by
  induction ms with
  | nil => exact List.pairwise_singleton _ _
  | cons n ms ih =>
      obtain ⟨hn, hms⟩ := List.pairwise_cons.mp h
      unfold putMember
      split
      next heq => exact List.pairwise_cons.mpr ⟨fun m hm => heq ▸ hn m hm, hms⟩
      next hne =>
        split
        next hlt =>
          refine List.pairwise_cons.mpr ⟨fun m hm => ?_, h⟩
          rcases List.mem_cons.mp hm with rfl | hm
          · exact hlt
          · exact String.lt_trans hlt (hn m hm)
        next hge =>
          have hlt : n.1 < key := by
            by_contra hnot
            exact hne (String.le_antisymm (String.not_lt.mp hnot) (String.not_lt.mp hge))
          refine List.pairwise_cons.mpr ⟨fun m hm => ?_, ih hms⟩
          rcases mem_putMember hm with rfl | hm
          · exact hlt
          · exact hn m hm

/-- A key behind all others is put at the end. -/
theorem putMember_of_forall_lt {key : String} {ms : List (String × Value)}
    (h : ∀ m ∈ ms, m.1 < key) (v : Value) : putMember key v ms = ms ++ [(key, v)] := by
  induction ms with
  | nil => rfl
  | cons n ms ih =>
      obtain ⟨hn, hms⟩ := List.forall_mem_cons.mp h
      have hne : key ≠ n.1 := fun heq => String.lt_irrefl key (heq ▸ hn)
      have hnot : ¬ key < n.1 := fun hlt => String.lt_irrefl key (String.lt_trans hlt hn)
      rw [putMember, if_neg hne, if_neg hnot, ih hms, List.cons_append]

/-! ## Sorting once and again -/

theorem mem_sortMembers {ms : List (String × Value)} {m : String × Value}
    (h : m ∈ sortMembers ms) : m ∈ ms := by
  have hfold (sorted : List (String × Value)) :
      m ∈ ms.foldl (fun sorted n => putMember n.1 n.2 sorted) sorted → m ∈ sorted ∨ m ∈ ms := by
    clear h
    induction ms generalizing sorted with
    | nil => exact .inl
    | cons n ms ih =>
        intro h
        rcases ih _ h with h | h
        · rcases mem_putMember h with rfl | h
          · exact .inr List.mem_cons_self
          · exact .inl h
        · exact .inr (List.mem_cons_of_mem n h)
  exact (hfold [] h).resolve_left List.not_mem_nil

theorem ascending_sortMembers (ms : List (String × Value)) : Ascending (sortMembers ms) := by
  have hfold (sorted : List (String × Value)) (h : Ascending sorted) :
      Ascending (ms.foldl (fun sorted n => putMember n.1 n.2 sorted) sorted) := by
    induction ms generalizing sorted with
    | nil => exact h
    | cons n ms ih => exact ih _ (ascending_putMember h n.1 n.2)
  exact hfold [] .nil

/-- Members in order are left as they are. -/
theorem sortMembers_of_ascending {ms : List (String × Value)} (h : Ascending ms) :
    sortMembers ms = ms := by
  have hfold (sorted : List (String × Value)) (h : Ascending (sorted ++ ms)) :
      ms.foldl (fun sorted n => putMember n.1 n.2 sorted) sorted = sorted ++ ms := by
    clear * - h
    induction ms generalizing sorted with
    | nil => exact (List.append_nil sorted).symm
    | cons n ms ih =>
        have hlast : ∀ m ∈ sorted, m.1 < n.1 := fun m hm =>
          (List.pairwise_append.mp h).2.2 m hm n List.mem_cons_self
        rw [List.foldl_cons, putMember_of_forall_lt hlast, ih _ (by simpa using h),
          List.append_assoc]
        rfl
  exact hfold [] h

mutual

/-- To sort a value that was read changes nothing. -/
theorem sorted_of_ofTree? : ∀ {t : Tree} {v : Value}, ofTree? t = some v → v.sorted = v
  | .null, _, h => by cases h; rfl
  | .bool _, _, h => by cases h; rfl
  | .number _, _, h => by cases h; rfl
  | .string _, _, h => by cases h; rfl
  | .array items, _, h => by
    obtain ⟨vs, hvs, rfl⟩ := Option.map_eq_some_iff.mp h
    rw [sorted, sortedItems_of_ofTrees? hvs]
  | .object members, _, h => by
    obtain ⟨ms, hms, rfl⟩ := Option.map_eq_some_iff.mp h
    have hvalues : sortedValues (sortMembers ms) = sortMembers ms := by
      have hsame : ∀ m ∈ sortMembers ms, (m.1, m.2.sorted) = id m := fun m hm =>
        Prod.ext rfl (sorted_of_ofMembers? hms m (mem_sortMembers hm))
      rw [sortedValues_eq_map, List.map_congr_left hsame, List.map_id]
    rw [sorted, hvalues, sortMembers_of_ascending (ascending_sortMembers ms)]
  | .unreadable, _, h => by cases h

theorem sortedItems_of_ofTrees? :
    ∀ {ts : List Tree} {vs : List Value}, ofTrees? ts = some vs → sortedItems vs = vs
  | [], _, h => by cases h; rfl
  | t :: ts, _, h => by
    simp only [ofTrees?, Option.bind_eq_bind, Option.bind_eq_some_iff] at h
    obtain ⟨v, hv, vs, hvs, heq⟩ := h
    cases heq
    rw [sortedItems, sorted_of_ofTree? hv, sortedItems_of_ofTrees? hvs]

theorem sorted_of_ofMembers? : ∀ {ts : List (Option String × Tree)} {ms : List (String × Value)},
    ofMembers? ts = some ms → ∀ m ∈ ms, m.2.sorted = m.2
  | [], _, h => by
    cases h
    exact List.forall_mem_nil _
  | (key, t) :: ts, _, h => by
    simp only [ofMembers?, Option.bind_eq_bind, Option.bind_eq_some_iff] at h
    obtain ⟨k, _, v, hv, ms, hms, heq⟩ := h
    cases heq
    exact List.forall_mem_cons.mpr ⟨sorted_of_ofTree? hv, sorted_of_ofMembers? hms⟩

end

/-- The elements of an array that was read were read. -/
theorem sorted_of_mem {items : List Value} (h : (Value.array items).sorted = .array items) :
    ∀ v ∈ items, v.sorted = v := by
  rw [sorted, sortedItems_eq_map, Value.array.injEq] at h
  exact List.map_inj_left.mp (h.trans (List.map_id items).symm)

end DiceTable.Json.Value
