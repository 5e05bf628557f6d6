import DiceTable.Proofs.Json.Grammar

/-!
# Reading what follows the grammar

Every text that follows the grammar is read as the tree that it is written for, except that arrays
and objects beyond the greatest depth are unreadable (`Tree.ofSymbols?_of_spells`).

## Strategy

Both statements are proved by induction on the grammar, with one statement for each of its parts.
Below the greatest depth the reader only checks the grammar, with a stack of open brackets; there a
value takes no more steps than it has characters, and leads to the state behind a value (`Passes`).
Above it the reader recurses, and the statement is about the tree that it builds (`Reads`).
-/

namespace DiceTable.Json

open DiceTable.Text.Utf8 (Symbol)

/-! ## The first character -/

/-- A value begins with neither layout nor the end of an array. -/
theorem exists_value_cons {tree : Tree} {text : List Char} (h : Spells (.value tree) text) :
    ∃ c cs, text = c :: cs ∧ isLayout (some c) = false ∧ c ≠ ']' := by
  cases h with
  | leaf h =>
      obtain ⟨c, cs, htext, hlayout, _, hbracket, _⟩ := exists_leafText_cons h
      exact ⟨c, cs, htext, hlayout, hbracket⟩
  | emptyArray => exact ⟨_, _, rfl, by decide⟩
  | array => exact ⟨_, _, rfl, by decide⟩
  | emptyObject => exact ⟨_, _, rfl, by decide⟩
  | object => exact ⟨_, _, rfl, by decide⟩

theorem exists_element_cons {tree : Tree} {text : List Char} (h : Spells (.element tree) text)
    (rest : List Symbol) :
    ∃ c more, skipLayout (text.map some ++ rest) = some c :: more ∧ c ≠ ']' := by
  cases h with
  | @element _ before text behind hbefore h hbehind =>
      obtain ⟨c, cs, rfl, hlayout, hbracket⟩ := exists_value_cons h
      refine ⟨c, cs.map some ++ (behind.map some ++ rest), ?_, hbracket⟩
      rw [List.map_append, List.append_assoc, skipLayout_append hbefore, List.map_append,
        List.map_cons, List.append_assoc, List.cons_append, skipLayout_cons hlayout]

/-! ## Skipping -/

section Skipping

variable {stack : List Bool} {inObject : Bool}

/-- Layout in front of the text makes no difference. -/
theorem skipNested_congr {text text' : List Symbol} (h : skipLayout text = skipLayout text')
    (fuel : Nat) (expecting : Expecting) :
    skipNested fuel (inObject :: stack) expecting text =
      skipNested fuel (inObject :: stack) expecting text' := by
  cases fuel with
  | zero => rfl
  | succ fuel =>
      rw [skipNested.eq_def (fuel + 1) _ _ text, skipNested.eq_def (fuel + 1) _ _ text']
      simp only [h]

theorem skipNested_leaf {tree : Tree} {text : List Char} (h : LeafText tree text)
    {rest : List Symbol} (hrest : Closes rest) (fuel : Nat) (first : Bool) :
    skipNested (fuel + 1) (inObject :: stack) (.value first) (text.map some ++ rest) =
      skipNested fuel (inObject :: stack) .afterValue rest := by
  have hread := readLeaf?_of_leafText h hrest
  obtain ⟨c, cs, rfl, hlayout, hbracket, hclosing, hbrace⟩ := exists_leafText_cons h
  rw [List.map_cons, List.cons_append] at hread ⊢
  rw [skipNested.eq_def (fuel + 1)]
  simp [skipLayout_cons hlayout, hread, hclosing, hbracket, hbrace]

/-- A key with its colon is one step. -/
theorem skipNested_key {key : Option (List Char)} {before body behind : List Char}
    (hbefore : IsLayout before) (hkey : BodyText key body) (hbehind : IsLayout behind)
    (fuel : Nat) (first : Bool) (rest : List Symbol) :
    skipNested (fuel + 1) (inObject :: stack) (.key first)
        (before.map some ++ some '"' :: (body.map some ++ some '"' ::
          (behind.map some ++ some ':' :: rest))) =
      skipNested fuel (inObject :: stack) (.value false) rest := by
  have hquote : isLayout (some '"') = false := rfl
  have hcolon : isLayout (some ':') = false := rfl
  rw [skipNested.eq_def (fuel + 1)]
  simp [skipLayout_append hbefore, skipLayout_append hbehind, skipLayout_cons hquote,
    skipLayout_cons hcolon, readString_of_bodyText hkey]

end Skipping

/-- To skip this text takes at most as many steps as it is long, and leads behind a value. -/
def Passes (inObject : Bool) (expecting : Bool → Expecting) (text : List Char) : Prop :=
  ∀ rest, Closes rest → ∃ cost ≤ text.length, ∀ fuel stack first,
    skipNested (fuel + cost) (inObject :: stack) (expecting first) (text.map some ++ rest) =
      skipNested fuel (inObject :: stack) .afterValue rest

/-- To skip this text and the closing bracket takes at most as many steps as they are long, and
leads out of the brackets. -/
def Fills (inside : Bool) (expecting : Bool → Expecting) (closing : Char) (text : List Char) :
    Prop :=
  ∀ rest, ∃ cost ≤ text.length + 1, ∀ fuel stack,
    skipNested (fuel + cost) (inside :: stack) (expecting true)
        (text.map some ++ some closing :: rest) =
      skipNested fuel stack .afterValue rest

/-- What is to be said of skipping each part. -/
def Skips : Part → List Char → Prop
  | .value _, text => ∀ inObject, Passes inObject .value text
  | .element _, text => ∀ inObject, Passes inObject .value text
  | .items _, text => Passes false .value text
  | .member _ _, text => Passes true .key text
  | .members _, text => Passes true .key text

section Passing

variable {text more : List Char}

/-- After an item or a member, a comma leads to the next one. -/
theorem Passes.comma {inObject : Bool} {expecting : Bool → Expecting}
    (hfirst : Passes inObject expecting text) (hmore : Passes inObject expecting more)
    (hnext : expecting false = if inObject then .key false else .value false) :
    Passes inObject expecting (text ++ ',' :: more) := by
  intro rest hrest
  obtain ⟨later, hlater, hskipLater⟩ := hmore rest hrest
  obtain ⟨now, hnow, hskipNow⟩ := hfirst (some ',' :: (more.map some ++ rest))
    (closes_cons (.inl rfl))
  refine ⟨now + 1 + later, ?_, fun fuel stack first => ?_⟩
  · rw [List.length_append, List.length_cons]
    omega
  · have hfuel : fuel + (now + 1 + later) = fuel + later + 1 + now := by omega
    rw [hfuel, List.map_append, List.map_cons, List.append_assoc, List.cons_append, hskipNow]
    show skipNested (fuel + later) (inObject :: stack)
      (if inObject then .key false else .value false) _ = _
    rw [← hnext, hskipLater]

section Brackets

variable {inside : Bool} {expecting : Bool → Expecting} {opening closing : Char}

theorem fills_of_layout (h : IsLayout text)
    (hclose : ∀ fuel stack rest, skipNested (fuel + 1) (inside :: stack) (expecting true)
      (some closing :: rest) = skipNested fuel stack .afterValue rest) :
    Fills inside expecting closing text := by
  intro rest
  refine ⟨1, Nat.le_add_left 1 _, fun fuel stack => ?_⟩
  rw [skipNested_congr (skipLayout_append h _), hclose]

theorem Passes.fills (h : Passes inside expecting text)
    (hcloses : ∀ rest, Closes (some closing :: rest))
    (hclose : ∀ fuel stack rest, skipNested (fuel + 1) (inside :: stack) .afterValue
      (some closing :: rest) = skipNested fuel stack .afterValue rest) :
    Fills inside expecting closing text := by
  intro rest
  obtain ⟨cost, hcost, hskip⟩ := h (some closing :: rest) (hcloses rest)
  refine ⟨cost + 1, Nat.succ_le_succ hcost, fun fuel stack => ?_⟩
  have hfuel : fuel + (cost + 1) = fuel + 1 + cost := by omega
  rw [hfuel, hskip, hclose]

theorem Fills.passes (h : Fills inside expecting closing text)
    (hopen : ∀ fuel stack first outside rest,
      skipNested (fuel + 1) (outside :: stack) (.value first) (some opening :: rest) =
        skipNested fuel (inside :: outside :: stack) (expecting true) rest)
    (outside : Bool) : Passes outside .value (opening :: (text ++ [closing])) := by
  intro rest _
  obtain ⟨cost, hcost, hskip⟩ := h rest
  refine ⟨cost + 1, ?_, fun fuel stack first => ?_⟩
  · simp only [List.length_cons, List.length_append, List.length_nil]
    omega
  · rw [← Nat.add_assoc, List.map_cons, List.cons_append, hopen, List.map_append, List.append_assoc]
    exact hskip fuel (outside :: stack)

/-- At the end of the outermost brackets the skipping is over. -/
theorem Fills.skipNested_eq (h : Fills inside expecting closing text) (rest : List Symbol) :
    skipNested (2 * (text.map some ++ some closing :: rest).length + 2) [inside] (expecting true)
      (text.map some ++ some closing :: rest) = some rest := by
  obtain ⟨cost, hcost, hskip⟩ := h rest
  rw [List.length_append, List.length_map, List.length_cons]
  obtain ⟨fuel, hfuel⟩ : ∃ fuel, 2 * (text.length + (rest.length + 1)) + 2 = fuel + 1 + cost :=
    ⟨2 * (text.length + (rest.length + 1)) + 1 - cost, by omega⟩
  rw [hfuel, hskip]
  rfl

end Brackets

theorem fills_emptyArray (h : IsLayout text) : Fills false .value ']' text :=
  fills_of_layout h fun _ _ _ => rfl

theorem fills_emptyObject (h : IsLayout text) : Fills true .key '\x7d' text :=
  fills_of_layout h fun _ _ _ => rfl

theorem fills_array (h : Passes false .value text) : Fills false .value ']' text :=
  h.fills (fun _ => closes_cons (.inr (.inl rfl))) fun _ _ _ => rfl

theorem fills_object (h : Passes true .key text) : Fills true .key '\x7d' text :=
  h.fills (fun _ => closes_cons (.inr (.inr rfl))) fun _ _ _ => rfl

theorem passes_array (h : Fills false .value ']' text) (outside : Bool) :
    Passes outside .value ('[' :: (text ++ [']'])) :=
  h.passes (fun _ _ first _ _ => by cases first <;> rfl) outside

theorem passes_object (h : Fills true .key '\x7d' text) (outside : Bool) :
    Passes outside .value ('\x7b' :: (text ++ ['\x7d'])) :=
  h.passes (fun _ _ first _ _ => by cases first <;> rfl) outside

end Passing

/-- What follows the grammar is skipped. -/
theorem skips_of_spells {part : Part} {text : List Char} (h : Spells part text) :
    Skips part text := by
  induction h with
  | leaf h =>
      intro inObject rest hrest
      obtain ⟨c, cs, rfl, _⟩ := exists_leafText_cons h
      exact ⟨1, by simp, fun fuel stack first => skipNested_leaf h hrest fuel first⟩
  | emptyArray h => exact passes_array (fills_emptyArray h)
  | array h ih => exact passes_array (fills_array ih)
  | emptyObject h => exact passes_object (fills_emptyObject h)
  | object h ih => exact passes_object (fills_object ih)
  | @element tree before text behind hbefore h hbehind ih =>
      intro inObject rest hrest
      obtain ⟨cost, hcost, hskip⟩ := ih inObject (behind.map some ++ rest)
        (hrest.append_layout hbehind)
      refine ⟨cost, ?_, fun fuel stack first => ?_⟩
      · simp only [List.length_append]
        omega
      · calc skipNested (fuel + cost) (inObject :: stack) (.value first)
              ((before ++ (text ++ behind)).map some ++ rest)
            = skipNested (fuel + cost) (inObject :: stack) (.value first)
                (text.map some ++ (behind.map some ++ rest)) := by
              apply skipNested_congr
              simp only [List.map_append, List.append_assoc, skipLayout_append hbefore]
          _ = skipNested fuel (inObject :: stack) .afterValue (behind.map some ++ rest) :=
              hskip fuel stack first
          _ = skipNested fuel (inObject :: stack) .afterValue rest :=
              skipNested_congr (skipLayout_append hbehind rest) fuel .afterValue
  | lastItem h ih => exact ih false
  | nextItem h hmore ih ihmore => exact (ih false).comma ihmore rfl
  | @member key tree before body behind text hbefore hkey hbehind h ih =>
      intro rest hrest
      obtain ⟨cost, hcost, hskip⟩ := ih true rest hrest
      refine ⟨cost + 1, ?_, fun fuel stack first => ?_⟩
      · simp only [List.length_append, List.length_cons]
        omega
      · rw [← Nat.add_assoc]
        simp only [List.map_append, List.map_cons, List.append_assoc, List.cons_append]
        rw [skipNested_key hbefore hkey hbehind, hskip]
  | lastMember h ih => exact ih
  | nextMember h hmore ih ihmore => exact Passes.comma ih ihmore rfl

/-! ## Values -/

/-- The tree with what is nested more than `depth` deep unreadable. -/
def Tree.cut : Nat → Tree → Tree
  | 0, .array _ => .unreadable
  | 0, .object _ => .unreadable
  | depth + 1, .array items => .array (items.map (cut depth))
  | depth + 1, .object members => .object (members.map fun m => (m.1, cut depth m.2))
  | _, tree => tree

theorem cut_of_leafText {tree : Tree} {text : List Char} (h : LeafText tree text) (depth : Nat) :
    tree.cut depth = tree := by
  cases h with
  | @string s => cases s <;> cases depth <;> rfl
  | @numeral n => cases n.number? <;> cases depth <;> rfl
  | _ => cases depth <;> rfl

theorem cut_array {outer : Nat} (h : outer < greatestDepth) (items : List Tree) :
    (Tree.array items).cut (greatestDepth - outer) =
      .array (items.map (Tree.cut (greatestDepth - (outer + 1)))) := by
  obtain ⟨depth, hdepth⟩ : ∃ depth, greatestDepth - outer = depth + 1 :=
    ⟨greatestDepth - (outer + 1), by omega⟩
  have hless : greatestDepth - (outer + 1) = depth := by omega
  rw [hdepth, hless, Tree.cut]

theorem cut_object {outer : Nat} (h : outer < greatestDepth)
    (members : List (Option String × Tree)) :
    (Tree.object members).cut (greatestDepth - outer) =
      .object (members.map fun m => (m.1, m.2.cut (greatestDepth - (outer + 1)))) := by
  obtain ⟨depth, hdepth⟩ : ∃ depth, greatestDepth - outer = depth + 1 :=
    ⟨greatestDepth - (outer + 1), by omega⟩
  have hless : greatestDepth - (outer + 1) = depth := by omega
  rw [hdepth, hless, Tree.cut]

/-- Layout in front of the text makes no difference. -/
theorem readValue_congr {text text' : List Symbol} (h : skipLayout text = skipLayout text')
    (fuel outer : Nat) : readValue fuel outer text = readValue fuel outer text' := by
  cases fuel with
  | zero => rfl
  | succ fuel => rw [readValue, readValue, h]

theorem readValue_leaf {tree : Tree} {text : List Char} (h : LeafText tree text)
    {rest : List Symbol} (hrest : Closes rest) (fuel outer : Nat) :
    readValue (fuel + 1) outer (text.map some ++ rest) = some (tree, rest) := by
  have hread := readLeaf?_of_leafText h hrest
  obtain ⟨c, cs, rfl, hlayout, hbracket, _, hbrace⟩ := exists_leafText_cons h
  rw [List.map_cons, List.cons_append] at hread ⊢
  rw [readValue, skipLayout_cons hlayout]
  split
  next heq => exact absurd (Option.some.inj (List.cons.inj heq).1) hbracket
  next heq => exact absurd (Option.some.inj (List.cons.inj heq).1) hbrace
  next => exact hread

/-- An array is built, or skipped where nothing more is built. -/
theorem readValue_array {trees : List Tree} {text : List Char} {rest : List Symbol}
    {fuel outer : Nat} (houter : outer ≤ greatestDepth) (hskip : Fills false .value ']' text)
    (hitems : outer < greatestDepth →
      readItems fuel (outer + 1) true [] (text.map some ++ some ']' :: rest) =
        some (.array (trees.map (Tree.cut (greatestDepth - (outer + 1)))), rest)) :
    readValue (fuel + 1) outer (('[' :: (text ++ [']'])).map some ++ rest) =
      some ((Tree.array trees).cut (greatestDepth - outer), rest) := by
  have hopen : isLayout (some '[') = false := rfl
  rw [List.map_cons, List.cons_append, List.map_append, List.append_assoc, readValue,
    skipLayout_cons hopen]
  show (if outer < greatestDepth then
      readItems fuel (outer + 1) true [] (text.map some ++ some ']' :: rest)
    else (skipNested (2 * (text.map some ++ some ']' :: rest).length + 2) [false] (.value true)
      (text.map some ++ some ']' :: rest)).map (Tree.unreadable, ·)) = _
  split
  next hbuilt => rw [hitems hbuilt, cut_array hbuilt]
  next hdeep =>
    have hzero : greatestDepth - outer = 0 := by omega
    rw [hskip.skipNested_eq, hzero]
    rfl

theorem readValue_object {members : List (Option String × Tree)} {text : List Char}
    {rest : List Symbol} {fuel outer : Nat} (houter : outer ≤ greatestDepth)
    (hskip : Fills true .key '\x7d' text)
    (hmembers : outer < greatestDepth →
      readMembers fuel (outer + 1) true [] (text.map some ++ some '\x7d' :: rest) =
        some (.object (members.map fun m => (m.1, m.2.cut (greatestDepth - (outer + 1)))), rest)) :
    readValue (fuel + 1) outer (('\x7b' :: (text ++ ['\x7d'])).map some ++ rest) =
      some ((Tree.object members).cut (greatestDepth - outer), rest) := by
  have hopen : isLayout (some '\x7b') = false := rfl
  rw [List.map_cons, List.cons_append, List.map_append, List.append_assoc, readValue,
    skipLayout_cons hopen]
  show (if outer < greatestDepth then
      readMembers fuel (outer + 1) true [] (text.map some ++ some '\x7d' :: rest)
    else (skipNested (2 * (text.map some ++ some '\x7d' :: rest).length + 2) [true] (.key true)
      (text.map some ++ some '\x7d' :: rest)).map (Tree.unreadable, ·)) = _
  split
  next hbuilt => rw [hmembers hbuilt, cut_object hbuilt]
  next hdeep =>
    have hzero : greatestDepth - outer = 0 := by omega
    rw [hskip.skipNested_eq, hzero]
    rfl

/-- Reads one item, and then decides by what follows it. -/
theorem readItems_item {text rest left : List Symbol} {item : Tree} {fuel outer : Nat}
    (hfirst : ∃ c more, skipLayout text = some c :: more ∧ c ≠ ']')
    (hread : readValue fuel outer text = some (item, left))
    (hleft : skipLayout left = skipLayout rest) (first : Bool) (read : List Tree) :
    readItems (fuel + 1) outer first read text =
      match skipLayout rest with
      | some ',' :: rest => readItems fuel outer false (item :: read) rest
      | some ']' :: rest => some (.array (item :: read).reverse, rest)
      | _ => none := by
  obtain ⟨c, more, htext, hbracket⟩ := hfirst
  have hstart : readValue fuel outer (some c :: more) = some (item, left) := by
    rw [← hread, ← htext]
    exact readValue_congr (skipLayout_skipLayout text) fuel outer
  rw [readItems, htext, hstart]
  · simp only [Option.bind_eq_bind, Option.bind_some, hleft]
    rfl
  · intro rest' _ heq
    rw [htext] at heq
    exact hbracket (Option.some.inj (List.cons.inj heq).1)

/-- Reads one member, and then decides by what follows it. -/
theorem readMembers_member {key : Option (List Char)} {before body behind : List Char}
    {text rest left : List Symbol} {tree : Tree} {fuel outer : Nat} (hbefore : IsLayout before)
    (hkey : BodyText key body) (hbehind : IsLayout behind)
    (hread : readValue fuel outer text = some (tree, left))
    (hleft : skipLayout left = skipLayout rest) (first : Bool)
    (read : List (Option String × Tree)) :
    readMembers (fuel + 1) outer first read (before.map some ++ some '"' :: (body.map some ++
        some '"' :: (behind.map some ++ some ':' :: text))) =
      match skipLayout rest with
      | some ',' :: rest =>
        readMembers fuel outer false ((key.map String.ofList, tree) :: read) rest
      | some '\x7d' :: rest =>
        some (.object ((key.map String.ofList, tree) :: read).reverse, rest)
      | _ => none := by
  have hquote : isLayout (some '"') = false := rfl
  have hcolon : isLayout (some ':') = false := rfl
  rw [readMembers.eq_def (fuel + 1)]
  simp only [skipLayout_append hbefore, skipLayout_append hbehind, skipLayout_cons hquote,
    skipLayout_cons hcolon, readString_of_bodyText hkey, hread, hleft, Option.bind_eq_bind,
    Option.bind_some]
  rfl

/-- What is to be said of reading each part, behind `outer` brackets. -/
def Reads : Part → List Char → Prop
  | .value tree, text => ∀ {outer fuel : Nat} {rest : List Symbol}, outer ≤ greatestDepth →
      text.length < fuel → Closes rest →
        readValue fuel outer (text.map some ++ rest) =
          some (tree.cut (greatestDepth - outer), rest)
  | .element tree, text => ∀ {outer fuel : Nat} {rest : List Symbol}, outer ≤ greatestDepth →
      text.length < fuel → Closes rest →
        ∃ left, skipLayout left = skipLayout rest ∧
          readValue fuel outer (text.map some ++ rest) =
            some (tree.cut (greatestDepth - outer), left)
  | .items trees, text => ∀ {outer fuel : Nat} (first : Bool) (read : List Tree)
      (rest : List Symbol), outer ≤ greatestDepth → text.length < fuel →
        readItems (fuel + 1) outer first read (text.map some ++ some ']' :: rest) =
          some (.array (read.reverse ++ trees.map (Tree.cut (greatestDepth - outer))), rest)
  | .member key tree, text => ∀ {outer fuel : Nat} {rest : List Symbol} (first : Bool)
      (read : List (Option String × Tree)), outer ≤ greatestDepth → text.length < fuel →
        Closes rest →
        readMembers (fuel + 1) outer first read (text.map some ++ rest) =
          match skipLayout rest with
          | some ',' :: rest =>
            readMembers fuel outer false ((key, tree.cut (greatestDepth - outer)) :: read) rest
          | some '\x7d' :: rest =>
            some (.object ((key, tree.cut (greatestDepth - outer)) :: read).reverse, rest)
          | _ => none
  | .members members, text => ∀ {outer fuel : Nat} (first : Bool)
      (read : List (Option String × Tree)) (rest : List Symbol), outer ≤ greatestDepth →
      text.length < fuel →
        readMembers (fuel + 1) outer first read (text.map some ++ some '\x7d' :: rest) =
          some (.object (read.reverse ++
            members.map fun m => (m.1, m.2.cut (greatestDepth - outer))), rest)

/-- What follows the grammar is read. -/
theorem reads_of_spells {part : Part} {text : List Char} (h : Spells part text) :
    Reads part text := by
  induction h with
  | leaf h =>
      intro outer fuel rest houter hfuel hrest
      obtain ⟨less, rfl⟩ : ∃ less, fuel = less + 1 := ⟨fuel - 1, by omega⟩
      rw [cut_of_leafText h]
      exact readValue_leaf h hrest less outer
  | @emptyArray inside h =>
      intro outer fuel rest houter hfuel hrest
      obtain ⟨less, rfl⟩ : ∃ less, fuel = less + 2 := ⟨fuel - 2, by simp at hfuel; omega⟩
      refine readValue_array houter (fills_emptyArray h) fun _ => ?_
      rw [readItems.eq_def (less + 1)]
      simp only [skipLayout_append h]
      rfl
  | @array trees text h ih =>
      intro outer fuel rest houter hfuel hrest
      obtain ⟨less, rfl⟩ : ∃ less, fuel = less + 2 := ⟨fuel - 2, by simp at hfuel; omega⟩
      refine readValue_array houter (fills_array (skips_of_spells h)) fun hbuilt => ?_
      simp only [List.length_cons, List.length_append, List.length_nil] at hfuel
      exact ih true [] rest hbuilt (by omega)
  | @emptyObject inside h =>
      intro outer fuel rest houter hfuel hrest
      obtain ⟨less, rfl⟩ : ∃ less, fuel = less + 2 := ⟨fuel - 2, by simp at hfuel; omega⟩
      refine readValue_object houter (fills_emptyObject h) fun _ => ?_
      rw [readMembers.eq_def (less + 1)]
      simp only [skipLayout_append h]
      rfl
  | @object members text h ih =>
      intro outer fuel rest houter hfuel hrest
      obtain ⟨less, rfl⟩ : ∃ less, fuel = less + 2 := ⟨fuel - 2, by simp at hfuel; omega⟩
      refine readValue_object houter (fills_object (skips_of_spells h)) fun hbuilt => ?_
      simp only [List.length_cons, List.length_append, List.length_nil] at hfuel
      exact ih true [] rest hbuilt (by omega)
  | @element tree before text behind hbefore h hbehind ih =>
      intro outer fuel rest houter hfuel hrest
      simp only [List.length_append] at hfuel
      refine ⟨behind.map some ++ rest, skipLayout_append hbehind rest, ?_⟩
      rw [← ih houter (show text.length < fuel by omega) (hrest.append_layout hbehind)]
      apply readValue_congr
      simp only [List.map_append, List.append_assoc, skipLayout_append hbefore]
  | @lastItem tree text h ih =>
      intro outer fuel first read rest houter hfuel
      have hcloses : Closes (some ']' :: rest) := closes_cons (.inr (.inl rfl))
      obtain ⟨left, hleft, hread⟩ := ih houter hfuel hcloses
      rw [readItems_item (exists_element_cons h _) hread hleft]
      show some (Tree.array (_ :: read).reverse, rest) = _
      rw [List.reverse_cons]
      rfl
  | @nextItem tree trees text more h hmore ih ihmore =>
      intro outer fuel first read rest houter hfuel
      rw [List.length_append, List.length_cons] at hfuel
      obtain ⟨less, rfl⟩ : ∃ less, fuel = less + 1 := ⟨fuel - 1, by omega⟩
      rw [List.map_append, List.map_cons, List.append_assoc, List.cons_append]
      have hcloses : Closes (some ',' :: (more.map some ++ some ']' :: rest)) :=
        closes_cons (.inl rfl)
      obtain ⟨left, hleft, hread⟩ := ih houter (show text.length < less + 1 by omega) hcloses
      rw [readItems_item (exists_element_cons h _) hread hleft]
      show readItems (less + 1) outer false (_ :: read) (more.map some ++ some ']' :: rest) = _
      rw [ihmore false _ rest houter (by omega), List.reverse_cons, List.append_assoc]
      rfl
  | @member key tree before body behind text hbefore hkey hbehind h ih =>
      intro outer fuel rest first read houter hfuel hrest
      simp only [List.length_append, List.length_cons] at hfuel
      obtain ⟨left, hleft, hread⟩ := ih houter (show text.length < fuel by omega) hrest
      simp only [List.map_append, List.map_cons, List.append_assoc, List.cons_append]
      exact readMembers_member hbefore hkey hbehind hread hleft first read
  | @lastMember key tree text h ih =>
      intro outer fuel first read rest houter hfuel
      rw [ih first read houter hfuel (closes_cons (.inr (.inr rfl)))]
      show some (Tree.object (_ :: read).reverse, rest) = _
      rw [List.reverse_cons]
      rfl
  | @nextMember key tree members text more h hmore ih ihmore =>
      intro outer fuel first read rest houter hfuel
      rw [List.length_append, List.length_cons] at hfuel
      obtain ⟨less, rfl⟩ : ∃ less, fuel = less + 1 := ⟨fuel - 1, by omega⟩
      rw [List.map_append, List.map_cons, List.append_assoc, List.cons_append,
        ih first read houter (by omega) (closes_cons (.inl rfl))]
      show readMembers (less + 1) outer false (_ :: read) (more.map some ++ some '\x7d' :: rest) = _
      rw [ihmore false _ rest houter (by omega), List.reverse_cons, List.append_assoc]
      rfl

/-- **What follows the grammar is read** as the tree that it is written for, as far as the tree is
built. -/
theorem Tree.ofSymbols?_of_spells {tree : Tree} {text : List Char}
    (h : Spells (.element tree) text) :
    Tree.ofSymbols? (text.map some) = some (tree.cut greatestDepth) := by
  have hfuel : text.length < 2 * (text.map some).length + 2 := by
    rw [List.length_map]
    omega
  obtain ⟨left, hleft, hread⟩ := reads_of_spells h (Nat.zero_le greatestDepth) hfuel closes_nil
  rw [List.append_nil] at hread
  rw [Tree.ofSymbols?, hread]
  simp only [Option.bind_eq_bind, Option.bind_some, hleft]
  rfl

end DiceTable.Json
