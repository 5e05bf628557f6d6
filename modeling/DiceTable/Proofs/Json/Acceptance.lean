import DiceTable.Proofs.Json.Leaves
import DiceTable.Proofs.Json.Reading

/-!
# What is read follows the grammar

The other direction of `Tree.ofSymbols?_of_spells`: a text that is read at all follows the
grammar, so that the two are the same (`Tree.ofText?_eq_some_iff`).

## Strategy

Below the greatest depth a run of steps is cut where the innermost bracket closes (`Exits`), by
induction on the steps: what stands before the bracket may stand there (`Ends`), and the run goes on
outside.  Above it the readers of values, items and members are treated together, by induction on
their fuel (`Conforms`).
-/

namespace DiceTable.Json

open DiceTable.Text.Utf8 (Symbol)

/-! ## Skipping -/

/-- The bracket that closes an array or an object. -/
def closing (inObject : Bool) : Char := if inObject then '\x7d' else ']'

/-- What stands in brackets that are not empty. -/
def Contents (inObject : Bool) (text : List Char) : Prop :=
  if inObject then ∃ members, Spells (.members members) text
  else ∃ trees, Spells (.items trees) text

/-- What may stand between a value and the bracket that closes around it. -/
def Follows (inObject : Bool) (text : List Char) : Prop :=
  ∃ behind, IsLayout behind ∧
    (text = behind ∨ ∃ more, text = behind ++ ',' :: more ∧ Contents inObject more)

/-- What may stand before the bracket that closes, for each state of the skipping. -/
def Ends (inObject : Bool) : Expecting → List Char → Prop
  | .value first, text => first = true ∧ IsLayout text ∨
      ∃ before tree value follows, text = before ++ (value ++ follows) ∧ IsLayout before ∧
        Spells (.value tree) value ∧ Follows inObject follows
  | .key first, text => first = true ∧ IsLayout text ∨ Contents true text
  | .afterValue, text => Follows inObject text

/-- The states that occur in an array, and in an object. -/
def Occurs (inObject : Bool) : Expecting → Prop
  | .value first => inObject = true → first = false
  | .key _ => inObject = true
  | .afterValue => True

theorem occurs_item (first : Bool) : Occurs false (.value first) :=
  fun h => absurd h Bool.false_ne_true

section Skipping

variable {before value follows : List Char} {tree : Tree}

/-- An item, with what follows it. -/
theorem contents_of_follows_item (hbefore : IsLayout before) (hvalue : Spells (.value tree) value)
    (h : Follows false follows) :
    ∃ trees, Spells (.items trees) (before ++ (value ++ follows)) := by
  obtain ⟨behind, hbehind, rfl | ⟨more, rfl, trees, hmore⟩⟩ := h
  · exact ⟨[tree], .lastItem (.element hbefore hvalue hbehind)⟩
  · have hitems := Spells.nextItem (.element hbefore hvalue hbehind) hmore
    exact ⟨tree :: trees, by simpa using hitems⟩

/-- A member, with what follows it. -/
theorem contents_of_follows_member {key : Option (List Char)} {lead body behind : List Char}
    (hlead : IsLayout lead) (hkey : BodyText key body) (hbehind : IsLayout behind)
    (hbefore : IsLayout before) (hvalue : Spells (.value tree) value) (h : Follows true follows) :
    Contents true
      (lead ++ '"' :: (body ++ '"' :: (behind ++ ':' :: (before ++ (value ++ follows))))) := by
  obtain ⟨after, hafter, rfl | ⟨more, rfl, members, hmore⟩⟩ := h
  · exact ⟨_, .lastMember (.member hlead hkey hbehind (.element hbefore hvalue hafter))⟩
  · have hmembers := Spells.nextMember
      (.member hlead hkey hbehind (.element hbefore hvalue hafter)) hmore
    exact ⟨_, by simpa using hmembers⟩

theorem exists_array_of_ends {text : List Char} (h : Ends false (.value true) text) :
    ∃ trees, Spells (.value (.array trees)) ('[' :: (text ++ [']'])) := by
  rcases h with ⟨_, hlayout⟩ | ⟨before, tree, value, follows, rfl, hbefore, hvalue, hfollows⟩
  · exact ⟨[], .emptyArray hlayout⟩
  · obtain ⟨trees, htrees⟩ := contents_of_follows_item hbefore hvalue hfollows
    exact ⟨trees, .array htrees⟩

theorem exists_object_of_ends {inObject : Bool} {text : List Char}
    (h : Ends inObject (.key true) text) :
    ∃ members, Spells (.value (.object members)) ('\x7b' :: (text ++ ['\x7d'])) := by
  rcases h with ⟨_, hlayout⟩ | ⟨members, hmembers⟩
  · exact ⟨[], .emptyObject hlayout⟩
  · exact ⟨members, .object hmembers⟩

/-- The skipping goes on to the bracket that closes around it, and from there outside. -/
def Exits (fuel : Nat) (inObject : Bool) (outer : List Bool) (expecting : Expecting)
    (cs : List Char) (rest : List Symbol) : Prop :=
  ∃ text after less, cs = text ++ closing inObject :: after ∧ less < fuel ∧
    skipNested less outer .afterValue (after.map some) = some rest ∧ Ends inObject expecting text

variable {fuel : Nat} {inObject : Bool} {outer : List Bool} {cs : List Char} {rest : List Symbol}

theorem Exits.mono {expecting : Expecting} {less : Nat}
    (h : Exits less inObject outer expecting cs rest) (hle : less ≤ fuel) :
    Exits fuel inObject outer expecting cs rest := by
  obtain ⟨text, after, left, hcs, hleft, hskip, hends⟩ := h
  exact ⟨text, after, left, hcs, hleft.trans_le hle, hskip, hends⟩

/-- A value in front of what follows it. -/
theorem Exits.value_append (hbefore : IsLayout before) (hvalue : Spells (.value tree) value)
    (h : Exits fuel inObject outer .afterValue cs rest) (first : Bool) :
    Exits fuel inObject outer (.value first) (before ++ (value ++ cs)) rest := by
  obtain ⟨follows, after, less, rfl, hless, hskip, hends⟩ := h
  exact ⟨before ++ (value ++ follows), after, less, by simp, hless, hskip,
    .inr ⟨before, tree, value, follows, rfl, hbefore, hvalue, hends⟩⟩

/-- Skipping with this much fuel exits the innermost brackets, if it leads anywhere. -/
def ExitsWith (fuel : Nat) : Prop :=
  ∀ {inObject : Bool} {outer : List Bool} {expecting : Expecting} {cs : List Char}
    {rest : List Symbol}, Occurs inObject expecting →
    skipNested fuel (inObject :: outer) expecting (cs.map some) = some rest →
    Exits fuel inObject outer expecting cs rest

section Step

variable (ih : ∀ less ≤ fuel, ExitsWith less)
include ih

/-- Brackets within brackets are a value, and what follows it is skipped after them. -/
theorem Exits.nested {opening : Char} {inside : Bool} {expecting : Expecting}
    (h : Exits fuel inside (inObject :: outer) expecting cs rest) (hbefore : IsLayout before)
    (hvalue : ∀ text, Ends inside expecting text →
      ∃ tree, Spells (.value tree) (opening :: (text ++ [closing inside]))) (first : Bool) :
    Exits fuel inObject outer (.value first) (before ++ opening :: cs) rest := by
  obtain ⟨text, after, less, rfl, hless, hskip, hends⟩ := h
  obtain ⟨tree, hvalue⟩ := hvalue text hends
  have hcut : before ++ opening :: (text ++ closing inside :: after) =
      before ++ (opening :: (text ++ [closing inside]) ++ after) := by simp
  have hfollows : Occurs inObject .afterValue := trivial
  rw [hcut]
  exact ((ih less hless.le hfollows hskip).value_append hbefore hvalue first).mono hless.le

/-- A key with its colon stands in front of a value. -/
theorem Exits.keyed {first : Bool} {key : Option (List Char)} {body behind : List Char}
    (hbefore : IsLayout before) (hkey : BodyText key body) (hbehind : IsLayout behind)
    (h : skipNested fuel (true :: outer) (.value false) (cs.map some) = some rest) :
    Exits fuel true outer (.key first) (before ++ '"' :: (body ++ '"' :: (behind ++ ':' :: cs)))
      rest := by
  have hoccurs : Occurs true (.value false) := fun _ => rfl
  obtain ⟨text, after, less, rfl, hless, hskip, ⟨hfirst, _⟩ | ⟨gap, tree, value, follows, rfl, hgap,
    hvalue, hfollows⟩⟩ := ih fuel le_rfl hoccurs h
  · cases hfirst
  · exact ⟨_, after, less, by simp, hless, hskip,
      .inr (contents_of_follows_member hbefore hkey hbehind hgap hvalue hfollows)⟩

/-- A comma stands in front of more items or members. -/
theorem Exits.comma (hbefore : IsLayout before)
    (h : skipNested fuel (inObject :: outer) (if inObject then .key false else .value false)
      (cs.map some) = some rest) :
    Exits fuel inObject outer .afterValue (before ++ ',' :: cs) rest := by
  cases inObject with
  | true =>
      have hoccurs : Occurs true (.key false) := rfl
      obtain ⟨text, after, less, rfl, hless, hskip, ⟨hfirst, _⟩ | hcontents⟩ :=
        ih fuel le_rfl hoccurs h
      · cases hfirst
      · exact ⟨before ++ ',' :: text, after, less, by simp, hless, hskip, before, hbefore,
          .inr ⟨text, rfl, hcontents⟩⟩
  | false =>
      obtain ⟨text, after, less, rfl, hless, hskip, ⟨hfirst, _⟩ | ⟨gap, tree, value, follows, rfl,
        hgap, hvalue, hfollows⟩⟩ := ih fuel le_rfl (occurs_item false) h
      · cases hfirst
      · exact ⟨before ++ ',' :: (gap ++ (value ++ follows)), after, less, by simp, hless, hskip,
          before, hbefore, .inr ⟨_, rfl, contents_of_follows_item hgap hvalue hfollows⟩⟩

/-- One step of the skipping. -/
theorem exitsWith_succ : ExitsWith (fuel + 1) := by
  intro inObject outer expecting cs rest hoccurs h
  -- The bracket that closes around the text stands in front of it, behind the layout.
  have hclose {before after : List Char} (hcloses : Ends inObject expecting before)
      (hskip : skipNested fuel outer .afterValue (after.map some) = some rest) :
      Exits (fuel + 1) inObject outer expecting (before ++ closing inObject :: after) rest :=
    ⟨before, after, fuel, rfl, Nat.lt_succ_self fuel, hskip, hcloses⟩
  obtain ⟨before, after, rfl, hbefore, hlayout⟩ := exists_skipLayout cs
  rw [skipNested.eq_def] at h
  simp only [hlayout] at h
  split at h
  -- Where a value is due: the end of an empty array, an array, an object, or a leaf.
  next heq =>
    obtain ⟨after, rfl, rfl⟩ := exists_of_map_eq_cons heq
    obtain rfl : inObject = false := by
      cases inObject with
      | false => rfl
      | true => cases hoccurs rfl
    exact hclose (.inl ⟨rfl, hbefore⟩) h
  next first _ heq =>
    obtain ⟨inner, rfl, rfl⟩ := exists_of_map_eq_cons heq
    exact (Exits.nested ih (ih fuel le_rfl (occurs_item true) h) hbefore
      (fun _ hends => (exists_array_of_ends hends).imp' Tree.array fun _ => id) first).mono
        (Nat.le_succ fuel)
  next first _ heq =>
    obtain ⟨inner, rfl, rfl⟩ := exists_of_map_eq_cons heq
    have hinside : Occurs true (.key true) := rfl
    exact (Exits.nested ih (ih fuel le_rfl hinside h) hbefore
      (fun _ hends => (exists_object_of_ends hends).imp' Tree.object fun _ => id) first).mono
        (Nat.le_succ fuel)
  next first _ _ _ =>
    split at h
    next hread =>
      obtain ⟨text, after, rfl, hleaf, rfl⟩ := exists_of_readLeaf? hread
      have hfollows : Occurs inObject .afterValue := trivial
      exact ((ih fuel le_rfl hfollows h).value_append hbefore (.leaf hleaf) first).mono
        (Nat.le_succ fuel)
    next => cases h
  -- Where a key is due: the end of an empty object, or a key with its colon.
  next heq =>
    obtain ⟨after, rfl, rfl⟩ := exists_of_map_eq_cons heq
    obtain rfl : inObject = true := hoccurs
    exact hclose (.inl ⟨rfl, hbefore⟩) h
  next heq =>
    obtain ⟨inner, rfl, rfl⟩ := exists_of_map_eq_cons heq
    obtain rfl : inObject = true := hoccurs
    split at h
    next hread =>
      obtain ⟨key, body, more, rfl, hkey, rfl, _⟩ := exists_of_readString hread
      split at h
      next hcolon =>
        obtain ⟨behind, more, rfl, hbehind, rfl⟩ := exists_of_skipLayout_eq_cons hcolon
        exact (Exits.keyed ih hbefore hkey hbehind h).mono (Nat.le_succ fuel)
      next => cases h
    next => cases h
  next => cases h
  -- Behind a value: a comma, or the bracket that matches the one that is open.
  next heq =>
    obtain ⟨more, rfl, rfl⟩ := exists_of_map_eq_cons heq
    exact (Exits.comma ih hbefore h).mono (Nat.le_succ fuel)
  next heq =>
    obtain ⟨after, rfl, rfl⟩ := exists_of_map_eq_cons heq
    cases inObject with
    | true => cases h
    | false => exact hclose ⟨before, hbefore, .inl rfl⟩ h
  next heq =>
    obtain ⟨after, rfl, rfl⟩ := exists_of_map_eq_cons heq
    cases inObject with
    | true => exact hclose ⟨before, hbefore, .inl rfl⟩ h
    | false => cases h
  next => cases h

end Step

/-- The skipping exits the innermost brackets, if it leads anywhere. -/
theorem exitsWith (fuel : Nat) : ExitsWith fuel := by
  induction fuel using Nat.strongRecOn with
  | ind fuel ih =>
      cases fuel with
      | zero => exact fun _ h => nomatch h
      | succ fuel => exact exitsWith_succ fun less hless => ih less (Nat.lt_succ_of_le hless)

/-- One bracket is skipped up to where it closes. -/
theorem exists_of_skipNested {inside : Bool} {expecting : Expecting}
    (hoccurs : Occurs inside expecting)
    (h : skipNested fuel [inside] expecting (cs.map some) = some rest) :
    ∃ text after, cs = text ++ closing inside :: after ∧ Ends inside expecting text ∧
      rest = after.map some := by
  obtain ⟨text, after, less, rfl, _, hskip, hends⟩ := exitsWith fuel hoccurs h
  cases less with
  | zero => cases hskip
  | succ less => exact ⟨text, after, rfl, hends, (Option.some.inj hskip).symm⟩

end Skipping

/-! ## Values -/

/-- A value read `outer` brackets deep: one of its texts behind layout, and what is built of it. -/
def ValueAt (outer : Nat) (cs : List Char) (tree : Tree) (rest : List Symbol) : Prop :=
  ∃ before text after written, cs = before ++ (text ++ after) ∧ IsLayout before ∧
    Spells (.value written) text ∧ tree = written.cut (greatestDepth - outer) ∧
    rest = after.map some

/-- Items up to the end of their array, behind those that were read before. -/
def ItemsAt (outer : Nat) (first : Bool) (read : List Tree) (cs : List Char) (tree : Tree)
    (rest : List Symbol) : Prop :=
  ∃ text after, cs = text ++ ']' :: after ∧ rest = after.map some ∧
    (first = true ∧ IsLayout text ∧ tree = .array [] ∨
      ∃ trees, Spells (.items trees) text ∧
        tree = .array (read.reverse ++ trees.map (Tree.cut (greatestDepth - outer))))

/-- Members up to the end of their object, behind those that were read before. -/
def MembersAt (outer : Nat) (first : Bool) (read : List (Option String × Tree)) (cs : List Char)
    (tree : Tree) (rest : List Symbol) : Prop :=
  ∃ text after, cs = text ++ '\x7d' :: after ∧ rest = after.map some ∧
    (first = true ∧ IsLayout text ∧ tree = .object [] ∨
      ∃ members, Spells (.members members) text ∧
        tree = .object (read.reverse ++
          members.map fun m => (m.1, m.2.cut (greatestDepth - outer))))

/-- With this much fuel, what is read follows the grammar. -/
structure Conforms (fuel : Nat) : Prop where
  value : ∀ {outer : Nat} {cs : List Char} {tree : Tree} {rest : List Symbol},
    outer ≤ greatestDepth → readValue fuel outer (cs.map some) = some (tree, rest) →
      ValueAt outer cs tree rest
  items : ∀ {outer : Nat} {first : Bool} {read : List Tree} {cs : List Char} {tree : Tree}
    {rest : List Symbol}, outer ≤ greatestDepth →
    readItems fuel outer first read (cs.map some) = some (tree, rest) →
      ItemsAt outer first read cs tree rest
  members : ∀ {outer : Nat} {first : Bool} {read : List (Option String × Tree)} {cs : List Char}
    {tree : Tree} {rest : List Symbol}, outer ≤ greatestDepth →
    readMembers fuel outer first read (cs.map some) = some (tree, rest) →
      MembersAt outer first read cs tree rest

section Step

variable {fuel outer : Nat} {first : Bool} {before cs : List Char} {tree : Tree}
  {rest : List Symbol} (ih : Conforms fuel) (houter : outer ≤ greatestDepth)
include ih houter

theorem Conforms.array_succ (hbefore : IsLayout before)
    (h : (if outer < greatestDepth then readItems fuel (outer + 1) true [] (cs.map some)
      else (skipNested (2 * (cs.map some).length + 2) [false] (.value true) (cs.map some)).map
        (Tree.unreadable, ·)) = some (tree, rest)) :
    ValueAt outer (before ++ '[' :: cs) tree rest := by
  split at h
  next hbuilt =>
    obtain ⟨text, after, rfl, rfl, ⟨_, hinside, rfl⟩ | ⟨trees, htrees, rfl⟩⟩ := ih.items hbuilt h
    · exact ⟨before, '[' :: (text ++ [']']), after, .array [], by simp, hbefore,
        .emptyArray hinside, (cut_array hbuilt []).symm, rfl⟩
    · exact ⟨before, '[' :: (text ++ [']']), after, .array trees, by simp, hbefore,
        .array htrees, (cut_array hbuilt trees).symm, rfl⟩
  next hdeep =>
    obtain ⟨left, hskip, heq⟩ := Option.map_eq_some_iff.mp h
    obtain ⟨rfl, rfl⟩ := Prod.mk.inj heq
    obtain ⟨text, after, rfl, hends, rfl⟩ := exists_of_skipNested (occurs_item true) hskip
    obtain ⟨trees, hvalue⟩ := exists_array_of_ends hends
    have hzero : greatestDepth - outer = 0 := by omega
    exact ⟨before, '[' :: (text ++ [']']), after, .array trees, by simp [closing], hbefore, hvalue,
      by rw [hzero]; rfl, rfl⟩

theorem Conforms.object_succ (hbefore : IsLayout before)
    (h : (if outer < greatestDepth then readMembers fuel (outer + 1) true [] (cs.map some)
      else (skipNested (2 * (cs.map some).length + 2) [true] (.key true) (cs.map some)).map
        (Tree.unreadable, ·)) = some (tree, rest)) :
    ValueAt outer (before ++ '\x7b' :: cs) tree rest := by
  split at h
  next hbuilt =>
    obtain ⟨text, after, rfl, rfl, ⟨_, hinside, rfl⟩ | ⟨members, hmembers, rfl⟩⟩ :=
      ih.members hbuilt h
    · exact ⟨before, '\x7b' :: (text ++ ['\x7d']), after, .object [], by simp, hbefore,
        .emptyObject hinside, (cut_object hbuilt []).symm, rfl⟩
    · exact ⟨before, '\x7b' :: (text ++ ['\x7d']), after, .object members, by simp, hbefore,
        .object hmembers, (cut_object hbuilt members).symm, rfl⟩
  next hdeep =>
    obtain ⟨left, hskip, heq⟩ := Option.map_eq_some_iff.mp h
    obtain ⟨rfl, rfl⟩ := Prod.mk.inj heq
    have hinside : Occurs true (.key true) := rfl
    obtain ⟨text, after, rfl, hends, rfl⟩ := exists_of_skipNested hinside hskip
    obtain ⟨members, hvalue⟩ := exists_object_of_ends hends
    have hzero : greatestDepth - outer = 0 := by omega
    exact ⟨before, '\x7b' :: (text ++ ['\x7d']), after, .object members, by simp [closing],
      hbefore, hvalue, by rw [hzero]; rfl, rfl⟩

theorem Conforms.value_succ (h : readValue (fuel + 1) outer (cs.map some) = some (tree, rest)) :
    ValueAt outer cs tree rest := by
  obtain ⟨before, after, rfl, hbefore, hlayout⟩ := exists_skipLayout cs
  rw [readValue, hlayout] at h
  split at h
  next heq =>
    obtain ⟨inner, rfl, rfl⟩ := exists_of_map_eq_cons heq
    exact ih.array_succ houter hbefore h
  next heq =>
    obtain ⟨inner, rfl, rfl⟩ := exists_of_map_eq_cons heq
    exact ih.object_succ houter hbefore h
  next =>
    obtain ⟨text, after, rfl, hleaf, rfl⟩ := exists_of_readLeaf? h
    exact ⟨before, text, after, tree, rfl, hbefore, .leaf hleaf, (cut_of_leafText hleaf _).symm,
      rfl⟩

theorem Conforms.items_succ {read : List Tree}
    (h : readItems (fuel + 1) outer first read (cs.map some) = some (tree, rest)) :
    ItemsAt outer first read cs tree rest := by
  rw [readItems.eq_def] at h
  simp only at h
  split at h
  next heq =>
    obtain ⟨inside, after, rfl, hinside, rfl⟩ := exists_of_skipLayout_eq_cons heq
    obtain ⟨rfl, rfl⟩ := Prod.mk.inj (Option.some.inj h)
    exact ⟨inside, after, rfl, rfl, .inl ⟨rfl, hinside, rfl⟩⟩
  next =>
    -- The item is read behind the layout, but its text has the layout in front.
    obtain ⟨⟨item, left⟩, hread, h⟩ := Option.bind_eq_some_iff.mp h
    rw [readValue_congr (skipLayout_skipLayout _)] at hread
    obtain ⟨before, text, more, written, rfl, hbefore, hvalue, rfl, rfl⟩ := ih.value houter hread
    split at h
    next hcomma =>
      obtain ⟨behind, more, rfl, hbehind, rfl⟩ := exists_of_skipLayout_eq_cons hcomma
      obtain ⟨text', after, rfl, rfl, ⟨hfirst, _⟩ | ⟨trees, htrees, rfl⟩⟩ := ih.items houter h
      · cases hfirst
      · refine ⟨before ++ (text ++ behind) ++ ',' :: text', after, by simp, rfl,
          .inr ⟨written :: trees, .nextItem (.element hbefore hvalue hbehind) htrees, ?_⟩⟩
        simp
    next hbracket =>
      obtain ⟨behind, after, rfl, hbehind, rfl⟩ := exists_of_skipLayout_eq_cons hbracket
      obtain ⟨rfl, rfl⟩ := Prod.mk.inj (Option.some.inj h)
      refine ⟨before ++ (text ++ behind), after, by simp, rfl,
        .inr ⟨[written], .lastItem (.element hbefore hvalue hbehind), ?_⟩⟩
      simp
    next => cases h

theorem Conforms.members_succ {read : List (Option String × Tree)}
    (h : readMembers (fuel + 1) outer first read (cs.map some) = some (tree, rest)) :
    MembersAt outer first read cs tree rest := by
  rw [readMembers.eq_def] at h
  simp only at h
  split at h
  next heq =>
    obtain ⟨inside, after, rfl, hinside, rfl⟩ := exists_of_skipLayout_eq_cons heq
    obtain ⟨rfl, rfl⟩ := Prod.mk.inj (Option.some.inj h)
    exact ⟨inside, after, rfl, rfl, .inl ⟨rfl, hinside, rfl⟩⟩
  next heq =>
    obtain ⟨before, more, rfl, hbefore, rfl⟩ := exists_of_skipLayout_eq_cons heq
    obtain ⟨⟨denoted, left⟩, hread, h⟩ := Option.bind_eq_some_iff.mp h
    obtain ⟨key, body, more, rfl, hkey, rfl, rfl⟩ := exists_of_readString hread
    split at h
    next hcolon =>
      obtain ⟨behind, more, rfl, hbehind, rfl⟩ := exists_of_skipLayout_eq_cons hcolon
      obtain ⟨⟨value, left⟩, hread, h⟩ := Option.bind_eq_some_iff.mp h
      obtain ⟨gap, text, more, written, rfl, hgap, hvalue, rfl, rfl⟩ := ih.value houter hread
      split at h
      next hcomma =>
        obtain ⟨last, more, rfl, hlast, rfl⟩ := exists_of_skipLayout_eq_cons hcomma
        obtain ⟨text', after, rfl, rfl, ⟨hfirst, _⟩ | ⟨members, hmembers, rfl⟩⟩ :=
          ih.members houter h
        · cases hfirst
        · refine ⟨_, after, ?_, rfl, .inr ⟨_, .nextMember (.member hbefore hkey hbehind
            (.element hgap hvalue hlast)) hmembers, ?_⟩⟩
          · simp
          · simp
      next hbrace =>
        obtain ⟨last, after, rfl, hlast, rfl⟩ := exists_of_skipLayout_eq_cons hbrace
        obtain ⟨rfl, rfl⟩ := Prod.mk.inj (Option.some.inj h)
        refine ⟨_, after, ?_, rfl, .inr ⟨_, .lastMember (.member hbefore hkey hbehind
          (.element hgap hvalue hlast)), ?_⟩⟩
        · simp
        · simp
      next => cases h
    next => cases h
  next => cases h

end Step

/-- What is read follows the grammar. -/
theorem conforms (fuel : Nat) : Conforms fuel := by
  induction fuel with
  | zero =>
      exact ⟨fun _ h => (nomatch h), fun _ h => (nomatch h), fun _ h => (nomatch h)⟩
  | succ fuel ih =>
      exact ⟨fun houter h => ih.value_succ houter h, fun houter h => ih.items_succ houter h,
        fun houter h => ih.members_succ houter h⟩

/-- **A text is read exactly if it follows the grammar**, as the tree that it is written for, as far
as the tree is built. -/
theorem Tree.ofText?_eq_some_iff {s : String} {tree : Tree} :
    Tree.ofText? s = some tree ↔
      ∃ written, Spells (.element written) s.toList ∧ tree = written.cut greatestDepth := by
  constructor
  · intro h
    obtain ⟨⟨built, rest⟩, hread, h⟩ := Option.bind_eq_some_iff.mp h
    obtain ⟨before, text, after, written, hcs, hbefore, hvalue, rfl, rfl⟩ :=
      (conforms _).value (Nat.zero_le greatestDepth) hread
    obtain ⟨behind, left, rfl, hbehind, hskip⟩ := exists_skipLayout after
    simp only [hskip] at h
    cases left with
    | nil =>
        rw [List.append_nil] at hcs
        exact ⟨written, hcs ▸ .element hbefore hvalue hbehind, (Option.some.inj h).symm⟩
    | cons c left => cases h
  · rintro ⟨written, hwritten, rfl⟩
    exact Tree.ofSymbols?_of_spells hwritten

end DiceTable.Json
