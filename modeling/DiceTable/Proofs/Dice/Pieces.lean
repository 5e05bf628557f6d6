import DiceTable.Proofs.Dice.Reading

/-!
# The pieces of a formula

A text is cut before every sign.  The pieces are not empty, each but the first begins with a sign,
and no piece has a sign anywhere else; there is only one such cut (`isCut_iff`).  It follows that
two texts may be cut one by one, if the second begins with a sign (`pieces_append`).

What the pieces give is gathered from left to right, until one of them has a fault (`gather`).
-/

namespace DiceTable.Formula

variable {cs ds : List Char} {ps qs : List (List Char)}

/-! ## The cut -/

/-- The pieces of a text: they make it up, none is empty, and a sign begins a piece, each piece but
the first, and stands nowhere else. -/
structure IsCut (cs : List Char) (ps : List (List Char)) : Prop where
  flatten_eq : ps.flatten = cs
  ne_nil : ∀ p ∈ ps, p ≠ []
  isSign_tail : ∀ p ∈ ps, ∀ c ∈ p.tail, isSign c = false
  isSign_head : ∀ p ∈ ps.tail, EndsBefore p

theorem endsBefore_append (hcs : EndsBefore cs) (hds : EndsBefore ds) : EndsBefore (cs ++ ds) := by
  cases cs with
  | nil => exact hds
  | cons c cs => exact hcs

theorem endsBefore_flatten (h : ∀ p ∈ ps, EndsBefore p) : EndsBefore ps.flatten := by
  induction ps with
  | nil =>
      intro c hc
      cases hc
  | cons p ps ih =>
      rw [List.flatten_cons]
      exact endsBefore_append (h p List.mem_cons_self)
        (ih fun q hq => h q (List.mem_cons_of_mem _ hq))

theorem IsCut.pieces_eq (h : IsCut cs ps) : pieces cs = ps := by
  induction ps generalizing cs with
  | nil =>
      rw [← h.flatten_eq]
      rfl
  | cons p ps ih =>
      have hrest : IsCut ps.flatten ps :=
        { flatten_eq := rfl
          ne_nil := fun q hq => h.ne_nil q (List.mem_cons_of_mem _ hq)
          isSign_tail := fun q hq => h.isSign_tail q (List.mem_cons_of_mem _ hq)
          isSign_head := fun q hq => h.isSign_head q (List.mem_of_mem_tail hq) }
      cases p with
      | nil => exact absurd rfl (h.ne_nil [] List.mem_cons_self)
      | cons c body =>
          have hbody : ∀ d ∈ body, isSign d = false := h.isSign_tail (c :: body) List.mem_cons_self
          have hnext : EndsBefore ps.flatten := endsBefore_flatten h.isSign_head
          rw [← h.flatten_eq, List.flatten_cons, List.cons_append, pieces_cons_append c hbody hnext,
            ih hrest]

/-- A character in front begins a piece of its own or joins the first one. -/
theorem IsCut.consPiece (c : Char) (h : IsCut cs ps) : IsCut (c :: cs) (consPiece c ps) := by
  unfold Formula.consPiece
  split
  next d piece rest =>
    have htail : ∀ e ∈ piece, isSign e = false := h.isSign_tail (d :: piece) List.mem_cons_self
    have hrest : ∀ p ∈ rest, EndsBefore p := h.isSign_head
    split
    next hd =>
      refine ⟨congrArg (c :: ·) h.flatten_eq, ?_, ?_, ?_⟩
      · exact List.forall_mem_cons.mpr ⟨List.cons_ne_nil _ _, h.ne_nil⟩
      · exact List.forall_mem_cons.mpr ⟨by simp, h.isSign_tail⟩
      · refine List.forall_mem_cons.mpr ⟨fun e he => ?_, hrest⟩
        cases he
        exact hd
    next hd =>
      refine ⟨congrArg (c :: ·) h.flatten_eq, ?_, ?_, hrest⟩
      · exact List.forall_mem_cons.mpr
          ⟨List.cons_ne_nil _ _, fun p hp => h.ne_nil p (List.mem_cons_of_mem _ hp)⟩
      · refine List.forall_mem_cons.mpr
          ⟨?_, fun p hp => h.isSign_tail p (List.mem_cons_of_mem _ hp)⟩
        exact List.forall_mem_cons.mpr ⟨by simpa using hd, htail⟩
  next hempty =>
    -- There is no first piece, since a piece is not empty.
    cases ps with
    | cons p rest =>
        cases p with
        | nil => exact absurd rfl (h.ne_nil [] List.mem_cons_self)
        | cons d piece => exact absurd rfl (hempty d piece rest)
    | nil =>
        obtain rfl : [] = cs := h.flatten_eq
        exact ⟨rfl, by simp, by simp, by simp⟩

theorem isCut_pieces (cs : List Char) : IsCut cs (pieces cs) := by
  induction cs with
  | nil => exact ⟨rfl, by simp [pieces], by simp [pieces], by simp [pieces]⟩
  | cons c cs ih => exact ih.consPiece c

/-- A text has one cut and no other. -/
theorem isCut_iff : IsCut cs ps ↔ ps = pieces cs := by
  constructor
  · exact fun h => h.pieces_eq.symm
  · rintro rfl
    exact isCut_pieces cs

/-- Cuts are put together where the second text begins with a sign. -/
theorem IsCut.append (hcs : IsCut cs ps) (hds : IsCut ds qs) (hsign : EndsBefore ds) :
    IsCut (cs ++ ds) (ps ++ qs) := by
  have hqs : ∀ q ∈ qs, EndsBefore q := by
    cases qs with
    | nil => simp
    | cons q qs =>
        refine List.forall_mem_cons.mpr ⟨fun c hc => hsign c ?_, hds.isSign_head⟩
        cases q with
        | nil => cases hc
        | cons d body =>
            rw [← hds.flatten_eq]
            exact hc
  refine ⟨by rw [List.flatten_append, hcs.flatten_eq, hds.flatten_eq], ?_, ?_, ?_⟩
  · exact List.forall_mem_append.mpr ⟨hcs.ne_nil, hds.ne_nil⟩
  · exact List.forall_mem_append.mpr ⟨hcs.isSign_tail, hds.isSign_tail⟩
  · cases ps with
    | nil => exact hds.isSign_head
    | cons p ps => exact List.forall_mem_append.mpr ⟨hcs.isSign_head, hqs⟩

theorem pieces_append (cs : List Char) (hsign : EndsBefore ds) :
    pieces (cs ++ ds) = pieces cs ++ pieces ds :=
  ((isCut_pieces cs).append (isCut_pieces ds) hsign).pieces_eq

theorem pieces_eq_nil_iff : pieces cs = [] ↔ cs = [] := by
  constructor
  · intro h
    rw [← (isCut_pieces cs).flatten_eq, h]
    rfl
  · rintro rfl
    rfl

/-! ## What the pieces give -/

/-- The terms of the pieces, in order, up to the first fault. -/
def gather : List (List Char) → Except DiceFault (List Term)
  | [] => .ok []
  | p :: ps => do
    let read ← readPiece p
    let terms ← gather ps
    return read.toList ++ terms

theorem gather_cons_error {p : List Char} {fault : DiceFault} (h : readPiece p = .error fault) :
    gather (p :: ps) = .error fault := by
  rw [gather, h]
  rfl

theorem gather_cons_eq_ok_iff {p : List Char} {read : Option Term} {terms : List Term}
    (h : readPiece p = .ok read) :
    gather (p :: ps) = .ok terms ↔
      ∃ others, gather ps = .ok others ∧ terms = read.toList ++ others := by
  rw [gather, h]
  cases gather ps with
  | error fault =>
      constructor
      · rintro ⟨⟩
      · rintro ⟨_, ⟨⟩, -⟩
  | ok others =>
      constructor
      · rintro ⟨⟩
        exact ⟨others, rfl, rfl⟩
      · rintro ⟨_, ⟨⟩, rfl⟩
        rfl

theorem gather_cons_eq_error_iff {p : List Char} {read : Option Term} {fault : DiceFault}
    (h : readPiece p = .ok read) :
    gather (p :: ps) = .error fault ↔ gather ps = .error fault := by
  rw [gather, h]
  cases gather ps with
  | error other => exact Iff.rfl
  | ok others =>
      constructor
      · rintro ⟨⟩
      · rintro ⟨⟩

theorem gather_eq (ps : List (List Char)) :
    gather ps = (ps.mapM readPiece).map List.reduceOption := by
  induction ps with
  | nil => rfl
  | cons p ps ih =>
      rw [gather, List.mapM_cons, ih]
      cases readPiece p with
      | error fault => rfl
      | ok read =>
          cases ps.mapM readPiece with
          | error fault => rfl
          | ok others => cases read <;> rfl

theorem gather_append (ps qs : List (List Char)) :
    gather (ps ++ qs) = (do
      let terms ← gather ps
      let others ← gather qs
      return terms ++ others) := by
  induction ps with
  | nil => cases h : gather qs <;> simp [gather, h] <;> rfl
  | cons p ps ih =>
      rw [List.cons_append, gather, gather, ih]
      cases readPiece p with
      | error fault => rfl
      | ok read =>
          cases gather ps with
          | error fault => rfl
          | ok terms =>
              cases gather qs with
              | error fault => rfl
              | ok others => exact congrArg Except.ok (List.append_assoc _ _ _).symm

/-- A text is read by gathering its terms; it needs a character, and it needs a term. -/
theorem readTerms_eq (cs : List Char) :
    readTerms cs =
      if cs = [] then .error .empty
      else do
        let terms ← gather (pieces cs)
        if terms = [] then .error .unusable else return terms := by
  rw [readTerms, gather_eq]
  simp only [List.isEmpty_iff]
  cases (pieces cs).mapM readPiece <;> rfl

theorem readTerms_of_error {fault : DiceFault} (h : gather (pieces cs) = .error fault) :
    readTerms cs = .error fault := by
  have hcs : cs ≠ [] := by
    rintro rfl
    cases h
  rw [readTerms_eq, if_neg hcs, h]
  rfl

theorem readTerms_of_ok {terms : List Term} (h : gather (pieces cs) = .ok terms) :
    readTerms cs =
      if cs = [] then .error .empty else if terms = [] then .error .unusable else .ok terms := by
  rw [readTerms_eq, h]
  rfl

/-- Terms are read if terms are gathered. -/
theorem readTerms_eq_ok_iff {terms : List Term} :
    readTerms cs = .ok terms ↔ terms ≠ [] ∧ gather (pieces cs) = .ok terms := by
  cases h : gather (pieces cs) with
  | error fault => simp [readTerms_of_error h]
  | ok others =>
      rw [readTerms_of_ok h]
      by_cases hcs : cs = []
      · subst hcs
        cases h
        simp [eq_comm]
      · by_cases hothers : others = []
        · simp [hcs, hothers, eq_comm]
        · simp only [if_neg hcs, if_neg hothers, Except.ok.injEq]
          exact ⟨fun heq => ⟨heq ▸ hothers, heq⟩, And.right⟩

/-- What is read is a fault of a piece, or there is no character, or no term. -/
theorem readTerms_eq_error_iff {fault : DiceFault} :
    readTerms cs = .error fault ↔
      gather (pieces cs) = .error fault ∨
        gather (pieces cs) = .ok [] ∧ fault = if cs = [] then .empty else .unusable := by
  cases h : gather (pieces cs) with
  | error other => simp [readTerms_of_error h]
  | ok terms =>
      rw [readTerms_of_ok h]
      by_cases hcs : cs = []
      · subst hcs
        cases h
        simp [eq_comm]
      · by_cases hterms : terms = []
        · simp [hcs, hterms, eq_comm]
        · simp [hcs, hterms]

/-- What the pieces of a formula give. -/
def gathered (formula : String) : Except DiceFault (List Term) :=
  gather (pieces (normalize formula))

theorem parse_eq_ok_iff {formula : String} {terms : List Term} :
    parse formula = .ok terms ↔ terms ≠ [] ∧ gathered formula = .ok terms := by
  rw [gathered, ← readTerms_eq_ok_iff]
  refine ⟨readTerms_of_parse, fun h => ?_⟩
  rw [parse, h]
  rfl

theorem parse_eq_error_iff {formula : String} {fault : DiceFault} :
    parse formula = .error ⟨formula, fault⟩ ↔
      gathered formula = .error fault ∨
        gathered formula = .ok [] ∧
          fault = if normalize formula = [] then .empty else .unusable := by
  rw [gathered, ← readTerms_eq_error_iff, parse]
  cases readTerms (normalize formula) <;> simp [Except.mapError]

end DiceTable.Formula
