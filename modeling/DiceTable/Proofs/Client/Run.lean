import DiceTable.Proofs.Client.Step

/-!
# Runs of a client

A client takes its inputs in *turns*.  A run is any list of turns from a new client: commands,
reports and deadlines come in any order, and reports and deadlines name any attempt.
-/

namespace DiceTable

/-- An input, and the circumstances in which it is handled. -/
structure Turn where
  moment : Moment
  input : Input

namespace Client

/-- The client after one turn. -/
def next (config : Config) (c : Client) (t : Turn) : Client := (c.step config t.moment t.input).1

/-- What the client does in one turn. -/
def effectsOf (config : Config) (c : Client) (t : Turn) : List Effect :=
  (c.step config t.moment t.input).2

/-- The client after these turns. -/
def after (config : Config) (c : Client) (turns : List Turn) : Client :=
  turns.foldl (next config) c

/-- What the client does in these turns, in order. -/
def effects (config : Config) : Client → List Turn → List Effect
  | _, [] => []
  | c, t :: turns => c.effectsOf config t ++ effects config (c.next config t) turns

section Lists

variable (config : Config) (c : Client) (t : Turn) (turns later : List Turn)

@[simp] theorem after_cons :
    c.after config (t :: turns) = (c.next config t).after config turns := rfl

@[simp] theorem after_append :
    c.after config (turns ++ later) = (c.after config turns).after config later :=
  List.foldl_append

@[simp] theorem effects_cons :
    c.effects config (t :: turns) =
      c.effectsOf config t ++ (c.next config t).effects config turns := rfl

@[simp] theorem effects_append :
    c.effects config (turns ++ later) =
      c.effects config turns ++ (c.after config turns).effects config later := by
  induction turns generalizing c with
  | nil => rfl
  | cons t turns ih => simp [ih]

end Lists

theorem handled_next (config : Config) (c : Client) (t : Turn) :
    Handled config t.moment c t.input (c.next config t) (c.effectsOf config t) :=
  handled_step config t.moment c t.input

/-- What every turn of a kind keeps, all turns of that kind keep. -/
theorem after_induction {config : Config} {P : Client → Prop} (Fits : Turn → Prop)
    (hstep : ∀ c t, P c → Fits t → P (c.next config t)) {c : Client} (hc : P c)
    {turns : List Turn} (hturns : ∀ t ∈ turns, Fits t) : P (c.after config turns) := by
  induction turns generalizing c with
  | nil => exact hc
  | cons t turns ih =>
      rw [List.forall_mem_cons] at hturns
      exact ih (hstep c t hc hturns.1) hturns.2

/-- What every move of a session keeps, every turn keeps of the session of a client. -/
theorem machine_next {config : Config} {P : Machine → Prop}
    (hmove : ∀ m call m', P m → Machine.Move m call m' → P m') {c : Client} (h : P c.machine)
    (t : Turn) : P (c.next config t).machine := by
  rcases (handled_next config c t).machine with hsame | ⟨call, hcall⟩
  · rwa [hsame]
  · exact hmove _ call _ h hcall

theorem machine_after {config : Config} {P : Machine → Prop}
    (hmove : ∀ m call m', P m → Machine.Move m call m' → P m') {c : Client} (h : P c.machine)
    (turns : List Turn) : P (c.after config turns).machine :=
  after_induction (P := fun c => P c.machine) (fun _ => True)
    (fun _ t hc _ => machine_next hmove hc t) h fun _ _ => trivial

/-- The clients that a new client may become. -/
def Reachable (config : Config) (c : Client) : Prop :=
  ∃ turns, c = (new config).after config turns

theorem reachable_after (config : Config) (turns : List Turn) :
    Reachable config ((new config).after config turns) :=
  ⟨turns, rfl⟩

theorem Reachable.after {config : Config} {c : Client} (h : Reachable config c)
    (turns : List Turn) : Reachable config (c.after config turns) := by
  obtain ⟨past, rfl⟩ := h
  exact ⟨past ++ turns, (after_append config (new config) past turns).symm⟩

/-- What holds of a new client and is kept by every turn holds of every reachable client. -/
theorem Reachable.induction {config : Config} {P : Client → Prop} (hnew : P (new config))
    (hstep : ∀ c t, P c → P (c.next config t)) {c : Client} (h : Reachable config c) : P c := by
  obtain ⟨turns, rfl⟩ := h
  exact after_induction (fun _ => True) (fun c t hc _ => hstep c t hc) hnew fun _ _ => trivial

end Client

end DiceTable
