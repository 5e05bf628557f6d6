import DiceTable.Proofs.Client.Run

/-!
# Reports of other attempts

A client numbers its attempts, and what it has started for one of them may report long after the
next has begun.  Each kind of report has a check of its own against that: three are made by the
session machine, one compares the numbers, and one asks whether the attempt is live.  All of them
come to the same (`Handled.of_stale`): a report of another attempt than the current one leaves the
client as it was.

For runs this means that such reports are not there at all.  `StaleAdded` relates a run to the runs
that have some more of them, anywhere.  Since the client is the same before and after each, the rest
of the run goes on as without it, and the induction over the run needs no relation between the two
clients other than equality.
-/

namespace DiceTable

/-- The attempt that a report belongs to. -/
def Report.attempt : Report → Attempt
  | .connected k _ => k
  | .connectFailed k _ => k
  | .frame k _ => k
  | .closed k _ => k
  | .ingested k _ _ _ => k

/-- Whether the report is about a connection.  The others answer a submission. -/
def Report.isOfLink : Report → Bool
  | .ingested _ _ _ _ => false
  | _ => true

/-- Whether the effect reaches the user: an event, or a reply, which may be a snapshot. -/
def Effect.isShown : Effect → Bool
  | .emit _ => true
  | .reply _ _ => true
  | _ => false

/-- What the user sees of these effects, in order. -/
def shown (effects : List Effect) : List Effect := effects.filter Effect.isShown

@[simp] theorem shown_append (effects later : List Effect) :
    shown (effects ++ later) = shown effects ++ shown later :=
  List.filter_append effects later

namespace Client

variable {config : Config} {m : Moment} {c c' : Client} {effects : List Effect} {report : Report}

/-! ## One report -/

/-- An attempt that is in flight or live is the current one, so every handler is in its last
branch. -/
theorem Handled.of_stale (hstale : report.attempt ≠ c.machine.attempt)
    (hhandled : Handled config m c (.report report) c' effects) :
    c' = c ∧ (report.isOfLink = true → shown effects = []) := by
  have hlive {k : Attempt} (h : c.machine.isLive k = true) : k = c.machine.attempt := by
    rw [Machine.isLive, Bool.and_eq_true, beq_iff_eq] at h
    exact h.1.symm
  cases hhandled with
  | refused =>
      refine ⟨rfl, fun hlink => ?_⟩
      cases report with
      | ingested => simp [Report.isOfLink] at hlink
      | _ => rfl
  | linkLate => exact ⟨rfl, fun _ => rfl⟩
  | failureLate => exact ⟨rfl, fun _ => rfl⟩
  | frameLate => exact ⟨rfl, fun _ => rfl⟩
  | lossLate => exact ⟨rfl, fun _ => rfl⟩
  | ingestFailed => exact ⟨rfl, fun hlink => by simp [Report.isOfLink] at hlink⟩
  | ingestLate => exact ⟨rfl, fun hlink => by simp [Report.isOfLink] at hlink⟩
  | ingestKnown _ hcurrent => exact absurd (hlive hcurrent) hstale
  | ingested _ hcurrent => exact absurd (hlive hcurrent) hstale
  | _ => exact absurd rfl hstale

/-! ## Runs with more reports -/

/-- The turn brings a report about a connection, and not one of the current attempt. -/
def IsStale (c : Client) (t : Turn) : Prop :=
  ∃ report, t.input = .report report ∧ report.isOfLink = true ∧
    report.attempt ≠ c.machine.attempt

/-- From this client on, the second run is the first one with stale reports added anywhere. -/
inductive StaleAdded (config : Config) : Client → List Turn → List Turn → Prop where
  | nil (c : Client) : StaleAdded config c [] []
  | turn {c : Client} (t : Turn) {turns padded : List Turn}
      (h : StaleAdded config (c.next config t) turns padded) :
      StaleAdded config c (t :: turns) (t :: padded)
  | stale {c : Client} {t : Turn} (hstale : c.IsStale t) {turns padded : List Turn}
      (h : StaleAdded config c turns padded) : StaleAdded config c turns (t :: padded)

theorem IsStale.next_eq {t : Turn} (h : c.IsStale t) : c.next config t = c := by
  obtain ⟨report, hinput, _, hstale⟩ := h
  have hhandled := handled_next config c t
  rw [hinput] at hhandled
  exact (hhandled.of_stale hstale).1

theorem IsStale.shown_effectsOf {t : Turn} (h : c.IsStale t) :
    shown (c.effectsOf config t) = [] := by
  obtain ⟨report, hinput, hlink, hstale⟩ := h
  have hhandled := handled_next config c t
  rw [hinput] at hhandled
  exact (hhandled.of_stale hstale).2 hlink

namespace StaleAdded

variable {turns padded : List Turn}

theorem after_eq (h : StaleAdded config c turns padded) :
    c.after config padded = c.after config turns := by
  induction h with
  | nil => rfl
  | turn t h ih => exact ih
  | stale hstale h ih => rw [after_cons, hstale.next_eq, ih]

theorem shown_effects (h : StaleAdded config c turns padded) :
    shown (c.effects config padded) = shown (c.effects config turns) := by
  induction h with
  | nil => rfl
  | turn t h ih => rw [effects_cons, effects_cons, shown_append, shown_append, ih]
  | stale hstale h ih =>
      rw [effects_cons, shown_append, hstale.shown_effectsOf, hstale.next_eq, ih, List.nil_append]

end StaleAdded

/-- **Stale reports are invisible.**  Whatever a client has been through, a report of another
attempt than the current one leaves all of it as it was; and unless the report answers a
submission, the user sees nothing of it, neither an event nor a reply.  So a run to which any
number of such reports is added, at any points, ends in the same client, and shows the user the
same events, replies and snapshots in the same order. -/
theorem stale_reports_are_invisible (config : Config) (turns : List Turn) :
    let c := (new config).after config turns
    (∀ m report, report.attempt ≠ c.machine.attempt →
        c.next config ⟨m, .report report⟩ = c ∧
          (report.isOfLink = true → shown (c.effectsOf config ⟨m, .report report⟩) = [])) ∧
      ∀ padded, StaleAdded config (new config) turns padded →
        (new config).after config padded = c ∧
          shown ((new config).effects config padded) =
            shown ((new config).effects config turns) := by
  intro c
  constructor
  · intro m report hstale
    exact (handled_next config c ⟨m, .report report⟩).of_stale hstale
  · intro padded hpadded
    exact ⟨hpadded.after_eq, hpadded.shown_effects⟩

end Client

end DiceTable
