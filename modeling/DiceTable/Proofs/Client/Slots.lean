import DiceTable.Proofs.Client.Run

/-!
# What a client holds on to

A client keeps a connection, the listening to it, the dialling and the command that waits in slots
of their own, and the session machine keeps a deadline.  All of them follow the state of the
session: `Coherent` says how, and it holds of every reachable client.

No handler looks at a slot before it fills it, and none says that it was empty.  That nothing is
lost when a slot is filled is therefore a fact about runs.
-/

namespace DiceTable.Client

/-- The slots are filled as the state of the session says. -/
structure Coherent (c : Client) : Prop where
  link_iff : c.link.isSome ↔ c.machine.state.isConnected
  listener_iff : c.listener.isSome ↔ c.machine.state.isConnected
  dialer_iff : c.dialer.isSome ↔ c.machine.state = .connecting
  pending_iff : c.pending.isSome ↔ c.machine.state = .connecting
  deadline_iff : c.machine.deadline.isSome ↔ c.machine.state = .connecting
  pending_current : ∀ p, c.pending = some p → p.attempt = c.machine.attempt
  deadline_current : ∀ d, c.machine.deadline = some d → d.attempt = c.machine.attempt

namespace Coherent

variable {config : Config} {m : Moment} {input : Input} {c c' : Client} {effects : List Effect}

theorem new (config : Config) : (Client.new config).Coherent := by
  constructor <;> simp [Client.new, Machine.new, SessionState.isConnected]

theorem pending_eq_none (h : c.Coherent) (hstate : c.machine.state ≠ .connecting) :
    c.pending = none := by
  rw [← Option.not_isSome_iff_eq_none, h.pending_iff]
  exact hstate

theorem link_eq_none (h : c.Coherent) (hstate : c.machine.state.isConnected = false) :
    c.link = none := by
  rw [← Option.not_isSome_iff_eq_none, h.link_iff, hstate]
  exact Bool.false_ne_true

theorem listener_eq_none (h : c.Coherent) (hstate : c.machine.state.isConnected = false) :
    c.listener = none := by
  rw [← Option.not_isSome_iff_eq_none, h.listener_iff, hstate]
  exact Bool.false_ne_true

theorem dialer_eq_none (h : c.Coherent) (hstate : c.machine.state ≠ .connecting) :
    c.dialer = none := by
  rw [← Option.not_isSome_iff_eq_none, h.dialer_iff]
  exact hstate

theorem deadline_eq_none (h : c.Coherent) (hstate : c.machine.state ≠ .connecting) :
    c.machine.deadline = none := by
  rw [← Option.not_isSome_iff_eq_none, h.deadline_iff]
  exact hstate

/-- Between two attempts all slots are empty. -/
theorem of_inactive (hstate : c.machine.state.isActive = false)
    (hdeadline : c.machine.deadline = none) (hlink : c.link = none) (hlistener : c.listener = none)
    (hdialer : c.dialer = none) (hpending : c.pending = none) : c.Coherent := by
  have hconnecting : c.machine.state ≠ .connecting := by
    intro h
    simp [h, SessionState.isActive] at hstate
  have hconnected : c.machine.state.isConnected = false := by
    cases h : c.machine.state <;> simp_all [SessionState.isActive, SessionState.isConnected]
  constructor <;> simp [*]

/-- The feed and the last message are none of the slots. -/
theorem of_same (h : c.Coherent) (hmachine : c'.machine = c.machine) (hlink : c'.link = c.link)
    (hlistener : c'.listener = c.listener) (hdialer : c'.dialer = c.dialer)
    (hpending : c'.pending = c.pending) : c'.Coherent := by
  -- All seven facts are about these five components alone.
  obtain ⟨_, _, _, _, _, _, _⟩ := h
  constructor <;> simpa only [hmachine, hlink, hlistener, hdialer, hpending]

theorem dialing (h : c.Coherent) (hinactive : c.machine.state.isActive = false) (ticket : Ticket)
    (credentials : Credentials) : (c.dialing m ticket credentials).Coherent := by
  have hconnected : c.machine.state.isConnected = false := by
    cases hstate : c.machine.state <;> simp_all [SessionState.isActive, SessionState.isConnected]
  have hlink := h.link_eq_none hconnected
  have hlistener := h.listener_eq_none hconnected
  constructor <;> simp [Client.dialing, hlink, hlistener, SessionState.isConnected]

theorem linked (h : c.Coherent) (link : LinkId) (table : TableId) {reply : Reply} :
    ((c.linked link table).resolve c.machine.attempt reply).1.Coherent := by
  have hpending : ∀ p, (c.linked link table).pending = some p → p.attempt = c.machine.attempt :=
    h.pending_current
  rw [resolve_of_current hpending]
  constructor <;> simp [Client.linked, SessionState.isConnected]

theorem failed (h : c.Coherent) (hstate : c.machine.state = .connecting) (reason : String)
    {reply : Reply} : ((c.failed reason).resolve c.machine.attempt reply).1.Coherent := by
  have hpending : ∀ p, (c.failed reason).pending = some p → p.attempt = c.machine.attempt :=
    h.pending_current
  have hconnected : c.machine.state.isConnected = false := by rw [hstate]; rfl
  rw [resolve_of_current hpending]
  exact of_inactive rfl rfl (h.link_eq_none hconnected) (h.listener_eq_none hconnected) rfl rfl

theorem released (h : c.Coherent) {reply : Reply} :
    (c.released.resolve c.machine.attempt reply).1.Coherent := by
  have hpending : ∀ p, c.released.pending = some p → p.attempt = c.machine.attempt :=
    h.pending_current
  rw [resolve_of_current hpending]
  exact of_inactive rfl rfl rfl rfl rfl rfl

theorem unlinked (h : c.Coherent) {table : TableId} (hstate : c.machine.state = .connected table) :
    c.unlinked.Coherent := by
  have hconnecting : c.machine.state ≠ .connecting := by simp [hstate]
  exact of_inactive rfl (h.deadline_eq_none hconnecting) rfl rfl (h.dialer_eq_none hconnecting)
    (h.pending_eq_none hconnecting)

theorem teardown (h : c.Coherent) : c.teardown.1.Coherent := by
  refine of_inactive c.machine.isActive_disconnect ?_ rfl rfl rfl rfl
  show c.machine.disconnect.1.deadline = none
  cases hactive : c.machine.state.isActive with
  | true => rw [Machine.disconnect_of_active hactive, Machine.settle_deadline]
  | false =>
      have hconnecting : c.machine.state ≠ .connecting := by
        intro hstate
        simp [hstate, SessionState.isActive] at hactive
      rw [Machine.disconnect_of_inactive hactive]
      exact h.deadline_eq_none hconnecting

/-- Every turn keeps the slots and the state in step. -/
theorem step (h : c.Coherent) (hhandled : Handled config m c input c' effects) : c'.Coherent := by
  cases hhandled with
  | connectStarted _ _ hinactive => exact h.dialing hinactive _ _
  | disconnected => exact h.released
  | shutdown => exact h.teardown
  | abandoned => exact h.teardown
  | linked => exact h.linked _ _
  | failed _ hstate => exact h.failed hstate _
  | timedOut _ hstate => exact h.failed hstate _
  | lost _ hstate => exact h.unlinked hstate
  | cleared => exact h.of_same rfl rfl rfl rfl rfl
  | frameUnreadable => exact h.of_same rfl rfl rfl rfl rfl
  | delivered => exact h.of_same rfl rfl rfl rfl rfl
  | ingested => exact h.of_same rfl rfl rfl rfl rfl
  | _ => exact h

end Coherent

theorem Reachable.coherent {config : Config} {c : Client} (h : Reachable config c) : c.Coherent :=
  h.induction (Coherent.new config) fun c t hc => hc.step (handled_next config c t)

theorem isActive_step {config : Config} {m : Moment} {input : Input} {c c' : Client}
    {effects : List Effect} (h : c.running = false → c.machine.state.isActive = false)
    (hhandled : Handled config m c input c' effects) (hstopped : c'.running = false) :
    c'.machine.state.isActive = false := by
  -- Only a teardown stops a client, and it ends the session too.
  cases hhandled with
  | refused hstopped => exact h hstopped
  | shutdown => exact c.machine.isActive_disconnect
  | abandoned => exact c.machine.isActive_disconnect
  | _ hrunning =>
      simp [dialing, linked, failed, unlinked, released, delivered, hrunning] at hstopped

/-- A client that has stopped has no session. -/
theorem Reachable.isActive_of_stopped {config : Config} {c : Client} (h : Reachable config c) :
    c.running = false → c.machine.state.isActive = false := by
  refine h.induction (P := fun c => c.running = false → c.machine.state.isActive = false) ?_ ?_
  · intro hstopped
    simp [new] at hstopped
  · intro c t hc
    exact isActive_step hc (handled_next config c t)

theorem Reachable.running_of_isLive {config : Config} {c : Client} (h : Reachable config c)
    {attempt : Attempt} (hlive : c.machine.isLive attempt = true) : c.running = true := by
  cases hrunning : c.running with
  | true => rfl
  | false =>
      have hinactive := h.isActive_of_stopped hrunning
      rw [Machine.isLive, Bool.and_eq_true] at hlive
      cases hstate : c.machine.state <;>
        simp [hstate, SessionState.isActive, SessionState.isConnected] at hinactive hlive

/-- **The slots follow the state.**  In every run, before and after the client stops, it has a
connection exactly while it listens and exactly while the session is connected; it dials exactly
while a command waits, while a deadline is armed and while the session is connecting; and the
command and the deadline belong to the current attempt. -/
theorem slots_follow_state (config : Config) (turns : List Turn) :
    let c := (new config).after config turns
    ((c.link.isSome ↔ c.listener.isSome) ∧ (c.listener.isSome ↔ c.machine.state.isConnected)) ∧
      ((c.dialer.isSome ↔ c.pending.isSome) ∧ (c.pending.isSome ↔ c.machine.deadline.isSome) ∧
        (c.machine.deadline.isSome ↔ c.machine.state = .connecting)) ∧
      (∀ p, c.pending = some p → p.attempt = c.machine.attempt) ∧
      ∀ d, c.machine.deadline = some d → d.attempt = c.machine.attempt := by
  intro c
  have h : c.Coherent := (reachable_after config turns).coherent
  refine ⟨⟨h.link_iff.trans h.listener_iff.symm, h.listener_iff⟩,
    ⟨h.dialer_iff.trans h.pending_iff.symm, h.pending_iff.trans h.deadline_iff.symm,
      h.deadline_iff⟩, h.pending_current, h.deadline_current⟩

end DiceTable.Client
