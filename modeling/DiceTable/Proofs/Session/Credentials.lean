import DiceTable.Proofs.Session.Transition

/-!
# The credentials behind a session

A connected session names its table twice: in its state and in the credentials of its attempt.
Only the start of an attempt stores credentials, and it validates them first; only a connection
names a table in the state, and it takes it from the credentials.  So the two agree in every
machine that a run comes to (`Vouched`), and a key that is read from the credentials belongs to the
table that is read from the state.
-/

namespace DiceTable.Machine

/-- Unless the session is idle, valid credentials are stored, and it is connected to no table but
theirs. -/
def Vouched (m : Machine) : Prop :=
  m.state ≠ .idle → ∃ c, m.credentials = some c ∧ c.validate = .ok () ∧
    ∀ table, m.state = .connected table → table = c.table

namespace Vouched

variable {m m' : Machine} {call : Call}

theorem new (timeout : Duration) : (Machine.new timeout).Vouched := fun h => absurd rfl h

/-- A machine that is not connected need not compare the tables. -/
theorem of_unconnected {c : Credentials} (hcredentials : m.credentials = some c)
    (hvalid : c.validate = .ok ()) (hstate : m.state.isConnected = false) : m.Vouched := by
  intro _
  refine ⟨c, hcredentials, hvalid, fun table htable => ?_⟩
  simp [htable, SessionState.isConnected] at hstate

/-- The credentials outlive the attempt. -/
theorem of_same (h : m.Vouched) (hidle : m.state ≠ .idle) (hsame : m'.credentials = m.credentials)
    (hstate : m'.state.isConnected = false) : m'.Vouched := by
  obtain ⟨c, hstored, hvalid, _⟩ := h hidle
  exact of_unconnected (hsame.trans hstored) hvalid hstate

theorem move (h : m.Vouched) (hmove : Move m call m') : m'.Vouched := by
  cases hmove with
  | connect hvalid => exact of_unconnected rfl hvalid rfl
  | @transportConnected c hstate hcredentials =>
      obtain ⟨stored, hstored, hvalid, _⟩ := h (by simp [hstate])
      obtain rfl : c = stored := Option.some.inj (hcredentials.symm.trans hstored)
      intro _
      exact ⟨c, hstored, hvalid, fun table htable => (SessionState.connected.inj htable).symm⟩
  | transportFailed hstate => exact h.of_same (by simp [hstate]) rfl rfl
  | timedOut hstate => exact h.of_same (by simp [hstate]) rfl rfl
  | transportDisconnected hstate => exact h.of_same (by simp [hstate]) rfl rfl
  | disconnect hactive =>
      refine h.of_same ?_ rfl rfl
      intro hstate
      simp [hstate, SessionState.isActive] at hactive

/-- A connected session has the credentials of its table. -/
theorem table_eq (h : m.Vouched) {c : Credentials} {table : TableId}
    (hcredentials : m.credentials = some c) (hstate : m.state = .connected table) :
    table = c.table := by
  obtain ⟨stored, hstored, _, htable⟩ := h (by simp [hstate])
  obtain rfl : c = stored := Option.some.inj (hcredentials.symm.trans hstored)
  exact htable table hstate

/-- Without credentials no session is connected. -/
theorem unconnected_of_none (h : m.Vouched) (hnone : m.credentials = none) :
    m.state.isConnected = false := by
  by_cases hidle : m.state = .idle
  · rw [hidle]
    rfl
  · obtain ⟨c, hstored, -, -⟩ := h hidle
    rw [hnone] at hstored
    cases hstored

end Vouched

end DiceTable.Machine
