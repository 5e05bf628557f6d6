import DiceTable.Proofs.Session.Attempt
import DiceTable.Proofs.Session.Credentials

/-!
# A session is consistent at all times

The five fields of a session machine belong together: the deadline and the number of the attempt to
an attempt in flight, the credentials to every state but the first.  `Timed` says so of the
deadline and `Vouched` of the credentials.  Both are kept by each of the moves of the machine.

`Timed` looks back: the deadline is due when the timeout has passed since the call that started the
attempt, and not since the start of an earlier one.  So it is stated of a machine together with the
trace that led to it, and kept by one more entry.

That an attempt whose deadline has passed can be timed out, and that a connection is never refused
for want of credentials, follow from the two.
-/

namespace DiceTable.Machine

variable {timeout : Duration} {run : List Entry} {m m' : Machine} {call : Call}

/-! ## Every machine of a run -/

/-- What every move keeps holds after all calls. -/
theorem keeps_after {P : Machine → Prop} (hmove : ∀ m call m', P m → Move m call m' → P m')
    (hm : P m) (calls : List Call) : P (m.after calls) := by
  induction calls using List.reverseRecOn with
  | nil => exact hm
  | append_singleton calls call ih =>
      rw [after_concat]
      rcases (Entry.mk (m.after calls) call).spec with ⟨_, hstep⟩ | ⟨_, hsame⟩
      · exact hmove _ _ _ ih hstep
      · rwa [hsame]

theorem vouched_after (timeout : Duration) (calls : List Call) :
    ((new timeout).after calls).Vouched :=
  keeps_after (fun _ _ _ h hmove => h.move hmove) (.new timeout) calls

/-- With credentials in store, a connection can only come too late. -/
theorem Vouched.transportConnected_error (h : m.Vouched) {attempt : Attempt} {error : SessionError}
    (herror : (m.transportConnected attempt).2 = .error error) : error = .staleAttempt attempt := by
  unfold transportConnected at herror
  split at herror
  · rename_i hflight
    obtain ⟨_, hstate⟩ := isInFlight_iff.mp hflight
    obtain ⟨c, hcredentials, _⟩ := h (by simp [hstate])
    simp [hcredentials] at herror
  · exact (Except.error.inj herror).symm

/-! ## The deadline -/

/-- In this run, the attempt was started by a call at this time. -/
def StartedAt (run : List Entry) (attempt : Attempt) (now : Instant) : Prop :=
  ∃ e ∈ run, (∃ c, e.call = .connect now c) ∧ e.started? = some attempt

theorem StartedAt.concat {attempt : Attempt} {now : Instant} (h : StartedAt run attempt now)
    (e : Entry) : StartedAt (run ++ [e]) attempt now := by
  obtain ⟨earlier, hmem, hstarted⟩ := h
  exact ⟨earlier, List.mem_append_left _ hmem, hstarted⟩

/-- At the end of this run, the attempt in flight has the time that it is allowed, and nothing else
is timed. -/
structure Timed (timeout : Duration) (run : List Entry) (m : Machine) : Prop where
  timeout_eq : m.timeout = timeout
  armed : m.state = .connecting → ∃ now, StartedAt run m.attempt now ∧
    m.deadline = some ⟨m.attempt, now + timeout.nanoseconds⟩
  disarmed : m.state ≠ .connecting → m.deadline = none

namespace Timed

theorem new (timeout : Duration) : Timed timeout [] (new timeout) where
  timeout_eq := rfl
  armed := fun hstate => nomatch hstate
  disarmed := fun _ => rfl

/-- A machine without an attempt in flight needs no deadline. -/
theorem of_disarmed (htimeout : m.timeout = timeout) (hstate : m.state ≠ .connecting)
    (hdeadline : m.deadline = none) : Timed timeout run m where
  timeout_eq := htimeout
  armed := fun hconnecting => absurd hconnecting hstate
  disarmed := fun _ => hdeadline

theorem concat {e : Entry} (h : Timed timeout run e.before) :
    Timed timeout (run ++ [e]) e.next := by
  have hstarted := e.attempt_next
  rcases e.spec with ⟨_, hmove⟩ | ⟨_, hsame⟩
  · have hcall : e ∈ run ++ [e] := by simp
    revert hmove hstarted
    generalize hgiven : e.call = call, e.next = m'
    intro hstarted hmove
    cases hmove with
    | @connect now c =>
        have hnumber : e.started? = some (e.before.attempt + 1) := by
          rcases hstarted with ⟨hnumber, _⟩ | ⟨_, hsame⟩
          · exact hnumber
          · exact absurd hsame (Nat.succ_ne_self _)
        refine ⟨h.timeout_eq, fun _ => ⟨now, ⟨e, hcall, ⟨c, hgiven⟩, hnumber⟩, ?_⟩, ?_⟩
        · rw [begin_deadline, h.timeout_eq, begin_attempt]
        · exact fun hstate => absurd rfl hstate
    | transportDisconnected hstate =>
        exact of_disarmed h.timeout_eq (by simp) (h.disarmed (by simp [hstate]))
    | _ => exact of_disarmed h.timeout_eq (by simp) rfl
  · rw [hsame]
    refine ⟨h.timeout_eq, fun hstate => ?_, h.disarmed⟩
    obtain ⟨now, hstart, hdeadline⟩ := h.armed hstate
    exact ⟨now, hstart.concat e, hdeadline⟩

theorem isSome_deadline_iff (h : Timed timeout run m) :
    m.deadline.isSome ↔ m.state = .connecting := by
  by_cases hstate : m.state = .connecting
  · obtain ⟨now, _, hdeadline⟩ := h.armed hstate
    simp [hstate, hdeadline]
  · simp [hstate, h.disarmed hstate]

theorem of_deadline (h : Timed timeout run m) {d : Deadline} (hd : m.deadline = some d) :
    d.attempt = m.attempt ∧
      ∃ now, StartedAt run d.attempt now ∧ d.due = now + timeout.nanoseconds := by
  have hstate : m.state = .connecting := by rw [← h.isSome_deadline_iff, hd, Option.isSome_some]
  obtain ⟨now, hstart, hdeadline⟩ := h.armed hstate
  obtain rfl := Option.some.inj (hdeadline.symm.trans hd)
  exact ⟨rfl, now, hstart, rfl⟩

/-- An attempt whose deadline has passed is in flight. -/
theorem timedOut_of_overdue (h : Timed timeout run m) {now : Instant} {attempt : Attempt}
    (hoverdue : m.overdue? now = some attempt) :
    m.timedOut attempt = (m.settle (.failed SessionState.timeoutReason), .ok ()) := by
  obtain ⟨d, hd, hdue⟩ := Option.bind_eq_some_iff.mp hoverdue
  have hstate : m.state = .connecting := by rw [← h.isSome_deadline_iff, hd, Option.isSome_some]
  have hattempt : d.attempt = attempt := by
    split at hdue
    · exact Option.some.inj hdue
    · cases hdue
  rw [← hattempt, (h.of_deadline hd).1]
  exact transportFailed_of_connecting hstate _

end Timed

theorem timed_after (timeout : Duration) (calls : List Call) :
    Timed timeout ((new timeout).trace calls) ((new timeout).after calls) := by
  induction calls using List.reverseRecOn with
  | nil => exact .new timeout
  | append_singleton calls call ih =>
      rw [trace_concat, after_concat]
      exact Timed.concat (e := ⟨(new timeout).after calls, call⟩) ih

/-! ## The main statement -/

/-- **A session is consistent at all times.**  Take any calls, whatever attempts they name and
whatever the clock shows.  A deadline is armed exactly while an attempt is in flight; it is that
of the current attempt, and due when the timeout has passed since the call that started this
attempt.  Unless the session is idle, valid credentials are stored, and it is connected to no
table but theirs.  A call that is answered with an error leaves the whole machine as it was, and
so does a disconnect that finds nothing to end.  No connection is refused for want of credentials.
And whenever the deadline of an attempt has passed, the attempt can be timed out. -/
theorem session_stays_consistent (timeout : Duration) (calls : List Call) :
    let m := (new timeout).after calls
    ((m.deadline.isSome ↔ m.state = .connecting) ∧
        ∀ d, m.deadline = some d → d.attempt = m.attempt ∧
          ∃ now, StartedAt ((new timeout).trace calls) d.attempt now ∧
            d.due = now + timeout.nanoseconds) ∧
      (m.state ≠ .idle → ∃ c, m.credentials = some c ∧ c.validate = .ok () ∧
        ∀ table, m.state = .connected table → table = c.table) ∧
      (∀ call, (m.perform call).2.isOk = false → (m.perform call).1 = m) ∧
      (∀ attempt state event,
        (m.transportConnected attempt).2 ≠ .error (.invalidTransition state event)) ∧
      ∀ now attempt, m.overdue? now = some attempt → (m.timedOut attempt).2 = .ok () := by
  intro m
  have htimed : Timed timeout ((new timeout).trace calls) m := timed_after timeout calls
  have hvouched : m.Vouched := vouched_after timeout calls
  refine ⟨⟨htimed.isSome_deadline_iff, fun d => htimed.of_deadline⟩, hvouched, ?_, ?_, ?_⟩
  · intro call hfails
    rcases m.perform_spec call with ⟨hsucceeds, _⟩ | ⟨_, hsame⟩
    · simp [hsucceeds] at hfails
    · exact hsame
  · intro attempt state event herror
    exact nomatch hvouched.transportConnected_error herror
  · intro now attempt hoverdue
    rw [htimed.timedOut_of_overdue hoverdue]

/-- The second attempt is timed from its own start. -/
example :
    let calls : List Call :=
      [.connect 0 ⟨"key", "table"⟩, .transportFailed 1 "refused", .connect 7 ⟨"key", "table"⟩]
    ((new ⟨10⟩).after calls).overdue? 16 = none ∧
      ((new ⟨10⟩).after calls).overdue? 17 = some 2 := by
  decide

end DiceTable.Machine
