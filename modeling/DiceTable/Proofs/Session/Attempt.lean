import DiceTable.Proofs.Session.Transition
import Mathlib.Data.List.Induction

/-!
# Attempts end for good

A session machine is driven by calls in any order, each with any attempt number.  The *trace* of a
run lists the calls together with the machine that each of them finds.

## Strategy

An attempt goes through two points of no return.  Once it is `Resolved`, it is not in flight and
never will be again, since a new attempt has a new number.  Once it is `Over`, it is not connected
either.  Both are kept by every call (`Resolved.next`, `Over.next`).  A call that takes the outcome
of an attempt resolves it and needs it unresolved, and a call that takes the loss of its connection
ends it and needs it not over; so each happens at most once (`countP_trace_le_one`).

Whether an attempt is live after a call is decided by the call and by whether it was live before
(`isLive_next`).  Read along the trace, this says that it is live since it was opened.
-/

namespace DiceTable.Machine

/-! ## Traces -/

/-- A call and the machine that it finds. -/
structure Entry where
  before : Machine
  call : Call

namespace Entry

def answer (e : Entry) : Answer := (e.before.perform e.call).2

def next (e : Entry) : Machine := (e.before.perform e.call).1

def succeeds (e : Entry) : Bool := e.answer.isOk

/-- The number of the attempt that the call starts. -/
def started? (e : Entry) : Option Attempt :=
  match e.answer with
  | .started (.ok attempt) => some attempt
  | _ => none

/-- Whether the attempt connects here. -/
def opens (k : Attempt) (e : Entry) : Bool := e.succeeds && e.call == .transportConnected k

/-- Whether the outcome of the attempt is taken here: that it connects, fails or takes too long. -/
def settles (k : Attempt) (e : Entry) : Bool :=
  e.succeeds &&
    match e.call with
    | .transportConnected attempt => attempt == k
    | .transportFailed attempt _ => attempt == k
    | .timedOut attempt => attempt == k
    | _ => false

/-- Whether the connection of the attempt is lost here. -/
def drops (k : Attempt) (e : Entry) : Bool := e.succeeds && e.call == .transportDisconnected k

/-- Whether a session is ended on request here. -/
def leaves (e : Entry) : Bool := e.succeeds && e.call == .disconnect

theorem spec (e : Entry) :
    e.succeeds = true ∧ Move e.before e.call e.next ∨ e.succeeds = false ∧ e.next = e.before :=
  perform_spec e.before e.call

theorem move_of_succeeds {e : Entry} (h : e.succeeds = true) : Move e.before e.call e.next := by
  rcases e.spec with ⟨_, hmove⟩ | ⟨hfails, _⟩
  · exact hmove
  · simp [hfails] at h

end Entry

/-- The machine after the calls. -/
def after (m : Machine) (calls : List Call) : Machine :=
  calls.foldl (fun m call => (m.perform call).1) m

/-- The calls of a run, each with the machine that it finds. -/
def trace (m : Machine) : List Call → List Entry
  | [] => []
  | call :: calls => ⟨m, call⟩ :: trace (m.perform call).1 calls

theorem after_concat (m : Machine) (calls : List Call) (call : Call) :
    m.after (calls ++ [call]) = (Entry.mk (m.after calls) call).next := by
  simp [after, Entry.next]

theorem trace_concat (m : Machine) (calls : List Call) (call : Call) :
    m.trace (calls ++ [call]) = m.trace calls ++ [⟨m.after calls, call⟩] := by
  induction calls generalizing m with
  | nil => rfl
  | cons first calls ih => simp [trace, ih, after]

/-- An entry of a trace divides the run into the calls before it and those after it. -/
theorem trace_eq_append_cons {m : Machine} {calls : List Call} {past future : List Entry}
    {e : Entry} (h : m.trace calls = past ++ e :: future) :
    ∃ earlier later, past = m.trace earlier ∧ e.before = m.after earlier ∧
      future = e.next.trace later := by
  induction past generalizing m calls with
  | nil =>
      cases calls with
      | nil => simp [trace] at h
      | cons call calls =>
          simp only [trace, List.nil_append, List.cons.injEq] at h
          obtain ⟨rfl, rfl⟩ := h
          exact ⟨[], calls, rfl, rfl, rfl⟩
  | cons first past ih =>
      cases calls with
      | nil => simp [trace] at h
      | cons call calls =>
          simp only [trace, List.cons_append, List.cons.injEq] at h
          obtain ⟨rfl, h⟩ := h
          obtain ⟨earlier, later, hpast, hbefore, hfuture⟩ := ih h
          exact ⟨call :: earlier, later, by simp [trace, hpast], hbefore, hfuture⟩

/-! ## Points of no return -/

section NoReturn

variable {P : Machine → Prop} {event : Entry → Bool} {m : Machine}

/-- What no call makes after a point of no return does not happen there any more. -/
theorem event_eq_false_of_mem_trace (hkeep : ∀ e : Entry, P e.before → P e.next)
    (hbar : ∀ e : Entry, P e.before → event e = false) (hm : P m) (calls : List Call) :
    ∀ e ∈ m.trace calls, event e = false := by
  induction calls generalizing m with
  | nil => simp [trace]
  | cons call calls ih =>
      intro e he
      rcases List.mem_cons.mp he with rfl | he
      · exact hbar _ hm
      · exact ih (hkeep ⟨m, call⟩ hm) e he

/-- What leads to a point of no return and is barred behind it happens at most once. -/
theorem countP_trace_le_one (hkeep : ∀ e : Entry, P e.before → P e.next)
    (hbar : ∀ e : Entry, P e.before → event e = false)
    (hset : ∀ e : Entry, event e = true → P e.next) (m : Machine) (calls : List Call) :
    (m.trace calls).countP event ≤ 1 := by
  induction calls generalizing m with
  | nil => simp [trace]
  | cons call calls ih =>
      rw [trace, List.countP_cons]
      by_cases hevent : event ⟨m, call⟩ = true
      · have hrest : (trace (m.perform call).1 calls).countP event = 0 := by
          rw [List.countP_eq_zero]
          intro e he
          simp [event_eq_false_of_mem_trace hkeep hbar (hset _ hevent) calls e he]
        simp [hrest, hevent]
      · simpa [hevent] using ih (m.perform call).1

end NoReturn

/-- The attempt is not in flight, and will not be again. -/
def Resolved (k : Attempt) (m : Machine) : Prop :=
  k < m.attempt ∨ k = m.attempt ∧ m.state ≠ .connecting

/-- The attempt is neither in flight nor connected, and will not be again. -/
def Over (k : Attempt) (m : Machine) : Prop :=
  k < m.attempt ∨ k = m.attempt ∧ m.state.isActive = false

section Attempt

variable {k : Attempt} {m m' : Machine} {call : Call} {e : Entry}

theorem Resolved.le (h : Resolved k m) : k ≤ m.attempt :=
  h.elim Nat.le_of_lt fun hcurrent => Nat.le_of_eq hcurrent.1

theorem Over.resolved (h : Over k m) : Resolved k m := by
  rcases h with hpast | ⟨hcurrent, hinactive⟩
  · exact .inl hpast
  · refine .inr ⟨hcurrent, ?_⟩
    intro hstate
    simp [hstate, SessionState.isActive] at hinactive

/-- A new attempt has a new number, and every other call leads out of the flight. -/
theorem Resolved.move (h : Resolved k m) (hmove : Move m call m') : Resolved k m' := by
  cases hmove with
  | connect => exact .inl (Nat.lt_succ_of_le h.le)
  | _ => exact h.imp_right fun hcurrent => ⟨hcurrent.1, by simp⟩

theorem Over.move (h : Over k m) (hmove : Move m call m') : Over k m' := by
  cases hmove with
  | connect => exact .inl (Nat.lt_succ_of_le h.resolved.le)
  | transportConnected hstate =>
      refine h.imp_right fun hcurrent => ?_
      simp [hstate, SessionState.isActive] at hcurrent
  | _ => exact h.imp_right fun hcurrent => ⟨hcurrent.1, by simp [SessionState.isActive]⟩

theorem Resolved.next (h : Resolved k e.before) : Resolved k e.next := by
  rcases e.spec with ⟨_, hmove⟩ | ⟨_, hsame⟩
  · exact h.move hmove
  · rwa [hsame]

theorem Over.next (h : Over k e.before) : Over k e.next := by
  rcases e.spec with ⟨_, hmove⟩ | ⟨_, hsame⟩
  · exact h.move hmove
  · rwa [hsame]

/-! ### The outcome of an attempt -/

/-- The outcome is taken of an attempt in flight, which is resolved by it. -/
theorem Entry.settles_spec (h : e.settles k = true) :
    k = e.before.attempt ∧ e.before.state = .connecting ∧ Resolved k e.next := by
  rw [Entry.settles, Bool.and_eq_true] at h
  have hmove := Entry.move_of_succeeds h.1
  have hcall := h.2
  revert hmove hcall
  generalize e.call = call, e.next = m'
  intro hmove hcall
  cases hmove with
  | connect => simp at hcall
  | transportDisconnected => simp at hcall
  | disconnect => simp at hcall
  | _ hstate =>
      have hk : e.before.attempt = k := by simpa using hcall
      exact ⟨hk.symm, hstate, .inr ⟨hk.symm, by simp⟩⟩

theorem Resolved.settles_eq_false (h : Resolved k e.before) : e.settles k = false := by
  by_contra hsettles
  obtain ⟨hk, hstate, _⟩ := Entry.settles_spec (by simpa using hsettles)
  rcases h with hlt | ⟨_, hne⟩
  · exact absurd hk (Nat.ne_of_lt hlt)
  · exact hne hstate

theorem countP_settles_le_one (k : Attempt) (m : Machine) (calls : List Call) :
    (m.trace calls).countP (·.settles k) ≤ 1 :=
  countP_trace_le_one (fun _ => Resolved.next) (fun _ => Resolved.settles_eq_false)
    (fun _ h => (Entry.settles_spec h).2.2) m calls

/-! ### The loss of a connection -/

/-- A connection is lost by the attempt that is connected, which is over then. -/
theorem Entry.drops_spec (h : e.drops k = true) :
    e.before.isLive k = true ∧ Over k e.next := by
  rw [Entry.drops, Bool.and_eq_true, beq_iff_eq] at h
  have hmove := Entry.move_of_succeeds h.1
  have hcall := h.2
  revert hmove
  rw [hcall]
  generalize e.next = m'
  intro hmove
  cases hmove with
  | transportDisconnected hstate =>
      exact ⟨by simp [isLive, hstate, SessionState.isConnected],
        .inr ⟨rfl, by simp [SessionState.isActive]⟩⟩

theorem Over.isLive_eq_false (h : Over k m) : m.isLive k = false := by
  rcases h with hlt | ⟨hk, hinactive⟩
  · simp [isLive, (Nat.ne_of_lt hlt).symm]
  · cases hstate : m.state <;> simp_all [isLive, SessionState.isActive, SessionState.isConnected]

theorem Resolved.of_isLive (h : m.isLive k = true) : Resolved k m := by
  rw [isLive, Bool.and_eq_true, beq_iff_eq] at h
  refine .inr ⟨h.1.symm, ?_⟩
  intro hstate
  simp [hstate, SessionState.isConnected] at h

/-- A resolved attempt is connected or over. -/
theorem Resolved.over (h : Resolved k m) (hdead : m.isLive k = false) : Over k m := by
  refine h.imp_right fun ⟨hcurrent, hconnecting⟩ => ⟨hcurrent, ?_⟩
  rw [isLive, hcurrent, beq_self_eq_true, Bool.true_and] at hdead
  cases hstate : m.state <;> simp_all [SessionState.isActive, SessionState.isConnected]

theorem Over.drops_eq_false (h : Over k e.before) : e.drops k = false := by
  by_contra hdrops
  have hlive := (Entry.drops_spec (by simpa using hdrops)).1
  simp [h.isLive_eq_false] at hlive

theorem countP_drops_le_one (k : Attempt) (m : Machine) (calls : List Call) :
    (m.trace calls).countP (·.drops k) ≤ 1 :=
  countP_trace_le_one (fun _ => Over.next) (fun _ => Over.drops_eq_false)
    (fun _ h => (Entry.drops_spec h).2) m calls

/-! ### The end on request -/

/-- Whoever ends a session on request ends the attempt that is current. -/
theorem Entry.leaves_spec (h : e.leaves = true) : Over e.before.attempt e.next := by
  rw [Entry.leaves, Bool.and_eq_true, beq_iff_eq] at h
  have hmove := Entry.move_of_succeeds h.1
  rw [h.2] at hmove
  generalize e.next = m' at hmove
  cases hmove with
  | disconnect => exact .inr ⟨rfl, by simp [SessionState.isActive]⟩

/-! ### Being live -/

/-- An attempt is live after a call that opens it, and stays so until it is dropped or left. -/
theorem isLive_next (k : Attempt) (e : Entry) :
    e.next.isLive k = (e.opens k || e.before.isLive k && !(e.drops k || e.leaves)) := by
  unfold Entry.opens Entry.drops Entry.leaves
  rcases e.spec with ⟨hsucceeds, hmove⟩ | ⟨hfails, hsame⟩
  · rw [hsucceeds]
    revert hmove
    generalize e.call = call, e.next = m'
    intro hmove
    cases hmove with
    | connect _ hinactive =>
        have hidle : e.before.state.isConnected = false := by
          cases hstate : e.before.state <;>
            simp_all [SessionState.isActive, SessionState.isConnected]
        have hnew : SessionState.connecting.isConnected = false := rfl
        simp [isLive, hidle, hnew]
    | transportConnected hstate => simp [isLive, hstate, SessionState.isConnected]
    | transportFailed hstate => simp [isLive, hstate, SessionState.isConnected]
    | timedOut hstate => simp [isLive, hstate, SessionState.isConnected]
    | transportDisconnected hstate =>
        by_cases hk : e.before.attempt = k <;> simp [isLive, SessionState.isConnected, hk]
    | disconnect => simp [isLive, SessionState.isConnected]
  · simp [hfails, hsame]

/-- An attempt is live exactly when it was opened and neither dropped nor left since. -/
theorem isLive_after_iff {m : Machine} (hm : m.isLive k = false) (calls : List Call) :
    (m.after calls).isLive k = true ↔
      ∃ past e future, m.trace calls = past ++ e :: future ∧ e.opens k = true ∧
        ∀ later ∈ future, later.drops k = false ∧ later.leaves = false := by
  induction calls using List.reverseRecOn with
  | nil => simp [after, trace, hm]
  | append_singleton calls call ih =>
      rw [after_concat, trace_concat, isLive_next, Bool.or_eq_true, Bool.and_eq_true]
      -- The last entry opens the attempt, or an earlier one did and the last does not end it.
      constructor
      · rintro (hopens | ⟨hlive, hstays⟩)
        · exact ⟨_, _, [], rfl, hopens, by simp⟩
        · obtain ⟨past, e, future, htrace, hopens, hfuture⟩ := ih.mp hlive
          refine ⟨past, e, future ++ [⟨m.after calls, call⟩], by simp [htrace], hopens, ?_⟩
          intro later hlater
          rcases List.mem_append.mp hlater with hlater | hlater
          · exact hfuture later hlater
          · rw [List.mem_singleton.mp hlater]
            simpa using hstays
      · rintro ⟨past, e, future, htrace, hopens, hfuture⟩
        rcases List.eq_nil_or_concat future with rfl | ⟨future, last, rfl⟩
        · obtain ⟨_, hlast⟩ := List.append_inj' htrace rfl
          obtain rfl := (List.cons.inj hlast).1
          exact .inl hopens
        · rw [List.concat_eq_append, ← List.cons_append, ← List.append_assoc] at htrace
          obtain ⟨hpast, hlast⟩ := List.append_inj' htrace rfl
          obtain rfl := (List.cons.inj hlast).1
          right
          refine ⟨ih.mpr ⟨past, e, future, hpast, hopens, ?_⟩, ?_⟩
          · intro later hlater
            exact hfuture later (by simp [hlater])
          · simpa using hfuture ⟨m.after calls, call⟩ (by simp)

end Attempt

/-! ## The numbers of the attempts -/

/-- A call that starts an attempt gives it the next number, and no other call changes the number. -/
theorem Entry.attempt_next (e : Entry) :
    e.started? = some (e.before.attempt + 1) ∧ e.next.attempt = e.before.attempt + 1 ∨
      e.started? = none ∧ e.next.attempt = e.before.attempt := by
  cases hcall : e.call with
  | connect now c =>
      rcases connect_cases e.before now c with ⟨error, h⟩ | ⟨_, _, h⟩
      · right
        simp [Entry.started?, Entry.answer, Entry.next, hcall, perform, h]
      · left
        simp [Entry.started?, Entry.answer, Entry.next, hcall, perform, h]
  | _ =>
      right
      refine ⟨by simp [Entry.started?, Entry.answer, hcall, perform], ?_⟩
      rcases e.spec with ⟨_, hmove⟩ | ⟨_, hsame⟩
      · rw [hcall] at hmove
        generalize e.next = m' at hmove
        cases hmove
        rfl
      · rw [hsame]

/-- Attempts are numbered without gaps. -/
theorem filterMap_started?_trace (m : Machine) (calls : List Call) :
    (m.trace calls).filterMap Entry.started? =
      List.range' (m.attempt + 1) ((m.trace calls).filterMap Entry.started?).length := by
  induction calls generalizing m with
  | nil => rfl
  | cons call calls ih =>
      have hrest := ih (Entry.mk m call).next
      rw [trace, List.filterMap_cons]
      rcases (Entry.mk m call).attempt_next with ⟨hstarted, hnext⟩ | ⟨hstarted, hnext⟩
      · rw [hnext] at hrest
        rw [hstarted, List.length_cons, List.range'_succ]
        exact congrArg _ hrest
      · rw [hnext] at hrest
        rw [hstarted]
        exact hrest

/-! ## The main statement -/

/-- **An attempt that is over never comes back.**  In every run of a session, the attempts that are
started are numbered `1, 2, …`.  Of each attempt one outcome is taken at most, and none once the
session was left while the attempt was current.  Its connection is lost at most once, and only
after it was opened.  And it is live exactly since it was opened, until it is dropped or left. -/
theorem attempts_end_for_good (timeout : Duration) (calls : List Call) :
    let run := (new timeout).trace calls
    let numbers := run.filterMap Entry.started?
    (numbers.Pairwise (· < ·) ∧ numbers = List.range' 1 numbers.length) ∧
      ∀ k : Attempt,
        run.countP (·.settles k) ≤ 1 ∧
        (∀ past e future, run = past ++ e :: future → e.leaves = true → e.before.attempt = k →
          ∀ later ∈ future, later.settles k = false) ∧
        run.countP (·.drops k) ≤ 1 ∧
        (∀ past e future, run = past ++ e :: future → e.drops k = true →
          ∃ earlier ∈ past, earlier.opens k = true) ∧
        (((new timeout).after calls).isLive k = true ↔
          ∃ past e future, run = past ++ e :: future ∧ e.opens k = true ∧
            ∀ later ∈ future, later.drops k = false ∧ later.leaves = false) := by
  intro run numbers
  have hnumbers : numbers = List.range' 1 numbers.length :=
    filterMap_started?_trace (new timeout) calls
  have hnew (k : Attempt) : (new timeout).isLive k = false := by
    simp [isLive, new, SessionState.isConnected]
  refine ⟨⟨?_, hnumbers⟩, fun k => ⟨countP_settles_le_one k _ calls, ?_,
    countP_drops_le_one k _ calls, ?_, isLive_after_iff (hnew k) calls⟩⟩
  · rw [hnumbers]
    exact List.pairwise_lt_range'
  · intro past e future hrun hleaves hcurrent
    obtain ⟨_, later, _, _, rfl⟩ := trace_eq_append_cons hrun
    have hresolved : Resolved k e.next := hcurrent ▸ (Entry.leaves_spec hleaves).resolved
    exact event_eq_false_of_mem_trace (fun _ => Resolved.next)
      (fun _ => Resolved.settles_eq_false) hresolved later
  · intro past e future hrun hdrops
    obtain ⟨earlier, _, rfl, hbefore, _⟩ := trace_eq_append_cons hrun
    have hlive : ((new timeout).after earlier).isLive k = true :=
      hbefore ▸ (Entry.drops_spec hdrops).1
    obtain ⟨_, opening, _, htrace, hopens, _⟩ := (isLive_after_iff (hnew k) earlier).mp hlive
    exact ⟨opening, by simp [htrace], hopens⟩

/-- The first attempt takes too long and connects late, the second is left: neither comes back. -/
theorem attempts_end_for_good_reconnect :
    let timeout := Duration.ofSeconds 10
    let past : List Call :=
      [.connect 0 ⟨"key", "table"⟩, .timedOut 1, .transportConnected 1,
        .connect 5 ⟨"key", "table"⟩, .transportConnected 2]
    let left : Entry := ⟨(new timeout).after past, .disconnect⟩
    let run := (new timeout).trace (past ++ [.disconnect, .transportConnected 2, .timedOut 2])
    (left.leaves = true ∧ left.before.attempt = 2 ∧ left.before.isLive 2 = true) ∧
      run.countP (·.settles 1) = 1 ∧ run.countP (·.settles 2) = 1 ∧
      ∀ later ∈ left.next.trace [.transportConnected 2, .timedOut 2], later.settles 2 = false := by
  intro timeout past left run
  have hleaves : left.leaves = true := by decide
  have hend := (attempts_end_for_good timeout
    (past ++ [.disconnect, .transportConnected 2, .timedOut 2])).2 2
  refine ⟨⟨hleaves, rfl, by decide⟩, by decide, by decide, ?_⟩
  exact hend.2.1 ((new timeout).trace past) left _ rfl hleaves rfl

end DiceTable.Machine
