import DiceTable.Client.Config
import DiceTable.Proofs.Text.Blank
import Mathlib.Logic.Function.Iterate

/-!
# Validation of the settings

Validation repairs each setting by itself: it moves a number into its range, puts the usual
duration in place of none at all, trims both addresses and cuts slashes off the end of the
server's.  What is in order stays (`Keeps`), and only settings that are all in order stay as a
whole (`validated_eq_self_iff`).

```text
socket address     trimmed
server address     no blank in front, no slash at the end; a blank at the end if slashes hid it
durations          more than none
feed               1 to 1000 rolls
queues             at least 1 place
```

The server's address is trimmed before its slashes are cut off.  So a blank before the slashes
comes to stand at the end and is trimmed by the next validation only (`not_settled_at_once`).
Each validation makes such an address shorter, and one of them is the last that changes anything.
-/

namespace DiceTable.Config

/-! ## Settings in order -/

/-- The settings are in order, but for a blank at the end of the server's address. -/
structure IsUsable (c : Config) : Prop where
  socketUrl : Text.IsTrimmed c.socketUrl
  serverUrl_head : ∀ x, c.serverUrl.toList.head? = some x → Text.isBlank x = false
  serverUrl_slash : c.serverUrl.toList.getLast? ≠ some '/'
  connectTimeout : 0 < c.connectTimeout.nanoseconds
  requestTimeout : 0 < c.requestTimeout.nanoseconds
  feedCapacity : 1 ≤ c.feedCapacity ∧ c.feedCapacity ≤ 1000
  commandBuffer : 1 ≤ c.commandBuffer
  eventBuffer : 1 ≤ c.eventBuffer

/-- The settings are in order. -/
structure IsValid (c : Config) : Prop extends IsUsable c where
  serverUrl : Text.IsTrimmed c.serverUrl

/-- The settings `d` have each value of `c` that is in order, and each that needs no order. -/
structure Keeps (c d : Config) : Prop where
  socketUrl : Text.IsTrimmed c.socketUrl → d.socketUrl = c.socketUrl
  serverUrl : Text.IsTrimmed c.serverUrl → c.serverUrl.toList.getLast? ≠ some '/' →
    d.serverUrl = c.serverUrl
  connectTimeout : 0 < c.connectTimeout.nanoseconds → d.connectTimeout = c.connectTimeout
  requestTimeout : 0 < c.requestTimeout.nanoseconds → d.requestTimeout = c.requestTimeout
  feedCapacity : 1 ≤ c.feedCapacity → c.feedCapacity ≤ 1000 → d.feedCapacity = c.feedCapacity
  commandBuffer : 1 ≤ c.commandBuffer → d.commandBuffer = c.commandBuffer
  eventBuffer : 1 ≤ c.eventBuffer → d.eventBuffer = c.eventBuffer
  wireFormat : d.wireFormat = c.wireFormat
  appName : d.appName = c.appName
  appVersion : d.appVersion = c.appVersion

/-! ## One validation -/

theorem positiveOr_pos {usual : Duration} (h : 0 < usual.nanoseconds) (given : Duration) :
    0 < (positiveOr usual given).nanoseconds := by
  unfold positiveOr
  split <;> omega

theorem positiveOr_eq_self {given : Duration} (h : 0 < given.nanoseconds) (usual : Duration) :
    positiveOr usual given = given :=
  if_neg (Nat.pos_iff_ne_zero.mp h)

@[simp] theorem serverUrl_validated (c : Config) :
    c.validated.serverUrl = Text.dropSlashes (Text.trim c.serverUrl) := rfl

theorem isUsable_validated (c : Config) : c.validated.IsUsable where
  socketUrl := Text.isTrimmed_trim c.socketUrl
  serverUrl_head _ hx := Text.head?_dropSlashes_trim hx
  serverUrl_slash := Text.getLast?_dropSlashes_ne (Text.trim c.serverUrl)
  connectTimeout := positiveOr_pos (by decide) c.connectTimeout
  requestTimeout := positiveOr_pos (by decide) c.requestTimeout
  feedCapacity := by
    show 1 ≤ min (max c.feedCapacity 1) 1000 ∧ min (max c.feedCapacity 1) 1000 ≤ 1000
    omega
  commandBuffer := Nat.le_max_right c.commandBuffer 1
  eventBuffer := Nat.le_max_right c.eventBuffer 1

theorem keeps_validated (c : Config) : Keeps c c.validated where
  socketUrl := Text.trim_eq_self
  serverUrl htrimmed hslash := Text.dropSlashes_trim_eq_self_iff.mpr ⟨htrimmed, hslash⟩
  connectTimeout h := positiveOr_eq_self h _
  requestTimeout h := positiveOr_eq_self h _
  feedCapacity hlow hhigh := by
    show min (max c.feedCapacity 1) 1000 = c.feedCapacity
    omega
  commandBuffer h := Nat.max_eq_left h
  eventBuffer h := Nat.max_eq_left h
  wireFormat := rfl
  appName := rfl
  appVersion := rfl

/-- Settings that keep all of settings in order are the same. -/
theorem Keeps.eq {c d : Config} (h : Keeps c d) (hc : c.IsValid) : d = c := by
  cases c
  cases d
  rw [Config.mk.injEq]
  exact ⟨h.socketUrl hc.socketUrl, h.wireFormat, h.serverUrl hc.serverUrl hc.serverUrl_slash,
    h.connectTimeout hc.connectTimeout, h.requestTimeout hc.requestTimeout,
    h.feedCapacity hc.feedCapacity.1 hc.feedCapacity.2, h.appName, h.appVersion,
    h.commandBuffer hc.commandBuffer, h.eventBuffer hc.eventBuffer⟩

theorem isValid_validated_iff (c : Config) :
    c.validated.IsValid ↔ ¬ Text.BlankBeforeSlashes c.serverUrl :=
  ⟨fun h => Text.isTrimmed_dropSlashes_trim_iff.mp h.serverUrl,
    fun h => ⟨c.isUsable_validated, Text.isTrimmed_dropSlashes_trim_iff.mpr h⟩⟩

/-- Exactly the settings in order stay as they are. -/
theorem validated_eq_self_iff {c : Config} : c.validated = c ↔ c.IsValid := by
  constructor
  · intro h
    have hserver : Text.dropSlashes (Text.trim c.serverUrl) = c.serverUrl := by
      rw [← serverUrl_validated, h]
    have husable := c.isUsable_validated
    rw [h] at husable
    exact ⟨husable, (Text.dropSlashes_trim_eq_self_iff.mp hserver).1⟩
  · exact c.keeps_validated.eq

/-! ## Validation again and again -/

/-- There are no more rounds than the address has characters, and one. -/
theorem exists_isValid_iterate (c : Config) :
    ∃ rounds ≤ c.serverUrl.length + 1, (validated^[rounds] c).IsValid := by
  induction hlength : c.serverUrl.length using Nat.strong_induction_on generalizing c with
  | _ length ih =>
      by_cases hblank : Text.BlankBeforeSlashes c.serverUrl
      · have hshorter : c.validated.serverUrl.length < length := hlength ▸ hblank.length_lt
        obtain ⟨rounds, hrounds, hvalid⟩ := ih _ hshorter c.validated rfl
        exact ⟨rounds + 1, by omega, hvalid⟩
      · exact ⟨1, by omega, c.isValid_validated_iff.mpr hblank⟩

/-- **Validation settles the settings, up to a blank that slashes hide.**  It puts everything in
order but perhaps the end of the server's address, and keeps every value that is in order.  The
settings that it leaves alone are those in order.  One validation is enough, and a second one
changes nothing, exactly if the server's address does not end in a blank and slashes; otherwise so
many more validations are enough. -/
theorem validated_settles (c : Config) :
    c.validated.IsUsable ∧ Keeps c c.validated ∧ (c.validated = c ↔ c.IsValid) ∧
      (c.validated.IsValid ↔ ¬ Text.BlankBeforeSlashes c.serverUrl) ∧
      (c.validated.validated = c.validated ↔ ¬ Text.BlankBeforeSlashes c.serverUrl) ∧
      ∃ rounds ≤ c.serverUrl.length + 1, (validated^[rounds] c).IsValid := by
  have hagain : c.validated.validated = c.validated ↔ ¬ Text.BlankBeforeSlashes c.serverUrl :=
    validated_eq_self_iff.trans c.isValid_validated_iff
  exact ⟨c.isUsable_validated, c.keeps_validated, validated_eq_self_iff, c.isValid_validated_iff,
    hagain, c.exists_isValid_iterate⟩

/-- The blank between two slashes is uncovered by the first validation and trimmed by the second. -/
theorem not_settled_at_once :
    let c : Config := { serverUrl := "http://localhost:3000/ /" }
    c.validated.serverUrl = "http://localhost:3000/ " ∧ ¬ c.validated.IsValid ∧
      c.validated.validated.serverUrl = "http://localhost:3000" ∧
      c.validated.validated ≠ c.validated := by
  intro c
  have hfirst : c.validated.serverUrl = "http://localhost:3000/ " := by decide
  have hsecond : c.validated.validated.serverUrl = "http://localhost:3000" := by decide
  have hvalid : ¬ c.validated.IsValid := by
    intro h
    have hend := h.serverUrl.last ' ' (by rw [hfirst]; decide)
    cases hend
  refine ⟨hfirst, hvalid, hsecond, fun hsame => ?_⟩
  rw [hsame, hfirst] at hsecond
  exact absurd hsecond (by decide)

end DiceTable.Config
