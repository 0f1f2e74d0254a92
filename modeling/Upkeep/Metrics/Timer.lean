import Upkeep.Span

/-!
This module contains timers that tick in a period. Whoever takes a tick is told when the next one is
due. How a timer works that out is left open. What is relied on is said by `Timer.Delays` and
`Timer.Keeps`, and `Timer.delaying` is one of which all this holds.
-/

namespace Upkeep.Metrics

/--
The clock of a machine has 63 bits for the seconds.
-/
def inClock (t : Span) : Bool := t.nanos / 1000000000 < Nat.pow 2 63

/--
When the next tick is due, for a tick that was due at one time and is taken at another. If there is
no answer, taking the tick crashes.
-/
abbrev Timer := (due now period : Span) → Option Span

namespace Timer

/--
Whether a tick is taken in time, which is at most five milliseconds late.
-/
def isPrompt (due now : Span) : Bool := now ≤ due + Span.ofMillis 5

/--
How far away a tick is put for which the clock has no room: thirty years of 365 days.
-/
def farFuture : Span := Span.ofSeconds (30 * 365 * 86400)

/--
What is known of the ticks for a clock that shows `epoch` at the time zero. One that is taken in time
is always followed by another one, if the clock has room for the far future. A late one is followed
by one that is due a period after it was taken, and it crashes if that is beyond the clock.
-/
structure Delays (timer : Timer) (epoch : Span) : Prop where
  prompt : ∀ due now period, isPrompt due now = true → inClock (epoch + now + farFuture) = true →
    ∃ next, timer due now period = some next
  late : ∀ due now period, isPrompt due now = false →
    timer due now period = if inClock (epoch + now + period) then some (now + period) else none

/--
Ticks that are taken in time keep to a period, as long as they do not get beyond the clock.
-/
def Keeps (timer : Timer) (epoch period : Span) : Prop :=
  ∀ due now, isPrompt due now = true → inClock (epoch + due + period) = true →
    timer due now period = some (due + period)

/--
A timer whose late ticks delay the later ones.
-/
def delaying (epoch : Span) : Timer := fun due now period =>
  if isPrompt due now && inClock (epoch + due + period) then some (due + period)
  else
    let wait := if isPrompt due now then farFuture else period
    if inClock (epoch + now + wait) then some (now + wait) else none

theorem delays_delaying (epoch : Span) : (delaying epoch).Delays epoch where
  prompt := by
    intro due now period hprompt hfuture
    unfold delaying
    split
    . exact ⟨_, rfl⟩
    . exact ⟨now + farFuture, by simp [hfuture]⟩
  late := by
    intro due now period hlate
    simp [delaying, hlate]

theorem keeps_delaying (epoch period : Span) : (delaying epoch).Keeps epoch period := by
  intro due now hprompt hclock
  simp [delaying, hprompt, hclock]

theorem isPrompt_of_le {due now : Span} (h : now ≤ due) : isPrompt due now = true :=
  decide_eq_true (Nat.le_add_right_of_le h)

end Timer

theorem inClock_of_earlier {epoch earlier later wait : Span} (hle : earlier ≤ later)
    (hroom : inClock (epoch + later + wait) = true) : inClock (epoch + earlier + wait) = true := by
  simp only [inClock, Span.nanos_add, decide_eq_true_eq] at hroom ⊢
  have hnanos : epoch.nanos + earlier.nanos + wait.nanos ≤ epoch.nanos + later.nanos + wait.nanos :=
    Nat.add_le_add_right (Nat.add_le_add_left hle _) _
  exact Nat.lt_of_le_of_lt (Nat.div_le_div_right hnanos) hroom

end Upkeep.Metrics
