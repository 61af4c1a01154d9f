import Mathlib.Data.Nat.Basic
import Neonfi.Lib.Run

/-!
# Attempts against a counter that is checked first and raised later

Concurrent attempts share a counter with a limit.  An attempt is admitted when it reads a count
below the limit, it may fail some time later, and the failure is counted later still.  Each of
these is a step of its own, so attempts that were admitted together can fail together: the
failures since the last reset stay below the limit plus the number of attempts in flight.
-/

namespace Lib

/-- The counter, the failures since its last reset, and of the attempts in flight how many are
still to be counted and how many are admitted and not decided. -/
structure Tally where
  count : ℕ
  failed : ℕ
  uncounted : ℕ
  admitted : ℕ
  inFlight : ℕ

namespace Tally

/-- What one step does to the tally. -/
inductive Move (limit : ℕ) : Tally → Tally → Prop
  | quiet {t t' : Tally} : t'.count = t.count → t'.failed = t.failed →
      t'.uncounted = t.uncounted → t'.admitted ≤ t.admitted → t'.inFlight ≤ t.inFlight →
      Move limit t t'
  | start {t t' : Tally} : t'.count = t.count → t'.failed = t.failed →
      t'.uncounted = t.uncounted → t'.admitted = t.admitted → t'.inFlight = t.inFlight + 1 →
      Move limit t t'
  | enter {t t' : Tally} : t.count < limit → t'.count = t.count → t'.failed = t.failed →
      t'.uncounted = t.uncounted → t'.admitted = t.admitted + 1 → t'.inFlight = t.inFlight →
      Move limit t t'
  | fail {t t' : Tally} : t'.count = t.count → t'.failed = t.failed + 1 →
      t'.uncounted = t.uncounted + 1 → t'.admitted + 1 = t.admitted →
      t'.inFlight = t.inFlight → Move limit t t'
  | record {t t' : Tally} : t'.count = t.count + 1 → t'.failed = t.failed →
      t'.uncounted + 1 = t.uncounted → t'.admitted = t.admitted → t'.inFlight = t.inFlight →
      Move limit t t'
  | reset {t t' : Tally} : t'.count = 0 → t'.failed = 0 → t'.inFlight = t.inFlight →
      Move limit t t'

/-- Below the limit every failure is counted or about to be; once it is reached, no more can
fail than were admitted before. -/
structure Within (limit width : ℕ) (t : Tally) : Prop where
  inFlight : t.inFlight ≤ width
  parts : t.uncounted + t.admitted ≤ t.inFlight
  below : t.count < limit → t.failed ≤ t.count + t.uncounted
  reached : limit ≤ t.count → t.failed + t.admitted < limit + width

variable {limit width : ℕ} {t t' : Tally}

theorem Within.failed_lt (h : t.Within limit width) : t.failed < limit + width := by
  have hflight := h.inFlight
  have hparts := h.parts
  rcases Nat.lt_or_ge t.count limit with hlt | hge
  · have hbelow := h.below hlt
    omega
  · have hreached := h.reached hge
    omega

/-- Every move keeps the bound, as long as no more than `width` attempts are in flight. -/
theorem Within.move (h : t.Within limit width) (hlimit : 1 ≤ limit) (hwidth : t'.inFlight ≤ width)
    (hparts : t'.uncounted + t'.admitted ≤ t'.inFlight) (hmove : Move limit t t') :
    t'.Within limit width := by
  obtain ⟨hflight, hparts₀, hbelow, hreached⟩ := h
  refine ⟨hwidth, hparts, ?_, ?_⟩
  · intro hlt
    cases hmove <;> omega
  · intro hge
    cases hmove <;> omega

end Tally

end Lib
